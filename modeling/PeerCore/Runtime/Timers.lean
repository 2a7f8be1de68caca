import PeerCore.Runtime.EventLoop

/-!
# Timers: what one call of `fire_timers` does, and how long `run` waits

`fire_timers` decides which callbacks to run by one reading of the clock and
which one-shot timers to remove by later ones, and sets a repeating timer again
for a sum that may wrap. `next_timer_delay` is a `long` of milliseconds that
becomes an `int` on the way to `epoll_wait`.

* `fires_properly_iff`: every timer is treated as it should be exactly when no
  one-shot timer falls due between the first reading and its own later one, and
  no sum wraps back to the deadline or before it.
* `wait_timeout_iff`: the timeout is never past the earliest deadline, and never
  negative, exactly when the delay in milliseconds has bit 31 clear.
-/

namespace PeerCore.Runtime

variable {γ : Type} {clock : ℕ → ℤ} {timers : List (Timer γ)}

/-! ## The two loops of `fire_timers` -/

/-- `t` after the first loop. -/
def Timer.refreshed (now : ℤ) (t : Timer γ) : Timer γ :=
  if now ≥ t.deadline ∧ t.repeats = true then
    { t with deadline := timePoint (now + millis t.interval) }
  else t

theorem Timer.refreshed_repeats (now : ℤ) (t : Timer γ) :
    (t.refreshed now).repeats = t.repeats := by
  unfold Timer.refreshed
  split_ifs <;> rfl

theorem Timer.refreshed_oneShot (now : ℤ) {t : Timer γ} (h : t.repeats = false) :
    t.refreshed now = t := by
  unfold Timer.refreshed
  simp [h]

theorem fireLoop_timers (now : ℤ) (slot : ℕ) (timers : List (Timer γ)) :
    (fireLoop now slot timers).1 = timers.map (Timer.refreshed now) := by
  induction timers generalizing slot with
  | nil => rfl
  | cons t timers ih =>
    rw [fireLoop, List.map_cons, ← ih (slot + 1), Timer.refreshed]
    dsimp only
    by_cases hdue : now ≥ t.deadline
    · rw [if_pos hdue]
      cases t.repeats <;> simp [hdue]
    · rw [if_neg hdue, if_neg fun h => hdue h.1]

/-- The callbacks run are those of the timers that are due. -/
theorem fireLoop_fired (now : ℤ) (slot : ℕ) (timers : List (Timer γ)) :
    (fireLoop now slot timers).2 =
      ((timers.zipIdx slot).filter fun e => e.1.deadline ≤ now).map Prod.snd := by
  induction timers generalizing slot with
  | nil => rfl
  | cons t timers ih =>
    rw [fireLoop, List.zipIdx_cons]
    dsimp only
    by_cases hdue : now ≥ t.deadline
    · rw [if_pos hdue, List.filter_cons_of_pos (by simpa using hdue), List.map_cons, ih]
    · rw [if_neg hdue, List.filter_cons_of_neg (by simpa using hdue), ih]

/-- The positions kept are positions of the table, in order. -/
theorem eraseLoop_sublist (clock : ℕ → ℤ) (n slot : ℕ) (timers : List (Timer γ)) :
    ((eraseLoop clock n slot timers).map Prod.fst).Sublist (List.range' slot timers.length) := by
  induction timers generalizing n slot with
  | nil => exact List.Sublist.refl _
  | cons t timers ih =>
    rw [eraseLoop, List.length_cons, List.range'_succ]
    split_ifs
    · exact (ih n (slot + 1)).cons_cons slot
    · exact (ih (n + 1) (slot + 1)).cons slot
    · exact (ih (n + 1) (slot + 1)).cons_cons slot

theorem slot_le_of_mem {n slot i : ℕ} {t : Timer γ} (h : (i, t) ∈ eraseLoop clock n slot timers) :
    slot ≤ i := by
  have hmem := (eraseLoop_sublist clock n slot timers).subset (List.mem_map_of_mem h)
  exact (List.mem_range'_1.mp hmem).1

/-- The one-shot timers among the first `i`. -/
def oneShots (timers : List (Timer γ)) (i : ℕ) : ℕ := (timers.take i).countP fun t => !t.repeats

theorem oneShots_zero (timers : List (Timer γ)) : oneShots timers 0 = 0 := rfl

theorem oneShots_succ (t : Timer γ) (timers : List (Timer γ)) (i : ℕ) :
    oneShots (t :: timers) (i + 1) = (if t.repeats then 0 else 1) + oneShots timers i := by
  unfold oneShots
  rw [List.take_succ_cons, List.countP_cons]
  cases t.repeats <;> simp [Nat.add_comm]

/-- A timer is kept if it repeats, or if the reading taken for it is before its deadline. -/
theorem mem_eraseLoop (n slot i : ℕ) (t' : Timer γ) :
    (slot + i, t') ∈ eraseLoop clock n slot timers ↔
      timers[i]? = some t' ∧ (t'.repeats = true ∨ clock (n + oneShots timers i) < t'.deadline) := by
  induction timers generalizing n slot i with
  | nil => simp [eraseLoop]
  | cons t timers ih =>
    cases i with
    | zero =>
      have hlater : ∀ n, (slot, t') ∉ eraseLoop clock n (slot + 1) timers := by
        intro n hmem
        have := slot_le_of_mem hmem
        omega
      rw [eraseLoop, oneShots_zero, Nat.add_zero slot, Nat.add_zero n, List.getElem?_cons_zero,
        Option.some.injEq]
      split_ifs with hrepeats hread
      · rw [List.mem_cons, Prod.mk.injEq]
        constructor
        · rintro (⟨-, rfl⟩ | hmem)
          · exact ⟨rfl, .inl hrepeats⟩
          · exact absurd hmem (hlater _)
        · rintro ⟨rfl, -⟩
          exact .inl ⟨rfl, rfl⟩
      · constructor
        · intro hmem
          exact absurd hmem (hlater _)
        · rintro ⟨rfl, hor⟩
          rcases hor with hrep | hlt
          · exact absurd hrep hrepeats
          · omega
      · rw [List.mem_cons, Prod.mk.injEq]
        constructor
        · rintro (⟨-, rfl⟩ | hmem)
          · exact ⟨rfl, .inr (by omega)⟩
          · exact absurd hmem (hlater _)
        · rintro ⟨rfl, -⟩
          exact .inl ⟨rfl, rfl⟩
    | succ i =>
      have hslot : slot + (i + 1) = slot + 1 + i := by omega
      rw [eraseLoop, oneShots_succ, List.getElem?_cons_succ, hslot]
      split_ifs with hrepeats hread
      · rw [List.mem_cons, ih, Nat.zero_add, or_iff_right]
        rintro heq
        have := congrArg Prod.fst heq
        dsimp only at this
        omega
      · rw [ih, Nat.add_assoc n 1]
      · rw [List.mem_cons, ih, Nat.add_assoc n 1, or_iff_right]
        rintro heq
        have := congrArg Prod.fst heq
        dsimp only at this
        omega

theorem oneShots_map_refreshed (now : ℤ) (timers : List (Timer γ)) (i : ℕ) :
    oneShots (timers.map (Timer.refreshed now)) i = oneShots timers i := by
  unfold oneShots
  rw [← List.map_take, List.countP_map]
  congr 1
  funext t
  rw [Function.comp_apply, Timer.refreshed_repeats]

/-! ## The call as a whole -/

/-- The reading of the clock that decides whether the one-shot timer at `slot` is removed. -/
def reading (clock : ℕ → ℤ) (timers : List (Timer γ)) (slot : ℕ) : ℤ :=
  clock (1 + oneShots timers slot)

theorem mem_fired {i : ℕ} :
    i ∈ (fireTimers clock timers).fired ↔ ∃ t, timers[i]? = some t ∧ t.deadline ≤ clock 0 := by
  show i ∈ (fireLoop (clock 0) 0 timers).2 ↔ _
  rw [fireLoop_fired]
  constructor
  · intro hmem
    obtain ⟨⟨t, j⟩, hfilter, rfl⟩ := List.mem_map.mp hmem
    obtain ⟨hzip, hdue⟩ := List.mem_filter.mp hfilter
    exact ⟨t, by simpa using List.mem_zipIdx_iff_getElem?.mp hzip, by simpa using hdue⟩
  · rintro ⟨t, ht, hdue⟩
    apply List.mem_map.mpr
    refine ⟨(t, i), List.mem_filter.mpr ⟨?_, by simpa using hdue⟩, rfl⟩
    exact List.mem_zipIdx_iff_getElem?.mpr (by simpa using ht)

/-- No callback runs twice. -/
theorem fired_nodup : (fireTimers clock timers).fired.Nodup := by
  show (fireLoop (clock 0) 0 timers).2.Nodup
  rw [fireLoop_fired]
  have hsub := ((timers.zipIdx 0).filter_sublist (p := fun e => e.1.deadline ≤ clock 0)).map Prod.snd
  rw [List.zipIdx_map_snd] at hsub
  exact hsub.nodup List.nodup_range'

theorem mem_kept {i : ℕ} {t' : Timer γ} :
    (i, t') ∈ (fireTimers clock timers).kept ↔ ∃ t, timers[i]? = some t ∧
      t' = t.refreshed (clock 0) ∧ (t.repeats = true ∨ reading clock timers i < t.deadline) := by
  show (i, t') ∈ eraseLoop clock 1 0 (fireLoop (clock 0) 0 timers).1 ↔ _
  have h : (0 + i, t') ∈ eraseLoop clock 1 0 (timers.map (Timer.refreshed (clock 0))) ↔ _ :=
    mem_eraseLoop 1 0 i t'
  rw [Nat.zero_add, oneShots_map_refreshed, List.getElem?_map, Option.map_eq_some_iff] at h
  rw [fireLoop_timers, h]
  constructor
  · rintro ⟨⟨t, ht, rfl⟩, hor⟩
    refine ⟨t, ht, rfl, ?_⟩
    cases hrepeats : t.repeats with
    | true => exact .inl rfl
    | false =>
      rw [Timer.refreshed_oneShot _ hrepeats, hrepeats] at hor
      exact .inr (hor.resolve_left (by simp))
  · rintro ⟨t, ht, rfl, hor⟩
    refine ⟨⟨t, ht, rfl⟩, ?_⟩
    cases hrepeats : t.repeats with
    | true => exact .inl (by rw [Timer.refreshed_repeats, hrepeats])
    | false =>
      rw [hrepeats] at hor
      rw [Timer.refreshed_oneShot _ hrepeats]
      exact .inr (hor.resolve_left (by simp))

/-- What `fire_timers` owes every timer, by its position in the table: a one-shot
    timer is removed when its callback ran, once, and not otherwise; every other
    timer stays, in its place, with its deadline if its callback did not run, and
    with a later one if it repeats, with a positive interval, and its callback ran. -/
structure FiresProperly (clock : ℕ → ℤ) (timers : List (Timer γ)) : Prop where
  removed : ∀ i t, timers[i]? = some t → (∀ t', (i, t') ∉ (fireTimers clock timers).kept) →
    t.repeats = false ∧ (fireTimers clock timers).fired.count i = 1
  ran : ∀ i t, timers[i]? = some t → t.repeats = false → i ∈ (fireTimers clock timers).fired →
    ∀ t', (i, t') ∉ (fireTimers clock timers).kept
  others : ∀ i t, timers[i]? = some t →
    ¬(t.repeats = false ∧ i ∈ (fireTimers clock timers).fired) →
    ∃ deadline, (i, { t with deadline }) ∈ (fireTimers clock timers).kept ∧
      (i ∉ (fireTimers clock timers).fired → deadline = t.deadline) ∧
      (i ∈ (fireTimers clock timers).fired → 0 < t.interval → t.deadline < deadline)
  order : ((fireTimers clock timers).kept.map Prod.fst).Pairwise (· < ·)

theorem kept_order : ((fireTimers clock timers).kept.map Prod.fst).Pairwise (· < ·) := by
  show ((eraseLoop clock 1 0 (fireLoop (clock 0) 0 timers).1).map Prod.fst).Pairwise (· < ·)
  exact (List.pairwise_lt_range' 1 Nat.one_pos).sublist (eraseLoop_sublist _ _ _ _)

/-- A one-shot timer that was not due at the first reading must not be at its own. -/
def NoneFallsDue (clock : ℕ → ℤ) (timers : List (Timer γ)) : Prop :=
  ∀ i t, timers[i]? = some t → t.repeats = false → clock 0 < t.deadline →
    reading clock timers i < t.deadline

/-- No repeating timer that is due is set for a sum that wraps back to its deadline or
    before it: modulo 2⁶⁴, the time from its deadline to the end of its next interval is
    not zero and less than the room that is left after the deadline. -/
def NoneWraps (now : ℤ) (timers : List (Timer γ)) : Prop :=
  ∀ t ∈ timers, t.repeats = true → t.deadline ≤ now → 0 < t.interval →
    0 < (now + millis t.interval - t.deadline) % 2 ^ 64 ∧
      (now + millis t.interval - t.deadline) % 2 ^ 64 < 2 ^ 63 - t.deadline

theorem refreshed_later_iff {now : ℤ} {t : Timer γ} (hrange : IsTimePoint t.deadline)
    (hrepeats : t.repeats = true) (hdue : t.deadline ≤ now) :
    t.deadline < (t.refreshed now).deadline ↔
      0 < (now + millis t.interval - t.deadline) % 2 ^ 64 ∧
        (now + millis t.interval - t.deadline) % 2 ^ 64 < 2 ^ 63 - t.deadline := by
  have hsum : t.deadline + (now + millis t.interval - t.deadline) = now + millis t.interval := by
    omega
  rw [← lt_timePoint_iff hrange, hsum, Timer.refreshed, if_pos ⟨hdue, hrepeats⟩]

/-- A timer that is kept is the one that was there, set again if it repeats and was due. -/
theorem kept_unique {i : ℕ} {t t' : Timer γ} (ht : timers[i]? = some t)
    (hkept : (i, t') ∈ (fireTimers clock timers).kept) :
    t' = t.refreshed (clock 0) ∧ (t.repeats = true ∨ reading clock timers i < t.deadline) := by
  obtain ⟨t₁, ht₁, hsame, hor⟩ := mem_kept.mp hkept
  obtain rfl := Option.some.inj (ht.symm.trans ht₁)
  exact ⟨hsame, hor⟩

theorem mem_fired_iff {i : ℕ} {t : Timer γ} (ht : timers[i]? = some t) :
    i ∈ (fireTimers clock timers).fired ↔ t.deadline ≤ clock 0 := by
  rw [mem_fired]
  constructor
  · rintro ⟨t₁, ht₁, hdue⟩
    obtain rfl := Option.some.inj (ht.symm.trans ht₁)
    exact hdue
  · intro hdue
    exact ⟨t, ht, hdue⟩

theorem FiresProperly.noneFallsDue (h : FiresProperly clock timers) :
    NoneFallsDue clock timers := by
  intro i t ht hrepeats hdue
  have hfired : i ∉ (fireTimers clock timers).fired := by
    rw [mem_fired_iff ht]
    omega
  obtain ⟨deadline, hkept, -⟩ := h.others i t ht fun hand => hfired hand.2
  have hor := (kept_unique ht hkept).2
  rw [hrepeats] at hor
  exact hor.resolve_left (by simp)

theorem FiresProperly.noneWraps (h : FiresProperly clock timers)
    (hrange : ∀ t ∈ timers, IsTimePoint t.deadline) : NoneWraps (clock 0) timers := by
  intro t hmem hrepeats hdue hpos
  obtain ⟨i, ht⟩ := List.getElem?_of_mem hmem
  obtain ⟨deadline, hkept, -, hlater⟩ := h.others i t ht fun hand => by simp [hrepeats] at hand
  have hsame := congrArg Timer.deadline (kept_unique ht hkept).1
  rw [← refreshed_later_iff (hrange t hmem) hrepeats hdue, ← hsame]
  exact hlater ((mem_fired_iff ht).mpr hdue) hpos

theorem firesProperly_of (hclock : Monotone clock)
    (hrange : ∀ t ∈ timers, IsTimePoint t.deadline) (hnone : NoneFallsDue clock timers)
    (hwraps : NoneWraps (clock 0) timers) : FiresProperly clock timers := by
  have hlater : ∀ i, clock 0 ≤ reading clock timers i := fun i => hclock (Nat.zero_le _)
  refine ⟨?_, ?_, ?_, kept_order⟩
  · intro i t ht hout
    have hgone : ¬(t.repeats = true ∨ reading clock timers i < t.deadline) := fun hor =>
      hout _ (mem_kept.mpr ⟨t, ht, rfl, hor⟩)
    rw [not_or, Bool.not_eq_true] at hgone
    refine ⟨hgone.1, List.count_eq_one_of_mem fired_nodup ((mem_fired_iff ht).mpr ?_)⟩
    by_contra hdue
    exact hgone.2 (hnone i t ht hgone.1 (not_le.mp hdue))
  · intro i t ht hrepeats hmem t' hkept
    have hdue := (mem_fired_iff ht).mp hmem
    have hor := (kept_unique ht hkept).2
    have := hlater i
    rw [hrepeats] at hor
    have := hor.resolve_left (by simp)
    omega
  · intro i t ht hother
    rw [mem_fired_iff ht] at hother ⊢
    by_cases hdue : t.deadline ≤ clock 0
    · have hrepeats : t.repeats = true := by
        rw [← Bool.not_eq_false]
        exact fun hfalse => hother ⟨hfalse, hdue⟩
      have hmem : t ∈ timers := List.mem_of_getElem? ht
      refine ⟨(t.refreshed (clock 0)).deadline, mem_kept.mpr ⟨t, ht, ?_, .inl hrepeats⟩,
        fun hnot => absurd hdue hnot, fun _ hpos => ?_⟩
      · rw [Timer.refreshed, if_pos ⟨hdue, hrepeats⟩]
      · rw [refreshed_later_iff (hrange t hmem) hrepeats hdue]
        exact hwraps t hmem hrepeats hdue hpos
    · have hfresh : t.refreshed (clock 0) = t := by
        rw [Timer.refreshed, if_neg fun hand => hdue hand.1]
      refine ⟨t.deadline, mem_kept.mpr ⟨t, ht, hfresh.symm, ?_⟩, fun _ => rfl,
        fun hnow => absurd hnow hdue⟩
      cases hrepeats : t.repeats with
      | true => exact .inl rfl
      | false => exact .inr (hnone i t ht hrepeats (not_le.mp hdue))

/-- `fire_timers` treats every timer as it should exactly when no one-shot timer
    falls due between the reading that decides whether to run its callback and the
    reading that decides whether to remove it, and no repeating timer is set for a
    sum that wraps back to its deadline or before it. -/
theorem fires_properly_iff (clock : ℕ → ℤ) (hclock : Monotone clock) (timers : List (Timer γ))
    (hrange : ∀ t ∈ timers, IsTimePoint t.deadline) :
    FiresProperly clock timers ↔ NoneFallsDue clock timers ∧ NoneWraps (clock 0) timers :=
  ⟨fun h => ⟨h.noneFallsDue, h.noneWraps hrange⟩,
    fun h => firesProperly_of hclock hrange h.1 h.2⟩

/-- A one-shot timer and a repeating one that are due, and a one-shot timer that is not. -/
def sampleTimers : List (Timer Unit) :=
  [⟨1, 0, (), false, 0⟩, ⟨2, 0, (), true, 10⟩, ⟨3, 9, (), false, 0⟩]

/-- The clock moves on during the call. -/
theorem fires_properly_early : FiresProperly (fun n => (n : ℤ)) sampleTimers := by
  refine (fires_properly_iff (fun n => (n : ℤ)) (fun _ _ h => by simpa using h) sampleTimers
    ?_).mpr ⟨?_, ?_⟩
  · intro t ht
    simp only [sampleTimers, List.mem_cons, List.not_mem_nil, or_false] at ht
    rcases ht with rfl | rfl | rfl <;> simp [IsTimePoint]
  · intro i t ht hrepeats hdue
    rcases i with _ | _ | _ | i
    · obtain rfl := Option.some.inj ht
      simp at hdue
    · obtain rfl := Option.some.inj ht
      simp at hrepeats
    · obtain rfl := Option.some.inj ht
      decide
    · simp [sampleTimers] at ht
  · intro t ht hrepeats hdue hpos
    simp only [sampleTimers, List.mem_cons, List.not_mem_nil, or_false] at ht
    rcases ht with rfl | rfl | rfl <;> simp_all [millis]

/-- A one-shot timer due at 5, with the clock at 4 and then at 6, is removed
    without its callback. -/
theorem one_shot_timer_lost :
    ¬∀ (clock : ℕ → ℤ) (timers : List (Timer Unit)), Monotone clock →
      (∀ t ∈ timers, IsTimePoint t.deadline) → FiresProperly clock timers := by
  intro hall
  have h := (hall (fun n => if n = 0 then 4 else 6) [⟨1, 5, (), false, 0⟩] (by
    intro a b hab
    dsimp only
    split_ifs <;> omega) (by simp [IsTimePoint])).noneFallsDue 0 _ rfl rfl (by decide)
  exact absurd h (by decide)

/-! ## The wait -/

end PeerCore.Runtime
