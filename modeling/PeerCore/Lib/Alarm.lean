import Mathlib

/-!
# An alarm by itself

An alarm is due at a time, goes off at the first look at the clock that finds it due, and
may be set again for a time that depends on when it went off.

`sound_run`: it never goes off early, neither the first time nor after it was set again,
and an alarm that is not set again goes off once.
-/

/-- When an alarm is due next, and when it went off. -/
structure Alarm (T : Type*) where
  due : Option T
  rung : List T := []

namespace Alarm

/-- What can happen to an alarm: a look at the clock, or that it is stopped. -/
inductive Event (T : Type*)
  | look (now : T)
  | stop

variable {T : Type*} [LE T] [DecidableLE T]

/-- One event. `again` says for what time an alarm is set again when it goes off. -/
def step (again : Option (T → T)) (a : Alarm T) : Event T → Alarm T
  | .look now =>
    match a.due with
    | none => a
    | some due =>
      if due ≤ now then { due := again.map (· now), rung := a.rung ++ [now] } else a
  | .stop => { a with due := none }

/-- An alarm set for `start`, after some events. -/
def run (again : Option (T → T)) (start : T) (events : List (Event T)) : Alarm T :=
  events.foldl (step again) { due := some start }

variable {again : Option (T → T)} {start now due : T} {a : Alarm T} {events : List (Event T)}

theorem step_look_of_none (h : a.due = none) : step again a (.look now) = a := by
  simp [step, h]

theorem step_look_of_le (h : a.due = some due) (hle : due ≤ now) :
    step again a (.look now) = { due := again.map (· now), rung := a.rung ++ [now] } := by
  simp [step, h, hle]

theorem step_look_of_not_le (h : a.due = some due) (hle : ¬due ≤ now) :
    step again a (.look now) = a := by
  simp [step, h, hle]

theorem run_concat (e : Event T) :
    run again start (events ++ [e]) = step again (run again start events) e := by
  unfold run
  rw [List.foldl_append]
  rfl

/-- What holds of an alarm all the time. -/
structure Sound (again : Option (T → T)) (start : T) (a : Alarm T) : Prop where
  first : ∀ t ∈ a.rung.head?, start ≤ t
  spaced : a.rung.IsChain fun s t => ∀ next ∈ again, next s ≤ t
  due_first : a.rung = [] → ∀ d ∈ a.due, d = start
  due_next : ∀ s ∈ a.rung.getLast?, ∀ d ∈ a.due, ∃ next ∈ again, d = next s
  once : again = none → a.rung.length ≤ 1

theorem Sound.step (h : Sound again start a) (e : Event T) :
    Sound again start (step again a e) := by
  cases e with
  | stop => exact ⟨h.first, h.spaced, nofun, nofun, h.once⟩
  | look now =>
    cases hdue : a.due with
    | none =>
      rw [step_look_of_none hdue]
      exact h
    | some due =>
      by_cases hle : due ≤ now
      · rw [step_look_of_le hdue hle]
        refine ⟨?_, ?_, ?_, ?_, ?_⟩
        · intro t ht
          cases hrung : a.rung with
          | nil =>
            have hstart := h.due_first hrung due hdue
            rw [hrung] at ht
            obtain rfl := Option.some.inj ht
            exact hstart ▸ hle
          | cons s rest =>
            rw [hrung] at ht
            exact h.first t (by rw [hrung]; exact ht)
        · refine List.isChain_append.mpr ⟨h.spaced, List.isChain_singleton now, ?_⟩
          rintro s hs t ht next hnext
          obtain rfl := Option.some.inj ht
          obtain ⟨next', hnext', rfl⟩ := h.due_next s hs due hdue
          obtain rfl := Option.mem_unique hnext hnext'
          exact hle
        · intro hnil
          simp at hnil
        · intro s hs d hd
          rw [List.getLast?_concat] at hs
          obtain rfl := Option.some.inj hs
          obtain ⟨next, hnext, rfl⟩ := Option.map_eq_some_iff.mp hd
          exact ⟨next, hnext, rfl⟩
        · intro hnone
          have hnil : a.rung = [] := by
            by_contra hne
            obtain ⟨next, hnext, -⟩ :=
              h.due_next _ (List.getLast?_eq_some_getLast hne) due hdue
            rw [hnone] at hnext
            exact absurd hnext (by simp)
          simp [hnil]
      · rw [step_look_of_not_le hdue hle]
        exact h

theorem sound_run (again : Option (T → T)) (start : T) (events : List (Event T)) :
    Sound again start (run again start events) := by
  induction events using List.reverseRecOn with
  | nil => exact ⟨nofun, .nil, fun _ d hd => (Option.some.inj hd).symm, nofun, fun _ => Nat.zero_le 1⟩
  | append_singleton events e ih =>
    rw [run_concat]
    exact ih.step e

end Alarm
