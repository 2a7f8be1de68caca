import Mathlib

/-!
# Reading items off a growing buffer

A reader `pop` takes one item off the front of a buffer that holds a whole one. It is
`Incremental` when taking an item leaves a shorter buffer, and what arrives behind an
item does not change it.

* `readAll`: the items of a buffer, and the bytes that are left.
* `readAll_append`: what arrives in two parts is read as if it had come in one.
* `readChunks_eq`: nor does it matter in how many.
* `readAll_isPrefix`: more input only adds items.
* `readAll_front`: of a part of what was written, the whole items are read.
-/

variable {α β : Type}

/-- A reader whose items do not depend on what follows them. -/
structure Incremental (pop : List α → Option (β × List α)) : Prop where
  shorter : ∀ {buf item rest}, pop buf = some (item, rest) → rest.length < buf.length
  append : ∀ {buf item rest} more, pop buf = some (item, rest) →
    pop (buf ++ more) = some (item, rest ++ more)

/-- At most `fuel` items. -/
def readLoop (pop : List α → Option (β × List α)) : ℕ → List α → List β × List α
  | 0, buf => ([], buf)
  | fuel + 1, buf =>
    match pop buf with
    | none => ([], buf)
    | some (item, rest) =>
      let (items, rest) := readLoop pop fuel rest
      (item :: items, rest)

/-- All items, and the rest of the buffer. -/
def readAll (pop : List α → Option (β × List α)) (buf : List α) : List β × List α :=
  readLoop pop buf.length buf

/-- The items read as the chunks come in, each behind the rest of those before. -/
def readChunks (pop : List α → Option (β × List α)) : List α → List (List α) → List β × List α
  | buf, [] => ([], buf)
  | buf, chunk :: chunks =>
    let (items, rest) := readAll pop (buf ++ chunk)
    let (more, rest) := readChunks pop rest chunks
    (items ++ more, rest)

theorem readAll_of_none {pop : List α → Option (β × List α)} {buf : List α} (hpop : pop buf = none) :
    readAll pop buf = ([], buf) := by
  unfold readAll
  cases hlen : buf.length with
  | zero => rfl
  | succ n => rw [readLoop, hpop]

namespace Incremental

variable {pop : List α → Option (β × List α)} (h : Incremental pop)
include h

/-- The length of the buffer is fuel enough. -/
theorem readLoop_eq {fuel : ℕ} : ∀ {buf : List α}, buf.length ≤ fuel →
    readLoop pop fuel buf = readAll pop buf := by
  induction fuel using Nat.strong_induction_on with
  | _ fuel ih =>
    intro buf hfuel
    rcases hfuel.eq_or_lt with rfl | hlt
    · rfl
    · cases fuel with
      | zero => omega
      | succ fuel =>
        rw [readLoop]
        cases hpop : pop buf with
        | none =>
          unfold readAll
          cases hlen : buf.length with
          | zero => rfl
          | succ n => rw [readLoop, hpop]
        | some found =>
          obtain ⟨item, rest⟩ := found
          have hshort := h.shorter hpop
          unfold readAll
          cases hlen : buf.length with
          | zero => omega
          | succ n =>
            rw [readLoop, hpop]
            dsimp only
            rw [ih fuel (by omega) (by omega), ih n (by omega) (by omega)]

theorem readAll_of_some {buf rest : List α} {item : β} (hpop : pop buf = some (item, rest)) :
    readAll pop buf = (item :: (readAll pop rest).1, (readAll pop rest).2) := by
  have hshort := h.shorter hpop
  rw [← h.readLoop_eq (Nat.le_succ buf.length), readLoop, hpop]
  dsimp only
  rw [h.readLoop_eq (by omega)]

/-- Nothing more can be read from the rest. -/
theorem pop_rest (buf : List α) : pop (readAll pop buf).2 = none := by
  induction hlen : buf.length using Nat.strong_induction_on generalizing buf with
  | _ n ih =>
    cases hpop : pop buf with
    | none => rw [readAll_of_none hpop, hpop]
    | some found =>
      obtain ⟨item, rest⟩ := found
      have hshort := h.shorter hpop
      rw [h.readAll_of_some hpop]
      exact ih rest.length (by omega) rest rfl

/-- Reading what arrived first, and then the rest with what arrived later. -/
theorem readAll_append (buf more : List α) :
    readAll pop (buf ++ more) =
      ((readAll pop buf).1 ++ (readAll pop ((readAll pop buf).2 ++ more)).1,
        (readAll pop ((readAll pop buf).2 ++ more)).2) := by
  induction hlen : buf.length using Nat.strong_induction_on generalizing buf with
  | _ n ih =>
    cases hpop : pop buf with
    | none =>
      rw [readAll_of_none hpop]
      rfl
    | some found =>
      obtain ⟨item, rest⟩ := found
      have hshort := h.shorter hpop
      rw [h.readAll_of_some (h.append more hpop), h.readAll_of_some hpop,
        ih rest.length (by omega) rest rfl]
      rfl

/-- The chunks are read as one. -/
theorem readChunks_eq (chunks : List (List α)) : ∀ {buf : List α}, pop buf = none →
    readChunks pop buf chunks = readAll pop (buf ++ chunks.flatten) := by
  induction chunks with
  | nil =>
    intro buf hpop
    rw [List.flatten_nil, List.append_nil, readAll_of_none hpop]
    rfl
  | cons chunk chunks ih =>
    intro buf hpop
    rw [readChunks]
    dsimp only
    rw [ih (h.pop_rest (buf ++ chunk)), List.flatten_cons, ← List.append_assoc,
      h.readAll_append (buf ++ chunk)]

theorem readAll_isPrefix (buf more : List α) :
    (readAll pop buf).1 <+: (readAll pop (buf ++ more)).1 := by
  rw [h.readAll_append]
  exact List.prefix_append _ _

/-! ## Written items -/

variable {γ : Type} {encode : γ → List α} {item : γ → β}

/-- A part of an item is not an item. -/
theorem pop_part {f : γ} (hread : ∀ more, pop (encode f ++ more) = some (item f, more))
    {buf more rest : List α} (hbuf : buf ++ more = encode f ++ rest)
    (hshort : buf.length < (encode f).length) : pop buf = none := by
  cases hpop : pop buf with
  | none => rfl
  | some found =>
    obtain ⟨part, left⟩ := found
    have hwhole := h.append more hpop
    rw [hbuf, hread] at hwhole
    simp only [Option.some.injEq, Prod.mk.injEq] at hwhole
    have hlength := congrArg List.length hbuf
    rw [hwhole.2, List.length_append, List.length_append, List.length_append] at hlength
    omega

/-- What is read of the front of written items: some of them, and a part of the next one
    stays. -/
theorem readAll_front {frames : List γ}
    (hread : ∀ f ∈ frames, ∀ more, pop (encode f ++ more) = some (item f, more))
    {buf more : List α} (hbuf : buf ++ more = frames.flatMap encode) :
    ∃ handled waiting tail, frames = handled ++ waiting ∧
      readAll pop buf = (handled.map item, tail) ∧ buf = handled.flatMap encode ++ tail ∧
      tail ++ more = waiting.flatMap encode ∧
      ∀ f rest, waiting = f :: rest → tail.length < (encode f).length := by
  induction frames generalizing buf with
  | nil =>
    obtain ⟨rfl, rfl⟩ := List.append_eq_nil_iff.mp hbuf
    exact ⟨[], [], [], rfl, rfl, rfl, rfl, nofun⟩
  | cons f frames ih =>
    have hf := hread f List.mem_cons_self
    rw [List.flatMap_cons] at hbuf
    by_cases hshort : buf.length < (encode f).length
    · refine ⟨[], f :: frames, buf, rfl, readAll_of_none (h.pop_part hf hbuf hshort), rfl, ?_, ?_⟩
      · rw [List.flatMap_cons]
        exact hbuf
      · intro g rest hg
        rw [List.cons.injEq] at hg
        rw [← hg.1]
        exact hshort
    · -- the first item is complete
      obtain ⟨buf', rfl⟩ : encode f <+: buf :=
        List.prefix_of_prefix_length_le ⟨_, hbuf.symm⟩ (List.prefix_append _ _) (not_lt.mp hshort)
      rw [List.append_assoc] at hbuf
      obtain ⟨handled, waiting, tail, hframes, hitems, hbytes, hleft, hpart⟩ :=
        ih (fun g hg => hread g (List.mem_cons_of_mem _ hg)) (List.append_cancel_left hbuf)
      refine ⟨f :: handled, waiting, tail, by rw [hframes, List.cons_append], ?_, ?_, hleft, hpart⟩
      · rw [h.readAll_of_some (hf buf'), hitems]
        rfl
      · rw [List.flatMap_cons, List.append_assoc, hbytes]

end Incremental
