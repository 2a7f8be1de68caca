import Mathlib

/-!
# Logs numbered by position

A log is `Numbered` when the `i`-th entry carries the number `i`, as the entries of
a counter that only grows do.

* `Numbered.getElem?_of_mem`: an entry is found at its number.
* `filterMap_isPrefix`: what a log yields is a prefix of `out` when every entry but the
  last yields something and each one yields the entry of `out` at its position.
-/

variable {α β : Type}

/-- The `i`-th entry of `log` carries the number `i`. -/
def Numbered (number : α → ℕ) (log : List α) : Prop :=
  ∀ i a, log[i]? = some a → number a = i

namespace Numbered

variable {number : α → ℕ} {log : List α}

theorem nil : Numbered number [] := fun i a h => by simp at h

theorem concat (h : Numbered number log) {a : α} (ha : number a = log.length) :
    Numbered number (log ++ [a]) := by
  intro i b hb
  rcases lt_trichotomy i log.length with hlt | rfl | hgt
  · rw [List.getElem?_append_left hlt] at hb
    exact h i b hb
  · simp only [List.getElem?_append_right (le_refl _), Nat.sub_self, List.getElem?_cons_zero,
      Option.some.injEq] at hb
    rw [← hb, ha]
  · rw [List.getElem?_eq_none (by simp; omega)] at hb
    cases hb

theorem getElem?_of_mem (h : Numbered number log) {a : α} (ha : a ∈ log) :
    log[number a]? = some a := by
  obtain ⟨i, hi⟩ := List.mem_iff_getElem?.mp ha
  rw [h i a hi]
  exact hi

end Numbered

/-- A log whose entries all yield something. -/
theorem filterMap_isPrefix_of_forall {f : α → Option β} {out : List β} (log : List α)
    (hsome : ∀ a ∈ log, f a ≠ none)
    (hout : ∀ (i : ℕ) a b, log[i]? = some a → f a = some b → out[i]? = some b) :
    log.filterMap f <+: out ∧ (log.filterMap f).length = log.length := by
  induction log using List.reverseRecOn with
  | nil => simp
  | append_singleton log a ih =>
    obtain ⟨⟨rest, hrest⟩, hlen⟩ := ih (fun b hb => hsome b (List.mem_append_left _ hb))
      fun i b c hb hc => hout i b c
        (by rw [List.getElem?_append_left (List.getElem?_eq_some_iff.mp hb).1]; exact hb) hc
    obtain ⟨b, hb⟩ := Option.ne_none_iff_exists'.mp (hsome a (by simp))
    have hnext : out[log.length]? = some b := hout log.length a b (by simp) hb
    rw [← hrest, List.getElem?_append_right (by omega), hlen, Nat.sub_self] at hnext
    rcases rest with _ | ⟨c, rest⟩
    · simp at hnext
    · simp only [List.getElem?_cons_zero, Option.some.injEq] at hnext
      subst hnext
      have hconcat : (log ++ [a]).filterMap f = log.filterMap f ++ [c] := by simp [hb]
      rw [hconcat]
      exact ⟨⟨rest, by rw [← hrest]; simp⟩, by simp [hlen]⟩

theorem filterMap_isPrefix {f : α → Option β} {out : List β} {log : List α}
    (hsome : ∀ a ∈ log.dropLast, f a ≠ none)
    (hout : ∀ (i : ℕ) a b, log[i]? = some a → f a = some b → out[i]? = some b) :
    log.filterMap f <+: out := by
  by_cases hall : ∀ a ∈ log, f a ≠ none
  · exact (filterMap_isPrefix_of_forall log hall hout).1
  · rcases List.eq_nil_or_concat' log with rfl | ⟨init, last, rfl⟩
    · simp
    · rw [List.dropLast_concat] at hsome
      have hlast : f last = none := by
        by_contra hne
        refine hall fun a ha => ?_
        rcases List.mem_append.mp ha with ha | ha
        · exact hsome a ha
        · rwa [List.mem_singleton.mp ha]
      have hinit : (init ++ [last]).filterMap f = init.filterMap f := by simp [hlast]
      rw [hinit]
      exact (filterMap_isPrefix_of_forall init hsome fun i a b ha hb => hout i a b
        (by rw [List.getElem?_append_left (List.getElem?_eq_some_iff.mp ha).1]; exact ha) hb).1
