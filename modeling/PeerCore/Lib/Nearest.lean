import Mathlib.Data.List.Sort
import Mathlib.Data.Set.Card

/-!
# The nearest elements of a set

Elements carry a key in a linear order. `Nearest key S k` says which list holds
the `k` elements of `S` with the smallest keys, in order. It never holds of two
lists (`Nearest.unique`), and sorting a list of `S` by a comparison that agrees
with the key and cutting it off at `k` gives the one it holds of
(`nearest_sortBy`).
-/

namespace Nearest

variable {α β : Type} [LinearOrder β]

/-- `xs` sorted by the strict comparison `lt`. -/
def sortBy (lt : α → α → Bool) (xs : List α) : List α :=
  xs.insertionSort fun a b => lt b a = false

theorem sortBy_perm (lt : α → α → Bool) (xs : List α) : (sortBy lt xs).Perm xs :=
  List.perm_insertionSort _ xs

end Nearest

variable {α β : Type} [LinearOrder β]

/-- `result` lists the `k` elements of `S` whose keys are smallest, by ascending key. -/
structure Nearest (key : α → β) (S : Set α) (k : ℕ) (result : List α) : Prop where
  length : result.length = min k S.ncard
  members : ∀ a ∈ result, a ∈ S
  ascending : result.Pairwise fun a b => key a < key b
  closer : ∀ a ∈ S, a ∉ result → ∀ b ∈ result, key b < key a

namespace Nearest

variable {key : α → β} {S : Set α} {k : ℕ} {r r' : List α}

theorem nodup (h : Nearest key S k r) : r.Nodup :=
  h.ascending.imp fun hlt heq => (heq ▸ hlt).ne rfl

/-- A list with a member that the other one lacks leaves out a member of the other one. -/
theorem mem_of_mem (h : Nearest key S k r) (h' : Nearest key S k r') {a : α} (ha : a ∈ r) :
    a ∈ r' := by
  by_contra hout
  have hsub : r' ⊆ r := by
    intro b hb
    by_contra hb'
    have hlt : key b < key a := h'.closer a (h.members a ha) hout b hb
    exact (hlt.trans (h.closer b (h'.members b hb) hb' a ha)).false
  have hperm : r'.Perm r :=
    (h'.nodup.subperm hsub).perm_of_length_le (by rw [h.length, h'.length])
  exact hout (hperm.mem_iff.mpr ha)

/-- The set and the number determine the list. -/
theorem unique (h : Nearest key S k r) (h' : Nearest key S k r') : r = r' := by
  have : Std.Irrefl fun a b : α => key a < key b := ⟨fun a => lt_irrefl (key a)⟩
  have : Std.Antisymm fun a b : α => key a < key b := ⟨fun a b h₁ h₂ => absurd h₁ h₂.asymm⟩
  exact h.ascending.eq_of_mem_iff h'.ascending fun a => ⟨h.mem_of_mem h', h'.mem_of_mem h⟩

theorem sortBy_ascending {lt : α → α → Bool} (hlt : ∀ a b, lt a b = true ↔ key a < key b)
    (hkey : key.Injective) {xs : List α} (hxs : xs.Nodup) :
    (sortBy lt xs).Pairwise fun a b => key a < key b := by
  have hle : ∀ a b, lt b a = false ↔ key a ≤ key b := by
    intro a b
    rw [← not_lt, ← hlt b a, Bool.not_eq_true]
  have : Std.Total fun a b : α => lt b a = false :=
    ⟨fun a b => by rw [hle, hle]; exact le_total _ _⟩
  have : IsTrans α fun a b => lt b a = false :=
    ⟨fun a b c => by rw [hle, hle, hle]; exact le_trans⟩
  have hsorted := List.pairwise_insertionSort (fun a b : α => lt b a = false) xs
  have hnodup : (sortBy lt xs).Nodup := (sortBy_perm lt xs).nodup_iff.mpr hxs
  refine hsorted.and hnodup |>.imp ?_
  rintro a b ⟨hab, hne⟩
  exact lt_of_le_of_ne ((hle a b).mp hab) fun heq => hne (hkey heq)

/-- Sort, then cut off. -/
theorem nearest_sortBy {lt : α → α → Bool} (hlt : ∀ a b, lt a b = true ↔ key a < key b)
    (hkey : key.Injective) {xs : List α} (hxs : xs.Nodup) (hS : ∀ a, a ∈ xs ↔ a ∈ S) (k : ℕ) :
    Nearest key S k ((sortBy lt xs).take k) := by
  have hperm := sortBy_perm lt xs
  have hasc := sortBy_ascending hlt hkey hxs
  have hmem : ∀ a, a ∈ sortBy lt xs ↔ a ∈ S := fun a => hperm.mem_iff.trans (hS a)
  refine ⟨?_, ?_, hasc.sublist (List.take_sublist k _), ?_⟩
  · have hcard : S.ncard = xs.length := by
      classical
      have : S = (xs.toFinset : Set α) := by
        ext a
        simp [hS]
      rw [this, Set.ncard_coe_finset, List.toFinset_card_of_nodup hxs]
    rw [List.length_take, hperm.length_eq, hcard]
  · intro a ha
    exact (hmem a).mp (List.mem_of_mem_take ha)
  · intro a ha hout b hb
    have hmem' : a ∈ (sortBy lt xs).take k ++ (sortBy lt xs).drop k := by
      rw [List.take_append_drop]
      exact (hmem a).mpr ha
    have hdrop := (List.mem_append.mp hmem').resolve_left hout
    rw [← List.take_append_drop k (sortBy lt xs), List.pairwise_append] at hasc
    exact hasc.2.2 b hb a hdrop

end Nearest
