import Mathlib

/-!
# Runs of a deterministic system

A run is the list of the actions taken, from a first state on.

* `Steps.invariant`: what every step keeps holds in every state of a run.
* `steps_iff_states`: when one step is good if and only if it leads to a good
  state, a run has good steps only if and only if it has good states only.
* `steps_iff_steps`: the same for a property of the steps.
-/

namespace Runs

variable {σ α : Type} (step : σ → α → σ)

/-- The state after a run. -/
def final (s : σ) (actions : List α) : σ := actions.foldl step s

/-- `C` holds of every action of the run in the state in which it is taken. -/
def Steps (C : σ → α → Prop) : σ → List α → Prop
  | _, [] => True
  | s, a :: actions => C s a ∧ Steps C (step s a) actions

/-- `Q` holds in every state of the run. -/
def States (Q : σ → Prop) : σ → List α → Prop
  | s, [] => Q s
  | s, a :: actions => Q s ∧ States Q (step s a) actions

instance decidableSteps (C : σ → α → Prop) [∀ s a, Decidable (C s a)] :
    ∀ (actions : List α) (s : σ), Decidable (Steps step C s actions)
  | [], _ => inferInstanceAs (Decidable True)
  | _ :: actions, _ =>
    have := decidableSteps C actions
    inferInstanceAs (Decidable (_ ∧ _))

instance decidableStates (Q : σ → Prop) [∀ s, Decidable (Q s)] :
    ∀ (actions : List α) (s : σ), Decidable (States step Q s actions)
  | [], _ => inferInstanceAs (Decidable (Q _))
  | _ :: actions, _ =>
    have := decidableStates Q actions
    inferInstanceAs (Decidable (_ ∧ _))

variable {step} {s : σ} {actions : List α} {C : σ → α → Prop} {I Q : σ → Prop}

theorem final_append (s : σ) (actions more : List α) :
    final step s (actions ++ more) = final step (final step s actions) more := List.foldl_append

theorem Steps.snoc {a : α} :
    Steps step C s (actions ++ [a]) ↔ Steps step C s actions ∧ C (final step s actions) a := by
  induction actions generalizing s with
  | nil => exact ⟨fun h => ⟨trivial, h.1⟩, fun h => ⟨h.2, trivial⟩⟩
  | cons b actions ih => exact (and_congr_right fun _ => ih).trans and_assoc.symm

theorem Steps.of_mem (h : ∀ a ∈ actions, ∀ s, C s a) : Steps step C s actions := by
  induction actions generalizing s with
  | nil => trivial
  | cons a actions ih =>
    exact ⟨h a (by simp) s, ih fun b hb => h b (List.mem_cons_of_mem _ hb)⟩

/-- What no step makes true was true all along. -/
theorem Steps.of_final {P : σ → Prop} (hback : ∀ s a, P (step s a) → P s)
    (h : P (final step s actions)) : P s ∧ Steps step (fun s a => P (step s a)) s actions := by
  induction actions generalizing s with
  | nil => exact ⟨h, trivial⟩
  | cons a actions ih =>
    obtain ⟨ha, hrest⟩ := ih h
    exact ⟨hback s a ha, ha, hrest⟩

theorem Steps.and {D : σ → α → Prop} (hC : Steps step C s actions) (hD : Steps step D s actions) :
    Steps step (fun s a => C s a ∧ D s a) s actions := by
  induction actions generalizing s with
  | nil => trivial
  | cons a actions ih => exact ⟨⟨hC.1, hD.1⟩, ih hC.2 hD.2⟩

theorem States.final (h : States step Q s actions) : Q (final step s actions) := by
  induction actions generalizing s with
  | nil => exact h
  | cons a actions ih => exact ih h.2

/-- The first state of a run is one of its states. -/
theorem States.first (h : States step Q s actions) : Q s := by
  cases actions with
  | nil => exact h
  | cons a actions => exact h.1

theorem States.mono {Q' : σ → Prop} (hQ : ∀ s, Q s → Q' s) (h : States step Q s actions) :
    States step Q' s actions := by
  induction actions generalizing s with
  | nil => exact hQ s h
  | cons a actions ih => exact ⟨hQ s h.1, ih h.2⟩

theorem Steps.invariant (hstep : ∀ s a, I s → C s a → I (step s a)) (hs : I s)
    (h : Steps step C s actions) : States step I s actions := by
  induction actions generalizing s with
  | nil => exact hs
  | cons a actions ih => exact ⟨hs, ih (hstep s a hs h.1) h.2⟩

/-- `E` says which actions are possible and `C` which of them are good. -/
theorem steps_iff_states {E : σ → α → Prop} (hQ : ∀ s, I s → Q s)
    (hgood : ∀ s a, I s → E s a → C s a → I (step s a))
    (hbad : ∀ s a, I s → E s a → Q (step s a) → C s a) (hs : I s) (hE : Steps step E s actions) :
    Steps step C s actions ↔ States step Q s actions := by
  induction actions generalizing s with
  | nil => exact ⟨fun _ => hQ s hs, fun _ => trivial⟩
  | cons a actions ih =>
    constructor
    · intro h
      exact ⟨hQ s hs, (ih (hgood s a hs hE.1 h.1) hE.2).mp h.2⟩
    · intro h
      have ha : C s a := hbad s a hs hE.1 h.2.first
      exact ⟨ha, (ih (hgood s a hs hE.1 ha) hE.2).mpr h.2⟩

/-- The steps with `C` keep the invariant, under which `C` and `D` say the same of a step. -/
theorem steps_iff_steps {D E : σ → α → Prop} (hgood : ∀ s a, I s → E s a → C s a → I (step s a))
    (hiff : ∀ s a, I s → E s a → (C s a ↔ D s a)) (hs : I s) (hE : Steps step E s actions) :
    Steps step C s actions ↔ Steps step D s actions := by
  induction actions generalizing s with
  | nil => rfl
  | cons a actions ih =>
    constructor
    · intro h
      exact ⟨(hiff s a hs hE.1).mp h.1, (ih (hgood s a hs hE.1 h.1) hE.2).mp h.2⟩
    · intro h
      have ha : C s a := (hiff s a hs hE.1).mpr h.1
      exact ⟨ha, (ih (hgood s a hs hE.1 ha) hE.2).mpr h.2⟩

end Runs
