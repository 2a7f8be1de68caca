import Mathlib

/-!
# Fallible operations on a mutable object

`Op σ α` is a method of an object with state `σ` that returns `Except String α`.
Unlike `StateT σ (Except String)`, the state changes made before a failure are
kept, as they are when a C++ method mutates `*this` and then returns an error.

* `Op.bind_eq_ok`, `Op.bind_eq_error`: inversion of a sequence.
* `Op.Preserves`: the Hoare-style rule for a relation between the states before
  and after, on success and on failure alike.
* `Op.Leads`: the same with a precondition and a postcondition.
-/

/-- A method of an object of state `σ`. -/
def Op (σ α : Type) := σ → Except String α × σ

namespace Op

variable {σ α β : Type}

/-- Return a value. -/
def pure (a : α) : Op σ α := fun s => (.ok a, s)

/-- Run `x`; when it succeeds, go on with `f`. -/
def bind (x : Op σ α) (f : α → Op σ β) : Op σ β := fun s =>
  match x s with
  | (.ok a, s') => f a s'
  | (.error e, s') => (.error e, s')

instance : Monad (Op σ) where
  pure := Op.pure
  bind := Op.bind

/-- `return Result::err(e)`. -/
def fail (e : String) : Op σ α := fun s => (.error e, s)

/-- Read the state. -/
def get : Op σ σ := fun s => (.ok s, s)

/-- Update the state. -/
def modify (f : σ → σ) : Op σ Unit := fun s => (.ok (), f s)

/-- Update the state and return a value; it cannot fail. -/
def update (f : σ → α × σ) : Op σ α := fun s => (.ok (f s).1, (f s).2)

/-- A computation that does not touch the state. -/
def ofResult (r : Except String α) : Op σ α := fun s => (r, s)

/-- Prefix the error message of `x`. -/
def mapError (g : String → String) (x : Op σ α) : Op σ α := fun s =>
  match x s with
  | (.ok a, s') => (.ok a, s')
  | (.error e, s') => (.error (g e), s')

/-- Change the state by `f` when `x` fails. -/
def onFail (f : σ → σ) (x : Op σ α) : Op σ α := fun s =>
  match x s with
  | (.ok a, s') => (.ok a, s')
  | (.error e, s') => (.error e, f s')

/-- Run `x` on a component of the state. -/
def zoom {τ : Type} (view : σ → τ) (put : σ → τ → σ) (x : Op τ α) : Op σ α := fun s =>
  let r := x (view s)
  (r.1, put s r.2)

@[simp] theorem pure_apply (a : α) (s : σ) : (Pure.pure a : Op σ α) s = (.ok a, s) := rfl

@[simp] theorem bind_apply (x : Op σ α) (f : α → Op σ β) (s : σ) :
    (x >>= f) s = match x s with
      | (.ok a, s') => f a s'
      | (.error e, s') => (.error e, s') := rfl

@[simp] theorem fail_apply (e : String) (s : σ) : (fail e : Op σ α) s = (.error e, s) := rfl

@[simp] theorem get_apply (s : σ) : (get : Op σ σ) s = (.ok s, s) := rfl

@[simp] theorem modify_apply (f : σ → σ) (s : σ) : modify f s = (.ok (), f s) := rfl

@[simp] theorem update_apply (f : σ → α × σ) (s : σ) : update f s = (.ok (f s).1, (f s).2) := rfl

@[simp] theorem ofResult_apply (r : Except String α) (s : σ) : ofResult r s = (r, s) := rfl

theorem ofResult_eq_ok {r : Except String α} {s s' : σ} {a : α} :
    (ofResult r : Op σ α) s = (.ok a, s') ↔ r = .ok a ∧ s' = s := by
  rw [ofResult_apply, Prod.mk.injEq, eq_comm (a := s)]

theorem ofResult_eq_error {r : Except String α} {s s' : σ} {e : String} :
    (ofResult r : Op σ α) s = (.error e, s') ↔ r = .error e ∧ s' = s := by
  rw [ofResult_apply, Prod.mk.injEq, eq_comm (a := s)]

theorem get_bind {f : σ → Op σ β} {s : σ} : ((get : Op σ σ) >>= f) s = f s s := rfl

theorem modify_bind {g : σ → σ} {f : Unit → Op σ β} {s : σ} : (modify g >>= f) s = f () (g s) := rfl

theorem mapError_eq_ok {g : String → String} {x : Op σ α} {s s' : σ} {a : α} :
    mapError g x s = (.ok a, s') ↔ x s = (.ok a, s') := by
  unfold mapError
  rcases x s with ⟨e | b, t⟩ <;> simp

theorem bind_of_ok {x : Op σ α} {f : α → Op σ β} {s s' : σ} {a : α} (h : x s = (.ok a, s')) :
    (x >>= f) s = f a s' := by
  rw [bind_apply, h]

theorem bind_eq_ok {x : Op σ α} {f : α → Op σ β} {s s'' : σ} {b : β} :
    (x >>= f) s = (.ok b, s'') ↔ ∃ a s', x s = (.ok a, s') ∧ f a s' = (.ok b, s'') := by
  rw [bind_apply]
  rcases x s with ⟨e | a, s'⟩ <;> simp

theorem ofResult_bind_eq_ok {r : Except String α} {f : α → Op σ β} {s s' : σ} {b : β} :
    (ofResult r >>= f) s = (.ok b, s') ↔ ∃ a, r = .ok a ∧ f a s = (.ok b, s') := by
  rw [bind_apply, ofResult_apply]
  rcases r with e | a <;> simp

theorem bind_eq_error {x : Op σ α} {f : α → Op σ β} {s s'' : σ} {e : String} :
    (x >>= f) s = (.error e, s'') ↔
      x s = (.error e, s'') ∨ ∃ a s', x s = (.ok a, s') ∧ f a s' = (.error e, s'') := by
  rw [bind_apply]
  rcases x s with ⟨e | a, s'⟩ <;> simp

/-- Every run of `x` relates the states before and after by `R`, whether it
    succeeds or fails. -/
def Preserves (R : σ → σ → Prop) (x : Op σ α) : Prop := ∀ s, R s (x s).2

section Preserves

variable {R : σ → σ → Prop}

theorem Preserves.pure (hr : ∀ s, R s s) (a : α) : Preserves R (Pure.pure a : Op σ α) := hr

theorem Preserves.fail (hr : ∀ s, R s s) (e : String) : Preserves R (Op.fail e : Op σ α) := hr

theorem Preserves.get (hr : ∀ s, R s s) : Preserves R (Op.get : Op σ σ) := hr

theorem Preserves.ofResult (hr : ∀ s, R s s) (r : Except String α) :
    Preserves R (Op.ofResult r : Op σ α) := hr

theorem Preserves.bind (ht : ∀ a b c, R a b → R b c → R a c) {x : Op σ α} {f : α → Op σ β}
    (hx : Preserves R x) (hf : ∀ a, Preserves R (f a)) : Preserves R (x >>= f) := fun s => by
  have hs := hx s
  rw [bind_apply]
  rcases hx' : x s with ⟨e | a, s'⟩ <;> rw [hx'] at hs
  · exact hs
  · exact ht _ _ _ hs (hf a s')

end Preserves

/-- From a state of `P` every run of `x` ends in a state of `Q`, whether it succeeds or
    fails. -/
def Leads (P Q : σ → Prop) (x : Op σ α) : Prop := ∀ s, P s → Q (x s).2

section Leads

variable {P M Q : σ → Prop}

theorem Leads.modify {f : σ → σ} (h : ∀ s, P s → Q (f s)) : Leads P Q (Op.modify f) := h

theorem Leads.mono {P' Q' : σ → Prop} {x : Op σ α} (h : Leads P Q x) (hP : ∀ s, P' s → P s)
    (hQ : ∀ s, Q s → Q' s) : Leads P' Q' x := fun s hs => hQ _ (h s (hP s hs))

/-- The state in between may be the last one. -/
theorem Leads.bind {x : Op σ α} {f : α → Op σ β} (hx : Leads P M x) (hlast : ∀ s, M s → Q s)
    (hf : ∀ a, Leads M Q (f a)) : Leads P Q (x >>= f) := fun s hs => by
  have hmiddle := hx s hs
  rw [bind_apply]
  rcases hrun : x s with ⟨e | a, s'⟩ <;> rw [hrun] at hmiddle
  · exact hlast s' hmiddle
  · exact hf a s' hmiddle

/-- What is read is the state. -/
theorem Leads.get_bind {f : σ → Op σ β} (h : ∀ s, P s → Q (f s s).2) : Leads P Q (get >>= f) := h

end Leads

end Op
