import PeerCore.Lib.Op

/-!
# Operations that keep a trace

A method on `σ × ω` works on `σ` and writes what it did into `ω`. `lift` runs a
method that writes nothing, `note` writes. `Erases y x` says that `y` is `x` when
the trace is forgotten; it follows the structure of `y`.

`Triple P x Q E` is the usual triple with an assertion for each way out: from `P`,
success ends in `Q` and failure in `E`.
-/

namespace Op

variable {σ ω α β : Type}

/-! ## Triples -/

/-- From `P`, a run of `x` that succeeds ends in `Q`, and one that fails in `E`. -/
structure Triple (P : σ → Prop) (x : Op σ α) (Q : α → σ → Prop) (E : σ → Prop) : Prop where
  ok : ∀ {s s' a}, P s → x s = (.ok a, s') → Q a s'
  error : ∀ {s s' e}, P s → x s = (.error e, s') → E s'

namespace Triple

variable {P P' : σ → Prop} {Q Q' : α → σ → Prop} {R : β → σ → Prop} {E E' : σ → Prop} {x : Op σ α}

theorem bind {f : α → Op σ β} (hx : Triple P x Q E) (hf : ∀ a, Triple (Q a) (f a) R E) :
    Triple P (x >>= f) R E where
  ok := fun hs h => by
    obtain ⟨a, t, hrun, h⟩ := bind_eq_ok.mp h
    exact (hf a).ok (hx.ok hs hrun) h
  error := fun hs h => by
    rcases bind_eq_error.mp h with hrun | ⟨a, t, hrun, h⟩
    · exact hx.error hs hrun
    · exact (hf a).error (hx.ok hs hrun) h

/-- What holds in both outcomes holds of the state after the run. -/
theorem state (hx : Triple P x (fun _ => E) E) {s : σ} (hs : P s) : E (x s).2 := by
  rcases hrun : x s with ⟨e | a, t⟩
  · exact hx.error hs hrun
  · exact hx.ok hs hrun

theorem weaken (hx : Triple P x Q E) (hP : ∀ s, P' s → P s) (hQ : ∀ a s, Q a s → Q' a s)
    (hE : ∀ s, E s → E' s) : Triple P' x Q' E' where
  ok := fun hs h => hQ _ _ (hx.ok (hP _ hs) h)
  error := fun hs h => hE _ (hx.error (hP _ hs) h)

/-- An assertion with a parameter: the triple holds for each value of it. -/
theorem exists_pre {ι : Type} {P : ι → σ → Prop} (h : ∀ i, Triple (P i) x Q E) :
    Triple (fun s => ∃ i, P i s) x Q E where
  ok := fun hs hrun => by
    obtain ⟨i, hi⟩ := hs
    exact (h i).ok hi hrun
  error := fun hs hrun => by
    obtain ⟨i, hi⟩ := hs
    exact (h i).error hi hrun

/-- A part of the assertion that says nothing about the state. -/
theorem of_fact {φ : Prop} (h : φ → Triple P x Q E) : Triple (fun s => φ ∧ P s) x Q E where
  ok := fun hs hrun => (h hs.1).ok hs.2 hrun
  error := fun hs hrun => (h hs.1).error hs.2 hrun

/-- The state that is read satisfies the assertion. -/
theorem get_bind {f : σ → Op σ α} (h : ∀ t, P t → Triple (fun s => s = t) (f t) Q E) :
    Triple P (Op.get >>= f) Q E where
  ok := fun hs hrun => (h _ hs).ok rfl hrun
  error := fun hs hrun => (h _ hs).error rfl hrun

theorem pure {a : α} (h : ∀ s, P s → Q a s) : Triple P (Pure.pure a : Op σ α) Q E where
  ok := fun hs hrun => by
    cases hrun
    exact h _ hs
  error := fun _ hrun => by cases hrun

theorem fail {e : String} (h : ∀ s, P s → E s) : Triple P (Op.fail e : Op σ α) Q E where
  ok := fun _ hrun => by cases hrun
  error := fun hs hrun => by
    cases hrun
    exact h _ hs

theorem modify {f : σ → σ} {Q : Unit → σ → Prop} (h : ∀ s, P s → Q () (f s)) :
    Triple P (Op.modify f) Q E where
  ok := fun hs hrun => by
    cases hrun
    exact h _ hs
  error := fun _ hrun => by cases hrun

theorem ofResult {r : Except String α} (h : ∀ a s, P s → Q a s) (he : ∀ s, P s → E s) :
    Triple P (Op.ofResult r) Q E where
  ok := fun hs hrun => by
    obtain ⟨-, rfl⟩ := ofResult_eq_ok.mp hrun
    exact h _ _ hs
  error := fun hs hrun => by
    obtain ⟨-, rfl⟩ := ofResult_eq_error.mp hrun
    exact he _ hs

theorem update {f : σ → α × σ} (h : ∀ s, P s → Q (f s).1 (f s).2) :
    Triple P (Op.update f) Q E where
  ok := fun hs hrun => by
    cases hrun
    exact h _ hs
  error := fun _ hrun => by cases hrun

/-- What runs on failure makes up for it. -/
theorem onFail {f : σ → σ} (hx : Triple P x Q E') (hf : ∀ s, E' s → E (f s)) :
    Triple P (Op.onFail f x) Q E where
  ok := fun {s s' a} hs hrun => by
    unfold Op.onFail at hrun
    rcases hrun' : x s with ⟨e' | b, t⟩ <;> rw [hrun'] at hrun <;> cases hrun
    exact hx.ok hs hrun'
  error := fun {s s' e} hs hrun => by
    unfold Op.onFail at hrun
    rcases hrun' : x s with ⟨e' | b, t⟩ <;> rw [hrun'] at hrun <;> cases hrun
    exact hf _ (hx.error hs hrun')

theorem mapError (hx : Triple P x Q E) (g : String → String) :
    Triple P (Op.mapError g x) Q E where
  ok := fun hs hrun => hx.ok hs (mapError_eq_ok.mp hrun)
  error := fun {s s' e} hs hrun => by
    unfold Op.mapError at hrun
    rcases hrun' : x s with ⟨e' | a, t⟩ <;> rw [hrun'] at hrun <;> cases hrun
    exact hx.error hs hrun'

end Triple

/-! ## Traces -/

/-- Run `x`, which writes nothing into the trace. -/
def lift (x : Op σ α) : Op (σ × ω) α := zoom Prod.fst (fun s t => (t, s.2)) x

/-- Write into the trace. -/
def note (f : σ → ω → ω) : Op (σ × ω) Unit := modify fun s => (s.1, f s.1 s.2)

theorem lift_apply (x : Op σ α) (s : σ) (w : ω) :
    (lift x : Op (σ × ω) α) (s, w) = ((x s).1, ((x s).2, w)) := rfl

/-- A lifted method leaves the trace as it is. -/
theorem Triple.lift {P : σ → Prop} {Q : α → σ → Prop} {E : σ → Prop} {x : Op σ α}
    (hx : Triple P x Q E) (w : ω) :
    Triple (fun s => P s.1 ∧ s.2 = w) (Op.lift x) (fun a s => Q a s.1 ∧ s.2 = w)
      (fun s => E s.1 ∧ s.2 = w) where
  ok := fun {s s' a} hs hrun => by
    rw [lift_apply, Prod.mk.injEq] at hrun
    obtain ⟨hrun, rfl⟩ := hrun
    exact ⟨hx.ok hs.1 (Prod.ext hrun rfl), hs.2⟩
  error := fun {s s' e} hs hrun => by
    rw [lift_apply, Prod.mk.injEq] at hrun
    obtain ⟨hrun, rfl⟩ := hrun
    exact ⟨hx.error hs.1 (Prod.ext hrun rfl), hs.2⟩

/-- `y` is `x` with a trace. -/
def Erases (y : Op (σ × ω) α) (x : Op σ α) : Prop :=
  ∀ s w, (y (s, w)).1 = (x s).1 ∧ (y (s, w)).2.1 = (x s).2

namespace Erases

variable {x : Op σ α} {y : Op (σ × ω) α}

/-- What `x` does, `y` does, and it leaves a trace. -/
theorem run (h : Erases y x) {s s' : σ} {r : Except String α} (hx : x s = (r, s')) (w : ω) :
    y (s, w) = (r, s', (y (s, w)).2.2) := by
  obtain ⟨h₁, h₂⟩ := h s w
  rw [hx] at h₁ h₂
  exact Prod.ext h₁ (Prod.ext h₂ rfl)

theorem lift (x : Op σ α) : Erases (Op.lift x : Op (σ × ω) α) x := fun _ _ => ⟨rfl, rfl⟩

theorem pure (a : α) : Erases (Pure.pure a : Op (σ × ω) α) (Pure.pure a) := fun _ _ => ⟨rfl, rfl⟩

theorem fail (e : String) : Erases (Op.fail e : Op (σ × ω) α) (Op.fail e) := fun _ _ => ⟨rfl, rfl⟩

theorem bind {f : α → Op σ β} {g : α → Op (σ × ω) β} (h : Erases y x) (hf : ∀ a, Erases (g a) (f a)) :
    Erases (y >>= g) (x >>= f) := fun s w => by
  obtain ⟨h₁, h₂⟩ := h s w
  rw [bind_apply, bind_apply]
  rcases hy : y (s, w) with ⟨e | a, t, w'⟩ <;> rcases hx : x s with ⟨e' | a', t'⟩ <;>
    rw [hy, hx] at h₁ h₂ <;> cases h₁ <;> cases h₂
  · exact ⟨rfl, rfl⟩
  · exact hf a t w'

/-- What is read is the state, in `y` with the trace. -/
theorem get_bind {f : σ → Op σ β} {g : σ × ω → Op (σ × ω) β} (h : ∀ s w, Erases (g (s, w)) (f s)) :
    Erases (Op.get >>= g) (Op.get >>= f) := fun s w => h s w s w

/-- A note at the end changes neither the result nor the state. -/
theorem then_note {x : Op σ Unit} {y : Op (σ × ω) Unit} (h : Erases y x) (f : σ → ω → ω) :
    Erases (do y; Op.note f) x := fun s w => by
  obtain ⟨h₁, h₂⟩ := h s w
  rw [bind_apply]
  rcases hy : y (s, w) with ⟨e | _, t, w'⟩ <;> rw [hy] at h₁ h₂ <;> exact ⟨h₁, h₂⟩

/-- The same, where `y` returns something. -/
theorem noted (h : Erases y x) (f : α → σ → ω → ω) :
    Erases (do let a ← y; Op.note (f a); Pure.pure a) x := fun s w => by
  obtain ⟨h₁, h₂⟩ := h s w
  rw [bind_apply]
  rcases hy : y (s, w) with ⟨e | a, t, w'⟩ <;> rw [hy] at h₁ h₂ <;> exact ⟨h₁, h₂⟩

end Erases

end Op
