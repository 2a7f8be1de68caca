import PeerCore.Runtime.EventLoop

/-!
# Dispatch: which handler an event reaches

`poll_with_timeout` looks up the handler of a ready descriptor once and then
calls whatever its position in `fd_handlers_` holds, once for each bit of the
event. A callback that changes the table changes what the next call reaches.

* `foldl_serve_fdHandlers`: the table that a callback leaves, read off its
  requests.
* `dispatch_iff`: every call reaches a handler of its descriptor exactly when no
  callback with a further bit still to come takes such a handler away from its
  position.
* `keepsPosition_of_apart`: a callback does not, as long as it leaves the handlers
  up to its own position registered.
-/

namespace PeerCore.Runtime

variable {γ σ : Type}

/-- The call reached a handler that was registered for its descriptor. -/
def Invocation.Reaches (invocation : Invocation γ) : Prop :=
  ∃ h, invocation.handler = some h ∧ h.fd = invocation.fd

/-! ## The table after a callback -/

/-- `fd` is unregistered by one of the requests. -/
def unregisters (fd : Fd) (requests : List (Request γ)) : Bool :=
  requests.any fun
    | .unregisterFd fd' => fd' = fd
    | _ => false

/-- The handlers registered by the requests and not unregistered by a later one. -/
def added : List (Request γ) → List (FdHandler γ)
  | [] => []
  | .registerFd fd callback :: requests =>
    (if unregisters fd requests then [] else [⟨fd, callback⟩]) ++ added requests
  | _ :: requests => added requests

/-- The handlers of `table` that no request unregisters, then the added ones. -/
def tableAfter (table : List (FdHandler γ)) (requests : List (Request γ)) : List (FdHandler γ) :=
  (table.filter fun h => !unregisters h.fd requests) ++ added requests

theorem foldl_serve_fdHandlers (requests : List (Request γ)) (loop : EventLoop γ) :
    (requests.foldl EventLoop.serve loop).fdHandlers = tableAfter loop.fdHandlers requests := by
  induction requests generalizing loop with
  | nil => simp [tableAfter, added, unregisters]
  | cons request requests ih =>
    rw [List.foldl_cons, ih]
    cases request with
    | registerFd fd callback =>
      show (loop.fdHandlers ++ [(⟨fd, callback⟩ : FdHandler γ)]).filter _ ++ _ = _ ++ (_ ++ _)
      rw [List.filter_append, List.append_assoc]
      congr 2
      cases hun : unregisters fd requests <;> simp [hun]
    | unregisterFd fd =>
      show (loop.fdHandlers.filter _).filter _ ++ added requests = _ ++ added requests
      rw [List.filter_filter]
      congr 2
      funext h
      simp only [unregisters, List.any_cons]
      by_cases hfd : h.fd = fd
      · simp [hfd]
      · simp [hfd, Ne.symm hfd]
    | addTimer now delay callback repeats => rfl
    | cancelTimer id => rfl

/-- After the requests the position still has a handler of `fd`. -/
def KeepsPosition (fd : Fd) (index : ℕ) (table : List (FdHandler γ)) (requests : List (Request γ)) :
    Prop :=
  ∃ h, (tableAfter table requests)[index]? = some h ∧ h.fd = fd

/-- Leaving the handlers up to the position alone is enough. -/
theorem keepsPosition_of_apart {fd : Fd} {index : ℕ} {table : List (FdHandler γ)}
    {requests : List (Request γ)} {h : FdHandler γ} (hslot : table[index]? = some h)
    (hfd : h.fd = fd) (hapart : ∀ h' ∈ table.take (index + 1), unregisters h'.fd requests = false) :
    KeepsPosition fd index table requests := by
  have hlt : index < table.length := (List.getElem?_eq_some_iff.mp hslot).1
  have htake : (table.take (index + 1)).filter (fun h => !unregisters h.fd requests) =
      table.take (index + 1) := by
    apply List.filter_eq_self.mpr
    intro h' hmem
    rw [hapart h' hmem]
    rfl
  have hafter : tableAfter table requests = table.take (index + 1) ++
      ((table.drop (index + 1)).filter (fun h => !unregisters h.fd requests) ++ added requests) := by
    rw [tableAfter, ← List.append_assoc]
    congr 1
    conv_lhs => rw [← List.take_append_drop (index + 1) table]
    rw [List.filter_append, htake]
  refine ⟨h, ?_, hfd⟩
  rw [hafter, List.getElem?_append_left (by rw [List.length_take]; omega),
    List.getElem?_take_of_lt (Nat.lt_succ_self index)]
  exact hslot

/-! ## One event -/

variable (react : γ → IoEvent → σ → Reaction σ γ)

/-- The callback at `index` keeps a handler of `fd` there, unless it ends the poll. -/
def Spares (fd : Fd) (index : ℕ) (event : IoEvent) (p : Polling σ γ) : Prop :=
  p.thrown = false → ∀ h, p.loop.fdHandlers[index]? = some h →
    (react h.callback event p.state).throws = false →
    KeepsPosition fd index p.loop.fdHandlers (react h.callback event p.state).requests

/-- So does every callback called for one of `events`, the last one apart. -/
def StaysAt (fd : Fd) (index : ℕ) : List IoEvent → Polling σ γ → Prop
  | event :: next :: events, p =>
    Spares react fd index event p ∧
      StaysAt fd index (next :: events) (callHandler react fd index event p)
  | _, _ => True

variable {react} {fd : Fd} {index : ℕ} {event : IoEvent} {p : Polling σ γ}

theorem callHandler_of_thrown (h : p.thrown = true) : callHandler react fd index event p = p := by
  rw [callHandler, if_pos h]

theorem callHandler_invocations (h : p.thrown = false) :
    (callHandler react fd index event p).invocations =
      p.invocations ++ [⟨fd, event, p.loop.fdHandlers[index]?⟩] := by
  rw [callHandler, if_neg (by simp [h])]
  dsimp only
  split <;> rfl

theorem callHandler_of_some (h : p.thrown = false) {handler : FdHandler γ}
    (hslot : p.loop.fdHandlers[index]? = some handler) :
    (callHandler react fd index event p).thrown =
        (react handler.callback event p.state).throws ∧
      (callHandler react fd index event p).loop.fdHandlers =
        tableAfter p.loop.fdHandlers (react handler.callback event p.state).requests := by
  rw [callHandler, if_neg (by simp [h])]
  dsimp only
  rw [hslot]
  exact ⟨rfl, foldl_serve_fdHandlers _ _⟩

theorem callHandler_subset : p.invocations ⊆ (callHandler react fd index event p).invocations := by
  cases h : p.thrown with
  | true => rw [callHandler_of_thrown h]; exact List.Subset.refl _
  | false =>
    rw [callHandler_invocations h]
    exact List.subset_append_left _ _

theorem foldl_callHandler_subset (events : List IoEvent) (p : Polling σ γ) :
    p.invocations ⊆
      (events.foldl (fun p event => callHandler react fd index event p) p).invocations := by
  induction events generalizing p with
  | nil => exact List.Subset.refl _
  | cons event events ih => exact List.Subset.trans callHandler_subset (ih _)

/-- The position has a handler of `fd`, or the poll is over. -/
def Holds (fd : Fd) (index : ℕ) (p : Polling σ γ) : Prop :=
  p.thrown = true ∨ ∃ h, p.loop.fdHandlers[index]? = some h ∧ h.fd = fd

theorem Holds.callHandler_iff (h : Holds fd index p) :
    (∀ i ∈ (callHandler react fd index event p).invocations, i.Reaches) ↔
      ∀ i ∈ p.invocations, i.Reaches := by
  rcases h with hthrown | ⟨handler, hslot, hfd⟩
  · rw [callHandler_of_thrown hthrown]
  · cases hthrown : p.thrown with
    | true => rw [callHandler_of_thrown hthrown]
    | false =>
      rw [callHandler_invocations hthrown]
      constructor
      · intro hall i hi
        exact hall i (List.mem_append_left _ hi)
      · intro hall i hi
        rcases List.mem_append.mp hi with hi | hi
        · exact hall i hi
        · obtain rfl := List.mem_singleton.mp hi
          exact ⟨handler, hslot, hfd⟩

/-- A position without a handler of `fd` shows at the next call. -/
theorem not_reaches_of_not_holds (h : ¬Holds fd index p) :
    ¬∀ i ∈ (callHandler react fd index event p).invocations, i.Reaches := by
  intro hall
  rw [Holds, not_or, Bool.not_eq_true] at h
  rw [callHandler_invocations h.1] at hall
  obtain ⟨handler, hslot, hfd⟩ := hall _ (List.mem_append_right _ (List.mem_singleton_self _))
  exact h.2 ⟨handler, hslot, hfd⟩

theorem Holds.next_iff (h : Holds fd index p) :
    Holds fd index (callHandler react fd index event p) ↔ Spares react fd index event p := by
  constructor
  · intro hnext hthrown handler hslot hthrows
    have hover : (callHandler react fd index event p).thrown =
        (react handler.callback event p.state).throws := (callHandler_of_some hthrown hslot).1
    have htable : (callHandler react fd index event p).loop.fdHandlers = tableAfter p.loop.fdHandlers
        (react handler.callback event p.state).requests := (callHandler_of_some hthrown hslot).2
    rcases hnext with hnext | hnext
    · rw [hover, hthrows] at hnext
      simp at hnext
    · rwa [htable] at hnext
  · intro hspares
    cases hthrown : p.thrown with
    | true =>
      rw [callHandler_of_thrown hthrown]
      exact .inl hthrown
    | false =>
      obtain ⟨handler, hslot, hfd⟩ := h.resolve_left (by simp [hthrown])
      have hover : (callHandler react fd index event p).thrown =
          (react handler.callback event p.state).throws := (callHandler_of_some hthrown hslot).1
      have htable : (callHandler react fd index event p).loop.fdHandlers = tableAfter p.loop.fdHandlers
          (react handler.callback event p.state).requests := (callHandler_of_some hthrown hslot).2
      cases hthrows : (react handler.callback event p.state).throws with
      | true => exact .inl (hover.trans hthrows)
      | false =>
        refine .inr ?_
        rw [htable]
        exact hspares hthrown handler hslot hthrows

theorem foldl_callHandler_iff (events : List IoEvent) (p : Polling σ γ) (h : Holds fd index p) :
    (∀ i ∈ (events.foldl (fun p event => callHandler react fd index event p) p).invocations,
        i.Reaches) ↔
      (∀ i ∈ p.invocations, i.Reaches) ∧ StaysAt react fd index events p := by
  induction events generalizing p with
  | nil => simp [StaysAt]
  | cons event events ih =>
    rw [List.foldl_cons]
    cases events with
    | nil =>
      rw [List.foldl_nil, h.callHandler_iff]
      simp [StaysAt]
    | cons next events =>
      rw [StaysAt]
      by_cases hnext : Holds fd index (callHandler react fd index event p)
      · rw [ih _ hnext, h.callHandler_iff]
        exact and_congr_right fun _ => (and_iff_right (h.next_iff.mp hnext)).symm
      · constructor
        · intro hall
          -- the next call shows it, and no later call takes it back
          exfalso
          have hmissed : ¬∀ i ∈ (callHandler react fd index next
              (callHandler react fd index event p)).invocations, i.Reaches :=
            not_reaches_of_not_holds hnext
          exact hmissed fun i hi => hall i (foldl_callHandler_subset events _ hi)
        · rintro ⟨-, hspares, -⟩
          exact absurd (h.next_iff.mpr hspares) hnext

/-! ## A whole call -/

variable (react) in
/-- Every event of the batch finds its handler's position kept. -/
def Undisturbed : List ReadyEvent → Polling σ γ → Prop
  | [], _ => True
  | ready :: events, p =>
    (∀ index, (p.loop.fdHandlers.findIdx? fun h => h.fd = ready.fd) = some index →
      StaysAt react ready.fd index (callsFor ready) p) ∧
    Undisturbed events (handleReady react p ready)

theorem holds_of_findIdx? (h : (p.loop.fdHandlers.findIdx? fun h => h.fd = fd) = some index) :
    Holds fd index p := by
  obtain ⟨hlt, hfd, -⟩ := List.findIdx?_eq_some_iff_getElem.mp h
  exact .inr ⟨_, List.getElem?_eq_getElem hlt, by simpa using hfd⟩

theorem handleReady_iff (ready : ReadyEvent) (p : Polling σ γ) :
    (∀ i ∈ (handleReady react p ready).invocations, i.Reaches) ↔
      (∀ i ∈ p.invocations, i.Reaches) ∧
        ∀ index, (p.loop.fdHandlers.findIdx? fun h => h.fd = ready.fd) = some index →
          StaysAt react ready.fd index (callsFor ready) p := by
  unfold handleReady
  cases hfind : p.loop.fdHandlers.findIdx? fun h => h.fd = ready.fd with
  | none => simp
  | some index =>
    dsimp only
    rw [foldl_callHandler_iff _ p (holds_of_findIdx? hfind)]
    simp

theorem foldl_handleReady_iff (events : List ReadyEvent) (p : Polling σ γ) :
    (∀ i ∈ (events.foldl (handleReady react) p).invocations, i.Reaches) ↔
      (∀ i ∈ p.invocations, i.Reaches) ∧ Undisturbed react events p := by
  induction events generalizing p with
  | nil => simp [Undisturbed]
  | cons ready events ih => rw [List.foldl_cons, ih, handleReady_iff, Undisturbed, and_assoc]

/-- In a `poll_with_timeout` every call of a callback made for a descriptor
    reaches a handler registered for it exactly when the batch is undisturbed: a
    callback with a further bit of its event still to come leaves, of the handlers
    it does not unregister and those it registers, one of that descriptor at its
    own position. -/
theorem dispatch_iff (react : γ → IoEvent → σ → Reaction σ γ) (loop : EventLoop γ) (state : σ)
    (events : List ReadyEvent) (clock : ℕ → ℤ) :
    (∀ i ∈ (pollWithTimeout react events clock { loop, state }).1.invocations, i.Reaches) ↔
      Undisturbed react events { loop, state } := by
  have hinvocations : (pollWithTimeout react events clock { loop, state }).1.invocations =
      (events.foldl (handleReady react) { loop, state }).invocations := by
    unfold pollWithTimeout
    dsimp only
    split <;> rfl
  rw [hinvocations, foldl_handleReady_iff]
  simp

/-! ## A dial that completes -/

/-- The callbacks of two descriptors: that of the first is a dial, which on
    completion registers its descriptor again, now as a connection. -/
inductive ToyCallback
  | dial | connection | other
  deriving DecidableEq

/-- `on_connect_ready` and `register_connection` for descriptor 5. -/
def toyReact (callback : ToyCallback) (event : IoEvent) (state : Unit) :
    Reaction Unit ToyCallback :=
  if callback = .dial ∧ event = .writable then
    { requests := [.unregisterFd 5, .registerFd 5 .connection], state }
  else { state }

/-- Both bits of the event of descriptor 5 are set; the second one reaches the
    handler of descriptor 7. -/
theorem dispatch_astray :
    ¬∀ (react : ToyCallback → IoEvent → Unit → Reaction Unit ToyCallback)
      (loop : EventLoop ToyCallback) (state : Unit) (events : List ReadyEvent) (clock : ℕ → ℤ),
      ∀ i ∈ (pollWithTimeout react events clock { loop, state }).1.invocations, i.Reaches := by
  intro hall
  have h := hall toyReact { fdHandlers := [⟨5, .dial⟩, ⟨7, .other⟩] } ()
    [{ fd := 5, output := true, error := true }] (fun _ => 0)
    ⟨5, .error, some ⟨7, .other⟩⟩ (List.mem_of_getElem? (i := 1) rfl)
  obtain ⟨handler, hhandler, hfd⟩ := h
  obtain rfl := Option.some.inj hhandler
  exact absurd hfd (by decide)

end PeerCore.Runtime
