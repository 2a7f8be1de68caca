import PeerCore.Yamux.Session

/-!
# What the methods of a session do to it and to its environment

A `YamuxSession` changes the objects of its streams, makes new ones, and reaches its
environment through the callbacks only. So a relation that these keep relates what is
before and after every method.

* `Carries`: relations between sessions with their environments; `Carries.openStream`,
  `Carries.receive`, ….
* `Respects`: relations between environments; `openStream_respects`,
  `receive_respects`, ….
-/

namespace PeerCore.Yamux

variable {E : Type} {α : Type}

/-- The changes of which every method is made relate the host before to the one after.
    A stream that is announced is there, and its id is the one announced. -/
structure Carries (cb : Callbacks E) (R : Host E → Host E → Prop) : Prop where
  refl : ∀ h, R h h
  trans : ∀ a b c, R a b → R b c → R a c
  quiet : ∀ h s, s.heap = h.1.heap → s.allocated = h.1.allocated → R h (s, h.2)
  change : ∀ h stream f, (∀ st : YamuxStream, (f st).id = st.id) →
    R h (h.1.setStream stream f, h.2)
  create : ∀ h sid, R h (h.1.createStream sid, h.2)
  accept : ∀ f, cb.accept = some f → ∀ stream h, stream < h.1.allocated →
    R h (h.1, f stream (h.1.heap stream).id h.2)
  outgoing : ∀ f, cb.outgoing = some f → ∀ h,
    R h ({ h.1 with sendBuf := (f h.1.sendBuf h.2).2.1 }, (f h.1.sendBuf h.2).2.2)
  close : ∀ f, cb.close = some f → ∀ sid detail h, R h (h.1, f sid detail h.2)

namespace Carries

variable {cb : Callbacks E} {R : Host E → Host E → Prop} {β : Type} (hR : Carries cb R)
include hR

theorem bind {x : Op (Host E) α} {f : α → Op (Host E) β} (hx : Op.Preserves R x)
    (hf : ∀ a, Op.Preserves R (f a)) : Op.Preserves R (x >>= f) :=
  Op.Preserves.bind hR.trans hx hf

theorem pure (a : α) : Op.Preserves R (Pure.pure a : Op (Host E) α) := hR.refl

theorem fail (e : String) : Op.Preserves R (Op.fail e : Op (Host E) α) := hR.refl

theorem get : Op.Preserves R (Op.get : Op (Host E) (Host E)) := hR.refl

/-- A change of the session outside of its stream objects. -/
theorem outside {f : Host E → Host E}
    (hf : ∀ h, (f h).1.heap = h.1.heap ∧ (f h).1.allocated = h.1.allocated ∧ (f h).2 = h.2) :
    Op.Preserves R (Op.modify f) := fun h => by
  obtain ⟨hheap, hallocated, henv⟩ := hf h
  have hquiet := hR.quiet h (f h).1 hheap hallocated
  rw [← henv] at hquiet
  exact hquiet

theorem setStream (stream : ℕ) {f : YamuxStream → YamuxStream} (hf : ∀ st, (f st).id = st.id) :
    Op.Preserves R (Op.modify fun h => (h.1.setStream stream f, h.2)) :=
  fun h => hR.change h stream f hf

theorem runOutgoing : Op.Preserves R (runOutgoing cb) := fun h => by
  unfold Yamux.runOutgoing
  cases hcb : cb.outgoing with
  | none => exact hR.refl _
  | some f => exact hR.outgoing f hcb h

theorem sendFrame (hdr : YamuxHeader) (payload : Bytes) : Op.Preserves R (sendFrame cb hdr payload) :=
  hR.bind (hR.outside (by exact fun _ => ⟨rfl, rfl, rfl⟩)) fun _ => hR.runOutgoing

theorem updateReceiveWindow (sid : StreamId) (delta : ℕ) :
    Op.Preserves R (updateReceiveWindow cb sid delta) := by
  unfold Yamux.updateReceiveWindow
  split_ifs
  · exact hR.pure _
  · exact hR.sendFrame _ _

/-- An entry that is there, or a stream that is made. -/
theorem getOrCreateStream (h : Host E) (s : YamuxSession) (sid : StreamId) (openIfMissing : Bool)
    (hheap : s.heap = h.1.heap) (hallocated : s.allocated = h.1.allocated) :
    R h ((s.getOrCreateStream sid openIfMissing).2, h.2) := by
  unfold YamuxSession.getOrCreateStream
  have hs := hR.quiet h s hheap hallocated
  cases s.streams sid with
  | some stream => exact hs
  | none =>
    dsimp only
    split_ifs
    · exact hR.trans _ _ _ hs (hR.create (s, h.2) sid)
    · exact hs

/-! ## The methods -/

theorem openStream : Op.Preserves R (openStream cb) := fun h => by
  rw [Yamux.openStream, Op.get_bind]
  split_ifs
  · exact hR.refl _
  · have hcreate := hR.getOrCreateStream h { h.1 with nextStreamId := h.1.nextStreamId + 2 }
      h.1.nextStreamId true rfl rfl
    have hsend : ∀ (hdr : YamuxHeader) (stream : ℕ),
        Op.Preserves R (Yamux.sendFrame cb hdr [] >>= fun _ => Pure.pure stream : Op (Host E) ℕ) :=
      fun hdr stream => hR.bind (hR.sendFrame _ _) fun _ => hR.pure _
    exact hR.trans _ _ _ hcreate (hsend _ _ _)

theorem writeStreamData (sid : StreamId) (data : Bytes) :
    Op.Preserves R (writeStreamData cb sid data) := by
  refine hR.bind hR.get fun h => ?_
  cases h.1.sendWindows sid with
  | none => exact hR.fail _
  | some window =>
    dsimp only
    split_ifs
    · exact hR.fail _
    · exact hR.bind (hR.outside (by exact fun _ => ⟨rfl, rfl, rfl⟩)) fun _ =>
        hR.bind (hR.outside (by exact fun _ => ⟨rfl, rfl, rfl⟩)) fun _ =>
          hR.bind hR.runOutgoing fun _ => hR.pure _

theorem tryWrite (stream : ℕ) (data : Bytes) : Op.Preserves R (tryWrite cb stream data) := by
  refine hR.bind hR.get fun h => ?_
  dsimp only
  split_ifs
  · exact hR.fail _
  · exact hR.writeStreamData _ _

theorem tryRead (stream size : ℕ) : Op.Preserves R (tryRead cb stream size) := by
  refine hR.bind hR.get fun h => ?_
  dsimp only
  split_ifs
  · exact hR.pure _
  · exact hR.fail _
  · exact hR.bind (hR.setStream stream fun _ => rfl) fun _ h => hR.updateReceiveWindow _ _ h

theorem closeWrite (stream : ℕ) : Op.Preserves R (closeWrite cb stream) := by
  refine hR.bind hR.get fun h => ?_
  dsimp only
  split_ifs
  · exact hR.pure _
  · refine hR.bind (hR.setStream stream fun _ => rfl) fun _ => ?_
    refine hR.bind (hR.outside (by exact fun _ => ⟨rfl, rfl, rfl⟩)) fun _ => hR.bind (fun h => ?_) fun _ =>
      hR.runOutgoing
    rw [Op.modify_apply]
    dsimp only
    cases h.1.streams _ with
    | none => exact hR.refl _
    | some stream' => exact hR.change h stream' _ fun _ => rfl

theorem reset (stream : ℕ) : Op.Preserves R (reset cb stream) :=
  hR.bind hR.get fun _ => hR.bind (hR.setStream stream fun _ => rfl) fun _ =>
    hR.bind (hR.outside (by exact fun _ => ⟨rfl, rfl, rfl⟩)) fun _ =>
      hR.bind (hR.outside (by exact fun _ => ⟨rfl, rfl, rfl⟩)) fun _ => hR.runOutgoing

/-! ## Received frames -/

theorem runClose (sid : StreamId) (detail : String) (h : Host E) : R h (runClose cb sid detail h) := by
  unfold Yamux.runClose
  cases hcb : cb.close with
  | none => exact hR.refl _
  | some f => exact hR.close f hcb _ _ _

theorem acceptStream {stream : ℕ} {sid : StreamId} {h : Host E} (hthere : stream < h.1.allocated)
    (hsid : (h.1.heap stream).id = sid) : R h (acceptStream cb stream sid h) := by
  unfold Yamux.acceptStream
  rw [← hsid]
  cases hcb : cb.accept with
  | none => exact hR.sendFrame _ _ _
  | some f => exact hR.trans _ _ _ (hR.accept f hcb stream h hthere) (hR.sendFrame _ _ (_, _))

theorem applyFrame (hdr : YamuxHeader) (payload : Bytes) (stream : ℕ) (h : Host E) :
    R h (applyFrame cb hdr payload stream h) := by
  unfold Yamux.applyFrame
  extract_lets h₁ h₂ fin h₃ rst closed
  have h₁r : R h h₁ := by
    unfold h₁
    split_ifs
    · refine hR.quiet h _ ?_ ?_ <;> unfold YamuxSession.creditWindow <;>
        cases h.1.sendWindows hdr.streamId <;> rfl
    · exact hR.refl _
  have h₂r : R h h₂ := by
    unfold h₂
    split_ifs
    · exact hR.trans _ _ _ h₁r (hR.change h₁ stream _ fun _ => rfl)
    · exact h₁r
  have h₃r : R h h₃ := by
    have hfin : R h fin := hR.trans _ _ _ h₂r (hR.change h₂ stream _ fun _ => rfl)
    unfold h₃
    split_ifs
    · exact hfin
    · exact hR.trans _ _ _ hfin (hR.runClose _ _ fin)
    · exact h₂r
  split_ifs
  · have hrst : R h rst := hR.trans _ _ _ h₃r (hR.change h₃ stream _ fun _ => rfl)
    have hclosed : R h closed := hR.trans _ _ _ hrst (hR.runClose _ _ rst)
    exact hR.trans _ _ _ hclosed (hR.quiet closed _ rfl rfl)
  · exact h₃r

theorem handleFrame (hdr : YamuxHeader) (payload : Bytes) (h : Host E) :
    R h (handleFrame cb hdr payload h) := by
  unfold Yamux.handleFrame
  dsimp only
  split_ifs with _ _ _ _ _ _ hnew
  · exact hR.refl _
  · exact hR.refl _
  · exact hR.sendFrame _ _ _
  · exact hR.quiet h _ rfl rfl
  · exact hR.refl _
  · exact hR.sendFrame _ _ _
  · -- the frame makes the stream that it is about
    rw [Bool.and_eq_true, Bool.not_eq_true'] at hnew
    obtain ⟨hsyn, hmissing⟩ := hnew
    have hnone : h.1.streams hdr.streamId = none := by simpa using hmissing
    rw [YamuxSession.getOrCreateStream, hnone]
    simp only [hsyn, if_true]
    have hid : ((h.1.createStream hdr.streamId).heap h.1.allocated).id = hdr.streamId := by
      simp [YamuxSession.createStream]
    have haccept := hR.acceptStream (h := (h.1.createStream hdr.streamId, h.2))
      (Nat.lt_succ_self h.1.allocated) hid
    exact hR.trans _ _ _ (hR.create h hdr.streamId) (hR.trans _ _ _ haccept (hR.applyFrame _ _ _ _))
  · have hget := hR.getOrCreateStream h h.1 hdr.streamId (hasFlag hdr.flags .syn) rfl rfl
    rcases hfound : h.1.getOrCreateStream hdr.streamId (hasFlag hdr.flags .syn) with ⟨_ | stream, s⟩ <;>
      rw [hfound] at hget
    · exact hget
    · exact hR.trans _ _ _ hget (hR.applyFrame _ _ _ (s, h.2))

theorem processFramesLoop (fuel : ℕ) (h : Host E) : R h (processFramesLoop cb fuel h) := by
  induction fuel generalizing h with
  | zero => exact hR.refl _
  | succ fuel ih =>
    rw [Yamux.processFramesLoop]
    cases tryParseFrame h.1.recvBuf with
    | none => exact hR.refl _
    | some frame =>
      obtain ⟨hdr, payload, rest⟩ := frame
      have hrest : R h ({ h.1 with recvBuf := rest }, h.2) := hR.quiet h _ rfl rfl
      exact hR.trans _ _ _ hrest (hR.trans _ _ _ (hR.handleFrame hdr payload _) (ih _))

theorem receive (data : Bytes) : Op.Preserves R (receive cb data) := fun h =>
  hR.trans _ _ _ (hR.quiet h { h.1 with recvBuf := h.1.recvBuf ++ data } rfl rfl)
    (hR.processFramesLoop _ _)

end Carries

/-! ## The environment alone -/

/-- Every callback relates the environment before to the one after. -/
structure Respects (cb : Callbacks E) (R : E → E → Prop) : Prop where
  refl : ∀ e, R e e
  trans : ∀ a b c, R a b → R b c → R a c
  accept : ∀ f, cb.accept = some f → ∀ stream sid e, R e (f stream sid e)
  outgoing : ∀ f, cb.outgoing = some f → ∀ sendBuf e, R e (f sendBuf e).2.2
  close : ∀ f, cb.close = some f → ∀ sid detail e, R e (f sid detail e)

/-- `x` relates the environments before and after. -/
def Keeps (R : E → E → Prop) (x : Op (Host E) α) : Prop := Op.Preserves (fun h h' => R h.2 h'.2) x

variable {cb : Callbacks E} {R : E → E → Prop} (hR : Respects cb R)
include hR

theorem Respects.carries : Carries cb fun h h' => R h.2 h'.2 where
  refl := fun h => hR.refl h.2
  trans := fun a b c => hR.trans a.2 b.2 c.2
  quiet := fun h _ _ _ => hR.refl h.2
  change := fun h _ _ _ => hR.refl h.2
  create := fun h _ => hR.refl h.2
  accept := fun f hf stream h _ => hR.accept f hf stream _ h.2
  outgoing := fun f hf h => hR.outgoing f hf h.1.sendBuf h.2
  close := fun f hf sid detail h => hR.close f hf sid detail h.2

theorem openStream_respects : Keeps R (openStream cb) := hR.carries.openStream

theorem tryWrite_respects (stream : ℕ) (data : Bytes) : Keeps R (tryWrite cb stream data) :=
  hR.carries.tryWrite stream data

theorem tryRead_respects (stream size : ℕ) : Keeps R (tryRead cb stream size) :=
  hR.carries.tryRead stream size

theorem closeWrite_respects (stream : ℕ) : Keeps R (closeWrite cb stream) :=
  hR.carries.closeWrite stream

theorem reset_respects (stream : ℕ) : Keeps R (reset cb stream) := hR.carries.reset stream

theorem receive_respects (data : Bytes) : Keeps R (receive cb data) := hR.carries.receive data

end PeerCore.Yamux
