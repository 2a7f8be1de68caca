import PeerCore.Yamux.Pair

/-!
# A session in two environments

The methods of a session change it in the same way whatever its environment, as long as
the outgoing callback leaves the same bytes in `send_buf_`; only what a method returns
may differ. No method reads the connection id or the protocols that the owner of the
session notes on its streams (`set_protocol`).

* `Mirrors`: two sets of callbacks that keep a relation between their environments.
* `Mirrors.openStream`, `Mirrors.receive`, …: every method keeps `Mirrored`.
-/

namespace PeerCore.Yamux

open YamuxSession

variable {E F : Type}

/-! ## Without labels -/

/-- A stream without its connection id and its protocol. -/
def YamuxStream.anonymous (st : YamuxStream) : YamuxStream :=
  { st with connId := 0, protocol := none }

/-- The session without its connection id and the protocols of its streams. -/
def YamuxSession.anonymous (s : YamuxSession) : YamuxSession :=
  { s with connId := 0, heap := fun i => (s.heap i).anonymous }

namespace YamuxSession

variable (s : YamuxSession)

@[simp] theorem anonymous_heap (i : ℕ) : s.anonymous.heap i = (s.heap i).anonymous := rfl
@[simp] theorem anonymous_allocated : s.anonymous.allocated = s.allocated := rfl
@[simp] theorem anonymous_streams : s.anonymous.streams = s.streams := rfl
@[simp] theorem anonymous_sendWindows : s.anonymous.sendWindows = s.sendWindows := rfl
@[simp] theorem anonymous_sendBuf : s.anonymous.sendBuf = s.sendBuf := rfl
@[simp] theorem anonymous_recvBuf : s.anonymous.recvBuf = s.recvBuf := rfl
@[simp] theorem anonymous_nextStreamId : s.anonymous.nextStreamId = s.nextStreamId := rfl
@[simp] theorem anonymous_remoteGoAway : s.anonymous.remoteGoAway = s.remoteGoAway := rfl

@[simp] theorem anonymous_make (connId : ConnectionId) (isClient : Bool) :
    (YamuxSession.make connId isClient).anonymous = YamuxSession.make 0 isClient := rfl

theorem anonymous_setStream (stream : ℕ) {f : YamuxStream → YamuxStream}
    (hf : ∀ st : YamuxStream, f st.anonymous = (f st).anonymous) :
    (s.setStream stream f).anonymous = s.anonymous.setStream stream f := by
  unfold YamuxSession.anonymous setStream
  congr 1
  funext i
  by_cases hi : i = stream
  · subst hi
    simp [hf]
  · simp [hi]

/-- `set_protocol` changes nothing else. -/
theorem anonymous_setProtocol (stream : ℕ) (proto : ProtocolId) :
    (s.setStream stream (·.setProtocol proto)).anonymous = s.anonymous := by
  unfold YamuxSession.anonymous setStream
  congr 1
  funext i
  by_cases hi : i = stream
  · subst hi
    simp [YamuxStream.anonymous, YamuxStream.setProtocol]
  · simp [hi]

theorem anonymous_createStream (sid : StreamId) :
    (s.createStream sid).anonymous = s.anonymous.createStream sid := by
  unfold YamuxSession.anonymous createStream
  congr 1
  funext i
  by_cases hi : i = s.allocated
  · subst hi
    simp [YamuxStream.anonymous]
  · simp [hi]

theorem anonymous_creditWindow (sid : StreamId) (delta : UInt32) :
    (s.creditWindow sid delta).anonymous = s.anonymous.creditWindow sid delta := by
  unfold creditWindow
  rw [anonymous_sendWindows]
  cases s.sendWindows sid <;> rfl

theorem anonymous_getOrCreateStream (sid : StreamId) (openIfMissing : Bool) :
    s.anonymous.getOrCreateStream sid openIfMissing =
      ((s.getOrCreateStream sid openIfMissing).1,
        (s.getOrCreateStream sid openIfMissing).2.anonymous) := by
  unfold getOrCreateStream
  rw [anonymous_streams]
  cases s.streams sid with
  | some stream => rfl
  | none =>
    cases openIfMissing with
    | false => rfl
    | true => simp [anonymous_createStream]

end YamuxSession

/-! ## The callbacks -/

theorem Op.bind_pure_snd {σ α β : Type} (x : Op σ α) (b : β) (s : σ) :
    ((x >>= fun _ => Pure.pure b) s).2 = (x s).2 := by
  rw [Op.bind_apply]
  rcases x s with ⟨_ | _, s'⟩ <;> rfl

section Callbacks

variable (cb : Callbacks E)

/-- The environment after the accept callback. -/
def announce (stream : ℕ) (sid : StreamId) (e : E) : E :=
  match cb.accept with
  | none => e
  | some accept => accept stream sid e

/-- What the outgoing callback leaves in `send_buf_`, and the environment after it. -/
def send (sendBuf : Bytes) (e : E) : Bytes × E :=
  match cb.outgoing with
  | none => (sendBuf, e)
  | some outgoing => (outgoing sendBuf e).2

theorem runOutgoing_snd (h : Host E) :
    (runOutgoing cb h).2 =
      ({ h.1 with sendBuf := (send cb h.1.sendBuf h.2).1 }, (send cb h.1.sendBuf h.2).2) := by
  unfold runOutgoing send
  cases cb.outgoing <;> rfl

theorem openStream_snd (h : Host E) :
    (openStream cb h).2 = if h.1.remoteGoAway then h else
      (sendFrame cb (header .data YamuxFlag.syn.value h.1.nextStreamId 0) []
        (({ h.1 with nextStreamId := h.1.nextStreamId + 2 }.getOrCreateStream h.1.nextStreamId
          true).2, h.2)).2 := by
  rw [openStream, Op.get_bind]
  dsimp only
  split_ifs
  · rfl
  · rw [Op.modify_bind, Op.bind_pure_snd]

end Callbacks

/-- The callbacks `cb` and `cb'` keep `R` between their environments, and the outgoing
    callbacks leave the same bytes. -/
structure Mirrors (cb : Callbacks E) (cb' : Callbacks F) (R : E → F → Prop) : Prop where
  accept : ∀ stream sid e f, R e f → R (announce cb stream sid e) (announce cb' stream sid f)
  outgoing : ∀ sendBuf e f, R e f → (send cb sendBuf e).1 = (send cb' sendBuf f).1 ∧
    R (send cb sendBuf e).2 (send cb' sendBuf f).2
  close : ∀ sid detail s e f, R e f →
    R (runClose cb sid detail (s, e)).2 (runClose cb' sid detail (s.anonymous, f)).2

/-- A session in one environment and the same one, without labels, in another. -/
def Mirrored (R : E → F → Prop) (h : Host E) (h' : Host F) : Prop :=
  h'.1 = h.1.anonymous ∧ R h.2 h'.2

namespace Mirrors

variable {cb : Callbacks E} {cb' : Callbacks F} {R : E → F → Prop} (hR : Mirrors cb cb' R)
include hR

theorem runOutgoing {h : Host E} {h' : Host F} (hh : Mirrored R h h') :
    Mirrored R (runOutgoing cb h).2 (Yamux.runOutgoing cb' h').2 := by
  obtain ⟨s, e⟩ := h
  obtain ⟨t, f⟩ := h'
  obtain ⟨rfl, henv⟩ := hh
  obtain ⟨hleft, hsent⟩ := hR.outgoing s.sendBuf e f henv
  rw [runOutgoing_snd, runOutgoing_snd]
  refine ⟨?_, hsent⟩
  show { s.anonymous with sendBuf := (send cb' s.sendBuf f).1 } = _
  rw [← hleft]
  rfl

theorem sendFrame (hdr : YamuxHeader) (payload : Bytes) {h : Host E} {h' : Host F}
    (hh : Mirrored R h h') :
    Mirrored R (sendFrame cb hdr payload h).2 (Yamux.sendFrame cb' hdr payload h').2 := by
  obtain ⟨s, e⟩ := h
  obtain ⟨t, f⟩ := h'
  obtain ⟨rfl, henv⟩ := hh
  exact hR.runOutgoing ⟨rfl, henv⟩

theorem updateReceiveWindow (sid : StreamId) (delta : ℕ) {h : Host E} {h' : Host F}
    (hh : Mirrored R h h') :
    Mirrored R (updateReceiveWindow cb sid delta h).2
      (Yamux.updateReceiveWindow cb' sid delta h').2 := by
  unfold Yamux.updateReceiveWindow
  split_ifs
  · exact hh
  · exact hR.sendFrame _ _ hh

omit hR in
theorem setStream {h : Host E} {h' : Host F} (hh : Mirrored R h h') (stream : ℕ)
    {f : YamuxStream → YamuxStream} (hf : ∀ st : YamuxStream, f st.anonymous = (f st).anonymous) :
    Mirrored R (h.1.setStream stream f, h.2) (h'.1.setStream stream f, h'.2) := by
  refine ⟨?_, hh.2⟩
  rw [hh.1]
  exact (h.1.anonymous_setStream stream hf).symm

/-! ## The methods -/

theorem openStream {h : Host E} {h' : Host F} (hh : Mirrored R h h') :
    Mirrored R (openStream cb h).2 (Yamux.openStream cb' h').2 := by
  obtain ⟨s, e⟩ := h
  obtain ⟨t, f⟩ := h'
  obtain ⟨rfl, henv⟩ := hh
  rw [openStream_snd, openStream_snd]
  dsimp only
  rw [anonymous_remoteGoAway]
  split_ifs
  · exact ⟨rfl, henv⟩
  · have hcreate := YamuxSession.anonymous_getOrCreateStream
      { s with nextStreamId := s.nextStreamId + 2 } s.nextStreamId true
    exact hR.sendFrame _ _ ⟨congrArg Prod.snd hcreate, henv⟩

theorem writeStreamData (sid : StreamId) (data : Bytes) {h : Host E} {h' : Host F}
    (hh : Mirrored R h h') :
    Mirrored R (writeStreamData cb sid data h).2 (Yamux.writeStreamData cb' sid data h').2 := by
  obtain ⟨s, e⟩ := h
  obtain ⟨t, f⟩ := h'
  obtain ⟨rfl, henv⟩ := hh
  rw [Yamux.writeStreamData, Yamux.writeStreamData, Op.get_bind, Op.get_bind]
  dsimp only
  rw [anonymous_sendWindows]
  cases s.sendWindows sid with
  | none => exact ⟨rfl, henv⟩
  | some window =>
    dsimp only
    split_ifs
    · exact ⟨rfl, henv⟩
    · rw [Op.modify_bind, Op.modify_bind, Op.modify_bind, Op.modify_bind, Op.bind_pure_snd,
        Op.bind_pure_snd]
      exact hR.runOutgoing ⟨rfl, henv⟩

theorem tryWrite (stream : ℕ) (data : Bytes) {h : Host E} {h' : Host F} (hh : Mirrored R h h') :
    Mirrored R (tryWrite cb stream data h).2 (Yamux.tryWrite cb' stream data h').2 := by
  have hstream : h'.1.heap stream = (h.1.heap stream).anonymous := by rw [hh.1]; rfl
  have hclosed : (h'.1.heap stream).writeClosed = (h.1.heap stream).writeClosed := by
    rw [hstream]; rfl
  have hreset : (h'.1.heap stream).reset = (h.1.heap stream).reset := by rw [hstream]; rfl
  have hid : (h'.1.heap stream).id = (h.1.heap stream).id := by rw [hstream]; rfl
  rw [Yamux.tryWrite, Yamux.tryWrite, Op.get_bind, Op.get_bind, hclosed, hreset, hid]
  split_ifs
  · exact hh
  · exact hR.writeStreamData _ _ hh

/-- What `try_read` returns does not depend on the environment. -/
theorem tryRead (stream size : ℕ) {h : Host E} {h' : Host F} (hh : Mirrored R h h') :
    (Yamux.tryRead cb' stream size h').1 = (Yamux.tryRead cb stream size h).1 ∧
      Mirrored R (tryRead cb stream size h).2 (Yamux.tryRead cb' stream size h').2 := by
  have hstream : h'.1.heap stream = (h.1.heap stream).anonymous := by rw [hh.1]; rfl
  have hbuf : (h'.1.heap stream).recvBuf = (h.1.heap stream).recvBuf := by rw [hstream]; rfl
  have hclosed : (h'.1.heap stream).readClosed = (h.1.heap stream).readClosed := by rw [hstream]; rfl
  have hreset : (h'.1.heap stream).reset = (h.1.heap stream).reset := by rw [hstream]; rfl
  have hid : (h'.1.heap stream).id = (h.1.heap stream).id := by rw [hstream]; rfl
  rw [Yamux.tryRead, Yamux.tryRead, Op.get_bind, Op.get_bind]
  dsimp only
  rw [hbuf, hclosed, hreset, hid]
  split_ifs
  · exact ⟨rfl, hh⟩
  · exact ⟨rfl, hh⟩
  · exact ⟨rfl, hR.updateReceiveWindow _ _ (setStream hh stream fun _ => rfl)⟩

theorem closeWrite (stream : ℕ) {h : Host E} {h' : Host F} (hh : Mirrored R h h') :
    Mirrored R (closeWrite cb stream h).2 (Yamux.closeWrite cb' stream h').2 := by
  have hstream : h'.1.heap stream = (h.1.heap stream).anonymous := by rw [hh.1]; rfl
  have hclosed : (h'.1.heap stream).writeClosed = (h.1.heap stream).writeClosed := by
    rw [hstream]; rfl
  have hid : (h'.1.heap stream).id = (h.1.heap stream).id := by rw [hstream]; rfl
  rw [Yamux.closeWrite, Yamux.closeWrite, Op.get_bind, Op.get_bind, hclosed, hid]
  split_ifs
  · exact hh
  · rw [Op.modify_bind, Op.modify_bind]
    have hset : Mirrored R (h.1.setStream stream YamuxStream.closeLocalWrite, h.2)
      (h'.1.setStream stream YamuxStream.closeLocalWrite, h'.2) := setStream hh stream fun _ => rfl
    obtain ⟨hsession, henv⟩ := hset
    unfold closeStreamWrite
    rw [Op.modify_bind, Op.modify_bind, Op.modify_bind, Op.modify_bind]
    refine hR.runOutgoing ?_
    dsimp only at hsession henv ⊢
    have hwritten : Mirrored R
        ((h.1.setStream stream YamuxStream.closeLocalWrite).writeFrame
          (header .data YamuxFlag.fin.value (h.1.heap stream).id 0) [], h.2)
        ((h'.1.setStream stream YamuxStream.closeLocalWrite).writeFrame
          (header .data YamuxFlag.fin.value (h.1.heap stream).id 0) [], h'.2) := by
      rw [hsession]
      exact ⟨rfl, henv⟩
    have hstreams : h'.1.streams = h.1.streams := by rw [hh.1]; rfl
    simp only [YamuxSession.setStream, writeFrame, hstreams] at hwritten ⊢
    cases h.1.streams (h.1.heap stream).id with
    | none => exact hwritten
    | some stream' => exact setStream hwritten stream' fun _ => rfl

theorem reset (stream : ℕ) {h : Host E} {h' : Host F} (hh : Mirrored R h h') :
    Mirrored R (reset cb stream h).2 (Yamux.reset cb' stream h').2 := by
  have hid : (h'.1.heap stream).id = (h.1.heap stream).id := by rw [hh.1]; rfl
  rw [Yamux.reset, Yamux.reset, Op.get_bind, Op.get_bind, hid, Op.modify_bind, Op.modify_bind]
  unfold resetStream
  rw [Op.modify_bind, Op.modify_bind, Op.modify_bind, Op.modify_bind]
  have hset : Mirrored R (h.1.setStream stream YamuxStream.receiveRst, h.2)
    (h'.1.setStream stream YamuxStream.receiveRst, h'.2) := setStream hh stream fun _ => rfl
  obtain ⟨hsession, henv⟩ := hset
  refine hR.runOutgoing ⟨?_, henv⟩
  dsimp only at hsession ⊢
  rw [hsession]
  rfl

/-! ## Received frames -/

theorem acceptStream (stream : ℕ) (sid : StreamId) {h : Host E} {h' : Host F}
    (hh : Mirrored R h h') :
    Mirrored R (acceptStream cb stream sid h) (Yamux.acceptStream cb' stream sid h') := by
  have haccept : ∀ {G : Type} (c : Callbacks G) (g : Host G),
      Yamux.acceptStream c stream sid g =
        (acknowledgeStream c sid (g.1, announce c stream sid g.2)).2 := fun c g => by
    unfold Yamux.acceptStream announce
    cases c.accept <;> rfl
  rw [haccept, haccept]
  exact hR.sendFrame _ _ ⟨hh.1, hR.accept _ _ _ _ hh.2⟩

theorem runClose (sid : StreamId) (detail : String) {h : Host E} {h' : Host F}
    (hh : Mirrored R h h') :
    Mirrored R (runClose cb sid detail h) (Yamux.runClose cb' sid detail h') := by
  have hsession : ∀ {G : Type} (c : Callbacks G) (g : Host G),
      (Yamux.runClose c sid detail g).1 = g.1 := fun c g => by
    unfold Yamux.runClose
    cases c.close <;> rfl
  obtain ⟨s, e⟩ := h
  obtain ⟨t, f⟩ := h'
  obtain ⟨rfl, henv⟩ := hh
  refine ⟨?_, hR.close sid detail s e f henv⟩
  rw [hsession, hsession]

theorem applyFrame (hdr : YamuxHeader) (payload : Bytes) (stream : ℕ) {h : Host E} {h' : Host F}
    (hh : Mirrored R h h') :
    Mirrored R (applyFrame cb hdr payload stream h) (Yamux.applyFrame cb' hdr payload stream h') := by
  unfold Yamux.applyFrame
  extract_lets h₁ h₂ fin h₃ rst closed h₁' h₂' fin' h₃' rst' closed'
  have hh₁ : Mirrored R h₁ h₁' := by
    unfold h₁ h₁'
    split_ifs
    · refine ⟨?_, hh.2⟩
      rw [hh.1]
      exact (h.1.anonymous_creditWindow _ _).symm
    · exact hh
  have hh₂ : Mirrored R h₂ h₂' := by
    unfold h₂ h₂'
    split_ifs
    · exact setStream hh₁ stream fun _ => rfl
    · exact hh₁
  have hh₃ : Mirrored R h₃ h₃' := by
    have hfin : Mirrored R fin fin' := setStream hh₂ stream fun _ => rfl
    have hopen : (fin'.1.heap stream).isOpen = (fin.1.heap stream).isOpen := by rw [hfin.1]; rfl
    unfold h₃ h₃'
    rw [hopen]
    split_ifs
    · exact hfin
    · exact hR.runClose _ _ hfin
    · exact hh₂
  split_ifs
  · have hrst : Mirrored R rst rst' := setStream hh₃ stream fun _ => rfl
    have hclosed : Mirrored R closed closed' := hR.runClose _ _ hrst
    refine ⟨?_, hclosed.2⟩
    dsimp only
    rw [hclosed.1]
    rfl
  · exact hh₃

theorem handleFrame (hdr : YamuxHeader) (payload : Bytes) {h : Host E} {h' : Host F}
    (hh : Mirrored R h h') :
    Mirrored R (handleFrame cb hdr payload h) (Yamux.handleFrame cb' hdr payload h') := by
  have hstreams : h'.1.streams = h.1.streams := by rw [hh.1]; rfl
  have hremote : h'.1.isRemoteStreamId hdr.streamId = h.1.isRemoteStreamId hdr.streamId := by
    rw [hh.1]; rfl
  unfold Yamux.handleFrame
  dsimp only
  rw [hstreams, hremote]
  split_ifs with _ _ _ _ _ _ hnew
  · exact hh
  · exact hh
  · exact hR.sendFrame _ _ hh
  · refine ⟨?_, hh.2⟩
    dsimp only
    rw [hh.1]
    rfl
  · exact hh
  · exact hR.sendFrame _ _ hh
  all_goals
    have hget := h.1.anonymous_getOrCreateStream hdr.streamId (hasFlag hdr.flags .syn)
    rw [← hh.1] at hget
    rw [hget]
    rcases h.1.getOrCreateStream hdr.streamId (hasFlag hdr.flags .syn) with ⟨_ | stream, s⟩
    · exact ⟨rfl, hh.2⟩
  · exact hR.applyFrame _ _ _ (hR.acceptStream _ _ ⟨rfl, hh.2⟩)
  · exact hR.applyFrame _ _ _ ⟨rfl, hh.2⟩

theorem processFramesLoop (fuel : ℕ) : ∀ {h : Host E} {h' : Host F}, Mirrored R h h' →
    Mirrored R (processFramesLoop cb fuel h) (Yamux.processFramesLoop cb' fuel h') := by
  induction fuel with
  | zero => exact fun hh => hh
  | succ fuel ih =>
    intro h h' hh
    have hbuf : h'.1.recvBuf = h.1.recvBuf := by rw [hh.1]; rfl
    rw [Yamux.processFramesLoop, Yamux.processFramesLoop, hbuf]
    cases tryParseFrame h.1.recvBuf with
    | none => exact hh
    | some frame =>
      obtain ⟨hdr, payload, rest⟩ := frame
      refine ih (hR.handleFrame hdr payload ⟨?_, hh.2⟩)
      rw [hh.1]
      rfl

theorem receive (data : Bytes) {h : Host E} {h' : Host F} (hh : Mirrored R h h') :
    Mirrored R (receive cb data h).2 (Yamux.receive cb' data h').2 := by
  obtain ⟨s, e⟩ := h
  obtain ⟨t, f⟩ := h'
  obtain ⟨rfl, henv⟩ := hh
  exact hR.processFramesLoop _ ⟨rfl, henv⟩

end Mirrors

/-! ## What a write puts into its frame -/

/-- `send_windows_` at `sid`, or zero. -/
def YamuxSession.windowOf (s : YamuxSession) (sid : StreamId) : ℕ :=
  match s.sendWindows sid with
  | some window => window.toNat
  | none => 0

theorem runOutgoing_windowOf (cb : Callbacks E) (h : Host E) (sid : StreamId) :
    (runOutgoing cb h).2.1.windowOf sid = h.1.windowOf sid := by
  rw [runOutgoing_snd]
  rfl

/-- A write is refused, or its bytes go into a frame and off the window of the stream before
    the outgoing callback is called. -/
theorem tryWrite_cases (cb : Callbacks E) (stream : ℕ) (data : Bytes) (h : Host E) :
    (∃ error, tryWrite cb stream data h = (.error error, h)) ∨
      ∃ (taken : ℕ) (g : Host E),
        g.1.windowOf (h.1.heap stream).id + taken = h.1.windowOf (h.1.heap stream).id ∧
        tryWrite cb stream data h = (do runOutgoing cb; pure taken : Op (Host E) ℕ) g := by
  rw [tryWrite, Op.get_bind]
  split_ifs with hclosed
  · exact .inl ⟨_, rfl⟩
  · rw [writeStreamData, Op.get_bind]
    cases hw : h.1.sendWindows (h.1.heap stream).id with
    | none => exact .inl ⟨_, rfl⟩
    | some window =>
      dsimp only
      split_ifs with hzero
      · exact .inl ⟨_, rfl⟩
      · refine .inr ⟨min data.length window.toNat, _, ?_, by rw [Op.modify_bind, Op.modify_bind]⟩
        have hbound := window.toNat_lt
        have hsmall : (UInt32.ofNat (min data.length window.toNat)).toNat =
            min data.length window.toNat := by
          rw [UInt32.toNat_ofNat']
          exact Nat.mod_eq_of_lt (by omega)
        have hleft : (window - UInt32.ofNat (min data.length window.toNat)).toNat =
            window.toNat - min data.length window.toNat := by
          rw [UInt32.toNat_sub_of_le _ _ (UInt32.le_iff_toNat_le.mpr (by rw [hsmall]; omega)), hsmall]
        have hbefore : h.1.windowOf (h.1.heap stream).id = window.toNat := by
          unfold YamuxSession.windowOf
          rw [hw]
        rw [hbefore]
        simp only [YamuxSession.windowOf, debitWindow, writeFrame, Function.update_self, hleft]
        omega

/-- What a write says it accepted is what the window lost. -/
theorem tryWrite_ok_taken (cb : Callbacks E) {stream n : ℕ} {data : Bytes} {h h' : Host E}
    (hrun : tryWrite cb stream data h = (.ok n, h')) :
    h.1.windowOf (h.1.heap stream).id - h'.1.windowOf (h.1.heap stream).id = n := by
  rcases tryWrite_cases cb stream data h with ⟨error, hrefused⟩ | ⟨taken, g, hwindow, hframed⟩
  · rw [hrun] at hrefused
    cases hrefused
  · rw [hrun, Op.bind_apply] at hframed
    have hsame := runOutgoing_windowOf cb g (h.1.heap stream).id
    rcases hout : runOutgoing cb g with ⟨error | _, g'⟩ <;> rw [hout] at hframed hsame
    · cases hframed
    · obtain ⟨hn, rfl⟩ := Prod.mk.inj hframed
      have htaken : n = taken := Except.ok.inj hn
      have hleft : h'.1.windowOf (h.1.heap stream).id = g.1.windowOf (h.1.heap stream).id := hsame
      omega

/-- The bytes of `data` that `try_write` says it accepted. -/
def acceptedBytes (data : Bytes) : Result ℕ → Bytes
  | .ok n => data.take n
  | .error _ => []

/-- With an outgoing callback that never fails the bytes in the frame are those that the
    window lost. -/
theorem tryWrite_taken (policy : ℕ → Bool) (stream : ℕ) (data : Bytes) (h : Host Link) :
    let sid := (h.1.heap stream).id
    let run := tryWrite (callbacks policy) stream data h
    acceptedBytes data run.1 = data.take (h.1.windowOf sid - run.2.1.windowOf sid) := by
  intro sid run
  rcases hrun : run with ⟨error | n, h'⟩
  · rcases tryWrite_cases (callbacks policy) stream data h with
      ⟨error', hrefused⟩ | ⟨taken, g, -, hframed⟩
    · obtain rfl : h = h' := congrArg Prod.snd (hrefused.symm.trans hrun)
      show [] = data.take (h.1.windowOf sid - h.1.windowOf sid)
      rw [Nat.sub_self, List.take_zero]
    · have hok : (runOutgoing (callbacks policy) g).1 = .ok () := by
        unfold runOutgoing callbacks
        dsimp only
        split_ifs <;> rfl
      have hframed' := hrun.symm.trans hframed
      rw [Op.bind_apply] at hframed'
      rcases hout : runOutgoing (callbacks policy) g with ⟨error | _, g'⟩ <;>
        rw [hout] at hok hframed'
      · cases hok
      · cases hframed'
  · show data.take n = data.take (h.1.windowOf sid - h'.1.windowOf sid)
    rw [tryWrite_ok_taken (callbacks policy) hrun]

end PeerCore.Yamux
