import PeerCore.Yamux.Direction

/-!
# What one action does to one end

`End.settle` forgets how far the outgoing callback has moved the pending bytes;
`settle_openStream`, `settle_tryWrite`, … say what each action does to a settled
end, for every policy of the callback. `EndInv` is the invariant of one end: its
tables name exactly the stream objects that were not reset, and its ids are the
consecutive ones of its role.
-/

namespace PeerCore.Yamux

/-! ## Ids -/

/-- The id of the `k`-th stream a side opens. -/
def streamIdAt (isClient : Bool) (k : ℕ) : StreamId :=
  UInt32.ofNat ((if isClient then 1 else 2) + 2 * k)

theorem streamIdAt_succ (isClient : Bool) (k : ℕ) :
    streamIdAt isClient k + 2 = streamIdAt isClient (k + 1) := by
  apply UInt32.toNat_inj.mp
  simp only [streamIdAt, UInt32.toNat_add, UInt32.toNat_ofNat', UInt32.reduceToNat]
  omega

theorem streamIdAt_toNat (isClient : Bool) {k : ℕ} (h : k + 1 < 2 ^ 31) :
    (streamIdAt isClient k).toNat = (if isClient then 1 else 2) + 2 * k := by
  rw [streamIdAt, UInt32.toNat_ofNat']
  split_ifs <;> omega

theorem streamIdAt_ne_zero (isClient : Bool) {k : ℕ} (h : k + 1 < 2 ^ 31) :
    streamIdAt isClient k ≠ 0 := by
  intro h0
  have := streamIdAt_toNat isClient h
  rw [h0] at this
  simp at this
  split_ifs at this <;> omega

theorem streamIdAt_inj {isClient : Bool} {k k' : ℕ} (h : k + 1 < 2 ^ 31) (h' : k' + 1 < 2 ^ 31)
    (heq : streamIdAt isClient k = streamIdAt isClient k') : k = k' := by
  have hk := streamIdAt_toNat isClient h
  have hk' := streamIdAt_toNat isClient h'
  rw [heq] at hk
  omega

theorem streamIdAt_ne (isClient : Bool) {k k' : ℕ} (h : k + 1 < 2 ^ 31) (h' : k' + 1 < 2 ^ 31) :
    streamIdAt isClient k ≠ streamIdAt (!isClient) k' := by
  intro heq
  have hk := streamIdAt_toNat isClient h
  have hk' := streamIdAt_toNat (!isClient) h'
  rw [heq] at hk
  cases isClient <;> simp at hk hk' <;> omega

theorem isRemote_streamIdAt {s : YamuxSession} {isClient : Bool} (hs : s.isClient = !isClient)
    {k : ℕ} (h : k + 1 < 2 ^ 31) : s.isRemoteStreamId (streamIdAt isClient k) = true := by
  have hk := streamIdAt_toNat isClient h
  unfold YamuxSession.isRemoteStreamId
  rw [if_neg (streamIdAt_ne_zero isClient h), hs]
  cases isClient
  all_goals
    simp only [Bool.not_false, Bool.not_true, if_true, Bool.false_eq_true, if_false,
      decide_eq_true_eq] at hk ⊢
    apply UInt32.toNat_inj.mp
    rw [UInt32.toNat_mod, hk]
    simp
    try omega

/-! ## Settled ends -/

namespace End

/-- The bytes this end has written and the other has not received. -/
def pending (e : End) : Bytes := e.link.wire ++ e.session.sendBuf

/-- The end with all pending bytes still in the send buffer. -/
def settle (e : End) : End :=
  { e with
    session := { e.session with sendBuf := e.pending }
    link := { accepted := e.link.accepted } }

/-- Append a message to the send buffer. -/
def emit (e : End) (m : Message) : End :=
  { e with session := e.session.writeFrame m.header m.payload }

/-- The stream ids this end has opened or accepted. -/
def known (e : End) (sid : StreamId) : Prop := sid ∈ e.opened ∨ sid ∈ e.link.accepted

/-- An end as the sender on `sid`. -/
def sender (e : End) (sid : StreamId) : SenderView :=
  { dead := e.known sid ∧ e.session.streams sid = none
    window := match e.session.sendWindows sid with
      | some window => window.toNat
      | none => windowSize
    writeClosed := match e.session.streams sid with
      | some stream => (e.session.heap stream).writeClosed
      | none => false
    wrote := e.wrote sid
    closedWrite := e.closedWrite sid
    didReset := e.didReset sid }

/-- An end as the receiver on `sid`. -/
def receiver (e : End) (sid : StreamId) : ReceiverView :=
  { dead := e.known sid ∧ e.session.streams sid = none
    buf := match e.session.streams sid with
      | some stream => (e.session.heap stream).recvBuf
      | none => []
    readClosed := match e.session.streams sid with
      | some stream => (e.session.heap stream).readClosed
      | none => false
    read := e.read sid
    didReset := e.didReset sid }

@[simp] theorem settle_sender (e : End) (sid : StreamId) : e.settle.sender sid = e.sender sid := rfl

@[simp] theorem settle_receiver (e : End) (sid : StreamId) :
    e.settle.receiver sid = e.receiver sid := rfl

@[simp] theorem settle_pending (e : End) : e.settle.pending = e.pending := by
  simp [settle, pending]

@[simp] theorem emit_sender (e : End) (m : Message) (sid : StreamId) :
    (e.emit m).sender sid = e.sender sid := rfl

@[simp] theorem emit_receiver (e : End) (m : Message) (sid : StreamId) :
    (e.emit m).receiver sid = e.receiver sid := rfl

@[simp] theorem emit_pending (e : End) (m : Message) :
    (e.emit m).pending = e.pending ++ m.encode := by
  simp [emit, pending, YamuxSession.writeFrame, Message.encode]

end End

/-! ## The outgoing callback -/

/-- What the callback cannot change: everything but the place of the pending
    bytes. -/
def settled (h : Host Link) : Host Link :=
  ({ h.1 with sendBuf := h.2.wire ++ h.1.sendBuf }, { accepted := h.2.accepted })

theorem settled_withHost (e : End) (h : Host Link) :
    (e.withHost h).settle = e.withHost (settled h) := rfl

section Callback

variable (policy : ℕ → Bool) (h : Host Link)

theorem runOutgoing_settled :
    ∃ h', runOutgoing (callbacks policy) h = (.ok (), h') ∧ settled h' = settled h := by
  cases hp : policy h.2.ticks with
  | true =>
    exact ⟨({ h.1 with sendBuf := [] },
      { h.2 with wire := h.2.wire ++ h.1.sendBuf, ticks := h.2.ticks + 1 }),
      by simp [runOutgoing, callbacks, hp], by simp [settled]⟩
  | false =>
    exact ⟨(h.1, { h.2 with ticks := h.2.ticks + 1 }), by simp [runOutgoing, callbacks, hp], rfl⟩

theorem sendFrame_settled (hdr : YamuxHeader) (payload : Bytes) :
    ∃ h', sendFrame (callbacks policy) hdr payload h = (.ok (), h') ∧
      settled h' = ((settled h).1.writeFrame hdr payload, (settled h).2) := by
  obtain ⟨h', hrun, hset⟩ := runOutgoing_settled policy (h.1.writeFrame hdr payload, h.2)
  refine ⟨h', ?_, ?_⟩
  · rw [sendFrame, Op.bind_of_ok (Op.modify_apply _ _), hrun]
  · rw [hset]; simp [settled, YamuxSession.writeFrame]

end Callback

/-! ## The invariant of one end -/

/-- The tables name exactly the objects that were not reset. -/
structure Tables (e : End) : Prop where
  entry : ∀ sid stream, e.session.streams sid = some stream →
    stream < e.session.allocated ∧ e.idOf stream = sid ∧
      (e.session.heap stream).reset = false ∧ ∃ window, e.session.sendWindows sid = some window
  noEntry : ∀ sid, e.session.streams sid = none → e.session.sendWindows sid = none
  object : ∀ stream < e.session.allocated, e.known (e.idOf stream) ∧
    (e.session.streams (e.idOf stream) = some stream ∨
      e.session.streams (e.idOf stream) = none ∧ (e.session.heap stream).reset = true ∧
        (e.session.heap stream).recvBuf = [] ∧ (e.session.heap stream).writeClosed = true)

/-- The tables and the ids of one end. -/
structure EndInv (side : Bool) (e : End) : Prop extends Tables e where
  isClient : e.session.isClient = side
  goAway : e.session.remoteGoAway = false
  opened : e.opened = (List.range e.opened.length).map (streamIdAt side)
  next : e.session.nextStreamId = streamIdAt side e.opened.length
  few : e.opened.length < 2 ^ 31

namespace Tables

variable {e : End}

/-- A table entry belongs to a known id. -/
theorem known_of_entry (h : Tables e) {sid : StreamId} {stream : ℕ}
    (hs : e.session.streams sid = some stream) : e.known sid := by
  obtain ⟨hlt, hid, -⟩ := h.entry sid stream hs
  rw [← hid]
  exact (h.object stream hlt).1

theorem entry_none (h : Tables e) {sid : StreamId} (hs : ¬ e.known sid) :
    e.session.streams sid = none := by
  cases hsid : e.session.streams sid with
  | none => rfl
  | some stream => exact absurd (h.known_of_entry hsid) hs

/-- Two ids have different objects. -/
theorem entry_ne (h : Tables e) {sid sid' : StreamId} {stream stream' : ℕ}
    (hs : e.session.streams sid = some stream) (hs' : e.session.streams sid' = some stream')
    (hne : sid' ≠ sid) : stream' ≠ stream := by
  rintro rfl
  rw [← (h.entry _ _ hs).2.1, ← (h.entry _ _ hs').2.1] at hne
  exact hne rfl

end Tables

namespace EndInv

variable {side : Bool} {e : End}

theorem settle_iff : EndInv side e.settle ↔ EndInv side e := by
  constructor
  · intro h
    exact ⟨⟨h.entry, h.noEntry, h.object⟩, h.isClient, h.goAway, h.opened, h.next, h.few⟩
  · intro h
    exact ⟨⟨h.entry, h.noEntry, h.object⟩, h.isClient, h.goAway, h.opened, h.next, h.few⟩

theorem mem_opened (h : EndInv side e) {sid : StreamId} (hs : sid ∈ e.opened) :
    ∃ k, k < e.opened.length ∧ sid = streamIdAt side k := by
  rw [h.opened] at hs
  obtain ⟨k, hk, rfl⟩ := List.mem_map.mp hs
  exact ⟨k, List.mem_range.mp hk, rfl⟩

theorem nodup_opened (h : EndInv side e) : e.opened.Nodup := by
  rw [h.opened]
  refine List.Nodup.map_on (fun k hk k' hk' heq => ?_) List.nodup_range
  have := h.few
  rw [List.mem_range] at hk hk'
  exact streamIdAt_inj (by omega) (by omega) heq

theorem next_not_opened (h : EndInv side e) (hfew : e.opened.length + 1 < 2 ^ 31) :
    e.session.nextStreamId ∉ e.opened := by
  intro hmem
  obtain ⟨k, hk, heq⟩ := h.mem_opened hmem
  rw [h.next] at heq
  have := streamIdAt_inj (by omega) (by omega) heq
  omega

end EndInv

/-! ## The actions of the user -/

section Actions

variable {side : Bool} {policy : ℕ → Bool} {e : End}

/-- The end after a successful `open_stream`. -/
def End.opens (e : End) (sid : StreamId) : End :=
  { e with
    session := { e.session with nextStreamId := sid + 2 }.createStream sid
    opened := e.opened ++ [sid] }

theorem settle_openStream (h : EndInv side e)
    (hnew : e.session.streams e.session.nextStreamId = none) :
    (e.openStream policy).settle =
      (e.settle.opens e.session.nextStreamId).emit (.syn e.session.nextStreamId) := by
  obtain ⟨h', hrun, hset⟩ := sendFrame_settled policy
    ({ e.session with nextStreamId := e.session.nextStreamId + 2 }.createStream
      e.session.nextStreamId, e.link)
    (header .data YamuxFlag.syn.value e.session.nextStreamId 0) []
  have hgo := h.goAway
  have hopen : Yamux.openStream (callbacks policy) e.host = (.ok e.session.allocated, h') := by
    simp only [Yamux.openStream, End.host, Op.bind_apply, Op.get_apply,
      YamuxSession.getOrCreateStream, hnew, if_true]
    rw [if_neg (by simp [hgo])]
    simp only [Op.bind_apply, Op.modify_apply]
    rw [hrun]
    rfl
  have hid : (h'.1.heap e.session.allocated).id = e.session.nextStreamId := by
    have := congrArg (fun x => (x.1.heap e.session.allocated).id) hset
    simpa [settled, YamuxSession.writeFrame, YamuxSession.createStream] using this
  have hwith := settled_withHost e h'
  rw [hset] at hwith
  rw [End.openStream, hopen]
  simp only [hid]
  calc _ = { (e.withHost h').settle with opened := e.opened ++ [e.session.nextStreamId] } := rfl
    _ = _ := by rw [hwith]; rfl

/-- The end after `try_write` has accepted `payload`. -/
def End.writes (e : End) (sid : StreamId) (window : UInt32) (payload : Bytes) : End :=
  { e with
    session := e.session.debitWindow sid window (UInt32.ofNat payload.length)
    wrote := record e.wrote sid payload }

theorem settle_tryWrite (h : EndInv side e) {stream : ℕ} (hs : stream < e.session.allocated)
    (data : Bytes) :
    (e.tryWrite policy stream data).settle = e.settle ∨
      ∃ window payload, e.session.streams (e.idOf stream) = some stream ∧
        (e.session.heap stream).writeClosed = false ∧
        e.session.sendWindows (e.idOf stream) = some window ∧
        payload ≠ [] ∧ payload.length ≤ window.toNat ∧
        (e.tryWrite policy stream data).settle =
          (e.settle.writes (e.idOf stream) window payload).emit (.data (e.idOf stream) payload) := by
  have hfail : ∀ msg, Yamux.tryWrite (callbacks policy) stream data e.host = (.error msg, e.host) →
      (e.tryWrite policy stream data).settle = e.settle := fun msg hrun => by
    rw [End.tryWrite, hrun]
    rfl
  by_cases hclosed : (e.session.heap stream).writeClosed = true ∨ (e.session.heap stream).reset = true
  · exact .inl (hfail "stream is closed for writing" (by
      simp only [Yamux.tryWrite, End.host, Op.bind_apply, Op.get_apply]
      rw [if_pos hclosed]
      rfl))
  push Not at hclosed
  obtain ⟨hopen, hreset⟩ := hclosed
  have hlive : e.session.streams (e.idOf stream) = some stream := by
    obtain ⟨-, hlive | ⟨-, -, -, hdead⟩⟩ := h.object stream hs
    · exact hlive
    · exact absurd hdead hopen
  obtain ⟨-, -, -, window, hwindow⟩ := h.entry _ _ hlive
  have hstart : Yamux.tryWrite (callbacks policy) stream data e.host =
      writeStreamData (callbacks policy) (e.idOf stream) data e.host := by
    simp only [Yamux.tryWrite, End.host, Op.bind_apply, Op.get_apply]
    rw [if_neg (by tauto)]
    rfl
  by_cases hzero : min data.length window.toNat = 0
  · refine .inl (hfail "EAGAIN" ?_)
    rw [hstart]
    simp only [writeStreamData, End.host, Op.bind_apply, Op.get_apply, hwindow]
    rw [if_pos hzero]
    rfl
  right
  obtain ⟨n, hn⟩ : ∃ n, n = min data.length window.toNat := ⟨_, rfl⟩
  have hlen : (data.take n).length = n := by simp; omega
  refine ⟨window, data.take n, hlive, by simpa using hopen, hwindow, ?_, by omega, ?_⟩
  · intro hnil
    rw [hnil] at hlen
    simp at hlen
    omega
  obtain ⟨h', hrun, hset⟩ := runOutgoing_settled policy
    ((e.session.writeFrame (header .data 0 (e.idOf stream) (UInt32.ofNat n))
      (data.take n)).debitWindow (e.idOf stream) window (UInt32.ofNat n), e.link)
  have hwrite : Yamux.tryWrite (callbacks policy) stream data e.host = (.ok n, h') := by
    rw [hstart]
    simp only [writeStreamData, End.host, Op.bind_apply, Op.get_apply, hwindow]
    rw [if_neg hzero, ← hn]
    simp only [Op.bind_apply, Op.modify_apply]
    rw [hrun]
    rfl
  have hwith := settled_withHost e h'
  rw [hset] at hwith
  rw [End.tryWrite, hwrite]
  calc _ = { (e.withHost h').settle with
        wrote := record e.wrote (e.idOf stream) (data.take n) } := rfl
    _ = _ := by
      rw [hwith]
      simp [End.settle, End.emit, End.writes, End.withHost, End.pending, settled,
        YamuxSession.writeFrame, YamuxSession.debitWindow, Message.header, Message.payload, hlen]

/-- The end after `try_read` has returned the first `size` bytes of a stream. -/
def End.reads (e : End) (stream size : ℕ) : End :=
  { e with
    session := e.session.setStream stream fun st => { st with recvBuf := st.recvBuf.drop size }
    read := record e.read (e.idOf stream) ((e.session.heap stream).recvBuf.take size) }

@[simp] theorem record_nil (f : StreamId → Bytes) (sid : StreamId) : record f sid [] = f := by
  simp [record]

/-- What `try_read` returns. -/
theorem tryRead_result (stream size : ℕ) :
    (Yamux.tryRead (callbacks policy) stream size e.host).1 =
      if (e.session.heap stream).recvBuf = [] then
        if (e.session.heap stream).readClosed = true ∨ (e.session.heap stream).reset = true
          then .ok [] else .error "EAGAIN"
      else .ok ((e.session.heap stream).recvBuf.take size) := by
  simp only [Yamux.tryRead, End.host, Op.bind_apply, Op.get_apply]
  split_ifs <;> rfl

theorem settle_tryRead (h : EndInv side e) {stream : ℕ} (hs : stream < e.session.allocated)
    (size : ℕ) :
    (e.tryRead policy stream size).settle = e.settle ∨
      e.session.streams (e.idOf stream) = some stream ∧
        (e.session.heap stream).recvBuf.take size ≠ [] ∧
        (e.tryRead policy stream size).settle =
          (e.settle.reads stream size).emit (.window (e.idOf stream)
            (UInt32.ofNat ((e.session.heap stream).recvBuf.take size).length)) := by
  by_cases hbuf : (e.session.heap stream).recvBuf = []
  · left
    have hrun : ∃ r, Yamux.tryRead (callbacks policy) stream size e.host = (r, e.host) ∧
        (r = .ok [] ∨ r = .error "EAGAIN") := by
      simp only [Yamux.tryRead, End.host, Op.bind_apply, Op.get_apply]
      rw [if_pos hbuf]
      split_ifs
      · exact ⟨_, rfl, .inl rfl⟩
      · exact ⟨_, rfl, .inr rfl⟩
    obtain ⟨r, hrun, rfl | rfl⟩ := hrun
    · rw [End.tryRead, hrun]
      simp only [record_nil]
      rfl
    · rw [End.tryRead, hrun]
      rfl
  have hlive : e.session.streams (e.idOf stream) = some stream := by
    obtain ⟨-, hlive | ⟨-, -, hdead, -⟩⟩ := h.object stream hs
    · exact hlive
    · exact absurd hdead hbuf
  have hstart : Yamux.tryRead (callbacks policy) stream size e.host =
      (.ok ((e.session.heap stream).recvBuf.take size),
        (updateReceiveWindow (callbacks policy) (e.idOf stream)
          ((e.session.heap stream).recvBuf.take size).length
          (e.session.setStream stream fun st => { st with recvBuf := st.recvBuf.drop size },
            e.link)).2) := by
    simp only [Yamux.tryRead, End.host, Op.bind_apply, Op.get_apply]
    rw [if_neg hbuf]
    rfl
  by_cases htake : (e.session.heap stream).recvBuf.take size = []
  · left
    have hsize : size = 0 := by simpa [List.take_eq_nil_iff, hbuf] using htake
    rw [End.tryRead, hstart, htake]
    subst hsize
    simp [updateReceiveWindow, YamuxSession.setStream, End.withHost]
  · refine .inr ⟨hlive, htake, ?_⟩
    obtain ⟨h', hrun, hset⟩ := sendFrame_settled policy
      (e.session.setStream stream fun st => { st with recvBuf := st.recvBuf.drop size }, e.link)
      (header .windowUpdate 0 (e.idOf stream)
        (UInt32.ofNat ((e.session.heap stream).recvBuf.take size).length)) []
    have hupdate : updateReceiveWindow (callbacks policy) (e.idOf stream)
        ((e.session.heap stream).recvBuf.take size).length
        (e.session.setStream stream fun st => { st with recvBuf := st.recvBuf.drop size }, e.link) =
        (.ok (), h') := by
      rw [updateReceiveWindow, if_neg (by simpa using htake), hrun]
    have hwith := settled_withHost e h'
    rw [hset] at hwith
    rw [End.tryRead, hstart, hupdate]
    calc _ = { (e.withHost h').settle with
          read := record e.read (e.idOf stream) ((e.session.heap stream).recvBuf.take size) } := rfl
      _ = _ := by rw [hwith]; rfl

/-- The end after `close_write` on a stream open for writing. -/
def End.closes (e : End) (stream : ℕ) : End :=
  { e with
    session := e.session.setStream stream YamuxStream.closeLocalWrite
    closedWrite := Function.update e.closedWrite (e.idOf stream) true }

theorem settle_closeWrite (h : EndInv side e) {stream : ℕ} (hs : stream < e.session.allocated) :
    (e.session.heap stream).writeClosed = true ∧
        (e.closeWrite policy stream).settle =
          { e.settle with closedWrite := Function.update e.closedWrite (e.idOf stream) true } ∨
      e.session.streams (e.idOf stream) = some stream ∧
        (e.closeWrite policy stream).settle =
          (e.settle.closes stream).emit (.fin (e.idOf stream)) := by
  by_cases hclosed : (e.session.heap stream).writeClosed = true
  · refine .inl ⟨hclosed, ?_⟩
    have hrun : Yamux.closeWrite (callbacks policy) stream e.host = (.ok (), e.host) := by
      simp only [Yamux.closeWrite, End.host, Op.bind_apply, Op.get_apply]
      rw [if_pos hclosed]
      rfl
    rw [End.closeWrite, hrun]
    rfl
  have hlive : e.session.streams (e.idOf stream) = some stream := by
    obtain ⟨-, hlive | ⟨-, -, -, hdead⟩⟩ := h.object stream hs
    · exact hlive
    · exact absurd hdead hclosed
  refine .inr ⟨hlive, ?_⟩
  obtain ⟨h', hrun, hset⟩ := runOutgoing_settled policy
    (((e.session.setStream stream YamuxStream.closeLocalWrite).writeFrame
      (header .data YamuxFlag.fin.value (e.idOf stream) 0) []).setStream stream
        YamuxStream.closeLocalWrite, e.link)
  have hclose : Yamux.closeWrite (callbacks policy) stream e.host = (.ok (), h') := by
    simp only [Yamux.closeWrite, End.host, Op.bind_apply, Op.get_apply]
    rw [if_neg hclosed]
    simp only [closeStreamWrite, Op.bind_apply, Op.modify_apply]
    rw [← hrun]
    have hstreams : ((e.session.setStream stream YamuxStream.closeLocalWrite).writeFrame
        (header .data YamuxFlag.fin.value (e.session.heap stream).id 0) []).streams
          (e.session.heap stream).id = some stream := hlive
    rw [hstreams]
    rfl
  have hwith := settled_withHost e h'
  rw [hset] at hwith
  rw [End.closeWrite, hclose]
  calc _ = { (e.withHost h').settle with
        closedWrite := Function.update e.closedWrite (e.idOf stream) true } := rfl
    _ = _ := by
      rw [hwith]
      simp [End.settle, End.emit, End.closes, End.withHost, End.pending, settled,
        YamuxSession.writeFrame, YamuxSession.setStream, YamuxStream.closeLocalWrite,
        Message.header, Message.payload, End.idOf]

/-- The end after `reset`. -/
def End.resets (e : End) (stream : ℕ) : End :=
  { e with
    session := (e.session.setStream stream YamuxStream.receiveRst).eraseStream (e.idOf stream)
    didReset := Function.update e.didReset (e.idOf stream) true }

theorem settle_reset (stream : ℕ) :
    (e.reset policy stream).settle = (e.settle.resets stream).emit (.rst (e.idOf stream)) := by
  obtain ⟨h', hrun, hset⟩ := runOutgoing_settled policy
    (((e.session.setStream stream YamuxStream.receiveRst).writeFrame
      (header .data YamuxFlag.rst.value (e.idOf stream) 0) []).eraseStream (e.idOf stream), e.link)
  have hreset : Yamux.reset (callbacks policy) stream e.host = (.ok (), h') := by
    simp only [Yamux.reset, resetStream, End.host, Op.bind_apply, Op.get_apply, Op.modify_apply]
    rw [← hrun]
    rfl
  have hwith := settled_withHost e h'
  rw [hset] at hwith
  rw [End.reset, hreset]
  calc _ = { (e.withHost h').settle with
        didReset := Function.update e.didReset (e.idOf stream) true } := rfl
    _ = _ := by
      rw [hwith]
      simp [End.settle, End.emit, End.resets, End.withHost, End.pending, settled,
        YamuxSession.writeFrame, YamuxSession.setStream, YamuxSession.eraseStream,
        Message.header, Message.payload, End.idOf]

theorem settle_drain : e.drain.settle = e.settle := by
  simp [End.drain, drainOutgoing, End.settle, End.pending]

end Actions

end PeerCore.Yamux
