import PeerCore.Yamux.Invariant

/-!
# Runs of two honest sessions

* `joined_of_reachable`: every state of a run satisfies the invariant.
* `streams_in_order`: streams are accepted in opening order, no GoAway is sent,
  what is read is a prefix of what was written, and the end of a stream is seen
  only after its last byte.
* `window_conserved`: per stream and direction, the window, the bytes on their
  way, the unread bytes and the credit on its way back add up to the initial
  window.
-/

namespace PeerCore.Yamux

/-! ## Frames of undelivered messages -/

theorem framesLoop_encodeAll {ms : List Message} (h : ∀ m ∈ ms, m.WellFormed) :
    ∀ fuel, (Message.encodeAll ms).length ≤ fuel →
      framesLoop fuel (Message.encodeAll ms) = ms.map fun m => (m.header, m.payload) := by
  induction ms with
  | nil => intro fuel _; cases fuel <;> rfl
  | cons m ms ih =>
    intro fuel hfuel
    have hparse := Message.tryParseFrame_encode (h m (by simp)) (Message.encodeAll ms)
    have hlt := tryParseFrame_length hparse
    rw [Message.encodeAll_cons] at hfuel
    cases fuel with
    | zero => omega
    | succ fuel =>
      rw [Message.encodeAll_cons, framesLoop, hparse]
      simp only [List.map_cons]
      rw [ih (fun m' hm' => h m' (List.mem_cons_of_mem _ hm')) fuel (by omega)]

theorem framesOf_encodeAll {ms : List Message} (h : ∀ m ∈ ms, m.WellFormed) :
    framesOf (Message.encodeAll ms) = ms.map fun m => (m.header, m.payload) :=
  framesLoop_encodeAll h _ le_rfl

theorem dataBytes_messages (sid : StreamId) (ms : List Message) :
    dataBytes sid (ms.map fun m => (m.header, m.payload)) = (dataOf sid ms).length := by
  induction ms with
  | nil => rfl
  | cons m ms ih =>
    have hm : (if m.header.streamId = sid then m.payload.length else 0) =
        (m.dataFor sid).length := by
      cases m with
      | data id payload =>
        change (if id = sid then payload.length else 0) = _
        simp only [Message.dataFor]
        split_ifs <;> rfl
      | _ => simp [Message.payload, Message.dataFor]
    unfold dataBytes at ih ⊢
    rw [List.map_cons, List.map_cons, List.sum_cons, ih, dataOf_cons, List.length_append, hm]

theorem creditBytes_messages (sid : StreamId) (ms : List Message) :
    creditBytes sid (ms.map fun m => (m.header, m.payload)) = creditOf sid ms := by
  induction ms with
  | nil => rfl
  | cons m ms ih =>
    have hm : (if m.header.type = YamuxType.windowUpdate.value ∧ m.header.streamId = sid
        then m.header.length.toNat else 0) = m.creditFor sid := by
      cases m with
      | window id delta =>
        change (if YamuxType.windowUpdate.value = YamuxType.windowUpdate.value ∧ id = sid
          then delta.toNat else 0) = _
        simp [Message.creditFor]
      | _ => simp [Message.header, header, YamuxType.value, Message.creditFor]
    unfold creditBytes at ih ⊢
    rw [List.map_cons, List.map_cons, List.sum_cons, ih, creditOf_cons, hm]

theorem header_ne_goAway (m : Message) : m.header.type ≠ YamuxType.goAway.value := by
  cases m <;> simp [Message.header, header, YamuxType.value]

/-! ## Delivery -/

/-- The frame loop keeps the invariant. -/
theorem joined_processFramesLoop {side : Bool} {b : End} (policy : ℕ → Bool) (fuel : ℕ) :
    ∀ {a : End} {q qb : List Message}, Joined side a b q qb →
      ∃ q' qb', Joined side (a.withHost (processFramesLoop (callbacks policy) fuel a.host)) b
        q' qb' := by
  induction fuel with
  | zero => intro a q qb h; exact ⟨q, qb, h⟩
  | succ fuel ih =>
    intro a q qb h
    rw [processFramesLoop]
    cases hparse : tryParseFrame a.host.1.recvBuf with
    | none => exact ⟨q, qb, h⟩
    | some frame =>
      obtain ⟨hdr, payload, rest⟩ := frame
      obtain ⟨m, qb', rfl, rfl, rfl, hrest⟩ :=
        Message.tryParseFrame_front h.back.wellFormed h.back.wire hparse
      obtain ⟨q', h'⟩ := h.handle policy hrest
      exact ih h'

/-- Bytes move from the channel to the receive buffer. -/
theorem joined_chunk {side : Bool} {a b : End} {q qb : List Message} (h : Joined side a b q qb)
    (n : ℕ) :
    Joined side (a.consume (a.session.recvBuf ++ b.link.wire.take n)) (b.unsend n) q qb where
  here := Joined.inv_consume h.here _
  there := ⟨⟨h.there.entry, h.there.noEntry, h.there.object⟩, h.there.isClient, h.there.goAway,
    h.there.opened, h.there.next, h.there.few⟩
  out := ⟨h.out.wire, h.out.wellFormed, h.out.accepted, h.out.announced, h.out.direction⟩
  back := by
    refine ⟨?_, h.back.wellFormed, h.back.accepted, h.back.announced, h.back.direction⟩
    rw [← h.back.wire]
    simp only [End.consume, End.unsend, End.pending]
    rw [List.append_assoc, ← List.append_assoc (b.link.wire.take n), List.take_append_drop]

/-! ## Runs -/

theorem joined_make (clientId serverId : ConnectionId) :
    Joined true (Pair.make clientId serverId).client (Pair.make clientId serverId).server [] [] := by
  have hdir : ∀ side (c : ConnectionId) sid, ¬ (({ session := .make c side } : End).sender sid).dead :=
    fun side c sid => by simp [End.sender, End.known]
  have hinv : ∀ side c, EndInv side ({ session := .make c side } : End) := fun side c => by
    refine ⟨⟨?_, ?_, ?_⟩, rfl, rfl, rfl, ?_, by simp⟩
    · intro sid stream hs
      cases hs
    · intro sid _
      rfl
    · intro stream hs
      cases hs
    · cases side <;> rfl
  have hflow : ∀ side c side' c', Flow ({ session := .make c side } : End)
      ({ session := .make c' side' } : End) [] [] := fun side c side' c' => by
    refine ⟨rfl, by simp, rfl, trivial, fun sid => ?_⟩
    exact Direction.fresh rfl rfl rfl rfl rfl rfl (hdir side' c' sid)
  exact ⟨hinv true clientId, hinv false serverId, hflow _ _ _ _, hflow _ _ _ _⟩

/-- The invariant of a pair, seen from either side. -/
def Invariant (p : Pair) : Prop :=
  ∀ side, ∃ q qb, Joined side (p.get side) (p.get !side) q qb

theorem invariant_of_joined {p : Pair} (side : Bool) {q qb : List Message}
    (h : Joined side (p.get side) (p.get !side) q qb) : Invariant p := by
  intro side'
  by_cases hs : side' = side
  · exact hs ▸ ⟨q, qb, h⟩
  · have hs' : side' = !side := by cases side <;> cases side' <;> simp_all
    subst hs'
    exact ⟨qb, q, by simpa using h.symm⟩

@[simp] theorem Pair.get_set (p : Pair) (side : Bool) (e : End) : (p.set side e).get side = e := by
  cases side <;> rfl

@[simp] theorem Pair.get_set_not (p : Pair) (side : Bool) (e : End) :
    (p.set side e).get (!side) = p.get !side := by
  cases side <;> rfl

/-- The invariant after a change at one end, up to the place of the pending bytes. -/
theorem invariant_set {p : Pair} {side : Bool} {e : End} {q qb : List Message}
    (h : Joined side e.settle (p.get !side) q qb) : Invariant (p.set side e) := by
  refine @invariant_of_joined _ side q qb ?_
  rw [Pair.get_set, Pair.get_set_not]
  exact Joined.settle_iff.mp h

/-- One action keeps the invariant. -/
theorem invariant_step {policy : Bool → ℕ → Bool} {p : Pair} (h : Invariant p) (side : Bool)
    (a : Action) (ha : p.Enabled side a) : Invariant (p.step policy side a) := by
  obtain ⟨q, qb, hj⟩ := h side
  have hset := Joined.settle_iff.mpr hj
  cases a with
  | openStream =>
    have hnone := hj.here.entry_none (hj.next_unknown ha)
    exact invariant_set (settle_openStream hj.here hnone ▸ hset.opens ha)
  | tryWrite stream data =>
    rcases settle_tryWrite hj.here ha data with hrun | ⟨window, payload, hs, hopen, hw, hne, hle, hrun⟩
    · exact invariant_set (hrun ▸ hset)
    · exact invariant_set (hrun ▸ hset.writes hs hopen hw hne hle)
  | tryRead stream size =>
    rcases settle_tryRead hj.here ha size with hrun | ⟨hs, hne, hrun⟩
    · exact invariant_set (hrun ▸ hset)
    · exact invariant_set (hrun ▸ hset.reads hs hne)
  | closeWrite stream =>
    rcases settle_closeWrite hj.here ha with ⟨hclosed, hrun⟩ | ⟨hs, hrun⟩
    · exact invariant_set (hrun ▸ hset.closesAgain ha hclosed)
    · exact invariant_set (hrun ▸ hset.closes hs)
  | reset stream =>
    have hrun : ((p.get side).reset (policy side) stream).settle = _ := settle_reset stream
    exact invariant_set (hrun ▸ hset.resets ha)
  | drain => exact invariant_set (settle_drain ▸ hset)
  | deliver n =>
    obtain ⟨q', qb', h'⟩ := joined_processFramesLoop (policy side)
      ((p.get side).session.recvBuf ++ (p.get !side).link.wire.take n).length (joined_chunk hj n)
    refine @invariant_of_joined _ side q' qb' ?_
    simp only [Pair.step, Pair.get_set, Pair.get_set_not]
    exact h'

/-- Every state of a run satisfies the invariant. -/
theorem joined_of_reachable {policy : Bool → ℕ → Bool} {p : Pair} (h : p.Reachable policy) :
    Invariant p := by
  induction h with
  | make clientId serverId => exact invariant_of_joined true (joined_make clientId serverId)
  | step _ side a ha ih => exact invariant_step ih side a ha

/-! ## What the user of a stream sees -/

/-- Streams are accepted in opening order and at most once; every undelivered frame
    is complete and none is a GoAway; the bytes read are a prefix of the bytes
    accepted by the writer; and the end of a stream that nobody reset is reported
    after `close_write` and after the last byte only. -/
theorem streams_in_order {policy : Bool → ℕ → Bool} {p : Pair} (h : p.Reachable policy)
    (side : Bool) :
    (p.get !side).link.accepted <+: (p.get side).opened ∧ (p.get side).opened.Nodup ∧
      (p.get side).session.remoteGoAway = false ∧
      p.undelivered side = (framesOf (p.undelivered side)).flatMap (fun f => encodeFrame f.1 f.2) ∧
      (∀ f ∈ framesOf (p.undelivered side), f.1.type ≠ YamuxType.goAway.value) ∧
      (∀ sid, (p.get side).read sid <+: (p.get !side).wrote sid) ∧
      ∀ stream size, stream < (p.get side).session.allocated → 0 < size →
        (p.get side).didReset ((p.get side).idOf stream) = false →
        (p.get !side).didReset ((p.get side).idOf stream) = false →
        (tryRead (callbacks (policy side)) stream size (p.get side).host).1 = .ok [] →
        (p.get !side).closedWrite ((p.get side).idOf stream) = true ∧
          (p.get side).read ((p.get side).idOf stream) =
            (p.get !side).wrote ((p.get side).idOf stream) := by
  obtain ⟨q, qb, hj⟩ := joined_of_reachable h side
  have hwire : p.undelivered side = Message.encodeAll q := hj.out.wire
  have hframes := framesOf_encodeAll hj.out.wellFormed
  refine ⟨⟨syns q, hj.out.accepted⟩, hj.here.nodup_opened, hj.here.goAway, ?_, ?_,
    fun sid => (hj.back.direction sid).read_isPrefix, ?_⟩
  · rw [hwire, hframes, List.flatMap_map]
    rfl
  · intro f hf
    rw [hwire, hframes] at hf
    obtain ⟨m, -, rfl⟩ := List.mem_map.mp hf
    exact header_ne_goAway m
  · intro stream size hlt hsize hr hr' hread
    rw [tryRead_result] at hread
    obtain ⟨hknown, hs | ⟨hnone, -⟩⟩ := hj.here.object stream hlt
    · have hdir := hj.back.direction ((p.get side).idOf stream)
      have hlive : ¬ ((p.get side).receiver ((p.get side).idOf stream)).dead := by
        simp [End.receiver, hs]
      obtain ⟨-, -, hreset, -⟩ := hj.here.entry _ _ hs
      split_ifs at hread with hbuf hclosed
      · refine hdir.endOfStream hlive ?_ ?_
        · simpa [End.receiver, hs] using hbuf
        · simpa [End.receiver, hs, hreset] using hclosed
      · simp only [Except.ok.injEq, List.take_eq_nil_iff] at hread
        rcases hread with hzero | hnil
        · omega
        · exact absurd hnil hbuf
    · -- an erased stream was reset by one of the two
      have hcause := (hj.back.direction ((p.get side).idOf stream)).resetCause ⟨hknown, hnone⟩
      simp only [End.receiver, End.sender, hr, hr'] at hcause
      simp at hcause

/-- A run: the client opens a stream and writes three bytes, the server receives
    both frames. -/
def sampleRun : Pair :=
  (((Pair.make 1 2).step (fun _ _ => true) true .openStream).step (fun _ _ => true) true
    (.tryWrite 0 [1, 2, 3])).step (fun _ _ => true) false (.deliver 27)

theorem sampleRun_reachable : sampleRun.Reachable fun _ _ => true :=
  .step (.step (.step (.make 1 2) true .openStream (by decide)) true (.tryWrite 0 [1, 2, 3])
    (by decide)) false (.deliver 27) trivial

theorem streams_in_order_sampleRun :
    sampleRun.server.link.accepted <+: sampleRun.client.opened ∧
      sampleRun.server.link.accepted = [1] ∧
      sampleRun.server.read 1 <+: sampleRun.client.wrote 1 ∧ sampleRun.client.wrote 1 = [1, 2, 3] :=
  ⟨(streams_in_order sampleRun_reachable true).1, by decide,
    (streams_in_order sampleRun_reachable false).2.2.2.2.2.1 1, by decide⟩

/-! ## Flow control -/

/-- `send_windows_` at `sid`; the initial window as long as there is no entry. -/
def End.sendWindow (e : End) (sid : StreamId) : ℕ :=
  match e.session.sendWindows sid with
  | some window => window.toNat
  | none => initialStreamWindow.toNat

/-- The bytes of `sid` in the receive buffer of its stream. -/
def End.unread (e : End) (sid : StreamId) : ℕ :=
  match e.session.streams sid with
  | some stream => (e.session.heap stream).recvBuf.length
  | none => 0

/-- The credit of a stream that neither side has reset is conserved, no window
    exceeds its initial size even with all the credit on its way, and no stream
    buffer exceeds it. -/
theorem window_conserved {policy : Bool → ℕ → Bool} {p : Pair} (h : p.Reachable policy)
    (side : Bool) :
    (∀ sid, sid ∈ (p.get side).opened ∨ sid ∈ (p.get !side).opened →
      (p.get side).didReset sid = false → (p.get !side).didReset sid = false →
      (p.get side).sendWindow sid + dataBytes sid (framesOf (p.undelivered side)) +
        (p.get !side).unread sid + creditBytes sid (framesOf (p.undelivered !side)) =
        initialStreamWindow.toNat) ∧
      (∀ sid window, (p.get side).session.sendWindows sid = some window →
        window.toNat + creditBytes sid (framesOf (p.undelivered !side)) ≤
          initialStreamWindow.toNat) ∧
      ∀ stream < (p.get side).session.allocated,
        ((p.get side).session.heap stream).recvBuf.length ≤ initialStreamWindow.toNat := by
  obtain ⟨q, qb, hj⟩ := joined_of_reachable h side
  have hframes : framesOf (p.undelivered side) = q.map fun m => (m.header, m.payload) := by
    have hwire : p.undelivered side = Message.encodeAll q := hj.out.wire
    rw [hwire, framesOf_encodeAll hj.out.wellFormed]
  have hframes' : framesOf (p.undelivered !side) = qb.map fun m => (m.header, m.payload) := by
    have hwire : p.undelivered (!side) = Message.encodeAll qb := by
      have := hj.back.wire
      simpa [Pair.undelivered, End.pending] using this
    rw [hwire, framesOf_encodeAll hj.back.wellFormed]
  have hsize : initialStreamWindow.toNat = windowSize := rfl
  rw [hframes, hframes', hsize]
  refine ⟨fun sid _ hr hr' => ?_, fun sid window hw => ?_, fun stream hlt => ?_⟩
  · rw [dataBytes_messages, creditBytes_messages]
    have hs : ¬ ((p.get side).sender sid).dead := fun hdead => by
      have := (hj.back.direction sid).resetCause hdead
      simp [End.receiver, End.sender, hr, hr'] at this
    have hd : ¬ ((p.get !side).receiver sid).dead := fun hdead => by
      have := (hj.out.direction sid).resetCause hdead
      simp [End.receiver, End.sender, hr, hr'] at this
    have hcons := (hj.out.direction sid).conservation hs hd
    have hwin : (p.get side).sendWindow sid = ((p.get side).sender sid).window := by
      unfold End.sendWindow End.sender
      cases (p.get side).session.sendWindows sid <;> rfl
    have hbuf : (p.get !side).unread sid = ((p.get !side).receiver sid).buf.length := by
      unfold End.unread End.receiver
      cases (p.get !side).session.streams sid <;> rfl
    rw [hwin, hbuf]
    exact hcons
  · rw [creditBytes_messages]
    have hs : ¬ ((p.get side).sender sid).dead := fun hdead => by
      have := hj.here.noEntry sid hdead.2
      rw [hw] at this
      cases this
    have := (hj.out.direction sid).window_add_credit_le hs
    simpa [End.sender, hw] using this
  · obtain ⟨-, hs | ⟨-, -, hnil, -⟩⟩ := hj.here.object stream hlt
    · have hlive : ¬ ((p.get side).receiver ((p.get side).idOf stream)).dead := by
        simp [End.receiver, hs]
      have := (hj.back.direction _).buf_le hlive
      simpa [End.receiver, hs] using this
    · rw [hnil]; simp

theorem window_conserved_sampleRun :
    sampleRun.client.sendWindow 1 + dataBytes 1 (framesOf (sampleRun.undelivered true)) +
        sampleRun.server.unread 1 + creditBytes 1 (framesOf (sampleRun.undelivered false)) =
        initialStreamWindow.toNat ∧ sampleRun.server.unread 1 = 3 :=
  ⟨(window_conserved sampleRun_reachable true).1 1 (.inl (by decide)) (by decide) (by decide),
    by decide⟩

/-! ## No byte is lost -/

/-- The data for `sid` in a list of frames. -/
def payloadOf (sid : StreamId) (frames : List (YamuxHeader × Bytes)) : Bytes :=
  frames.flatMap fun f => if f.1.streamId = sid then f.2 else []

/-- What the stream of `sid` has received and its reader has not taken. -/
def YamuxSession.buffered (s : YamuxSession) (sid : StreamId) : Bytes :=
  match s.streams sid with
  | some stream => (s.heap stream).recvBuf
  | none => []

theorem payloadOf_messages (sid : StreamId) (ms : List Message) :
    payloadOf sid (ms.map fun m => (m.header, m.payload)) = dataOf sid ms := by
  induction ms with
  | nil => rfl
  | cons m ms ih =>
    have hm : (if m.header.streamId = sid then m.payload else []) = m.dataFor sid := by
      cases m with
      | data id payload => rfl
      | _ => simp [Message.payload, Message.dataFor]
    rw [dataOf_cons, ← ih, ← hm]
    rfl

/-- A byte written on a stream that neither side has reset was read, or is in the buffer of
    the stream, or in a frame on its way; no byte twice, and all of them in order. -/
theorem bytes_conserved {policy : Bool → ℕ → Bool} {p : Pair} (h : p.Reachable policy)
    (side : Bool) {sid : StreamId} (hr : (p.get side).didReset sid = false)
    (hr' : (p.get !side).didReset sid = false) :
    (p.get side).wrote sid = (p.get !side).read sid ++ (p.get !side).session.buffered sid ++
      payloadOf sid (framesOf (p.undelivered side)) := by
  obtain ⟨q, qb, hj⟩ := joined_of_reachable h side
  have hframes : framesOf (p.undelivered side) = q.map fun m => (m.header, m.payload) := by
    have hwire : p.undelivered side = Message.encodeAll q := hj.out.wire
    rw [hwire, framesOf_encodeAll hj.out.wellFormed]
  have hdir := hj.out.direction sid
  have hlive : ¬ ((p.get !side).receiver sid).dead := fun hdead => by
    have hcause := hdir.resetCause hdead
    simp [End.receiver, End.sender, hr, hr'] at hcause
  obtain ⟨l, hwrote, hread, hinflight, -, hbuf, -⟩ := hdir.link
  have hbuffered : l.buf = (p.get !side).session.buffered sid := hbuf hlive
  calc (p.get side).wrote sid = l.read ++ l.buf ++ l.inflight := hwrote.symm.trans l.fifo
    _ = _ := by
      rw [hbuffered, hinflight, hframes, payloadOf_messages]
      exact congrArg (· ++ _ ++ _) hread

end PeerCore.Yamux
