import PeerCore.Yamux.Views

/-!
# The invariant of two joined sessions

`Joined` holds in every state of a run: the undelivered bytes of each direction
are the encoding of a queue of messages, the SYNs among them are the streams the
other end has still to accept, and every stream is a `Direction` both ways. Each
action at an end and each message handled there keeps it (`Joined.opens`,
`Joined.writes`, …, `Joined.handle`); the actions at the other end follow by
`Joined.symm`.
-/

namespace PeerCore.Yamux

/-! ## Announced streams -/

/-- The ids of the SYNs in a queue. -/
def syns : List Message → List StreamId
  | [] => []
  | .syn sid :: q => sid :: syns q
  | _ :: q => syns q

/-- Every message of the queue is about a stream that the reader knows or that an
    earlier SYN of the queue announces. -/
def Announced (known : StreamId → Prop) : List Message → Prop
  | [] => True
  | .syn sid :: q => Announced (fun id => id = sid ∨ known id) q
  | m :: q => known m.sid ∧ Announced known q

@[simp] theorem syns_append (q q' : List Message) : syns (q ++ q') = syns q ++ syns q' := by
  induction q with
  | nil => rfl
  | cons m q ih => cases m <;> simp [syns, ih]

theorem Announced.mono {known known' : StreamId → Prop} (hk : ∀ sid, known sid → known' sid)
    {q : List Message} (h : Announced known q) : Announced known' q := by
  induction q generalizing known known' with
  | nil => trivial
  | cons m q ih =>
    cases m with
    | syn sid => exact ih (fun id hid => hid.imp_right (hk id)) h
    | _ => exact ⟨hk _ h.1, ih hk h.2⟩

theorem Announced.append {known : StreamId → Prop} {q : List Message} {m : Message}
    (h : Announced known q) (hm : known m.sid ∨ m.sid ∈ syns q ∨ m = .syn m.sid) :
    Announced known (q ++ [m]) := by
  induction q generalizing known with
  | nil =>
    cases m with
    | syn sid => trivial
    | _ =>
      rcases hm with hm | hm | hm
      · exact ⟨hm, trivial⟩
      · cases hm
      · cases hm
  | cons m' q ih =>
    cases m' with
    | syn sid =>
      refine ih h ?_
      rcases hm with hm | hm | hm
      · exact .inl (.inr hm)
      · rcases List.mem_cons.mp hm with hm | hm
        · exact .inl (.inl hm)
        · exact .inr (.inl hm)
      · exact .inr (.inr hm)
    | _ => exact ⟨h.1, ih h.2 hm⟩

theorem Announced.head_known {known : StreamId → Prop} {m : Message} {q : List Message}
    (h : Announced known (m :: q)) (hm : m ≠ .syn m.sid) : known m.sid := by
  cases m with
  | syn sid => exact absurd rfl hm
  | _ => exact h.1

/-! ## The invariant -/

/-- What is on its way from `s` to `r`; `qb` is on its way back. -/
structure Flow (s r : End) (q qb : List Message) : Prop where
  wire : r.session.recvBuf ++ s.pending = Message.encodeAll q
  wellFormed : ∀ m ∈ q, m.WellFormed
  accepted : r.link.accepted ++ syns q = s.opened
  announced : Announced r.known q
  direction : ∀ sid, Direction sid (s.sender sid) (r.receiver sid) q qb

/-- Two ends, seen from the one on `side`. -/
structure Joined (side : Bool) (a b : End) (q qb : List Message) : Prop where
  here : EndInv side a
  there : EndInv (!side) b
  out : Flow a b q qb
  back : Flow b a qb q

namespace Joined

variable {side : Bool} {a b : End} {q qb : List Message}

theorem symm (h : Joined side a b q qb) : Joined (!side) b a qb q :=
  ⟨h.there, by simpa using h.here, h.back, h.out⟩

theorem settle_iff : Joined side a.settle b q qb ↔ Joined side a b q qb := by
  constructor
  · rintro ⟨h1, h2, h3, h4⟩
    exact ⟨EndInv.settle_iff.mp h1, h2, ⟨by simpa using h3.wire, h3.wellFormed, h3.accepted,
      h3.announced, h3.direction⟩, ⟨h4.wire, h4.wellFormed, h4.accepted, h4.announced,
      h4.direction⟩⟩
  · rintro ⟨h1, h2, h3, h4⟩
    exact ⟨EndInv.settle_iff.mpr h1, h2, ⟨by simpa using h3.wire, h3.wellFormed, h3.accepted,
      h3.announced, h3.direction⟩, ⟨h4.wire, h4.wellFormed, h4.accepted, h4.announced,
      h4.direction⟩⟩

/-- A stream one end knows is known to the other or announced to it. -/
theorem known_peer (h : Joined side a b q qb) {sid : StreamId} (hs : a.known sid) :
    b.known sid ∨ sid ∈ syns q := by
  rcases hs with hs | hs
  · rw [← h.out.accepted, List.mem_append] at hs
    exact hs.imp_left .inr
  · refine .inl (.inl ?_)
    rw [← h.back.accepted]
    exact List.mem_append_left _ hs

theorem ne_zero (h : Joined side a b q qb) {sid : StreamId} (hs : a.known sid) : sid ≠ 0 := by
  rcases hs with hs | hs
  · obtain ⟨k, hk, rfl⟩ := h.here.mem_opened hs
    have := h.here.few
    exact streamIdAt_ne_zero side (by omega)
  · have hb : sid ∈ b.opened := by
      rw [← h.back.accepted]
      exact List.mem_append_left _ hs
    obtain ⟨k, hk, rfl⟩ := h.there.mem_opened hb
    have := h.there.few
    exact streamIdAt_ne_zero (!side) (by omega)

/-- An id this end has not used yet is unknown to it. -/
theorem next_unknown (h : Joined side a b q qb) (hfew : a.opened.length + 1 < 2 ^ 31) :
    ¬ a.known a.session.nextStreamId := by
  rintro (hs | hs)
  · exact h.here.next_not_opened hfew hs
  · have hb : a.session.nextStreamId ∈ b.opened := by
      rw [← h.back.accepted]
      exact List.mem_append_left _ hs
    obtain ⟨k, hk, heq⟩ := h.there.mem_opened hb
    have := h.there.few
    rw [h.here.next] at heq
    exact streamIdAt_ne side (by omega) (by omega) heq

/-- An action at one end that writes one message. -/
theorem act (h : Joined side a b q qb) {a' : End} {m : Message} (hinv : EndInv side a')
    (hrecv : a'.session.recvBuf = a.session.recvBuf) (hacc : a'.link.accepted = a.link.accepted)
    (hopened : a'.opened = a.opened ++ syns [m]) (hpending : a'.pending = a.pending ++ m.encode)
    (hwf : m.WellFormed) (hknown : a.known m.sid ∨ m = .syn m.sid)
    (hout : ∀ sid, Direction sid (a'.sender sid) (b.receiver sid) (q ++ [m]) qb)
    (hback : ∀ sid, Direction sid (b.sender sid) (a'.receiver sid) qb (q ++ [m])) :
    Joined side a' b (q ++ [m]) qb where
  here := hinv
  there := h.there
  out := by
    refine ⟨?_, ?_, ?_, ?_, hout⟩
    · rw [hpending, ← List.append_assoc, h.out.wire]
      simp
    · intro m' hm'
      rcases List.mem_append.mp hm' with hm' | hm'
      · exact h.out.wellFormed m' hm'
      · rw [List.mem_singleton] at hm'
        exact hm' ▸ hwf
    · rw [syns_append, ← List.append_assoc, h.out.accepted, hopened]
    · refine h.out.announced.append ?_
      rcases hknown with hknown | hknown
      · rcases h.known_peer hknown with hb | hsyn
        · exact .inl hb
        · exact .inr (.inl hsyn)
      · exact .inr (.inr hknown)
  back := by
    refine ⟨by rw [hrecv]; exact h.back.wire, h.back.wellFormed, by rw [hacc]; exact h.back.accepted,
      h.back.announced.mono fun sid hs => ?_, hback⟩
    rcases hs with hs | hs
    · exact .inl (by rw [hopened]; exact List.mem_append_left _ hs)
    · exact .inr (by rw [hacc]; exact hs)

/-! ## Actions -/

/-- The other ids see only that a message about `m.sid` was written. -/
theorem out_other (h : Joined side a b q qb) {m : Message} {sid : StreamId} (hne : m.sid ≠ sid) :
    Direction sid (a.sender sid) (b.receiver sid) (q ++ [m]) qb :=
  (h.out.direction sid).append (Message.quiet_of_ne hne)

theorem back_other (h : Joined side a b q qb) {m : Message} {sid : StreamId}
    (hm : m.creditFor sid = 0) :
    Direction sid (b.sender sid) (a.receiver sid) qb (q ++ [m]) :=
  (h.back.direction sid).appendBack hm

theorem opens (h : Joined side a b q qb) (hfew : a.opened.length + 1 < 2 ^ 31) :
    Joined side ((a.opens a.session.nextStreamId).emit (.syn a.session.nextStreamId)) b
      (q ++ [.syn a.session.nextStreamId]) qb := by
  have hunknown := h.next_unknown hfew
  have hnext := h.here.next
  obtain ⟨sid, hsid⟩ : ∃ sid, sid = a.session.nextStreamId := ⟨_, rfl⟩
  rw [← hsid] at hunknown hnext ⊢
  have hc : Creates a ((a.opens sid).emit (.syn sid)) sid :=
    { allocated := rfl, heap := rfl, streams := rfl, sendWindows := rfl, wrote := rfl, read := rfl
      closedWrite := rfl, didReset := rfl
      known := fun id => by
        simp only [End.emit, End.opens, End.known, List.mem_append, List.mem_singleton]
        tauto }
  refine h.act ?_ rfl rfl rfl (by rw [End.emit_pending]; rfl) ⟨?_, trivial⟩ (.inr rfl)
    (fun id => ?_) (fun id => ?_)
  · refine { hc.tables h.here.toTables hunknown with
      isClient := h.here.isClient, goAway := h.here.goAway, opened := ?_, next := ?_, few := ?_ }
    · change a.opened ++ [sid] = _
      have hlen : ((a.opens sid).emit (.syn sid)).opened.length = a.opened.length + 1 := by
        simp [End.emit, End.opens]
      rw [hlen, List.range_succ, List.map_append, ← h.here.opened, List.map_singleton, ← hnext]
    · change sid + 2 = _
      rw [hnext, streamIdAt_succ]
      simp [End.emit, End.opens]
    · simpa [End.emit, End.opens] using hfew
  · rw [hnext]
    exact streamIdAt_ne_zero side hfew
  · rw [hc.sender h.here.toTables hunknown]
    exact (h.out.direction id).append ⟨rfl, by simp, by simp⟩
  · rw [hc.receiver h.here.toTables hunknown]
    exact h.back_other rfl

theorem writes (h : Joined side a b q qb) {sid : StreamId} {stream : ℕ} {window : UInt32}
    {payload : Bytes} (hs : a.session.streams sid = some stream)
    (hopen : (a.session.heap stream).writeClosed = false)
    (hw : a.session.sendWindows sid = some window) (hne : payload ≠ [])
    (hlen : payload.length ≤ window.toNat) :
    Joined side ((a.writes sid window payload).emit (.data sid payload)) b
      (q ++ [.data sid payload]) qb := by
  have hknown := h.here.known_of_entry hs
  have hlt := window.toNat_lt
  have hof : (UInt32.ofNat payload.length).toNat = payload.length := by
    rw [UInt32.toNat_ofNat']; omega
  have hsub : (window - UInt32.ofNat payload.length).toNat = window.toNat - payload.length := by
    rw [UInt32.toNat_sub_of_le _ _ (by rw [UInt32.le_iff_toNat_le, hof]; exact hlen), hof]
  have hsender : ∀ id, ((a.writes sid window payload).emit (.data sid payload)).sender id =
      if id = sid then
        { a.sender sid with
          window := (a.sender sid).window - payload.length
          wrote := (a.sender sid).wrote ++ payload }
      else a.sender id := fun id => by
    have hview : (a.setWindow sid (window - UInt32.ofNat payload.length)).sender id = _ :=
      setWindow_sender (window - UInt32.ofNat payload.length) id
    have hhist : ((a.writes sid window payload).emit (.data sid payload)).sender id =
        { (a.setWindow sid (window - UInt32.ofNat payload.length)).sender id with
          wrote := record a.wrote sid payload id } := rfl
    rw [hhist, hview]
    split_ifs with hid
    · subst hid
      simp [End.sender, record, hw, hsub]
    · simp [End.sender, record, hid]
  refine h.act ?_ rfl rfl (by simp [End.emit, End.writes, syns]) (by rw [End.emit_pending]; rfl)
    ⟨h.ne_zero hknown, hne, by omega⟩ (.inl hknown) (fun id => ?_) (fun id => ?_)
  · exact { h.here.toTables.setWindow hs (window - UInt32.ofNat payload.length) with
      isClient := h.here.isClient, goAway := h.here.goAway, opened := h.here.opened
      next := h.here.next, few := h.here.few }
  · rw [hsender id]
    split_ifs with hid
    · subst hid
      refine (h.out.direction id).write ?_ ?_ ?_
      · simp [End.sender, hs]
      · simpa [End.sender, hs] using hopen
      · simpa [End.sender, hw] using hlen
    · exact h.out_other fun heq => hid heq.symm
  · exact h.back_other rfl

theorem reads (h : Joined side a b q qb) {stream size : ℕ}
    (hs : a.session.streams (a.idOf stream) = some stream)
    (hne : (a.session.heap stream).recvBuf.take size ≠ []) :
    Joined side ((a.reads stream size).emit (.window (a.idOf stream)
        (UInt32.ofNat ((a.session.heap stream).recvBuf.take size).length))) b
      (q ++ [.window (a.idOf stream)
        (UInt32.ofNat ((a.session.heap stream).recvBuf.take size).length)]) qb := by
  obtain ⟨sid, hsid⟩ : ∃ sid, sid = a.idOf stream := ⟨_, rfl⟩
  rw [← hsid] at hs ⊢
  have hknown := h.here.known_of_entry hs
  have hbuf : (a.receiver sid).buf = (a.session.heap stream).recvBuf := by
    simp [End.receiver, hs]
  have hlive : ¬ (a.receiver sid).dead := by simp [End.receiver, hs]
  have hle := (h.back.direction sid).buf_le hlive
  rw [hbuf] at hle
  have hlen : ((a.session.heap stream).recvBuf.take size).length ≤ windowSize :=
    (List.length_take_le' _ _).trans hle
  have hof : (UInt32.ofNat ((a.session.heap stream).recvBuf.take size).length).toNat =
      ((a.session.heap stream).recvBuf.take size).length := by
    rw [UInt32.toNat_ofNat']
    have : windowSize = 262144 := rfl
    omega
  have hpos := List.length_pos_iff.mpr hne
  obtain ⟨bytes, hbytes⟩ : ∃ bytes, bytes = (a.session.heap stream).recvBuf.take size := ⟨_, rfl⟩
  rw [← hbytes] at hlen hof hpos ⊢
  have hreceiver : ∀ id, ((a.reads stream size).emit
      (.window sid (UInt32.ofNat bytes.length))).receiver id =
      if id = sid then
        { a.receiver sid with
          buf := (a.receiver sid).buf.drop size
          read := (a.receiver sid).read ++ (a.receiver sid).buf.take size }
      else a.receiver id := fun id => by
    have hview := change_receiver (f := fun st => { st with recvBuf := st.recvBuf.drop size })
      h.here.toTables hs id
    have hhist : ((a.reads stream size).emit
        (.window sid (UInt32.ofNat bytes.length))).receiver id =
        { (a.change stream fun st => { st with recvBuf := st.recvBuf.drop size }).receiver id with
          read := record a.read sid bytes id } := by rw [hsid, hbytes]; rfl
    rw [hhist, hview]
    split_ifs with hid
    · subst hid
      rw [hbuf, ← hbytes]
      simp [End.receiver, record, hs]
    · simp [End.receiver, record, hid]
  have hsender : ∀ id, ((a.reads stream size).emit
      (.window sid (UInt32.ofNat bytes.length))).sender id = a.sender id := fun id => by
    have hview := change_sender (f := fun st => { st with recvBuf := st.recvBuf.drop size })
      h.here.toTables hs id
    refine hview.trans ?_
    split_ifs with hid
    · subst hid
      simp [End.sender, hs]
    · rfl
  refine h.act ?_ rfl rfl (by simp [End.emit, End.reads, syns]) (by rw [End.emit_pending]; rfl)
    ⟨h.ne_zero hknown, fun h0 => ?_⟩ (.inl hknown) (fun id => ?_) (fun id => ?_)
  · exact { h.here.toTables.change (f := fun st => { st with recvBuf := st.recvBuf.drop size }) hs
      (fun _ => rfl) (fun _ => rfl) with
      isClient := h.here.isClient, goAway := h.here.goAway, opened := h.here.opened
      next := h.here.next, few := h.here.few }
  · rw [h0] at hof
    simp at hof
    omega
  · rw [hsender id]
    exact (h.out.direction id).append ⟨rfl, by simp, by simp⟩
  · rw [hreceiver id]
    split_ifs with hid
    · subst hid
      refine (h.back.direction id).read hlive size ?_
      rw [hbuf, ← hbytes]
      simp [Message.creditFor, hof]
    · exact h.back_other (Message.creditFor_of_ne fun heq => hid heq.symm)

theorem closes (h : Joined side a b q qb) {stream : ℕ}
    (hs : a.session.streams (a.idOf stream) = some stream) :
    Joined side ((a.closes stream).emit (.fin (a.idOf stream))) b (q ++ [.fin (a.idOf stream)])
      qb := by
  obtain ⟨sid, hsid⟩ : ∃ sid, sid = a.idOf stream := ⟨_, rfl⟩
  rw [← hsid] at hs ⊢
  have hknown := h.here.known_of_entry hs
  refine h.act ?_ rfl rfl (by simp [End.emit, End.closes, syns]) (by rw [End.emit_pending]; rfl)
    ⟨h.ne_zero hknown, trivial⟩ (.inl hknown) (fun id => ?_) (fun id => ?_)
  · exact { h.here.toTables.change (f := YamuxStream.closeLocalWrite) hs (fun _ => rfl) (fun _ => rfl) with
      isClient := h.here.isClient, goAway := h.here.goAway, opened := h.here.opened
      next := h.here.next, few := h.here.few }
  · have hview := change_sender (f := YamuxStream.closeLocalWrite) h.here.toTables hs id
    have hhist : ((a.closes stream).emit (.fin sid)).sender id =
        { (a.change stream YamuxStream.closeLocalWrite).sender id with
          closedWrite := Function.update a.closedWrite sid true id } := by rw [hsid]; rfl
    rw [hhist, hview]
    split_ifs with hid
    · subst hid
      simpa [YamuxStream.closeLocalWrite] using (h.out.direction id).closeWrite
    · have := h.out_other (m := .fin sid) fun heq => hid heq.symm
      simpa [End.sender, hid] using this
  · have hview := change_receiver (f := YamuxStream.closeLocalWrite) h.here.toTables hs id
    have hhist : ((a.closes stream).emit (.fin sid)).receiver id =
        (a.change stream YamuxStream.closeLocalWrite).receiver id := rfl
    have hsame : ((a.closes stream).emit (.fin sid)).receiver id = a.receiver id := by
      rw [hhist, hview]
      split_ifs with hid
      · subst hid
        simp [End.receiver, hs, YamuxStream.closeLocalWrite]
      · rfl
    rw [hsame]
    exact h.back_other rfl

/-- `close_write` on a stream that is closed for writing already. -/
theorem closesAgain (h : Joined side a b q qb) {stream : ℕ} (hlt : stream < a.session.allocated)
    (hclosed : (a.session.heap stream).writeClosed = true) :
    Joined side { a with closedWrite := Function.update a.closedWrite (a.idOf stream) true } b q
      qb where
  here := { h.here.toTables with
    isClient := h.here.isClient, goAway := h.here.goAway, opened := h.here.opened
    next := h.here.next, few := h.here.few }
  there := h.there
  out := by
    refine ⟨h.out.wire, h.out.wellFormed, h.out.accepted, h.out.announced, fun id => ?_⟩
    by_cases hid : id = a.idOf stream
    · have hc : ¬ (a.sender id).dead → (a.sender id).writeClosed = true := by
        intro hlive
        subst hid
        obtain ⟨hknown, hs | ⟨hnone, -⟩⟩ := h.here.object stream hlt
        · simpa [End.sender, hs] using hclosed
        · exact absurd ⟨hknown, hnone⟩ hlive
      have := (h.out.direction id).closeWriteAgain hc
      simpa [End.sender, End.known, hid] using this
    · simpa [End.sender, End.known, hid] using h.out.direction id
  back := ⟨h.back.wire, h.back.wellFormed, h.back.accepted, h.back.announced, h.back.direction⟩

theorem resets (h : Joined side a b q qb) {stream : ℕ} (hlt : stream < a.session.allocated) :
    Joined side ((a.resets stream).emit (.rst (a.idOf stream))) b (q ++ [.rst (a.idOf stream)])
      qb := by
  have hknown := (h.here.object stream hlt).1
  obtain ⟨sid, hsid⟩ : ∃ sid, sid = a.idOf stream := ⟨_, rfl⟩
  rw [← hsid] at hknown ⊢
  have htables := h.here.toTables.erase hlt
  have hdead : ((a.erase stream).sender sid).dead := hsid ▸ erase_sender_self h.here.toTables hlt
  refine h.act ?_ rfl rfl (by simp [End.emit, End.resets, syns]) (by rw [End.emit_pending]; rfl)
    ⟨h.ne_zero hknown, trivial⟩ (.inl hknown) (fun id => ?_) (fun id => ?_)
  · exact { htables with
      isClient := h.here.isClient, goAway := h.here.goAway, opened := h.here.opened
      next := h.here.next, few := h.here.few }
  · have hhist : ((a.resets stream).emit (.rst sid)).sender id =
        { (a.erase stream).sender id with
          didReset := Function.update a.didReset sid true id } := by rw [hsid]; rfl
    rw [hhist]
    by_cases hid : id = sid
    · subst hid
      exact (h.out.direction id).resetSender.congrDeadSender hdead rfl rfl (by simp)
    · have hsame := erase_sender_ne h.here.toTables hlt (hsid ▸ hid)
      have := h.out_other (m := .rst sid) fun heq => hid heq.symm
      rw [hsame]
      simpa [End.sender, hid] using this
  · have hhist : ((a.resets stream).emit (.rst sid)).receiver id =
        { (a.erase stream).receiver id with
          didReset := Function.update a.didReset sid true id } := by rw [hsid]; rfl
    rw [hhist]
    by_cases hid : id = sid
    · subst hid
      exact (h.back.direction id).resetReceiver.congrDeadReceiver trivial hdead rfl (by simp)
    · have hsame := erase_receiver_ne h.here.toTables (hsid ▸ hid)
      have : Direction id (b.sender id) (a.receiver id) qb (q ++ [.rst sid]) := h.back_other rfl
      rw [hsame]
      simpa [End.receiver, hid] using this

end Joined

/-! ## Messages -/

/-- `e` with `rest` left in its receive buffer. -/
def End.consume (e : End) (rest : Bytes) : End :=
  { e with session := { e.session with recvBuf := rest } }

namespace Joined

variable {side : Bool} {a b : End} {q qb : List Message}

/-- Any message but a SYN, handled without an answer. -/
theorem take {m : Message} (h : Joined side a b q (m :: qb)) (hm : m ≠ .syn m.sid) {a' : End}
    (hinv : EndInv side a') (hrecv : a'.session.recvBuf ++ b.pending = Message.encodeAll qb)
    (hpending : a'.pending = a.pending) (hopened : a'.opened = a.opened)
    (hacc : a'.link.accepted = a.link.accepted)
    (hout : ∀ sid, Direction sid (a'.sender sid) (b.receiver sid) q qb)
    (hback : ∀ sid, Direction sid (b.sender sid) (a'.receiver sid) qb q) :
    Joined side a' b q qb := by
  have hsyns : syns (m :: qb) = syns qb := by
    cases m with
    | syn sid => exact absurd rfl hm
    | _ => rfl
  have hann : Announced a.known qb := by
    have := h.back.announced
    cases m with
    | syn sid => exact absurd rfl hm
    | _ => exact this.2
  have hknown : a'.known = a.known := by
    funext id
    simp [End.known, hopened, hacc]
  refine ⟨hinv, h.there, ⟨by rw [hpending]; exact h.out.wire, h.out.wellFormed,
    by rw [hopened]; exact h.out.accepted, h.out.announced, hout⟩,
    ⟨hrecv, fun m' hm' => h.back.wellFormed m' (List.mem_cons_of_mem _ hm'), ?_, ?_, hback⟩⟩
  · rw [hacc, ← hsyns]
    exact h.back.accepted
  · rw [hknown]
    exact hann

section Handle

variable {policy : ℕ → Bool} {rest : Bytes} {sid : StreamId}

theorem wellFormed_head {m : Message} (h : Joined side a b q (m :: qb)) : m.WellFormed :=
  h.back.wellFormed m (by simp)

/-- A message that is not about `sid` leaves both directions of `sid` as they are. -/
theorem back_drop {m : Message} (h : Joined side a b q (m :: qb)) (hne : m.sid ≠ sid) :
    Direction sid (b.sender sid) (a.receiver sid) qb q :=
  (h.back.direction sid).drop (Message.quiet_of_ne hne).1

theorem out_drop {m : Message} (h : Joined side a b q (m :: qb)) (hm : m.creditFor sid = 0) :
    Direction sid (a.sender sid) (b.receiver sid) q qb :=
  (h.out.direction sid).dropBack hm

theorem dead_of_none {m : Message} (h : Joined side a b q (m :: qb)) (hm : m ≠ .syn m.sid)
    (hnone : a.session.streams m.sid = none) :
    a.known m.sid ∧ a.session.streams m.sid = none :=
  ⟨h.back.announced.head_known hm, hnone⟩

theorem inv_consume (h : EndInv side a) (rest : Bytes) : EndInv side (a.consume rest) :=
  ⟨⟨h.entry, h.noEntry, h.object⟩, h.isClient, h.goAway, h.opened, h.next, h.few⟩

theorem handle_ack (h : Joined side a b q (.ack sid :: qb))
    (hrest : rest ++ b.pending = Message.encodeAll qb) :
    Joined side (a.withHost (handleFrame (callbacks policy) (Message.ack sid).header
      (Message.ack sid).payload (a.consume rest).host)) b q qb := by
  have hne : sid ≠ 0 := h.wellFormed_head.1
  rw [handleFrame_ack _ _ hne]
  refine h.take (by simp) (inv_consume h.here rest) hrest rfl rfl rfl (fun id => ?_) (fun id => ?_)
  · exact h.out_drop rfl
  · exact (h.back.direction id).drop rfl

theorem handle_data {payload : Bytes} (h : Joined side a b q (.data sid payload :: qb))
    (hrest : rest ++ b.pending = Message.encodeAll qb) :
    Joined side (a.withHost (handleFrame (callbacks policy) (Message.data sid payload).header
      (Message.data sid payload).payload (a.consume rest).host)) b q qb := by
  have hne : sid ≠ 0 := h.wellFormed_head.1
  rw [handleFrame_data _ _ hne]
  have hinv := inv_consume h.here rest
  cases hs : a.session.streams sid with
  | none =>
    have hs' : (a.consume rest).host.1.streams sid = none := hs
    rw [hs']
    refine h.take (by simp) hinv hrest rfl rfl rfl (fun id => h.out_drop rfl) (fun id => ?_)
    by_cases hid : id = sid
    · subst hid
      exact (h.back.direction id).deliverDataDead (h.dead_of_none (by simp) hs)
    · exact h.back_drop fun heq => hid heq.symm
  | some stream =>
    have hs' : (a.consume rest).host.1.streams sid = some stream := hs
    rw [hs']
    change Joined side ((a.consume rest).change stream (·.receiveData payload)) b q qb
    refine h.take (by simp) ?_ hrest
      rfl rfl rfl (fun id => ?_) (fun id => ?_)
    · exact { hinv.toTables.change (f := (·.receiveData payload)) hs' (fun _ => rfl)
          (fun _ => rfl) with
        isClient := hinv.isClient, goAway := hinv.goAway, opened := hinv.opened
        next := hinv.next, few := hinv.few }
    · rw [change_sender hinv.toTables hs']
      split_ifs with hid
      · subst hid
        have : Direction id (a.sender id) (b.receiver id) q qb := h.out_drop rfl
        simpa [End.sender, End.consume, YamuxStream.receiveData, hs] using this
      · exact h.out_drop rfl
    · rw [change_receiver hinv.toTables hs']
      split_ifs with hid
      · subst hid
        have := (h.back.direction id).deliverData
        simpa [End.receiver, End.consume, End.known, YamuxStream.receiveData, hs] using this
      · exact h.back_drop fun heq => hid heq.symm

theorem handle_fin (h : Joined side a b q (.fin sid :: qb))
    (hrest : rest ++ b.pending = Message.encodeAll qb) :
    Joined side (a.withHost (handleFrame (callbacks policy) (Message.fin sid).header
      (Message.fin sid).payload (a.consume rest).host)) b q qb := by
  have hne : sid ≠ 0 := h.wellFormed_head.1
  rw [handleFrame_fin _ _ hne rfl]
  have hinv := inv_consume h.here rest
  cases hs : a.session.streams sid with
  | none =>
    have hs' : (a.consume rest).host.1.streams sid = none := hs
    rw [hs']
    exact h.take (by simp) hinv hrest rfl rfl rfl (fun id => h.out_drop rfl)
      (fun id => (h.back.direction id).drop rfl)
  | some stream =>
    have hs' : (a.consume rest).host.1.streams sid = some stream := hs
    rw [hs']
    change Joined side ((a.consume rest).change stream YamuxStream.receiveFin) b q qb
    refine h.take (by simp) ?_ hrest
      rfl rfl rfl (fun id => ?_) (fun id => ?_)
    · exact { hinv.toTables.change (f := YamuxStream.receiveFin) hs' (fun _ => rfl)
          (fun _ => rfl) with
        isClient := hinv.isClient, goAway := hinv.goAway, opened := hinv.opened
        next := hinv.next, few := hinv.few }
    · rw [change_sender hinv.toTables hs']
      split_ifs with hid
      · subst hid
        have : Direction id (a.sender id) (b.receiver id) q qb := h.out_drop rfl
        simpa [End.sender, End.consume, YamuxStream.receiveFin, hs] using this
      · exact h.out_drop rfl
    · rw [change_receiver hinv.toTables hs']
      split_ifs with hid
      · subst hid
        have := (h.back.direction id).deliverFin
        simpa [End.receiver, End.consume, End.known, YamuxStream.receiveFin, hs] using this
      · exact h.back_drop fun heq => hid heq.symm

theorem handle_window {delta : UInt32} (h : Joined side a b q (.window sid delta :: qb))
    (hrest : rest ++ b.pending = Message.encodeAll qb) :
    Joined side (a.withHost (handleFrame (callbacks policy) (Message.window sid delta).header
      (Message.window sid delta).payload (a.consume rest).host)) b q qb := by
  have hne : sid ≠ 0 := h.wellFormed_head.1
  have hpos : delta ≠ 0 := h.wellFormed_head.2
  rw [handleFrame_window _ _ hne hpos]
  have hinv := inv_consume h.here rest
  cases hs : a.session.streams sid with
  | none =>
    have hs' : (a.consume rest).host.1.streams sid = none := hs
    rw [hs']
    refine h.take (by simp) hinv hrest rfl rfl rfl (fun id => ?_)
      (fun id => (h.back.direction id).drop rfl)
    by_cases hid : id = sid
    · subst hid
      exact (h.out.direction id).deliverWindowDead (h.dead_of_none (by simp) hs)
    · exact h.out_drop (Message.creditFor_of_ne fun heq => hid heq.symm)
  | some stream =>
    have hs' : (a.consume rest).host.1.streams sid = some stream := hs
    obtain ⟨-, -, -, window, hw⟩ := h.here.entry sid stream hs
    -- the grant fits: the window never passes its initial size
    have hlive : ¬ (a.sender sid).dead := by simp [End.sender, hs]
    have hle := (h.out.direction sid).window_add_credit_le hlive
    have hwin : (a.sender sid).window = window.toNat := by simp [End.sender, hw]
    rw [hwin, creditOf_cons] at hle
    have hcredit : (Message.window sid delta).creditFor sid = delta.toNat := if_pos rfl
    have hsize : windowSize = 262144 := rfl
    have hnext : (UInt32.ofNat (min (window.toNat + delta.toNat) (2 ^ 32 - 1))).toNat =
        window.toNat + delta.toNat := by
      rw [UInt32.toNat_ofNat']; omega
    have hrun : (a.consume rest).host.1.creditWindow sid delta =
        ((a.consume rest).setWindow sid
          (UInt32.ofNat (min (window.toNat + delta.toNat) (2 ^ 32 - 1)))).session := by
      have hw' : (a.consume rest).host.1.sendWindows sid = some window := hw
      unfold YamuxSession.creditWindow
      rw [hw']
      rfl
    rw [hs']
    simp only [hrun]
    change Joined side ((a.consume rest).setWindow sid
      (UInt32.ofNat (min (window.toNat + delta.toNat) (2 ^ 32 - 1)))) b q qb
    refine h.take (by simp) ?_ hrest
      rfl rfl rfl (fun id => ?_) (fun id => ?_)
    · exact { hinv.toTables.setWindow hs' _ with
        isClient := hinv.isClient, goAway := hinv.goAway, opened := hinv.opened
        next := hinv.next, few := hinv.few }
    · rw [setWindow_sender, hnext]
      split_ifs with hid
      · subst hid
        have := (h.out.direction id).deliverWindow
        rw [hwin] at this
        exact this
      · exact h.out_drop (Message.creditFor_of_ne fun heq => hid heq.symm)
    · exact (h.back.direction id).drop rfl

theorem handle_rst (h : Joined side a b q (.rst sid :: qb))
    (hrest : rest ++ b.pending = Message.encodeAll qb) :
    Joined side (a.withHost (handleFrame (callbacks policy) (Message.rst sid).header
      (Message.rst sid).payload (a.consume rest).host)) b q qb := by
  have hne : sid ≠ 0 := h.wellFormed_head.1
  rw [handleFrame_rst _ _ hne rfl]
  have hinv := inv_consume h.here rest
  cases hs : a.session.streams sid with
  | none =>
    have hs' : (a.consume rest).host.1.streams sid = none := hs
    rw [hs']
    exact h.take (by simp) hinv hrest rfl rfl rfl (fun id => h.out_drop rfl)
      (fun id => (h.back.direction id).drop rfl)
  | some stream =>
    have hs' : (a.consume rest).session.streams sid = some stream := hs
    obtain ⟨hlt, hid, -⟩ := h.here.entry sid stream hs
    have hid' : sid = (a.consume rest).idOf stream := hid.symm
    have hrun : ((a.consume rest).host.1.setStream stream YamuxStream.receiveRst).eraseStream sid =
        ((a.consume rest).erase stream).session := by rw [hid']; rfl
    have hstart : (a.consume rest).host.1.streams sid = some stream := hs
    rw [hstart]
    simp only [hrun]
    have hdead : (((a.consume rest).erase stream).sender sid).dead :=
      hid' ▸ erase_sender_self hinv.toTables hlt
    change Joined side ((a.consume rest).erase stream) b q qb
    refine h.take (by simp) ?_ hrest
      rfl rfl rfl (fun id => ?_) (fun id => ?_)
    · exact { hinv.toTables.erase hlt with
        isClient := hinv.isClient, goAway := hinv.goAway, opened := hinv.opened
        next := hinv.next, few := hinv.few }
    · by_cases hid : id = sid
      · subst hid
        exact (h.out.direction id).deliverRstBack.congrDeadSender hdead rfl rfl rfl
      · rw [erase_sender_ne hinv.toTables hlt (hid' ▸ hid)]
        exact h.out_drop rfl
    · by_cases hid : id = sid
      · subst hid
        exact (h.back.direction id).deliverRst.congrDeadReceiver trivial hdead rfl rfl
      · rw [erase_receiver_ne hinv.toTables (hid' ▸ hid)]
        exact h.back_drop fun heq => hid heq.symm

/-- The stream announced by a SYN is created, handed to the accept callback and
    acknowledged. -/
theorem handle_syn (h : Joined side a b q (.syn sid :: qb))
    (hrest : rest ++ b.pending = Message.encodeAll qb) :
    Joined side (a.withHost (handleFrame (callbacks policy) (Message.syn sid).header
      (Message.syn sid).payload (a.consume rest).host)) b (q ++ [.ack sid]) qb := by
  have hmem : sid ∈ b.opened := by
    rw [← h.back.accepted]
    simp [syns]
  obtain ⟨k, hk, hsid⟩ := h.there.mem_opened hmem
  have hfew := h.there.few
  have hunknown : ¬ a.known sid := by
    rintro (hs | hs)
    · obtain ⟨k', hk', heq⟩ := h.here.mem_opened hs
      have hfew' := h.here.few
      rw [hsid] at heq
      exact streamIdAt_ne side (by omega) (by omega) heq.symm
    · have hnodup := h.there.nodup_opened
      rw [← h.back.accepted, List.nodup_append] at hnodup
      exact hnodup.2.2 _ hs _ (by simp [syns]) rfl
  have hinv := inv_consume h.here rest
  have hnone : (a.consume rest).host.1.streams sid = none := h.here.entry_none hunknown
  have hremote : (a.consume rest).host.1.isRemoteStreamId sid = true := by
    rw [hsid]
    exact isRemote_streamIdAt (by rw [Bool.not_not]; exact hinv.isClient) (by omega)
  have hne : sid ≠ 0 := h.wellFormed_head.1
  rw [handleFrame_syn _ _ hne hremote hnone]
  obtain ⟨a₁, ha₁⟩ : ∃ a₁ : End, a₁ = { a.consume rest with
      session := (a.consume rest).session.createStream sid
      link := { a.link with accepted := a.link.accepted ++ [sid] } } := ⟨_, rfl⟩
  obtain ⟨h', hrun, hset⟩ := sendFrame_settled policy a₁.host
    (header .data YamuxFlag.ack.value sid 0) []
  have haccept : acceptStream (callbacks policy) (a.consume rest).host.1.allocated sid
      ((a.consume rest).host.1.createStream sid, (a.consume rest).host.2) = h' := by
    have : acceptStream (callbacks policy) (a.consume rest).host.1.allocated sid
        ((a.consume rest).host.1.createStream sid, (a.consume rest).host.2) =
        (acknowledgeStream (callbacks policy) sid a₁.host).2 := by rw [ha₁]; rfl
    rw [this, acknowledgeStream, hrun]
  rw [haccept]
  have hc : Creates a a₁ sid :=
    { allocated := by rw [ha₁]; rfl, heap := by rw [ha₁]; rfl, streams := by rw [ha₁]; rfl
      sendWindows := by rw [ha₁]; rfl, wrote := by rw [ha₁]; rfl, read := by rw [ha₁]; rfl
      closedWrite := by rw [ha₁]; rfl, didReset := by rw [ha₁]; rfl
      known := fun id => by
        rw [ha₁]
        simp only [End.known, End.consume, List.mem_append, List.mem_singleton]
        tauto }
  have hopened : a₁.opened = a.opened := by rw [ha₁]; rfl
  have hjoined : Joined side a₁ b q qb := by
    refine ⟨?_, h.there, ⟨?_, h.out.wellFormed, ?_, h.out.announced, fun id => ?_⟩,
      ⟨?_, fun m hm => h.back.wellFormed m (List.mem_cons_of_mem _ hm), ?_, ?_, fun id => ?_⟩⟩
    · refine { hc.tables h.here.toTables hunknown with
        isClient := ?_, goAway := ?_, opened := ?_, next := ?_, few := ?_ }
      · rw [ha₁]; exact h.here.isClient
      · rw [ha₁]; exact h.here.goAway
      · rw [hopened]; exact h.here.opened
      · rw [hopened, ha₁]; exact h.here.next
      · rw [hopened]; exact h.here.few
    · rw [ha₁]; exact h.out.wire
    · rw [hopened]; exact h.out.accepted
    · rw [hc.sender h.here.toTables hunknown]
      exact h.out_drop rfl
    · rw [ha₁]; exact hrest
    · rw [ha₁]
      have := h.back.accepted
      simpa [syns] using this
    · have := h.back.announced
      exact Announced.mono (fun id hid => (hc.known id).mpr hid) this
    · rw [hc.receiver h.here.toTables hunknown]
      exact (h.back.direction id).drop rfl
  have hknown : a₁.known sid := (hc.known sid).mpr (.inl rfl)
  have hack : (a.withHost h').settle = a₁.settle.emit (.ack sid) := by
    have hwith : (a.withHost h').settle = (a₁.withHost h').settle := by rw [ha₁]; rfl
    rw [hwith, settled_withHost, hset]
    rfl
  rw [← settle_iff, hack]
  have hs := settle_iff.mpr hjoined
  refine hs.act ?_ rfl rfl (by simp [End.emit, syns]) (by rw [End.emit_pending])
    ⟨hs.ne_zero hknown, trivial⟩ (.inl hknown) (fun id => ?_) (fun id => ?_)
  · exact { hs.here.toTables with
      isClient := hs.here.isClient, goAway := hs.here.goAway, opened := hs.here.opened
      next := hs.here.next, few := hs.here.few }
  · exact (hs.out.direction id).append ⟨rfl, by simp, by simp⟩
  · exact hs.back_other rfl

end Handle

/-- Every message, with whatever it is answered by. -/
theorem handle {rest : Bytes} {m : Message} (h : Joined side a b q (m :: qb))
    (policy : ℕ → Bool) (hrest : rest ++ b.pending = Message.encodeAll qb) :
    ∃ q', Joined side (a.withHost (handleFrame (callbacks policy) m.header m.payload
      (a.consume rest).host)) b q' qb := by
  cases m with
  | syn sid => exact ⟨_, h.handle_syn hrest⟩
  | ack sid => exact ⟨_, h.handle_ack hrest⟩
  | data sid payload => exact ⟨_, h.handle_data hrest⟩
  | fin sid => exact ⟨_, h.handle_fin hrest⟩
  | rst sid => exact ⟨_, h.handle_rst hrest⟩
  | window sid delta => exact ⟨_, h.handle_window hrest⟩

end Joined

end PeerCore.Yamux
