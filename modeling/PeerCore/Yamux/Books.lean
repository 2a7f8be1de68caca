import PeerCore.Yamux.Closing
import PeerCore.Yamux.Receive

/-!
# The tables of a Yamux session

`Books` are the role of a session, its streams, its send windows and the next id. `act_books` says
what an action does to them, whatever the callbacks do: one constructor of `Change` for
each way an action can go.
-/

namespace PeerCore.Yamux

open YamuxSession

/-- The tables of a session. -/
structure Books where
  isClient : Bool
  table : Table
  windows : StreamId → Option UInt32
  nextStreamId : StreamId

/-- The tables of a session. -/
def YamuxSession.books (s : YamuxSession) : Books :=
  { isClient := s.isClient, table := s.table, windows := s.sendWindows, nextStreamId := s.nextStreamId }

namespace Books

/-- A stream is changed. -/
def set (b : Books) (stream : ℕ) (f : YamuxStream → YamuxStream) : Books :=
  { b with table := b.table.set stream f }

/-- `get_or_create_stream` makes a stream. -/
def create (b : Books) (connId : ConnectionId) (sid : StreamId) : Books :=
  { b with
    table := b.table.create connId sid
    windows := Function.update b.windows sid (some initialStreamWindow) }

/-- `erase_stream`. -/
def erase (b : Books) (sid : StreamId) : Books :=
  { b with table := b.table.erase sid, windows := Function.update b.windows sid none }

/-- The next id is taken. -/
def take (b : Books) : Books := { b with nextStreamId := b.nextStreamId + 2 }

/-- The window of an entry grows. -/
def credit (b : Books) (sid : StreamId) (delta : UInt32) : Books :=
  match b.windows sid with
  | some window =>
    let next := min (window.toNat + delta.toNat) (2 ^ 32 - 1)
    { b with windows := Function.update b.windows sid (some (UInt32.ofNat next)) }
  | none => b

/-- The tables after a frame for `stream`. -/
def afterFrame (b : Books) (hdr : YamuxHeader) (payload : Bytes) (stream : ℕ) : Books :=
  let b := if hdr.type = YamuxType.windowUpdate.value ∧ hdr.length > 0
    then b.credit hdr.streamId hdr.length else b
  if hasFlag hdr.flags .rst then (b.set stream (·.afterFrame hdr payload)).erase hdr.streamId
  else b.set stream (·.afterFrame hdr payload)

theorem credit_table (b : Books) (sid : StreamId) (delta : UInt32) : (b.credit sid delta).table = b.table := by
  unfold credit
  cases b.windows sid <;> rfl

theorem afterFrame_table (b : Books) (hdr : YamuxHeader) (payload : Bytes) (stream : ℕ) :
    (b.afterFrame hdr payload stream).table = b.table.afterFrame hdr payload stream := by
  unfold afterFrame Table.afterFrame set erase
  dsimp only
  split_ifs <;> simp only [credit_table]

theorem credit_fixed (b : Books) (sid : StreamId) (delta : UInt32) :
    (b.credit sid delta).isClient = b.isClient ∧ (b.credit sid delta).nextStreamId = b.nextStreamId := by
  unfold credit
  cases b.windows sid <;> exact ⟨rfl, rfl⟩

theorem afterFrame_fixed (b : Books) (hdr : YamuxHeader) (payload : Bytes) (stream : ℕ) :
    (b.afterFrame hdr payload stream).isClient = b.isClient ∧
      (b.afterFrame hdr payload stream).nextStreamId = b.nextStreamId := by
  have hcredit := b.credit_fixed hdr.streamId hdr.length
  unfold afterFrame set erase
  dsimp only
  split_ifs
  · exact hcredit
  · exact ⟨rfl, rfl⟩
  · exact hcredit
  · exact ⟨rfl, rfl⟩

end Books

section Books

variable {E : Type} (cb : Callbacks E)

theorem runOutgoing_books (h : Host E) : (runOutgoing cb h).2.1.books = h.1.books := by
  unfold runOutgoing
  cases cb.outgoing <;> rfl

theorem sendFrame_books (hdr : YamuxHeader) (payload : Bytes) (h : Host E) :
    (sendFrame cb hdr payload h).2.1.books = h.1.books :=
  runOutgoing_books cb (h.1.writeFrame hdr payload, h.2)

theorem updateReceiveWindow_books (sid : StreamId) (delta : ℕ) (h : Host E) :
    (updateReceiveWindow cb sid delta h).2.1.books = h.1.books := by
  unfold updateReceiveWindow
  split_ifs
  · rfl
  · exact sendFrame_books cb _ _ h

/-- What follows a call of the outgoing callback does not touch the session. -/
theorem runOutgoing_bind_books {α : Type} (a : α) (h : Host E) :
    ((runOutgoing cb >>= fun _ => (pure a : Op (Host E) α)) h).2.1.books = h.1.books := by
  rw [← runOutgoing_books cb h, Op.bind_apply]
  rcases runOutgoing cb h with ⟨_ | _, _⟩ <;> rfl

theorem openStream_refused {h : Host E} (hgo : h.1.remoteGoAway = true) :
    Yamux.openStream cb h = (.error "yamux session is shutting down", h) := by
  unfold openStream
  rw [Op.bind_apply, Op.get_apply]
  simp only [hgo, if_true, Op.fail_apply]

theorem openStream_reused {h : Host E} (hgo : h.1.remoteGoAway = false) {stream : ℕ}
    (hs : h.1.streams h.1.nextStreamId = some stream) :
    (Yamux.openStream cb h).2.1.books = h.1.books.take := by
  unfold openStream
  rw [Op.bind_apply, Op.get_apply]
  simp only [hgo, getOrCreateStream, hs]
  exact runOutgoing_bind_books cb _ _

theorem openStream_new {h : Host E} (hgo : h.1.remoteGoAway = false)
    (hs : h.1.streams h.1.nextStreamId = none) :
    (Yamux.openStream cb h).2.1.books = (h.1.books.create h.1.connId h.1.nextStreamId).take := by
  unfold openStream
  rw [Op.bind_apply, Op.get_apply]
  simp only [hgo, getOrCreateStream, hs, if_true]
  exact runOutgoing_bind_books cb _ _

/-- `try_write` debits at most the window of its own id. -/
theorem tryWrite_books (stream : ℕ) (data : Bytes) (h : Host E) :
    (Yamux.tryWrite cb stream data h).2.1.books = h.1.books ∨
      ∃ window n, (h.1.heap stream).writeClosed = false ∧ (h.1.heap stream).reset = false ∧
        h.1.sendWindows (h.1.heap stream).id = some window ∧
        (Yamux.tryWrite cb stream data h).2.1.books = { h.1.books with
          windows := Function.update h.1.sendWindows (h.1.heap stream).id (some (window - n)) } := by
  unfold tryWrite
  rw [Op.bind_apply, Op.get_apply]
  dsimp only
  split_ifs with hclosed
  · exact .inl rfl
  · rw [not_or, Bool.not_eq_true, Bool.not_eq_true] at hclosed
    unfold writeStreamData
    rw [Op.bind_apply, Op.get_apply]
    dsimp only
    cases hwindow : h.1.sendWindows (h.1.heap stream).id with
    | none => exact .inl rfl
    | some window =>
      dsimp only
      split_ifs
      · exact .inl rfl
      · exact .inr ⟨window, _, hclosed.1, hclosed.2, rfl, runOutgoing_bind_books cb _ _⟩

theorem tryRead_books (stream size : ℕ) (h : Host E) :
    (Yamux.tryRead cb stream size h).2.1.books =
      h.1.books.set stream fun st => { st with recvBuf := st.recvBuf.drop size } := by
  unfold tryRead
  rw [Op.bind_apply, Op.get_apply]
  dsimp only
  by_cases hempty : (h.1.heap stream).recvBuf = []
  · -- the read of a stream with an empty buffer takes nothing from it
    have hsame : (h.1.books.set stream fun st => { st with recvBuf := st.recvBuf.drop size }) =
        h.1.books := by
      have hst : { h.1.heap stream with recvBuf := (h.1.heap stream).recvBuf.drop size } =
          h.1.heap stream := by
        rw [hempty, List.drop_nil, ← hempty]
      simp only [Books.set, Table.set, books, YamuxSession.table, hst, Function.update_eq_self]
    rw [if_pos hempty, hsame]
    split_ifs <;> rfl
  · rw [if_neg hempty]
    exact updateReceiveWindow_books cb _ _ _

theorem closeWrite_books (stream : ℕ) (h : Host E) :
    (Yamux.closeWrite cb stream h).2.1.books =
      if (h.1.heap stream).writeClosed then h.1.books
      else { h.1.books with table := h.1.table.closeWrite stream } := by
  unfold closeWrite
  rw [Op.bind_apply, Op.get_apply]
  dsimp only
  split_ifs
  · rfl
  · unfold closeStreamWrite
    refine (runOutgoing_books cb _).trans ?_
    have hentry : (h.1.setStream stream YamuxStream.closeLocalWrite).streams = h.1.streams := rfl
    cases hs : h.1.streams (h.1.heap stream).id with
    | none =>
      rw [Table.closeWrite_alone (t := h.1.table) hs]
      simp only [hentry, writeFrame, hs]
      rfl
    | some stream' =>
      rw [Table.closeWrite_both (t := h.1.table) hs]
      simp only [hentry, writeFrame, hs]
      rfl

theorem reset_books (stream : ℕ) (h : Host E) :
    (Yamux.reset cb stream h).2.1.books =
      (h.1.books.set stream YamuxStream.receiveRst).erase (h.1.heap stream).id :=
  runOutgoing_books cb _

/-! ## A frame -/

theorem runClose_session (sid : StreamId) (detail : String) (h : Host E) :
    (runClose cb sid detail h).1 = h.1 := by
  unfold runClose
  cases cb.close <;> rfl

theorem acceptStream_books (stream : ℕ) (sid : StreamId) (h : Host E) :
    (acceptStream cb stream sid h).1.books = h.1.books := by
  unfold acceptStream
  cases cb.accept with
  | none => exact sendFrame_books cb _ _ h
  | some accept => exact sendFrame_books cb _ _ (h.1, accept stream sid h.2)

theorem creditStage_books (hdr : YamuxHeader) (h : Host E) :
    (creditStage hdr h).1.books = if hdr.type = YamuxType.windowUpdate.value ∧ hdr.length > 0
      then h.1.books.credit hdr.streamId hdr.length else h.1.books := by
  unfold creditStage
  split_ifs
  · show (h.1.creditWindow hdr.streamId hdr.length).books = h.1.books.credit hdr.streamId hdr.length
    unfold creditWindow Books.credit
    show _ = match h.1.sendWindows hdr.streamId with | some window => _ | none => _
    cases h.1.sendWindows hdr.streamId <;> rfl
  · rfl

theorem dataStage_books (payload : Bytes) (stream : ℕ) (h : Host E) :
    (dataStage payload stream h).1.books = h.1.books.set stream (·.receiveData payload) := by
  unfold dataStage
  split_ifs with hpayload
  · rfl
  · rw [not_not.mp hpayload]
    simp [books, YamuxSession.table, Books.set, Table.set, YamuxStream.receiveData]

theorem finStage_books (hdr : YamuxHeader) (stream : ℕ) (h : Host E) :
    (finStage cb hdr stream h).1.books =
      if hasFlag hdr.flags .fin then h.1.books.set stream YamuxStream.receiveFin else h.1.books := by
  unfold finStage
  dsimp only
  split_ifs
  · rfl
  · rw [runClose_session]
    rfl
  · rfl

theorem rstStage_books (hdr : YamuxHeader) (stream : ℕ) (h : Host E) :
    (rstStage cb hdr stream h).1.books =
      if hasFlag hdr.flags .rst then (h.1.books.set stream YamuxStream.receiveRst).erase hdr.streamId
      else h.1.books := by
  unfold rstStage
  dsimp only
  split_ifs
  · rw [runClose_session]
    rfl
  · rfl

theorem Books.set_set (b : Books) (stream : ℕ) (f g : YamuxStream → YamuxStream) :
    (b.set stream f).set stream g = b.set stream fun st => g (f st) := by
  unfold set
  rw [Table.set_set]

theorem applyFrame_books (hdr : YamuxHeader) (payload : Bytes) (stream : ℕ) (h : Host E) :
    (applyFrame cb hdr payload stream h).1.books = h.1.books.afterFrame hdr payload stream := by
  rw [applyFrame_eq, rstStage_books, finStage_books, dataStage_books, creditStage_books]
  unfold Books.afterFrame YamuxStream.afterFrame YamuxStream.afterFin
  dsimp only
  by_cases hfin : hasFlag hdr.flags .fin = true
  · by_cases hrst : hasFlag hdr.flags .rst = true
    · simp only [hfin, hrst, if_true, Books.set_set]
    · simp only [hfin, hrst, if_true, if_false, Bool.false_eq_true, Books.set_set]
  · by_cases hrst : hasFlag hdr.flags .rst = true
    · simp only [hfin, hrst, if_true, if_false, Bool.false_eq_true, Books.set_set]
    · simp only [hfin, hrst, if_false, Bool.false_eq_true]

variable (hdr : YamuxHeader) (payload : Bytes) (h : Host E)

theorem handleFrame_other_books (hother : ¬ ForStream h.1 hdr) :
    (handleFrame cb hdr payload h).1.books = h.1.books := by
  rw [handleFrame_eq]
  split_ifs with hversion hping hack hgo hkind hlocal
  · rfl
  · rfl
  · exact sendFrame_books cb _ _ h
  · rfl
  · rfl
  · exact sendFrame_books cb _ _ h
  · refine absurd ⟨not_not.mp hversion, ?_, ?_, fun hsyn => ?_⟩ hother
    · exact not_not.mp fun h => hkind (.inl h)
    · exact fun h => hkind (.inr h)
    · simpa [hsyn] using hlocal

theorem handleFrame_streamStage (hfor : ForStream h.1 hdr) :
    handleFrame cb hdr payload h = streamStage cb hdr payload h := by
  obtain ⟨hversion, hkind, hid, hremote⟩ := hfor
  have hping : hdr.type ≠ YamuxType.ping.value := by
    rcases hkind with hkind | hkind <;> rw [hkind] <;> decide
  have hgo : hdr.type ≠ YamuxType.goAway.value := by
    rcases hkind with hkind | hkind <;> rw [hkind] <;> decide
  have hlocal : ¬ (hasFlag hdr.flags .syn && !h.1.isRemoteStreamId hdr.streamId) = true := by
    cases hsyn : hasFlag hdr.flags .syn
    · simp
    · simp [hremote hsyn]
  rw [handleFrame_eq, if_neg (not_not.mpr hversion), if_neg hping, if_neg hgo, if_neg (by tauto),
    if_neg hlocal]

theorem handleFrame_held_eq {stream : ℕ} (hfor : ForStream h.1 hdr)
    (hs : h.1.streams hdr.streamId = some stream) :
    handleFrame cb hdr payload h = applyFrame cb hdr payload stream h := by
  rw [handleFrame_streamStage cb hdr payload h hfor, streamStage, getOrCreateStream, hs]
  simp only [Option.isSome_some, Bool.not_true, Bool.and_false, Bool.false_eq_true, if_false]

theorem handleFrame_unknown_eq (hfor : ForStream h.1 hdr) (hs : h.1.streams hdr.streamId = none)
    (hsyn : hasFlag hdr.flags .syn = false) : handleFrame cb hdr payload h = h := by
  rw [handleFrame_streamStage cb hdr payload h hfor, streamStage, getOrCreateStream, hs]
  simp only [hsyn, Bool.false_eq_true, if_false]

theorem handleFrame_new_eq (hfor : ForStream h.1 hdr) (hs : h.1.streams hdr.streamId = none)
    (hsyn : hasFlag hdr.flags .syn = true) :
    handleFrame cb hdr payload h = applyFrame cb hdr payload h.1.allocated
      (acceptStream cb h.1.allocated hdr.streamId (h.1.createStream hdr.streamId, h.2)) := by
  rw [handleFrame_streamStage cb hdr payload h hfor, streamStage, getOrCreateStream, hs]
  simp only [hsyn, if_true, Option.isSome_none, Bool.not_false, Bool.and_self]

end Books

/-! ## One action -/

/-- What can happen to a session: an action, or a call of `drain_outgoing`. -/
inductive Call
  | on (a : Watch.Action)
  | drainOutgoing
  deriving DecidableEq

/-- The effect on the session and the environment of its callbacks. -/
def Call.step {E : Type} (cb : Callbacks E) (h : Host E) : Call → Host E
  | .on a => Watch.act cb a h
  | .drainOutgoing => ((Yamux.drainOutgoing h.1).2, h.2)

/-- The owner has only handles the session gave out. -/
def Call.Owned {E : Type} (h : Host E) : Call → Prop
  | .on (.tryRead stream _) | .on (.tryWrite stream _) | .on (.closeWrite stream) | .on (.reset stream) =>
    stream < h.1.allocated
  | .on (.arrive _) | .on .frame | .on .openStream | .drainOutgoing => True

instance {E : Type} (h : Host E) : ∀ call : Call, Decidable (call.Owned h)
  | .on (.tryRead _ _) | .on (.tryWrite _ _) | .on (.closeWrite _) | .on (.reset _) =>
    inferInstanceAs (Decidable (_ < _))
  | .on (.arrive _) | .on .frame | .on .openStream | .drainOutgoing => inferInstanceAs (Decidable True)

/-- What a call does to the tables of a session. -/
inductive Change (s : YamuxSession) : Call → Books → Prop
  | drain : Change s .drainOutgoing s.books
  | arrive (data : Bytes) : Change s (.on (.arrive data)) s.books
  | openRefused (hgo : s.remoteGoAway = true) : Change s (.on .openStream) s.books
  | openReused (stream : ℕ) (hgo : s.remoteGoAway = false) (hs : s.streams s.nextStreamId = some stream) :
    Change s (.on .openStream) s.books.take
  | openNew (hgo : s.remoteGoAway = false) (hs : s.streams s.nextStreamId = none) :
    Change s (.on .openStream) (s.books.create s.connId s.nextStreamId).take
  | tryRead (stream size : ℕ) :
    Change s (.on (.tryRead stream size)) (s.books.set stream fun st => { st with recvBuf := st.recvBuf.drop size })
  | writeNothing (stream : ℕ) (data : Bytes) : Change s (.on (.tryWrite stream data)) s.books
  | write (stream : ℕ) (data : Bytes) (window n : UInt32) (hclosed : (s.heap stream).writeClosed = false)
    (hreset : (s.heap stream).reset = false) (hwindow : s.sendWindows (s.heap stream).id = some window) :
    Change s (.on (.tryWrite stream data)) { s.books with
      windows := Function.update s.sendWindows (s.heap stream).id (some (window - n)) }
  | closedAlready (stream : ℕ) (hclosed : (s.heap stream).writeClosed = true) :
    Change s (.on (.closeWrite stream)) s.books
  | closeWrite (stream : ℕ) (hopen : (s.heap stream).writeClosed = false) :
    Change s (.on (.closeWrite stream)) { s.books with table := s.table.closeWrite stream }
  | reset (stream : ℕ) :
    Change s (.on (.reset stream)) ((s.books.set stream YamuxStream.receiveRst).erase (s.heap stream).id)
  | noFrame (hnone : ∀ f ∈ tryParseFrame s.recvBuf, ForStream s f.1 → s.streams f.1.streamId = none) :
    Change s (.on .frame) s.books
  | frame (hdr : YamuxHeader) (payload rest : Bytes) (stream : ℕ)
    (hparse : tryParseFrame s.recvBuf = some (hdr, payload, rest)) (hfor : ForStream s hdr)
    (hs : s.streams hdr.streamId = some stream) : Change s (.on .frame) (s.books.afterFrame hdr payload stream)
  | frameNew (hdr : YamuxHeader) (payload rest : Bytes)
    (hparse : tryParseFrame s.recvBuf = some (hdr, payload, rest)) (hfor : ForStream s hdr)
    (hsyn : hasFlag hdr.flags .syn = true) (hs : s.streams hdr.streamId = none) :
    Change s (.on .frame) ((s.books.create s.connId hdr.streamId).afterFrame hdr payload s.allocated)

variable {E : Type}

/-- The next frame is taken out of the buffer and handled. -/
theorem act_frame (cb : Callbacks E) {h : Host E} {hdr : YamuxHeader} {payload rest : Bytes}
    (hparse : tryParseFrame h.1.recvBuf = some (hdr, payload, rest)) :
    Watch.act cb .frame h = rebuffer rest (handleFrame cb hdr payload h) := by
  rw [← handleFrame_rebuffer]
  unfold Watch.act
  rw [hparse]
  rfl

theorem act_books (cb : Callbacks E) (a : Watch.Action) (h : Host E) :
    Change h.1 (.on a) (Watch.act cb a h).1.books := by
  cases a with
  | arrive data => exact .arrive data
  | openStream =>
    cases hgo : h.1.remoteGoAway with
    | true =>
      have hsame : (Watch.act cb .openStream h).1.books = h.1.books :=
        congrArg (fun r : Result ℕ × Host E => r.2.1.books) (openStream_refused cb hgo)
      rw [hsame]
      exact .openRefused hgo
    | false =>
      cases hs : h.1.streams h.1.nextStreamId with
      | some stream =>
        have hreused : (Watch.act cb .openStream h).1.books = _ := openStream_reused cb hgo hs
        rw [hreused]
        exact .openReused stream hgo hs
      | none =>
        have hnew : (Watch.act cb .openStream h).1.books = _ := openStream_new cb hgo hs
        rw [hnew]
        exact .openNew hgo hs
  | tryRead stream size =>
    have hread : (Watch.act cb (.tryRead stream size) h).1.books = _ := tryRead_books cb stream size h
    rw [hread]
    exact .tryRead stream size
  | tryWrite stream data =>
    rcases tryWrite_books cb stream data h with hsame | ⟨window, n, hclosed, hreset, hwindow, hdebit⟩
    · have hact : (Watch.act cb (.tryWrite stream data) h).1.books = _ := hsame
      rw [hact]
      exact .writeNothing stream data
    · have hact : (Watch.act cb (.tryWrite stream data) h).1.books = _ := hdebit
      rw [hact]
      exact .write stream data window n hclosed hreset hwindow
  | closeWrite stream =>
    have hact : (Watch.act cb (.closeWrite stream) h).1.books = _ := closeWrite_books cb stream h
    rw [hact]
    cases hclosed : (h.1.heap stream).writeClosed with
    | true => exact .closedAlready stream hclosed
    | false => exact .closeWrite stream hclosed
  | reset stream =>
    have hact : (Watch.act cb (.reset stream) h).1.books = _ := reset_books cb stream h
    rw [hact]
    exact .reset stream
  | frame =>
    cases hparse : tryParseFrame h.1.recvBuf with
    | none =>
      have hact : Watch.act cb .frame h = h := by
        unfold Watch.act
        rw [hparse]
      rw [hact]
      exact .noFrame (by simp [hparse])
    | some frame =>
      obtain ⟨hdr, payload, rest⟩ := frame
      rw [act_frame cb hparse]
      show Change h.1 (.on .frame) (handleFrame cb hdr payload h).1.books
      by_cases hfor : ForStream h.1 hdr
      · cases hs : h.1.streams hdr.streamId with
        | some stream =>
          rw [handleFrame_held_eq cb hdr payload h hfor hs, applyFrame_books]
          exact .frame hdr payload rest stream hparse hfor hs
        | none =>
          cases hsyn : hasFlag hdr.flags .syn with
          | false =>
            rw [handleFrame_unknown_eq cb hdr payload h hfor hs hsyn]
            exact .noFrame (by simp [hparse, hs])
          | true =>
            rw [handleFrame_new_eq cb hdr payload h hfor hs hsyn, applyFrame_books, acceptStream_books]
            exact .frameNew hdr payload rest hparse hfor hsyn hs
      · rw [handleFrame_other_books cb hdr payload h hfor]
        exact .noFrame (by simp [hparse, hfor])

theorem step_books (cb : Callbacks E) (h : Host E) (call : Call) :
    Change h.1 call (call.step cb h).1.books := by
  cases call with
  | on a => exact act_books cb a h
  | drainOutgoing => exact .drain

/-- A call of `receive` is a run: the bytes arrive, and the loop of `process_frames` takes
    frames out of the buffer. -/
theorem receive_calls (cb : Callbacks E) (data : Bytes) (h : Host E) :
    (receive cb data h).2 = Runs.final (Call.step cb) h
      (.on (.arrive data) :: List.replicate (h.1.recvBuf ++ data).length (.on .frame)) := by
  show processFramesLoop cb (h.1.recvBuf ++ data).length _ = _
  rw [processFramesLoop_eq_run]
  show _ = List.foldl _ _ (List.replicate _ _)
  rw [← List.map_replicate, List.foldl_map]
  rfl

end PeerCore.Yamux
