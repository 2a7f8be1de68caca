import PeerCore.Lib.Runs
import PeerCore.Yamux.Message
import PeerCore.Yamux.Terminal

/-!
# The close callback of a Yamux session

`Watch` is a session next to the streams its close callback was invoked for and
the streams that became terminal. Its actions are the received bytes, the frames
`process_frames` takes out of them, and the calls of the owner.

* `receive_eq_run`: a call of `receive` is a run of such actions.
* `step_effect`: what an action does to the streams, and how often it invokes the
  close callback.
* `closed_once_iff`: the runs in which every stream that becomes terminal is
  announced exactly once are the ones whose steps are all `Announced`.
-/

namespace PeerCore.Yamux

open YamuxSession

/-! ## Watching the close callback -/

section Watch

variable {E : Type}

/-- The callbacks, with a record of the ids the close callback is given. -/
def Callbacks.watched (cb : Callbacks E) : Callbacks (E × List StreamId) where
  accept := cb.accept.map fun accept stream sid e => (accept stream sid e.1, e.2)
  outgoing := cb.outgoing.map fun outgoing sendBuf e =>
    let (r, sendBuf, env) := outgoing sendBuf e.1
    (r, sendBuf, env, e.2)
  close := some fun sid detail e =>
    ((cb.close.map fun close => close sid detail e.1).getD e.1, e.2 ++ [sid])

/-- A session with its environment and the ids given to the close callback; the
    streams that callback was invoked for, once for each invocation; and the streams
    that were open and became terminal other than by their own `reset`. -/
structure Watch (E : Type) where
  host : Host (E × List StreamId)
  notified : List ℕ := []
  ended : List ℕ := []

namespace Watch

/-- What can happen to a session. `arrive` appends received bytes to `recv_buf_`
    and `frame` is one iteration of the loop of `process_frames`. -/
inductive Action
  | arrive (data : Bytes)
  | frame
  | openStream
  | tryRead (stream size : ℕ)
  | tryWrite (stream : ℕ) (data : Bytes)
  | closeWrite (stream : ℕ)
  | reset (stream : ℕ)
  deriving DecidableEq

/-- The effect of an action on the session and its environment. -/
def act (cb : Callbacks E) (a : Action) (h : Host E) : Host E :=
  match a with
  | .arrive data => ({ h.1 with recvBuf := h.1.recvBuf ++ data }, h.2)
  | .frame =>
    match tryParseFrame h.1.recvBuf with
    | none => h
    | some (hdr, payload, rest) => handleFrame cb hdr payload ({ h.1 with recvBuf := rest }, h.2)
  | .openStream => (Yamux.openStream cb h).2
  | .tryRead stream size => (Yamux.tryRead cb stream size h).2
  | .tryWrite stream data => (Yamux.tryWrite cb stream data h).2
  | .closeWrite stream => (Yamux.closeWrite cb stream h).2
  | .reset stream => (Yamux.reset cb stream h).2

/-- The stream of the next frame: the one the table has for its id, or else the one
    that is made for it. -/
def subject (s : YamuxSession) : ℕ :=
  match tryParseFrame s.recvBuf with
  | none => s.allocated
  | some (hdr, _, _) => (s.streams hdr.streamId).getD s.allocated

/-- One action. Only a frame invokes the close callback (`step_effect`), and the
    stream it does so for is the one of that frame. -/
def step (cb : Callbacks E) (w : Watch E) (a : Action) : Watch E :=
  let host := act cb.watched a w.host
  { host
    notified := w.notified ++
      (host.2.2.drop w.host.2.2.length).map fun _ => subject w.host.1
    ended := w.ended ++ (List.range host.1.allocated).filter fun stream =>
      (w.host.1.heap stream).isOpen && !(host.1.heap stream).isOpen && decide (a ≠ .reset stream) }

/-- The owner has only handles the session gave out. -/
def Enabled (w : Watch E) : Action → Prop
  | .tryRead stream _ | .tryWrite stream _ | .closeWrite stream | .reset stream =>
    stream < w.host.1.allocated
  | .arrive _ | .frame | .openStream => True

instance (w : Watch E) : ∀ a : Action, Decidable (w.Enabled a)
  | .tryRead _ _ | .tryWrite _ _ | .closeWrite _ | .reset _ => inferInstanceAs (Decidable (_ < _))
  | .arrive _ | .frame | .openStream => inferInstanceAs (Decidable True)

/-- The close callback was invoked exactly once for every stream that became
    terminal. -/
def NotifiedOnce (w : Watch E) : Prop := ∀ stream ∈ w.ended, w.notified.count stream = 1

instance (w : Watch E) : Decidable w.NotifiedOnce := inferInstanceAs (Decidable (∀ _ ∈ _, _ = _))

/-- A new session. -/
def make (connId : ConnectionId) (isClient : Bool) (env : E) : Watch E :=
  { host := (.make connId isClient, env, []) }

end Watch

/-! ## What an action does to the streams -/

/-- The streams of a session. -/
structure Table where
  heap : ℕ → YamuxStream
  allocated : ℕ
  streams : StreamId → Option ℕ

namespace Table

/-- A stream is changed. -/
def set (t : Table) (stream : ℕ) (f : YamuxStream → YamuxStream) : Table :=
  { t with heap := Function.update t.heap stream (f (t.heap stream)) }

/-- A stream is made, with an entry. -/
def create (t : Table) (connId : ConnectionId) (sid : StreamId) : Table where
  heap := Function.update t.heap t.allocated { id := sid, connId }
  allocated := t.allocated + 1
  streams := Function.update t.streams sid (some t.allocated)

/-- An entry is erased. -/
def erase (t : Table) (sid : StreamId) : Table :=
  { t with streams := Function.update t.streams sid none }

/-- `close_write` of a handle also marks the stream that the table has for its id. -/
def closeWrite (t : Table) (stream : ℕ) : Table :=
  { t with
    heap := fun other =>
      if other = stream ∨ t.streams (t.heap stream).id = some other
      then (t.heap other).closeLocalWrite else t.heap other }

theorem set_set (t : Table) (stream : ℕ) (f g : YamuxStream → YamuxStream) :
    (t.set stream f).set stream g = t.set stream fun st => g (f st) := by
  simp [set]

theorem closeWrite_alone {t : Table} {stream : ℕ} (h : t.streams (t.heap stream).id = none) :
    t.closeWrite stream = t.set stream YamuxStream.closeLocalWrite := by
  simp only [closeWrite, set, mk.injEq, and_true]
  funext other
  by_cases hother : other = stream
  · simp [hother]
  · simp [hother, h]

theorem closeWrite_both {t : Table} {stream stream' : ℕ}
    (h : t.streams (t.heap stream).id = some stream') : t.closeWrite stream =
      (t.set stream YamuxStream.closeLocalWrite).set stream' YamuxStream.closeLocalWrite := by
  simp only [closeWrite, set, mk.injEq, and_true]
  funext other
  by_cases hsecond : other = stream'
  · subst hsecond
    rw [if_pos (.inr h), Function.update_self]
    -- closing twice is closing once
    by_cases hother : other = stream
    · subst hother
      rw [Function.update_self]
      rfl
    · rw [Function.update_of_ne hother]
  · rw [Function.update_of_ne hsecond]
    by_cases hother : other = stream
    · simp [hother]
    · rw [if_neg (by simp [hother, h, Ne.symm hsecond]), Function.update_of_ne hother]

end Table

/-- The streams of a session. -/
def YamuxSession.table (s : YamuxSession) : Table :=
  { heap := s.heap, allocated := s.allocated, streams := s.streams }

/-- The streams of a session and the calls of its close callback. -/
structure Seen where
  table : Table
  calls : List StreamId

/-- What a session with recorded notifications shows. -/
def seen (h : Host (E × List StreamId)) : Seen := ⟨h.1.table, h.2.2⟩

variable (cb : Callbacks E)

theorem runOutgoing_seen (h : Host (E × List StreamId)) :
    seen (runOutgoing cb.watched h).2 = seen h := by
  unfold runOutgoing Callbacks.watched
  cases cb.outgoing <;> rfl

theorem sendFrame_seen (hdr : YamuxHeader) (payload : Bytes) (h : Host (E × List StreamId)) :
    seen (sendFrame cb.watched hdr payload h).2 = seen h :=
  runOutgoing_seen cb (h.1.writeFrame hdr payload, h.2)

theorem updateReceiveWindow_seen (sid : StreamId) (delta : ℕ) (h : Host (E × List StreamId)) :
    seen (updateReceiveWindow cb.watched sid delta h).2 = seen h := by
  unfold updateReceiveWindow
  split_ifs
  · rfl
  · exact sendFrame_seen cb _ _ h

/-- What follows a call of the outgoing callback does not touch the session. -/
theorem runOutgoing_bind_seen {α : Type} (a : α) (h : Host (E × List StreamId)) :
    seen ((runOutgoing cb.watched >>= fun _ => (pure a : Op (Host (E × List StreamId)) α)) h).2 =
      seen h := by
  rw [← runOutgoing_seen cb h, Op.bind_apply]
  rcases runOutgoing cb.watched h with ⟨_ | _, _⟩ <;> rfl

theorem openStream_seen (h : Host (E × List StreamId)) :
    seen (Yamux.openStream cb.watched h).2 = seen h ∨
      ∃ sid, h.1.streams sid = none ∧
        seen (Yamux.openStream cb.watched h).2 =
          { seen h with table := (seen h).table.create h.1.connId sid } := by
  unfold openStream
  rw [Op.bind_apply, Op.get_apply]
  dsimp only
  split_ifs
  · exact .inl rfl
  · unfold sendFrame
    cases hs : h.1.streams h.1.nextStreamId with
    | some stream =>
      simp only [getOrCreateStream, hs]
      exact .inl (runOutgoing_bind_seen cb _ _)
    | none =>
      simp only [getOrCreateStream, hs, if_true]
      exact .inr ⟨h.1.nextStreamId, hs, runOutgoing_bind_seen cb _ _⟩

theorem tryWrite_seen (stream : ℕ) (data : Bytes) (h : Host (E × List StreamId)) :
    seen (Yamux.tryWrite cb.watched stream data h).2 = seen h := by
  unfold tryWrite
  rw [Op.bind_apply, Op.get_apply]
  dsimp only
  split_ifs
  · rfl
  · unfold writeStreamData
    rw [Op.bind_apply, Op.get_apply]
    dsimp only
    cases h.1.sendWindows _ with
    | none => rfl
    | some window =>
      dsimp only
      split_ifs
      · rfl
      · exact runOutgoing_bind_seen cb _ _

/-- The read of a stream with an empty buffer takes nothing from it. -/
theorem tryRead_seen (stream size : ℕ) (h : Host (E × List StreamId)) :
    seen (Yamux.tryRead cb.watched stream size h).2 =
      { seen h with table := (seen h).table.set stream fun st =>
        { st with recvBuf := st.recvBuf.drop size } } := by
  unfold tryRead
  rw [Op.bind_apply, Op.get_apply]
  dsimp only
  by_cases hempty : (h.1.heap stream).recvBuf = []
  · have hsame : (seen h).table.set stream (fun st => { st with recvBuf := st.recvBuf.drop size }) =
        (seen h).table := by
      have hst : { h.1.heap stream with recvBuf := (h.1.heap stream).recvBuf.drop size } =
          h.1.heap stream := by
        rw [hempty, List.drop_nil, ← hempty]
      simp only [Table.set, seen, YamuxSession.table, hst, Function.update_eq_self]
    rw [if_pos hempty, hsame]
    split_ifs <;> rfl
  · rw [if_neg hempty]
    exact updateReceiveWindow_seen cb _ _ _

theorem closeWrite_seen (stream : ℕ) (h : Host (E × List StreamId)) :
    seen (Yamux.closeWrite cb.watched stream h).2 =
      if (h.1.heap stream).writeClosed then seen h
      else { seen h with table := (seen h).table.closeWrite stream } := by
  unfold closeWrite
  rw [Op.bind_apply, Op.get_apply]
  dsimp only
  split_ifs
  · rfl
  · unfold closeStreamWrite
    refine (runOutgoing_seen cb _).trans ?_
    dsimp only
    split
    · rename_i stream' hs
      rw [Table.closeWrite_both (t := (seen h).table) hs]
      rfl
    · rename_i hs
      rw [Table.closeWrite_alone (t := (seen h).table) hs]
      rfl

theorem reset_seen (stream : ℕ) (h : Host (E × List StreamId)) :
    seen (Yamux.reset cb.watched stream h).2 =
      { seen h with table :=
        ((seen h).table.set stream YamuxStream.receiveRst).erase (h.1.heap stream).id } :=
  runOutgoing_seen cb _

/-! ## What a frame does to its stream -/

/-- `handle_frame` goes on to the stream part. -/
def ForStream (s : YamuxSession) (hdr : YamuxHeader) : Prop :=
  hdr.version = yamuxVersion ∧
    (hdr.type = YamuxType.data.value ∨ hdr.type = YamuxType.windowUpdate.value) ∧
    hdr.streamId ≠ 0 ∧ (hasFlag hdr.flags .syn = true → s.isRemoteStreamId hdr.streamId = true)

instance (s : YamuxSession) (hdr : YamuxHeader) : Decidable (ForStream s hdr) :=
  inferInstanceAs (Decidable (_ ∧ _ ∧ _ ∧ (_ → _)))

/-- A stream after the payload and the FIN of a frame. -/
def YamuxStream.afterFin (hdr : YamuxHeader) (payload : Bytes) (st : YamuxStream) : YamuxStream :=
  if hasFlag hdr.flags .fin then (st.receiveData payload).receiveFin else st.receiveData payload

/-- A stream after a frame. -/
def YamuxStream.afterFrame (hdr : YamuxHeader) (payload : Bytes) (st : YamuxStream) : YamuxStream :=
  if hasFlag hdr.flags .rst then (st.afterFin hdr payload).receiveRst else st.afterFin hdr payload

/-- The streams after a frame for `stream`. -/
def Table.afterFrame (hdr : YamuxHeader) (payload : Bytes) (stream : ℕ) (t : Table) : Table :=
  if hasFlag hdr.flags .rst then (t.set stream (·.afterFrame hdr payload)).erase hdr.streamId
  else t.set stream (·.afterFrame hdr payload)

@[simp] theorem Table.afterFrame_heap (hdr : YamuxHeader) (payload : Bytes) (stream : ℕ) (t : Table) :
    (t.afterFrame hdr payload stream).heap =
      Function.update t.heap stream ((t.heap stream).afterFrame hdr payload) := by
  unfold afterFrame
  split_ifs <;> rfl

@[simp] theorem Table.afterFrame_allocated (hdr : YamuxHeader) (payload : Bytes) (stream : ℕ)
    (t : Table) : (t.afterFrame hdr payload stream).allocated = t.allocated := by
  unfold afterFrame
  split_ifs <;> rfl

/-- A RST takes the id of its frame out of the table. -/
theorem Table.afterFrame_streams {hdr : YamuxHeader} {payload : Bytes} {stream other : ℕ} {t : Table}
    {sid : StreamId} (h : (t.afterFrame hdr payload stream).streams sid = some other) :
    t.streams sid = some other ∧ (hasFlag hdr.flags .rst = true → sid ≠ hdr.streamId) := by
  unfold afterFrame at h
  by_cases hrst : hasFlag hdr.flags .rst = true
  · rw [if_pos hrst] at h
    change Function.update t.streams hdr.streamId none sid = some other at h
    by_cases hsid : sid = hdr.streamId
    · rw [hsid, Function.update_self] at h
      cases h
    · rw [Function.update_of_ne hsid] at h
      exact ⟨h, fun _ => hsid⟩
  · rw [if_neg hrst] at h
    exact ⟨h, fun hflag => absurd hflag hrst⟩

/-- How often a frame invokes the close callback for its stream. -/
def YamuxStream.closeCalls (hdr : YamuxHeader) (payload : Bytes) (st : YamuxStream) : ℕ :=
  (if hasFlag hdr.flags .fin ∧ (st.afterFin hdr payload).isOpen = false then 1 else 0) +
    if hasFlag hdr.flags .rst then 1 else 0

theorem creditWindow_seen (sid : StreamId) (delta : UInt32) (h : Host (E × List StreamId)) :
    seen (h.1.creditWindow sid delta, h.2) = seen h := by
  unfold creditWindow
  cases h.1.sendWindows sid <;> rfl

theorem runClose_seen (sid : StreamId) (detail : String) (h : Host (E × List StreamId)) :
    seen (runClose cb.watched sid detail h) = { seen h with calls := (seen h).calls ++ [sid] } := rfl

theorem setStream_seen (stream : ℕ) (f : YamuxStream → YamuxStream) (h : Host (E × List StreamId)) :
    seen (h.1.setStream stream f, h.2) = { seen h with table := (seen h).table.set stream f } := rfl

theorem applyFrame_seen (hdr : YamuxHeader) (payload : Bytes) (stream : ℕ)
    (h : Host (E × List StreamId)) :
    seen (applyFrame cb.watched hdr payload stream h) =
      { table := (seen h).table.afterFrame hdr payload stream
        calls := h.2.2 ++
          List.replicate ((h.1.heap stream).closeCalls hdr payload) hdr.streamId } := by
  unfold applyFrame
  extract_lets h₁ h₂ fin h₃ rst closed
  have hcredit : seen h₁ = seen h := by
    unfold h₁
    split_ifs
    · exact creditWindow_seen _ _ h
    · rfl
  have hdata : seen h₂ = ⟨(seen h).table.set stream (·.receiveData payload), h.2.2⟩ := by
    unfold h₂
    split_ifs with hpayload
    · rw [setStream_seen, hcredit]
      rfl
    · rw [hcredit, not_not.mp hpayload]
      simp [seen, YamuxSession.table, Table.set, YamuxStream.receiveData]
  have hst : seen fin =
      ⟨(seen h).table.set stream fun st => (st.receiveData payload).receiveFin, h.2.2⟩ := by
    rw [setStream_seen, hdata, Table.set_set]
  have hheap : fin.1.heap stream = ((h.1.heap stream).receiveData payload).receiveFin := by
    have hset := congrArg (fun s => s.table.heap stream) hst
    simpa [seen, YamuxSession.table, Table.set] using hset
  have hfin : seen h₃ = ⟨(seen h).table.set stream (·.afterFin hdr payload), h.2.2 ++
      List.replicate (if hasFlag hdr.flags .fin ∧
        ((h.1.heap stream).afterFin hdr payload).isOpen = false then 1 else 0) hdr.streamId⟩ := by
    unfold h₃ YamuxStream.afterFin
    by_cases hflag : hasFlag hdr.flags .fin = true
    · simp only [hflag, if_true, true_and, hheap]
      by_cases hopen : (((h.1.heap stream).receiveData payload).receiveFin).isOpen = true
      · simp [hopen, hst]
      · rw [if_neg hopen, runClose_seen, hst]
        simp [hopen]
    · simp [hflag, hdata]
  unfold Table.afterFrame YamuxStream.afterFrame YamuxStream.closeCalls
  by_cases hflag : hasFlag hdr.flags .rst = true
  · have hrst : seen rst = ⟨(seen h).table.set stream fun st => (st.afterFin hdr payload).receiveRst,
        (seen h₃).calls⟩ := by
      rw [setStream_seen, hfin, Table.set_set]
    have hclosed : seen closed = { seen rst with calls := (seen rst).calls ++ [hdr.streamId] } :=
      runClose_seen cb _ _ rst
    rw [if_pos hflag]
    simp only [hflag, if_true]
    change Seen.mk ((seen closed).table.erase hdr.streamId) (seen closed).calls = _
    rw [hclosed, hrst, hfin, List.replicate_add, List.append_assoc]
    rfl
  · rw [if_neg hflag, hfin]
    simp only [hflag, if_false, Bool.false_eq_true, Nat.add_zero]

theorem acceptStream_seen (stream : ℕ) (sid : StreamId) (h : Host (E × List StreamId)) :
    seen (acceptStream cb.watched stream sid h) = seen h := by
  unfold acceptStream Callbacks.watched
  cases cb.accept with
  | none => exact sendFrame_seen cb _ _ h
  | some accept => exact sendFrame_seen cb _ _ (h.1, accept stream sid h.2.1, h.2.2)

variable (hdr : YamuxHeader) (payload : Bytes) (h : Host (E × List StreamId))

theorem handleFrame_other (hother : ¬ ForStream h.1 hdr) :
    seen (handleFrame cb.watched hdr payload h) = seen h := by
  unfold handleFrame
  dsimp only
  split_ifs with hversion hping hack hgo hkind hlocal
  · rfl
  · rfl
  · exact sendFrame_seen cb _ _ h
  · rfl
  · rfl
  · exact sendFrame_seen cb _ _ h
  all_goals
    refine absurd ⟨not_not.mp hversion, ?_, ?_, fun hsyn => ?_⟩ hother
    · exact not_not.mp fun h => hkind (.inl h)
    · exact fun h => hkind (.inr h)
    · simpa [hsyn] using hlocal

/-- The stream part of `handle_frame`. -/
theorem handleFrame_forStream (hfor : ForStream h.1 hdr) :
    handleFrame cb.watched hdr payload h =
      match h.1.getOrCreateStream hdr.streamId (hasFlag hdr.flags .syn) with
      | (none, s) => (s, h.2)
      | (some stream, s) =>
        applyFrame cb.watched hdr payload stream
          (if hasFlag hdr.flags .syn && !(h.1.streams hdr.streamId).isSome
            then acceptStream cb.watched stream hdr.streamId (s, h.2) else (s, h.2)) := by
  obtain ⟨hversion, hkind, hid, hremote⟩ := hfor
  have hping : hdr.type ≠ YamuxType.ping.value := by
    rcases hkind with hkind | hkind <;> rw [hkind] <;> decide
  have hgo : hdr.type ≠ YamuxType.goAway.value := by
    rcases hkind with hkind | hkind <;> rw [hkind] <;> decide
  have hlocal : ¬ (hasFlag hdr.flags .syn && !h.1.isRemoteStreamId hdr.streamId) = true := by
    cases hsyn : hasFlag hdr.flags .syn
    · simp
    · simp [hremote hsyn]
  unfold handleFrame
  have hstream : ¬ (¬ (hdr.type = YamuxType.data.value ∨ hdr.type = YamuxType.windowUpdate.value) ∨
      hdr.streamId = 0) := by tauto
  exact (if_neg (not_not.mpr hversion)).trans ((if_neg hping).trans ((if_neg hgo).trans
    ((if_neg hstream).trans (if_neg hlocal))))

theorem handleFrame_held {stream : ℕ} (hfor : ForStream h.1 hdr)
    (hs : h.1.streams hdr.streamId = some stream) :
    seen (handleFrame cb.watched hdr payload h) =
      ⟨(seen h).table.afterFrame hdr payload stream, h.2.2 ++
        List.replicate ((h.1.heap stream).closeCalls hdr payload) hdr.streamId⟩ := by
  rw [handleFrame_forStream cb hdr payload h hfor, getOrCreateStream, hs]
  simp only [Option.isSome_some, Bool.not_true, Bool.and_false, Bool.false_eq_true, if_false]
  exact applyFrame_seen cb hdr payload stream h

theorem handleFrame_unknown (hfor : ForStream h.1 hdr) (hs : h.1.streams hdr.streamId = none)
    (hsyn : hasFlag hdr.flags .syn = false) : seen (handleFrame cb.watched hdr payload h) = seen h := by
  rw [handleFrame_forStream cb hdr payload h hfor, getOrCreateStream, hs]
  simp only [hsyn, Bool.false_eq_true, if_false]

theorem handleFrame_new (hfor : ForStream h.1 hdr) (hs : h.1.streams hdr.streamId = none)
    (hsyn : hasFlag hdr.flags .syn = true) :
    seen (handleFrame cb.watched hdr payload h) =
      ⟨((seen h).table.create h.1.connId hdr.streamId).afterFrame hdr payload h.1.allocated, h.2.2 ++
        List.replicate (YamuxStream.closeCalls hdr payload { id := hdr.streamId, connId := h.1.connId })
          hdr.streamId⟩ := by
  rw [handleFrame_forStream cb hdr payload h hfor, getOrCreateStream, hs]
  simp only [hsyn, if_true, Option.isSome_none, Bool.not_false, Bool.and_self]
  have hnew := acceptStream_seen cb h.1.allocated hdr.streamId (h.1.createStream hdr.streamId, h.2)
  have hheap : (acceptStream cb.watched h.1.allocated hdr.streamId
      (h.1.createStream hdr.streamId, h.2)).1.heap h.1.allocated =
        { id := hdr.streamId, connId := h.1.connId } := by
    have hset := congrArg (fun s => s.table.heap h.1.allocated) hnew
    simpa [seen, YamuxSession.table, createStream] using hset
  have hcalls := congrArg Seen.calls hnew
  rw [applyFrame_seen, hnew, hheap]
  exact congrArg (Seen.mk _) (congrArg (· ++ _) hcalls)

/-! ## One action -/

namespace Watch

/-- What an action does to the streams of a session, and how often it invokes the
    close callback. -/
inductive Effect (s : YamuxSession) : Action → Table → ℕ → Prop
  | arrive (data : Bytes) : Effect s (.arrive data) s.table 0
  | tryWrite (stream : ℕ) (data : Bytes) : Effect s (.tryWrite stream data) s.table 0
  | openNone : Effect s .openStream s.table 0
  | openNew (sid : StreamId) (hs : s.streams sid = none) :
    Effect s .openStream (s.table.create s.connId sid) 0
  | tryRead (stream size : ℕ) :
    Effect s (.tryRead stream size)
      (s.table.set stream fun st => { st with recvBuf := st.recvBuf.drop size }) 0
  | closedAlready (stream : ℕ) (hclosed : (s.heap stream).writeClosed = true) :
    Effect s (.closeWrite stream) s.table 0
  | closeWrite (stream : ℕ) (hopen : (s.heap stream).writeClosed = false) :
    Effect s (.closeWrite stream) (s.table.closeWrite stream) 0
  | reset (stream : ℕ) :
    Effect s (.reset stream)
      ((s.table.set stream YamuxStream.receiveRst).erase (s.heap stream).id) 0
  | noFrame (hnone : ∀ f ∈ tryParseFrame s.recvBuf, ForStream s f.1 → s.streams f.1.streamId = none) :
    Effect s .frame s.table 0
  | frame (hdr : YamuxHeader) (payload rest : Bytes) (stream : ℕ)
    (hparse : tryParseFrame s.recvBuf = some (hdr, payload, rest)) (hfor : ForStream s hdr)
    (hs : s.streams hdr.streamId = some stream) :
    Effect s .frame (s.table.afterFrame hdr payload stream)
      ((s.heap stream).closeCalls hdr payload)
  | frameNew (hdr : YamuxHeader) (payload rest : Bytes)
    (hparse : tryParseFrame s.recvBuf = some (hdr, payload, rest)) (hfor : ForStream s hdr)
    (hs : s.streams hdr.streamId = none) :
    Effect s .frame ((s.table.create s.connId hdr.streamId).afterFrame hdr payload s.allocated)
      (YamuxStream.closeCalls hdr payload { id := hdr.streamId, connId := s.connId })

theorem act_effect (a : Action) (h : Host (E × List StreamId)) :
    ∃ t n sid, Effect h.1 a t n ∧ seen (act cb.watched a h) = ⟨t, h.2.2 ++ List.replicate n sid⟩ := by
  have hquiet : ∀ {h' : Host (E × List StreamId)} {t : Table}, Effect h.1 a t 0 →
      seen h' = ⟨t, h.2.2⟩ →
      ∃ t n sid, Effect h.1 a t n ∧ seen h' = ⟨t, h.2.2 ++ List.replicate n sid⟩ :=
    fun heffect hseen => ⟨_, 0, 0, heffect, by simpa using hseen⟩
  cases a with
  | arrive data => exact hquiet (.arrive data) rfl
  | tryWrite stream data => exact hquiet (.tryWrite stream data) (tryWrite_seen cb stream data h)
  | openStream =>
    rcases openStream_seen cb h with hsame | ⟨sid, hs, hnew⟩
    · exact hquiet .openNone hsame
    · exact hquiet (.openNew sid hs) hnew
  | tryRead stream size => exact hquiet (.tryRead stream size) (tryRead_seen cb stream size h)
  | closeWrite stream =>
    have hseen := closeWrite_seen cb stream h
    cases hclosed : (h.1.heap stream).writeClosed <;> rw [hclosed] at hseen
    · exact hquiet (.closeWrite stream hclosed) hseen
    · exact hquiet (.closedAlready stream hclosed) hseen
  | reset stream => exact hquiet (.reset stream) (reset_seen cb stream h)
  | frame =>
    unfold act
    cases hparse : tryParseFrame h.1.recvBuf with
    | none => exact hquiet (.noFrame (by simp [hparse])) rfl
    | some frame =>
      obtain ⟨hdr, payload, rest⟩ := frame
      let h₁ : Host (E × List StreamId) := ({ h.1 with recvBuf := rest }, h.2)
      by_cases hfor : ForStream h.1 hdr
      · cases hs : h.1.streams hdr.streamId with
        | some stream =>
          exact ⟨_, _, hdr.streamId, .frame hdr payload rest stream hparse hfor hs,
            handleFrame_held cb hdr payload h₁ hfor hs⟩
        | none =>
          cases hsyn : hasFlag hdr.flags .syn
          · refine hquiet (.noFrame ?_) (handleFrame_unknown cb hdr payload h₁ hfor hs hsyn)
            simp [hparse, hs]
          · exact ⟨_, _, hdr.streamId, .frameNew hdr payload rest hparse hfor hs,
              handleFrame_new cb hdr payload h₁ hfor hs hsyn⟩
      · refine hquiet (.noFrame ?_) (handleFrame_other cb hdr payload h₁ hfor)
        simp [hparse, hfor]

/-- What an action does to a watched session. -/
theorem step_effect (w : Watch E) (a : Action) :
    ∃ t n, Effect w.host.1 a t n ∧ (step cb w a).host.1.table = t ∧
      (step cb w a).notified = w.notified ++ List.replicate n (subject w.host.1) := by
  obtain ⟨t, n, sid, heffect, hseen⟩ := act_effect cb a w.host
  refine ⟨t, n, heffect, congrArg Seen.table hseen, ?_⟩
  have hcalls : (act cb.watched a w.host).2.2 = w.host.2.2 ++ List.replicate n sid :=
    congrArg Seen.calls hseen
  simp only [step, hcalls, List.drop_left, List.map_replicate]

/-- A stream becomes terminal in a step other than its own `reset`. -/
theorem mem_ended_step {w : Watch E} {a : Action} {stream : ℕ} :
    stream ∈ (step cb w a).ended ↔ stream ∈ w.ended ∨
      stream < (step cb w a).host.1.allocated ∧ (w.host.1.heap stream).isOpen = true ∧
        ((step cb w a).host.1.heap stream).isOpen = false ∧ a ≠ .reset stream := by
  simp [step, and_assoc]

/-! ## The steps that announce what they close -/

/-- The FIN of a frame closes a stream that is closed for writing and empty. -/
def FinCloses (hdr : YamuxHeader) (payload : Bytes) (st : YamuxStream) : Prop :=
  hasFlag hdr.flags .fin = true ∧ st.writeClosed = true ∧ st.recvBuf = [] ∧ payload = []

instance (hdr : YamuxHeader) (payload : Bytes) (st : YamuxStream) :
    Decidable (FinCloses hdr payload st) := inferInstanceAs (Decidable (_ ∧ _ ∧ _ ∧ _))

/-- An action that makes a stream terminal is a frame, with only one of FIN and RST
    to do so, and the stream was not terminal before. -/
def Announced (w : Watch E) : Action → Prop
  | .frame => ∀ f ∈ tryParseFrame w.host.1.recvBuf, ForStream w.host.1 f.1 →
      ∀ stream ∈ w.host.1.streams f.1.streamId,
        (FinCloses f.1 f.2.1 (w.host.1.heap stream) →
          stream ∉ w.ended ∧ hasFlag f.1.flags .rst = false) ∧
        (hasFlag f.1.flags .rst = true → stream ∉ w.ended)
  | .tryRead stream size =>
    let st := w.host.1.heap stream
    st.readClosed = true → st.writeClosed = true → st.recvBuf ≠ [] → st.recvBuf.length ≤ size →
      stream ∈ w.ended
  | .closeWrite stream => (w.host.1.heap stream).writeClosed = false →
      ((w.host.1.heap stream).readClosed = true → (w.host.1.heap stream).recvBuf ≠ []) ∧
        ∀ other ∈ w.host.1.streams (w.host.1.heap stream).id,
          (w.host.1.heap other).writeClosed = false → (w.host.1.heap other).readClosed = true →
            (w.host.1.heap other).recvBuf ≠ []
  | .arrive _ | .openStream | .tryWrite _ _ | .reset _ => True

instance (w : Watch E) : ∀ a : Action, Decidable (w.Announced a)
  | .frame => inferInstanceAs (Decidable (∀ _ ∈ _, _ → ∀ _ ∈ _, _))
  | .tryRead _ _ => inferInstanceAs (Decidable (_ → _ → _ → _ → _))
  | .closeWrite _ => inferInstanceAs (Decidable (_ → _ ∧ ∀ _ ∈ _, _ → _ → _))
  | .arrive _ | .openStream | .tryWrite _ _ | .reset _ => inferInstanceAs (Decidable True)

/-- One stream: whether it became terminal, and how often the close callback was
    invoked for it. -/
structure Tally (st : YamuxStream) (ended : Prop) (count : ℕ) : Prop where
  cleared : st.reset = true → st.recvBuf = [] ∧ st.writeClosed = true
  known : st.isOpen = false → ended ∨ st.reset = true
  shut : ended → st.writeClosed = true
  once : ended → count = 1
  never : ¬ ended → count = 0

/-- The table of a session, and the notifications for each of its streams. -/
structure Tallied (w : Watch E) : Prop where
  table : ∀ sid stream, w.host.1.streams sid = some stream →
    stream < w.host.1.allocated ∧ (w.host.1.heap stream).id = sid ∧
      (w.host.1.heap stream).reset = false
  fresh : ∀ stream, w.host.1.allocated ≤ stream → w.host.1.heap stream = {}
  stream : ∀ stream, Tally (w.host.1.heap stream) (stream ∈ w.ended) (w.notified.count stream)

theorem Tallied.notifiedOnce {w : Watch E} (h : w.Tallied) : w.NotifiedOnce :=
  fun stream hended => (h.stream stream).once hended

theorem make_tallied (connId : ConnectionId) (isClient : Bool) (env : E) :
    (make connId isClient env).Tallied where
  table := nofun
  fresh := fun _ _ => rfl
  stream := fun _ => ⟨nofun, nofun, nofun, nofun, fun _ => rfl⟩

variable {cb} {w : Watch E} {a : Action}

/-- A stream that the action does not touch. -/
theorem Tallied.untouched (hw : w.Tallied) {stream : ℕ}
    (hheap : (step cb w a).host.1.heap stream = w.host.1.heap stream)
    (hcount : (step cb w a).notified.count stream = w.notified.count stream) :
    Tally ((step cb w a).host.1.heap stream) (stream ∈ (step cb w a).ended)
      ((step cb w a).notified.count stream) := by
  have hended : stream ∈ (step cb w a).ended ↔ stream ∈ w.ended := by
    rw [mem_ended_step, hheap]
    constructor
    · rintro (hended | ⟨-, hopen, hclosed, -⟩)
      · exact hended
      · rw [hopen] at hclosed
        cases hclosed
    · exact .inl
  rw [hheap, hcount, hended]
  exact hw.stream stream

/-- An action that changes no stream. -/
theorem Tallied.quiet (hw : w.Tallied) (htable : (step cb w a).host.1.table = w.host.1.table)
    (hcalls : (step cb w a).notified = w.notified) : (step cb w a).Tallied := by
  have hheap : (step cb w a).host.1.heap = w.host.1.heap := congrArg Table.heap htable
  have halloc : (step cb w a).host.1.allocated = w.host.1.allocated := congrArg Table.allocated htable
  have hstreams : (step cb w a).host.1.streams = w.host.1.streams := congrArg Table.streams htable
  refine ⟨?_, ?_, fun stream => hw.untouched (congrFun hheap stream) (by rw [hcalls])⟩
  · rw [hheap, halloc, hstreams]
    exact hw.table
  · rw [hheap, halloc]
    exact hw.fresh

/-- An action that changes one stream, or makes it. -/
theorem Tallied.touch (hw : w.Tallied) {stream n : ℕ} {st : YamuxStream}
    (hheap : (step cb w a).host.1.heap = Function.update w.host.1.heap stream st)
    (halloc : w.host.1.allocated ≤ (step cb w a).host.1.allocated)
    (hlt : stream < (step cb w a).host.1.allocated)
    (hstreams : ∀ sid other, (step cb w a).host.1.streams sid = some other →
      (other ≠ stream ∧ w.host.1.streams sid = some other) ∨
      (other = stream ∧ st.id = sid ∧ st.reset = false))
    (hcalls : (step cb w a).notified = w.notified ++ List.replicate n stream)
    (hreset : a ≠ .reset stream)
    (hst : Tally st
      (stream ∈ w.ended ∨ (w.host.1.heap stream).isOpen = true ∧ st.isOpen = false)
      (w.notified.count stream + n)) : (step cb w a).Tallied := by
  refine ⟨fun sid other hother => ?_, fun other hother => ?_, fun other => ?_⟩
  · rcases hstreams sid other hother with ⟨hne, hbefore⟩ | ⟨rfl, hid, hreset⟩
    · rw [hheap, Function.update_of_ne hne]
      obtain ⟨hother, hid, hreset⟩ := hw.table sid other hbefore
      exact ⟨hother.trans_le halloc, hid, hreset⟩
    · rw [hheap, Function.update_self]
      exact ⟨hlt, hid, hreset⟩
  · rw [hheap, Function.update_of_ne (by omega)]
    exact hw.fresh other (halloc.trans hother)
  · by_cases hsame : other = stream
    · subst hsame
      have hcount : (step cb w a).notified.count other = w.notified.count other + n := by
        rw [hcalls, List.count_append, List.count_replicate_self]
      simpa only [hheap, Function.update_self, mem_ended_step, hlt, hreset, hcount, true_and,
        and_true, ne_eq, not_false_eq_true] using hst
    · apply hw.untouched
      · rw [hheap, Function.update_of_ne hsame]
      · rw [hcalls, List.count_append, List.count_replicate, if_neg (by simpa using Ne.symm hsame)]
        rfl

/-! ## One stream -/

section Stream

variable {st : YamuxStream} {ended : Prop} {count : ℕ} {hdr : YamuxHeader} {payload : Bytes}

theorem Tally.isOpen (h : Tally st ended count) (hreset : st.reset = false) (hended : ¬ ended) :
    st.isOpen = true := by
  cases hopen : st.isOpen with
  | true => rfl
  | false =>
    rcases h.known hopen with hknown | hknown
    · exact absurd hknown hended
    · rw [hreset] at hknown
      cases hknown

/-- A change that makes no stream terminal for the first time. -/
theorem Tally.stays {st' : YamuxStream} (h : Tally st' ended count)
    (hkeeps : st.isOpen = true → st'.isOpen = false → ended) :
    Tally st' (ended ∨ st.isOpen = true ∧ st'.isOpen = false) count := by
  rwa [or_iff_left_of_imp fun hends => hkeeps hends.1 hends.2]

/-- A read that drains nothing, or a stream that became terminal before. -/
theorem Tally.read (h : Tally st ended count) (size : ℕ)
    (hannounced : st.readClosed = true → st.writeClosed = true → st.recvBuf ≠ [] →
      st.recvBuf.length ≤ size → ended) :
    Tally { st with recvBuf := st.recvBuf.drop size }
      (ended ∨ st.isOpen = true ∧ { st with recvBuf := st.recvBuf.drop size }.isOpen = false)
      count := by
  have hends : { st with recvBuf := st.recvBuf.drop size }.isOpen = false →
      st.isOpen = false ∨ ended := fun hclosed => by
    rw [YamuxStream.isOpen_eq_false_iff] at hclosed ⊢
    rcases hclosed with hreset | ⟨hread, hwrite, hdrop⟩
    · exact .inl (.inl hreset)
    · by_cases hempty : st.recvBuf = []
      · exact .inl (.inr ⟨hread, hwrite, hempty⟩)
      · exact .inr (hannounced hread hwrite hempty (List.drop_eq_nil_iff.mp hdrop))
  refine Tally.stays ⟨fun hreset => ?_, fun hclosed => ?_, h.shut, h.once, h.never⟩
    fun hopen hclosed => ?_
  · obtain ⟨hempty, hwrite⟩ := h.cleared hreset
    exact ⟨by simp [hempty], hwrite⟩
  · rcases hends hclosed with hbefore | hended
    · exact h.known hbefore
    · exact .inl hended
  · rcases hends hclosed with hbefore | hended
    · exact absurd (hbefore.symm.trans hopen) Bool.false_ne_true
    · exact hended

theorem afterFin_closed (hfin : hasFlag hdr.flags .fin = true) (hreset : st.reset = false) :
    (st.afterFin hdr payload).isOpen = false ↔ FinCloses hdr payload st := by
  rw [YamuxStream.isOpen_eq_false_iff]
  simp [YamuxStream.afterFin, hfin, YamuxStream.receiveFin, YamuxStream.receiveData, hreset,
    FinCloses]

/-- Without FIN, data alone closes nothing. -/
theorem afterFin_isOpen (hfin : hasFlag hdr.flags .fin = false) (hopen : st.isOpen = true) :
    (st.afterFin hdr payload).isOpen = true := by
  by_contra hclosed
  rw [Bool.not_eq_true, YamuxStream.isOpen_eq_false_iff] at hclosed
  have hbefore : st.isOpen = false := by
    rw [YamuxStream.isOpen_eq_false_iff]
    simp [YamuxStream.afterFin, hfin, YamuxStream.receiveData] at hclosed
    tauto
  rw [hopen] at hbefore
  cases hbefore

theorem closeCalls_eq (hreset : st.reset = false) : st.closeCalls hdr payload =
    (if FinCloses hdr payload st then 1 else 0) + if hasFlag hdr.flags .rst then 1 else 0 := by
  unfold YamuxStream.closeCalls
  congr 1
  by_cases hfin : hasFlag hdr.flags .fin = true
  · simp only [hfin, true_and, afterFin_closed hfin hreset]
  · have hnot : ¬ FinCloses hdr payload st := fun h => hfin h.1
    simp [hfin, hnot]

/-- A frame makes an open stream terminal if and only if its FIN closes it or it is a
    RST. -/
theorem afterFrame_closed (hreset : st.reset = false) (hopen : st.isOpen = true) :
    (st.afterFrame hdr payload).isOpen = false ↔
      FinCloses hdr payload st ∨ hasFlag hdr.flags .rst = true := by
  unfold YamuxStream.afterFrame
  by_cases hrst : hasFlag hdr.flags .rst = true
  · simp [hrst]
  · simp only [hrst, if_false, Bool.false_eq_true, or_false]
    by_cases hfin : hasFlag hdr.flags .fin = true
    · exact afterFin_closed hfin hreset
    · rw [Bool.not_eq_true] at hfin
      simp [afterFin_isOpen hfin hopen, FinCloses, hfin]

theorem afterFrame_writeClosed (hwrite : st.writeClosed = true) :
    (st.afterFrame hdr payload).writeClosed = true := by
  unfold YamuxStream.afterFrame YamuxStream.afterFin
  split_ifs
  · rfl
  · rfl
  · exact hwrite
  · exact hwrite

theorem afterFrame_reset (hreset : st.reset = false)
    (hafter : (st.afterFrame hdr payload).reset = true) : hasFlag hdr.flags .rst = true := by
  by_contra hrst
  unfold YamuxStream.afterFrame YamuxStream.afterFin at hafter
  rw [if_neg hrst] at hafter
  split_ifs at hafter
  · exact absurd (hreset.symm.trans hafter) Bool.false_ne_true
  · exact absurd (hreset.symm.trans hafter) Bool.false_ne_true

/-- A stream that is still in the table after a frame for it. -/
theorem afterFrame_entry {sid : StreamId} (hreset : st.reset = false) (hid : st.id = sid)
    (hrst : hasFlag hdr.flags .rst = false) :
    (st.afterFrame hdr payload).id = sid ∧ (st.afterFrame hdr payload).reset = false := by
  unfold YamuxStream.afterFrame YamuxStream.afterFin
  rw [if_neg (by simp [hrst])]
  split_ifs
  · exact ⟨hid, hreset⟩
  · exact ⟨hid, hreset⟩

/-- A frame for a stream in the table. -/
theorem Tally.frame (h : Tally st ended count) (hreset : st.reset = false)
    (hannounced : (FinCloses hdr payload st → ¬ ended ∧ hasFlag hdr.flags .rst = false) ∧
      (hasFlag hdr.flags .rst = true → ¬ ended)) :
    Tally (st.afterFrame hdr payload)
      (ended ∨ st.isOpen = true ∧ (st.afterFrame hdr payload).isOpen = false)
      (count + st.closeCalls hdr payload) := by
  obtain ⟨hfin, hrst⟩ := hannounced
  rw [closeCalls_eq hreset]
  refine ⟨fun hafter => ?_, fun hclosed => ?_, fun hends => ?_, fun hends => ?_, fun hends => ?_⟩
  · have hflag := afterFrame_reset hreset hafter
    rw [YamuxStream.afterFrame, if_pos hflag]
    exact ⟨rfl, rfl⟩
  · by_cases hopen : st.isOpen = true
    · exact .inl (.inr ⟨hopen, hclosed⟩)
    · rcases h.known (Bool.not_eq_true _ ▸ hopen) with hended | hbefore
      · exact .inl (.inl hended)
      · exact absurd (hreset.symm.trans hbefore) Bool.false_ne_true
  · rcases hends with hended | ⟨hopen, hclosed⟩
    · exact afterFrame_writeClosed (h.shut hended)
    · rcases (afterFrame_closed hreset hopen).mp hclosed with hcloses | hflag
      · exact afterFrame_writeClosed hcloses.2.1
      · rw [YamuxStream.afterFrame, if_pos hflag]
        rfl
  · rcases hends with hended | ⟨hopen, hclosed⟩
    · rw [h.once hended, if_neg fun hcloses => (hfin hcloses).1 hended,
        if_neg fun hflag => hrst hflag hended]
    · rcases (afterFrame_closed hreset hopen).mp hclosed with hcloses | hflag
      · obtain ⟨hended, hflag⟩ := hfin hcloses
        rw [h.never hended, if_pos hcloses, if_neg (by simp [hflag])]
      · have hcloses : ¬ FinCloses hdr payload st := fun hcloses =>
          absurd ((hfin hcloses).2.symm.trans hflag) Bool.false_ne_true
        rw [h.never (hrst hflag), if_neg hcloses, if_pos hflag]
  · rw [not_or, not_and] at hends
    have hopen := h.isOpen hreset hends.1
    have hneither := mt (afterFrame_closed hreset hopen).mpr (hends.2 hopen)
    rw [not_or] at hneither
    rw [h.never hends.1, if_neg hneither.1, if_neg hneither.2]

/-- One notification for a stream that becomes terminal: no second one for it, and only
    one of FIN and RST. -/
theorem Tally.frame_announced (h : Tally st ended count) (hreset : st.reset = false)
    (honce : ended ∨ st.isOpen = true ∧ (st.afterFrame hdr payload).isOpen = false →
      count + st.closeCalls hdr payload = 1) :
    (FinCloses hdr payload st → ¬ ended ∧ hasFlag hdr.flags .rst = false) ∧
      (hasFlag hdr.flags .rst = true → ¬ ended) := by
  rw [closeCalls_eq hreset] at honce
  have hfin : FinCloses hdr payload st → ¬ ended := fun hcloses hended => by
    have hsum := honce (.inl hended)
    rw [h.once hended, if_pos hcloses] at hsum
    omega
  have hrst : hasFlag hdr.flags .rst = true → ¬ ended := fun hflag hended => by
    have hsum := honce (.inl hended)
    rw [h.once hended, if_pos hflag] at hsum
    omega
  refine ⟨fun hcloses => ⟨hfin hcloses, ?_⟩, hrst⟩
  by_contra hflag
  rw [Bool.not_eq_false] at hflag
  have hopen := h.isOpen hreset (hfin hcloses)
  have hsum := honce (.inr ⟨hopen, (afterFrame_closed hreset hopen).mpr (.inl hcloses)⟩)
  rw [if_pos hcloses, if_pos hflag] at hsum
  omega

/-- Closing the write side of a stream whose read side is open or not drained. -/
theorem Tally.closeWrite (h : Tally st ended count)
    (hannounced : st.writeClosed = false → st.readClosed = true → st.recvBuf ≠ []) :
    Tally st.closeLocalWrite
      (ended ∨ st.isOpen = true ∧ st.closeLocalWrite.isOpen = false) count := by
  have hends : st.closeLocalWrite.isOpen = false → st.isOpen = false := fun hclosed => by
    rw [YamuxStream.isOpen_eq_false_iff] at hclosed ⊢
    rcases hclosed with hreset | ⟨hread, -, hempty⟩
    · exact .inl hreset
    · cases hwrite : st.writeClosed with
      | true => exact .inr ⟨hread, rfl, hempty⟩
      | false => exact absurd hempty (hannounced hwrite hread)
  refine Tally.stays ⟨fun hreset => ⟨(h.cleared hreset).1, rfl⟩,
    fun hclosed => h.known (hends hclosed), fun _ => rfl, h.once, h.never⟩ fun hopen hclosed => ?_
  exact absurd ((hends hclosed).symm.trans hopen) Bool.false_ne_true

end Stream

/-! ## Every step and every run -/

/-- A handle that has not been given out yet. -/
theorem Tallied.unused (hw : w.Tallied) {stream : ℕ} (hstream : w.host.1.allocated ≤ stream)
    (id : StreamId) (connId : ConnectionId) :
    stream ∉ w.ended ∧ Tally { id, connId } (stream ∈ w.ended) (w.notified.count stream) := by
  have hst := hw.stream stream
  rw [hw.fresh stream hstream] at hst
  have hended : stream ∉ w.ended := fun hended => absurd (hst.shut hended) Bool.false_ne_true
  exact ⟨hended, nofun, nofun, fun hended' => absurd hended' hended, hst.once, hst.never⟩

theorem Tallied.create_streams (hw : w.Tallied) {connId : ConnectionId} {sid sid' : StreamId} {other : ℕ}
    (h : (w.host.1.table.create connId sid).streams sid' = some other) :
    (other ≠ w.host.1.allocated ∧ w.host.1.streams sid' = some other) ∨
      (other = w.host.1.allocated ∧ sid' = sid) := by
  change Function.update w.host.1.streams sid (some w.host.1.allocated) sid' = some other at h
  by_cases hsid : sid' = sid
  · rw [hsid, Function.update_self] at h
    exact .inr ⟨(Option.some.inj h).symm, hsid⟩
  · rw [Function.update_of_ne hsid] at h
    exact .inl ⟨(hw.table sid' other h).1.ne, h⟩

theorem subject_eq {s : YamuxSession} {hdr : YamuxHeader} {payload rest : Bytes}
    (hparse : tryParseFrame s.recvBuf = some (hdr, payload, rest)) :
    subject s = (s.streams hdr.streamId).getD s.allocated := by
  unfold subject
  rw [hparse]

/-- `close_write` of a stream that is open for writing. -/
theorem Tallied.closeWrite (hw : w.Tallied) {stream : ℕ} (henabled : w.Enabled (.closeWrite stream))
    (hopen : (w.host.1.heap stream).writeClosed = false)
    (hannounced : w.Announced (.closeWrite stream))
    (htable : (step cb w (.closeWrite stream)).host.1.table = w.host.1.table.closeWrite stream)
    (hcalls : (step cb w (.closeWrite stream)).notified = w.notified) :
    (step cb w (.closeWrite stream)).Tallied := by
  have hheap := congrArg Table.heap htable
  have halloc : (step cb w (.closeWrite stream)).host.1.allocated = w.host.1.allocated :=
    congrArg Table.allocated htable
  have hstreams : (step cb w (.closeWrite stream)).host.1.streams = w.host.1.streams :=
    congrArg Table.streams htable
  -- the streams that are closed are the handle's own and the one in the table
  have hcase : ∀ other, ((step cb w (.closeWrite stream)).host.1.heap other =
        (w.host.1.heap other).closeLocalWrite ∧ other < w.host.1.allocated ∧
          ((w.host.1.heap other).writeClosed = false → (w.host.1.heap other).readClosed = true →
            (w.host.1.heap other).recvBuf ≠ [])) ∨
      (step cb w (.closeWrite stream)).host.1.heap other = w.host.1.heap other := by
    intro other
    have hother := congrFun hheap other
    by_cases hcloses : other = stream ∨ w.host.1.streams (w.host.1.heap stream).id = some other
    · refine .inl ⟨hother.trans (if_pos hcloses), ?_⟩
      rcases hcloses with rfl | hentry
      · exact ⟨henabled, fun _ => (hannounced hopen).1⟩
      · exact ⟨(hw.table _ _ hentry).1, (hannounced hopen).2 other hentry⟩
    · exact .inr (hother.trans (if_neg hcloses))
  refine ⟨fun sid other hother => ?_, fun other hother => ?_, fun other => ?_⟩
  · rw [hstreams] at hother
    obtain ⟨hlt, hid, hreset⟩ := hw.table sid other hother
    rw [halloc]
    rcases hcase other with ⟨hclosed, -⟩ | hsame
    · rw [hclosed]
      exact ⟨hlt, hid, hreset⟩
    · rw [hsame]
      exact ⟨hlt, hid, hreset⟩
  · rw [halloc] at hother
    rcases hcase other with ⟨-, hlt, -⟩ | hsame
    · omega
    · rw [hsame]
      exact hw.fresh other hother
  · rcases hcase other with ⟨hclosed, hlt, hdrained⟩ | hsame
    · have hst := (hw.stream other).closeWrite hdrained
      simpa only [hclosed, hcalls, mem_ended_step, halloc, hlt, true_and, reduceCtorEq, ne_eq,
        not_false_eq_true, and_true] using hst
    · exact hw.untouched hsame (by rw [hcalls])

/-- `reset`. -/
theorem Tallied.reset (hw : w.Tallied) {stream : ℕ} (henabled : w.Enabled (.reset stream))
    (htable : (step cb w (.reset stream)).host.1.table =
      (w.host.1.table.set stream YamuxStream.receiveRst).erase (w.host.1.heap stream).id)
    (hcalls : (step cb w (.reset stream)).notified = w.notified) :
    (step cb w (.reset stream)).Tallied := by
  have hheap : (step cb w (.reset stream)).host.1.heap =
      Function.update w.host.1.heap stream (w.host.1.heap stream).receiveRst :=
    congrArg Table.heap htable
  have halloc : (step cb w (.reset stream)).host.1.allocated = w.host.1.allocated :=
    congrArg Table.allocated htable
  have hstreams : (step cb w (.reset stream)).host.1.streams =
      Function.update w.host.1.streams (w.host.1.heap stream).id none := congrArg Table.streams htable
  refine ⟨fun sid other hother => ?_, fun other hother => ?_, fun other => ?_⟩
  · rw [hstreams] at hother
    have hsid : sid ≠ (w.host.1.heap stream).id := by
      rintro rfl
      rw [Function.update_self] at hother
      cases hother
    rw [Function.update_of_ne hsid] at hother
    have hentry := hw.table sid other hother
    have hne : other ≠ stream := by
      rintro rfl
      exact hsid hentry.2.1.symm
    rw [halloc, hheap, Function.update_of_ne hne]
    exact hentry
  · rw [halloc] at hother
    have hne : other ≠ stream := by
      rintro rfl
      exact absurd henabled (not_lt.mpr hother)
    rw [hheap, Function.update_of_ne hne]
    exact hw.fresh other hother
  · by_cases hsame : other = stream
    · subst hsame
      have hended : other ∈ (step cb w (.reset other)).ended ↔ other ∈ w.ended := by
        rw [mem_ended_step]
        simp
      rw [hended, hheap, Function.update_self, hcalls]
      exact ⟨fun _ => ⟨rfl, rfl⟩, fun _ => .inr rfl, fun _ => rfl, (hw.stream other).once,
        (hw.stream other).never⟩
    · refine hw.untouched ?_ (by rw [hcalls])
      rw [hheap, Function.update_of_ne hsame]

theorem step_tallied (hw : w.Tallied) (henabled : w.Enabled a) (hannounced : w.Announced a) :
    (step cb w a).Tallied := by
  obtain ⟨t, n, heffect, htable, hcalls⟩ := step_effect cb w a
  have hheap : (step cb w a).host.1.heap = t.heap := congrArg Table.heap htable
  have halloc : (step cb w a).host.1.allocated = t.allocated := congrArg Table.allocated htable
  have hstreams : (step cb w a).host.1.streams = t.streams := congrArg Table.streams htable
  cases heffect with
  | arrive | tryWrite | openNone | closedAlready | noFrame =>
    exact hw.quiet htable (by simpa using hcalls)
  | tryRead stream size =>
    refine hw.touch (n := 0) hheap halloc.ge (halloc ▸ henabled) (fun sid other hother => ?_) hcalls
      nofun ((hw.stream stream).read size hannounced)
    rw [hstreams] at hother
    by_cases hsame : other = stream
    · subst hsame
      exact .inr ⟨rfl, (hw.table sid other hother).2⟩
    · exact .inl ⟨hsame, hother⟩
  | openNew sid hs =>
    obtain ⟨-, hst⟩ := hw.unused le_rfl sid w.host.1.connId
    refine hw.touch (n := 0) hheap (halloc ▸ Nat.le_succ _) (halloc ▸ Nat.lt_succ_self _)
      (fun sid' other hother => ?_) hcalls nofun ?_
    · rw [hstreams] at hother
      rcases hw.create_streams hother with hold | ⟨hnew, hsid⟩
      · exact .inl hold
      · exact .inr ⟨hnew, hsid.symm, rfl⟩
    · exact hst.stays fun _ hclosed => absurd hclosed.symm Bool.false_ne_true
  | closeWrite stream hopen =>
    exact hw.closeWrite henabled hopen hannounced htable (by simpa using hcalls)
  | reset stream => exact hw.reset henabled htable (by simpa using hcalls)
  | frame hdr payload rest stream hparse hfor hs =>
    obtain ⟨hlt, hid, hreset⟩ := hw.table _ _ hs
    have hframe := hannounced _ hparse hfor stream hs
    rw [subject_eq hparse, hs, Option.getD_some] at hcalls
    rw [Table.afterFrame_heap] at hheap
    rw [Table.afterFrame_allocated] at halloc
    refine hw.touch hheap halloc.ge (halloc ▸ hlt) (fun sid other hother => ?_) hcalls nofun
      ((hw.stream stream).frame hreset hframe)
    rw [hstreams] at hother
    obtain ⟨hbefore, hrst⟩ := Table.afterFrame_streams hother
    by_cases hsame : other = stream
    · subst hsame
      have hsid : sid = hdr.streamId := (hw.table sid other hbefore).2.1.symm.trans hid
      exact .inr ⟨rfl, afterFrame_entry hreset (hid.trans hsid.symm)
        (Bool.eq_false_iff.mpr fun hflag => hrst hflag hsid)⟩
    · exact .inl ⟨hsame, hbefore⟩
  | frameNew hdr payload rest hparse hfor hs =>
    obtain ⟨hended, hst⟩ := hw.unused le_rfl hdr.streamId w.host.1.connId
    have hopen : (w.host.1.heap w.host.1.allocated).isOpen = true := by
      rw [hw.fresh _ le_rfl]
      rfl
    rw [subject_eq hparse, hs, Option.getD_none] at hcalls
    rw [Table.afterFrame_heap] at hheap
    rw [Table.afterFrame_allocated] at halloc
    have hframe : ∀ st : YamuxStream, st = { id := hdr.streamId, connId := w.host.1.connId } →
        Tally (st.afterFrame hdr payload) (w.host.1.allocated ∈ w.ended ∨
          (w.host.1.heap w.host.1.allocated).isOpen = true ∧ (st.afterFrame hdr payload).isOpen = false)
          (w.notified.count w.host.1.allocated + st.closeCalls hdr payload) := by
      rintro st rfl
      rw [hopen]
      exact hst.frame rfl ⟨fun hcloses => absurd hcloses.2.1 Bool.false_ne_true, fun _ => hended⟩
    have hnew : (w.host.1.table.create w.host.1.connId hdr.streamId).heap w.host.1.allocated =
        { id := hdr.streamId, connId := w.host.1.connId } := Function.update_self ..
    rw [hnew] at hheap
    refine hw.touch (hheap.trans (Function.update_idem ..)) (halloc ▸ Nat.le_succ _)
      (halloc ▸ Nat.lt_succ_self _) (fun sid other hother => ?_) hcalls nofun (hframe _ rfl)
    rw [hstreams] at hother
    obtain ⟨hbefore, hrst⟩ := Table.afterFrame_streams hother
    rcases hw.create_streams hbefore with hold | ⟨rfl, rfl⟩
    · exact .inl hold
    · exact .inr ⟨rfl, afterFrame_entry rfl rfl (Bool.eq_false_iff.mpr fun hflag => hrst hflag rfl)⟩

/-- A stream that becomes terminal without a call of the close callback. -/
theorem Tallied.unannounced (hw : w.Tallied) {stream : ℕ} (hlt : stream < (step cb w a).host.1.allocated)
    (hopen : (w.host.1.heap stream).isOpen = true)
    (hclosed : ((step cb w a).host.1.heap stream).isOpen = false) (hreset : a ≠ .reset stream)
    (hended : stream ∉ w.ended) (hcalls : (step cb w a).notified = w.notified) :
    ¬ (step cb w a).NotifiedOnce := by
  intro honce
  have hcount := honce stream ((mem_ended_step cb).mpr (.inr ⟨hlt, hopen, hclosed, hreset⟩))
  rw [hcalls, (hw.stream stream).never hended] at hcount
  cases hcount

/-- Where one step leaves every stream announced once, it was announced. -/
theorem step_announced (hw : w.Tallied) (henabled : w.Enabled a)
    (honce : (step cb w a).NotifiedOnce) : w.Announced a := by
  obtain ⟨t, n, heffect, htable, hcalls⟩ := step_effect cb w a
  have hheap : (step cb w a).host.1.heap = t.heap := congrArg Table.heap htable
  have halloc : (step cb w a).host.1.allocated = t.allocated := congrArg Table.allocated htable
  cases heffect with
  | arrive | tryWrite | openNone | openNew | reset => trivial
  | closedAlready stream hclosed =>
    intro hopen
    exact absurd (hopen.symm.trans hclosed) Bool.false_ne_true
  | noFrame hnone =>
    intro f hf hfor stream hs
    rw [hnone f hf hfor] at hs
    cases hs
  | tryRead stream size =>
    intro hread hwrite hne hlen
    by_contra hended
    have hreset : (w.host.1.heap stream).reset = false := by
      by_contra hreset
      exact hne ((hw.stream stream).cleared (Bool.eq_true_of_not_eq_false hreset)).1
    have hclosed : ((step cb w (.tryRead stream size)).host.1.heap stream).isOpen = false := by
      rw [hheap, YamuxStream.isOpen_eq_false_iff]
      simp only [Table.set, Function.update_self]
      exact .inr ⟨hread, hwrite, List.drop_eq_nil_iff.mpr hlen⟩
    exact hw.unannounced (halloc ▸ henabled) ((hw.stream stream).isOpen hreset hended) hclosed nofun
      hended (by simpa using hcalls) honce
  | closeWrite stream hopen =>
    have hother : ∀ other, other = stream ∨ w.host.1.streams (w.host.1.heap stream).id = some other →
        (w.host.1.heap other).writeClosed = false → (w.host.1.heap other).readClosed = true →
          (w.host.1.heap other).recvBuf ≠ [] := by
      intro other hcloses hwrite hread hempty
      have hst := hw.stream other
      have hlt : other < w.host.1.allocated := by
        rcases hcloses with rfl | hentry
        · exact henabled
        · exact (hw.table _ _ hentry).1
      have hended : other ∉ w.ended := fun hended =>
        absurd (hwrite.symm.trans (hst.shut hended)) Bool.false_ne_true
      have hreset : (w.host.1.heap other).reset = false := by
        by_contra hreset
        have hcleared := (hst.cleared (Bool.eq_true_of_not_eq_false hreset)).2
        exact absurd (hwrite.symm.trans hcleared) Bool.false_ne_true
      have hclosed : ((step cb w (.closeWrite stream)).host.1.heap other).isOpen = false := by
        rw [hheap, YamuxStream.isOpen_eq_false_iff]
        have hclose : (w.host.1.table.closeWrite stream).heap other =
            (w.host.1.heap other).closeLocalWrite := if_pos hcloses
        rw [hclose]
        exact .inr ⟨hread, rfl, hempty⟩
      exact hw.unannounced (halloc ▸ hlt) (hst.isOpen hreset hended) hclosed nofun hended
        (by simpa using hcalls) honce
    exact fun _ => ⟨hother stream (.inl rfl) hopen, fun other hentry => hother other (.inr hentry)⟩
  | frame hdr payload rest stream hparse hfor hs =>
    intro f hf hfor' stream' hs'
    obtain rfl : (hdr, payload, rest) = f := Option.some.inj (hparse.symm.trans hf)
    obtain rfl : stream = stream' := Option.some.inj (hs.symm.trans hs')
    obtain ⟨hlt, -, hreset⟩ := hw.table _ _ hs
    apply (hw.stream stream).frame_announced hreset
    intro hends
    rw [subject_eq hparse, hs, Option.getD_some] at hcalls
    have hmem : stream ∈ (step cb w .frame).ended := by
      rw [mem_ended_step, hheap, halloc, Table.afterFrame_heap, Table.afterFrame_allocated,
        Function.update_self]
      exact hends.imp_right fun hcloses => ⟨hlt, hcloses.1, hcloses.2, nofun⟩
    have hcount := honce stream hmem
    rwa [hcalls, List.count_append, List.count_replicate_self] at hcount
  | frameNew hdr payload rest hparse hfor hs =>
    intro f hf hfor' stream' hs'
    obtain rfl : (hdr, payload, rest) = f := Option.some.inj (hparse.symm.trans hf)
    rw [hs] at hs'
    cases hs'

end Watch

/-! ## Received bytes -/

theorem Watch.final_host (w : Watch E) (actions : List Watch.Action) :
    (Runs.final (Watch.step cb) w actions).host =
      actions.foldl (fun h a => Watch.act cb.watched a h) w.host := by
  induction actions generalizing w with
  | nil => rfl
  | cons a actions ih => exact ih (Watch.step cb w a)

theorem processFramesLoop_eq_run (cb : Callbacks E) (fuel : ℕ) (h : Host E) :
    processFramesLoop cb fuel h =
      (List.replicate fuel Watch.Action.frame).foldl (fun h a => Watch.act cb a h) h := by
  induction fuel generalizing h with
  | zero => rfl
  | succ fuel ih =>
    rw [processFramesLoop, List.replicate_succ, List.foldl_cons]
    cases hparse : tryParseFrame h.1.recvBuf with
    | some frame =>
      dsimp only [Watch.act]
      rw [hparse]
      exact ih _
    | none =>
      have hstay : Watch.act cb .frame h = h := by
        unfold Watch.act
        rw [hparse]
      rw [hstay, ← ih h]
      cases fuel with
      | zero => rfl
      | succ fuel => rw [processFramesLoop, hparse]

/-- A call of `receive` is a run: the bytes arrive, and the loop of `process_frames`
    takes frames out of the buffer. -/
theorem receive_eq_run (w : Watch E) (data : Bytes) :
    (receive cb.watched data w.host).2 = (Runs.final (Watch.step cb) w
      (.arrive data :: List.replicate (w.host.1.recvBuf ++ data).length .frame)).host := by
  rw [Watch.final_host, List.foldl_cons, ← processFramesLoop_eq_run]
  rfl

/-- The runs in which the close callback is invoked exactly once for every stream that
    becomes terminal are those whose steps all announce what they close. -/
theorem closed_once_iff (cb : Callbacks E) (connId : ConnectionId) (isClient : Bool) (env : E)
    (actions : List Watch.Action)
    (henabled : Runs.Steps (Watch.step cb) Watch.Enabled (.make connId isClient env) actions) :
    Runs.Steps (Watch.step cb) Watch.Announced (.make connId isClient env) actions ↔
      Runs.States (Watch.step cb) Watch.NotifiedOnce (.make connId isClient env) actions :=
  Runs.steps_iff_states (fun _ hw => hw.notifiedOnce) (fun _ _ => Watch.step_tallied)
    (fun _ _ => Watch.step_announced) (Watch.make_tallied connId isClient env) henabled

end Watch

/-! ## A client whose peer sends FIN -/

/-- Callbacks that do nothing. -/
def idleCallbacks : Callbacks Unit :=
  { accept := some fun _ _ e => e
    outgoing := some fun _ e => (.ok (), [], e)
    close := some fun _ _ e => e }

/-- The FIN of stream 1. -/
def finOfFirst : Bytes := Message.encode (.fin 1)

theorem closed_once_iff_fin_last :
    let actions : List Watch.Action :=
      [.openStream, .closeWrite 0, .arrive finOfFirst, .frame, .tryRead 0 16]
    ((Runs.final (Watch.step idleCallbacks) (.make 7 true ()) actions).ended = [0] ∧
      Runs.Steps (Watch.step idleCallbacks) Watch.Announced (.make 7 true ()) actions) ∧
    (Runs.Steps (Watch.step idleCallbacks) Watch.Announced (.make 7 true ()) actions ↔
      Runs.States (Watch.step idleCallbacks) Watch.NotifiedOnce (.make 7 true ()) actions) := by
  intro actions
  exact ⟨by decide +kernel, closed_once_iff idleCallbacks 7 true () actions (by decide +kernel)⟩

/-- The FIN comes before the local `close_write`, which nobody is told about. -/
theorem close_write_unannounced :
    ¬ ∀ actions : List Watch.Action,
      Runs.Steps (Watch.step idleCallbacks) Watch.Enabled (.make 7 true ()) actions →
      Runs.States (Watch.step idleCallbacks) Watch.NotifiedOnce (.make 7 true ()) actions := by
  intro h
  have hrun := h [.openStream, .arrive finOfFirst, .frame, .closeWrite 0] (by decide +kernel)
  revert hrun
  decide +kernel

end PeerCore.Yamux
