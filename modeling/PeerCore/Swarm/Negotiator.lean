import PeerCore.Lib.Traced
import PeerCore.Swarm.Negotiation

/-!
# Negotiating over any stream

`Negotiator` is a `ProtocolNegotiatingStream` over an `inner_` it knows by its methods
only.

* `Negotiation.poll_eq` and the like: the streams of a swarm are instances, and
  `Negotiation.lawful`: their sessions do not touch them.
* `Negotiator.journaled`: the same stream, which writes down the calls of `inner_`;
  `journaled_poll` and the like: it does what the other does.
* `Negotiation.directRead_proper`: how the `inner_` of a swarm answers a read.
-/

namespace PeerCore

open MultistreamSelect

/-- A `ProtocolNegotiatingStream` in a state `τ`, with the methods of its `inner_`. -/
structure Negotiator (τ : Type) where
  this : τ → ProtocolNegotiatingStream
  change : (ProtocolNegotiatingStream → ProtocolNegotiatingStream) → τ → τ
  innerTryRead : ℕ → Op τ Bytes
  innerTryWrite : Bytes → Op τ ℕ
  innerCloseWrite : Op τ Unit
  innerIsOpen : τ → Bool
  /-- The bytes that have come to `inner_` and were not read. -/
  innerBuffered : τ → Bytes

namespace Negotiator

variable {τ α : Type} (m : Negotiator τ)

/-- Return the error of `x` through `fail` (`swarm.cpp:277-281`). -/
def failing (x : Op τ α) : Op τ α := fun t =>
  match x t with
  | (.ok a, t) => (.ok a, t)
  | (.error e, t) =>
    (.error e, m.change (fun neg => { neg with stage := .failed, failureDetail := some e }) t)

/-- The loop of `read_into_negotiation_buffer`. Each iteration but the last takes bytes
    out of `inner_`, so `fuel` is one more than it has. -/
def readLoop : ℕ → Op τ Unit
  | 0 => pure ()
  | fuel + 1 => fun t =>
    match m.innerTryRead 1024 t with
    | (.error e, t) => if e = "EAGAIN" then (.ok (), t) else (.error e, t)
    | (.ok [], t) =>
      if m.innerIsOpen t then (.ok (), t) else (.error "stream closed during protocol negotiation", t)
    | (.ok (b :: bytes), t) =>
      readLoop fuel (m.change (fun neg =>
        { neg with negotiationBuffer := neg.negotiationBuffer ++ b :: bytes }) t)

/-- `read_into_negotiation_buffer` (`swarm.cpp:246-263`). -/
def readIntoNegotiationBuffer : Op τ Unit := fun t =>
  m.readLoop ((m.innerBuffered t).length + 1) t

/-- The part of `poll` for `SendingOutboundProposal` (`swarm.cpp:149-159`). -/
def sendProposal : Op τ Unit := do
  let t ← Op.get
  let proposal ← Op.ofResult (prepareOutbound [(m.this t).desiredProtocol])
  let _ ← m.innerTryWrite proposal
  Op.modify (m.change fun neg => { neg with stage := .awaitingOutboundResponse })

/-- The part for `AwaitingOutboundResponse` (`swarm.cpp:166-184`). -/
def awaitResponse : Op τ Unit := do
  let t ← Op.get
  match exchangeSpan (m.this t).negotiationBuffer with
  | .error e => if isIncompleteError e then pure () else Op.fail e
  | .ok span =>
    let selected ← Op.ofResult (readOutboundResponse
      ((m.this t).negotiationBuffer.take span) (m.this t).desiredProtocol)
    Op.modify (m.change fun neg => { neg with negotiatedProtocol := some selected }.finish span)

/-- The part for `AwaitingInboundProposal` (`swarm.cpp:185-216`). -/
def answerProposal : Op τ Unit := do
  let t ← Op.get
  match exchangeSpan (m.this t).negotiationBuffer with
  | .error e => if isIncompleteError e then pure () else Op.fail e
  | .ok span =>
    let negotiation ← Op.ofResult (negotiateInbound
      ((m.this t).negotiationBuffer.take span) (m.this t).supportedProtocols)
    let _ ← m.innerTryWrite negotiation.outbound
    match negotiation.protocol with
    | none =>
      Op.modify fun t => (m.innerCloseWrite t).2
      Op.fail "protocol not supported"
    | some protocol =>
      Op.modify (m.change fun neg => { neg with negotiatedProtocol := some protocol }.finish span)

/-- `poll` (`swarm.cpp:143-219`). -/
def poll : Op τ Unit := do
  let t ← Op.get
  match (m.this t).stage with
  | .ready => pure ()
  | .failed => Op.fail (m.this t).failureText
  | stage =>
    if stage = .sendingOutboundProposal then m.failing m.sendProposal
    m.failing m.readIntoNegotiationBuffer
    let t ← Op.get
    if (m.this t).stage = .awaitingOutboundResponse then m.failing m.awaitResponse
    else if (m.this t).stage = .awaitingInboundProposal then m.failing m.answerProposal
    else pure ()

/-- `poll`, and an error when the negotiation is not over. -/
def pollReady : Op τ Unit := do
  m.poll
  let t ← Op.get
  if (m.this t).isNegotiated then pure () else Op.fail "stream protocol negotiation not complete"

/-- `try_read` (`swarm.cpp:89-108`) with a buffer of `size` bytes. -/
def tryRead (size : ℕ) : Op τ Bytes := do
  m.pollReady
  let t ← Op.get
  if (m.this t).appRxBuffer ≠ [] then
    Op.modify (m.change fun neg => { neg with appRxBuffer := neg.appRxBuffer.drop size })
    pure ((m.this t).appRxBuffer.take size)
  else m.innerTryRead size

/-- `try_write` (`swarm.cpp:110-119`). -/
def tryWrite (data : Bytes) : Op τ ℕ := do
  m.pollReady
  m.innerTryWrite data

/-- `close_write` (`swarm.cpp:121-128`). -/
def closeWrite : Op τ Unit := do
  m.pollReady
  m.innerCloseWrite

end Negotiator

/-! ## The streams of a swarm -/

section World

variable (S : Noise.Sodium) (n : ℕ)

/-- The negotiation `n` of a swarm. -/
def Negotiation.negotiator : Negotiator World where
  this := fun w => w.swarm.negotiations n
  change := fun f w => w.setNegotiation n f
  innerTryRead := fun size => Negotiation.inner S n (Connection.streamTryRead S · size)
  innerTryWrite := fun data => Negotiation.inner S n (Connection.streamTryWrite S · data)
  innerCloseWrite := Negotiation.inner S n (Connection.streamCloseWrite S ·)
  innerIsOpen := fun w => Negotiation.innerIsOpen w n
  innerBuffered := fun w =>
    match Negotiation.session w n with
    | some s => streamBuffered s (w.swarm.negotiations n).inner
    | none => []

namespace Negotiation

theorem failing_eq {α : Type} (x : Op World α) : failing n x = (negotiator S n).failing x := by
  funext w
  unfold failing Negotiator.failing
  rcases x w with ⟨_ | _, _⟩ <;> rfl

theorem readLoop_eq (fuel : ℕ) : readLoop S n fuel = (negotiator S n).readLoop fuel := by
  induction fuel with
  | zero => rfl
  | succ fuel ih =>
    funext w
    unfold readLoop Negotiator.readLoop
    have hinner : (negotiator S n).innerTryRead 1024 w = inner S n (Connection.streamTryRead S · 1024) w := rfl
    rw [ih, hinner]
    rcases inner S n (Connection.streamTryRead S · 1024) w with ⟨_ | _ | _, _⟩ <;> rfl

theorem awaitResponse_eq : awaitResponse n = (negotiator S n).awaitResponse := by
  funext w
  unfold awaitResponse Negotiator.awaitResponse
  rw [Op.bind_apply, Op.bind_apply, Op.get_apply]
  simp only [this, negotiator]
  cases exchangeSpan (w.swarm.negotiations n).negotiationBuffer <;> rfl

theorem answerProposal_eq : answerProposal S n = (negotiator S n).answerProposal := by
  funext w
  unfold answerProposal Negotiator.answerProposal
  rw [Op.bind_apply, Op.bind_apply, Op.get_apply]
  simp only [this, negotiator]
  cases exchangeSpan (w.swarm.negotiations n).negotiationBuffer with
  | error e => rfl
  | ok span =>
    dsimp only
    rw [Op.bind_apply, Op.bind_apply]
    cases negotiateInbound _ _ with
    | error e => rfl
    | ok negotiation =>
      rcases negotiation with ⟨outbound, _ | protocol⟩ <;> rfl

theorem poll_eq : poll S n = (negotiator S n).poll := by
  have hread : readIntoNegotiationBuffer S n = (negotiator S n).readIntoNegotiationBuffer := by
    funext w
    exact congrFun (readLoop_eq S n _) w
  funext w
  unfold poll Negotiator.poll
  rw [Op.bind_apply, Op.bind_apply, Op.get_apply]
  simp only [failing_eq S, hread, awaitResponse_eq S, answerProposal_eq]
  simp only [this, negotiator]
  cases (w.swarm.negotiations n).stage <;> rfl

theorem pollReady_eq : pollReady S n = (negotiator S n).pollReady := by
  unfold pollReady Negotiator.pollReady
  rw [poll_eq]
  rfl

theorem tryRead_eq (size : ℕ) : tryRead S n size = (negotiator S n).tryRead size := by
  unfold tryRead Negotiator.tryRead
  rw [pollReady_eq]
  rfl

theorem tryWrite_eq (data : Bytes) : tryWrite S n data = (negotiator S n).tryWrite data := by
  unfold tryWrite Negotiator.tryWrite
  rw [pollReady_eq]
  rfl

theorem closeWrite_eq : closeWrite S n = (negotiator S n).closeWrite := by
  unfold closeWrite Negotiator.closeWrite
  rw [pollReady_eq]
  rfl

end Negotiation

end World

/-! ## A journal of the calls -/

/-- A call of `inner_`: the stage of the negotiation, what `inner_` had to read before and
    after the call, and the result. -/
inductive InnerCall
  | tryRead (stage : NegotiationStage) (before after : Bytes) (result : Result Bytes) (isOpen : Bool)
  | tryWrite (stage : NegotiationStage) (before after data : Bytes) (result : Result ℕ)
  | closeWrite
  deriving DecidableEq

/-- The data that a write has accepted. -/
def accepted (data : Bytes) (result : Result ℕ) : List Bytes :=
  (result.toOption.map data.take).toList

namespace InnerCall

/-- What a call of `inner_` does while the negotiation goes on: a read takes bytes off the
    front of what has come, or there are none and it reports `EAGAIN` or, on a stream that
    is open, 0; a write takes all it is given. Afterwards anything may happen. -/
def Proper : InnerCall → Prop
  | tryRead stage before after result isOpen =>
    stage = .ready ∨ (result = .error "EAGAIN" ∧ before = [] ∧ after = []) ∨
      ((result.toOption.getD [] = [] → before = [] ∧ isOpen = true) ∧ result.toOption.isSome = true ∧
        before = result.toOption.getD [] ++ after)
  | tryWrite stage before after data result => stage = .ready ∨ (result = .ok data.length ∧ after = before)
  | closeWrite => True

instance : DecidablePred Proper := fun c => by
  cases c <;> unfold Proper <;> infer_instance

/-- What `inner_` has given. -/
def given : InnerCall → Bytes
  | tryRead _ _ _ result _ => result.toOption.getD []
  | _ => []

/-- What `inner_` has taken. -/
def taken : InnerCall → List Bytes
  | tryWrite _ _ _ data result => accepted data result
  | _ => []

end InnerCall

/-- The bytes read in the calls of a journal. -/
def given (journal : List InnerCall) : Bytes := journal.flatMap InnerCall.given

/-- The data written in the calls of a journal. -/
def written (journal : List InnerCall) : List Bytes := journal.flatMap InnerCall.taken

@[simp] theorem given_concat (journal : List InnerCall) (c : InnerCall) :
    given (journal ++ [c]) = given journal ++ c.given := by
  simp [given]

@[simp] theorem written_concat (journal : List InnerCall) (c : InnerCall) :
    written (journal ++ [c]) = written journal ++ c.taken := by
  simp [written]

namespace Negotiator

variable {τ : Type} (m : Negotiator τ)

/-- The same stream, which writes the calls of `inner_` into a journal. -/
def journaled : Negotiator (τ × List InnerCall) where
  this := fun s => m.this s.1
  change := fun f s => (m.change f s.1, s.2)
  innerTryRead := fun size s =>
    let (result, t) := m.innerTryRead size s.1
    (result, t, s.2 ++
      [.tryRead (m.this s.1).stage (m.innerBuffered s.1) (m.innerBuffered t) result (m.innerIsOpen t)])
  innerTryWrite := fun data s =>
    let (result, t) := m.innerTryWrite data s.1
    (result, t, s.2 ++
      [.tryWrite (m.this s.1).stage (m.innerBuffered s.1) (m.innerBuffered t) data result])
  innerCloseWrite := fun s =>
    let (result, t) := m.innerCloseWrite s.1
    (result, t, s.2 ++ [.closeWrite])
  innerIsOpen := fun s => m.innerIsOpen s.1
  innerBuffered := fun s => m.innerBuffered s.1

section Journaled

variable {m}

theorem journaled_innerTryRead (size : ℕ) :
    Op.Erases (m.journaled.innerTryRead size) (m.innerTryRead size) := fun _ _ => ⟨rfl, rfl⟩

theorem journaled_innerTryWrite (data : Bytes) :
    Op.Erases (m.journaled.innerTryWrite data) (m.innerTryWrite data) := fun _ _ => ⟨rfl, rfl⟩

theorem journaled_innerCloseWrite : Op.Erases m.journaled.innerCloseWrite m.innerCloseWrite :=
  fun _ _ => ⟨rfl, rfl⟩

theorem journaled_change (f : ProtocolNegotiatingStream → ProtocolNegotiatingStream) :
    Op.Erases (Op.modify (m.journaled.change f)) (Op.modify (m.change f)) := fun _ _ => ⟨rfl, rfl⟩

theorem journaled_failing {α : Type} {x : Op τ α} {y : Op (τ × List InnerCall) α} (h : Op.Erases y x) :
    Op.Erases (m.journaled.failing y) (m.failing x) := fun t journal => by
  obtain ⟨hresult, hstate⟩ := h t journal
  unfold failing
  rcases hy : y (t, journal) with ⟨e | a, t', journal'⟩ <;> rcases hx : x t with ⟨e' | a', t''⟩ <;>
    rw [hy, hx] at hresult hstate <;> cases hresult <;> cases hstate <;> exact ⟨rfl, rfl⟩

theorem journaled_readLoop (fuel : ℕ) : Op.Erases (m.journaled.readLoop fuel) (m.readLoop fuel) := by
  induction fuel with
  | zero => exact fun _ _ => ⟨rfl, rfl⟩
  | succ fuel ih =>
    intro t journal
    unfold readLoop
    have hread : m.journaled.innerTryRead 1024 (t, journal) = ((m.innerTryRead 1024 t).1,
        (m.innerTryRead 1024 t).2, (m.journaled.innerTryRead 1024 (t, journal)).2.2) := rfl
    rw [hread]
    rcases m.innerTryRead 1024 t with ⟨e | bytes, t'⟩
    · dsimp only
      split_ifs <;> exact ⟨rfl, rfl⟩
    · cases bytes with
      | nil =>
        have hopen : m.journaled.innerIsOpen (t', (m.journaled.innerTryRead 1024 (t, journal)).2.2) =
            m.innerIsOpen t' := rfl
        dsimp only
        rw [hopen]
        split_ifs <;> exact ⟨rfl, rfl⟩
      | cons b bytes => exact ih _ _

theorem journaled_readIntoNegotiationBuffer :
    Op.Erases m.journaled.readIntoNegotiationBuffer m.readIntoNegotiationBuffer := fun t journal =>
  journaled_readLoop ((m.innerBuffered t).length + 1) t journal

theorem journaled_sendProposal : Op.Erases m.journaled.sendProposal m.sendProposal :=
  .get_bind fun _ _ => .bind (fun _ _ => ⟨rfl, rfl⟩) fun proposal =>
    .bind (journaled_innerTryWrite proposal) fun _ => journaled_change _

theorem journaled_awaitResponse : Op.Erases m.journaled.awaitResponse m.awaitResponse := by
  refine .get_bind fun t _ => ?_
  show Op.Erases (match exchangeSpan (m.this t).negotiationBuffer with
    | .error e => if isIncompleteError e then pure () else Op.fail e
    | .ok span => _) _
  cases exchangeSpan (m.this t).negotiationBuffer with
  | error e =>
    dsimp only
    split_ifs
    · exact .pure ()
    · exact .fail e
  | ok span => exact .bind (fun _ _ => ⟨rfl, rfl⟩) fun selected => journaled_change _

theorem journaled_answerProposal : Op.Erases m.journaled.answerProposal m.answerProposal := by
  refine .get_bind fun t _ => ?_
  show Op.Erases (match exchangeSpan (m.this t).negotiationBuffer with
    | .error e => if isIncompleteError e then pure () else Op.fail e
    | .ok span => _) _
  cases exchangeSpan (m.this t).negotiationBuffer with
  | error e =>
    dsimp only
    split_ifs
    · exact .pure ()
    · exact .fail e
  | ok span =>
    refine .bind (fun _ _ => ⟨rfl, rfl⟩) fun negotiation => ?_
    refine .bind (journaled_innerTryWrite _) fun _ => ?_
    cases negotiation.protocol with
    | none => exact .bind (fun _ _ => ⟨rfl, rfl⟩) fun _ => .fail _
    | some protocol => exact journaled_change _

/-- `poll` with a journal is `poll`. -/
theorem journaled_poll : Op.Erases m.journaled.poll m.poll := by
  refine .get_bind fun t _ => ?_
  have hhear : Op.Erases (do
      m.journaled.failing m.journaled.readIntoNegotiationBuffer
      let s ← Op.get
      if (m.journaled.this s).stage = .awaitingOutboundResponse then
        m.journaled.failing m.journaled.awaitResponse
      else if (m.journaled.this s).stage = .awaitingInboundProposal then
        m.journaled.failing m.journaled.answerProposal
      else pure ()) (do
      m.failing m.readIntoNegotiationBuffer
      let t ← Op.get
      if (m.this t).stage = .awaitingOutboundResponse then m.failing m.awaitResponse
      else if (m.this t).stage = .awaitingInboundProposal then m.failing m.answerProposal
      else pure ()) := by
    refine .bind (journaled_failing journaled_readIntoNegotiationBuffer) fun _ => .get_bind fun t _ => ?_
    show Op.Erases (if (m.this t).stage = .awaitingOutboundResponse then _
      else if (m.this t).stage = .awaitingInboundProposal then _ else _) _
    split_ifs
    · exact journaled_failing journaled_awaitResponse
    · exact journaled_failing journaled_answerProposal
    · exact .pure ()
  have hstage : ∀ journal : List InnerCall, m.journaled.this (t, journal) = m.this t := fun _ => rfl
  rw [hstage]
  cases (m.this t).stage with
  | ready => exact .pure ()
  | failed => exact .fail _
  | sendingOutboundProposal =>
    exact .bind (journaled_failing journaled_sendProposal) fun _ => hhear
  | awaitingOutboundResponse => exact hhear
  | awaitingInboundProposal => exact hhear

theorem journaled_pollReady : Op.Erases m.journaled.pollReady m.pollReady := by
  refine .bind journaled_poll fun _ => .get_bind fun t _ => ?_
  show Op.Erases (if (m.this t).isNegotiated then _ else _) _
  split_ifs
  · exact .pure ()
  · exact .fail _

/-- So are the calls of its owner. -/
theorem journaled_tryRead (size : ℕ) : Op.Erases (m.journaled.tryRead size) (m.tryRead size) := by
  refine .bind journaled_pollReady fun _ => .get_bind fun t _ => ?_
  show Op.Erases (if (m.this t).appRxBuffer ≠ [] then _ else _) _
  split_ifs
  · exact .bind (journaled_change _) fun _ => .pure _
  · exact journaled_innerTryRead size

theorem journaled_tryWrite (data : Bytes) : Op.Erases (m.journaled.tryWrite data) (m.tryWrite data) :=
  .bind journaled_pollReady fun _ => journaled_innerTryWrite data

theorem journaled_closeWrite : Op.Erases m.journaled.closeWrite m.closeWrite :=
  .bind journaled_pollReady fun _ => journaled_innerCloseWrite

end Journaled

/-- The change keeps `inner_`. -/
def KeepsInner (f : ProtocolNegotiatingStream → ProtocolNegotiatingStream) : Prop :=
  ∀ neg, (f neg).connId = neg.connId ∧ (f neg).inner = neg.inner

/-- The negotiation and its `inner_` are two objects: neither changes the other. -/
structure Lawful (m : Negotiator τ) : Prop where
  change : ∀ f t, m.this (m.change f t) = f (m.this t)
  buffered : ∀ f t, KeepsInner f → m.innerBuffered (m.change f t) = m.innerBuffered t
  read : ∀ size t, m.this (m.innerTryRead size t).2 = m.this t
  write : ∀ data t, m.this (m.innerTryWrite data t).2 = m.this t
  close : ∀ t, m.this (m.innerCloseWrite t).2 = m.this t

end Negotiator

/-! ## How the streams of a swarm answer -/

namespace Negotiation

variable {S : Noise.Sodium} {n : ℕ}

theorem inner_negotiations {α : Type} (x : Connection.StreamHandle → Connection.Method α) (w : World) :
    (inner S n x w).2.swarm.negotiations = w.swarm.negotiations := by
  unfold inner onSession World.ask
  dsimp only
  cases w.swarm.sessions (w.swarm.negotiations n).connId <;> rfl

theorem lawful : (negotiator S n).Lawful where
  change := fun f w => Function.update_self n _ _
  buffered := fun f w hf => by
    have hthis : (w.setNegotiation n f).swarm.negotiations n = f (w.swarm.negotiations n) :=
      Function.update_self n _ _
    have hsessions : (w.setNegotiation n f).swarm.sessions = w.swarm.sessions := rfl
    obtain ⟨hconn, hinner⟩ := hf (w.swarm.negotiations n)
    simp only [negotiator, session, hthis, hsessions, hconn, hinner]
  read := fun size w => congrFun (inner_negotiations _ w) n
  write := fun data w => congrFun (inner_negotiations _ w) n
  close := fun w => congrFun (inner_negotiations _ w) n

/-- A read of an open direct stream takes bytes off the front of what has come. -/
theorem streamTryRead_direct {s : Connection.BasicConnectionSession} {stream : ℕ}
    (hopen : (s.directStreams stream).isOpen = true) (size : ℕ) :
    let buffer := (s.directStreams stream).rxBuffer
    Connection.streamTryRead S (.direct stream) size s = (.ok (buffer.take size),
      s.setDirect stream fun st => { st with rxBuffer := st.rxBuffer.drop size }) := by
  intro buffer
  unfold Connection.streamTryRead
  dsimp only
  rw [Op.bind_apply, Op.get_apply]
  dsimp only
  rw [if_neg (by simp [hopen])]
  rfl

theorem updateReceiveWindow_heap {E : Type} (cb : Yamux.Callbacks E) (sid : StreamId) (delta : ℕ)
    (h : Yamux.Host E) : (Yamux.updateReceiveWindow cb sid delta h).2.1.heap = h.1.heap := by
  unfold Yamux.updateReceiveWindow
  split_ifs
  · rfl
  · rw [Yamux.sendFrame, Op.modify_bind, Yamux.runOutgoing]
    cases cb.outgoing <;> rfl

/-- A read of a Yamux stream takes bytes off the front of what has come, or there are none. -/
theorem tryRead_heap {E : Type} (cb : Yamux.Callbacks E) (stream size : ℕ) (h : Yamux.Host E) :
    let st := h.1.heap stream
    let r := Yamux.tryRead cb stream size h
    (st.recvBuf ≠ [] ∧ r.1 = .ok (st.recvBuf.take size) ∧
        r.2.1.heap stream = { st with recvBuf := st.recvBuf.drop size }) ∨
      (st.recvBuf = [] ∧ r.2 = h ∧
        (r.1 = .error "EAGAIN" ∨ r.1 = .ok [])) := by
  intro st r
  have hr : r = (if st.recvBuf = [] then
      if st.readClosed ∨ st.reset then pure [] else Op.fail "EAGAIN"
    else do
      Op.modify fun h => (h.1.setStream stream fun st => { st with recvBuf := st.recvBuf.drop size }, h.2)
      fun h => (.ok (st.recvBuf.take size),
        (Yamux.updateReceiveWindow cb st.id (st.recvBuf.take size).length h).2) :
      Op (Yamux.Host E) Bytes) h := rfl
  split_ifs at hr with hempty hended
  · exact .inr ⟨hempty, by rw [hr]; rfl, .inr (by rw [hr]; rfl)⟩
  · exact .inr ⟨hempty, by rw [hr]; rfl, .inl (by rw [hr]; rfl)⟩
  · refine .inl ⟨hempty, by rw [hr]; rfl, ?_⟩
    have hheap : r.2.1.heap = (Yamux.updateReceiveWindow cb st.id (st.recvBuf.take size).length
        (h.1.setStream stream fun st => { st with recvBuf := st.recvBuf.drop size }, h.2)).2.1.heap := by
      rw [hr]
      rfl
    rw [hheap, updateReceiveWindow_heap]
    exact Function.update_self stream _ _

/-- The answers of the world touch no stream. -/
theorem inner_of_session {α : Type} {x : Connection.StreamHandle → Connection.Method α} {w : World}
    {s : Connection.BasicConnectionSession} (hs : session w n = some s) :
    ∃ s₀ : Connection.BasicConnectionSession,
      (∀ handle, streamBuffered s₀ handle = streamBuffered s handle) ∧
      (∀ handle, Connection.streamIsOpen s₀ handle = Connection.streamIsOpen s handle) ∧
      (inner S n x w).1 = (x (w.swarm.negotiations n).inner s₀).1 ∧
      session (inner S n x w).2 n = some (x (w.swarm.negotiations n).inner s₀).2 := by
  let s₀ := Connection.step S s (.answers w.ask.1.sends w.ask.1.shutdownError)
  refine ⟨s₀, fun handle => ?_, fun handle => ?_, ?_⟩
  · cases handle <;> rfl
  · cases handle <;> rfl
  have hinner : inner S n x w = ((x (w.swarm.negotiations n).inner s₀).1,
      w.ask.2.setSession (w.swarm.negotiations n).connId (x (w.swarm.negotiations n).inner s₀).2) := by
    unfold inner onSession
    have hsessions : w.ask.2.swarm.sessions (w.swarm.negotiations n).connId = some s := hs
    dsimp only
    rw [hsessions]
  rw [hinner]
  exact ⟨rfl, Function.update_self _ _ _⟩

/-- A read of up to `size` bytes takes them off the front, where there are any. -/
def ReadsFront (size : ℕ) (before after : Bytes) (result : Result Bytes) (isOpen : Bool) : Prop :=
  (before ≠ [] ∧ result = .ok (before.take size) ∧ after = before.drop size) ∨
    (before = [] ∧ after = [] ∧ (result = .error "EAGAIN" ∨ result = .ok [] ∧ isOpen = true))

theorem ReadsFront.proper {stage : NegotiationStage} {before after : Bytes} {result : Result Bytes}
    {isOpen : Bool} {size : ℕ} (hsize : 0 < size) (h : ReadsFront size before after result isOpen) :
    (InnerCall.tryRead stage before after result isOpen).Proper := by
  rcases h with ⟨hne, rfl, rfl⟩ | ⟨rfl, rfl, rfl | ⟨rfl, hopen⟩⟩
  · refine .inr (.inr ⟨fun hnone => ?_, rfl, (List.take_append_drop size before).symm⟩)
    rcases List.take_eq_nil_iff.mp hnone with hzero | hnil
    · omega
    · exact absurd hnil hne
  · exact .inr (.inl ⟨rfl, rfl, rfl⟩)
  · exact .inr (.inr ⟨fun _ => ⟨rfl, hopen⟩, rfl, rfl⟩)

section Reads

variable {s : Connection.BasicConnectionSession} {stream size : ℕ}

theorem reads_direct (hopen : Connection.streamIsOpen s (.direct stream) = true) :
    let r := Connection.streamTryRead S (.direct stream) size s
    ReadsFront size (streamBuffered s (.direct stream)) (streamBuffered r.2 (.direct stream)) r.1
      (Connection.streamIsOpen r.2 (.direct stream)) := by
  intro r
  obtain ⟨hstream, hsocket⟩ := Bool.and_eq_true_iff.mp hopen
  have hr : r = (.ok ((s.directStreams stream).rxBuffer.take size), s.setDirect stream fun st =>
      { st with rxBuffer := st.rxBuffer.drop size }) := streamTryRead_direct hstream size
  have hupdated : (r.2.directStreams stream) =
      { s.directStreams stream with rxBuffer := (s.directStreams stream).rxBuffer.drop size } := by
    rw [hr]
    exact Function.update_self _ _ _
  have hleft : streamBuffered r.2 (.direct stream) = (s.directStreams stream).rxBuffer.drop size := by
    simp only [streamBuffered, hupdated]
  have hstill : Connection.streamIsOpen r.2 (.direct stream) = true := by
    simp only [Connection.streamIsOpen, hupdated, Bool.and_eq_true]
    refine ⟨hstream, ?_⟩
    rw [hr]
    exact hsocket
  rw [hleft, hstill]
  by_cases hempty : (s.directStreams stream).rxBuffer = []
  · refine .inr ⟨hempty, by rw [hempty, List.drop_nil], .inr ⟨?_, rfl⟩⟩
    rw [hr, hempty, List.take_nil]
  · exact .inl ⟨hempty, by rw [hr]; rfl, rfl⟩

theorem reads_yamux (hopen : Connection.streamIsOpen s (.yamux stream) = true) :
    let r := Connection.streamTryRead S (.yamux stream) size s
    ReadsFront size (streamBuffered s (.yamux stream)) (streamBuffered r.2 (.yamux stream)) r.1
      (Connection.streamIsOpen r.2 (.yamux stream)) := by
  intro r
  cases hcase : s.yamuxSession with
  | none =>
    rw [Connection.streamIsOpen, hcase] at hopen
    cases hopen
  | some yamux =>
    have hr : r = ((Yamux.tryRead (Connection.yamuxCallbacks S) stream size (yamux, s)).1,
        { (Yamux.tryRead (Connection.yamuxCallbacks S) stream size (yamux, s)).2.2 with
          yamuxSession :=
            some (Yamux.tryRead (Connection.yamuxCallbacks S) stream size (yamux, s)).2.1 }) := by
      simp only [r, Connection.streamTryRead, Connection.onYamux, hcase]
    have hbefore : streamBuffered s (.yamux stream) = (yamux.heap stream).recvBuf := by
      simp only [streamBuffered, hcase]
    simp only [Connection.streamIsOpen, hcase] at hopen
    rw [hr, hbefore]
    simp only [streamBuffered, Connection.streamIsOpen]
    rcases tryRead_heap (Connection.yamuxCallbacks S) stream size (yamux, s) with
      ⟨hne, hok, hheap⟩ | ⟨hempty, hsame, hresult⟩
    · rw [hok, hheap]
      exact .inl ⟨hne, rfl, rfl⟩
    · rw [hsame]
      exact .inr ⟨hempty, hempty, hresult.imp_right fun hok => ⟨hok, hopen⟩⟩

/-- A read of an open stream takes what has come off the front. -/
theorem streamTryRead_front {handle : Connection.StreamHandle}
    (hopen : Connection.streamIsOpen s handle = true) :
    let r := Connection.streamTryRead S handle size s
    ReadsFront size (streamBuffered s handle) (streamBuffered r.2 handle) r.1
      (Connection.streamIsOpen r.2 handle) := by
  cases handle with
  | direct stream => exact reads_direct hopen
  | yamux stream => exact reads_yamux hopen

end Reads

/-- While a stream is open its reads are as a negotiation needs them. -/
theorem read_proper {w : World} {size : ℕ} (hsize : 0 < size) (hopen : innerIsOpen w n = true)
    (stage : NegotiationStage) :
    let m := negotiator S n
    let r := m.innerTryRead size w
    (InnerCall.tryRead stage (m.innerBuffered w) (m.innerBuffered r.2) r.1 (m.innerIsOpen r.2)).Proper := by
  intro m r
  obtain ⟨s, hs⟩ : ∃ s, session w n = some s := by
    cases hcase : session w n with
    | some s => exact ⟨s, rfl⟩
    | none =>
      rw [innerIsOpen, hcase] at hopen
      cases hopen
  obtain ⟨s₀, hbuffered, hisOpen, hresult, hafter⟩ :=
    inner_of_session (S := S) (x := (Connection.streamTryRead S · size)) hs
  have hthis : r.2.swarm.negotiations n = w.swarm.negotiations n :=
    congrFun (inner_negotiations _ w) n
  have hbefore : m.innerBuffered w = streamBuffered s₀ (w.swarm.negotiations n).inner := by
    rw [hbuffered]
    simp only [m, negotiator, hs]
  have hleft : m.innerBuffered r.2 = streamBuffered
      (Connection.streamTryRead S (w.swarm.negotiations n).inner size s₀).2
      (w.swarm.negotiations n).inner := by
    simp only [m, negotiator, hthis]
    rw [show session r.2 n = _ from hafter]
  have hstill : m.innerIsOpen r.2 = Connection.streamIsOpen
      (Connection.streamTryRead S (w.swarm.negotiations n).inner size s₀).2
      (w.swarm.negotiations n).inner := by
    simp only [m, negotiator, innerIsOpen, hthis]
    rw [show session r.2 n = _ from hafter]
  have hr : r.1 = (Connection.streamTryRead S (w.swarm.negotiations n).inner size s₀).1 := hresult
  rw [innerIsOpen, hs] at hopen
  dsimp only at hopen
  rw [← hisOpen] at hopen
  rw [hbefore, hleft, hstill, hr]
  exact ReadsFront.proper hsize (streamTryRead_front hopen)

end Negotiation

end PeerCore
