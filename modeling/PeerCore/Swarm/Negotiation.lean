import PeerCore.Swarm.State

/-!
# Negotiating the protocol of a stream

Model of `ProtocolNegotiatingStream` (`swarm.cpp:64-282`). Its methods run on the
world, since a call of the inner stream is a call of a session.
-/

namespace PeerCore

open Connection (BasicConnectionSession StreamHandle Method)

section Negotiation

variable (S : Noise.Sodium) {α : Type}

/-- A call of a method of a session. Its socket answers as the world says. -/
def onSession (id : ConnectionId) (x : Method α) : Op World α := fun w =>
  let (answers, w) := w.ask
  match w.swarm.sessions id with
  | none => (.error "no session", w)
  | some s =>
    let (r, s) := x (Connection.step S s (.answers answers.sends answers.shutdownError))
    (r, w.setSession id s)

/-- `id` of either kind of stream (`yamux.cpp:58`, `connection_session.cpp:263`). -/
def streamId (s : BasicConnectionSession) : StreamHandle → StreamId
  | .yamux stream =>
    match s.yamuxSession with
    | some yamux => (yamux.heap stream).id
    | none => 0
  | .direct stream => (s.directStreams stream).id

/-- The bytes that `try_read` of either kind of stream can return. -/
def streamBuffered (s : BasicConnectionSession) : StreamHandle → Bytes
  | .yamux stream =>
    match s.yamuxSession with
    | some yamux => (yamux.heap stream).recvBuf
    | none => []
  | .direct stream => (s.directStreams stream).rxBuffer

namespace ProtocolNegotiatingStream

/-- `is_negotiated` (`swarm.cpp:221-223`). -/
def isNegotiated (neg : ProtocolNegotiatingStream) : Bool :=
  neg.stage = .ready && neg.negotiatedProtocol.isSome

/-- `has_failed` (`swarm.cpp:225-227`). -/
def hasFailed (neg : ProtocolNegotiatingStream) : Bool := neg.stage = .failed

/-- `failure_detail` (`swarm.cpp:233-235`). -/
def failureText (neg : ProtocolNegotiatingStream) : String :=
  neg.failureDetail.getD "stream protocol negotiation failed"

/-- `finish_negotiation` (`swarm.cpp:265-275`). -/
def finish (consumed : ℕ) (neg : ProtocolNegotiatingStream) : ProtocolNegotiatingStream :=
  { neg with
    appRxBuffer := neg.appRxBuffer ++ neg.negotiationBuffer.drop consumed
    negotiationBuffer := []
    stage := .ready }

end ProtocolNegotiatingStream

namespace Negotiation

/-- The object behind a handle. -/
def this (n : ℕ) : Op World ProtocolNegotiatingStream := fun w => (.ok (w.swarm.negotiations n), w)

/-- Change the object. -/
def change (n : ℕ) (f : ProtocolNegotiatingStream → ProtocolNegotiatingStream) : Op World Unit :=
  Op.modify fun w => w.setNegotiation n f

/-- A call of `inner_`. -/
def inner (n : ℕ) (x : StreamHandle → Method α) : Op World α := fun w =>
  let neg := w.swarm.negotiations n
  onSession S neg.connId (x neg.inner) w

/-- The session of `inner_`. -/
def session (w : World) (n : ℕ) : Option BasicConnectionSession :=
  w.swarm.sessions (w.swarm.negotiations n).connId

/-- `inner_->is_open()`. -/
def innerIsOpen (w : World) (n : ℕ) : Bool :=
  match session w n with
  | some s => Connection.streamIsOpen s (w.swarm.negotiations n).inner
  | none => false

/-- `id` (`swarm.cpp:86`). -/
def idOf (w : World) (n : ℕ) : StreamId :=
  match session w n with
  | some s => streamId s (w.swarm.negotiations n).inner
  | none => 0

/-- Return the error of `x` through `fail` (`swarm.cpp:277-281`). -/
def failing (n : ℕ) (x : Op World α) : Op World α := fun w =>
  match x w with
  | (.ok a, w) => (.ok a, w)
  | (.error e, w) =>
    (.error e, w.setNegotiation n fun neg => { neg with stage := .failed, failureDetail := some e })

/-- The loop of `read_into_negotiation_buffer`. Each iteration but the last takes bytes
    out of the stream, so `fuel` is one more than it has. -/
def readLoop (n : ℕ) : ℕ → Op World Unit
  | 0 => pure ()
  | fuel + 1 => fun w =>
    match inner S n (Connection.streamTryRead S · 1024) w with
    | (.error e, w) => if e = "EAGAIN" then (.ok (), w) else (.error e, w)
    | (.ok [], w) =>
      if innerIsOpen w n then (.ok (), w)
      else (.error "stream closed during protocol negotiation", w)
    | (.ok (b :: bytes), w) =>
      readLoop n fuel (w.setNegotiation n fun neg =>
        { neg with negotiationBuffer := neg.negotiationBuffer ++ b :: bytes })

/-- `read_into_negotiation_buffer` (`swarm.cpp:246-263`). -/
def readIntoNegotiationBuffer (n : ℕ) : Op World Unit := fun w =>
  let buffered := match session w n with
    | some s => streamBuffered s (w.swarm.negotiations n).inner
    | none => []
  readLoop S n (buffered.length + 1) w

/-- The part of `poll` for `SendingOutboundProposal` (`swarm.cpp:149-159`). -/
def sendProposal (n : ℕ) : Op World Unit := do
  let neg ← this n
  let proposal ← Op.ofResult (MultistreamSelect.prepareOutbound [neg.desiredProtocol])
  let _ ← inner S n (Connection.streamTryWrite S · proposal)
  change n fun neg => { neg with stage := .awaitingOutboundResponse }

/-- The part for `AwaitingOutboundResponse` (`swarm.cpp:166-184`). -/
def awaitResponse (n : ℕ) : Op World Unit := do
  let neg ← this n
  match MultistreamSelect.exchangeSpan neg.negotiationBuffer with
  | .error e => if MultistreamSelect.isIncompleteError e then pure () else Op.fail e
  | .ok span =>
    let selected ← Op.ofResult (MultistreamSelect.readOutboundResponse
      (neg.negotiationBuffer.take span) neg.desiredProtocol)
    change n fun neg => { neg with negotiatedProtocol := some selected }.finish span

/-- The part for `AwaitingInboundProposal` (`swarm.cpp:185-216`). -/
def answerProposal (n : ℕ) : Op World Unit := do
  let neg ← this n
  match MultistreamSelect.exchangeSpan neg.negotiationBuffer with
  | .error e => if MultistreamSelect.isIncompleteError e then pure () else Op.fail e
  | .ok span =>
    let negotiation ← Op.ofResult (MultistreamSelect.negotiateInbound
      (neg.negotiationBuffer.take span) neg.supportedProtocols)
    let _ ← inner S n (Connection.streamTryWrite S · negotiation.outbound)
    match negotiation.protocol with
    | none =>
      Op.modify fun w => (inner S n (Connection.streamCloseWrite S ·) w).2
      Op.fail "protocol not supported"
    | some protocol =>
      change n fun neg => { neg with negotiatedProtocol := some protocol }.finish span

/-- `poll` (`swarm.cpp:143-219`). -/
def poll (n : ℕ) : Op World Unit := do
  let neg ← this n
  match neg.stage with
  | .ready => pure ()
  | .failed => Op.fail neg.failureText
  | stage =>
    if stage = .sendingOutboundProposal then failing n (sendProposal S n)
    failing n (readIntoNegotiationBuffer S n)
    let neg ← this n
    if neg.stage = .awaitingOutboundResponse then failing n (awaitResponse n)
    else if neg.stage = .awaitingInboundProposal then failing n (answerProposal S n)
    else pure ()

/-- `poll`, and an error when the negotiation is not over. -/
def pollReady (n : ℕ) : Op World Unit := do
  poll S n
  let neg ← this n
  if neg.isNegotiated then pure () else Op.fail "stream protocol negotiation not complete"

/-- `try_read` (`swarm.cpp:89-108`) with a buffer of `size` bytes. -/
def tryRead (n size : ℕ) : Op World Bytes := do
  pollReady S n
  let neg ← this n
  if neg.appRxBuffer ≠ [] then
    change n fun neg => { neg with appRxBuffer := neg.appRxBuffer.drop size }
    pure (neg.appRxBuffer.take size)
  else inner S n (Connection.streamTryRead S · size)

/-- `try_write` (`swarm.cpp:110-119`). -/
def tryWrite (n : ℕ) (data : Bytes) : Op World ℕ := do
  pollReady S n
  inner S n (Connection.streamTryWrite S · data)

/-- `close_write` (`swarm.cpp:121-128`). -/
def closeWrite (n : ℕ) : Op World Unit := do
  pollReady S n
  inner S n (Connection.streamCloseWrite S ·)

/-- `reset` (`swarm.cpp:130-136`). -/
def reset (n : ℕ) : Op World Unit := do
  change n fun neg =>
    { neg with
      stage := .failed
      failureDetail := some (neg.failureDetail.getD "stream reset locally") }
  inner S n (Connection.streamReset S ·)

/-- A call of the owner of a stream handle. -/
def call (w : World) (n : ℕ) : HandleCall → World
  | .tryRead size => (tryRead S n size w).2
  | .tryWrite data => (tryWrite S n data w).2
  | .closeWrite => (closeWrite S n w).2
  | .reset => (reset S n w).2

end Negotiation

/-- Code of the controller or of a handler: calls on streams it was given. -/
def userCode (w : World) : World :=
  let (answers, w) := w.ask
  answers.calls.foldl
    (fun w c => if c.1 ∈ w.swarm.given then Negotiation.call S w c.1 c.2 else w) w

end Negotiation

end PeerCore
