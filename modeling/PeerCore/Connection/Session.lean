import PeerCore.Connection.State

/-!
# The connection session

Model of the functions of `connection_session.cpp`. A method that returns a
`Result` is a `Method`; a method that returns nothing is a function on the
session. The readiness callbacks get the answers the socket calls will give.
-/

namespace PeerCore.Connection

open Yamux (YamuxSession Callbacks Host)

section Session

variable {α : Type}

/-- Run on `*io_`. -/
def onIo (x : Op SessionIoState α) : Method α := Op.zoom (·.io) (fun s io => { s with io }) x

/-- Run on `*secure_`. -/
def onSecure (x : Op SecureChannelState α) : Method α :=
  Op.zoom (·.secure) (fun s secure => { s with secure }) x

namespace BasicConnectionSession

/-- Change the `StreamState` behind a direct handle. -/
def setDirect (s : BasicConnectionSession) (stream : ℕ) (f : StreamState → StreamState) :
    BasicConnectionSession :=
  { s with directStreams := Function.update s.directStreams stream (f (s.directStreams stream)) }

/-- `event_queue_.push_back`. -/
def pushEvent (s : BasicConnectionSession) (type : EventType) (streamId : Option StreamId)
    (detail : Bytes) : BasicConnectionSession :=
  { s with eventQueue := s.eventQueue ++ [⟨type, streamId, detail⟩] }

/-- `stream_state_ ? std::optional(stream_state_->id) : std::nullopt`. -/
def streamStateId (s : BasicConnectionSession) : Option StreamId :=
  s.streamState.map fun stream => (s.directStreams stream).id

/-- `is_active` (`connection_session.cpp:484-487`). -/
def isActive (s : BasicConnectionSession) : Bool :=
  s.io.socketOpen && s.state ≠ .closed && s.state ≠ .failed

/-- `remote_peer` (`connection_session.cpp:336`). -/
def remotePeer (s : BasicConnectionSession) : Option PeerId := s.secure.noise.remotePeerId

/-- `negotiated_stream_muxer` (`connection_session.cpp:340-342`). -/
def negotiatedStreamMuxer (s : BasicConnectionSession) : Option ProtocolId :=
  s.secure.negotiatedStreamMuxer

end BasicConnectionSession

open BasicConnectionSession

/-- `/yamux/1.0.0`. -/
def yamuxProtocol : ProtocolId := ascii "/yamux/1.0.0"

/-- `/noise`. -/
def noiseProtocol : ProtocolId := ascii "/noise"

/-! ## Writing -/

/-- `flush_stream` (`connection_session.cpp:114-138`). -/
def flushStream (stream : ℕ) : Method Unit := do
  let s ← Op.get
  if s.io.socketOpen = false ∨ s.io.fd < 0 then
    Op.modify fun s => s.setDirect stream fun st => { st with isOpen := false }
    Op.fail "socket is closed"
  else
    Op.onFail (fun s => s.setDirect stream fun st => { st with isOpen := false }) (onIo flushWire)
    let s ← Op.get
    if (s.directStreams stream).closeWritePending = true ∧ s.io.socketOpen = true ∧
        s.io.writeShutdown = false ∧ s.io.wireTx = [] then
      match s.io.socket.shutdownError with
      | some error =>
        Op.modify fun s => { s with io := s.io.shut false }
        Op.modify fun s => s.setDirect stream fun st => { st with isOpen := false }
        Op.fail error
      | none => Op.modify fun s => { s with io := s.io.shut true }
    else pure ()

/-- `flush_pending_writes` (`connection_session.cpp:489-496`). -/
def flushPendingWrites : Method Unit := do
  onIo flushWire
  let s ← Op.get
  match s.streamState with
  | some stream =>
    if (s.directStreams stream).closeWritePending then flushStream stream else pure ()
  | none => pure ()

section Encrypted

variable (S : Noise.Sodium)

/-- `queue_encrypted_message` (`connection_session.cpp:229-240`). -/
def queueEncryptedMessage (data : Bytes) : Method Unit := do
  let ciphertext ← onSecure (sealMessage S data)
  onIo (queueWireMessage ciphertext)
  onIo flushWire

/-- `queue_encrypted_write` (`connection_session.cpp:205-227`). -/
def queueEncryptedWrite (stream : ℕ) (data : Bytes) : Method ℕ := do
  let s ← Op.get
  if s.secure.secureReady = false then Op.fail "secure channel is not ready"
  else
    let close := fun s : BasicConnectionSession =>
      s.setDirect stream fun st => { st with isOpen := false }
    let ciphertext ← Op.onFail close (onSecure (sealMessage S data))
    Op.onFail close (onIo (queueWireMessage ciphertext))
    flushStream stream
    pure data.length

/-- The callbacks `activate_yamux` installs (`connection_session.cpp:792-810`); the
    outgoing callback is `flush_yamux_outgoing` (`connection_session.cpp:813-818`). -/
def yamuxCallbacks : Callbacks BasicConnectionSession :=
  { accept := some fun stream sid s =>
      { s with pendingInbound := s.pendingInbound ++ [StreamHandle.yamux stream] }.pushEvent .streamAccepted
        (some sid) (ascii "inbound yamux stream ready")
    outgoing := some fun sendBuf s =>
      if sendBuf = [] then (.ok (), [], s)
      else
        let (r, s) := queueEncryptedMessage S sendBuf s
        (r, [], s)
    close := some fun sid detail s => s.pushEvent .streamClosed (some sid) (ascii detail) }

/-- Run a method of `*yamux_session_`. -/
def onYamux (x : Op (Host BasicConnectionSession) α) : Method α := fun s =>
  match s.yamuxSession with
  | none => (.error "no yamux session", s)
  | some yamux =>
    let (r, yamux, s) := x (yamux, s)
    (r, { s with yamuxSession := some yamux })

end Encrypted

/-! ## Streams of the session -/

/-- `create_stream` (`connection_session.cpp:836-856`): the handle of the stream. -/
def createStream (protocol : Option ProtocolId) (inboundEvent : Bool)
    (s : BasicConnectionSession) : ℕ × BasicConnectionSession :=
  let stream := s.directCount
  let sid := s.nextStreamId
  let s := { s with
    directStreams := Function.update s.directStreams stream
      { id := sid, connectionId := s.id, protocol }
    directCount := stream + 1
    streamState := some stream
    nextStreamId := sid + 1 }
  let s := if inboundEvent
    then s.pushEvent .streamAccepted (some sid) (ascii "inbound stream ready")
    else s.pushEvent .streamOpened (some sid) (ascii "outbound stream opened")
  (stream, if inboundEvent then { s with pendingInbound := s.pendingInbound ++ [StreamHandle.direct stream] }
    else s)

/-- `ensure_inbound_stream` (`connection_session.cpp:830-834`). -/
def ensureInboundStream (s : BasicConnectionSession) : ℕ × BasicConnectionSession :=
  match s.streamState with
  | some stream =>
    if (s.directStreams stream).isOpen then (stream, s) else createStream none true s
  | none => createStream none true s

/-- `activate_yamux` (`connection_session.cpp:790-811`). -/
def activateYamux (s : BasicConnectionSession) : BasicConnectionSession :=
  { s with
    yamuxSession := some (YamuxSession.make s.id s.isInitiator)
    createInboundStreamOnReady := false }

/-! ## Ending -/

/-- `emit_error` (`connection_session.cpp:820-828`). -/
def emitError (detail : Bytes) (s : BasicConnectionSession) : BasicConnectionSession :=
  if s.state = .failed ∨ s.state = .closed then s
  else { s with state := .failed }.pushEvent .error s.streamStateId detail

/-- `close` (`connection_session.cpp:461-481`). -/
def close (s : BasicConnectionSession) : BasicConnectionSession :=
  if s.state = .closed then s
  else
    let s := { s with io := closeSocket s.io }
    let s := match s.streamState with
      | some stream => s.setDirect stream fun st =>
          { st with isOpen := false, writeOpen := false, closeWritePending := false, rxBuffer := [] }
      | none => s
    let s := { s with state := .closed }
    if s.closedEmitted then s
    else { s.pushEvent .closed s.streamStateId (ascii "connection closed") with closedEmitted := true }

/-! ## Becoming ready -/

/-- `complete_ready_state` (`connection_session.cpp:759-788`). The states
    `SecureReady` and `Multiplexing` it goes through are seen by nobody. -/
def completeReadyState (s : BasicConnectionSession) : BasicConnectionSession :=
  let s := { s with secure := { s.secure with stage := .ready, secureReady := true } }
  let s := s.pushEvent .secured none (ascii "noise handshake complete")
  let s := s.pushEvent .multiplexerReady none
    (match s.secure.negotiatedStreamMuxer with
    | some muxer => ascii "selected stream muxer: " ++ muxer ++
        (if s.yamuxSession.isSome then [] else ascii " (single-stream fallback)")
    | none => ascii "noise secure channel ready (single-stream fallback)")
  let s := { s with state := .ready }
  if s.yamuxSession.isNone ∧ s.createInboundStreamOnReady = true ∧ s.pendingInbound = [] then
    { (createStream none true s).2 with createInboundStreamOnReady := false }
  else s

/-- `validate_expected_remote_peer` (`connection_session.cpp:612-633`). -/
def validateExpectedRemotePeer (s : BasicConnectionSession) : Result Unit :=
  if s.isInitiator = false then .ok ()
  else
    match s.remoteAddr.parseIp4Tcp with
    | .error _ => .ok ()
    | .ok endpoint =>
      match endpoint.peerId with
      | none => .ok ()
      | some text =>
        match s.secure.noise.remotePeerId with
        | none => .error "missing authenticated remote peer id"
        | some remote =>
          match PeerId.fromString text with
          -- a peer id the parser does not understand is not compared
          | .error _ => .ok ()
          | .ok expected =>
            if expected ≠ remote then .error "authenticated peer id does not match dial target"
            else .ok ()

section Upgrade

variable (S : Noise.Sodium)

/-- `finish_secure_upgrade` (`connection_session.cpp:673-699`). -/
def finishSecureUpgrade : Method Unit := do
  let s ← Op.get
  if s.secure.secureReady then pure ()
  else
    Op.ofResult (validateExpectedRemotePeer s)
    Op.modify fun s => { s with
      secure := { s.secure with negotiatedStreamMuxer := selectStreamMuxer s.secure.noise } }
    let s ← Op.get
    if s.secure.negotiatedStreamMuxer = some yamuxProtocol then
      Op.modify fun s => completeReadyState (activateYamux s)
    else if s.secure.noise.localExtensions.streamMuxers ≠ [] then
      Op.modify fun s => { s with secure := { s.secure with stage := .muxerNegotiation } }
      if s.isInitiator then
        let proposal ← Op.ofResult (MultistreamSelect.prepareOutbound
          s.secure.noise.localExtensions.streamMuxers)
        queueEncryptedMessage S proposal
      else pure ()
    else Op.modify completeReadyState

/-- `process_handshake_frame` (`connection_session.cpp:635-671`). -/
def processHandshakeFrame (frame : Bytes) : Method Unit := do
  let s ← Op.get
  match s.secure.handshakeState with
  | .awaitingMsg1 =>
    let random ← onSecure drawEntropy
    let msg2 ← onSecure (onNoise (Noise.processMsg1Traced S random frame)
      (Noise.processMsg1 S random frame))
    Op.modify fun s => { s with secure := { s.secure with handshakeState := .awaitingMsg3 } }
    onIo (queueWireMessage msg2)
    flushPendingWrites
  | .awaitingMsg2 =>
    let msg3 ← onSecure (onNoise (Noise.processMsg2Traced S frame) (Noise.processMsg2 S frame))
    Op.modify fun s => { s with secure := { s.secure with handshakeState := .complete } }
    onIo (queueWireMessage msg3)
    flushPendingWrites
    finishSecureUpgrade S
  | .awaitingMsg3 =>
    onSecure (onNoise (Noise.processMsg3Traced S frame) (Noise.processMsg3 S frame))
    Op.modify fun s => { s with secure := { s.secure with handshakeState := .complete } }
    finishSecureUpgrade S
  | .idle => Op.fail "noise handshake has not started"
  | .complete => Op.fail "unexpected extra noise handshake frame"

/-- `start_noise_handshake` (`connection_session.cpp:601-610`). -/
def startNoiseHandshake : Method Unit := do
  let random ← onSecure drawEntropy
  let msg1 ← onSecure (onNoise (Noise.writeMsg1Traced S random)
    (Op.update (Noise.writeMsg1 S random)))
  if msg1 = [] then Op.fail "failed to start noise handshake"
  else
    Op.modify fun s => { s with
      secure := { s.secure with stage := .noiseHandshake, handshakeState := .awaitingMsg2 } }
    onIo (queueWireMessage msg1)
    flushPendingWrites

/-- `wire_rx_buffer.erase` at the front. -/
def eraseRx (n : ℕ) : Method Unit :=
  Op.modify fun s => { s with io := { s.io with wireRx := s.io.wireRx.drop n } }

/-- `process_protocol_negotiation` (`connection_session.cpp:552-599`). -/
def processProtocolNegotiation : Method Unit := do
  let s ← Op.get
  match MultistreamSelect.exchangeSpan s.io.wireRx with
  | .error e => if MultistreamSelect.isIncompleteError e then pure () else Op.fail e
  | .ok span =>
    let incoming := s.io.wireRx.take span
    if s.isInitiator then
      let _ ← Op.ofResult (MultistreamSelect.readOutboundResponse incoming noiseProtocol)
      eraseRx span
      startNoiseHandshake S
    else
      let negotiated ← Op.ofResult (MultistreamSelect.negotiateInbound incoming [noiseProtocol])
      if negotiated.protocol ≠ some noiseProtocol then Op.fail "noise protocol negotiation failed"
      else
        onIo (queueRawBytes negotiated.outbound)
        flushPendingWrites
        eraseRx span
        Op.modify fun s => { s with
          secure := { s.secure with stage := .noiseHandshake, handshakeState := .awaitingMsg1 } }

/-- `try_pop_wire_frame` on `wire_rx_buffer`. -/
def popFrame : Method (Option Bytes) := do
  let s ← Op.get
  match ← Op.ofResult (tryPopWireFrame s.io.wireRx) with
  | none => pure none
  | some (frame, rest) =>
    Op.modify fun s => { s with io := { s.io with wireRx := rest } }
    pure (some frame)

/-- The handshake loop of `process_pending_input` (`connection_session.cpp:504-517`).
    Each iteration pops a frame, so `fuel` is the number of buffered bytes. -/
def handshakeLoop : ℕ → Method Unit
  | 0 => pure ()
  | fuel + 1 => do
    let s ← Op.get
    if s.secure.secureReady = false ∧ s.secure.stage = .noiseHandshake then
      match ← popFrame with
      | none => pure ()
      | some frame =>
        processHandshakeFrame S frame
        handshakeLoop fuel
    else pure ()

/-- The loop of `process_muxer_negotiation` (`connection_session.cpp:702-715`). -/
def muxerFramesLoop : ℕ → Method Unit
  | 0 => pure ()
  | fuel + 1 => do
    match ← popFrame with
    | none => pure ()
    | some frame =>
      let plaintext ← onSecure (openMessage S frame)
      Op.modify fun s => { s with muxerNegotiationBuffer := s.muxerNegotiationBuffer ++ plaintext }
      muxerFramesLoop fuel

/-- `negotiated_stream_muxer = muxer`, and `activate_yamux` where it is Yamux. -/
def adoptMuxer (muxer : ProtocolId) (s : BasicConnectionSession) : BasicConnectionSession :=
  let s := { s with secure := { s.secure with negotiatedStreamMuxer := some muxer } }
  if muxer = yamuxProtocol then activateYamux s else s

/-- The answer to a complete muxer exchange (`connection_session.cpp:727-751`). -/
def answerMuxerExchange (exchange : Bytes) : Method Unit := do
  let s ← Op.get
  let muxers := s.secure.noise.localExtensions.streamMuxers
  if s.isInitiator then
    match MultistreamSelect.readOutboundResponse exchange (muxers.headD []) with
    | .ok selected => Op.modify (adoptMuxer selected)
    | .error e => if e ≠ "protocol not supported" then Op.fail e else pure ()
  else
    let negotiated ← Op.ofResult (MultistreamSelect.negotiateInbound exchange muxers)
    queueEncryptedMessage S negotiated.outbound
    match negotiated.protocol with
    | some muxer => Op.modify (adoptMuxer muxer)
    | none => pure ()

/-- `process_muxer_negotiation` (`connection_session.cpp:701-757`). -/
def processMuxerNegotiation : Method Unit := do
  let s ← Op.get
  muxerFramesLoop S s.io.wireRx.length
  let s ← Op.get
  match MultistreamSelect.exchangeSpan s.muxerNegotiationBuffer with
  | .error e => if MultistreamSelect.isIncompleteError e then pure () else Op.fail e
  | .ok span =>
    answerMuxerExchange S (s.muxerNegotiationBuffer.take span)
    Op.modify fun s =>
      completeReadyState { s with muxerNegotiationBuffer := s.muxerNegotiationBuffer.drop span }

/-- What happens to a decrypted message (`connection_session.cpp:538-547`). -/
def deliverPlaintext (plaintext : Bytes) : Method Unit := fun s =>
  if s.yamuxSession.isSome then onYamux (Yamux.receive (yamuxCallbacks S) plaintext) s
  else
    let (stream, s) := ensureInboundStream s
    (.ok (), s.setDirect stream fun st => { st with rxBuffer := st.rxBuffer ++ plaintext })

/-- The data loop of `process_pending_input` (`connection_session.cpp:527-547`). -/
def dataLoop : ℕ → Method Unit
  | 0 => pure ()
  | fuel + 1 => do
    match ← popFrame with
    | none => pure ()
    | some frame =>
      let plaintext ← onSecure (openMessage S frame)
      deliverPlaintext S plaintext
      dataLoop fuel

/-- `process_pending_input` (`connection_session.cpp:498-550`). -/
def processPendingInput : Method Unit := do
  let s ← Op.get
  if s.secure.stage = .negotiatingProtocol then processProtocolNegotiation S
  let s ← Op.get
  handshakeLoop S s.io.wireRx.length
  let s ← Op.get
  if s.secure.secureReady = false ∧ s.secure.stage = .muxerNegotiation then
    processMuxerNegotiation S
  let s ← Op.get
  if s.secure.secureReady = false then pure ()
  else dataLoop S s.io.wireRx.length

/-! ## The interface -/

/-- The `recv` loop of `on_socket_readable` (`connection_session.cpp:347-368`): whether
    it went on to the buffered input. -/
def recvLoop : List RecvAnswer → BasicConnectionSession → Bool × BasicConnectionSession
  | [], s => (true, s)
  | .data bytes :: rest, s =>
    if bytes = [] then (false, close s)
    else recvLoop rest { s with io := s.io.recv bytes }
  | .reset :: _, s => (false, close s)
  | .again :: _, s => (true, s)
  | .failed error :: _, s => (false, close (emitError (ascii ("recv failed: " ++ error)) s))

/-- `on_socket_readable` (`connection_session.cpp:344-375`). When `answers` is used
    up, `recv` reports `EAGAIN`. -/
def onSocketReadable (answers : List RecvAnswer) (s : BasicConnectionSession) :
    BasicConnectionSession :=
  if s.isActive = false then s
  else
    match recvLoop answers s with
    | (false, s) => s
    | (true, s) =>
      match processPendingInput S s with
      | (.ok (), s) => s
      | (.error e, s) => close (emitError (ascii e) s)

/-- `on_socket_writable` (`connection_session.cpp:377-385`). -/
def onSocketWritable (s : BasicConnectionSession) : BasicConnectionSession :=
  if s.isActive = false then s
  else
    match flushPendingWrites s with
    | (.ok (), s) => s
    | (.error e, s) => close (emitError (ascii ("send failed: " ++ e)) s)

/-- `on_timeout` (`connection_session.cpp:387-392`). -/
def onTimeout (s : BasicConnectionSession) : BasicConnectionSession :=
  if s.isActive = false then s
  else if s.state = .ready then s
  else close (emitError (ascii "connection timed out") s)

/-- `begin_outbound_upgrade` (`connection_session.cpp:394-409`). -/
def beginOutboundUpgrade : Method Unit := do
  let s ← Op.get
  if s.isActive = false then Op.fail "connection is closed"
  else if s.state = .ready ∨ s.secure.secureReady = true then pure ()
  else if s.isInitiator = false then Op.fail "connection is not outbound"
  else
    Op.modify fun s => { s with
      state := .securing
      createInboundStreamOnReady := false
      secure := { s.secure with stage := .negotiatingProtocol, handshakeState := .idle } }
    let proposal ← Op.ofResult (MultistreamSelect.prepareOutbound [noiseProtocol])
    onIo (queueRawBytes proposal)
    flushPendingWrites

/-- `begin_inbound_upgrade` (`connection_session.cpp:411-421`). -/
def beginInboundUpgrade : Method Unit := do
  let s ← Op.get
  if s.isActive = false then Op.fail "connection is closed"
  else if s.state = .ready ∨ s.secure.secureReady = true then pure ()
  else if s.isInitiator then Op.fail "connection is not inbound"
  else
    Op.modify fun s => { s with
      state := .securing
      createInboundStreamOnReady := true
      secure := { s.secure with stage := .negotiatingProtocol, handshakeState := .idle } }

/-- `request_open_stream` (`connection_session.cpp:423-445`). -/
def requestOpenStream (protocol : ProtocolId) : Method StreamHandle := do
  let s ← Op.get
  if s.isActive = false then Op.fail "connection is closed"
  else if s.state ≠ .ready then Op.fail "connection is not ready"
  else if s.yamuxSession.isSome then
    let stream ← onYamux (Yamux.openStream (yamuxCallbacks S))
    let sid ← onYamux (Op.update fun h =>
      ((h.1.heap stream).id, (h.1.setStream stream (·.setProtocol protocol), h.2)))
    Op.modify fun s => s.pushEvent .streamOpened (some sid) (ascii "outbound yamux stream opened")
    pure (.yamux stream)
  else
    match s.streamState with
    | some stream =>
      if (s.directStreams stream).isOpen then
        Op.fail "direct connection only supports one open stream"
      else
        let stream ← Op.update (createStream (some protocol) false)
        pure (.direct stream)
    | none =>
      let stream ← Op.update (createStream (some protocol) false)
      pure (.direct stream)

/-- `accept_inbound_stream` (`connection_session.cpp:447-452`). -/
def acceptInboundStream (s : BasicConnectionSession) :
    Option StreamHandle × BasicConnectionSession :=
  match s.pendingInbound with
  | [] => (none, s)
  | stream :: rest => (some stream, { s with pendingInbound := rest })

/-- `next_event` (`connection_session.cpp:454-459`). -/
def nextEvent (s : BasicConnectionSession) : Option ConnectionEvent × BasicConnectionSession :=
  match s.eventQueue with
  | [] => (none, s)
  | ev :: rest => (some ev, { s with eventQueue := rest })

/-! ## Stream handles -/

/-- `try_read` of either kind of stream (`connection_session.cpp:266-276`) with a
    buffer of `size` bytes. -/
def streamTryRead (handle : StreamHandle) (size : ℕ) : Method Bytes :=
  match handle with
  | .yamux stream => onYamux (Yamux.tryRead (yamuxCallbacks S) stream size)
  | .direct stream => do
    let s ← Op.get
    let st := s.directStreams stream
    if st.isOpen = false ∧ st.rxBuffer = [] then pure []
    else
      Op.modify fun s => s.setDirect stream fun st => { st with rxBuffer := st.rxBuffer.drop size }
      pure (st.rxBuffer.take size)

/-- `try_write` of either kind of stream (`connection_session.cpp:278-284`). -/
def streamTryWrite (handle : StreamHandle) (data : Bytes) : Method ℕ :=
  match handle with
  | .yamux stream => onYamux (Yamux.tryWrite (yamuxCallbacks S) stream data)
  | .direct stream => do
    let s ← Op.get
    let st := s.directStreams stream
    if st.isOpen = false ∨ st.writeOpen = false then Op.fail "stream is closed for writing"
    else queueEncryptedWrite S stream data

/-- `close_write` of either kind of stream (`connection_session.cpp:286-291`). -/
def streamCloseWrite (handle : StreamHandle) : Method Unit :=
  match handle with
  | .yamux stream => onYamux (Yamux.closeWrite (yamuxCallbacks S) stream)
  | .direct stream => do
    let s ← Op.get
    if (s.directStreams stream).isOpen = false then Op.fail "stream is closed"
    else
      Op.modify fun s => s.setDirect stream fun st =>
        { st with writeOpen := false, closeWritePending := true }
      flushStream stream

/-- `reset` of either kind of stream (`connection_session.cpp:293-300`). -/
def streamReset (handle : StreamHandle) : Method Unit :=
  match handle with
  | .yamux stream => onYamux (Yamux.reset (yamuxCallbacks S) stream)
  | .direct stream => Op.modify fun s =>
    let s := s.setDirect stream fun st =>
      { st with isOpen := false, writeOpen := false, closeWritePending := false, rxBuffer := [] }
    { s with io := closeSocket s.io }

/-- `is_open` of either kind of stream (`connection_session.cpp:302-304`). -/
def streamIsOpen (s : BasicConnectionSession) (handle : StreamHandle) : Bool :=
  match handle with
  | .yamux stream =>
    match s.yamuxSession with
    | some yamux => (yamux.heap stream).isOpen
    | none => false
  | .direct stream => (s.directStreams stream).isOpen && s.io.socketOpen

end Upgrade

end Session

end PeerCore.Connection
