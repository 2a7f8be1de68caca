import PeerCore.MultistreamSelect
import PeerCore.Noise.Identity
import PeerCore.Noise.Keys
import PeerCore.Yamux.Session

/-!
# The state of a connection session

Model of the data of `connection_session.cpp`, lines 23-67 and 858-872.

* `SessionIoState` and `SecureChannelState` are shared by the session and its
  direct streams; here they are fields of the session, and a `DirectMuxedStream`
  is an index into `directStreams`.
* The operating system is an argument: `Socket` holds the answers `send` and
  `shutdown` are going to give, and `randombytes_buf` is the sequence `random`.
* `Socket.queued`, `sent`, `received`, `shutdowns`, `unsent`, `unread`,
  `SecureChannelState.sealed`, `opened` and `keyLogs` are history. No function reads
  them.
-/

namespace PeerCore.Connection

open Noise (NoiseSession Entropy)
open Yamux (YamuxSession)

/-- `HandshakeState` (`connection_session.cpp:23-29`). -/
inductive HandshakeState
  | idle | awaitingMsg1 | awaitingMsg2 | awaitingMsg3 | complete
  deriving DecidableEq

/-- `SecurityStage` (`connection_session.cpp:31-36`). -/
inductive SecurityStage
  | negotiatingProtocol | noiseHandshake | muxerNegotiation | ready
  deriving DecidableEq

/-- `ConnectionState` (`connection_session.hpp:13-23`). -/
inductive ConnectionState
  | tcpConnecting | tcpAccepted | securing | secureReady | multiplexing | ready | closing | closed
  | failed
  deriving DecidableEq

/-- `ConnectionEvent::Type` (`events.hpp:37-45`). -/
inductive EventType
  | secured | multiplexerReady | streamOpened | streamAccepted | streamClosed | error | closed
  deriving DecidableEq

/-- `ConnectionEvent` (`events.hpp:36-50`). -/
structure ConnectionEvent where
  type : EventType
  streamId : Option StreamId
  detail : Bytes
  deriving DecidableEq

/-- What one `send` call does: it accepts up to `n + 1` bytes, reports `EAGAIN`, or
    fails with the text of `errno`. -/
inductive SendAnswer
  | accepted (n : ℕ)
  | again
  | failed (error : String)
  deriving DecidableEq

/-- What one `recv` call does. It returns the number of bytes: no bytes are the end
    of the stream. -/
inductive RecvAnswer
  | data (bytes : Bytes)
  | reset
  | again
  | failed (error : String)
  deriving DecidableEq

/-- One `shutdown(SHUT_WR)`: what had been queued and sent, and whether it succeeded. -/
structure ShutdownRecord where
  queued : Bytes
  sent : Bytes
  succeeded : Bool
  deriving DecidableEq

/-- The operating system's side of a socket. When `sends` is used up, `send`
    reports `EAGAIN`; `shutdownError` is the text of an `errno` other than
    `ENOTCONN`. -/
structure Socket where
  sends : List SendAnswer := []
  shutdownError : Option String := none
  /-- All bytes put into `wire_tx_buffer`. -/
  queued : Bytes := []
  /-- All bytes `send` accepted. -/
  sent : Bytes := []
  /-- All bytes `recv` returned. -/
  received : Bytes := []
  /-- The calls of `shutdown(SHUT_WR)`. -/
  shutdowns : List ShutdownRecord := []
  /-- What `close_socket` cleared out of `wire_tx_buffer`. -/
  unsent : Bytes := []
  /-- What it cleared out of `wire_rx_buffer`. -/
  unread : Bytes := []
  deriving DecidableEq

/-- `SessionIoState` (`connection_session.cpp:38-46`). -/
structure SessionIoState where
  fd : ℤ
  socketOpen : Bool := true
  writeShutdown : Bool := false
  wireRx : Bytes := []
  wireTx : Bytes := []
  socket : Socket := {}
  deriving DecidableEq

/-- One `NoiseHandshake::encrypt` with `cs_send` that succeeded. -/
structure SealRecord where
  key : Bytes32
  nonce : UInt64
  plaintext : Bytes
  ciphertext : Bytes
  deriving DecidableEq

/-- One `NoiseHandshake::decrypt` with `cs_recv`; `plaintext` is absent when it
    failed. -/
structure OpenRecord where
  key : Bytes32
  nonce : UInt64
  ciphertext : Bytes
  plaintext : Option Bytes
  deriving DecidableEq

/-- `SecureChannelState` (`connection_session.cpp:48-54`). -/
structure SecureChannelState where
  noise : NoiseSession := {}
  stage : SecurityStage := .negotiatingProtocol
  handshakeState : HandshakeState := .idle
  negotiatedStreamMuxer : Option ProtocolId := none
  secureReady : Bool := false
  random : ℕ → Entropy
  drawn : ℕ := 0
  sealed : List SealRecord := []
  opened : List OpenRecord := []
  /-- The keys of the handshake that drew `n` times. -/
  keyLogs : ℕ → Noise.KeyLog := fun _ => {}

/-- `StreamState` (`connection_session.cpp:56-67`). -/
structure StreamState where
  id : StreamId := 0
  connectionId : ConnectionId := 0
  protocol : Option ProtocolId := none
  rxBuffer : Bytes := []
  isOpen : Bool := true
  writeOpen : Bool := true
  closeWritePending : Bool := false
  deriving DecidableEq

/-- A `StreamHandle`: a Yamux stream of the session or a `DirectMuxedStream`. -/
inductive StreamHandle
  | yamux (stream : ℕ)
  | direct (stream : ℕ)
  deriving DecidableEq

/-- `BasicConnectionSession` (`connection_session.cpp:858-872`). -/
structure BasicConnectionSession where
  id : ConnectionId
  state : ConnectionState := .tcpAccepted
  remoteAddr : Multiaddr
  io : SessionIoState
  secure : SecureChannelState
  directStreams : ℕ → StreamState := fun _ => {}
  directCount : ℕ := 0
  streamState : Option ℕ := none
  eventQueue : List ConnectionEvent := []
  pendingInbound : List StreamHandle := []
  yamuxSession : Option YamuxSession := none
  muxerNegotiationBuffer : Bytes := []
  nextStreamId : StreamId := 1
  closedEmitted : Bool := false
  isInitiator : Bool
  createInboundStreamOnReady : Bool := false

/-- The constructor (`connection_session.cpp:316-330`). -/
def BasicConnectionSession.make (id : ConnectionId) (fd : ℤ) (remoteAddr : Multiaddr)
    (isInitiator : Bool) (identity : Option Identity) (streamMuxers : List ProtocolId)
    (random : ℕ → Entropy) : BasicConnectionSession :=
  { id, remoteAddr, isInitiator
    io := { fd }
    secure := { random, noise := { localIdentity := identity, localExtensions := ⟨streamMuxers⟩ } } }

/-- A method of the session. -/
abbrev Method (α : Type) := Op BasicConnectionSession α

/-! ## The socket -/

section Socket

/-- `close_socket` (`connection_session.cpp:69-77`). -/
def closeSocket (io : SessionIoState) : SessionIoState :=
  if io.socketOpen = false ∨ io.fd < 0 then io
  else
    { io with
      fd := -1, socketOpen := false, writeShutdown := true, wireRx := [], wireTx := []
      socket := { io.socket with unsent := io.wireTx, unread := io.wireRx } }

/-- `wire_tx_buffer.insert` at the end. -/
def SessionIoState.queue (io : SessionIoState) (bytes : Bytes) : SessionIoState :=
  { io with
    wireTx := io.wireTx ++ bytes
    socket := { io.socket with queued := io.socket.queued ++ bytes } }

/-- `send` accepts the first `n` bytes, or all of them. -/
def SessionIoState.accept (io : SessionIoState) (n : ℕ) : SessionIoState :=
  { io with
    wireTx := io.wireTx.drop n
    socket := { io.socket with sent := io.socket.sent ++ io.wireTx.take n } }

/-- `recv` returns `bytes`. -/
def SessionIoState.recv (io : SessionIoState) (bytes : Bytes) : SessionIoState :=
  { io with
    wireRx := io.wireRx ++ bytes
    socket := { io.socket with received := io.socket.received ++ bytes } }

/-- `shutdown(SHUT_WR)` is called. -/
def SessionIoState.shut (io : SessionIoState) (succeeded : Bool) : SessionIoState :=
  { io with
    writeShutdown := io.writeShutdown || succeeded
    socket := { io.socket with
      shutdowns := io.socket.shutdowns ++ [⟨io.socket.queued, io.socket.sent, succeeded⟩] } }

/-- `queue_wire_message` (`connection_session.cpp:79-86`). -/
def queueWireMessage (message : Bytes) : Op SessionIoState Unit := do
  let framed ← Op.ofResult (Noise.encodeFrame message)
  Op.modify (·.queue framed)

/-- `queue_raw_bytes` (`connection_session.cpp:88-91`). -/
def queueRawBytes (bytes : Bytes) : Op SessionIoState Unit := Op.modify (·.queue bytes)

/-- The loop of `flush_wire`, one answer of `send` for each iteration. -/
def flushWireLoop : List SendAnswer → Op SessionIoState Unit
  | [], io => (.ok (), { io with socket := { io.socket with sends := [] } })
  | answer :: rest, io =>
    if io.wireTx = [] then
      (.ok (), { io with socket := { io.socket with sends := answer :: rest } })
    else
      match answer with
      | .accepted n => flushWireLoop rest (io.accept (n + 1))
      | .again => (.ok (), { io with socket := { io.socket with sends := rest } })
      | .failed error => (.error error, { io with socket := { io.socket with sends := rest } })

/-- `flush_wire` (`connection_session.cpp:93-112`). -/
def flushWire : Op SessionIoState Unit := fun io =>
  if io.socketOpen = false ∨ io.fd < 0 then (.error "socket is closed", io)
  else flushWireLoop io.socket.sends io

/-- `try_pop_wire_frame` (`connection_session.cpp:140-159`): the frame and the bytes
    left in the buffer. -/
def tryPopWireFrame (buffer : Bytes) : Result (Option (Bytes × Bytes)) :=
  match buffer with
  | b0 :: b1 :: _ =>
    let total := Noise.frameLength b0 b1 + 2
    if buffer.length < total then .ok none
    else do
      let frame ← Noise.decodeFrame (buffer.take total)
      pure (some (frame, buffer.drop total))
  | _ => .ok none

end Socket

/-! ## The secure channel -/

section Secure

variable (S : Noise.Sodium)

/-- `NoiseHandshake::encrypt` with `noise.cs_send`. -/
def sealMessage (data : Bytes) : Op SecureChannelState Bytes := fun secure =>
  let cs := secure.noise.csSend
  match Noise.encrypt S data cs with
  | (.ok ciphertext, cs') =>
    (.ok ciphertext, { secure with
      noise := { secure.noise with csSend := cs' }
      sealed := secure.sealed ++ [⟨cs.key, cs.nonce, data, ciphertext⟩] })
  | (.error e, cs') => (.error e, { secure with noise := { secure.noise with csSend := cs' } })

/-- `NoiseHandshake::decrypt` with `noise.cs_recv`. -/
def openMessage (frame : Bytes) : Op SecureChannelState Bytes := fun secure =>
  let cs := secure.noise.csRecv
  match Noise.decrypt S frame cs with
  | (.ok plaintext, cs') =>
    (.ok plaintext, { secure with
      noise := { secure.noise with csRecv := cs' }
      opened := secure.opened ++ [⟨cs.key, cs.nonce, frame, some plaintext⟩] })
  | (.error e, cs') =>
    (.error e, { secure with
      noise := { secure.noise with csRecv := cs' }
      opened := secure.opened ++ [⟨cs.key, cs.nonce, frame, none⟩] })

/-- The key logs when a handshake function runs that `traced` traces. -/
def SecureChannelState.keysAfter {α : Type} (secure : SecureChannelState) (traced : Noise.Traced α) :
    ℕ → Noise.KeyLog :=
  Function.update secure.keyLogs secure.drawn
    (traced (secure.noise, secure.keyLogs secure.drawn)).2.2

/-- Run the handshake function `x` on `noise`, with its trace. -/
def onNoise {α β : Type} (traced : Noise.Traced β) (x : Op NoiseSession α) :
    Op SecureChannelState α := fun secure =>
  ((x secure.noise).1,
    { secure with noise := (x secure.noise).2, keyLogs := secure.keysAfter traced })

/-- The next output of `randombytes_buf`. -/
def drawEntropy : Op SecureChannelState Entropy := do
  let secure ← Op.get
  Op.modify fun secure => { secure with drawn := secure.drawn + 1 }
  pure (secure.random secure.drawn)

end Secure

/-- `select_stream_muxer` (`connection_session.cpp:242-256`). -/
def selectStreamMuxer (noise : NoiseSession) : Option ProtocolId :=
  if noise.localExtensions.streamMuxers = [] ∨ noise.remoteExtensions.streamMuxers = [] then none
  else noise.localExtensions.streamMuxers.find? (· ∈ noise.remoteExtensions.streamMuxers)

end PeerCore.Connection
