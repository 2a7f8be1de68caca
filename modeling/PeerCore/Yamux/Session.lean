import PeerCore.Types
import PeerCore.Lib.Op
import PeerCore.Lib.BigEndian

/-!
# The Yamux session

Model of `protocol/yamux/yamux.cpp`.

* A `std::shared_ptr<YamuxStream>` is an index into `heap`, which keeps every
  stream object the session has made: a handle stays usable after `erase_stream`
  has dropped the session's own reference.
* `streams_` and `send_windows_` are functions into `Option`.
* The callbacks act on an environment `E`. Of the session they see `send_buf_`
  only (`drain_outgoing`), so a method runs on a `Host E`, the session next to
  the environment.
-/

namespace PeerCore.Yamux

/-! ## Frames -/

/-- `YamuxHeader` (`yamux.hpp:16-22`). -/
structure YamuxHeader where
  version : UInt8 := 0
  type : UInt8 := 0
  flags : UInt16 := 0
  streamId : StreamId := 0
  length : UInt32 := 0
  deriving DecidableEq

/-- `kYamuxVersion`. -/
def yamuxVersion : UInt8 := 0

/-- `YamuxType`. -/
inductive YamuxType
  | data | windowUpdate | ping | goAway
  deriving DecidableEq

/-- The byte of a frame type. -/
def YamuxType.value : YamuxType → UInt8
  | data => 0
  | windowUpdate => 1
  | ping => 2
  | goAway => 3

/-- `YamuxFlag`. -/
inductive YamuxFlag
  | syn | ack | fin | rst
  deriving DecidableEq

/-- `flag_value` (`yamux.cpp:11-13`). -/
def YamuxFlag.value : YamuxFlag → UInt16
  | syn => 1
  | ack => 2
  | fin => 4
  | rst => 8

/-- `YamuxGoAwayCode`. -/
inductive YamuxGoAwayCode
  | normal | protocolError | internalError
  deriving DecidableEq

/-- The code of a GoAway frame. -/
def YamuxGoAwayCode.value : YamuxGoAwayCode → UInt32
  | normal => 0
  | protocolError => 1
  | internalError => 2

/-- `kInitialStreamWindow`. -/
def initialStreamWindow : UInt32 := 256 * 1024

/-- `has_flag` (`yamux.cpp:39-41`). -/
def hasFlag (flags : UInt16) (flag : YamuxFlag) : Bool := (flags &&& flag.value) ≠ 0

/-- The bytes `write_frame` appends (`yamux.cpp:426-433`). -/
def encodeFrame (hdr : YamuxHeader) (payload : Bytes) : Bytes :=
  hdr.version :: hdr.type :: BigEndian.encode16 hdr.flags ++ BigEndian.encode32 hdr.streamId ++
    BigEndian.encode32 hdr.length ++ payload

/-- `YamuxSession::try_parse_frame` (`yamux.cpp:337-359`): header, payload and
    the bytes left in `recv_buf_`. -/
def tryParseFrame (recvBuf : Bytes) : Option (YamuxHeader × Bytes × Bytes) :=
  match recvBuf with
  | version :: type :: f0 :: f1 :: i0 :: i1 :: i2 :: i3 :: l0 :: l1 :: l2 :: l3 :: rest =>
    let hdr : YamuxHeader :=
      { version, type
        flags := BigEndian.decode16 f0 f1
        streamId := BigEndian.decode32 i0 i1 i2 i3
        length := BigEndian.decode32 l0 l1 l2 l3 }
    let payloadSize := if hdr.type = YamuxType.data.value then hdr.length.toNat else 0
    if rest.length < payloadSize then none
    else some (hdr, rest.take payloadSize, rest.drop payloadSize)
  | _ => none

/-! ## Streams -/

/-- The data of a `YamuxStream` (`yamux.hpp:33-80`). Its four callbacks are the
    methods of the session that made it. -/
structure YamuxStream where
  id : StreamId := 0
  connId : ConnectionId := 0
  readClosed : Bool := false
  writeClosed : Bool := false
  reset : Bool := false
  recvBuf : Bytes := []
  protocol : Option ProtocolId := none
  deriving DecidableEq

/-- `YamuxStream::is_open` (`yamux.cpp:99-102`). -/
def YamuxStream.isOpen (s : YamuxStream) : Bool :=
  if s.reset then false else !s.readClosed || !s.writeClosed || !s.recvBuf.isEmpty

/-- `YamuxStream::receive_data` (`yamux.cpp:108-110`). -/
def YamuxStream.receiveData (s : YamuxStream) (data : Bytes) : YamuxStream :=
  { s with recvBuf := s.recvBuf ++ data }

/-- `YamuxStream::receive_fin` (`yamux.cpp:112-114`). -/
def YamuxStream.receiveFin (s : YamuxStream) : YamuxStream := { s with readClosed := true }

/-- `YamuxStream::receive_rst` (`yamux.cpp:116-121`); `reset()` makes the same
    changes before its callback (`yamux.cpp:92-95`). -/
def YamuxStream.receiveRst (s : YamuxStream) : YamuxStream :=
  { s with readClosed := true, writeClosed := true, reset := true, recvBuf := [] }

/-- `YamuxStream::set_protocol` (`yamux.cpp:123-125`). -/
def YamuxStream.setProtocol (s : YamuxStream) (proto : ProtocolId) : YamuxStream :=
  { s with protocol := some proto }

/-- `YamuxStream::close_local_write` (`yamux.cpp:127-129`). -/
def YamuxStream.closeLocalWrite (s : YamuxStream) : YamuxStream := { s with writeClosed := true }

/-! ## The session object -/

/-- `YamuxSession` (`yamux.hpp:83-137`). -/
structure YamuxSession where
  connId : ConnectionId := 0
  isClient : Bool
  nextStreamId : StreamId
  heap : ℕ → YamuxStream := fun _ => {}
  allocated : ℕ := 0
  streams : StreamId → Option ℕ := fun _ => none
  sendWindows : StreamId → Option UInt32 := fun _ => none
  recvBuf : Bytes := []
  sendBuf : Bytes := []
  remoteGoAway : Bool := false

/-- The constructor (`yamux.cpp:139-142`). -/
def YamuxSession.make (connId : ConnectionId) (isClient : Bool) : YamuxSession :=
  { connId, isClient, nextStreamId := if isClient then 1 else 2 }

/-- The three callbacks. `accept` gets the handle and the id of the stream,
    `outgoing` gets `send_buf_` and returns what it leaves there. -/
structure Callbacks (E : Type) where
  accept : Option (ℕ → StreamId → E → E)
  outgoing : Option (Bytes → E → Result Unit × Bytes × E)
  close : Option (StreamId → String → E → E)

/-- A session and the environment of its callbacks. -/
abbrev Host (E : Type) := YamuxSession × E

namespace YamuxSession

/-- Change the stream object behind a handle. -/
def setStream (s : YamuxSession) (handle : ℕ) (f : YamuxStream → YamuxStream) : YamuxSession :=
  { s with heap := Function.update s.heap handle (f (s.heap handle)) }

/-- `write_frame` (`yamux.cpp:426-433`). -/
def writeFrame (s : YamuxSession) (hdr : YamuxHeader) (payload : Bytes) : YamuxSession :=
  { s with sendBuf := s.sendBuf ++ encodeFrame hdr payload }

/-- `erase_stream` (`yamux.cpp:317-320`). -/
def eraseStream (s : YamuxSession) (sid : StreamId) : YamuxSession :=
  { s with
    streams := Function.update s.streams sid none
    sendWindows := Function.update s.sendWindows sid none }

/-- `is_remote_stream_id` (`yamux.cpp:322-326`). -/
def isRemoteStreamId (s : YamuxSession) (sid : StreamId) : Bool :=
  if sid = 0 then false else if s.isClient then sid % 2 = 0 else sid % 2 = 1

/-- The branch of `get_or_create_stream` that makes a stream. -/
def createStream (s : YamuxSession) (sid : StreamId) : YamuxSession :=
  { s with
    heap := Function.update s.heap s.allocated { id := sid, connId := s.connId }
    allocated := s.allocated + 1
    streams := Function.update s.streams sid (some s.allocated)
    sendWindows := Function.update s.sendWindows sid (some initialStreamWindow) }

/-- `get_or_create_stream` (`yamux.cpp:190-211`). -/
def getOrCreateStream (s : YamuxSession) (sid : StreamId) (openIfMissing : Bool) :
    Option ℕ × YamuxSession :=
  match s.streams sid with
  | some handle => (some handle, s)
  | none => if openIfMissing then (some s.allocated, s.createStream sid) else (none, s)

/-- `it->second -= writable` on a `send_windows_` entry that holds `window`. -/
def debitWindow (s : YamuxSession) (sid : StreamId) (window writable : UInt32) : YamuxSession :=
  { s with sendWindows := Function.update s.sendWindows sid (some (window - writable)) }

/-- The `WindowUpdate` part of `handle_frame` (`yamux.cpp:399-405`). -/
def creditWindow (s : YamuxSession) (sid : StreamId) (delta : UInt32) : YamuxSession :=
  match s.sendWindows sid with
  | some window =>
    let next := min (window.toNat + delta.toNat) (2 ^ 32 - 1)
    { s with sendWindows := Function.update s.sendWindows sid (some (UInt32.ofNat next)) }
  | none => s

end YamuxSession

open YamuxSession

section Methods

variable {E : Type} (cb : Callbacks E)

/-- `if (outgoing_cb_) return outgoing_cb_();` -/
def runOutgoing : Op (Host E) Unit := fun h =>
  match cb.outgoing with
  | none => (.ok (), h)
  | some outgoing =>
    let (r, sendBuf, e) := outgoing h.1.sendBuf h.2
    (r, { h.1 with sendBuf }, e)

/-- `write_frame` followed by the outgoing callback. -/
def sendFrame (hdr : YamuxHeader) (payload : Bytes) : Op (Host E) Unit := do
  Op.modify fun h => (h.1.writeFrame hdr payload, h.2)
  runOutgoing cb

/-- A header of the local version. -/
def header (type : YamuxType) (flags : UInt16) (streamId : StreamId) (length : UInt32) :
    YamuxHeader :=
  { version := yamuxVersion, type := type.value, flags, streamId, length }

/-- `open_stream` (`yamux.cpp:154-176`): the handle of the new stream. -/
def openStream : Op (Host E) ℕ := do
  let h ← Op.get
  if h.1.remoteGoAway then Op.fail "yamux session is shutting down"
  else
    let sid := h.1.nextStreamId
    let (stream, s) := { h.1 with nextStreamId := sid + 2 }.getOrCreateStream sid true
    Op.modify fun h => (s, h.2)
    sendFrame cb (header .data YamuxFlag.syn.value sid 0) []
    pure (stream.getD 0)

/-- `write_stream_data` (`yamux.cpp:213-237`). -/
def writeStreamData (sid : StreamId) (data : Bytes) : Op (Host E) ℕ := do
  let h ← Op.get
  match h.1.sendWindows sid with
  | none => Op.fail "unknown yamux stream"
  | some window =>
    let writable := min data.length window.toNat
    if writable = 0 then Op.fail "EAGAIN"
    else
      Op.modify fun h => (h.1.writeFrame (header .data 0 sid (UInt32.ofNat writable))
        (data.take writable), h.2)
      Op.modify fun h => (h.1.debitWindow sid window (UInt32.ofNat writable), h.2)
      runOutgoing cb
      pure writable

/-- `acknowledge_stream` (`yamux.cpp:239-249`). -/
def acknowledgeStream (sid : StreamId) : Op (Host E) Unit :=
  sendFrame cb (header .data YamuxFlag.ack.value sid 0) []

/-- `close_stream_write` (`yamux.cpp:251-264`). -/
def closeStreamWrite (sid : StreamId) : Op (Host E) Unit := do
  Op.modify fun h => (h.1.writeFrame (header .data YamuxFlag.fin.value sid 0) [], h.2)
  Op.modify fun h => match h.1.streams sid with
    | some stream => (h.1.setStream stream YamuxStream.closeLocalWrite, h.2)
    | none => h
  runOutgoing cb

/-- `reset_stream` (`yamux.cpp:266-277`). -/
def resetStream (sid : StreamId) : Op (Host E) Unit := do
  Op.modify fun h => (h.1.writeFrame (header .data YamuxFlag.rst.value sid 0) [], h.2)
  Op.modify fun h => (h.1.eraseStream sid, h.2)
  runOutgoing cb

/-- `update_receive_window` (`yamux.cpp:279-291`). -/
def updateReceiveWindow (sid : StreamId) (delta : ℕ) : Op (Host E) Unit :=
  if delta = 0 then pure ()
  else sendFrame cb (header .windowUpdate 0 sid (UInt32.ofNat delta)) []

/-- `send_ping_ack` (`yamux.cpp:293-303`). -/
def sendPingAck (opaqueValue : UInt32) : Op (Host E) Unit :=
  sendFrame cb (header .ping YamuxFlag.ack.value 0 opaqueValue) []

/-- `send_go_away` (`yamux.cpp:305-315`). -/
def sendGoAway (code : YamuxGoAwayCode) : Op (Host E) Unit :=
  sendFrame cb (header .goAway 0 0 code.value) []

/-! ## Stream handles -/

/-- `YamuxStream::try_read` (`yamux.cpp:61-76`) with a buffer of `size` bytes:
    the bytes read. -/
def tryRead (stream size : ℕ) : Op (Host E) Bytes := do
  let h ← Op.get
  let st := h.1.heap stream
  if st.recvBuf = [] then
    if st.readClosed ∨ st.reset then pure [] else Op.fail "EAGAIN"
  else
    let out := st.recvBuf.take size
    Op.modify fun h =>
      (h.1.setStream stream fun st => { st with recvBuf := st.recvBuf.drop size }, h.2)
    fun h => (.ok out, (updateReceiveWindow cb st.id out.length h).2)

/-- `YamuxStream::try_write` (`yamux.cpp:78-83`). -/
def tryWrite (stream : ℕ) (data : Bytes) : Op (Host E) ℕ := do
  let h ← Op.get
  let st := h.1.heap stream
  if st.writeClosed ∨ st.reset then Op.fail "stream is closed for writing"
  else writeStreamData cb st.id data

/-- `YamuxStream::close_write` (`yamux.cpp:85-89`). -/
def closeWrite (stream : ℕ) : Op (Host E) Unit := do
  let h ← Op.get
  let st := h.1.heap stream
  if st.writeClosed then pure ()
  else
    Op.modify fun h => (h.1.setStream stream YamuxStream.closeLocalWrite, h.2)
    closeStreamWrite cb st.id

/-- `YamuxStream::reset` (`yamux.cpp:91-97`). -/
def reset (stream : ℕ) : Op (Host E) Unit := do
  let h ← Op.get
  Op.modify fun h => (h.1.setStream stream YamuxStream.receiveRst, h.2)
  resetStream cb (h.1.heap stream).id

/-! ## Received frames -/

/-- `if (close_cb_) close_cb_(sid, detail);` -/
def runClose (sid : StreamId) (detail : String) (h : Host E) : Host E :=
  match cb.close with
  | none => h
  | some close => (h.1, close sid detail h.2)

/-- The first half of the stream part of `handle_frame` (`yamux.cpp:388-397`):
    a stream made by a SYN is announced and acknowledged. -/
def acceptStream (stream : ℕ) (sid : StreamId) (h : Host E) : Host E :=
  let h := match cb.accept with
    | none => h
    | some accept => (h.1, accept stream sid h.2)
  (acknowledgeStream cb sid h).2

/-- The second half (`yamux.cpp:399-423`): window, payload, FIN and RST. -/
def applyFrame (hdr : YamuxHeader) (payload : Bytes) (stream : ℕ) (h : Host E) : Host E :=
  let h := if hdr.type = YamuxType.windowUpdate.value ∧ hdr.length > 0
    then (h.1.creditWindow hdr.streamId hdr.length, h.2) else h
  let h := if payload ≠ [] then (h.1.setStream stream (·.receiveData payload), h.2) else h
  let h := if hasFlag hdr.flags .fin then
      let h := (h.1.setStream stream YamuxStream.receiveFin, h.2)
      if (h.1.heap stream).isOpen then h else runClose cb hdr.streamId "yamux stream closed" h
    else h
  if hasFlag hdr.flags .rst then
    let h := (h.1.setStream stream YamuxStream.receiveRst, h.2)
    let h := runClose cb hdr.streamId "yamux stream reset by peer" h
    (h.1.eraseStream hdr.streamId, h.2)
  else h

/-- `handle_frame` (`yamux.cpp:361-424`). -/
def handleFrame (hdr : YamuxHeader) (payload : Bytes) (h : Host E) : Host E :=
  if hdr.version ≠ yamuxVersion then h
  else if hdr.type = YamuxType.ping.value then
    if hasFlag hdr.flags .ack then h else (sendPingAck cb hdr.length h).2
  else if hdr.type = YamuxType.goAway.value then ({ h.1 with remoteGoAway := true }, h.2)
  else if ¬ (hdr.type = YamuxType.data.value ∨ hdr.type = YamuxType.windowUpdate.value) ∨
      hdr.streamId = 0 then h
  else
    let openIfMissing := hasFlag hdr.flags .syn
    if openIfMissing && !h.1.isRemoteStreamId hdr.streamId then
      (sendGoAway cb .protocolError h).2
    else
      let existed := (h.1.streams hdr.streamId).isSome
      match h.1.getOrCreateStream hdr.streamId openIfMissing with
      | (none, s) => (s, h.2)
      | (some stream, s) =>
        let h := (s, h.2)
        let h := if openIfMissing && !existed then acceptStream cb stream hdr.streamId h else h
        applyFrame cb hdr payload stream h

/-- The loop of `process_frames` (`yamux.cpp:328-335`). Each iteration takes at
    least the twelve header bytes from `recv_buf_`, so `fuel` is its length. -/
def processFramesLoop : ℕ → Host E → Host E
  | 0, h => h
  | fuel + 1, h =>
    match tryParseFrame h.1.recvBuf with
    | none => h
    | some (hdr, payload, rest) =>
      processFramesLoop fuel (handleFrame cb hdr payload ({ h.1 with recvBuf := rest }, h.2))

/-- `process_frames`. -/
def processFrames (h : Host E) : Host E := processFramesLoop cb h.1.recvBuf.length h

/-- `receive` (`yamux.cpp:144-148`). -/
def receive (data : Bytes) : Op (Host E) Unit := fun h =>
  (.ok (), processFrames cb ({ h.1 with recvBuf := h.1.recvBuf ++ data }, h.2))

end Methods

/-- `drain_outgoing` (`yamux.cpp:150-152`). -/
def drainOutgoing (s : YamuxSession) : Bytes × YamuxSession := (s.sendBuf, { s with sendBuf := [] })

end PeerCore.Yamux
