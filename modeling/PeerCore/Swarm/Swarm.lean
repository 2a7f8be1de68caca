import PeerCore.Swarm.Negotiation

/-!
# The swarm

Model of the functions of `swarm.cpp`, lines 286-876, with the parts of
`tcp_transport.cpp` and `event_loop.cpp` they run through. A function that returns
a `Result` is an `Op World`; one that returns nothing is a function on the world.
-/

namespace PeerCore

open Connection (BasicConnectionSession StreamHandle ConnectionEvent)

namespace World

/-- Change the session behind an id. -/
def modifySession (w : World) (id : ConnectionId) (f : BasicConnectionSession → BasicConnectionSession) :
    World :=
  match w.swarm.sessions id with
  | none => w
  | some s => w.setSession id (f s)

/-- `remote_peer()` of a connection. -/
def remotePeer (w : World) (id : ConnectionId) : Option PeerId :=
  (w.findConnection id).bind (·.remotePeer)

end World

/-- `stream_key` (`swarm.cpp:580-582`). -/
def streamKey (connId : ConnectionId) (streamId : StreamId) : UInt64 :=
  (connId <<< 32) ||| streamId.toUInt64

section Swarm

variable (S : Noise.Sodium)

/-- `dispatch_event` (`swarm.cpp:532-535`). -/
def dispatchEvent (event : SwarmEvent) (w : World) : World :=
  let w := userCode S w
  { w with swarm := { w.swarm with
    eventQueue := w.swarm.eventQueue ++ [event]
    history := w.swarm.history ++ [event] } }

/-! ## Connections -/

/-- `register_connection` (`swarm.cpp:698-725`). -/
def registerConnection (id : ConnectionId) (fd : Fd) (w : World) : World :=
  let sw := w.swarm
  let sw := if fd ∈ sw.dialingFds then
      { sw with
        eventLoop := sw.eventLoop.unregisterFd fd
        dialingFds := sw.dialingFds.filter (· ≠ fd) }
    else sw
  { w with swarm := { sw with
    connFds := sw.connFds.insert id fd
    fdToConn := sw.fdToConn.insert fd id
    eventLoop := sw.eventLoop.registerFd fd .connection } }

/-- The tables after a change of the peer of a connection. -/
def PeerTableChange.apply (change : PeerTableChange)
    (tables : UnorderedMap Bytes ConnectionId × UnorderedMap ConnectionId Bytes) :
    UnorderedMap Bytes ConnectionId × UnorderedMap ConnectionId Bytes :=
  match change with
  | .identify id key => (tables.1.insert key id, tables.2.insert id key)
  | .forget id =>
    match tables.2.lookup id with
    | some key => (tables.1.erase key, tables.2.erase id)
    | none => tables
  | .clear => (∅, ∅)

/-- Change `peer_connections_` and `connection_peers_`. -/
def changePeers (change : PeerTableChange) (w : World) : World :=
  let tables := change.apply (w.swarm.peerConnections, w.swarm.connectionPeers)
  { w with swarm := { w.swarm with
    peerConnections := tables.1
    connectionPeers := tables.2
    peerLog := w.swarm.peerLog ++ [change] } }

/-- Erase keys from `pending_streams_`. -/
def erasePending (keys : List UInt64) (w : World) : World :=
  { w with swarm := { w.swarm with
    pendingStreams := keys.foldl (fun pending key => pending.erase key) w.swarm.pendingStreams } }

/-- The part of `remove_connection` about `pending_streams_` (`swarm.cpp:861-868`). -/
def removePending (id : ConnectionId) (w : World) : World :=
  let w' := erasePending (w.swarm.pendingStreams.keys.filter fun key => key >>> 32 = id) w
  { w' with swarm := { w'.swarm with
    removals := w'.swarm.removals ++ [⟨id, w.swarm.pendingStreams, w'.swarm.pendingStreams⟩] } }

/-- `remove_connection` (`swarm.cpp:856-876`). The session is closed by its destructor
    (`connection_session.cpp:332`). -/
def removeConnection (id : ConnectionId) (w : World) : World :=
  let w := changePeers (.forget id) w
  let w := removePending id w
  let w := match w.swarm.connFds.lookup id with
    | some fd => { w with swarm := { w.swarm with
        eventLoop := w.swarm.eventLoop.unregisterFd fd
        fdToConn := w.swarm.fdToConn.erase fd
        connFds := w.swarm.connFds.erase id } }
    | none => w
  { w with swarm := { w.swarm with connections := w.swarm.connections.filter (· ≠ id) } }.modifySession
    id Connection.close

/-- Remove the connections of a list, one after the other. -/
def removeConnections (ids : List ConnectionId) (w : World) : World :=
  ids.foldl (fun w id => removeConnection id w) w

/-! ## Streams under negotiation -/

/-- A new `ProtocolNegotiatingStream`: its handle. -/
def newNegotiation (neg : ProtocolNegotiatingStream) (w : World) : ℕ × World :=
  (w.swarm.negotiationCount, { w with swarm := { w.swarm with
    negotiations := Function.update w.swarm.negotiations w.swarm.negotiationCount neg
    negotiationCount := w.swarm.negotiationCount + 1 } })

/-- `pending_streams_[stream_key(id, stream->id())] = stream`. -/
def addPending (id : ConnectionId) (n : ℕ) (w : World) : World :=
  { w with swarm := { w.swarm with
    pendingStreams := w.swarm.pendingStreams.insert (streamKey id (Negotiation.idOf w n)) n
    keyed := w.swarm.keyed ++ [(id, Negotiation.idOf w n)] } }

/-- The peer of a connection, as `poll_pending_streams` finds it. -/
def pendingPeer (w : World) (id : ConnectionId) : Option PeerId :=
  match w.swarm.connectionPeers.lookup id with
  | none => none
  | some key =>
    match PeerId.fromString key with
    | .ok peer => some peer
    | .error _ => none

/-- The event that `poll_pending_streams` dispatches for a stream. -/
def pendingEvent (w : World) (n : ℕ) (type : SwarmEventType) (detail : Bytes) : SwarmEvent :=
  { type
    connectionId := (w.swarm.negotiations n).connId
    streamId := some (Negotiation.idOf w n)
    peerId := pendingPeer w (w.swarm.negotiations n).connId
    detail }

/-- Something is told about a stream. -/
def logStream (n : ℕ) (report : StreamReport) (w : World) : World :=
  { w with swarm := { w.swarm with streamLog := w.swarm.streamLog ++ [(n, report)] } }

/-- An owner is given a stream. -/
def giveTo (n : ℕ) (w : World) : World :=
  { w with swarm := { w.swarm with given := w.swarm.given ++ [n] } }

/-- `find_handler` (`swarm.cpp:564-569`): its `protocol_id()`. -/
def findHandler (w : World) (proto : ProtocolId) : Option ProtocolId :=
  w.swarm.handlers.find? (· = proto)

/-- The callback for a negotiated stream (`swarm.cpp:633-639`): the handler is given the
    stream. -/
def notifyHandler (n : ℕ) (w : World) : World :=
  let neg := w.swarm.negotiations n
  match neg.negotiatedProtocol.bind (findHandler w) with
  | none => w
  | some handler =>
    let method := if neg.inbound then .onInboundStream else .onOutboundStreamReady
    userCode S (giveTo n (logStream n (.callback handler method) w))

/-- The event that ends a negotiation is dispatched. -/
def dispatchOutcome (n : ℕ) (event : SwarmEvent) (w : World) : World :=
  logStream n (.outcome event) (dispatchEvent S event w)

/-- One stream of `poll_pending_streams` (`swarm.cpp:588-644`), and whether it is to be
    erased. -/
def pollPendingStream (n : ℕ) (w : World) : Bool × World :=
  let (progress, w) := Negotiation.poll S n w
  let neg := w.swarm.negotiations n
  if (match progress with | .error _ => true | .ok _ => false) && !neg.hasFailed then (false, w)
  else if neg.hasFailed then
    (true, dispatchOutcome S n (pendingEvent w n .protocolError (ascii neg.failureText)) w)
  else
    match neg.isNegotiated, neg.negotiatedProtocol with
    | true, some protocol =>
      (true, notifyHandler S n (dispatchOutcome S n (pendingEvent w n .protocolNegotiated protocol) w))
    | _, _ => (false, w)

/-- The loop of `poll_pending_streams`: the keys to be erased. -/
def pollPendingLoop : List UInt64 → List UInt64 → World → List UInt64 × World
  | [], finished, w => (finished, w)
  | key :: keys, finished, w =>
    match w.swarm.pendingStreams.lookup key with
    | none => pollPendingLoop keys finished w
    | some n =>
      let (done, w) := pollPendingStream S n w
      pollPendingLoop keys (if done then finished ++ [key] else finished) w

/-- `poll_pending_streams` (`swarm.cpp:584-652`). -/
def pollPendingStreams (w : World) : World :=
  let (answers, w) := w.ask
  let (finished, w) := pollPendingLoop S (answers.idOrder.1 w.swarm.pendingStreams.keys) [] w
  erasePending finished w

/-! ## The events of a connection -/

/-- The wrapping of an accepted stream (`swarm.cpp:804-815`). -/
def acceptStream (id : ConnectionId) (w : World) : World :=
  match w.findConnection id with
  | none => w
  | some s =>
    match Connection.acceptInboundStream s with
    | (none, s) => w.setSession id s
    | (some stream, s) =>
      let (n, w) := newNegotiation
        { connId := id, inner := stream, supportedProtocols := w.swarm.handlers, inbound := true
          stage := .awaitingInboundProposal } (w.setSession id s)
      addPending id n w

/-- The Secured event (`swarm.cpp:752-776`). -/
def handleSecured (id : ConnectionId) (detail : Bytes) (w : World) : World :=
  match w.remotePeer id with
  | none => w
  | some peer =>
    let w := changePeers (.identify id peer.toString) w
    let w := dispatchEvent S
      { type := .peerIdentified, connectionId := id, peerId := w.remotePeer id, detail } w
    match (w.findConnection id).bind (·.negotiatedStreamMuxer) with
    | none => w
    | some muxer => dispatchEvent S
        { type := .protocolNegotiated, connectionId := id, peerId := w.remotePeer id, detail := muxer } w

/-- A connection becomes established: the store of peers (`swarm.cpp:780-785`). -/
def recordEstablished (id : ConnectionId) (w : World) : World :=
  { w with swarm := { w.swarm with
    peerStore := match w.remotePeer id with
      | none => w.swarm.peerStore
      | some peer => w.swarm.peerStore.recordDialSuccess peer
    established := w.swarm.established ++ [{
      connId := id
      outbound := (w.findConnection id).any (·.isInitiator)
      origin := w.swarm.origins id
      peerId := w.remotePeer id }] } }

/-- The MultiplexerReady event (`swarm.cpp:777-794`). -/
def handleMultiplexerReady (id : ConnectionId) (detail : Bytes) (w : World) : World :=
  let peerId := w.remotePeer id
  dispatchEvent S { type := .connectionEstablished, connectionId := id, peerId, detail }
    (recordEstablished id w)

/-- `handle_connection_event` (`swarm.cpp:748-854`): `closed_connections` and the world. -/
def handleConnectionEvent (id : ConnectionId) (event : ConnectionEvent)
    (closedConnections : List ConnectionId) (w : World) : List ConnectionId × World :=
  let forward := fun type => dispatchEvent S
    { type, connectionId := id, streamId := event.streamId, detail := event.detail }
  match event.type with
  | .secured => (closedConnections, handleSecured S id event.detail w)
  | .multiplexerReady => (closedConnections, handleMultiplexerReady S id event.detail w)
  | .streamOpened => (closedConnections, forward .streamOpened w)
  | .streamAccepted =>
    (closedConnections, forward .streamAccepted (if event.streamId.isSome then acceptStream id w else w))
  | .streamClosed => (closedConnections, forward .streamClosed w)
  | .error => (closedConnections, forward .protocolError w)
  | .closed => (closedConnections ++ [id], forward .connectionClosed w)

/-- The loop of `drain_connection_events_for`. A handled event queues no other, so `fuel`
    is the number of events. -/
def drainLoop (id : ConnectionId) : ℕ → List ConnectionId → World → List ConnectionId × World
  | 0, closedConnections, w => (closedConnections, w)
  | fuel + 1, closedConnections, w =>
    match w.swarm.sessions id with
    | none => (closedConnections, w)
    | some s =>
      match Connection.nextEvent s with
      | (none, s) => (closedConnections, w.setSession id s)
      | (some event, s) =>
        let (closedConnections, w) := handleConnectionEvent S id event closedConnections
          (w.setSession id s)
        drainLoop id fuel closedConnections w

/-- `drain_connection_events_for` (`swarm.cpp:738-746`). -/
def drainConnectionEventsFor (id : ConnectionId) (closedConnections : List ConnectionId)
    (w : World) : List ConnectionId × World :=
  match w.findConnection id with
  | none => (closedConnections, w)
  | some s => drainLoop S id s.eventQueue.length closedConnections w

/-- Drain some connections, then remove the ones that closed. -/
def drainAndRemove (ids : List ConnectionId) (w : World) : World :=
  let (closedConnections, w) := ids.foldl
    (fun p id => drainConnectionEventsFor S id p.1 p.2) (([] : List ConnectionId), w)
  removeConnections closedConnections w

/-- `drain_connection_events` (`swarm.cpp:727-736`). -/
def drainConnectionEvents (w : World) : World :=
  let (answers, w) := w.ask
  drainAndRemove S (answers.idOrder.1 w.swarm.connections) w

/-! ## New connections -/

/-- A new session in `connections_`. -/
def newConnection (socket : TcpSocket) (isInitiator : Bool)
    (origin : Option (DialOrigin socket.remoteAddr)) (w : World) : ConnectionId × World :=
  let (answers, w) := w.ask
  let id := w.swarm.nextConnId
  let session := BasicConnectionSession.make id socket.fd socket.remoteAddr isInitiator
    w.swarm.localIdentity w.swarm.localStreamMuxers answers.random
  (id, { w with swarm := { w.swarm with
    sessions := Function.update w.swarm.sessions id (some session)
    connections := w.swarm.connections.insert id
    nextConnId := id + 1
    made := w.swarm.made + 1
    origins := Function.update w.swarm.origins id (origin.map (⟨_, ·⟩)) } })

/-- What `on_accepted` and `on_connected` do with the result of the upgrade call: an error
    is dispatched and closes the connection; then its events are drained. -/
def finishUpgrade (id : ConnectionId) (upgrade : Result Unit) (w : World) : World :=
  let w := match upgrade with
    | .ok () => w
    | .error e => (dispatchEvent S { type := .protocolError, connectionId := id, detail := ascii e }
        w).modifySession id Connection.close
  drainAndRemove S [id] w

/-- `on_accepted` (`swarm.cpp:351-384`). -/
def onAccepted (socket : TcpSocket) (w : World) : World :=
  let (id, w) := newConnection socket false none w
  let w := registerConnection id socket.fd w
  let w := dispatchEvent S
    { type := .incomingConnection, connectionId := id, detail := socket.remoteAddr.bytes } w
  let (upgrade, w) := onSession S id Connection.beginInboundUpgrade w
  finishUpgrade S id upgrade w

/-- `on_connected` (`swarm.cpp:413-438`). -/
def onConnected (socket : TcpSocket) (origin : Option (DialOrigin socket.remoteAddr)) (w : World) :
    World :=
  let (id, w) := newConnection socket true origin w
  let w := registerConnection id socket.fd w
  let (upgrade, w) := onSession S id Connection.beginOutboundUpgrade w
  finishUpgrade S id upgrade w

/-- `on_dial_failed` (`swarm.cpp:439-447`). -/
def onDialFailed (addr : Multiaddr) (detail : String) (w : World) : World :=
  dispatchEvent S { type := .dialFailed, detail := addr.bytes ++ ascii ": " ++ ascii detail } w

/-! ## The transport -/

/-- `sync_transport_fds` for one kind of fd (`swarm.cpp:655-674`, `676-696`): register the
    current ones that are not `known` or `skipped`, and unregister the others. -/
def syncFds (callback : FdCallback) (current known : List Fd) (skipped : Fd → Bool) (loop : EventLoop) :
    List Fd × EventLoop :=
  let added := current.filter fun fd => fd ∉ known ∧ skipped fd = false
  let loop := added.foldl (fun loop fd => loop.registerFd fd callback) loop
  let known := known ++ added
  let removed := known.filter (· ∉ current)
  (known.filter (· ∈ current), removed.foldl (fun loop fd => loop.unregisterFd fd) loop)

/-- `sync_transport_fds` (`swarm.cpp:654-696`). -/
def syncTransportFds (w : World) : World :=
  let (answers, w) := w.ask
  let sw := w.swarm
  let listeners := answers.fdOrder.1 (sw.transport.listeners.map (·.fd)).dedup
  let (listenerFds, loop) := syncFds .listener listeners sw.listenerFds (fun _ => false) sw.eventLoop
  let dials := answers.fdOrder.1 (sw.transport.pendingDials.map (·.fd)).dedup
  let (dialingFds, loop) := syncFds .dial dials sw.dialingFds
    (fun fd => (sw.fdToConn.lookup fd).isSome) loop
  { w with swarm := { sw with listenerFds, dialingFds, eventLoop := loop } }

/-- The loop of `TcpTransport::on_accept_ready`. -/
def acceptLoop (accepts : List AcceptAnswer) (w : World) : World :=
  accepts.foldl (fun w answer => match answer with
    | .accepted socket => onAccepted S socket w
    | .setupFailed | .unaddressed => w) w

/-- `TcpTransport::on_accept_ready` (`tcp_transport.cpp:139-179`). -/
def onAcceptReady (listenFd : Fd) (w : World) : World :=
  if listenFd ∈ w.swarm.transport.listeners.map (·.fd) then
    let (answers, w) := w.ask
    acceptLoop S answers.accepts w
  else w

/-- `TcpTransport::on_connect_ready` (`tcp_transport.cpp:181-217`). -/
def onConnectReady (socketFd : Fd) (w : World) : World :=
  match w.swarm.transport.pendingDials.find? (·.fd = socketFd) with
  | none => w
  | some dial =>
    let (answers, w) := w.ask
    let w := { w with swarm := { w.swarm with transport := { w.swarm.transport with
      pendingDials := w.swarm.transport.pendingDials.eraseP (·.fd = socketFd) } } }
    match answers.soError with
    | some error => onDialFailed S dial.addr error w
    | none => onConnected S ⟨dial.fd, dial.addr⟩ dial.origin w

/-- `to_sockaddr` (`tcp_transport.cpp:21-35`), as far as it can fail. -/
def toSockaddr (addr : Multiaddr) (ip4 : Bool) : Result Unit :=
  match addr.parseIp4Tcp with
  | .error e => .error e
  | .ok _ => if ip4 then .ok () else .error "invalid IPv4 address"

/-- `TcpTransport::dial` (`tcp_transport.cpp:100-137`). -/
def transportDial (addr : Multiaddr) (origin : Option (DialOrigin addr)) : Op World Unit := do
  let answers ← Op.update World.ask
  Op.ofResult (toSockaddr addr answers.ip4)
  let fd ← Op.ofResult answers.socket
  match answers.connect with
  | .connected => Op.modify (onConnected S ⟨fd, addr⟩ origin)
  | .failed error => Op.modify (onDialFailed S addr error)
  | .inProgress => Op.modify fun w => { w with swarm := { w.swarm with
      transport := { w.swarm.transport with
        pendingDials := w.swarm.transport.pendingDials ++ [⟨fd, addr, origin⟩] } } }

/-- `TcpTransport::listen` (`tcp_transport.cpp:76-98`). -/
def transportListen (addr : Multiaddr) : Op World Unit := do
  let answers ← Op.update World.ask
  Op.ofResult (toSockaddr addr answers.ip4)
  let fd ← Op.ofResult answers.socket
  Op.modify fun w => { w with swarm := { w.swarm with
    transport := { w.swarm.transport with
      listeners := w.swarm.transport.listeners ++ [⟨fd, addr⟩] } } }

/-! ## The event loop -/

/-- The callbacks registered by `sync_transport_fds` and `register_connection`. -/
def runCallback (handler : FdHandler) (event : IoEvent) (w : World) : World :=
  match handler.callback with
  | .listener => if event = .readable ∨ event = .error then onAcceptReady S handler.fd w else w
  | .dial => if event = .writable ∨ event = .error then onConnectReady S handler.fd w else w
  | .connection =>
    match w.swarm.fdToConn.lookup handler.fd with
    | none => w
    | some id =>
      if id ∉ w.swarm.connections then w
      else
        match event with
        | .readable =>
          let (answers, w) := w.ask
          (onSession S id (fun s => (.ok (), Connection.onSocketReadable S answers.recv s)) w).2
        | .writable => (onSession S id (fun s => (.ok (), Connection.onSocketWritable s)) w).2
        | .error => w.modifySession id Connection.close

/-- `h.callback(event)`, where `h` is the handler at `index`. -/
def callHandler (index : ℕ) (event : IoEvent) (w : World) : World :=
  match w.swarm.eventLoop[index]? with
  | none => w
  | some handler => runCallback S handler event w

/-- One event of `poll_with_timeout` (`event_loop.cpp:134-146`). -/
def handleReady (ready : ReadyEvent) (w : World) : World :=
  match w.swarm.eventLoop.findIdx? (·.fd = ready.fd) with
  | none => w
  | some index =>
    let w := if ready.input then callHandler S index .readable w else w
    let w := if ready.output then callHandler S index .writable w else w
    if ready.error then callHandler S index .error w else w

/-- `EventLoop::poll_once` (`event_loop.cpp:151-153`). -/
def eventLoopPollOnce (w : World) : World :=
  let (answers, w) := w.ask
  answers.ready.foldl (fun w ready => handleReady S ready w) w

/-! ## The interface -/

/-- `stop` (`swarm.cpp:314-344`). -/
def stop (w : World) : World :=
  let sw := w.swarm
  let loop := sw.listenerFds.foldl (fun loop fd => loop.unregisterFd fd) sw.eventLoop
  let loop := sw.dialingFds.foldl (fun loop fd => loop.unregisterFd fd) loop
  let loop := sw.connFds.entries.foldl (fun loop e => loop.unregisterFd e.2) loop
  let w := { w with swarm := { sw with
    eventLoop := loop, listenerFds := [], dialingFds := [], fdToConn := ∅, connFds := ∅ } }
  let w := changePeers .clear w
  let w := w.swarm.connections.foldl (fun w id => w.modifySession id Connection.close) w
  { w with swarm := { w.swarm with connections := [], transport := {}, eventLoop := [] } }

/-- `listen_on` (`swarm.cpp:346-407`). -/
def listenOn (addr : Multiaddr) : Op World Unit := do
  let w ← Op.get
  let before := w.swarm.transport.listeners.map (·.fd)
  transportListen addr
  Op.modify syncTransportFds
  let w ← Op.get
  let after := w.swarm.transport.listeners.map (·.fd)
  Op.modify fun w => (after.filter (· ∉ before)).foldl (fun w _ =>
    let (answers, w) := w.ask
    let detail := match answers.localAddr with
      | .ok localAddr => localAddr
      | .error _ => addr
    dispatchEvent S { type := .listenerStarted, detail := detail.bytes } w) w

/-- `dial_addr` (`swarm.cpp:409-452`). -/
def dialAddr (addr : Multiaddr) (origin : Option (DialOrigin addr)) : Op World Unit := do
  transportDial S addr origin
  Op.modify syncTransportFds

/-- `dial_peer` (`swarm.cpp:454-460`). -/
def dialPeer (peer : PeerId) : Op World Unit := do
  let w ← Op.get
  match h : w.swarm.peerStore.getAddrs peer with
  | [] => Op.fail "no known addresses for peer"
  | front :: _ => dialAddr S front (some ⟨peer, w.swarm.peerStore, by rw [h]; rfl⟩)

/-- `open_stream` on a connection (`swarm.cpp:462-482`): the handle. -/
def openStream (connId : ConnectionId) (proto : ProtocolId) : Op World ℕ := do
  let w ← Op.get
  if connId ∉ w.swarm.connections then Op.fail "unknown connection"
  else
    let stream ← onSession S connId (Connection.requestOpenStream S proto)
    let n ← Op.update (newNegotiation
      { connId, inner := stream, desiredProtocol := proto, stage := .sendingOutboundProposal })
    Op.modify (addPending connId n)
    Op.modify (drainAndRemove S [connId])
    Op.modify (pollPendingStreams S)
    pure n

/-- `open_stream` to a peer (`swarm.cpp:484-490`). -/
def openStreamTo (peer : PeerId) (proto : ProtocolId) : Op World ℕ := do
  let w ← Op.get
  match w.swarm.peerConnections.lookup peer.toString with
  | none => Op.fail "no active connection for peer"
  | some id => openStream S id proto

/-- `apply_action` (`swarm.cpp:537-562`). -/
def applyAction (action : ControllerAction) (w : World) : World :=
  match action with
  | .dialAddr (some addr) => (dialAddr S addr none w).2
  | .dialPeer (some peer) => (dialPeer S peer w).2
  | .closeConnection (some id) =>
    if id ∈ w.swarm.connections then drainConnectionEvents S (w.modifySession id Connection.close)
    else w
  | .openStream (some id) (some proto) => (openStream S id proto w).2
  | .dialAddr none | .dialPeer none | .closeConnection none | .openStream _ _ | .sendPing => w

/-- `poll_once` (`swarm.cpp:500-515`). -/
def pollOnce (w : World) : World :=
  let w := syncTransportFds w
  let w := eventLoopPollOnce S w
  let w := syncTransportFds w
  let w := drainConnectionEvents S w
  let w := pollPendingStreams S w
  -- `on_tick` of every handler, then `on_timer_tick`
  let w := w.swarm.handlers.foldl (fun w _ => userCode S w) w
  let w := userCode S w
  let (answers, w) := w.ask
  answers.actions.foldl (fun w action => applyAction S action w) w

/-- `next_event` (`swarm.cpp:517-522`). -/
def nextEvent (w : World) : World :=
  { w with swarm := { w.swarm with eventQueue := w.swarm.eventQueue.tail } }

/-- What the application does with a swarm, its peer store and the streams it was given. -/
inductive SwarmCall
  | start
  | stop
  | listenOn (addr : Multiaddr)
  | dialAddr (addr : Multiaddr)
  | dialPeer (peer : PeerId)
  | openStream (id : ConnectionId) (proto : ProtocolId)
  | openStreamTo (peer : PeerId) (proto : ProtocolId)
  | registerHandler (proto : ProtocolId)
  | pollOnce
  | nextEvent
  | addAddr (peer : PeerId) (addr : Multiaddr)
  | useStream (n : ℕ) (call : HandleCall)

/-- The application gets the handle that `open_stream` returns. -/
def giveStream : Result ℕ × World → World
  | (.ok n, w) => giveTo n w
  | (.error _, w) => w

/-- The world after a call. -/
def swarmStep (w : World) : SwarmCall → World
  | .start => syncTransportFds w
  | .stop => stop w
  | .listenOn addr => (listenOn S addr w).2
  | .dialAddr addr => (dialAddr S addr none w).2
  | .dialPeer peer => (dialPeer S peer w).2
  | .openStream id proto => giveStream (openStream S id proto w)
  | .openStreamTo peer proto => giveStream (openStreamTo S peer proto w)
  | .registerHandler proto => { w with swarm := { w.swarm with
      handlers := w.swarm.handlers ++ [proto] } }
  | .pollOnce => pollOnce S w
  | .nextEvent => nextEvent w
  | .addAddr peer addr => { w with swarm := { w.swarm with
      peerStore := w.swarm.peerStore.addAddr peer addr } }
  | .useStream n call => if n ∈ w.swarm.given then Negotiation.call S w n call else w

/-- A new swarm with the peer store it is given. -/
def World.make (peerStore : PeerStore) (localIdentity : Option Identity)
    (localStreamMuxers : List ProtocolId) (env : ℕ → Answers) : World :=
  { swarm := { peerStore, localIdentity, localStreamMuxers }, env }

end Swarm

end PeerCore
