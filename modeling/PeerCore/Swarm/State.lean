import PeerCore.Connection.Lifecycle
import PeerCore.Transport.Tcp

/-!
# The state of a swarm

Model of the data of `swarm.hpp`, `event_loop.hpp`, `tcp_transport.hpp`,
`peer_store.hpp` and of `ProtocolNegotiatingStream` (`swarm.cpp:64-282`).

* A `std::unordered_map` is an `AList`. The order in which a loop visits it is
  chosen by the world outside (`Answers.idOrder`, `Answers.fdOrder`).
* `sessions` keeps every session ever made under its id, also after
  `connections_` has dropped it, because the handles of its streams may outlive
  it. A `std::shared_ptr<ProtocolNegotiatingStream>` is an index into
  `negotiations`.
* The event loop and the transport keep here what the swarm sees of them; `Swarm.Adapters`
  ties them to `Runtime` and `Transport`.
* Everything outside the process is an argument: `World.env` holds what the
  operating system, the controller and the protocol handlers do, one `Answers`
  for each question. `epoll_ctl` succeeds. The controller and the handlers act
  on streams they were given, and do not call the swarm; what the controller
  wants done it returns from `drain_actions`.
* `Swarm.history`, `made`, `given`, `peerLog`, `streamLog`, `origins` and
  `established` are history, and so is `PendingDial.origin`. No function reads
  them, but that only streams in `given` are used by their owner.
-/

namespace PeerCore

open Connection (BasicConnectionSession StreamHandle SendAnswer RecvAnswer)

/-- `std::unordered_map`. -/
abbrev UnorderedMap (K V : Type) := AList fun _ : K => V

/-! ## Events and actions -/

/-- `SwarmEvent::Type` (`events.hpp:13-25`). -/
inductive SwarmEventType
  | listenerStarted | incomingConnection | connectionEstablished | connectionClosed | dialFailed
  | streamOpened | streamAccepted | streamClosed | protocolNegotiated | protocolError | peerIdentified
  deriving DecidableEq

/-- `SwarmEvent` (`events.hpp:12-32`). -/
structure SwarmEvent where
  type : SwarmEventType
  connectionId : ConnectionId := 0
  streamId : Option StreamId := none
  peerId : Option PeerId := none
  detail : Bytes
  deriving DecidableEq

/-- `Action` (`events.hpp:54-68`). The fields that its type does not use are left out;
    `SendPing` does nothing. -/
inductive ControllerAction
  | dialAddr (addr : Option Multiaddr)
  | dialPeer (peer : Option PeerId)
  | closeConnection (id : Option ConnectionId)
  | openStream (id : Option ConnectionId) (protocol : Option ProtocolId)
  | sendPing

/-! ## The event loop -/

/-- The callbacks that `Swarm` registers: for a listener and for a pending dial
    (`sync_transport_fds`), and for a connection (`register_connection`). -/
inductive FdCallback
  | listener | dial | connection
  deriving DecidableEq

/-- `FdHandler` (`event_loop.hpp:15-18`). -/
structure FdHandler where
  fd : Fd
  callback : FdCallback
  deriving DecidableEq

/-- The handlers of `EventLoop` (`event_loop.hpp:57`). The swarm sets no timers. -/
abbrev EventLoop := List FdHandler

/-- `register_fd` (`event_loop.cpp:51-71`). -/
def EventLoop.registerFd (loop : EventLoop) (fd : Fd) (callback : FdCallback) : EventLoop :=
  loop ++ [⟨fd, callback⟩]

/-- `unregister_fd` (`event_loop.cpp:73-87`). -/
def EventLoop.unregisterFd (loop : EventLoop) (fd : Fd) : EventLoop := loop.filter (·.fd ≠ fd)

/-! ## The peer store -/

/-- `PeerStore::Entry` (`peer_store.hpp:18-23`). -/
structure PeerEntry where
  peer : PeerId
  addrs : List Multiaddr := []
  dialSuccesses : UInt32 := 0
  dialFailures : UInt32 := 0
  deriving DecidableEq

/-- `PeerStore` (`peer_store.hpp:25`): its entries. -/
abbrev PeerStore := List PeerEntry

namespace PeerStore

/-- `find` (`peer_store.cpp:34-39`). -/
def find (store : PeerStore) (peer : PeerId) : Option PeerEntry := List.find? (·.peer = peer) store

/-- Change the entry `find_or_create` (`peer_store.cpp:26-32`) returns. -/
def updateEntry (peer : PeerId) (f : PeerEntry → PeerEntry) : PeerStore → PeerStore
  | [] => [f { peer }]
  | e :: rest => if e.peer = peer then f e :: rest else e :: updateEntry peer f rest

/-- `add_addr` (`peer_store.cpp:7-10`). -/
def addAddr (store : PeerStore) (peer : PeerId) (addr : Multiaddr) : PeerStore :=
  updateEntry peer (fun e => { e with addrs := e.addrs ++ [addr] }) store

/-- `get_addrs` (`peer_store.cpp:12-16`). -/
def getAddrs (store : PeerStore) (peer : PeerId) : List Multiaddr :=
  match store.find peer with
  | none => []
  | some e => e.addrs

/-- `record_dial_success` (`peer_store.cpp:18-20`). -/
def recordDialSuccess (store : PeerStore) (peer : PeerId) : PeerStore :=
  updateEntry peer (fun e => { e with dialSuccesses := e.dialSuccesses + 1 }) store

/-- The counter `dial_successes` of a peer. -/
def dialSuccesses (store : PeerStore) (peer : PeerId) : UInt32 :=
  match store.find peer with
  | none => 0
  | some e => e.dialSuccesses

theorem find_cons (e : PeerEntry) (rest : PeerStore) (peer : PeerId) :
    find (e :: rest) peer = if e.peer = peer then some e else find rest peer := by
  unfold find
  rw [List.find?_cons]
  by_cases h : e.peer = peer <;> simp [h]

/-- The entry is changed, or a new one is. -/
theorem find_updateEntry {f : PeerEntry → PeerEntry} (hf : ∀ e, (f e).peer = e.peer)
    (store : PeerStore) (peer peer' : PeerId) :
    (store.updateEntry peer f).find peer' =
      if peer = peer' then some (f ((store.find peer).getD { peer })) else store.find peer' := by
  induction store with
  | nil =>
    show find [f { peer }] peer' = _
    rw [find_cons, hf]
    rfl
  | cons e rest ih =>
    unfold updateEntry
    by_cases he : e.peer = peer
    · rw [if_pos he, find_cons, hf, find_cons, find_cons, if_pos he, he]
      by_cases hpeer : peer = peer' <;> simp [hpeer]
    · rw [if_neg he, find_cons, ih, find_cons, find_cons, if_neg he]
      by_cases hpeer : peer = peer'
      · rw [if_pos hpeer, if_pos hpeer, if_neg (hpeer ▸ he)]
      · rw [if_neg hpeer, if_neg hpeer]

theorem addAddr_dialSuccesses (store : PeerStore) (peer : PeerId) (addr : Multiaddr) (peer' : PeerId) :
    (store.addAddr peer addr).dialSuccesses peer' = store.dialSuccesses peer' := by
  unfold dialSuccesses addAddr
  rw [find_updateEntry (by exact fun _ => rfl)]
  split_ifs with hpeer
  · subst hpeer
    cases store.find peer <;> rfl
  · rfl

theorem recordDialSuccess_dialSuccesses (store : PeerStore) (peer peer' : PeerId) :
    (store.recordDialSuccess peer).dialSuccesses peer' =
      store.dialSuccesses peer' + if peer = peer' then 1 else 0 := by
  unfold dialSuccesses recordDialSuccess
  rw [find_updateEntry (by exact fun _ => rfl)]
  split_ifs with hpeer
  · subst hpeer
    cases store.find peer <;> rfl
  · exact (UInt32.add_zero _).symm

end PeerStore

/-! ## The transport -/

/-- `Listener` (`tcp_transport.hpp:58-62`), whose callbacks are those of `listen_on`. -/
structure Listener where
  fd : Fd
  addr : Multiaddr
  deriving DecidableEq

/-- The address is dialled for `dial_peer(peer)`: it is the first that `store` has for the peer. -/
structure DialOrigin (addr : Multiaddr) where
  peer : PeerId
  store : PeerStore
  first : (store.getAddrs peer).head? = some addr
  deriving DecidableEq

/-- `PendingDial` (`tcp_transport.hpp:64-68`), whose callbacks are those of `dial_addr`. -/
structure PendingDial where
  fd : Fd
  addr : Multiaddr
  origin : Option (DialOrigin addr)
  deriving DecidableEq

/-- `TcpTransport` (`tcp_transport.hpp:70-71`). -/
structure TcpTransport where
  listeners : List Listener := []
  pendingDials : List PendingDial := []

/-- One turn of the `accept` loop: a socket, a socket whose setup fails, or one whose
    address cannot be converted. -/
inductive AcceptAnswer
  | accepted (socket : TcpSocket)
  | setupFailed
  | unaddressed

/-- What `connect` does. -/
inductive ConnectAnswer
  | connected
  | inProgress
  | failed (error : String)

/-! ## Negotiating streams -/

/-- `ProtocolNegotiatingStream::Stage` (`swarm.cpp:238-244`). -/
inductive NegotiationStage
  | sendingOutboundProposal | awaitingOutboundResponse | awaitingInboundProposal | ready | failed
  deriving DecidableEq

/-- `ProtocolNegotiatingStream` (`swarm.cpp:64-282`). `inner_` is a stream of the session
    with the id `connId`. -/
structure ProtocolNegotiatingStream where
  connId : ConnectionId := 0
  inner : StreamHandle := .direct 0
  desiredProtocol : ProtocolId := []
  supportedProtocols : List ProtocolId := []
  inbound : Bool := false
  stage : NegotiationStage := .sendingOutboundProposal
  negotiationBuffer : Bytes := []
  appRxBuffer : Bytes := []
  negotiatedProtocol : Option ProtocolId := none
  failureDetail : Option String := none

/-- What the owner of a stream handle calls. -/
inductive HandleCall
  | tryRead (size : ℕ)
  | tryWrite (data : Bytes)
  | closeWrite
  | reset

/-! ## The world -/

/-- An order in which a loop visits the keys of a table. -/
abbrev VisitOrder (K : Type) := { visit : List K → List K // ∀ keys, (visit keys).Perm keys }

instance (K : Type) : Inhabited (VisitOrder K) := ⟨⟨id, List.Perm.refl⟩⟩

/-- What the world does at one question; each question reads the fields it is about. -/
structure Answers where
  /-- `recv`, `send` and `shutdown` on the socket of a session. -/
  recv : List RecvAnswer := []
  sends : List SendAnswer := []
  shutdownError : Option String := none
  /-- `randombytes_buf` of a new session. -/
  random : ℕ → Noise.Entropy := fun _ => ⟨Noise.zero32, Noise.zero32⟩
  /-- The calls that the controller or a handler makes on its streams. -/
  calls : List (ℕ × HandleCall) := []
  /-- `drain_actions`. -/
  actions : List ControllerAction := []
  /-- `epoll_wait`. -/
  ready : List ReadyEvent := []
  /-- `accept`, until it reports an error. -/
  accepts : List AcceptAnswer := []
  /-- `create_listen_socket` and `create_connect_socket`. -/
  socket : Result Fd := .error "socket() failed"
  /-- `inet_pton` accepts the address. -/
  ip4 : Bool := true
  connect : ConnectAnswer := .inProgress
  /-- `getsockopt(SO_ERROR)`. -/
  soError : Option String := none
  /-- `local_addr`. -/
  localAddr : Result Multiaddr := .error "getsockname failed"
  idOrder : VisitOrder UInt64 := default
  fdOrder : VisitOrder Fd := default

/-- A change of `peer_connections_` and `connection_peers_`: by the Secured event of a
    connection, by its removal, and by `stop`. -/
inductive PeerTableChange
  | identify (id : ConnectionId) (key : Bytes)
  | forget (id : ConnectionId)
  | clear
  deriving DecidableEq

/-- The callbacks of a `ProtocolHandler` that take a stream (`protocol_handler.hpp:14-15`). -/
inductive HandlerMethod
  | onInboundStream | onOutboundStreamReady
  deriving DecidableEq

/-- What is told about a stream under negotiation: the event that ends it, and the callback of
    the handler that has that `protocol_id()`. -/
inductive StreamReport
  | outcome (event : SwarmEvent)
  | callback (handler : ProtocolId) (method : HandlerMethod)
  deriving DecidableEq

/-- `pending_streams_` before and after the removal of a connection. -/
structure PendingRemoval where
  connId : ConnectionId
  before : UnorderedMap UInt64 ℕ
  after : UnorderedMap UInt64 ℕ

/-- A connection became established: whether it was dialled, what `dial_peer` dialled it for,
    and the peer it is authenticated as. -/
structure EstablishedConnection where
  connId : ConnectionId
  outbound : Bool
  origin : Option ((addr : Multiaddr) × DialOrigin addr)
  peerId : Option PeerId
  deriving DecidableEq

/-- `Swarm` (`swarm.hpp:66-87`). -/
structure Swarm where
  peerStore : PeerStore := []
  localIdentity : Option Identity
  localStreamMuxers : List ProtocolId
  eventLoop : EventLoop := []
  transport : TcpTransport := {}
  sessions : ConnectionId → Option BasicConnectionSession := fun _ => none
  /-- The keys of `connections_`. -/
  connections : List ConnectionId := []
  connFds : UnorderedMap ConnectionId Fd := ∅
  fdToConn : UnorderedMap Fd ConnectionId := ∅
  peerConnections : UnorderedMap Bytes ConnectionId := ∅
  connectionPeers : UnorderedMap ConnectionId Bytes := ∅
  negotiations : ℕ → ProtocolNegotiatingStream := fun _ => {}
  negotiationCount : ℕ := 0
  pendingStreams : UnorderedMap UInt64 ℕ := ∅
  listenerFds : List Fd := []
  dialingFds : List Fd := []
  /-- `protocol_id()` of the registered handlers. -/
  handlers : List ProtocolId := []
  eventQueue : List SwarmEvent := []
  nextConnId : ConnectionId := 1
  /-- All events ever dispatched. -/
  history : List SwarmEvent := []
  /-- The number of connections made. -/
  made : ℕ := 0
  /-- The streams handed to their owners. -/
  given : List ℕ := []
  /-- The changes of the peer tables. -/
  peerLog : List PeerTableChange := []
  /-- What was told about each of the `negotiations`. -/
  streamLog : List (ℕ × StreamReport) := []
  /-- The pairs that `stream_key` was called with. -/
  keyed : List (ConnectionId × StreamId) := []
  /-- What `remove_connection` did to `pending_streams_`. -/
  removals : List PendingRemoval := []
  /-- What `dial_peer` dialled each connection for. -/
  origins : ConnectionId → Option ((addr : Multiaddr) × DialOrigin addr) := fun _ => none
  /-- The connections that became established. -/
  established : List EstablishedConnection := []

/-- A swarm and the world it runs in; `clock` counts the questions asked. -/
structure World where
  swarm : Swarm
  env : ℕ → Answers
  clock : ℕ := 0

namespace World

/-- Ask the world. -/
def ask (w : World) : Answers × World := (w.env w.clock, { w with clock := w.clock + 1 })

/-- `connections_.find(id)`. -/
def findConnection (w : World) (id : ConnectionId) : Option BasicConnectionSession :=
  if id ∈ w.swarm.connections then w.swarm.sessions id else none

/-- The session behind an id is replaced. -/
def setSession (w : World) (id : ConnectionId) (s : BasicConnectionSession) : World :=
  { w with swarm := { w.swarm with sessions := Function.update w.swarm.sessions id (some s) } }

/-- The stream behind a handle is changed. -/
def setNegotiation (w : World) (n : ℕ) (f : ProtocolNegotiatingStream → ProtocolNegotiatingStream) :
    World :=
  { w with swarm := { w.swarm with
    negotiations := Function.update w.swarm.negotiations n (f (w.swarm.negotiations n)) } }

end World

end PeerCore
