import PeerCore.Types
import PeerCore.Runtime.EventLoop
import PeerCore.Lib.Traced

/-!
# The TCP transport

Model of `transport/tcp_transport.cpp`: listening, dialling, accepting and the
end of a non-blocking `connect`.

* A system call is its result, a return value and an `errno`: each function takes
  those of the calls it may make. `strerror` is a parameter.
* A descriptor that `socket` or `accept` returned is an `OpenFd`: its number and
  a serial number, which tells it from a later one of the same number. Numbers
  below 0 are not descriptors.
* `TcpTransport.reports` is history: the callbacks invoked and the descriptors
  closed by the transport, in order. `obtained` and `dials` count the descriptors
  obtained and the dials under way or returned as ok. A pending dial carries the
  number of its dial.
* The callbacks do not call back into the transport.
-/

namespace PeerCore

/-- `TcpSocket` (`tcp_transport.hpp:13-16`). -/
structure TcpSocket where
  fd : Fd
  remoteAddr : Multiaddr
  deriving DecidableEq

/-- `Multiaddr::from_ip4_tcp` (`types.cpp:190-193`). -/
def Multiaddr.fromIp4Tcp (ip : Bytes) (port : UInt16) : Multiaddr :=
  ⟨ascii "/ip4/" ++ ip ++ ascii "/tcp/" ++ ascii (toString port.toNat)⟩

namespace Transport

/-! ## System calls -/

/-- A value of `errno`. -/
abbrev Errno := ℤ

/-- `EINTR`. -/
def eintr : Errno := 4

/-- `EAGAIN`. -/
def eagain : Errno := 11

/-- `EWOULDBLOCK`. -/
def ewouldblock : Errno := 11

/-- `ECONNABORTED`. -/
def econnaborted : Errno := 103

/-- `EINPROGRESS`. -/
def einprogress : Errno := 115

/-- What a system call returns, and `errno` after it. -/
structure SysResult where
  rc : ℤ
  errno : Errno := 0
  deriving DecidableEq

/-- The calls of `set_socket_common_flags` and `set_nonblocking`. -/
structure SetupCalls where
  setsockopt : SysResult
  getfl : SysResult
  setfl : SysResult
  deriving DecidableEq

/-- The calls of `listen`. -/
structure ListenCalls where
  inetPton : ℤ
  socket : SysResult
  setup : SetupCalls
  bind : SysResult
  listen : SysResult

/-- The calls of `dial`. -/
structure DialCalls where
  inetPton : ℤ
  socket : SysResult
  setup : SetupCalls
  connect : SysResult

/-- The calls of one turn of the loop in `on_accept_ready`: `inetNtop` is the text
    of the address or, when there is none, `errno`. -/
structure AcceptCalls where
  accept : SysResult
  setup : SetupCalls
  inetNtop : Except Errno Bytes
  port : UInt16

/-- `getsockopt(SO_ERROR)`, with the value it stores. -/
structure SoErrorCall where
  result : SysResult
  soError : Errno

/-- `so_error` as `on_connect_ready` has it. -/
def SoErrorCall.value (call : SoErrorCall) : Errno :=
  if call.result.rc < 0 then call.result.errno else call.soError

/-! ## The state -/

/-- A descriptor, as `socket` or `accept` returned it. -/
structure OpenFd where
  fd : Fd
  nonneg : 0 ≤ fd
  serial : ℕ
  deriving DecidableEq

/-- `TcpTransportCallbacks` (`tcp_transport.hpp:19-23`): which of them are set. -/
structure TcpTransportCallbacks where
  onAccepted : Bool := true
  onConnected : Bool := true
  onDialFailed : Bool := true

/-- `Listener` (`tcp_transport.hpp:52-56`). -/
structure Listener where
  socket : OpenFd
  addr : Multiaddr
  callbacks : TcpTransportCallbacks

/-- `PendingDial` (`tcp_transport.hpp:58-62`), and the number of the dial. -/
structure PendingDial where
  socket : OpenFd
  addr : Multiaddr
  callbacks : TcpTransportCallbacks
  dial : ℕ

/-- A callback invoked, a descriptor closed, or a dial discarded. -/
inductive Report
  | accepted (serial : ℕ) (socket : TcpSocket)
  | connected (serial dial : ℕ) (socket : TcpSocket)
  | dialFailed (dial : ℕ) (addr : Multiaddr) (detail : String)
  | closed (serial : ℕ)
  | discarded (dial : ℕ)
  deriving DecidableEq

/-- `TcpTransport` (`tcp_transport.hpp:25-69`), and its history. -/
structure TcpTransport where
  listeners : List Listener := []
  pendingDials : List PendingDial := []
  obtained : ℕ := 0
  dials : ℕ := 0
  reports : List Report := []

namespace TcpTransport

/-- Record a callback or a close. -/
def report (r : Report) (t : TcpTransport) : TcpTransport := { t with reports := t.reports ++ [r] }

/-- `close_fd` (`tcp_transport.cpp:66-69`). -/
def closeFd (fd : OpenFd) (t : TcpTransport) : TcpTransport :=
  if fd.fd ≥ 0 then t.report (.closed fd.serial) else t

variable (strerror : Errno → String)

/-! ## Helpers of the source file -/

/-- `to_sockaddr` (`tcp_transport.cpp:21-34`). -/
def toSockaddr (addr : Multiaddr) (inetPton : ℤ) : Result Ip4TcpEndpoint := do
  let endpoint ← addr.parseIp4Tcp
  if inetPton ≠ 1 then .error "invalid IPv4 address" else pure endpoint

/-- `from_sockaddr` (`tcp_transport.cpp:36-42`). -/
def fromSockaddr (inetNtop : Except Errno Bytes) (port : UInt16) : Result Multiaddr :=
  match inetNtop with
  | .error errno => .error ("inet_ntop failed: " ++ strerror errno)
  | .ok ip => .ok (Multiaddr.fromIp4Tcp ip port)

/-- The error of a system call: `r < 0`. -/
def check (what : String) (r : SysResult) : Result Unit :=
  if r.rc < 0 then .error (what ++ " failed: " ++ strerror r.errno) else .ok ()

/-- `set_socket_common_flags`, then `set_nonblocking` (`tcp_transport.cpp:44-64`). -/
def setup (calls : SetupCalls) : Result Unit := do
  check strerror "setsockopt(SO_REUSEADDR)" calls.setsockopt
  check strerror "fcntl(F_GETFL)" calls.getfl
  check strerror "fcntl(F_SETFL)" calls.setfl

/-- The descriptor of a `socket` or an `accept` that succeeded. -/
def obtain (r : SysResult) (h : 0 ≤ r.rc) (t : TcpTransport) : OpenFd × TcpTransport :=
  (⟨r.rc, h, t.obtained⟩, { t with obtained := t.obtained + 1 })

/-- `socket(AF_INET, SOCK_STREAM, 0)`. -/
def socket (r : SysResult) : Op TcpTransport OpenFd :=
  if h : 0 ≤ r.rc then Op.update (obtain r h)
  else Op.fail ("socket() failed: " ++ strerror r.errno)

/-- `create_listen_socket` (`tcp_transport.cpp:261-288`): a failure behind `socket`
    closes the descriptor. -/
def createListenSocket (calls : ListenCalls) : Op TcpTransport OpenFd := do
  let fd ← socket strerror calls.socket
  Op.onFail (closeFd fd) (Op.ofResult do
    setup strerror calls.setup
    check strerror "bind()" calls.bind
    check strerror "listen()" calls.listen)
  pure fd

/-- `create_connect_socket` (`tcp_transport.cpp:290-304`). -/
def createConnectSocket (calls : DialCalls) : Op TcpTransport OpenFd := do
  let fd ← socket strerror calls.socket
  Op.onFail (closeFd fd) (Op.ofResult (setup strerror calls.setup))
  pure fd

/-! ## The operations -/

/-- `TcpTransport::listen` (`tcp_transport.cpp:76-98`). -/
def listen (addr : Multiaddr) (callbacks : TcpTransportCallbacks) (calls : ListenCalls) :
    Op TcpTransport Unit := do
  let _ ← Op.ofResult (toSockaddr addr calls.inetPton)
  let socket ← createListenSocket strerror calls
  Op.modify fun t => { t with listeners := t.listeners ++ [{ socket, addr, callbacks }] }

/-- The end of `dial`, by the result of `connect`. -/
def connect (addr : Multiaddr) (callbacks : TcpTransportCallbacks) (result : SysResult)
    (socket : OpenFd) (dial : ℕ) (t : TcpTransport) : TcpTransport :=
  if result.rc = 0 then
    if callbacks.onConnected then t.report (.connected socket.serial dial ⟨socket.fd, addr⟩)
    else t.closeFd socket
  else if result.errno ≠ einprogress then
    let detail := strerror result.errno
    let t := if callbacks.onDialFailed then t.report (.dialFailed dial addr detail) else t
    t.closeFd socket
  else { t with pendingDials := t.pendingDials ++ [{ socket, addr, callbacks, dial }] }

/-- `TcpTransport::dial` (`tcp_transport.cpp:100-137`). From `connect` on it
    returns ok. -/
def dial (addr : Multiaddr) (callbacks : TcpTransportCallbacks) (calls : DialCalls) :
    Op TcpTransport Unit := do
  let _ ← Op.ofResult (toSockaddr addr calls.inetPton)
  let socket ← createConnectSocket strerror calls
  Op.modify fun t =>
    connect strerror addr callbacks calls.connect socket t.dials { t with dials := t.dials + 1 }

/-- The socket of one turn of the accept loop: set up, then handed over. -/
def acceptSocket (callbacks : TcpTransportCallbacks) (calls : AcceptCalls) (fd : OpenFd)
    (t : TcpTransport) : TcpTransport :=
  match setup strerror calls.setup with
  | .error _ => t.closeFd fd
  | .ok () =>
    match fromSockaddr strerror calls.inetNtop calls.port with
    | .error _ => t.closeFd fd
    | .ok remoteAddr =>
      if callbacks.onAccepted then t.report (.accepted fd.serial ⟨fd.fd, remoteAddr⟩)
      else t.closeFd fd

/-- The loop of `on_accept_ready`, with the results that `accept` has in store:
    those it has not taken when it returns, and the state. -/
def acceptLoop (callbacks : TcpTransportCallbacks) :
    List AcceptCalls → TcpTransport → List AcceptCalls × TcpTransport
  | [], t => ([], t)
  | calls :: rest, t =>
    if h : 0 ≤ calls.accept.rc then
      let (fd, t) := obtain calls.accept h t
      acceptLoop callbacks rest (acceptSocket strerror callbacks calls fd t)
    else if calls.accept.errno = eagain ∨ calls.accept.errno = ewouldblock then (rest, t)
    -- any other error is logged and ends the loop as well
    else (rest, t)

/-- `TcpTransport::on_accept_ready` (`tcp_transport.cpp:139-179`). -/
def onAcceptReady (listenFd : Fd) (accepts : List AcceptCalls) (t : TcpTransport) :
    List AcceptCalls × TcpTransport :=
  match t.listeners.find? fun listener => listener.socket.fd = listenFd with
  | none => (accepts, t)
  | some listener => acceptLoop strerror listener.callbacks accepts t

/-- The end of a dial, by `so_error`. -/
def finishDial (dial : PendingDial) (soError : Errno) (t : TcpTransport) : TcpTransport :=
  if soError ≠ 0 then
    let t := if dial.callbacks.onDialFailed then
      t.report (.dialFailed dial.dial dial.addr (strerror soError)) else t
    t.closeFd dial.socket
  else if dial.callbacks.onConnected then
    t.report (.connected dial.socket.serial dial.dial ⟨dial.socket.fd, dial.addr⟩)
  else t.closeFd dial.socket

/-- `TcpTransport::on_connect_ready` (`tcp_transport.cpp:181-217`). -/
def onConnectReady (socketFd : Fd) (call : SoErrorCall) (t : TcpTransport) : TcpTransport :=
  match t.pendingDials.find? fun dial => dial.socket.fd = socketFd with
  | none => t
  | some dial =>
    finishDial strerror dial call.value { t with
      pendingDials := t.pendingDials.eraseP fun dial => dial.socket.fd = socketFd }

/-- `TcpTransport::close_all` (`tcp_transport.cpp:247-259`), which the destructor calls. -/
def closeAll (t : TcpTransport) : TcpTransport :=
  let t := { t.listeners.foldl (fun t listener => t.closeFd listener.socket) t with listeners := [] }
  { t.pendingDials.foldl (fun t dial => (t.report (.discarded dial.dial)).closeFd dial.socket) t with
    pendingDials := [] }

/-! ## Runs -/

/-- A call of the transport, with all callbacks set. -/
inductive Call
  | listen (addr : Multiaddr) (calls : ListenCalls)
  | dial (addr : Multiaddr) (calls : DialCalls)
  | onAcceptReady (listenFd : Fd) (accepts : List AcceptCalls)
  | onConnectReady (socketFd : Fd) (call : SoErrorCall)
  | closeAll

/-- One call. -/
def step (t : TcpTransport) : Call → TcpTransport
  | .listen addr calls => (listen strerror addr {} calls t).2
  | .dial addr calls => (dial strerror addr {} calls t).2
  | .onAcceptReady listenFd accepts => (onAcceptReady strerror listenFd accepts t).2
  | .onConnectReady socketFd call => onConnectReady strerror socketFd call t
  | .closeAll => t.closeAll

/-- The state after some calls. -/
def run (calls : List Call) : TcpTransport := calls.foldl (step strerror) {}

end TcpTransport

end Transport

end PeerCore
