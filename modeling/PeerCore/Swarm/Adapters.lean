import PeerCore.Runtime.EventLoop
import PeerCore.Swarm.Turns

/-!
# The event loop and the transport under a swarm

`Swarm.State` keeps of the event loop and of the transport what the swarm sees of them: the
callbacks by their kind, a descriptor by its number, a system call by its answer. The
functions of the swarm are those of `event_loop.cpp` and `tcp_transport.cpp`, as `Runtime`
and `Transport` have them.

* `EventLoop.tables`, `reaction`: the handlers of a swarm as callbacks of the event loop.
* `eventLoopPollOnce_polls`: a poll of the swarm's loop is `poll_with_timeout` on its tables.
* `Backs`: a transport with its descriptors, and what the swarm keeps of it.
* `InParallel`: one call into both. The tables still agree, and the swarm is called back as the
  transport reports.
* `listen_parallel`, `dial_parallel`, `onAcceptReady_parallel`, `onConnectReady_parallel`,
  `closeAll_parallel`: the calls that the swarm makes.
-/

namespace PeerCore

open Connection (BasicConnectionSession)

/-! ## The event loop -/

namespace EventLoop

/-- The tables of `event_loop.cpp`. What a callback holds is its handler. -/
def tables (loop : EventLoop) : Runtime.EventLoop FdHandler :=
  { fdHandlers := loop.map fun h => ⟨h.fd, h⟩ }

theorem tables_registerFd (loop : EventLoop) (fd : Fd) (callback : FdCallback) :
    (loop.registerFd fd callback).tables = loop.tables.registerFd fd ⟨fd, callback⟩ := by
  unfold registerFd tables Runtime.EventLoop.registerFd
  simp

theorem tables_unregisterFd (loop : EventLoop) (fd : Fd) :
    (loop.unregisterFd fd).tables = loop.tables.unregisterFd fd := by
  unfold unregisterFd tables Runtime.EventLoop.unregisterFd
  dsimp only
  rw [List.filter_map]
  rfl

/-- Calls that make `loop'` of `loop`. -/
def requests (loop loop' : EventLoop) : List (Runtime.Request FdHandler) :=
  loop.map (fun h => .unregisterFd h.fd) ++ loop'.map fun h => .registerFd h.fd h

theorem foldl_unregister (hs : List FdHandler) : ∀ loop : EventLoop,
    (hs.map fun h => Runtime.Request.unregisterFd h.fd).foldl Runtime.EventLoop.serve loop.tables =
      tables (loop.filter fun h => h.fd ∉ hs.map (·.fd)) := by
  induction hs with
  | nil => intro loop; simp
  | cons h hs ih =>
    intro loop
    rw [List.map_cons, List.foldl_cons]
    show List.foldl _ (loop.tables.unregisterFd h.fd) _ = _
    rw [← tables_unregisterFd, ih, unregisterFd, List.filter_filter]
    congr 2
    funext h'
    simp only [List.map_cons, List.mem_cons, not_or, Bool.decide_and, Bool.and_comm]

theorem foldl_register (hs : List FdHandler) : ∀ loop : EventLoop,
    (hs.map fun h => Runtime.Request.registerFd h.fd h).foldl Runtime.EventLoop.serve loop.tables =
      tables (loop ++ hs) := by
  induction hs with
  | nil => intro loop; simp
  | cons h hs ih =>
    intro loop
    rw [List.map_cons, List.foldl_cons]
    show List.foldl _ (loop.tables.registerFd h.fd ⟨h.fd, h.callback⟩) _ = _
    rw [← tables_registerFd, ih, registerFd, List.append_assoc]
    rfl

theorem foldl_requests (loop loop' : EventLoop) :
    (loop.requests loop').foldl Runtime.EventLoop.serve loop.tables = loop'.tables := by
  have hgone : (loop.filter fun h => h.fd ∉ loop.map (·.fd)) = [] := by
    rw [List.filter_eq_nil_iff]
    intro h hmem
    simpa using ⟨h, hmem, rfl⟩
  rw [requests, List.foldl_append, foldl_unregister, hgone, foldl_register]
  rfl

end EventLoop

section Polling

variable (S : Noise.Sodium)

/-- What a callback of the swarm does, as the event loop sees it. -/
def reaction (handler : FdHandler) (event : IoEvent) (w : World) :
    Runtime.Reaction World FdHandler :=
  { requests := w.swarm.eventLoop.requests (runCallback S handler event w).swarm.eventLoop
    state := runCallback S handler event w }

/-- A poll of the event loop has come to the world `w`. -/
structure Polls (p : Runtime.Polling World FdHandler) (w : World) : Prop where
  loop : p.loop = w.swarm.eventLoop.tables
  state : p.state = w
  running : p.thrown = false

variable {S} {p : Runtime.Polling World FdHandler} {w : World}

theorem Polls.callHandler (h : Polls p w) (fd : Fd) (index : ℕ) (event : IoEvent) :
    Polls (Runtime.callHandler (reaction S) fd index event p) (callHandler S index event w) := by
  have hslot : p.loop.fdHandlers[index]? = w.swarm.eventLoop[index]?.map fun h => ⟨h.fd, h⟩ := by
    rw [h.loop]
    exact List.getElem?_map
  unfold Runtime.callHandler PeerCore.callHandler
  rw [if_neg (by rw [h.running]; exact Bool.false_ne_true)]
  dsimp only
  rw [hslot]
  cases hhandler : w.swarm.eventLoop[index]? with
  | none => exact ⟨h.loop, h.state, h.running⟩
  | some handler =>
    dsimp only [Option.map_some]
    rw [h.loop, h.state]
    exact ⟨EventLoop.foldl_requests _ _, rfl, rfl⟩

theorem Polls.handleReady (h : Polls p w) (ready : ReadyEvent) :
    Polls (Runtime.handleReady (reaction S) p ready) (handleReady S ready w) := by
  have hfind : (p.loop.fdHandlers.findIdx? fun h => h.fd = ready.fd) =
      w.swarm.eventLoop.findIdx? (·.fd = ready.fd) := by
    rw [h.loop]
    exact List.findIdx?_map
  unfold Runtime.handleReady PeerCore.handleReady
  rw [hfind]
  cases w.swarm.eventLoop.findIdx? (·.fd = ready.fd) with
  | none => exact h
  | some index =>
    have hcall : ∀ (bit : Bool) (event : IoEvent) (p : Runtime.Polling World FdHandler) (w : World),
        Polls p w → Polls ((if bit then [event] else []).foldl
            (fun p event => Runtime.callHandler (reaction S) ready.fd index event p) p)
          (if bit then PeerCore.callHandler S index event w else w) := by
      intro bit event p w h
      split_ifs
      · exact h.callHandler ready.fd index event
      · exact h
    dsimp only
    rw [Runtime.callsFor, List.foldl_append, List.foldl_append]
    exact hcall _ _ _ _ (hcall _ _ _ _ (hcall _ _ _ _ h))

/-- `poll_once` of the swarm's event loop is `poll_with_timeout` on its tables, where the
    callbacks are those of the swarm. -/
theorem eventLoopPollOnce_polls (w : World) (clock : ℕ → ℤ) :
    ∃ p, Runtime.pollWithTimeout (reaction S) w.ask.1.ready clock
        { loop := w.ask.2.swarm.eventLoop.tables, state := w.ask.2 } =
          (p, some { fired := [], kept := [] }) ∧
      Polls p (eventLoopPollOnce S w) := by
  have hfold : ∀ (events : List ReadyEvent) (p : Runtime.Polling World FdHandler) (w : World),
      Polls p w → Polls (events.foldl (Runtime.handleReady (reaction S)) p)
        (events.foldl (fun w ready => handleReady S ready w) w) := by
    intro events
    induction events with
    | nil => exact fun _ _ h => h
    | cons ready events ih => exact fun p w h => ih _ _ (h.handleReady ready)
  have hpolls := hfold w.ask.1.ready
    { loop := w.ask.2.swarm.eventLoop.tables, state := w.ask.2 } w.ask.2 ⟨rfl, rfl, rfl⟩
  unfold Runtime.pollWithTimeout
  dsimp only
  rw [if_neg (by rw [hpolls.running]; exact Bool.false_ne_true), hpolls.loop]
  exact ⟨_, rfl, rfl, hpolls.state, hpolls.running⟩

end Polling

/-! ## The transport is left alone -/

section Alone

variable {S : Noise.Sodium}

theorem Quiet.transport {w w' : World} (h : Quiet S w w') : w'.swarm.transport = w.swarm.transport := by
  rw [h.swarm]

theorem dispatchEvent_transport (event : SwarmEvent) (w : World) :
    (dispatchEvent S event w).swarm.transport = w.swarm.transport :=
  (userCode_quiet (S := S) w).transport

theorem modifySession_transport (id : ConnectionId)
    (f : BasicConnectionSession → BasicConnectionSession) (w : World) :
    (w.modifySession id f).swarm.transport = w.swarm.transport := by
  unfold World.modifySession
  cases w.swarm.sessions id <;> rfl

theorem onSession_transport {α : Type} (id : ConnectionId) (x : Connection.Method α) (w : World) :
    (onSession S id x w).2.swarm.transport = w.swarm.transport := by
  unfold onSession
  dsimp only
  cases w.ask.2.swarm.sessions id <;> rfl

theorem registerConnection_transport (id : ConnectionId) (fd : Fd) (w : World) :
    (registerConnection id fd w).swarm.transport = w.swarm.transport := by
  unfold registerConnection
  dsimp only
  split_ifs <;> rfl

theorem acceptStream_transport (id : ConnectionId) (w : World) :
    (acceptStream id w).swarm.transport = w.swarm.transport := by
  unfold acceptStream
  cases w.findConnection id with
  | none => rfl
  | some s =>
    dsimp only
    rcases Connection.acceptInboundStream s with ⟨_ | stream, s'⟩ <;> rfl

theorem handleSecured_transport (id : ConnectionId) (detail : Bytes) (w : World) :
    (handleSecured S id detail w).swarm.transport = w.swarm.transport := by
  unfold handleSecured
  cases w.remotePeer id with
  | none => rfl
  | some peer =>
    dsimp only
    split
    · exact dispatchEvent_transport _ _
    · rw [dispatchEvent_transport, dispatchEvent_transport]
      rfl

theorem handleConnectionEvent_transport (id : ConnectionId) (event : Connection.ConnectionEvent)
    (closing : List ConnectionId) (w : World) :
    (handleConnectionEvent S id event closing w).2.swarm.transport = w.swarm.transport := by
  unfold handleConnectionEvent
  cases event.type with
  | secured => exact handleSecured_transport id _ w
  | streamAccepted =>
    show (dispatchEvent S _ _).swarm.transport = _
    rw [dispatchEvent_transport]
    split_ifs
    · exact acceptStream_transport id w
    · rfl
  | multiplexerReady => exact dispatchEvent_transport _ _
  | streamOpened => exact dispatchEvent_transport _ _
  | streamClosed => exact dispatchEvent_transport _ _
  | error => exact dispatchEvent_transport _ _
  | closed => exact dispatchEvent_transport _ _

theorem drainLoop_transport (id : ConnectionId) (fuel : ℕ) : ∀ (closing : List ConnectionId) (w : World),
    (drainLoop S id fuel closing w).2.swarm.transport = w.swarm.transport := by
  induction fuel with
  | zero => exact fun _ _ => rfl
  | succ fuel ih =>
    intro closing w
    rw [drainLoop]
    cases w.swarm.sessions id with
    | none => rfl
    | some s =>
      dsimp only
      rcases Connection.nextEvent s with ⟨_ | event, s'⟩
      · rfl
      · dsimp only
        rw [ih, handleConnectionEvent_transport]
        rfl

theorem drainConnectionEventsFor_transport (id : ConnectionId) (closing : List ConnectionId)
    (w : World) :
    (drainConnectionEventsFor S id closing w).2.swarm.transport = w.swarm.transport := by
  unfold drainConnectionEventsFor
  cases w.findConnection id with
  | none => rfl
  | some s => exact drainLoop_transport id _ closing w

theorem removeConnection_transport (id : ConnectionId) (w : World) :
    (removeConnection id w).swarm.transport = w.swarm.transport := by
  unfold removeConnection
  dsimp only
  rw [modifySession_transport]
  dsimp only
  split <;> rfl

theorem drainAndRemove_transport (ids : List ConnectionId) (w : World) :
    (drainAndRemove S ids w).swarm.transport = w.swarm.transport := by
  have hremove : ∀ (ids : List ConnectionId) (w : World),
      (removeConnections ids w).swarm.transport = w.swarm.transport := by
    intro ids
    induction ids with
    | nil => exact fun _ => rfl
    | cons id ids ih => exact fun w => (ih _).trans (removeConnection_transport id w)
  have hdrain : ∀ (ids closing : List ConnectionId) (w : World),
      (ids.foldl (fun p id => drainConnectionEventsFor S id p.1 p.2) (closing, w)).2.swarm.transport =
        w.swarm.transport := by
    intro ids
    induction ids with
    | nil => exact fun _ _ => rfl
    | cons id ids ih =>
      exact fun closing w => (ih _ _).trans (drainConnectionEventsFor_transport id closing w)
  exact (hremove _ _).trans (hdrain ids [] w)

theorem finishUpgrade_transport (id : ConnectionId) (upgrade : Result Unit) (w : World) :
    (finishUpgrade S id upgrade w).swarm.transport = w.swarm.transport := by
  unfold finishUpgrade
  refine (drainAndRemove_transport [id] _).trans ?_
  cases upgrade with
  | ok => rfl
  | error e => exact (modifySession_transport _ _ _).trans (dispatchEvent_transport _ _)

theorem onAccepted_transport (socket : TcpSocket) (w : World) :
    (onAccepted S socket w).swarm.transport = w.swarm.transport := by
  unfold onAccepted
  dsimp only
  rw [finishUpgrade_transport, onSession_transport, dispatchEvent_transport,
    registerConnection_transport]
  rfl

theorem onConnected_transport (socket : TcpSocket) (origin : Option (DialOrigin socket.remoteAddr))
    (w : World) : (onConnected S socket origin w).swarm.transport = w.swarm.transport := by
  unfold onConnected
  dsimp only
  rw [finishUpgrade_transport, onSession_transport, registerConnection_transport]
  rfl

end Alone

/-! ## The transport -/

section Transport

open Transport (Errno SysResult ListenCalls DialCalls AcceptCalls SoErrorCall Report
  TcpTransportCallbacks)

/-- The callbacks of `listen_on`. -/
def listenCallbacks : TcpTransportCallbacks :=
  { onAccepted := true, onConnected := false, onDialFailed := false }

/-- The callbacks of `dial_addr`. -/
def dialCallbacks : TcpTransportCallbacks :=
  { onAccepted := false, onConnected := true, onDialFailed := true }

/-- A transport with its descriptors and callbacks, and what the swarm keeps of it. -/
structure Backs (t : Transport.TcpTransport) (u : TcpTransport) : Prop where
  listeners : u.listeners = t.listeners.map fun l => ⟨l.socket.fd, l.addr⟩
  dials : u.pendingDials.map (fun d => (d.fd, d.addr)) =
    t.pendingDials.map fun d => (d.socket.fd, d.addr)
  listening : ∀ l ∈ t.listeners, l.callbacks = listenCallbacks
  dialling : ∀ d ∈ t.pendingDials, d.callbacks = dialCallbacks

theorem Backs.congr {t t' : Transport.TcpTransport} {u : TcpTransport} (h : Backs t u)
    (hlisteners : t'.listeners = t.listeners) (hdials : t'.pendingDials = t.pendingDials) :
    Backs t' u := by
  refine ⟨?_, ?_, ?_, ?_⟩
  · rw [hlisteners]
    exact h.listeners
  · rw [hdials]
    exact h.dials
  · rw [hlisteners]
    exact h.listening
  · rw [hdials]
    exact h.dialling

variable (S : Noise.Sodium)

/-- The swarm is called back, report by report. -/
inductive CalledBack : List Report → World → World → Prop
  | nothing {w : World} : CalledBack [] w w
  | accepted {w w' : World} {reports : List Report} {serial : ℕ} {socket : TcpSocket}
      (hmore : CalledBack reports (onAccepted S socket w) w') :
      CalledBack (.accepted serial socket :: reports) w w'
  | connected {w w' : World} {reports : List Report} {serial dial : ℕ} {socket : TcpSocket}
      (origin : Option (DialOrigin socket.remoteAddr))
      (hmore : CalledBack reports (onConnected S socket origin w) w') :
      CalledBack (.connected serial dial socket :: reports) w w'
  | dialFailed {w w' : World} {reports : List Report} {dial : ℕ} {addr : Multiaddr}
      {detail : String} (hmore : CalledBack reports (onDialFailed S addr detail w) w') :
      CalledBack (.dialFailed dial addr detail :: reports) w w'
  | closed {w w' : World} {reports : List Report} {serial : ℕ} (hmore : CalledBack reports w w') :
      CalledBack (.closed serial :: reports) w w'
  | discarded {w w' : World} {reports : List Report} {dial : ℕ} (hmore : CalledBack reports w w') :
      CalledBack (.discarded dial :: reports) w w'

variable {S}

/-- A callback does not call into the transport. -/
theorem CalledBack.transport {reports : List Report} {w w' : World} (h : CalledBack S reports w w') :
    w'.swarm.transport = w.swarm.transport := by
  induction h with
  | nothing => rfl
  | accepted _ ih => exact ih.trans (onAccepted_transport _ _)
  | connected origin _ ih => exact ih.trans (onConnected_transport _ origin _)
  | dialFailed _ ih => exact ih.trans (dispatchEvent_transport _ _)
  | closed _ ih => exact ih
  | discarded _ ih => exact ih

variable (S) in
/-- A call into the transport: its tables, and then the callbacks. -/
def InParallel (t t' : Transport.TcpTransport) (w w' : World) : Prop :=
  ∃ reports u w₁, t'.reports = t.reports ++ reports ∧ Backs t' u ∧
    w₁.swarm = { w.swarm with transport := u } ∧ CalledBack S reports w₁ w'

theorem InParallel.backs {t t' : Transport.TcpTransport} {w w' : World} (h : InParallel S t t' w w') :
    Backs t' w'.swarm.transport := by
  obtain ⟨reports, u, w₁, -, hbacks, hswarm, hcalled⟩ := h
  rw [hcalled.transport, hswarm]
  exact hbacks

/-- Only the tables change. -/
theorem InParallel.tables {t t' : Transport.TcpTransport} {w w' : World}
    (hreports : t'.reports = t.reports) (hbacks : Backs t' w'.swarm.transport)
    (hswarm : w'.swarm = { w.swarm with transport := w'.swarm.transport }) : InParallel S t t' w w' :=
  ⟨[], _, w', by rw [hreports, List.append_nil], hbacks, hswarm, .nothing⟩

/-- The reports that no callback goes with. -/
def unheard : Report → Bool
  | .closed _ | .discarded _ => true
  | .accepted .. | .connected .. | .dialFailed .. => false

/-- Descriptors are closed and dials discarded, and nothing else is done. -/
structure Silent (t t' : Transport.TcpTransport) : Prop where
  listeners : t'.listeners = t.listeners
  pendingDials : t'.pendingDials = t.pendingDials
  reports : ∃ reports, t'.reports = t.reports ++ reports ∧
    ∀ r ∈ reports, unheard r = true

namespace Silent

variable {t t' t'' : Transport.TcpTransport}

theorem refl (t : Transport.TcpTransport) : Silent t t :=
  ⟨rfl, rfl, [], (List.append_nil _).symm, nofun⟩

theorem trans (h : Silent t t') (h' : Silent t' t'') : Silent t t'' := by
  obtain ⟨reports, hreports, hclosed⟩ := h.reports
  obtain ⟨more, hmore, hclosed'⟩ := h'.reports
  refine ⟨h'.listeners.trans h.listeners, h'.pendingDials.trans h.pendingDials, reports ++ more,
    ?_, ?_⟩
  · rw [hmore, hreports, List.append_assoc]
  · intro r hr
    rcases List.mem_append.mp hr with hr | hr
    · exact hclosed r hr
    · exact hclosed' r hr

theorem closeFd (fd : Transport.OpenFd) (t : Transport.TcpTransport) : Silent t (t.closeFd fd) := by
  unfold Transport.TcpTransport.closeFd
  rw [if_pos fd.nonneg]
  exact ⟨rfl, rfl, [.closed fd.serial], rfl, by simp [unheard]⟩

theorem discard (dial : ℕ) (t : Transport.TcpTransport) : Silent t (t.report (.discarded dial)) :=
  ⟨rfl, rfl, [.discarded dial], rfl, by simp [unheard]⟩

theorem foldl {α : Type} {f : Transport.TcpTransport → α → Transport.TcpTransport}
    (hf : ∀ t a, Silent t (f t a)) (as : List α) :
    ∀ t : Transport.TcpTransport, Silent t (as.foldl f t) := by
  induction as with
  | nil => exact refl
  | cons a as ih => exact fun t => (hf t a).trans (ih (f t a))

theorem backs {u : TcpTransport} (h : Silent t t') (hbacks : Backs t u) : Backs t' u :=
  hbacks.congr h.listeners h.pendingDials

end Silent

theorem CalledBack.behind {reports more : List Report} {w w' : World}
    (hclosed : ∀ r ∈ reports, unheard r = true) (h : CalledBack S more w w') :
    CalledBack S (reports ++ more) w w' := by
  induction reports with
  | nil => exact h
  | cons r reports ih =>
    have hmore := ih fun r' hr' => hclosed r' (List.mem_cons_of_mem _ hr')
    have hr := hclosed r List.mem_cons_self
    cases r with
    | closed serial => exact .closed hmore
    | discarded dial => exact .discarded hmore
    | accepted => cases hr
    | connected => cases hr
    | dialFailed => cases hr

theorem Silent.inParallel {t t' : Transport.TcpTransport} {w w' : World} (h : Silent t t')
    (hbacks : Backs t w.swarm.transport) (hswarm : w'.swarm = w.swarm) : InParallel S t t' w w' := by
  obtain ⟨reports, hreports, hclosed⟩ := h.reports
  have hcalled : CalledBack S (reports ++ []) w' w' := CalledBack.nothing.behind hclosed
  rw [List.append_nil] at hcalled
  exact ⟨reports, _, w', hreports, h.backs hbacks, hswarm, hcalled⟩

/-- What follows the closing of descriptors. -/
theorem Silent.before {t t' t'' : Transport.TcpTransport} {w w' : World} (h : Silent t t')
    (h' : InParallel S t' t'' w w') : InParallel S t t'' w w' := by
  obtain ⟨reports, hreports, hclosed⟩ := h.reports
  obtain ⟨more, u, w₁, hmore, hbacks, hswarm, hcalled⟩ := h'
  exact ⟨reports ++ more, u, w₁, by rw [hmore, hreports, List.append_assoc], hbacks, hswarm,
    hcalled.behind hclosed⟩

variable (strerror : Errno → String)

/-- `connect`, as the swarm sees it. -/
def connectAnswer (result : SysResult) : ConnectAnswer :=
  if result.rc = 0 then .connected
  else if result.errno ≠ Transport.einprogress then .failed (strerror result.errno)
  else .inProgress

/-- `getsockopt(SO_ERROR)`, as the swarm sees it. -/
def soErrorAnswer (call : SoErrorCall) : Option String :=
  if call.value ≠ 0 then some (strerror call.value) else none

/-- One turn of the accept loop, as the swarm sees it. -/
def acceptAnswer (calls : AcceptCalls) : AcceptAnswer :=
  match Transport.TcpTransport.setup strerror calls.setup with
  | .error _ => .setupFailed
  | .ok () =>
    match Transport.TcpTransport.fromSockaddr strerror calls.inetNtop calls.port with
    | .error _ => .unaddressed
    | .ok remoteAddr => .accepted ⟨calls.accept.rc, remoteAddr⟩

/-- The turns until `accept` reports an error. -/
def acceptAnswers : List AcceptCalls → List AcceptAnswer
  | [] => []
  | calls :: rest =>
    if 0 ≤ calls.accept.rc then acceptAnswer strerror calls :: acceptAnswers rest else []

theorem toSockaddr_eq (addr : Multiaddr) (inetPton : ℤ) :
    (Transport.TcpTransport.toSockaddr addr inetPton).map (fun _ => ()) =
      toSockaddr addr (decide (inetPton = 1)) := by
  unfold Transport.TcpTransport.toSockaddr toSockaddr
  cases addr.parseIp4Tcp with
  | error e => rfl
  | ok endpoint =>
    by_cases h : inetPton = 1 <;> simp [h] <;> rfl

/-! ### Sockets -/

theorem socket_silent (r : SysResult) :
    Op.Preserves Silent (Transport.TcpTransport.socket strerror r) := by
  intro t
  unfold Transport.TcpTransport.socket
  split_ifs
  · exact ⟨rfl, rfl, [], (List.append_nil _).symm, nofun⟩
  · exact Silent.refl t

/-- A failure closes the new descriptor. -/
theorem setup_silent (fd : Transport.OpenFd) (checks : Result Unit) :
    Op.Preserves Silent (Op.onFail (Transport.TcpTransport.closeFd fd) (Op.ofResult checks)) := by
  intro t
  cases checks with
  | ok => exact Silent.refl t
  | error e => exact Silent.closeFd fd t

theorem createListenSocket_silent (calls : ListenCalls) :
    Op.Preserves Silent (Transport.TcpTransport.createListenSocket strerror calls) :=
  Op.Preserves.bind (fun _ _ _ h h' => h.trans h') (socket_silent strerror _) fun fd =>
    Op.Preserves.bind (fun _ _ _ h h' => h.trans h') (setup_silent fd _) fun _ =>
      Op.Preserves.pure Silent.refl fd

theorem createConnectSocket_silent (calls : DialCalls) :
    Op.Preserves Silent (Transport.TcpTransport.createConnectSocket strerror calls) :=
  Op.Preserves.bind (fun _ _ _ h h' => h.trans h') (socket_silent strerror _) fun fd =>
    Op.Preserves.bind (fun _ _ _ h h' => h.trans h') (setup_silent fd _) fun _ =>
      Op.Preserves.pure Silent.refl fd

/-! ### With the callbacks of the swarm -/

theorem connect_eq (addr : Multiaddr) (result : SysResult) (socket : Transport.OpenFd) (dial : ℕ)
    (t : Transport.TcpTransport) :
    Transport.TcpTransport.connect strerror addr dialCallbacks result socket dial t =
      if result.rc = 0 then t.report (.connected socket.serial dial ⟨socket.fd, addr⟩)
      else if result.errno ≠ Transport.einprogress then
        (t.report (.dialFailed dial addr (strerror result.errno))).report (.closed socket.serial)
      else { t with pendingDials := t.pendingDials ++ [⟨socket, addr, dialCallbacks, dial⟩] } := by
  unfold Transport.TcpTransport.connect Transport.TcpTransport.closeFd
  rw [if_pos socket.nonneg, if_pos socket.nonneg]
  rfl

theorem finishDial_eq {d : Transport.PendingDial} (hset : d.callbacks = dialCallbacks)
    (soError : Errno) (t : Transport.TcpTransport) :
    Transport.TcpTransport.finishDial strerror d soError t =
      if soError ≠ 0 then
        (t.report (.dialFailed d.dial d.addr (strerror soError))).report (.closed d.socket.serial)
      else t.report (.connected d.socket.serial d.dial ⟨d.socket.fd, d.addr⟩) := by
  unfold Transport.TcpTransport.finishDial Transport.TcpTransport.closeFd
  rw [hset, if_pos d.socket.nonneg, if_pos d.socket.nonneg]
  rfl

/-! ### The operations -/

variable {t : Transport.TcpTransport} {w : World}

theorem listen_parallel (hbacks : Backs t w.swarm.transport) (addr : Multiaddr) (calls : ListenCalls)
    (hip4 : w.ask.1.ip4 = decide (calls.inetPton = 1))
    (hsocket : w.ask.1.socket =
      (Transport.TcpTransport.createListenSocket strerror calls t).1.map (·.fd)) :
    (transportListen addr w).1 =
        (Transport.TcpTransport.listen strerror addr listenCallbacks calls t).1 ∧
      InParallel S t (Transport.TcpTransport.listen strerror addr listenCallbacks calls t).2 w
        (transportListen addr w).2 := by
  have haddr := toSockaddr_eq addr calls.inetPton
  have hcreate := createListenSocket_silent strerror calls t
  rw [← hip4] at haddr
  unfold transportListen Transport.TcpTransport.listen
  simp only [Op.bind_apply, Op.update_apply, Op.ofResult_apply, Op.modify_apply]
  rw [← haddr, hsocket]
  rcases Transport.TcpTransport.toSockaddr addr calls.inetPton with e | endpoint
  · exact ⟨rfl, (Silent.refl t).inParallel hbacks rfl⟩
  · dsimp only [Except.map]
    rcases hrun : Transport.TcpTransport.createListenSocket strerror calls t with ⟨e | socket, t'⟩ <;>
      rw [hrun] at hcreate
    · exact ⟨rfl, hcreate.inParallel hbacks rfl⟩
    · have hbacks' : Backs t' w.swarm.transport := hcreate.backs hbacks
      refine ⟨rfl, hcreate.before (InParallel.tables rfl ?_ rfl)⟩
      refine ⟨?_, hbacks'.dials, ?_, hbacks'.dialling⟩
      · show w.swarm.transport.listeners ++ [_] = (t'.listeners ++ [_]).map _
        rw [List.map_append, ← hbacks'.listeners]
        rfl
      · intro l hl
        rcases List.mem_append.mp hl with hl | hl
        · exact hbacks'.listening l hl
        · rw [List.mem_singleton.mp hl]

theorem dial_parallel (hbacks : Backs t w.swarm.transport) (addr : Multiaddr)
    (origin : Option (DialOrigin addr)) (calls : DialCalls)
    (hip4 : w.ask.1.ip4 = decide (calls.inetPton = 1))
    (hsocket : w.ask.1.socket =
      (Transport.TcpTransport.createConnectSocket strerror calls t).1.map (·.fd))
    (hconnect : w.ask.1.connect = connectAnswer strerror calls.connect) :
    (transportDial S addr origin w).1 =
        (Transport.TcpTransport.dial strerror addr dialCallbacks calls t).1 ∧
      InParallel S t (Transport.TcpTransport.dial strerror addr dialCallbacks calls t).2 w
        (transportDial S addr origin w).2 := by
  have haddr := toSockaddr_eq addr calls.inetPton
  have hcreate := createConnectSocket_silent strerror calls t
  rw [← hip4] at haddr
  unfold transportDial Transport.TcpTransport.dial
  simp only [Op.bind_apply, Op.update_apply, Op.ofResult_apply, Op.modify_apply]
  rw [← haddr, hsocket, hconnect]
  rcases Transport.TcpTransport.toSockaddr addr calls.inetPton with e | endpoint
  · exact ⟨rfl, (Silent.refl t).inParallel hbacks rfl⟩
  · dsimp only [Except.map]
    rcases hrun : Transport.TcpTransport.createConnectSocket strerror calls t with ⟨e | socket, t'⟩ <;>
      rw [hrun] at hcreate
    · exact ⟨rfl, hcreate.inParallel hbacks rfl⟩
    · have hbacks' : Backs t' w.swarm.transport := hcreate.backs hbacks
      dsimp only
      rw [connect_eq, connectAnswer]
      split_ifs with hconnected hfailed
      · exact ⟨rfl, hcreate.before ⟨[_], _, w.ask.2, rfl, hbacks'.congr rfl rfl, rfl,
          .connected origin .nothing⟩⟩
      · refine ⟨rfl, hcreate.before
          ⟨[.dialFailed t'.dials addr (strerror calls.connect.errno), .closed socket.serial], _, w.ask.2,
            ?_, hbacks'.congr rfl rfl, rfl, .dialFailed (.closed .nothing)⟩⟩
        exact List.append_assoc t'.reports [_] [_]
      · refine ⟨rfl, hcreate.before (InParallel.tables rfl ?_ rfl)⟩
        refine ⟨hbacks'.listeners, ?_, hbacks'.listening, ?_⟩
        · show (w.swarm.transport.pendingDials ++ [_]).map _ = (t'.pendingDials ++ [_]).map _
          rw [List.map_append, hbacks'.dials, List.map_append]
          rfl
        · intro d hd
          rcases List.mem_append.mp hd with hd | hd
          · exact hbacks'.dialling d hd
          · rw [List.mem_singleton.mp hd]

/-- One turn of the accept loop. -/
theorem acceptSocket_calledBack (calls : AcceptCalls) (hrc : 0 ≤ calls.accept.rc)
    (t : Transport.TcpTransport) (w : World) : ∃ report,
    Transport.TcpTransport.acceptSocket strerror listenCallbacks calls
        (Transport.TcpTransport.obtain calls.accept hrc t).1
        (Transport.TcpTransport.obtain calls.accept hrc t).2 =
      (Transport.TcpTransport.obtain calls.accept hrc t).2.report report ∧
    ∀ {reports : List Report} {w' : World},
      CalledBack S reports (acceptLoop S [acceptAnswer strerror calls] w) w' →
        CalledBack S (report :: reports) w w' := by
  have hclose : (Transport.TcpTransport.obtain calls.accept hrc t).2.closeFd
      (Transport.TcpTransport.obtain calls.accept hrc t).1 =
      (Transport.TcpTransport.obtain calls.accept hrc t).2.report (.closed t.obtained) :=
    if_pos hrc
  unfold Transport.TcpTransport.acceptSocket acceptAnswer
  rcases Transport.TcpTransport.setup strerror calls.setup with e | _
  · exact ⟨_, hclose, .closed⟩
  · dsimp only
    rcases Transport.TcpTransport.fromSockaddr strerror calls.inetNtop calls.port with e | addr
    · exact ⟨_, hclose, .closed⟩
    · exact ⟨_, rfl, .accepted⟩

theorem acceptLoop_calledBack (accepts : List AcceptCalls) :
    ∀ (t : Transport.TcpTransport) (w : World), ∃ reports,
      (Transport.TcpTransport.acceptLoop strerror listenCallbacks accepts t).2.reports =
        t.reports ++ reports ∧
      (Transport.TcpTransport.acceptLoop strerror listenCallbacks accepts t).2.listeners =
        t.listeners ∧
      (Transport.TcpTransport.acceptLoop strerror listenCallbacks accepts t).2.pendingDials =
        t.pendingDials ∧
      CalledBack S reports w (acceptLoop S (acceptAnswers strerror accepts) w) := by
  induction accepts with
  | nil => exact fun t w => ⟨[], (List.append_nil _).symm, rfl, rfl, .nothing⟩
  | cons calls rest ih =>
    intro t w
    rw [Transport.TcpTransport.acceptLoop, acceptAnswers]
    by_cases hrc : 0 ≤ calls.accept.rc
    · rw [dif_pos hrc, if_pos hrc]
      obtain ⟨report, hsocket, hcalled⟩ := acceptSocket_calledBack (S := S) strerror calls hrc t w
      obtain ⟨reports, hreports, hlisteners, hdials, hmore⟩ := ih
        (Transport.TcpTransport.acceptSocket strerror listenCallbacks calls
          (Transport.TcpTransport.obtain calls.accept hrc t).1
          (Transport.TcpTransport.obtain calls.accept hrc t).2)
        (acceptLoop S [acceptAnswer strerror calls] w)
      refine ⟨report :: reports, ?_, ?_, ?_, hcalled hmore⟩
      · rw [hreports, hsocket]
        exact List.append_assoc t.reports [report] reports
      · rw [hlisteners, hsocket]
        rfl
      · rw [hdials, hsocket]
        rfl
    · rw [dif_neg hrc, if_neg hrc, ite_self]
      exact ⟨[], (List.append_nil _).symm, rfl, rfl, .nothing⟩

theorem onAcceptReady_parallel (hbacks : Backs t w.swarm.transport) (listenFd : Fd)
    (accepts : List AcceptCalls) (haccepts : w.ask.1.accepts = acceptAnswers strerror accepts) :
    InParallel S t (Transport.TcpTransport.onAcceptReady strerror listenFd accepts t).2 w
      (onAcceptReady S listenFd w) := by
  unfold Transport.TcpTransport.onAcceptReady onAcceptReady
  cases hfind : t.listeners.find? fun listener => listener.socket.fd = listenFd with
  | none =>
    have hunknown : listenFd ∉ w.swarm.transport.listeners.map (·.fd) := by
      rw [hbacks.listeners]
      simpa using hfind
    rw [if_neg hunknown]
    exact (Silent.refl t).inParallel hbacks rfl
  | some listener =>
    have hmem := List.mem_of_find?_eq_some hfind
    have hfd : listener.socket.fd = listenFd := by simpa using List.find?_some hfind
    have hknown : listenFd ∈ w.swarm.transport.listeners.map (·.fd) := by
      rw [hbacks.listeners, List.map_map]
      exact List.mem_map.mpr ⟨listener, hmem, hfd⟩
    rw [if_pos hknown]
    dsimp only
    rw [hbacks.listening listener hmem, haccepts]
    obtain ⟨reports, hreports, hlisteners, hdials, hcalled⟩ :=
      acceptLoop_calledBack (S := S) strerror accepts t w.ask.2
    exact ⟨reports, _, w.ask.2, hreports, hbacks.congr hlisteners hdials, rfl, hcalled⟩

theorem Backs.find? {u : TcpTransport} (h : Backs t u) (fd : Fd) :
    (u.pendingDials.find? (·.fd = fd)).map (fun d => (d.fd, d.addr)) =
      (t.pendingDials.find? fun d => d.socket.fd = fd).map fun d => (d.socket.fd, d.addr) := by
  have hfind := congrArg (List.find? fun p : Fd × Multiaddr => decide (p.1 = fd)) h.dials
  rw [List.find?_map, List.find?_map] at hfind
  exact hfind

theorem Backs.eraseP {u : TcpTransport} (h : Backs t u) (fd : Fd) :
    Backs { t with pendingDials := t.pendingDials.eraseP fun d => d.socket.fd = fd }
      { u with pendingDials := u.pendingDials.eraseP (·.fd = fd) } := by
  refine ⟨h.listeners, ?_, h.listening, fun d hd => h.dialling d (List.mem_of_mem_eraseP hd)⟩
  have herase := congrArg (List.eraseP fun p : Fd × Multiaddr => decide (p.1 = fd)) h.dials
  rw [List.eraseP_map, List.eraseP_map] at herase
  exact herase

theorem onConnectReady_parallel (hbacks : Backs t w.swarm.transport) (socketFd : Fd)
    (call : SoErrorCall) (hso : w.ask.1.soError = soErrorAnswer strerror call) :
    InParallel S t (Transport.TcpTransport.onConnectReady strerror socketFd call t) w
      (onConnectReady S socketFd w) := by
  have hfind := hbacks.find? socketFd
  have herased := hbacks.eraseP socketFd
  unfold Transport.TcpTransport.onConnectReady onConnectReady
  rcases hdial : t.pendingDials.find? fun d => d.socket.fd = socketFd with _ | d <;>
    rw [hdial] at hfind ⊢
  · rw [Option.map_none, Option.map_eq_none_iff] at hfind
    rw [hfind]
    exact (Silent.refl t).inParallel hbacks rfl
  · obtain ⟨⟨fd, addr, origin⟩, hpending, hsame⟩ := Option.map_eq_some_iff.mp hfind
    obtain ⟨rfl, rfl⟩ := Prod.mk.inj hsame
    have hset := hbacks.dialling d (List.mem_of_find?_eq_some hdial)
    rw [hpending]
    dsimp only
    rw [finishDial_eq strerror hset, hso, soErrorAnswer]
    split_ifs with hfailed
    · refine ⟨[.dialFailed d.dial d.addr (strerror call.value), .closed d.socket.serial], _, _, ?_,
        herased.congr rfl rfl, rfl, .dialFailed (.closed .nothing)⟩
      exact List.append_assoc t.reports [_] [_]
    · exact ⟨[_], _, _, rfl, herased.congr rfl rfl, rfl, .connected origin .nothing⟩

/-- `stop` drops the transport. -/
theorem closeAll_parallel {w' : World} (hswarm : w'.swarm = { w.swarm with transport := {} }) :
    InParallel S t t.closeAll w w' := by
  have hlisteners := Silent.foldl (fun t (l : Transport.Listener) => Silent.closeFd l.socket t)
    t.listeners t
  have hdials := Silent.foldl (fun t (d : Transport.PendingDial) =>
      (Silent.discard d.dial t).trans (Silent.closeFd d.socket _))
    (t.listeners.foldl (fun t l => t.closeFd l.socket) t).pendingDials
    { t.listeners.foldl (fun t l => t.closeFd l.socket) t with listeners := [] }
  obtain ⟨reports, hreports, hclosed⟩ := hlisteners.reports
  obtain ⟨more, hmore, hclosed'⟩ := hdials.reports
  have hnone : t.closeAll.listeners = [] := hdials.listeners
  refine ⟨reports ++ more, {}, w', ?_, ⟨?_, rfl, ?_, nofun⟩, hswarm, ?_⟩
  · rw [← List.append_assoc, ← hreports]
    exact hmore
  · rw [hnone]
    rfl
  · rw [hnone]
    nofun
  · have hcalled : CalledBack S (more ++ []) w' w' := CalledBack.nothing.behind hclosed'
    rw [List.append_nil] at hcalled
    exact hcalled.behind hclosed

end Transport

end PeerCore
