import PeerCore.Swarm.Turns

/-!
# The functions of the swarm are sequences of turns

One theorem for each function. `Does` relates the worlds before and after a function
that starts and ends with nothing due and no connection closing. `pollOnce_does` and
`swarmStep_does` are the calls of the application.
-/

namespace PeerCore

open Connection (BasicConnectionSession StreamHandle ConnectionEvent Method)

section Functions

variable {S : Noise.Sodium} {reading : Bool}

/-- The events waiting in a session. -/
def World.queue (w : World) (id : ConnectionId) : List ConnectionEvent :=
  match w.swarm.sessions id with
  | some s => s.eventQueue
  | none => []

theorem World.queue_some {w : World} {id : ConnectionId} {s : BasicConnectionSession}
    (hs : w.swarm.sessions id = some s) : w.queue id = s.eventQueue := by
  unfold World.queue
  rw [hs]

theorem World.queue_none {w : World} {id : ConnectionId} (hs : w.swarm.sessions id = none) :
    w.queue id = [] := by
  unfold World.queue
  rw [hs]

theorem World.queue_congr {w w' : World} {id : ConnectionId}
    (hs : w'.swarm.sessions id = w.swarm.sessions id) : w'.queue id = w.queue id := by
  unfold World.queue
  rw [hs]

/-- The connections and what waits in their sessions stay. -/
structure Tended (w w' : World) : Prop where
  connections : w'.swarm.connections = w.swarm.connections
  queue : ∀ id, w'.queue id = w.queue id

namespace Tended

variable {w w' w'' : World}

theorem refl (w : World) : Tended w w := ⟨rfl, fun _ => rfl⟩

theorem trans (h : Tended w w') (h' : Tended w' w'') : Tended w w'' :=
  ⟨h'.connections.trans h.connections, fun id => (h'.queue id).trans (h.queue id)⟩

theorem of_same (hconnections : w'.swarm.connections = w.swarm.connections)
    (hsessions : w'.swarm.sessions = w.swarm.sessions) : Tended w w' :=
  ⟨hconnections, fun _ => World.queue_congr (by rw [hsessions])⟩

theorem quiet (h : Quiet S w w') : Tended w w' := by
  refine ⟨h.connections, fun id => ?_⟩
  have hrel := h.sessions id
  unfold World.queue
  cases hs : w.swarm.sessions id with
  | none =>
    rw [hs] at hrel
    generalize w'.swarm.sessions id = o at hrel
    cases hrel
    rfl
  | some s =>
    rw [hs] at hrel
    generalize w'.swarm.sessions id = o at hrel
    cases hrel with
    | some hplays => exact hplays.unheard.eventQueue

theorem setSession {id : ConnectionId} {s s' : BasicConnectionSession}
    (hs : w.swarm.sessions id = some s) (hqueue : s'.eventQueue = s.eventQueue) :
    Tended w (w.setSession id s') := by
  refine ⟨rfl, fun id' => ?_⟩
  by_cases hid : id' = id
  · subst hid
    rw [World.queue_some (w.setSession_self id' s'), World.queue_some hs, hqueue]
  · exact World.queue_congr (w.setSession_of_ne s' hid)

theorem dispatchEvent (event : SwarmEvent) (w : World) : Tended w (dispatchEvent S event w) :=
  (quiet (userCode_quiet (S := S) w)).trans (of_same rfl rfl)

end Tended

theorem dispatchEvent_connections (event : SwarmEvent) (w : World) :
    (dispatchEvent S event w).swarm.connections = w.swarm.connections :=
  (userCode_quiet (S := S) w).connections

/-! ## The events of a connection -/

section Drain

variable {w : World} {id : ConnectionId} {s : BasicConnectionSession} {e : ConnectionEvent}
  {rest : List ConnectionEvent} {closing : List ConnectionId}

theorem World.take_remotePeer (hid : id ∈ w.swarm.connections) :
    (w.take id s rest).remotePeer id = s.remotePeer := by
  have hfind : (w.take id s rest).findConnection id = some { s with eventQueue := rest } := by
    unfold World.findConnection
    rw [if_pos (show id ∈ (w.take id s rest).swarm.connections from hid), World.take_sessions]
  unfold World.remotePeer
  rw [hfind]
  rfl

theorem handleSecured_turns (hid : id ∈ w.swarm.connections) (hs : w.swarm.sessions id = some s)
    (hqueue : s.eventQueue = e :: rest) (htype : e.type = .secured) :
    Turns S reading ⟨w, closing, []⟩ ⟨handleSecured S id e.detail (w.take id s rest), closing, []⟩ := by
  unfold handleSecured
  rw [World.take_remotePeer hid]
  cases hpeer : s.remotePeer with
  | none =>
    exact (Turn.anonymous ⟨w, closing, []⟩ id s e rest hid hs hqueue htype hpeer).single
  | some peer =>
    dsimp -zeta only
    extract_lets w₁ w₂
    have hpeer₁ : w₁.remotePeer id = some peer := (World.take_remotePeer hid).trans hpeer
    have hsecured : ∀ notes : List SwarmEvent, (∀ note ∈ notes, note.type = .protocolNegotiated ∧
        note.connectionId = id ∧ note.streamId = none) →
        Turns S reading ⟨w, closing, []⟩ ⟨w₂, closing, notes⟩ := fun notes hnotes => by
      have hturn : Turn S reading _ _ := Turn.secured ⟨w, closing, []⟩ id s e rest peer notes
        rfl hid hs hqueue htype hpeer hnotes
      rw [← hpeer₁] at hturn
      exact hturn.single.trans (dispatchEvent_turns _ w₁ closing notes)
    cases (w₂.findConnection id).bind (·.negotiatedStreamMuxer) with
    | none => exact hsecured [] (by simp)
    | some muxer =>
      refine (hsecured [_] ?_).trans (dispatchEvent_turns _ w₂ closing [])
      intro note hnote
      rw [List.mem_singleton.mp hnote]
      exact ⟨rfl, rfl, rfl⟩

theorem handleMultiplexerReady_turns (hid : id ∈ w.swarm.connections)
    (hs : w.swarm.sessions id = some s) (hqueue : s.eventQueue = e :: rest)
    (htype : e.type = .multiplexerReady) :
    Turns S reading ⟨w, closing, []⟩
      ⟨handleMultiplexerReady S id e.detail (w.take id s rest), closing, []⟩ := by
  unfold handleMultiplexerReady
  rw [World.take_remotePeer hid]
  exact ((Turn.established ⟨w, closing, []⟩ id s e rest rfl hid hs hqueue htype).single).trans
    (dispatchEvent_turns _ _ closing [])

/-- An event that is passed on. -/
theorem forward_turns {type : SwarmEventType} (hid : id ∈ w.swarm.connections)
    (hs : w.swarm.sessions id = some s) (hqueue : s.eventQueue = e :: rest)
    (htype : Forwards e.type type) :
    Turns S reading ⟨w, closing, []⟩
      ⟨dispatchEvent S { type, connectionId := id, streamId := e.streamId, detail := e.detail }
        (w.take id s rest), closing ++ if e.type = .closed then [id] else [], []⟩ :=
  ((Turn.forward ⟨w, closing, []⟩ id s e rest type rfl hid hs hqueue htype).single).trans
    (dispatchEvent_turns _ _ _ [])

theorem handleConnectionEvent_turns (hid : id ∈ w.swarm.connections)
    (hs : w.swarm.sessions id = some s) (hqueue : s.eventQueue = e :: rest) :
    Turns S reading ⟨w, closing, []⟩
      ⟨(handleConnectionEvent S id e closing (w.take id s rest)).2,
        (handleConnectionEvent S id e closing (w.take id s rest)).1, []⟩ := by
  unfold handleConnectionEvent
  dsimp only
  have hforward : ∀ {type : SwarmEventType}, Forwards e.type type → Turns S reading ⟨w, closing, []⟩
      ⟨dispatchEvent S { type, connectionId := id, streamId := e.streamId, detail := e.detail }
        (w.take id s rest), closing ++ if e.type = .closed then [id] else [], []⟩ :=
    fun htype => forward_turns hid hs hqueue htype
  cases htype : e.type with
  | secured => exact handleSecured_turns hid hs hqueue htype
  | multiplexerReady => exact handleMultiplexerReady_turns hid hs hqueue htype
  | streamOpened =>
    have hturns := hforward (htype ▸ Forwards.streamOpened)
    rw [htype, if_neg (by simp), List.append_nil] at hturns
    exact hturns
  | streamAccepted =>
    dsimp only
    have hturn : Turn S reading _ _ := Turn.forward ⟨w, closing, []⟩ id s e rest .streamAccepted
      rfl hid hs hqueue (htype ▸ Forwards.streamAccepted)
    rw [htype, if_neg (by simp), List.append_nil] at hturn
    refine hturn.single.trans (Turns.trans ?_ (dispatchEvent_turns _ _ closing []))
    split_ifs
    · exact (Turn.accept ⟨w.take id s rest, closing, _⟩ id).single
    · exact Turns.refl _
  | streamClosed =>
    have hturns := hforward (htype ▸ Forwards.streamClosed)
    rw [htype, if_neg (by simp), List.append_nil] at hturns
    exact hturns
  | error =>
    have hturns := hforward (htype ▸ Forwards.error)
    rw [htype, if_neg (by simp), List.append_nil] at hturns
    exact hturns
  | closed =>
    have hturns := hforward (htype ▸ Forwards.closed)
    rw [htype, if_pos rfl] at hturns
    exact hturns

theorem acceptStream_tended (id : ConnectionId) (w : World) : Tended w (acceptStream id w) := by
  unfold acceptStream
  cases hfind : w.findConnection id with
  | none => exact Tended.refl w
  | some s =>
    have hs : w.swarm.sessions id = some s := by
      unfold World.findConnection at hfind
      split_ifs at hfind
      exact hfind
    have hqueue : (Connection.acceptInboundStream s).2.eventQueue = s.eventQueue := by
      unfold Connection.acceptInboundStream
      cases s.pendingInbound <;> rfl
    have hset := Tended.setSession hs hqueue
    dsimp only
    rcases hrun : Connection.acceptInboundStream s with ⟨_ | stream, s'⟩ <;> rw [hrun] at hset
    · exact hset
    · exact hset.trans (Tended.of_same rfl rfl)

/-- Handling an event queues no other. -/
theorem handleConnectionEvent_tended (id : ConnectionId) (e : ConnectionEvent)
    (closing : List ConnectionId) (w : World) :
    Tended w (handleConnectionEvent S id e closing w).2 := by
  unfold handleConnectionEvent
  dsimp only
  cases e.type with
  | secured =>
    dsimp only
    unfold handleSecured
    cases w.remotePeer id with
    | none => exact Tended.refl w
    | some peer =>
      dsimp -zeta only
      extract_lets w₁ w₂
      have hw₁ : Tended w w₁ := Tended.of_same rfl rfl
      have hw₂ : Tended w w₂ := hw₁.trans (Tended.dispatchEvent _ w₁)
      cases (w₂.findConnection id).bind (·.negotiatedStreamMuxer) with
      | none => exact hw₂
      | some muxer => exact hw₂.trans (Tended.dispatchEvent _ w₂)
  | multiplexerReady =>
    have hrecord : Tended w (recordEstablished id w) := Tended.of_same rfl rfl
    exact hrecord.trans (Tended.dispatchEvent _ _)
  | streamOpened => exact Tended.dispatchEvent _ w
  | streamAccepted =>
    refine Tended.trans ?_ (Tended.dispatchEvent _ _)
    split_ifs
    · exact acceptStream_tended id w
    · exact Tended.refl w
  | streamClosed => exact Tended.dispatchEvent _ w
  | error => exact Tended.dispatchEvent _ w
  | closed => exact Tended.dispatchEvent _ w

theorem drainLoop_turns (id : ConnectionId) (fuel : ℕ) :
    ∀ (closing : List ConnectionId) (w : World), id ∈ w.swarm.connections →
      Turns S reading ⟨w, closing, []⟩
        ⟨(drainLoop S id fuel closing w).2, (drainLoop S id fuel closing w).1, []⟩ := by
  induction fuel with
  | zero => exact fun closing w _ => Turns.refl _
  | succ fuel ih =>
    intro closing w hid
    rw [drainLoop]
    cases hs : w.swarm.sessions id with
    | none => exact Turns.refl _
    | some s =>
      unfold Connection.nextEvent
      dsimp only
      cases hqueue : s.eventQueue with
      | nil =>
        have hsame : w.setSession id s = w := by
          unfold World.setSession
          rw [← hs, Function.update_eq_self]
        dsimp only
        rw [hsame]
        exact Turns.refl _
      | cons e rest =>
        have hturns : Turns S reading ⟨w, closing, []⟩ _ := handleConnectionEvent_turns hid hs hqueue
        have htended := handleConnectionEvent_tended (S := S) id e closing (w.take id s rest)
        refine hturns.trans (ih _ _ ?_)
        rw [htended.connections]
        exact hid

theorem drainConnectionEventsFor_turns (id : ConnectionId) (closing : List ConnectionId) (w : World) :
    Turns S reading ⟨w, closing, []⟩
      ⟨(drainConnectionEventsFor S id closing w).2, (drainConnectionEventsFor S id closing w).1, []⟩ := by
  unfold drainConnectionEventsFor
  unfold World.findConnection
  split_ifs with hid
  · cases w.swarm.sessions id with
    | none => exact Turns.refl _
    | some s => exact drainLoop_turns id _ closing w hid
  · exact Turns.refl _

theorem removeConnections_turns (ids : List ConnectionId) (w : World) :
    Turns S reading ⟨w, ids, []⟩ ⟨removeConnections ids w, [], []⟩ := by
  induction ids generalizing w with
  | nil => exact Turns.refl _
  | cons id ids ih =>
    exact ((Turn.remove ⟨w, id :: ids, []⟩ id ids rfl).single).trans (ih (removeConnection id w))

theorem drainAndRemove_turns (ids : List ConnectionId) (w : World) :
    Turns S reading ⟨w, [], []⟩ ⟨drainAndRemove S ids w, [], []⟩ := by
  unfold drainAndRemove
  have hfold : ∀ (ids closing : List ConnectionId) (w : World), Turns S reading ⟨w, closing, []⟩
      ⟨(ids.foldl (fun p id => drainConnectionEventsFor S id p.1 p.2) (closing, w)).2,
        (ids.foldl (fun p id => drainConnectionEventsFor S id p.1 p.2) (closing, w)).1, []⟩ := by
    intro ids
    induction ids with
    | nil => exact fun closing w => Turns.refl _
    | cons id ids ih =>
      exact fun closing w => (drainConnectionEventsFor_turns id closing w).trans (ih _ _)
  exact (hfold ids [] w).trans (removeConnections_turns _ _)

theorem drainConnectionEvents_turns (w : World) :
    Turns S reading ⟨w, [], []⟩ ⟨drainConnectionEvents S w, [], []⟩ :=
  ((Quiet.ask w).turns [] []).trans (drainAndRemove_turns _ _)

end Drain

/-! ## Calls of sessions -/

/-- Between two functions nothing is due and no connection is closing. -/
def Does (S : Noise.Sodium) (reading : Bool) (w w' : World) : Prop :=
  Turns S reading ⟨w, [], []⟩ ⟨w', [], []⟩

namespace Does

variable {w w' w'' : World}

theorem refl (w : World) : Does S reading w w := Turns.refl _

theorem trans (h : Does S reading w w') (h' : Does S reading w' w'') : Does S reading w w'' :=
  Turns.trans h h'

/-- A function that is called for each element of a list. -/
theorem foldl {α : Type} {f : World → α → World} (hf : ∀ w a, Does S reading w (f w a)) (as : List α)
    (w : World) : Does S reading w (as.foldl f w) := by
  induction as generalizing w with
  | nil => exact refl w
  | cons a as ih => exact (hf w a).trans (ih (f w a))

end Does

theorem modifySession_does {f : BasicConnectionSession → BasicConnectionSession} (id : ConnectionId)
    (a : Connection.Action) (ha : a ≠ .nextEvent) (hlocal : reading = true ∨ a.Local)
    (hf : ∀ s, f s = Connection.step S s a) (w : World) : Does S reading w (w.modifySession id f) := by
  unfold World.modifySession
  cases hs : w.swarm.sessions id with
  | none => exact Does.refl w
  | some s =>
    have hturn : Turn S reading _ _ := Turn.act ⟨w, [], []⟩ id s a hs ha hlocal
    rw [← hf s] at hturn
    exact hturn.single

theorem close_does (id : ConnectionId) (w : World) :
    Does S reading w (w.modifySession id Connection.close) :=
  modifySession_does id .close (by simp) (.inr (by intro answers; simp)) (by intro; rfl) w

/-- A call of a method of a session. -/
theorem onSession_does {α : Type} {x : Method α} (id : ConnectionId) (a : Connection.Action)
    (ha : a ≠ .nextEvent) (hlocal : reading = true ∨ a.Local)
    (hx : ∀ s, (x s).2 = Connection.step S s a) (w : World) :
    Does S reading w (onSession S id x w).2 := by
  unfold onSession
  dsimp only
  refine ((Quiet.ask w).turns [] []).trans ?_
  cases hs : w.ask.2.swarm.sessions id with
  | none => exact Turns.refl _
  | some s =>
    have hanswers : Turn S reading _ _ := Turn.act ⟨w.ask.2, [], []⟩ id s
      (.answers w.ask.1.sends w.ask.1.shutdownError) hs (by simp) (.inr (by intro answers; simp))
    dsimp only at hanswers ⊢
    generalize Connection.step S s (.answers w.ask.1.sends w.ask.1.shutdownError) = s₁ at hanswers ⊢
    have hs₁ : (w.ask.2.setSession id s₁).swarm.sessions id = some s₁ := by
      simp [World.setSession]
    have hset : (w.ask.2.setSession id s₁).setSession id (x s₁).2 = w.ask.2.setSession id (x s₁).2 := by
      simp [World.setSession]
    have hcall : Turn S reading ⟨w.ask.2.setSession id s₁, [], []⟩
        ⟨(w.ask.2.setSession id s₁).setSession id (Connection.step S s₁ a), [], []⟩ :=
      Turn.act ⟨w.ask.2.setSession id s₁, [], []⟩ id s₁ a hs₁ ha hlocal
    rw [← hx, hset] at hcall
    exact hanswers.single.trans hcall.single

theorem onSession_connections {α : Type} (x : Method α) (id : ConnectionId) (w : World) :
    (onSession S id x w).2.swarm.connections = w.swarm.connections := by
  unfold onSession
  dsimp only
  cases w.ask.2.swarm.sessions id <;> rfl

/-! ## Connections -/

theorem registerConnection_connections (id : ConnectionId) (fd : Fd) (w : World) :
    (registerConnection id fd w).swarm.connections = w.swarm.connections := by
  unfold registerConnection
  dsimp only
  split_ifs <;> rfl

theorem newConnection_mem (socket : TcpSocket) (isInitiator : Bool)
    (origin : Option (DialOrigin socket.remoteAddr)) (w : World) :
    (newConnection socket isInitiator origin w).1 ∈
      (newConnection socket isInitiator origin w).2.swarm.connections := List.mem_insert_self

theorem finishUpgrade_does {id : ConnectionId} {w : World} (hid : id ∈ w.swarm.connections)
    (upgrade : Result Unit) : Does S reading w (finishUpgrade S id upgrade w) := by
  unfold finishUpgrade
  refine Does.trans ?_ (drainAndRemove_turns [id] _)
  cases upgrade with
  | ok => exact Does.refl w
  | error e =>
    have hreport : Turn S reading _ _ := Turn.report ⟨w, [], []⟩
      { type := .protocolError, connectionId := id, detail := ascii e } rfl rfl hid (.inr rfl) rfl
    exact (hreport.single.trans (dispatchEvent_turns _ w [] [])).trans (close_does id _)

/-- A new connection. -/
theorem connect_does (socket : TcpSocket) (isInitiator : Bool)
    (origin : Option (DialOrigin socket.remoteAddr)) (hrole : origin.isSome → isInitiator = true)
    (w : World) :
    Does S reading w (w.connect socket isInitiator origin) ∧
      (newConnection socket isInitiator origin w).1 ∈ (w.connect socket isInitiator origin).swarm.connections := by
  refine ⟨(Turn.connect ⟨w, [], []⟩ socket isInitiator origin hrole).single, ?_⟩
  unfold World.connect
  rw [registerConnection_connections]
  exact newConnection_mem socket isInitiator origin w

theorem onAccepted_does (socket : TcpSocket) (w : World) :
    Does S reading w (onAccepted S socket w) := by
  obtain ⟨hconnect, hid⟩ : Does S reading _ _ ∧ _ := connect_does socket false none nofun w
  unfold onAccepted
  dsimp only
  have hreport : Turn S reading _ _ := Turn.report ⟨_, [], []⟩
    { type := .incomingConnection, connectionId := (newConnection socket false none w).1
      detail := socket.remoteAddr.bytes } rfl rfl hid (.inl rfl) rfl
  refine (hconnect.trans (hreport.single.trans (dispatchEvent_turns _ _ [] []))).trans ?_
  refine (onSession_does _ .beginInbound (by simp) (.inr (by intro answers; simp)) (by intro; rfl) _).trans
    (finishUpgrade_does ?_ _)
  rw [onSession_connections, dispatchEvent_connections]
  exact hid

theorem onConnected_does (socket : TcpSocket) (origin : Option (DialOrigin socket.remoteAddr))
    (w : World) : Does S reading w (onConnected S socket origin w) := by
  obtain ⟨hconnect, hid⟩ : Does S reading _ _ ∧ _ := connect_does socket true origin (fun _ => rfl) w
  unfold onConnected
  dsimp only
  refine hconnect.trans ?_
  refine (onSession_does _ .beginOutbound (by simp) (.inr (by intro answers; simp)) (by intro; rfl) _).trans
    (finishUpgrade_does ?_ _)
  rw [onSession_connections]
  exact hid

/-- An event that is about no connection. -/
theorem outside_does (event : SwarmEvent) (w : World)
    (htype : event.type = .listenerStarted ∨ event.type = .dialFailed) (hid : event.connectionId = 0)
    (hstream : event.streamId = none) : Does S reading w (dispatchEvent S event w) :=
  ((Turn.outside ⟨w, [], []⟩ event rfl htype hid hstream).single).trans
    (dispatchEvent_turns event w [] [])

theorem onDialFailed_does (addr : Multiaddr) (detail : String) (w : World) :
    Does S reading w (onDialFailed S addr detail w) :=
  outside_does _ w (.inr rfl) rfl rfl

/-! ## The transport and the event loop -/

theorem aside_does {w w' : World} (h : Aside w w') : Does S reading w w' := h.turns [] []

theorem syncTransportFds_does (w : World) : Does S reading w (syncTransportFds w) :=
  aside_does ⟨rfl, fun _ => rfl⟩

theorem acceptLoop_does (accepts : List AcceptAnswer) (w : World) :
    Does S reading w (acceptLoop S accepts w) :=
  Does.foldl (fun w answer => by
    cases answer with
    | accepted socket => exact onAccepted_does socket w
    | setupFailed => exact Does.refl w
    | unaddressed => exact Does.refl w) accepts w

theorem ask_does (w : World) : Does S reading w w.ask.2 := (Quiet.ask w).turns [] []

theorem onAcceptReady_does (listenFd : Fd) (w : World) :
    Does S reading w (onAcceptReady S listenFd w) := by
  unfold onAcceptReady
  split_ifs
  · exact (ask_does w).trans (acceptLoop_does _ _)
  · exact Does.refl w

theorem onConnectReady_does (socketFd : Fd) (w : World) :
    Does S reading w (onConnectReady S socketFd w) := by
  unfold onConnectReady
  cases w.swarm.transport.pendingDials.find? (·.fd = socketFd) with
  | none => exact Does.refl w
  | some dial =>
    have hdial : Does S reading w { w.ask.2 with swarm := { w.ask.2.swarm with
        transport := { w.ask.2.swarm.transport with
          pendingDials := w.ask.2.swarm.transport.pendingDials.eraseP (·.fd = socketFd) } } } :=
      (ask_does w).trans (aside_does ⟨rfl, fun _ => rfl⟩)
    dsimp only
    cases w.ask.1.soError with
    | some error => exact hdial.trans (onDialFailed_does _ _ _)
    | none => exact hdial.trans (onConnected_does _ _ _)

theorem runCallback_does (handler : FdHandler) (event : IoEvent) (w : World) :
    Does S true w (runCallback S handler event w) := by
  unfold runCallback
  cases handler.callback with
  | listener =>
    dsimp only
    split_ifs
    · exact onAcceptReady_does _ w
    · exact Does.refl w
  | dial =>
    dsimp only
    split_ifs
    · exact onConnectReady_does _ w
    · exact Does.refl w
  | connection =>
    cases w.swarm.fdToConn.lookup handler.fd with
    | none => exact Does.refl w
    | some id =>
      dsimp only
      split_ifs
      · cases event with
        | readable =>
          have hread : Does S true w.ask.2 (onSession S id
              (fun s => (.ok (), Connection.onSocketReadable S w.ask.1.recv s)) w.ask.2).2 :=
            onSession_does id (.readable w.ask.1.recv) (by simp) (.inl rfl) (by intro; rfl) _
          exact (ask_does w).trans hread
        | writable =>
          have hwrite : Does S true w
              (onSession S id (fun s => (.ok (), Connection.onSocketWritable s)) w).2 :=
            onSession_does id .writable (by simp) (.inl rfl) (by intro; rfl) w
          exact hwrite
        | error => exact close_does id w
      · exact Does.refl w

theorem handleReady_does (ready : ReadyEvent) (w : World) : Does S true w (handleReady S ready w) := by
  have hcall : ∀ (index : ℕ) (event : IoEvent) (w : World),
      Does S true w (callHandler S index event w) := by
    intro index event w
    unfold callHandler
    cases w.swarm.eventLoop[index]? with
    | none => exact Does.refl w
    | some handler => exact runCallback_does handler event w
  have hif : ∀ (b : Bool) (index : ℕ) (event : IoEvent) (w : World),
      Does S true w (if b then callHandler S index event w else w) := by
    intro b index event w
    split_ifs
    · exact hcall index event w
    · exact Does.refl w
  unfold handleReady
  cases w.swarm.eventLoop.findIdx? (·.fd = ready.fd) with
  | none => exact Does.refl w
  | some index =>
    exact ((hif ready.input index .readable w).trans (hif ready.output index .writable _)).trans
      (hif ready.error index .error _)

theorem eventLoopPollOnce_does (w : World) : Does S true w (eventLoopPollOnce S w) :=
  (ask_does w).trans (Does.foldl (fun w ready => handleReady_does ready w) _ _)

/-- A method that does things. -/
def DoesOp (S : Noise.Sodium) (reading : Bool) {α : Type} (x : Op World α) : Prop :=
  Op.Preserves (Does S reading) x

theorem DoesOp.bind {α β : Type} {x : Op World α} {f : α → Op World β} (hx : DoesOp S reading x)
    (hf : ∀ a, DoesOp S reading (f a)) : DoesOp S reading (x >>= f) :=
  Op.Preserves.bind (fun _ _ _ h h' => h.trans h') hx hf

theorem DoesOp.ofResult {α : Type} (r : Result α) : DoesOp S reading (Op.ofResult r : Op World α) :=
  fun w => Does.refl w

theorem DoesOp.fail {α : Type} (e : String) : DoesOp S reading (Op.fail e : Op World α) :=
  fun w => Does.refl w

theorem DoesOp.get : DoesOp S reading (Op.get : Op World World) := fun w => Does.refl w

theorem transportDial_does (addr : Multiaddr) (origin : Option (DialOrigin addr)) :
    DoesOp S reading (transportDial S addr origin) := by
  have hask : DoesOp S reading (Op.update World.ask) := ask_does
  refine hask.bind fun answers => (DoesOp.ofResult _).bind fun _ => (DoesOp.ofResult _).bind fun fd => ?_
  cases answers.connect with
  | connected => exact onConnected_does ⟨fd, addr⟩ origin
  | failed error => exact onDialFailed_does addr error
  | inProgress => exact fun w => aside_does ⟨rfl, fun _ => rfl⟩

theorem transportListen_does (addr : Multiaddr) : DoesOp S reading (transportListen addr) := by
  have hask : DoesOp S reading (Op.update World.ask) := ask_does
  exact hask.bind fun answers => (DoesOp.ofResult _).bind fun _ => (DoesOp.ofResult _).bind fun fd w =>
    aside_does ⟨rfl, fun _ => rfl⟩

theorem dialAddr_does (addr : Multiaddr) (origin : Option (DialOrigin addr)) :
    DoesOp S reading (dialAddr S addr origin) := by
  have hsync : DoesOp S reading (Op.modify syncTransportFds) := syncTransportFds_does
  exact (transportDial_does addr origin).bind fun _ => hsync

theorem dialPeer_does (peer : PeerId) : DoesOp S reading (dialPeer S peer) := by
  refine DoesOp.get.bind fun w => ?_
  split
  · exact DoesOp.fail _
  · exact dialAddr_does _ _

theorem listenOn_does (addr : Multiaddr) : DoesOp S reading (listenOn S addr) := by
  have hsync : DoesOp S reading (Op.modify syncTransportFds) := syncTransportFds_does
  refine DoesOp.get.bind fun w => (transportListen_does addr).bind fun _ => hsync.bind fun _ =>
    DoesOp.get.bind fun w' => ?_
  exact fun w => Does.foldl (fun w _ => (ask_does w).trans (outside_does _ _ (.inl rfl) rfl rfl)) _ w

/-! ## Streams under negotiation -/

theorem giveTo_does (n : ℕ) (w : World) : Does S reading w (giveTo n w) := aside_does ⟨rfl, fun _ => rfl⟩

theorem log_does (n : ℕ) (report : StreamReport) (w : World) : Does S false w (logStream n report w) :=
  (Turn.log ⟨w, [], []⟩ n report rfl).single

theorem notifyHandler_does (n : ℕ) (w : World) : Does S false w (notifyHandler S n w) := by
  unfold notifyHandler
  dsimp only
  cases (w.swarm.negotiations n).negotiatedProtocol.bind (findHandler w) with
  | none => exact Does.refl w
  | some handler =>
    exact (log_does n _ w).trans ((giveTo_does n _).trans (userCode_turns _ [] []))

theorem pollPendingStream_turns {key : UInt64} {n : ℕ} {w : World}
    (hkey : w.swarm.pendingStreams.lookup key = some n) :
    Does S false w (pollPendingStream S n w).2 := by
  unfold pollPendingStream
  have hpoll := Negotiation.poll_quiet (S := S) n w
  rcases hrun : Negotiation.poll S n w with ⟨progress, w₁⟩
  rw [hrun] at hpoll
  have hkey₁ : w₁.swarm.pendingStreams.lookup key = some n := by
    rw [hpoll.swarm]
    exact hkey
  have hevent : ∀ (type : SwarmEventType) (detail : Bytes),
      type = .protocolError ∨ type = .protocolNegotiated →
      Does S false w₁ (dispatchOutcome S n (pendingEvent w₁ n type detail) w₁) := by
    intro type detail htype
    have hpolled : Does S false w₁ (dispatchEvent S (pendingEvent w₁ n type detail) w₁) :=
      ((Turn.polled ⟨w₁, [], []⟩ key n (pendingEvent w₁ n type detail) rfl rfl rfl hkey₁ rfl htype).single).trans
        (dispatchEvent_turns _ w₁ [] [])
    exact hpolled.trans (log_does n _ _)
  have hquiet : Does S false w w₁ := hpoll.turns [] []
  dsimp only
  split_ifs
  · exact hquiet
  · exact hquiet.trans (hevent .protocolError _ (.inl rfl))
  · split
    · exact (hquiet.trans (hevent .protocolNegotiated _ (.inr rfl))).trans (notifyHandler_does n _)
    · exact hquiet

theorem pollPendingLoop_does (keys : List UInt64) :
    ∀ (finished : List UInt64) (w : World), Does S false w (pollPendingLoop S keys finished w).2 := by
  induction keys with
  | nil => exact fun finished w => Does.refl w
  | cons key keys ih =>
    intro finished w
    unfold pollPendingLoop
    cases hkey : w.swarm.pendingStreams.lookup key with
    | none => exact ih finished w
    | some n => exact (pollPendingStream_turns hkey).trans (ih _ _)

theorem pollPendingStreams_does (w : World) : Does S false w (pollPendingStreams S w) :=
  ((ask_does w).trans (pollPendingLoop_does _ _ _)).trans (Turn.erase ⟨_, [], []⟩ _).single

/-- A stream is opened only on a session in state `Ready`. -/
theorem requestOpenStream_ready {s s' : BasicConnectionSession} {proto : ProtocolId}
    {stream : StreamHandle} (h : Connection.requestOpenStream S proto s = (.ok stream, s')) :
    s'.state = .ready := by
  have hstate := (Connection.OutMoves.frame (Connection.requestOpenStream_out (S := S) proto s)).state
  rw [h] at hstate
  refine Eq.trans hstate ?_
  show s.state = .ready
  by_contra hnot
  unfold Connection.requestOpenStream at h
  rw [Op.get_bind] at h
  split_ifs at h
  · cases h
  · cases h

/-- `open_stream` polls the negotiations last. -/
theorem openStream_polls (connId : ConnectionId) (proto : ProtocolId) (w : World) :
    ∃ w₁, Does S reading w w₁ ∧ ((openStream S connId proto w).2 = w₁ ∨
      (openStream S connId proto w).2 = pollPendingStreams S w₁) := by
  unfold openStream
  rw [Op.get_bind]
  split_ifs with hid
  swap
  · exact ⟨w, Does.refl w, .inl rfl⟩
  have hcall : Does S reading w (onSession S connId (Connection.requestOpenStream S proto) w).2 :=
    onSession_does connId (.openStream proto) (by simp) (.inr (by intro answers; simp)) (by intro; rfl) w
  have hconnections := onSession_connections (Connection.requestOpenStream S proto) (S := S) connId w
  rw [Op.bind_apply]
  rcases hrun : onSession S connId (Connection.requestOpenStream S proto) w with ⟨e | stream, w₁⟩ <;>
    rw [hrun] at hcall hconnections
  · exact ⟨w₁, hcall, .inl rfl⟩
  -- the session that opened the stream is ready
  · obtain ⟨s, hs, hready⟩ : ∃ s, w₁.swarm.sessions connId = some s ∧ s.state = .ready := by
      unfold onSession at hrun
      dsimp only at hrun
      cases hs : w.ask.2.swarm.sessions connId with
      | none =>
        rw [hs] at hrun
        cases hrun
      | some s =>
        rw [hs, Prod.mk.injEq] at hrun
        obtain ⟨hok, rfl⟩ := hrun
        exact ⟨_, by simp [World.setSession], requestOpenStream_ready (Prod.ext hok rfl)⟩
    have hpend : Turn S reading _ _ := Turn.pend ⟨w₁, [], []⟩ connId s
      { connId, inner := stream, desiredProtocol := proto, stage := .sendingOutboundProposal }
      (hconnections ▸ hid) hs hready rfl
    exact ⟨_, (Does.trans hcall hpend.single).trans (drainAndRemove_turns [connId] _), .inr rfl⟩

theorem openStream_does (connId : ConnectionId) (proto : ProtocolId) :
    DoesOp S false (openStream S connId proto) := by
  intro w
  obtain ⟨w₁, hdoes, hlast | hlast⟩ : ∃ w₁, Does S false w w₁ ∧ _ := openStream_polls connId proto w
  · rw [hlast]
    exact hdoes
  · rw [hlast]
    exact hdoes.trans (pollPendingStreams_does w₁)

theorem openStreamTo_does (peer : PeerId) (proto : ProtocolId) :
    DoesOp S false (openStreamTo S peer proto) := by
  refine DoesOp.get.bind fun w => ?_
  cases w.swarm.peerConnections.lookup peer.toString with
  | none => exact DoesOp.fail _
  | some id => exact openStream_does id proto

/-! ## Calls of the application -/

theorem applyAction_does (action : ControllerAction) (w : World) :
    Does S false w (applyAction S action w) := by
  unfold applyAction
  split
  · exact dialAddr_does _ _ w
  · exact dialPeer_does _ w
  · split_ifs
    · exact (close_does _ w).trans (drainConnectionEvents_turns _)
    · exact Does.refl w
  · exact openStream_does _ _ w
  all_goals exact Does.refl w

theorem giveStream_does (r : Result ℕ × World) : Does S reading r.2 (giveStream r) := by
  rcases r with ⟨e | n, w⟩
  · exact Does.refl w
  · exact giveTo_does n w

theorem registerHandler_does (proto : ProtocolId) (w : World) :
    Does S reading w (swarmStep S w (.registerHandler proto)) := aside_does ⟨rfl, fun _ => rfl⟩

theorem addAddr_does (peer : PeerId) (addr : Multiaddr) (w : World) :
    Does S reading w (swarmStep S w (.addAddr peer addr)) :=
  aside_does ⟨rfl, fun peer' => PeerStore.addAddr_dialSuccesses _ peer addr peer'⟩

/-- `poll_once` reads the sockets, and drains the connections before it goes on. -/
theorem pollOnce_does (w : World) :
    ∃ w₁, Does S true w w₁ ∧ Does S false (drainConnectionEvents S w₁) (pollOnce S w) := by
  refine ⟨syncTransportFds (eventLoopPollOnce S (syncTransportFds w)), ?_, ?_⟩
  · exact ((syncTransportFds_does w).trans (eventLoopPollOnce_does _)).trans (syncTransportFds_does _)
  · unfold pollOnce
    dsimp only
    generalize drainConnectionEvents S _ = w₂
    refine (pollPendingStreams_does w₂).trans ?_
    refine (Does.foldl (f := fun w (_ : ProtocolId) => userCode S w)
      (fun w _ => userCode_turns w [] []) (pollPendingStreams S w₂).swarm.handlers _).trans ?_
    exact ((userCode_turns _ [] []).trans (ask_does _)).trans
      (Does.foldl (fun w action => applyAction_does action w) _ _)

/-- Every other call, `stop` apart. -/
theorem swarmStep_does (w : World) {call : SwarmCall} (hstop : call ≠ .stop) (hpoll : call ≠ .pollOnce) :
    Does S false w (swarmStep S w call) := by
  cases call with
  | start => exact syncTransportFds_does w
  | stop => exact absurd rfl hstop
  | listenOn addr => exact listenOn_does addr w
  | dialAddr addr => exact dialAddr_does addr none w
  | dialPeer peer => exact dialPeer_does peer w
  | openStream id proto => exact (openStream_does id proto w).trans (giveStream_does _)
  | openStreamTo peer proto => exact (openStreamTo_does peer proto w).trans (giveStream_does _)
  | registerHandler proto => exact registerHandler_does proto w
  | pollOnce => exact absurd rfl hpoll
  | nextEvent => exact (Turn.dequeue ⟨w, [], []⟩).single
  | addAddr peer addr => exact addAddr_does peer addr w
  | useStream n call =>
    show Does S false w (if n ∈ w.swarm.given then Negotiation.call S w n call else w)
    split_ifs
    · exact (Negotiation.call_quiet w n call).turns [] []
    · exact Does.refl w

end Functions

end PeerCore
