import PeerCore.Connection.Vetted
import PeerCore.Swarm.Peers

/-!
# The peer that a dialled connection is established as

* `Traceable`: every session of a swarm is in a run from its making, and one made for
  `dial_peer` dials the address that the store had first for the peer.
* `Announced`: the `ConnectionEstablished` events are those of the connections that
  became established, with their peers.
* `dialed_peer_established`: such a connection is established as the peer that the
  address names, which need not be the peer that was dialled
  (`dialed_another_peer`).
-/

namespace PeerCore

open Connection (BasicConnectionSession ConnectionEvent Dials)

section Swarm

variable {S : Noise.Sodium} {reading : Bool}

/-! ## Sessions and their runs -/

variable (S) in
/-- The session is in a run, and began as what `origin` asked for. -/
def Begun (origin : Option ((addr : Multiaddr) × DialOrigin addr)) (id : ConnectionId)
    (s : BasicConnectionSession) : Prop :=
  ∃ fd addr isInitiator identity streamMuxers random,
    Connection.Runs S (fun _ _ => True)
      (BasicConnectionSession.make id fd addr isInitiator identity streamMuxers random) s ∧
    ∀ o, origin = some o → isInitiator = true ∧ o.1 = addr

theorem Begun.step {origin : Option ((addr : Multiaddr) × DialOrigin addr)} {id : ConnectionId}
    {s : BasicConnectionSession} (h : Begun S origin id s) (a : Connection.Action) :
    Begun S origin id (Connection.step S s a) := by
  obtain ⟨fd, addr, isInitiator, identity, streamMuxers, random, hrun, horigin⟩ := h
  exact ⟨fd, addr, isInitiator, identity, streamMuxers, random, hrun.step a trivial, horigin⟩

theorem Begun.plays {origin : Option ((addr : Multiaddr) × DialOrigin addr)} {id : ConnectionId}
    {s s' : BasicConnectionSession} (h : Begun S origin id s) (hplays : Plays S s s') :
    Begun S origin id s' := by
  induction hplays with
  | refl => exact h
  | tail _ hstep ih =>
    obtain ⟨a, -, rfl⟩ := hstep
    exact ih.step a

/-- The first event is taken. -/
theorem Begun.take {origin : Option ((addr : Multiaddr) × DialOrigin addr)} {id : ConnectionId}
    {s : BasicConnectionSession} {e : ConnectionEvent} {rest : List ConnectionEvent}
    (h : Begun S origin id s) (hqueue : s.eventQueue = e :: rest) :
    Begun S origin id { s with eventQueue := rest } := by
  have htaken : Connection.step S s .nextEvent = { s with eventQueue := rest } := by
    show (Connection.nextEvent s).2 = _
    unfold Connection.nextEvent
    rw [hqueue]
  rw [← htaken]
  exact h.step .nextEvent

/-- While the `MultiplexerReady` event of a session waits, its peer is the one that the
    dialled address names. -/
theorem Begun.authenticated {addr : Multiaddr} {o : DialOrigin addr} {id : ConnectionId}
    {s : BasicConnectionSession} {expected : PeerId} (h : Begun S (some ⟨addr, o⟩) id s)
    (hdials : Dials addr expected) (htold : .multiplexerReady ∈ s.voice.events) :
    s.remotePeer = some expected := by
  obtain ⟨fd, dialed, isInitiator, identity, streamMuxers, random, hrun, horigin⟩ := h
  obtain ⟨rfl, rfl⟩ := horigin _ rfl
  exact Connection.told_authenticated hdials id fd identity streamMuxers random hrun htold

variable (S) in
/-- Every session comes from a run that began as its connection did. -/
def Traceable (w : World) : Prop :=
  ∀ id s, w.swarm.sessions id = some s → Begun S (w.swarm.origins id) id s

namespace Traceable

variable {w w' : World}

theorem of_same (h : Traceable S w) (hsessions : w'.swarm.sessions = w.swarm.sessions)
    (horigins : w'.swarm.origins = w.swarm.origins) : Traceable S w' := by
  unfold Traceable
  rw [hsessions, horigins]
  exact h

theorem setSession (h : Traceable S w) {id : ConnectionId} {s : BasicConnectionSession}
    (hs : Begun S (w.swarm.origins id) id s) : Traceable S (w.setSession id s) := by
  intro id' t ht
  by_cases hid : id' = id
  · subst hid
    rw [World.setSession_self] at ht
    obtain rfl := Option.some.inj ht
    exact hs
  · rw [World.setSession_of_ne _ _ hid] at ht
    exact h id' t ht

theorem acceptStream (h : Traceable S w) (id : ConnectionId) : Traceable S (acceptStream id w) := by
  have haccept : ∀ s, w.swarm.sessions id = some s →
      Traceable S (w.setSession id (Connection.acceptInboundStream s).2) := fun s hs =>
    h.setSession ((h id s hs).step .acceptStream)
  rcases acceptStream_cases id w with hw | ⟨s, -, hs, hw⟩ | ⟨s, neg, -, hs, -, -, hw⟩
  · rw [hw]
    exact h
  · rw [hw]
    exact haccept s hs
  · rw [hw]
    exact (haccept s hs).of_same rfl rfl

/-- A connection appears, with what it was dialled for. -/
theorem connect (h : Traceable S w) (socket : TcpSocket) (isInitiator : Bool)
    (origin : Option (DialOrigin socket.remoteAddr)) (hrole : origin.isSome → isInitiator = true) :
    Traceable S (w.connect socket isInitiator origin) := by
  intro id s hs
  rw [connect_sessions] at hs
  rw [connect_swarm]
  dsimp only
  by_cases hnew : id = w.swarm.nextConnId
  · subst hnew
    rw [Function.update_self] at hs ⊢
    obtain rfl := Option.some.inj hs
    refine ⟨_, _, _, _, _, _, .refl, fun o ho => ?_⟩
    obtain ⟨known, hknown, rfl⟩ := Option.map_eq_some_iff.mp ho
    exact ⟨hrole (by rw [hknown]; rfl), rfl⟩
  · rw [Function.update_of_ne hnew] at hs ⊢
    exact h id s hs

theorem turn {a b : Scene} (h : Traceable S a.world) (hturn : Turn S reading a b) :
    Traceable S b.world := by
  cases hturn with
  | quiet w' hquiet =>
    intro id s' hs'
    have hrel := hquiet.sessions id
    rw [hs'] at hrel
    rw [hquiet.swarm]
    generalize hs : a.world.swarm.sessions id = o at hrel
    cases hrel with
    | some hplays => exact (h id _ hs).plays hplays
  | aside w' haside => exact h.of_same (by rw [haside.swarm]) (by rw [haside.swarm])
  | act id s action hs => exact h.setSession ((h id s hs).step action)
  | connect socket isInitiator origin hrole => exact h.connect socket isInitiator origin hrole
  | secured id s e rest peer notes hdue hid hs hqueue =>
    exact (h.setSession ((h id s hs).take hqueue)).of_same rfl rfl
  | anonymous id s e rest hid hs hqueue => exact h.setSession ((h id s hs).take hqueue)
  | established id s e rest hdue hid hs hqueue =>
    exact (h.setSession ((h id s hs).take hqueue)).of_same rfl rfl
  | forward id s e rest type hdue hid hs hqueue => exact h.setSession ((h id s hs).take hqueue)
  | accept id => exact h.acceptStream id
  | remove id =>
    intro id' s' hs'
    have horigins : (removeConnection id a.world).swarm.origins = a.world.swarm.origins := by
      rw [removeConnection_swarm]
    rw [removeConnection_sessions] at hs'
    rw [horigins]
    by_cases heq : id' = id
    · subst heq
      rw [Function.update_self, Option.map_eq_some_iff] at hs'
      obtain ⟨s, hs, rfl⟩ := hs'
      exact (h id' s hs).step .close
    · rw [Function.update_of_ne heq] at hs'
      exact h id' s' hs'
  | outside | report | polled => exact h
  | pend | record | dequeue | log | erase => exact h.of_same rfl rfl

theorem stop (h : Traceable S w) : Traceable S (stop w) := by
  intro id s hs
  have horigins : (PeerCore.stop w).swarm.origins = w.swarm.origins := by rw [stop_swarm]
  rw [horigins]
  exact stop_sessions (P := fun id s => Begun S (w.swarm.origins id) id s)
    (fun _ _ h => h.step .close) h hs

end Traceable

/-! ## Established connections -/

/-- A connection made for `dial_peer` is established as the peer that its address names. -/
def Vouched (w : World) : Prop :=
  ∀ c ∈ w.swarm.established, ∀ addr (o : DialOrigin addr), c.origin = some ⟨addr, o⟩ →
    ∀ expected, Dials addr expected → c.peerId = some expected

/-- The connections and peers of the `ConnectionEstablished` events. -/
def establishedEvents (events : List SwarmEvent) : List (ConnectionId × Option PeerId) :=
  (events.filter fun e => e.type = .connectionEstablished).map fun e => (e.connectionId, e.peerId)

/-- The events that were dispatched and are due are those of the connections that became
    established. -/
def Announced (sc : Scene) : Prop :=
  establishedEvents (sc.world.swarm.history ++ sc.due) =
    sc.world.swarm.established.map fun c => (c.connId, c.peerId)

theorem Vouched.of_same {w w' : World} (h : Vouched w)
    (hestablished : w'.swarm.established = w.swarm.established) : Vouched w' := by
  unfold Vouched
  rw [hestablished]
  exact h

theorem acceptStream_recorded (id : ConnectionId) (w : World) :
    (acceptStream id w).swarm.established = w.swarm.established ∧
      (acceptStream id w).swarm.history = w.swarm.history := by
  rcases acceptStream_cases id w with hw | ⟨s, -, -, hw⟩ | ⟨s, neg, -, -, -, -, hw⟩ <;> rw [hw] <;>
    exact ⟨rfl, rfl⟩

theorem recordEstablished_eq {w : World} {id : ConnectionId} {s : BasicConnectionSession}
    {rest : List ConnectionEvent} (hid : id ∈ w.swarm.connections) :
    (recordEstablished id (w.take id s rest)).swarm.established = w.swarm.established ++ [{
      connId := id
      outbound := ((w.take id s rest).findConnection id).any (·.isInitiator)
      origin := w.swarm.origins id
      peerId := s.remotePeer }] := by
  unfold recordEstablished
  rw [World.take_remotePeer hid]
  rfl

theorem Vouched.turn {a b : Scene} (h : Vouched a.world) (htraceable : Traceable S a.world)
    (hturn : Turn S reading a b) : Vouched b.world := by
  cases hturn with
  | quiet w' hquiet => exact h.of_same (by rw [hquiet.swarm])
  | aside w' haside => exact h.of_same (by rw [haside.swarm])
  | connect => exact h.of_same (by rw [connect_swarm])
  | established id s e rest hdue hid hs hqueue htype =>
    intro c hc addr o horigin expected hdials
    rw [recordEstablished_eq hid] at hc
    rcases List.mem_append.mp hc with hc | hc
    · exact h c hc addr o horigin expected hdials
    · obtain rfl := List.mem_singleton.mp hc
      have hbegun := htraceable id s hs
      rw [show a.world.swarm.origins id = some ⟨addr, o⟩ from horigin] at hbegun
      have htold : .multiplexerReady ∈ s.voice.events := by
        show .multiplexerReady ∈ s.eventQueue.map (·.type)
        rw [hqueue, List.map_cons, htype]
        exact List.mem_cons_self
      exact hbegun.authenticated hdials htold
  | accept id => exact h.of_same (acceptStream_recorded id a.world).1
  | remove id => exact h.of_same (by rw [removeConnection_swarm])
  | outside | report | polled => exact h
  | act | secured | anonymous | forward | pend | record | dequeue | log | erase => exact h.of_same rfl

namespace Announced

/-- Nothing is told of an established connection. -/
theorem of_same {a b : Scene} (h : Announced a) (hhistory : b.world.swarm.history = a.world.swarm.history)
    (hdue : b.due = a.due) (hestablished : b.world.swarm.established = a.world.swarm.established) :
    Announced b := by
  unfold Announced establishedEvents
  rw [hhistory, hdue, hestablished]
  exact h

/-- Other events are due. -/
theorem due {a b : Scene} (h : Announced a) (hhistory : b.world.swarm.history = a.world.swarm.history)
    (hnone : a.due = []) (hestablished : b.world.swarm.established = a.world.swarm.established)
    (hother : ∀ e ∈ b.due, e.type ≠ .connectionEstablished) : Announced b := by
  unfold Announced establishedEvents at *
  have hempty : b.due.filter (fun e => e.type = .connectionEstablished) = [] :=
    List.filter_eq_nil_iff.mpr fun e he => by simpa using hother e he
  rw [hnone, List.append_nil] at h
  rw [hhistory, hestablished, List.filter_append, hempty, List.append_nil]
  exact h

theorem turn {a b : Scene} (h : Announced a) (hturn : Turn S reading a b) : Announced b := by
  cases hturn with
  | quiet w' hquiet => exact h.of_same (by rw [hquiet.swarm]) rfl (by rw [hquiet.swarm])
  | aside w' haside => exact h.of_same (by rw [haside.swarm]) rfl (by rw [haside.swarm])
  | connect => exact h.of_same (by rw [connect_swarm]) rfl (by rw [connect_swarm])
  | act | anonymous | pend | dequeue | log | erase => exact h.of_same rfl rfl rfl
  | accept id =>
    exact h.of_same (acceptStream_recorded id a.world).2 rfl (acceptStream_recorded id a.world).1
  | remove id => exact h.of_same (by rw [removeConnection_swarm]) rfl (by rw [removeConnection_swarm])
  | outside event hdue htype =>
    refine h.due rfl hdue rfl fun e he => ?_
    obtain rfl := List.mem_singleton.mp he
    rcases htype with htype | htype <;> simp [htype]
  | report event hdue _ _ htype =>
    refine h.due rfl hdue rfl fun e he => ?_
    obtain rfl := List.mem_singleton.mp he
    rcases htype with htype | htype <;> simp [htype]
  | polled key n event _ hdue _ _ _ htype =>
    refine h.due rfl hdue rfl fun e he => ?_
    obtain rfl := List.mem_singleton.mp he
    rcases htype with htype | htype <;> simp [htype]
  | secured id s e rest peer notes hdue _ _ _ _ _ hnotes =>
    refine h.due rfl hdue rfl fun e he => ?_
    rcases List.mem_cons.mp he with rfl | he
    · simp
    · simp [(hnotes e he).1]
  | forward id s e rest type hdue _ _ _ htype =>
    refine h.due rfl hdue rfl fun event he => ?_
    obtain rfl := List.mem_singleton.mp he
    exact htype.kind.2.1
  | established id s e rest hdue hid =>
    unfold Announced establishedEvents at *
    rw [hdue, List.append_nil] at h
    rw [recordEstablished_eq hid, List.map_append, ← h, List.filter_append, List.map_append]
    rfl
  | record event rest hdue =>
    unfold Announced establishedEvents at *
    rw [hdue, List.append_cons] at h
    exact h

end Announced

/-! ## Runs -/

theorem make_traceable (peerStore : PeerStore) (localIdentity : Option Identity)
    (localStreamMuxers : List ProtocolId) (env : ℕ → Answers) :
    let w := World.make peerStore localIdentity localStreamMuxers env
    Traceable S w ∧ Vouched w ∧ Announced ⟨w, [], []⟩ := by
  refine ⟨fun _ _ hs => ?_, fun _ hc => ?_, rfl⟩
  · cases hs
  · cases hc

/-- In every run of a swarm the `ConnectionEstablished` events are those of the connections
    that became established, each with the peer of its session. A connection that
    `dial_peer` made dials the first address that the store had for the peer, and when the
    address names a peer that the parser reads, the connection is established as that
    peer. -/
theorem dialed_peer_established (peerStore : PeerStore) (localIdentity : Option Identity)
    (localStreamMuxers : List ProtocolId) (env : ℕ → Answers) (calls : List SwarmCall) :
    let w := Runs.final (swarmStep S) (World.make peerStore localIdentity localStreamMuxers env) calls
    establishedEvents w.swarm.history = w.swarm.established.map (fun c => (c.connId, c.peerId)) ∧
    ∀ c ∈ w.swarm.established, ∀ addr (o : DialOrigin addr), c.origin = some ⟨addr, o⟩ →
      (o.store.getAddrs o.peer).head? = some addr ∧
        ∀ expected, Dials addr expected → c.peerId = some expected := by
  intro w
  have hscene : ∀ {a b : Scene}, (Traceable S a.world ∧ Vouched a.world ∧ Announced a) →
      ∀ {reading : Bool}, Turns S reading a b →
        Traceable S b.world ∧ Vouched b.world ∧ Announced b := fun h _ hturns =>
    hturns.invariant (P := fun sc => Traceable S sc.world ∧ Vouched sc.world ∧ Announced sc)
      (fun _ _ h hturn => ⟨h.1.turn hturn, h.2.1.turn h.1 hturn, h.2.2.turn hturn⟩) h
  have hrun := swarm_invariant (S := S) (C := fun _ _ => True)
    (P := fun w => Traceable S w ∧ Vouched w ∧ Announced ⟨w, [], []⟩)
    (fun w w' _ h hdoes => hscene h hdoes) (fun w w' h hdoes => hscene h hdoes)
    (fun w h _ => ⟨h.1.stop, h.2.1.of_same (by rw [stop_swarm]),
      h.2.2.of_same (by rw [stop_swarm]) rfl (by rw [stop_swarm])⟩)
    (World.make peerStore localIdentity localStreamMuxers env) calls
    (make_traceable _ _ _ _) (make_settled _ _ _ _)
    (Runs.Steps.of_mem fun _ _ _ => trivial)
  obtain ⟨⟨-, hvouched, hannounced⟩, -⟩ := hrun.final
  refine ⟨?_, fun c hc addr o horigin => ⟨o.first, hvouched c hc addr o horigin⟩⟩
  have hevents : establishedEvents (w.swarm.history ++ []) = _ := hannounced
  rw [List.append_nil] at hevents
  exact hevents

end Swarm

/-- An address that names the all-zero peer. -/
def namedAddr : Multiaddr :=
  ⟨ascii "/ip4/127.0.0.1/tcp/1/p2p/12D3KooW9pNAk8aiBuGVQtWRdbkLmo5qVL3e2h5UxbN2Nz9ttwiw"⟩

theorem namedAddr_dials : Dials namedAddr ⟨Noise.zero32⟩ :=
  ⟨⟨ascii "127.0.0.1", 1, some (ascii "12D3KooW9pNAk8aiBuGVQtWRdbkLmo5qVL3e2h5UxbN2Nz9ttwiw")⟩, _,
    by decide +kernel, rfl, by decide +kernel⟩

/-- The store has that address for the peer. -/
def namedStore : PeerStore := [{ peer := ⟨Noise.zero32⟩, addrs := [namedAddr] }]

theorem dialed_peer_established_toy :
    let w := Runs.final (swarmStep Noise.Sodium.toy)
      (World.make namedStore (some Connection.toyIdentity) [] toyEnv)
      [.dialPeer ⟨Noise.zero32⟩, .pollOnce]
    ∃ c ∈ w.swarm.established, c.origin.isSome ∧ c.peerId = some ⟨Noise.zero32⟩ := by
  have hrun := dialed_peer_established (S := Noise.Sodium.toy) namedStore
    (some Connection.toyIdentity) [] toyEnv [.dialPeer ⟨Noise.zero32⟩, .pollOnce]
  have hw : (Runs.final (swarmStep Noise.Sodium.toy)
      (World.make namedStore (some Connection.toyIdentity) [] toyEnv)
      [.dialPeer ⟨Noise.zero32⟩, .pollOnce]).swarm.established.map (fun c => c.origin.map (·.1)) =
        [some namedAddr] := by
    decide +kernel
  dsimp only at hrun ⊢
  generalize Runs.final _ _ _ = w at hrun hw ⊢
  have hmem : some namedAddr ∈ w.swarm.established.map (fun c => c.origin.map (·.1)) := by
    rw [hw]
    exact List.mem_singleton_self _
  obtain ⟨c, hc, horigin⟩ := List.mem_map.mp hmem
  obtain ⟨⟨addr, o⟩, hsome, rfl⟩ := Option.map_eq_some_iff.mp horigin
  exact ⟨c, hc, by rw [hsome]; rfl, (hrun.2 c hc namedAddr o hsome).2 _ namedAddr_dials⟩

/-! ## Another peer answers -/

/-- The peer that is dialled. -/
def toyPeer : PeerId := ⟨List.Vector.replicate 32 9⟩

/-- `dial_peer` dials an address that names no peer, and a connection is established as
    another peer than the dialled one. -/
theorem dialed_another_peer :
    let w := Runs.final (swarmStep Noise.Sodium.toy)
      (World.make [{ peer := toyPeer, addrs := [toyAddr] }] (some Connection.toyIdentity) [] toyEnv)
      [.dialPeer toyPeer, .pollOnce]
    w.swarm.established.map (fun c => (c.connId, c.origin.map (·.2.peer), c.peerId)) =
        [(1, some toyPeer, some ⟨Noise.zero32⟩)] ∧
      establishedEvents w.swarm.history = [(1, some ⟨Noise.zero32⟩)] ∧
      (⟨Noise.zero32⟩ : PeerId) ≠ toyPeer := by
  decide +kernel

end PeerCore
