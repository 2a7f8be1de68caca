import PeerCore.Swarm.Settled

/-!
# The index of peers

* `Exact`: `peer_connections_` is an index of `connection_peers_`. `exact_iff`: a run of
  changes of the two tables keeps it exact if and only if no connection is forgotten
  while another has the same peer, and no connection is identified as another peer
  while the index still has it.
* `Known`: a connection whose channel is ready is in `connection_peers_`, or its
  `Secured` event waits.
* `peers_indexed_iff` is the same for the runs of a swarm; `second_connection_hidden`
  is a run in which the index loses a peer.
-/

namespace PeerCore

open Connection (BasicConnectionSession ConnectionEvent)

/-! ## The two tables -/

/-- `peer_connections_` and `connection_peers_`. -/
abbrev PeerTables := UnorderedMap Bytes ConnectionId × UnorderedMap ConnectionId Bytes

/-- `peer_connections_` has exactly the peers of `connection_peers_`, each with one of
    its connections. -/
structure Exact (tables : PeerTables) : Prop where
  indexed : ∀ key, (∃ id, tables.1.lookup key = some id) ↔ ∃ id, tables.2.lookup id = some key
  owned : ∀ key id, tables.1.lookup key = some id → tables.2.lookup id = some key

/-- The changes that keep it so. -/
def Keeps (tables : PeerTables) : PeerTableChange → Prop
  | .identify id key => ∀ key', tables.1.lookup key' = some id → key' = key
  | .forget id => ∀ key, tables.2.lookup id = some key → ∀ id', tables.2.lookup id' = some key → id' = id
  | .clear => True

/-- `PeerTableChange.apply`, with the tables first. -/
def applyChange (tables : PeerTables) (change : PeerTableChange) : PeerTables := change.apply tables

namespace Exact

variable {tables : PeerTables}

theorem empty : Exact (∅, ∅) := ⟨fun _ => by simp, fun _ _ h => by simp at h⟩

theorem identify (h : Exact tables) {id : ConnectionId} {key : Bytes}
    (hkeeps : Keeps tables (.identify id key)) : Exact (applyChange tables (.identify id key)) := by
  have hindex : ∀ k, (tables.1.insert key id).lookup k = if k = key then some id else tables.1.lookup k :=
    fun k => lookup_insert_eq _ _ _ _
  have hpeers : ∀ i, (tables.2.insert id key).lookup i = if i = id then some key else tables.2.lookup i :=
    fun i => lookup_insert_eq _ _ _ _
  constructor
  · intro k
    show (∃ i, (tables.1.insert key id).lookup k = some i) ↔ ∃ i, (tables.2.insert id key).lookup i = some k
    simp only [hindex, hpeers]
    by_cases hk : k = key
    · subst hk
      exact ⟨fun _ => ⟨id, by simp⟩, fun _ => ⟨id, by simp⟩⟩
    · simp only [hk, if_false]
      constructor
      · rintro ⟨i, hi⟩
        have hne : i ≠ id := by
          rintro rfl
          exact hk (hkeeps k hi)
        exact ⟨i, by rw [if_neg hne, h.owned k i hi]⟩
      · rintro ⟨i, hi⟩
        split_ifs at hi with hid
        · exact absurd (Option.some.inj hi).symm hk
        · exact (h.indexed k).mpr ⟨i, hi⟩
  · intro k i hi
    change (tables.1.insert key id).lookup k = some i at hi
    show (tables.2.insert id key).lookup i = some k
    rw [hindex] at hi
    rw [hpeers]
    split_ifs at hi with hk
    · obtain rfl := Option.some.inj hi
      rw [if_pos rfl, hk]
    · have hne : i ≠ id := by
        rintro rfl
        exact hk (hkeeps k hi)
      rw [if_neg hne, h.owned k i hi]

theorem forget (h : Exact tables) {id : ConnectionId} (hkeeps : Keeps tables (.forget id)) :
    Exact (applyChange tables (.forget id)) := by
  have hpeers : ∀ i, (applyChange tables (.forget id)).2.lookup i =
      if i = id then none else tables.2.lookup i := fun i => by
    show ((PeerTableChange.forget id).apply tables).2.lookup i = _
    rw [forget_connectionPeers, lookup_erase_eq]
  have hindex : ∀ k, (applyChange tables (.forget id)).1.lookup k =
      if tables.2.lookup id = some k then none else tables.1.lookup k := fun k =>
    forget_peerConnections id tables k
  constructor
  · intro k
    simp only [hindex, hpeers]
    constructor
    · rintro ⟨i, hi⟩
      split_ifs at hi with hk
      have howned := h.owned k i hi
      refine ⟨i, ?_⟩
      rw [if_neg ?_, howned]
      rintro rfl
      exact hk howned
    · rintro ⟨i, hi⟩
      split_ifs at hi with hid
      obtain ⟨j, hj⟩ := (h.indexed k).mpr ⟨i, hi⟩
      refine ⟨j, ?_⟩
      rw [if_neg ?_, hj]
      exact fun hk => hid (hkeeps k hk i hi)
  · intro k i hi
    rw [hindex] at hi
    rw [hpeers]
    split_ifs at hi with hk
    have howned := h.owned k i hi
    rw [if_neg ?_, howned]
    rintro rfl
    exact hk howned

/-- A change that does not keep the index exact. -/
theorem keeps {change : PeerTableChange}
    (hexact : Exact (applyChange tables change)) : Keeps tables change := by
  cases change with
  | identify id key =>
    intro key' hkey'
    by_contra hne
    have howned := hexact.owned key' id (by
      show (tables.1.insert key id).lookup key' = some id
      rw [lookup_insert_eq, if_neg hne, hkey'])
    rw [show (applyChange tables (.identify id key)).2.lookup id = some key from
      AList.lookup_insert _] at howned
    exact hne (Option.some.inj howned).symm
  | forget id =>
    intro key hkey id' hid'
    by_contra hne
    obtain ⟨i, hi⟩ := (hexact.indexed key).mpr ⟨id', by
      show ((PeerTableChange.forget id).apply tables).2.lookup id' = some key
      rw [forget_connectionPeers, lookup_erase_eq, if_neg hne, hid']⟩
    have hnone := forget_peerConnections id tables key
    rw [if_pos hkey] at hnone
    exact absurd (hnone.symm.trans hi) (by simp)
  | clear => trivial

theorem change (h : Exact tables) {change : PeerTableChange} (hkeeps : Keeps tables change) :
    Exact (applyChange tables change) := by
  cases change with
  | identify id key => exact h.identify hkeeps
  | forget id => exact h.forget hkeeps
  | clear => exact Exact.empty

end Exact

/-- The index is exact all along if and only if every change keeps it so. -/
theorem exact_iff (changes : List PeerTableChange) :
    Runs.Steps applyChange Keeps (∅, ∅) changes ↔ Runs.States applyChange Exact (∅, ∅) changes := by
  refine Runs.steps_iff_states (I := Exact) (E := fun _ _ => True) (fun _ h => h)
    (fun _ _ h _ hkeeps => h.change hkeeps) (fun _ _ _ _ hexact => hexact.keeps) Exact.empty
    (Runs.Steps.of_mem fun _ _ _ => trivial)

/-! ## The tables of the swarm -/

section Swarm

variable {S : Noise.Sodium} {reading : Bool}

/-- `peer_connections_` and `connection_peers_`. -/
def World.peerTables (w : World) : PeerTables := (w.swarm.peerConnections, w.swarm.connectionPeers)

/-- The tables are what their changes made them. -/
def Logged (w : World) : Prop := w.peerTables = Runs.final applyChange (∅, ∅) w.swarm.peerLog

theorem Logged.of_same {w w' : World} (h : Logged w)
    (hindex : w'.swarm.peerConnections = w.swarm.peerConnections)
    (hpeers : w'.swarm.connectionPeers = w.swarm.connectionPeers)
    (hlog : w'.swarm.peerLog = w.swarm.peerLog) : Logged w' := by
  unfold Logged World.peerTables
  rw [hindex, hpeers, hlog]
  exact h

/-- The tables are changed, and nothing else of this. -/
theorem Logged.change {w w' : World} (h : Logged w) (change : PeerTableChange)
    (htables : w'.peerTables = applyChange w.peerTables change)
    (hlog : w'.swarm.peerLog = w.swarm.peerLog ++ [change]) : Logged w' := by
  unfold Logged at h ⊢
  rw [htables, hlog, Runs.final_append, ← h]
  rfl

theorem acceptStream_logged {w : World} (h : Logged w) (id : ConnectionId) : Logged (acceptStream id w) := by
  rcases acceptStream_cases id w with hw | ⟨s, -, -, hw⟩ | ⟨s, neg, -, -, -, -, hw⟩
  · rw [hw]
    exact h
  · rw [hw]
    exact h.of_same rfl rfl rfl
  · rw [hw]
    exact h.of_same rfl rfl rfl

theorem Logged.turn {a b : Scene} (h : Logged a.world) (hturn : Turn S reading a b) : Logged b.world := by
  cases hturn with
  | quiet w' hquiet =>
    exact h.of_same (by rw [hquiet.swarm]) (by rw [hquiet.swarm]) (by rw [hquiet.swarm])
  | aside w' haside =>
    exact h.of_same (by rw [haside.swarm]) (by rw [haside.swarm]) (by rw [haside.swarm])
  | act => exact h.of_same rfl rfl rfl
  | connect =>
    exact h.of_same (by rw [connect_swarm]) (by rw [connect_swarm]) (by rw [connect_swarm])
  | outside => exact h
  | report => exact h
  | secured id s e rest peer =>
    exact (h.of_same rfl rfl rfl : Logged (a.world.take id s rest)).change
      (.identify id peer.toString) rfl rfl
  | anonymous => exact h.of_same rfl rfl rfl
  | established => exact h.of_same rfl rfl rfl
  | forward => exact h.of_same rfl rfl rfl
  | accept id => exact acceptStream_logged h id
  | pend => exact h.of_same rfl rfl rfl
  | polled => exact h
  | record => exact h.of_same rfl rfl rfl
  | dequeue => exact h.of_same rfl rfl rfl
  | log => exact h.of_same rfl rfl rfl
  | erase => exact h.of_same rfl rfl rfl
  | remove id =>
    refine h.change (.forget id) ?_ ?_
    · unfold World.peerTables
      rw [removeConnection_swarm]
      rfl
    · exact congrArg Swarm.peerLog (removeConnection_swarm id a.world)

/-! ## Connections whose peer is known -/

/-- The peer of a connection is in `connection_peers_` as soon as its `Secured` event is
    taken. -/
structure Known (w : World) : Prop where
  armed : ∀ id s, w.swarm.sessions id = some s → Connection.Armed s.core
  peers : ∀ id ∈ w.swarm.connections, ∀ s, w.swarm.sessions id = some s →
    s.secure.secureReady = true → ∀ peer, s.remotePeer = some peer →
      .secured ∈ s.voice.events ∨ w.swarm.connectionPeers.lookup id = some peer.toString

/-- How a session may change while its events stay in the queue. -/
structure Attends (s s' : BasicConnectionSession) : Prop where
  armed : Connection.Armed s.core → Connection.Armed s'.core
  known : Connection.Armed s.core → s'.secure.secureReady = true → .secured ∈ s'.voice.events ∨
    s.secure.secureReady = true ∧ s'.remotePeer = s.remotePeer ∧ .secured ∉ s.voice.events

theorem Attends.of_same {s s' : BasicConnectionSession} (hcore : s'.core = s.core)
    (hevents : .secured ∈ s.voice.events → .secured ∈ s'.voice.events) : Attends s s' where
  armed := fun h => by
    rw [hcore]
    exact h
  known := fun _ hready => by
    have hready' : s.secure.secureReady = true := by
      rw [← show s'.secure.secureReady = s.secure.secureReady from
        congrArg (fun c : Connection.Core => c.secure.secureReady) hcore]
      exact hready
    have hpeer : s'.remotePeer = s.remotePeer :=
      congrArg (fun c : Connection.Core => c.secure.noise.remotePeerId) hcore
    by_cases hs : .secured ∈ s.voice.events
    · exact .inl (hevents hs)
    · exact .inr ⟨hready', hpeer, hs⟩

theorem Attends.step (s : BasicConnectionSession) {a : Connection.Action} (ha : a ≠ .nextEvent) :
    Attends s (Connection.step S s a) where
  armed := fun h => h.step a
  known := fun harmed hready => by
    obtain ⟨queued, hevents, -, hnew⟩ := (Connection.step_grows (S := S) s ha).events
    by_cases hsame : (Connection.step S s a).secure.secureReady = s.secure.secureReady
    · have hready' : s.secure.secureReady = true := hsame ▸ hready
      by_cases hs : .secured ∈ s.voice.events
      · exact .inl (by rw [hevents]; exact List.mem_append_left _ hs)
      · exact .inr ⟨hready', Connection.step_remotePeer harmed hready' a, hs⟩
    · exact .inl (by rw [hevents]; exact List.mem_append_right _ (hnew hsame).1)

theorem Plays.attends {s s' : BasicConnectionSession} (h : Plays S s s') : Attends s s' where
  armed := fun harmed => by
    induction h with
    | refl => exact harmed
    | tail _ hstep ih =>
      obtain ⟨a, -, rfl⟩ := hstep
      exact ih.step a
  known := fun _ hready => by
    have hunheard := h.unheard
    rw [hunheard.secureReady] at hready
    rw [hunheard.events]
    by_cases hs : .secured ∈ s.voice.events
    · exact .inl hs
    · exact .inr ⟨hready, hunheard.remotePeer, hs⟩

theorem Known.of_attends {w w' : World} (h : Known w)
    (hpeers : ∀ id ∈ w'.swarm.connections,
      w'.swarm.connectionPeers.lookup id = w.swarm.connectionPeers.lookup id)
    (hsessions : ∀ id s', w'.swarm.sessions id = some s' →
      (Connection.Armed s'.core ∧
        (id ∈ w'.swarm.connections → s'.secure.secureReady = true → .secured ∈ s'.voice.events)) ∨
      ∃ s, w.swarm.sessions id = some s ∧ Attends s s' ∧
        (id ∈ w'.swarm.connections → id ∈ w.swarm.connections)) : Known w' where
  armed := fun id s' hs' => by
    rcases hsessions id s' hs' with ⟨harmed, -⟩ | ⟨s, hs, hattends, -⟩
    · exact harmed
    · exact hattends.armed (h.armed id s hs)
  peers := fun id hid s' hs' hready peer hpeer => by
    rcases hsessions id s' hs' with ⟨-, hnew⟩ | ⟨s, hs, hattends, hold⟩
    · exact .inl (hnew hid hready)
    · rcases hattends.known (h.armed id s hs) hready with hsecured | ⟨hready', hsame, hsecured⟩
      · exact .inl hsecured
      · rw [hpeers id hid]
        rw [hsame] at hpeer
        exact .inr ((h.peers id (hold hid) s hs hready' peer hpeer).resolve_left hsecured)

theorem Known.of_same {w w' : World} (h : Known w)
    (hconnections : w'.swarm.connections = w.swarm.connections)
    (hsessions : w'.swarm.sessions = w.swarm.sessions)
    (hpeers : w'.swarm.connectionPeers = w.swarm.connectionPeers) : Known w' := by
  refine ⟨?_, ?_⟩
  · rw [hsessions]
    exact h.armed
  · rw [hconnections, hsessions, hpeers]
    exact h.peers

theorem Known.setSession {w : World} (h : Known w) {id : ConnectionId} {s s' : BasicConnectionSession}
    (hs : w.swarm.sessions id = some s) (hattends : Attends s s') : Known (w.setSession id s') := by
  refine h.of_attends (fun _ _ => rfl) fun id' t ht => .inr ?_
  by_cases hid : id' = id
  · subst hid
    rw [World.setSession_self] at ht
    obtain rfl := Option.some.inj ht
    exact ⟨s, hs, hattends, fun h => h⟩
  · rw [World.setSession_of_ne _ _ hid] at ht
    exact ⟨t, ht, Attends.of_same rfl fun h => h, fun h => h⟩

/-- Taking an event other than `Secured`. -/
theorem Attends.take {s : BasicConnectionSession} {e : ConnectionEvent} {rest : List ConnectionEvent}
    (hqueue : s.eventQueue = e :: rest) (htype : e.type ≠ .secured) :
    Attends s { s with eventQueue := rest } := by
  refine Attends.of_same rfl fun h => ?_
  have hmem : .secured ∈ s.eventQueue.map (·.type) := h
  rw [hqueue] at hmem
  exact (List.mem_cons.mp hmem).resolve_left (Ne.symm htype)

theorem acceptStream_known {w : World} (h : Known w) (id : ConnectionId) : Known (acceptStream id w) := by
  have hattends : ∀ s : BasicConnectionSession, Attends s (Connection.acceptInboundStream s).2 := fun s =>
    Attends.of_same (Connection.acceptInboundStream_core s)
      (by rw [Connection.acceptInboundStream_voice]; exact fun h => h)
  rcases acceptStream_cases id w with hw | ⟨s, -, hs, hw⟩ | ⟨s, neg, -, hs, -, -, hw⟩
  · rw [hw]
    exact h
  · rw [hw]
    exact h.setSession hs (hattends s)
  · rw [hw]
    exact (h.setSession hs (hattends s)).of_same rfl rfl rfl

theorem Forwards.ne_secured {type : Connection.EventType} {type' : SwarmEventType}
    (h : Forwards type type') : type ≠ .secured ∧ type ≠ .multiplexerReady := by
  cases h <;> exact ⟨by simp, by simp⟩

/-- What a forwarded event is not. -/
theorem Forwards.kind {type : Connection.EventType} {type' : SwarmEventType}
    (h : Forwards type type') : type' ≠ .peerIdentified ∧ type' ≠ .connectionEstablished ∧
      (type' = .connectionClosed → type = .closed) := by
  cases h <;> simp

theorem Known.turn {a b : Scene} (h : Known a.world) (hturn : Turn S reading a b) : Known b.world := by
  cases hturn with
  | quiet w' hquiet =>
    refine h.of_attends (fun id _ => by rw [hquiet.swarm]) fun id s' hs' => .inr ?_
    have hrel := hquiet.sessions id
    rw [hs'] at hrel
    generalize hs : a.world.swarm.sessions id = o at hrel
    cases hrel with
    | some hplays => exact ⟨_, rfl, hplays.attends, fun hid => by rwa [hquiet.connections] at hid⟩
  | aside w' haside =>
    exact h.of_same (by rw [haside.swarm]) (by rw [haside.swarm]) (by rw [haside.swarm])
  | act id s action hs ha => exact h.setSession hs (Attends.step s ha)
  | connect socket isInitiator =>
    refine h.of_attends (fun id _ => by rw [connect_swarm]) fun id s' hs' => ?_
    rw [connect_sessions] at hs'
    by_cases hnew : id = a.world.swarm.nextConnId
    · subst hnew
      rw [Function.update_self] at hs'
      obtain rfl := Option.some.inj hs'
      exact .inl ⟨Connection.make_armed _ _ _ _ _ _ _, fun _ hready => by cases hready⟩
    · rw [Function.update_of_ne hnew] at hs'
      exact .inr ⟨s', hs', Attends.of_same rfl fun h => h,
        fun hid => (mem_connect.mp hid).resolve_left hnew⟩
  | outside => exact h
  | report => exact h
  | secured id s e rest peer notes hdue hid hs hqueue htype hpeer =>
    refine ⟨fun id' t ht => ?_, fun id' hid' t ht hready peer' hpeer' => ?_⟩
    · by_cases heq : id' = id
      · subst heq
        rw [show t = { s with eventQueue := rest } from
          (Option.some.inj (ht.symm.trans (World.take_sessions a.world id' s rest)))]
        exact h.armed id' s hs
      · exact h.armed id' t ((a.world.setSession_of_ne _ heq).symm.trans ht)
    · by_cases heq : id' = id
      · subst heq
        obtain rfl : t = { s with eventQueue := rest } :=
          Option.some.inj (ht.symm.trans (World.take_sessions a.world id' s rest))
        obtain rfl : peer' = peer := Option.some.inj (hpeer'.symm.trans hpeer)
        exact .inr (AList.lookup_insert _)
      · have ht' : a.world.swarm.sessions id' = some t :=
          (a.world.setSession_of_ne _ heq).symm.trans ht
        refine (h.peers id' hid' t ht' hready peer' hpeer').imp_right fun hlookup => ?_
        exact (AList.lookup_insert_ne heq).trans hlookup
  | anonymous id s e rest hid hs hqueue htype hpeer =>
    refine ⟨fun id' t ht => ?_, fun id' hid' t ht hready peer' hpeer' => ?_⟩
    · by_cases heq : id' = id
      · subst heq
        rw [show t = { s with eventQueue := rest } from
          (Option.some.inj (ht.symm.trans (World.take_sessions a.world id' s rest)))]
        exact h.armed id' s hs
      · exact h.armed id' t ((a.world.setSession_of_ne _ heq).symm.trans ht)
    · by_cases heq : id' = id
      · subst heq
        obtain rfl : t = { s with eventQueue := rest } :=
          Option.some.inj (ht.symm.trans (World.take_sessions a.world id' s rest))
        exact absurd (hpeer'.symm.trans hpeer) (by simp)
      · exact h.peers id' hid' t ((a.world.setSession_of_ne _ heq).symm.trans ht) hready peer' hpeer'
  | established id s e rest hdue hid hs hqueue htype =>
    exact (h.setSession hs (Attends.take hqueue (by rw [htype]; simp))).of_same rfl rfl rfl
  | forward id s e rest type hdue hid hs hqueue htype =>
    exact h.setSession hs (Attends.take hqueue htype.ne_secured.1)
  | accept id => exact acceptStream_known h id
  | pend => exact h.of_same rfl rfl rfl
  | polled => exact h
  | record => exact h.of_same rfl rfl rfl
  | dequeue => exact h.of_same rfl rfl rfl
  | log => exact h.of_same rfl rfl rfl
  | erase => exact h.of_same rfl rfl rfl
  | remove id =>
    refine h.of_attends (fun id' hid' => ?_) fun id' s' hs' => ?_
    · rw [show (removeConnection id a.world).swarm.connectionPeers = _ from
        (congrArg Swarm.connectionPeers (removeConnection_swarm id a.world)).trans
          (forget_connectionPeers id _), lookup_erase_eq, if_neg (mem_removeConnection.mp hid').2]
    · rw [removeConnection_sessions] at hs'
      by_cases heq : id' = id
      · subst heq
        rw [Function.update_self, Option.map_eq_some_iff] at hs'
        obtain ⟨s, hs, rfl⟩ := hs'
        exact .inr ⟨s, hs, Attends.step (S := S) s (a := .close) (by simp),
          fun hid' => (mem_removeConnection.mp hid').1⟩
      · rw [Function.update_of_ne heq] at hs'
        exact .inr ⟨s', hs', Attends.of_same rfl fun h => h, fun hid' => (mem_removeConnection.mp hid').1⟩

/-! ## Runs -/

theorem stop_logged {w : World} (h : Logged w) : Logged (stop w) := by
  refine h.change .clear ?_ ?_
  · unfold World.peerTables
    rw [stop_swarm]
    rfl
  · rw [stop_swarm]

variable (S) in
include S in
theorem stop_known {w : World} (h : Known w) : Known (stop w) where
  armed := fun _ _ hs => stop_sessions (P := fun _ s => Connection.Armed s.core)
    (fun _ _ harmed => Connection.Armed.step (S := S) harmed .close) h.armed hs
  peers := fun id hid => by
    rw [stop_swarm] at hid
    cases hid

theorem make_known (peerStore : PeerStore) (localIdentity : Option Identity)
    (localStreamMuxers : List ProtocolId) (env : ℕ → Answers) :
    Known (World.make peerStore localIdentity localStreamMuxers env) where
  armed := fun _ _ hs => by cases hs
  peers := fun _ hid => by cases hid

/-- A connection to `peer` whose channel is ready. -/
def SecuredTo (w : World) (id : ConnectionId) (peer : PeerId) : Prop :=
  id ∈ w.swarm.connections ∧ ∃ s, w.swarm.sessions id = some s ∧ s.secure.secureReady = true ∧
    s.remotePeer = some peer

variable (S) in
/-- `open_stream` to `peer` goes to one of its connections. -/
def Reaches (w : World) (peer : PeerId) : Prop :=
  ∃ id, w.swarm.connectionPeers.lookup id = some peer.toString ∧
    ∀ proto, openStreamTo S peer proto w = openStream S id proto w

/-- With an exact index every connection whose channel is ready is found. -/
theorem Known.reaches {w : World} (h : Known w) (hsettled : Settled w) (hexact : Exact w.peerTables)
    {id : ConnectionId} {peer : PeerId} (hsecured : SecuredTo w id peer) : Reaches S w peer := by
  obtain ⟨hid, s, hs, hready, hpeer⟩ := hsecured
  have hlookup := (h.peers id hid s hs hready peer hpeer).resolve_left (hsettled id hid s hs).1
  obtain ⟨id', hid'⟩ := (hexact.indexed peer.toString).mpr ⟨id, hlookup⟩
  refine ⟨id', hexact.owned _ _ hid', fun proto => ?_⟩
  have hindex : w.swarm.peerConnections.lookup peer.toString = some id' := hid'
  unfold openStreamTo
  rw [Op.get_bind, hindex]

/-- In the runs of a swarm whose changes of the peer tables all keep the index exact, and
    in no others, the index is exact at every moment and finds the connections. -/
theorem peers_indexed_iff (peerStore : PeerStore) (localIdentity : Option Identity)
    (localStreamMuxers : List ProtocolId) (env : ℕ → Answers) (calls : List SwarmCall) :
    let w := Runs.final (swarmStep S) (World.make peerStore localIdentity localStreamMuxers env) calls
    w.peerTables = Runs.final applyChange (∅, ∅) w.swarm.peerLog ∧
      (Runs.Steps applyChange Keeps (∅, ∅) w.swarm.peerLog ↔
        Runs.States applyChange Exact (∅, ∅) w.swarm.peerLog ∧
          ∀ id peer, SecuredTo w id peer → Reaches S w peer) := by
  intro w
  have hrun := swarm_invariant (S := S) (P := fun w => Logged w ∧ Known w) (C := fun _ _ => True)
    (fun w w' _ h hdoes => hdoes.invariant (P := fun sc => Logged sc.world ∧ Known sc.world)
      (fun _ _ h hturn => ⟨h.1.turn hturn, h.2.turn hturn⟩) h)
    (fun w w' h hdoes => hdoes.invariant (P := fun sc => Logged sc.world ∧ Known sc.world)
      (fun _ _ h hturn => ⟨h.1.turn hturn, h.2.turn hturn⟩) h)
    (fun w h _ => ⟨stop_logged h.1, stop_known S h.2⟩)
    (World.make peerStore localIdentity localStreamMuxers env) calls
    ⟨rfl, make_known _ _ _ _⟩ (make_settled _ _ _ _)
    (Runs.Steps.of_mem fun _ _ _ => trivial)
  obtain ⟨⟨hlogged, hknown⟩, hsettled⟩ := hrun.final
  refine ⟨hlogged, fun hkeeps => ?_, fun h => (exact_iff _).mpr h.1⟩
  have hstates := (exact_iff _).mp hkeeps
  refine ⟨hstates, fun id peer => hknown.reaches hsettled ?_⟩
  have hexact := hstates.final
  rw [← hlogged] at hexact
  exact hexact

end Swarm

/-! ## Two connections to one peer -/

/-- What a peer with the toy primitives sends until the channel is ready. -/
def toyReply : Bytes :=
  (Connection.toyUpgrade (Connection.toyOutbound ⟨[]⟩ []) (Connection.toyInbound [])).2.io.wireTx

/-- Every dial connects, to the same peer; the controller closes the second connection. -/
def toyEnv (clock : ℕ) : Answers where
  socket := .ok (if clock < 4 then 5 else 6)
  connect := .connected
  random := fun _ => ⟨List.Vector.replicate 32 1, List.Vector.replicate 32 2⟩
  ready := [{ fd := 5, input := true }, { fd := 6, input := true }]
  recv := [.data toyReply]
  actions := [.closeConnection (some 2)]

/-- A swarm with the toy identity. -/
def toyWorld : World := World.make [] (some Connection.toyIdentity) [] toyEnv

/-- The address it dials. -/
def toyAddr : Multiaddr := ⟨ascii "/ip4/127.0.0.1/tcp/1"⟩

/-- Two dials and a poll. -/
def toyCalls : List SwarmCall := [.dialAddr toyAddr, .dialAddr toyAddr, .pollOnce]

/-- The second connection to a peer is closed: the first is still there, and
    `open_stream` does not find it. -/
theorem second_connection_hidden :
    let w := Runs.final (swarmStep Noise.Sodium.toy) toyWorld toyCalls
    ¬ Exact w.peerTables ∧ SecuredTo w 1 ⟨Noise.zero32⟩ ∧
      ∀ proto, (openStreamTo Noise.Sodium.toy ⟨Noise.zero32⟩ proto w).1 =
        .error "no active connection for peer" := by
  intro w
  have hw : w.swarm.peerConnections.lookup (PeerId.toString ⟨Noise.zero32⟩) = none ∧
      w.swarm.connectionPeers.lookup 1 = some (PeerId.toString ⟨Noise.zero32⟩) ∧
      1 ∈ w.swarm.connections ∧
      (w.swarm.sessions 1).map (fun s => (s.secure.secureReady, s.remotePeer)) =
        some (true, some ⟨Noise.zero32⟩) := by
    decide +kernel
  obtain ⟨hindex, hpeers, hid, hsession⟩ := hw
  clear_value w
  refine ⟨fun hexact => ?_, ⟨hid, ?_⟩, fun proto => ?_⟩
  · obtain ⟨id, hid⟩ := (hexact.indexed _).mpr ⟨1, hpeers⟩
    exact absurd (hindex.symm.trans hid) (by simp)
  · obtain ⟨s, hs, heq⟩ := Option.map_eq_some_iff.mp hsession
    rw [Prod.mk.injEq] at heq
    exact ⟨s, hs, heq⟩
  · unfold openStreamTo
    rw [Op.get_bind, hindex]
    rfl

end PeerCore
