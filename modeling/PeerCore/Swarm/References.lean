import PeerCore.Swarm.Stories

/-!
# What the tables refer to

* `Referenced w`: every connection that a table of the swarm names is a connection.
* `Sound told sc` is what every turn keeps (`Sound.turn`): the numbers, the sessions
  with their stories, and the tables.
* `references_iff`: the runs of a swarm in which the tables name only connections are
  those that call `stop` only while no stream is under negotiation.
  `stop_leaves_pending` is a run in which `stop` leaves one behind.
* `events_in_order`: the story of every connection is in order when `stop` is not called.
-/

namespace PeerCore

open Connection (BasicConnectionSession ConnectionEvent EventType Lived NextEvent)

/-- `stream_key` keeps the low half of the connection id. -/
theorem streamKey_toNat (id : ConnectionId) (stream : StreamId) :
    (streamKey id stream).toNat = id.toNat % 2 ^ 32 * 2 ^ 32 + stream.toNat := by
  have hstream : stream.toNat < 2 ^ 32 := stream.toNat_lt
  have hshift : id.toNat <<< 32 % 2 ^ 64 = (id.toNat % 2 ^ 32) <<< 32 := by
    rw [Nat.shiftLeft_eq, Nat.shiftLeft_eq, show (2 : ℕ) ^ 64 = 2 ^ 32 * 2 ^ 32 from rfl,
      Nat.mul_mod_mul_right]
  show (id <<< 32 ||| stream.toUInt64).toNat = _
  rw [UInt64.toNat_or, UInt64.toNat_shiftLeft, UInt32.toNat_toUInt64]
  show id.toNat <<< 32 % 2 ^ 64 ||| stream.toNat = _
  rw [hshift, ← Nat.shiftLeft_add_eq_or_of_lt hstream, Nat.shiftLeft_eq]

/-- The connection of a key of `pending_streams_`. -/
theorem streamKey_shift {id : ConnectionId} (hid : id.toNat < 2 ^ 32) (stream : StreamId) :
    streamKey id stream >>> 32 = id := by
  apply UInt64.toNat_inj.mp
  have hstream : stream.toNat < 2 ^ 32 := stream.toNat_lt
  rw [UInt64.toNat_shiftRight, streamKey_toNat]
  show (id.toNat % 2 ^ 32 * 2 ^ 32 + stream.toNat) >>> 32 = id.toNat
  rw [Nat.shiftRight_eq_div_pow]
  omega

/-- The tables of the swarm name only connections. -/
structure Referenced (w : World) : Prop where
  connFds : ∀ id ∈ w.swarm.connFds.keys, id ∈ w.swarm.connections
  fdToConn : ∀ fd id, w.swarm.fdToConn.lookup fd = some id → id ∈ w.swarm.connections
  connectionPeers : ∀ id ∈ w.swarm.connectionPeers.keys, id ∈ w.swarm.connections
  peerConnections : ∀ key id, w.swarm.peerConnections.lookup key = some id → id ∈ w.swarm.connections
  pendingStreams : ∀ key ∈ w.swarm.pendingStreams.keys, key >>> 32 ∈ w.swarm.connections

/-- A stream under negotiation belongs to a connection whose channel is ready. -/
structure Pending (w : World) (key : UInt64) (n : ℕ) : Prop where
  made : n < w.swarm.negotiationCount
  key : key >>> 32 = (w.swarm.negotiations n).connId
  connection : (w.swarm.negotiations n).connId ∈ w.swarm.connections
  ready : ∃ s, w.swarm.sessions (w.swarm.negotiations n).connId = some s ∧ s.secure.secureReady = true

/-- What the tables hold, when the sessions told `told`. -/
structure Referring (told : ConnectionId → List EventType) (w : World) : Prop where
  pending : ∀ key n, w.swarm.pendingStreams.lookup key = some n → Pending w key n
  fds : ∀ id fd, w.swarm.connFds.lookup id = some fd → id ∈ w.swarm.connections
  fdConn : ∀ fd id, w.swarm.fdToConn.lookup fd = some id → w.swarm.connFds.lookup id = some fd
  peers : ∀ id key, w.swarm.connectionPeers.lookup id = some key →
    id ∈ w.swarm.connections ∧ .secured ∈ told id
  index : ∀ key id, w.swarm.peerConnections.lookup key = some id →
    w.swarm.connectionPeers.lookup id = some key

theorem Referring.referenced {told : ConnectionId → List EventType} {w : World} (h : Referring told w) :
    Referenced w where
  connFds := fun id hid => by
    obtain ⟨fd, hfd⟩ := (mem_keys_iff_lookup _ id).mp hid
    exact h.fds id fd hfd
  fdToConn := fun fd id hid => h.fds id fd (h.fdConn fd id hid)
  connectionPeers := fun id hid => by
    obtain ⟨key, hkey⟩ := (mem_keys_iff_lookup _ id).mp hid
    exact (h.peers id key hkey).1
  peerConnections := fun key id hid => (h.peers id key (h.index key id hid)).1
  pendingStreams := fun key hkey => by
    obtain ⟨n, hn⟩ := (mem_keys_iff_lookup _ key).mp hkey
    have hpending := h.pending key n hn
    rw [hpending.key]
    exact hpending.connection

/-- No table but `pending_streams_` changes, and that one does not grow. -/
structure Retains (w w' : World) : Prop where
  pending : ∀ key n, w'.swarm.pendingStreams.lookup key = some n →
    w.swarm.pendingStreams.lookup key = some n
  count : w.swarm.negotiationCount ≤ w'.swarm.negotiationCount
  connId : ∀ n < w.swarm.negotiationCount,
    (w'.swarm.negotiations n).connId = (w.swarm.negotiations n).connId
  connections : w'.swarm.connections = w.swarm.connections
  ready : ∀ id s, w.swarm.sessions id = some s → s.secure.secureReady = true →
    ∃ s', w'.swarm.sessions id = some s' ∧ s'.secure.secureReady = true
  connFds : w'.swarm.connFds = w.swarm.connFds
  fdToConn : w'.swarm.fdToConn = w.swarm.fdToConn
  connectionPeers : w'.swarm.connectionPeers = w.swarm.connectionPeers
  peerConnections : w'.swarm.peerConnections = w.swarm.peerConnections

section Turns

variable {S : Noise.Sodium} {reading : Bool} {w w' w'' : World}

namespace Retains

theorem trans (h : Retains w w') (h' : Retains w' w'') : Retains w w'' where
  pending := fun key n hn => h.pending key n (h'.pending key n hn)
  count := h.count.trans h'.count
  connId := fun n hn => (h'.connId n (lt_of_lt_of_le hn h.count)).trans (h.connId n hn)
  connections := h'.connections.trans h.connections
  ready := fun id s hs hready => by
    obtain ⟨s', hs', hready'⟩ := h.ready id s hs hready
    exact h'.ready id s' hs' hready'
  connFds := h'.connFds.trans h.connFds
  fdToConn := h'.fdToConn.trans h.fdToConn
  connectionPeers := h'.connectionPeers.trans h.connectionPeers
  peerConnections := h'.peerConnections.trans h.peerConnections

/-- Only the events of the swarm change. -/
theorem events (queue history : List SwarmEvent) (w : World) :
    Retains w { w with swarm := { w.swarm with eventQueue := queue, history := history } } :=
  ⟨fun _ _ h => h, le_rfl, fun _ _ => rfl, rfl, fun _ s hs hready => ⟨s, hs, hready⟩, rfl, rfl, rfl, rfl⟩

theorem log (n : ℕ) (report : StreamReport) (w : World) : Retains w (logStream n report w) :=
  ⟨fun _ _ h => h, le_rfl, fun _ _ => rfl, rfl, fun _ s hs hready => ⟨s, hs, hready⟩, rfl, rfl, rfl, rfl⟩

/-- One session changes. -/
theorem setSession {id : ConnectionId} {s s' : BasicConnectionSession} (hs : w.swarm.sessions id = some s)
    (hready : s.secure.secureReady = true → s'.secure.secureReady = true) :
    Retains w (w.setSession id s') where
  pending := fun _ _ h => h
  count := le_rfl
  connId := fun _ _ => rfl
  connections := rfl
  ready := fun id' t ht htready => by
    by_cases hid : id' = id
    · subst hid
      obtain rfl := Option.some.inj (hs.symm.trans ht)
      exact ⟨s', World.setSession_self _ _ _, hready htready⟩
    · exact ⟨t, (World.setSession_of_ne _ _ hid).trans ht, htready⟩
  connFds := rfl
  fdToConn := rfl
  connectionPeers := rfl
  peerConnections := rfl

theorem quiet (h : Quiet S w w') : Retains w w' where
  pending := fun _ _ hn => by
    rw [h.swarm] at hn
    exact hn
  count := by rw [h.swarm]
  connId := fun n _ => h.connId n
  connections := h.connections
  ready := fun id s hs hready => by
    have hrel := h.sessions id
    rw [hs] at hrel
    generalize hs' : w'.swarm.sessions id = o at hrel
    cases hrel with
    | some hplays => exact ⟨_, rfl, hplays.unheard.secureReady.trans hready⟩
  connFds := by rw [h.swarm]
  fdToConn := by rw [h.swarm]
  connectionPeers := by rw [h.swarm]
  peerConnections := by rw [h.swarm]

theorem established (id : ConnectionId) (w : World) : Retains w (recordEstablished id w) :=
  ⟨fun _ _ h => h, le_rfl, fun _ _ => rfl, rfl, fun _ s hs hready => ⟨s, hs, hready⟩, rfl, rfl, rfl, rfl⟩

theorem aside (h : Aside w w') : Retains w w' where
  pending := fun _ _ hn => by
    rw [h.swarm] at hn
    exact hn
  count := by rw [h.swarm]
  connId := fun n _ => by rw [h.swarm]
  connections := by rw [h.swarm]
  ready := fun id s hs hready => ⟨s, by rw [h.swarm]; exact hs, hready⟩
  connFds := by rw [h.swarm]
  fdToConn := by rw [h.swarm]
  connectionPeers := by rw [h.swarm]
  peerConnections := by rw [h.swarm]

theorem newNegotiation (neg : ProtocolNegotiatingStream) (w : World) :
    Retains w (newNegotiation neg w).2 where
  pending := fun _ _ h => h
  count := Nat.le_succ _
  connId := fun n hn => by
    show (Function.update w.swarm.negotiations w.swarm.negotiationCount neg n).connId = _
    rw [Function.update_of_ne (by omega)]
  connections := rfl
  ready := fun _ s hs hready => ⟨s, hs, hready⟩
  connFds := rfl
  fdToConn := rfl
  connectionPeers := rfl
  peerConnections := rfl

theorem erase (keys : List UInt64) (w : World) : Retains w (erasePending keys w) where
  pending := fun key n hn => by
    rw [erasePending_lookup] at hn
    split_ifs at hn
    exact hn
  count := le_rfl
  connId := fun _ _ => rfl
  connections := rfl
  ready := fun _ s hs hready => ⟨s, hs, hready⟩
  connFds := rfl
  fdToConn := rfl
  connectionPeers := rfl
  peerConnections := rfl

end Retains

namespace Referring

variable {told told' : ConnectionId → List EventType}

theorem retain (h : Referring told w) (hretains : Retains w w')
    (htold : ∀ id, .secured ∈ told id → .secured ∈ told' id) : Referring told' w' where
  pending := fun key n hn => by
    have hold := h.pending key n (hretains.pending key n hn)
    have hconn := hretains.connId n hold.made
    obtain ⟨s, hs, hready⟩ := hold.ready
    refine ⟨lt_of_lt_of_le hold.made hretains.count, hold.key.trans hconn.symm, ?_, ?_⟩
    · rw [hconn, hretains.connections]
      exact hold.connection
    · rw [hconn]
      exact hretains.ready _ s hs hready
  fds := fun id fd hfd => by
    rw [hretains.connFds] at hfd
    rw [hretains.connections]
    exact h.fds id fd hfd
  fdConn := fun fd id hid => by
    rw [hretains.fdToConn] at hid
    rw [hretains.connFds]
    exact h.fdConn fd id hid
  peers := fun id key hkey => by
    rw [hretains.connectionPeers] at hkey
    rw [hretains.connections]
    exact ⟨(h.peers id key hkey).1, htold id (h.peers id key hkey).2⟩
  index := fun key id hid => by
    rw [hretains.peerConnections] at hid
    rw [hretains.connectionPeers]
    exact h.index key id hid

/-- A new stream is under negotiation. -/
theorem pend (h : Referring told w) (hsmall : ∀ id ∈ w.swarm.connections, id.toNat < 2 ^ 32)
    {neg : ProtocolNegotiatingStream} (hconnection : neg.connId ∈ w.swarm.connections)
    (hready : ∃ s, w.swarm.sessions neg.connId = some s ∧ s.secure.secureReady = true) :
    Referring told (addPending neg.connId (newNegotiation neg w).1 (newNegotiation neg w).2) := by
  have hnew : Referring told _ := h.retain (Retains.newNegotiation neg w) fun _ h => h
  refine ⟨fun key n hn => ?_, hnew.fds, hnew.fdConn, hnew.peers, hnew.index⟩
  have hneg : ((newNegotiation neg w).2.swarm.negotiations w.swarm.negotiationCount) = neg :=
    Function.update_self _ _ _
  change ((newNegotiation neg w).2.swarm.pendingStreams.insert
    (streamKey neg.connId (Negotiation.idOf (newNegotiation neg w).2 (newNegotiation neg w).1))
    (newNegotiation neg w).1).lookup key = some n at hn
  rw [lookup_insert_eq] at hn
  split_ifs at hn with hkey
  · obtain rfl := Option.some.inj hn
    refine ⟨Nat.lt_succ_self _, ?_, ?_, ?_⟩
    · rw [hkey, streamKey_shift (hsmall _ hconnection)]
      exact (congrArg ProtocolNegotiatingStream.connId hneg).symm
    · show ((newNegotiation neg w).2.swarm.negotiations w.swarm.negotiationCount).connId ∈ _
      rw [hneg]
      exact hconnection
    · show ∃ s, w.swarm.sessions
        ((newNegotiation neg w).2.swarm.negotiations w.swarm.negotiationCount).connId = some s ∧ _
      rw [hneg]
      exact hready
  · have hold := hnew.pending key n hn
    exact ⟨hold.made, hold.key, hold.connection, hold.ready⟩

theorem connect (h : Referring told w) (hnumbered : Numbered w) (socket : TcpSocket) (isInitiator : Bool)
    (origin : Option (DialOrigin socket.remoteAddr)) :
    Referring told (w.connect socket isInitiator origin) := by
  have hold : ∀ id ∈ w.swarm.connections, id ∈ (w.connect socket isInitiator origin).swarm.connections :=
    fun id hid => mem_connect.mpr (.inr hid)
  constructor
  · intro key n hn
    rw [connect_swarm] at hn
    have hpending := h.pending key n hn
    have hnegotiation : (w.connect socket isInitiator origin).swarm.negotiations = w.swarm.negotiations := by
      rw [connect_swarm]
    refine ⟨by rw [connect_swarm]; exact hpending.made, ?_, ?_, ?_⟩
    · rw [hnegotiation]
      exact hpending.key
    · rw [hnegotiation]
      exact hold _ hpending.connection
    · rw [hnegotiation, connect_sessions, Function.update_of_ne (hnumbered.next_ne hpending.connection)]
      exact hpending.ready
  · intro id fd hfd
    rw [connect_swarm] at hfd
    dsimp only at hfd
    rw [lookup_insert_eq] at hfd
    split_ifs at hfd with hid
    · exact mem_connect.mpr (.inl hid)
    · exact hold id (h.fds id fd hfd)
  · intro fd id hid
    rw [connect_swarm] at hid ⊢
    dsimp only at hid ⊢
    rw [lookup_insert_eq] at hid ⊢
    split_ifs at hid with hfd
    · obtain rfl := Option.some.inj hid
      rw [if_pos rfl, hfd]
    · have hfds := h.fdConn fd id hid
      rw [if_neg (hnumbered.next_ne (h.fds id fd hfds))]
      exact hfds
  · intro id key hkey
    rw [connect_swarm] at hkey
    exact ⟨hold id (h.peers id key hkey).1, (h.peers id key hkey).2⟩
  · intro key id hid
    rw [connect_swarm] at hid ⊢
    exact h.index key id hid

/-- The peer of a connection is identified, for the first time. -/
theorem identify (h : Referring told w) {id : ConnectionId} (hid : id ∈ w.swarm.connections)
    (hfirst : .secured ∉ told id) (key : Bytes) :
    Referring (Function.update told id (told id ++ [.secured])) (changePeers (.identify id key) w) := by
  have htold : ∀ id', .secured ∈ told id' →
      .secured ∈ Function.update told id (told id ++ [.secured]) id' := fun id' hmem => by
    by_cases heq : id' = id
    · subst heq
      rw [Function.update_self]
      simp
    · rw [Function.update_of_ne heq]
      exact hmem
  constructor
  · intro key' n hn
    have hpending := h.pending key' n hn
    exact ⟨hpending.made, hpending.key, hpending.connection, hpending.ready⟩
  · exact h.fds
  · exact h.fdConn
  · intro id' key' hkey'
    change (w.swarm.connectionPeers.insert id key).lookup id' = some key' at hkey'
    rw [lookup_insert_eq] at hkey'
    split_ifs at hkey' with heq
    · subst heq
      refine ⟨hid, ?_⟩
      rw [Function.update_self]
      simp
    · exact ⟨(h.peers id' key' hkey').1, htold id' (h.peers id' key' hkey').2⟩
  · intro key' id' hid'
    change (w.swarm.peerConnections.insert key id).lookup key' = some id' at hid'
    show (w.swarm.connectionPeers.insert id key).lookup id' = some key'
    rw [lookup_insert_eq] at hid' ⊢
    split_ifs at hid' with hkey
    · obtain rfl := Option.some.inj hid'
      rw [if_pos rfl, hkey]
    · have hpeer := h.index key' id' hid'
      have hne : id' ≠ id := by
        rintro rfl
        exact hfirst (h.peers id' key' hpeer).2
      rw [if_neg hne]
      exact hpeer

theorem remove (h : Referring told w) (id : ConnectionId) : Referring told (removeConnection id w) := by
  have hstays : ∀ id' ∈ w.swarm.connections, id' ≠ id →
      id' ∈ (removeConnection id w).swarm.connections := fun id' hid' hne =>
    mem_removeConnection.mpr ⟨hid', hne⟩
  have hpeers : (removeConnection id w).swarm.connectionPeers = w.swarm.connectionPeers.erase id :=
    (congrArg Swarm.connectionPeers (removeConnection_swarm id w)).trans (forget_connectionPeers id _)
  constructor
  · intro key n hn
    obtain ⟨hne, hlookup⟩ := (removeConnection_pending id w).mp hn
    have hpending := h.pending key n hlookup
    have hnegotiations : (removeConnection id w).swarm.negotiations = w.swarm.negotiations := by
      rw [removeConnection_swarm]
    have hconn : (w.swarm.negotiations n).connId ≠ id := hpending.key ▸ hne
    refine ⟨by rw [removeConnection_swarm]; exact hpending.made, ?_, ?_, ?_⟩
    · rw [hnegotiations]
      exact hpending.key
    · rw [hnegotiations]
      exact hstays _ hpending.connection hconn
    · rw [hnegotiations, removeConnection_sessions, Function.update_of_ne hconn]
      exact hpending.ready
  · intro id' fd hfd
    rw [removeConnection_swarm] at hfd
    dsimp only at hfd
    rw [lookup_erase_eq] at hfd
    split_ifs at hfd with hid
    exact hstays id' (h.fds id' fd hfd) hid
  · intro fd id' hid'
    rw [removeConnection_swarm] at hid' ⊢
    dsimp only at hid' ⊢
    rw [fdsWithout_lookup] at hid'
    split_ifs at hid' with hfd
    have hfds := h.fdConn fd id' hid'
    have hne : id' ≠ id := by
      rintro rfl
      exact hfd hfds
    rw [lookup_erase_eq, if_neg hne]
    exact hfds
  · intro id' key hkey
    rw [hpeers, lookup_erase_eq] at hkey
    split_ifs at hkey with hid
    exact ⟨hstays id' (h.peers id' key hkey).1 hid, (h.peers id' key hkey).2⟩
  · intro key id' hid'
    rw [removeConnection_swarm] at hid'
    dsimp only at hid'
    rw [forget_peerConnections] at hid'
    split_ifs at hid' with hkey
    have hpeer := h.index key id' hid'
    have hne : id' ≠ id := by
      rintro rfl
      exact hkey hpeer
    rw [hpeers, lookup_erase_eq, if_neg hne]
    exact hpeer

end Referring

/-! ## Turns -/

/-- What the swarm keeps, when the sessions told `told`. -/
structure Sound (told : ConnectionId → List EventType) (sc : Scene) : Prop where
  numbered : Numbered sc.world
  witnessed : Witnessed told sc
  referring : Referring told sc.world

namespace Sound

variable {told : ConnectionId → List EventType} {sc : Scene}

/-- A connection that is not about to be removed has not told its end. -/
theorem live (h : Sound told sc) (hclosing : sc.closing = []) {id : ConnectionId}
    (hid : id ∈ sc.world.swarm.connections) : .closed ∉ told id := fun hmem => by
  have hin := h.witnessed.live id hid hmem
  rw [hclosing] at hin
  cases hin

/-- There is no connection with the id 0. -/
theorem nobody (h : Sound told sc) : told 0 = [] := by
  refine h.witnessed.untold 0 ?_
  cases hs : sc.world.swarm.sessions 0 with
  | none => rfl
  | some s => exact absurd (h.numbered.ids 0 s hs).1 (lt_irrefl 0)

/-- A stream is under negotiation only when its connection was established. -/
theorem pending_established (h : Sound told sc) (hsettled : Settled sc.world) {key : UInt64} {n : ℕ}
    (hkey : sc.world.swarm.pendingStreams.lookup key = some n) :
    .multiplexerReady ∈ told (sc.world.swarm.negotiations n).connId := by
  have hpending := h.referring.pending key n hkey
  obtain ⟨s, hs, hready⟩ := hpending.ready
  refine (List.mem_append.mp ((h.witnessed.lived _ s hs).upgraded hready)).resolve_right ?_
  exact (hsettled _ hpending.connection s hs).2

theorem told_secured {e : ConnectionEvent} {id : ConnectionId} (id' : ConnectionId)
    (hmem : .secured ∈ told id') : .secured ∈ Function.update told id (told id ++ [e.type]) id' := by
  by_cases heq : id' = id
  · subst heq
    rw [Function.update_self]
    exact List.mem_append_left _ hmem
  · rw [Function.update_of_ne heq]
    exact hmem

theorem removeConnection_endure (id : ConnectionId) (w : World) :
    SessionsEndure w (removeConnection id w) := fun id' => by
  rw [removeConnection_sessions]
  by_cases heq : id' = id
  · subst heq
    rw [Function.update_self]
    cases w.swarm.sessions id' with
    | none => exact .none
    | some s => exact .some (Endures.step (S := Noise.Sodium.toy) s (a := .close) (by simp))
  · rw [Function.update_of_ne heq]
    exact SessionsEndure.rel_refl _

theorem acceptStream_frame (id : ConnectionId) (w : World) :
    (acceptStream id w).swarm.connections = w.swarm.connections ∧
      (acceptStream id w).swarm.history = w.swarm.history := by
  rcases acceptStream_cases id w with hw | ⟨s, -, -, hw⟩ | ⟨s, neg, -, -, -, -, hw⟩
  · rw [hw]
    exact ⟨rfl, rfl⟩
  · rw [hw]
    exact ⟨rfl, rfl⟩
  · rw [hw]
    exact ⟨rfl, rfl⟩

theorem acceptInboundStream_ready {s : BasicConnectionSession} (hready : s.secure.secureReady = true) :
    (Connection.acceptInboundStream s).2.secure.secureReady = true :=
  (Connection.step_grows (S := Noise.Sodium.toy) s (a := .acceptStream) (by simp)).ready hready

/-! One lemma for each kind of turn. -/

theorem quiet (h : Sound told sc) {w : World} (hquiet : Quiet S sc.world w) (hnumbered : Numbered w) :
    Sound told { sc with world := w } where
  numbered := hnumbered
  witnessed := h.witnessed.endure (SessionsEndure.quiet hquiet)
    (Scene.story_of_same sc { sc with world := w } (by rw [hquiet.swarm]) rfl) fun _ hid =>
      ⟨hquiet.connections ▸ hid, fun h => h⟩
  referring := h.referring.retain (Retains.quiet hquiet) fun _ h => h

theorem aside (h : Sound told sc) {w : World} (haside : Aside sc.world w) (hnumbered : Numbered w) :
    Sound told { sc with world := w } where
  numbered := hnumbered
  witnessed := h.witnessed.of_same (by rw [haside.swarm]) (by rw [haside.swarm]) rfl
    (by rw [haside.swarm]) rfl
  referring := h.referring.retain (Retains.aside haside) fun _ h => h

theorem act (h : Sound told sc) {id : ConnectionId} {s : BasicConnectionSession} {a : Connection.Action}
    (hs : sc.world.swarm.sessions id = some s) (ha : a ≠ .nextEvent)
    (hnumbered : Numbered (sc.world.setSession id (Connection.step S s a))) :
    Sound told { sc with world := sc.world.setSession id (Connection.step S s a) } where
  numbered := hnumbered
  witnessed := h.witnessed.endure (SessionsEndure.update hs (Endures.step s ha) rfl) (fun _ => rfl)
    fun _ hid => ⟨hid, fun h => h⟩
  referring := h.referring.retain
    (Retains.setSession hs (Connection.step_grows (S := S) s ha).ready) fun _ h => h

theorem connect (h : Sound told sc) (socket : TcpSocket) (isInitiator : Bool)
    (origin : Option (DialOrigin socket.remoteAddr))
    (hnumbered : Numbered (sc.world.connect socket isInitiator origin)) :
    Sound told { sc with world := sc.world.connect socket isInitiator origin } where
  numbered := hnumbered
  witnessed := h.witnessed.connect h.numbered socket isInitiator origin
  referring := h.referring.connect h.numbered socket isInitiator origin

/-- An event that no session told. -/
theorem due (h : Sound told sc) (hdue : sc.due = []) {event : SwarmEvent}
    (hlive : .closed ∉ told event.connectionId)
    (htype : event.type ≠ .peerIdentified ∧ event.type ≠ .connectionEstablished ∧
      event.type ≠ .connectionClosed)
    (hstream : event.streamId ≠ none → .multiplexerReady ∈ told event.connectionId) :
    Sound told { sc with due := [event] } :=
  ⟨h.numbered, h.witnessed.due hdue hlive htype hstream, h.referring⟩

theorem outside (h : Sound told sc) (hdue : sc.due = []) {event : SwarmEvent}
    (htype : event.type = .listenerStarted ∨ event.type = .dialFailed)
    (hid : event.connectionId = 0) (hstream : event.streamId = none) :
    Sound told { sc with due := [event] } := by
  refine h.due hdue ?_ ?_ fun hne => absurd hstream hne
  · rw [hid, h.nobody]
    simp
  · rcases htype with htype | htype <;> rw [htype] <;> simp

theorem report (h : Sound told sc) (hdue : sc.due = []) (hclosing : sc.closing = []) {event : SwarmEvent}
    (hid : event.connectionId ∈ sc.world.swarm.connections)
    (htype : event.type = .incomingConnection ∨ event.type = .protocolError)
    (hstream : event.streamId = none) : Sound told { sc with due := [event] } := by
  refine h.due hdue (h.live hclosing hid) ?_ fun hne => absurd hstream hne
  rcases htype with htype | htype <;> rw [htype] <;> simp

/-- What becomes of a stream under negotiation is told of a connection that was established. -/
theorem polled (h : Sound told sc) (hsettled : Settled sc.world) (hdue : sc.due = [])
    (hclosing : sc.closing = []) {key : UInt64} {n : ℕ} {event : SwarmEvent}
    (hkey : sc.world.swarm.pendingStreams.lookup key = some n)
    (hid : event.connectionId = (sc.world.swarm.negotiations n).connId)
    (htype : event.type = .protocolError ∨ event.type = .protocolNegotiated) :
    Sound told { sc with due := [event] } := by
  have hconnection := (h.referring.pending key n hkey).connection
  refine h.due hdue ?_ ?_ fun _ => ?_
  · rw [hid]
    exact h.live hclosing hconnection
  · rcases htype with htype | htype <;> rw [htype] <;> simp
  · rw [hid]
    exact h.pending_established hsettled hkey

section Events

variable {id : ConnectionId} {s : BasicConnectionSession} {e : ConnectionEvent}
  {rest : List ConnectionEvent}

theorem take_retains (hs : sc.world.swarm.sessions id = some s) :
    Retains sc.world (sc.world.take id s rest) := Retains.setSession hs fun h => h

/-- The event that waits may follow what the session told. -/
theorem next (h : Sound told sc) (hs : sc.world.swarm.sessions id = some s)
    (hqueue : s.eventQueue = e :: rest) : NextEvent (told id) e rest :=
  ((h.witnessed.lived id s hs).take hqueue).2

/-- The story of a connection whose peer is identified, and of the notes that follow. -/
theorem secured_tale (h : Sound told sc) (hs : sc.world.swarm.sessions id = some s)
    (hqueue : s.eventQueue = e :: rest) (htype : e.type = .secured) {event : SwarmEvent}
    (hevent : event.type = .peerIdentified) (hstream : event.streamId = none) {notes : List SwarmEvent}
    (hnotes : ∀ note ∈ notes, note.type = .protocolNegotiated ∧ note.connectionId = id ∧
      note.streamId = none) :
    Tale (told id ++ [e.type]) (sc.story id ++ event :: notes) := by
  have hnext := h.next hs hqueue
  rw [List.append_cons (sc.story id)]
  have hsaid : Tale (told id ++ [e.type]) (sc.story id ++ [event]) := by
    refine Tale.say (h.witnessed.tale id) ?_ (fun _ => htype) ?_ ?_
    · exact (h.witnessed.tale id).mayFollow hnext (fun _ => htype) (by simp [hevent])
        fun hne => absurd hstream hne
    · simp [hevent, htype]
    · simp [hevent]
  refine hsaid.notes ?_ fun note hmem => ⟨(hnotes note hmem).1, (hnotes note hmem).2.2⟩
  intro hmem
  rcases List.mem_append.mp hmem with hmem | hmem
  · exact hnext.live hmem
  · simp [htype] at hmem

theorem secured (h : Sound told sc) (hdue : sc.due = []) (hid : id ∈ sc.world.swarm.connections)
    (hs : sc.world.swarm.sessions id = some s) (hqueue : s.eventQueue = e :: rest)
    (htype : e.type = .secured) {peer : PeerId} {notes : List SwarmEvent}
    (hnotes : ∀ note ∈ notes, note.type = .protocolNegotiated ∧ note.connectionId = id ∧
      note.streamId = none)
    (hnumbered : Numbered (changePeers (.identify id peer.toString) (sc.world.take id s rest))) :
    Sound (Function.update told id (told id ++ [e.type])) { sc with
      world := changePeers (.identify id peer.toString) (sc.world.take id s rest)
      due := { type := .peerIdentified, connectionId := id, peerId := some peer, detail := e.detail } ::
        notes } where
  numbered := hnumbered
  witnessed := by
    refine h.witnessed.takeDue hs hqueue rfl rfl rfl (by simp [htype]) hdue ?_
      (h.secured_tale hs hqueue htype rfl rfl hnotes)
    intro event hmem
    rcases List.mem_cons.mp hmem with rfl | hmem
    · rfl
    · exact (hnotes event hmem).2.1
  referring := by
    have hfirst := ((h.next hs hqueue).secured htype).1
    rw [htype]
    exact (h.referring.retain (take_retains hs) fun _ h => h).identify hid hfirst _

theorem anonymous (h : Sound told sc) (hs : sc.world.swarm.sessions id = some s)
    (hqueue : s.eventQueue = e :: rest) (htype : e.type = .secured)
    (hnumbered : Numbered (sc.world.take id s rest)) :
    Sound (Function.update told id (told id ++ [e.type])) { sc with world := sc.world.take id s rest }
    where
  numbered := hnumbered
  witnessed := h.witnessed.take hs hqueue rfl rfl (by simp [htype])
    ((h.witnessed.tale id).silent (by simp [htype])) fun _ _ => rfl
  referring := h.referring.retain (take_retains hs) told_secured

theorem established (h : Sound told sc) (hdue : sc.due = []) (hs : sc.world.swarm.sessions id = some s)
    (hqueue : s.eventQueue = e :: rest) (htype : e.type = .multiplexerReady)
    (hnumbered : Numbered (recordEstablished id (sc.world.take id s rest))) :
    Sound (Function.update told id (told id ++ [e.type])) { sc with
      world := recordEstablished id (sc.world.take id s rest)
      due := [{ type := .connectionEstablished, connectionId := id, peerId := s.remotePeer
                detail := e.detail }] } where
  numbered := hnumbered
  witnessed := by
    refine h.witnessed.takeDue hs hqueue rfl rfl rfl (by simp [htype]) hdue (by simp) ?_
    refine (h.witnessed.tale id).say ?_ (by simp) (by simp [htype]) (by simp)
    exact (h.witnessed.tale id).mayFollow (h.next hs hqueue) (by simp) (fun _ => htype) (by simp)
  referring := h.referring.retain ((take_retains hs).trans (Retains.established id _)) told_secured

/-- An event that names a stream follows `MultiplexerReady`. -/
theorem forwarded_stream {told : List EventType} (hnext : NextEvent told e rest) {type : SwarmEventType}
    (htype : Forwards e.type type) : e.streamId ≠ none → .multiplexerReady ∈ told := by
  intro hne
  cases hetype : e.type with
  | streamOpened => exact hnext.stream (by simp [EventType.IsStream, hetype])
  | streamAccepted => exact hnext.stream (by simp [EventType.IsStream, hetype])
  | streamClosed => exact hnext.stream (by simp [EventType.IsStream, hetype])
  | error => exact hnext.named (.inl hetype) hne
  | closed => exact hnext.named (.inr hetype) hne
  | secured => exact absurd hetype htype.ne_secured.1
  | multiplexerReady => exact absurd hetype htype.ne_secured.2

theorem forward (h : Sound told sc) {type : SwarmEventType} (hdue : sc.due = [])
    (hs : sc.world.swarm.sessions id = some s) (hqueue : s.eventQueue = e :: rest)
    (htype : Forwards e.type type) (hnumbered : Numbered (sc.world.take id s rest)) :
    Sound (Function.update told id (told id ++ [e.type]))
      { world := sc.world.take id s rest
        closing := sc.closing ++ if e.type = .closed then [id] else []
        due := [{ type, connectionId := id, streamId := e.streamId, detail := e.detail }] } where
  numbered := hnumbered
  witnessed := by
    have hnext := h.next hs hqueue
    have hkind := htype.kind
    refine h.witnessed.takeDue hs hqueue rfl rfl rfl rfl hdue (by simp) ?_
    refine (h.witnessed.tale id).say ?_ (fun h => absurd h hkind.1) ?_ hkind.2.2
    · exact (h.witnessed.tale id).mayFollow hnext (fun h => absurd h hkind.1)
        (fun h => absurd h hkind.2.1) (forwarded_stream hnext htype)
    · exact ⟨fun h => absurd h hkind.2.1, fun h => absurd h htype.ne_secured.2⟩
  referring := h.referring.retain (take_retains hs) told_secured

end Events

theorem accept_referring (h : Sound told sc) (hsmall : sc.world.swarm.made < 2 ^ 32)
    (id : ConnectionId) : Referring told (acceptStream id sc.world) := by
  rcases acceptStream_cases id sc.world with hw | ⟨s, -, hs, hw⟩ | ⟨s, neg, hid, hs, hpending, rfl, hw⟩
  · rw [hw]
    exact h.referring
  · rw [hw]
    exact h.referring.retain (Retains.setSession hs acceptInboundStream_ready) fun _ h => h
  -- the session had a stream to accept, and so a channel
  · rw [hw]
    have hready : s.secure.secureReady = true := by
      by_contra hnot
      rw [Bool.not_eq_true] at hnot
      exact hpending ((h.witnessed.lived _ s hs).plain hnot).2.1
    have haccepted : Referring told _ :=
      h.referring.retain (Retains.setSession hs acceptInboundStream_ready) fun _ h => h
    exact haccepted.pend (fun id hid => (h.numbered.connection_id hsmall hid).2) hid
      ⟨_, World.setSession_self _ _ _, acceptInboundStream_ready hready⟩

theorem accept (h : Sound told sc) (hsmall : sc.world.swarm.made < 2 ^ 32) (id : ConnectionId)
    (hnumbered : Numbered (acceptStream id sc.world)) :
    Sound told { sc with world := acceptStream id sc.world } where
  numbered := hnumbered
  witnessed := by
    have hframe := acceptStream_frame id sc.world
    exact h.witnessed.endure (SessionsEndure.accept id sc.world)
      (Scene.story_of_same sc { sc with world := acceptStream id sc.world } hframe.2 rfl) fun _ hid =>
        ⟨hframe.1 ▸ hid, fun h => h⟩
  referring := h.accept_referring hsmall id

theorem pend (h : Sound told sc) (hsmall : sc.world.swarm.made < 2 ^ 32) {s : BasicConnectionSession}
    {neg : ProtocolNegotiatingStream} (hid : neg.connId ∈ sc.world.swarm.connections)
    (hs : sc.world.swarm.sessions neg.connId = some s) (hready : s.state = .ready)
    (hnumbered : Numbered
      (addPending neg.connId (newNegotiation neg sc.world).1 (newNegotiation neg sc.world).2)) :
    Sound told { sc with
      world := addPending neg.connId (newNegotiation neg sc.world).1 (newNegotiation neg sc.world).2 }
    where
  numbered := hnumbered
  witnessed := h.witnessed.of_same rfl rfl rfl rfl rfl
  referring := h.referring.pend (fun _ hid => (h.numbered.connection_id hsmall hid).2) hid
    ⟨s, hs, (h.witnessed.lived _ s hs).secureReady hready⟩

theorem record (h : Sound told sc) {event : SwarmEvent} {rest : List SwarmEvent}
    (hdue : sc.due = event :: rest) (hnumbered : Numbered (sc.world.record event)) :
    Sound told { sc with world := sc.world.record event, due := rest } where
  numbered := hnumbered
  witnessed := by
    refine h.witnessed.endure (SessionsEndure.of_same rfl) (fun id => ?_) fun _ hid => ⟨hid, fun h => h⟩
    unfold Scene.story
    rw [hdue, List.append_cons]
    rfl
  referring := h.referring.retain (Retains.events _ _ _) fun _ h => h

/-- Neither the sessions nor what was told of them change. -/
theorem of_same (h : Sound told sc) {w : World} (hretains : Retains sc.world w)
    (hsessions : w.swarm.sessions = sc.world.swarm.sessions)
    (hhistory : w.swarm.history = sc.world.swarm.history) (hnumbered : Numbered w) :
    Sound told { sc with world := w } where
  numbered := hnumbered
  witnessed := h.witnessed.of_same hsessions hhistory rfl hretains.connections rfl
  referring := h.referring.retain hretains fun _ h => h

theorem remove (h : Sound told sc) {id : ConnectionId} {rest : List ConnectionId}
    (hclosing : sc.closing = id :: rest) (hnumbered : Numbered (removeConnection id sc.world)) :
    Sound told { sc with world := removeConnection id sc.world, closing := rest } where
  numbered := hnumbered
  witnessed := by
    refine h.witnessed.endure (removeConnection_endure id sc.world) ?_ ?_
    · exact Scene.story_of_same sc ⟨removeConnection id sc.world, rest, sc.due⟩
        (by rw [removeConnection_swarm]) rfl
    · intro id' hid'
      obtain ⟨hmem, hne⟩ := mem_removeConnection.mp hid'
      refine ⟨hmem, fun hin => ?_⟩
      rw [hclosing] at hin
      exact (List.mem_cons.mp hin).resolve_left hne
  referring := h.referring.remove id

/-- What the swarm keeps is kept by every turn. While no socket is read, no connection has
    a `MultiplexerReady` event waiting. -/
theorem turn {a b : Scene} (h : Sound told a) (hturn : Turn S reading a b)
    (hsettled : reading = false → Settled a.world) (hsmall : b.world.swarm.made < 2 ^ 32) :
    ∃ told', Sound told' b := by
  have hnumbered := h.numbered.turn hturn hsmall
  have hold : a.world.swarm.made < 2 ^ 32 := lt_of_le_of_lt hturn.made_le hsmall
  cases hturn with
  | quiet w' hquiet => exact ⟨told, h.quiet hquiet hnumbered⟩
  | aside w' haside => exact ⟨told, h.aside haside hnumbered⟩
  | act id s action hs ha => exact ⟨told, h.act hs ha hnumbered⟩
  | connect socket isInitiator origin => exact ⟨told, h.connect socket isInitiator origin hnumbered⟩
  | outside event hdue htype hid hstream => exact ⟨told, h.outside hdue htype hid hstream⟩
  | report event hdue hclosing hid htype hstream =>
    exact ⟨told, h.report hdue hclosing hid htype hstream⟩
  | secured id s e rest peer notes hdue hid hs hqueue htype hpeer hnotes =>
    exact ⟨_, h.secured hdue hid hs hqueue htype hnotes hnumbered⟩
  | anonymous id s e rest hid hs hqueue htype hpeer =>
    exact ⟨_, h.anonymous hs hqueue htype hnumbered⟩
  | established id s e rest hdue hid hs hqueue htype =>
    exact ⟨_, h.established hdue hs hqueue htype hnumbered⟩
  | forward id s e rest type hdue hid hs hqueue htype =>
    exact ⟨_, h.forward hdue hs hqueue htype hnumbered⟩
  | accept id => exact ⟨told, h.accept hold id hnumbered⟩
  | pend id s neg hid hs hready hneg =>
    subst hneg
    exact ⟨told, h.pend hold hid hs hready hnumbered⟩
  | polled key n event hreading hdue hclosing hkey hid htype =>
    exact ⟨told, h.polled (hsettled hreading) hdue hclosing hkey hid htype⟩
  | record event rest hdue => exact ⟨told, h.record hdue hnumbered⟩
  | dequeue => exact ⟨told, h.of_same (Retains.events _ _ _) rfl rfl hnumbered⟩
  | log n report => exact ⟨told, h.of_same (Retains.log n report a.world) rfl rfl hnumbered⟩
  | erase keys => exact ⟨told, h.of_same (Retains.erase keys a.world) rfl rfl hnumbered⟩
  | remove id rest hclosing => exact ⟨told, h.remove hclosing hnumbered⟩

/-- Sockets are read, or no `MultiplexerReady` event waits. -/
theorem turns {a b : Scene} (h : ∃ told, Sound told a) (hturns : Turns S reading a b)
    (hsettled : reading = false → Settled a.world) (hsmall : b.world.swarm.made < 2 ^ 32) :
    ∃ told, Sound told b := by
  induction hturns with
  | refl => exact h
  | tail hturns hturn ih =>
    obtain ⟨told, hsound⟩ := ih (lt_of_le_of_lt hturn.made_le hsmall)
    refine hsound.turn hturn (fun hreading => ?_) hsmall
    subst hreading
    exact (hsettled rfl).turns hturns

end Sound

/-! ## `stop` -/

/-- Closing sessions tells nothing. -/
theorem closeAll_endure (ids : List ConnectionId) (w : World) :
    SessionsEndure w (ids.foldl (fun w id => w.modifySession id Connection.close) w) := by
  induction ids generalizing w with
  | nil => exact SessionsEndure.of_same rfl
  | cons id ids ih =>
    rw [List.foldl_cons]
    refine SessionsEndure.trans ?_ (ih _)
    unfold World.modifySession
    cases hs : w.swarm.sessions id with
    | none => exact SessionsEndure.of_same rfl
    | some s =>
      exact SessionsEndure.update hs
        (Endures.step (S := Noise.Sodium.toy) s (a := .close) (by simp)) rfl

theorem stop_endure (w : World) : SessionsEndure w (stop w) := by
  have hclosed : ∀ w' : World, w'.swarm.sessions = w.swarm.sessions → SessionsEndure w
      (w.swarm.connections.foldl (fun w id => w.modifySession id Connection.close) w') := fun w' hsame =>
    (SessionsEndure.of_same hsame).trans (closeAll_endure w.swarm.connections w')
  intro id
  unfold stop
  refine hclosed _ ?_ id
  rfl

theorem stop_numbers (w : World) : SameNumbers w (stop w) := by
  refine ⟨by rw [stop_swarm], by rw [stop_swarm], fun id => ?_, fun id hid => ?_⟩
  · exact ((stop_endure w).isSome id).symm
  · rw [stop_swarm] at hid
    cases hid

/-- When no stream is under negotiation, `stop` leaves nothing in the tables. -/
theorem Sound.stop {told : ConnectionId → List EventType} (h : Sound told ⟨w, [], []⟩)
    (hpending : w.swarm.pendingStreams.keys = []) : Sound told ⟨stop w, [], []⟩ where
  numbered := h.numbered.of_same (stop_numbers w)
  witnessed := by
    refine h.witnessed.endure (stop_endure w) ?_ fun id hid => ?_
    · exact Scene.story_of_same ⟨w, [], []⟩ ⟨PeerCore.stop w, [], []⟩ (by rw [stop_swarm]) rfl
    · rw [stop_swarm] at hid
      cases hid
  referring := by
    constructor
    · intro key n hn
      rw [stop_swarm] at hn
      have hkey : key ∈ w.swarm.pendingStreams.keys := (mem_keys_iff_lookup _ key).mpr ⟨n, hn⟩
      rw [hpending] at hkey
      cases hkey
    · intro id fd hfd
      rw [stop_swarm] at hfd
      cases hfd
    · intro fd id hid
      rw [stop_swarm] at hid
      cases hid
    · intro id key hkey
      rw [stop_swarm] at hkey
      cases hkey
    · intro key id hid
      rw [stop_swarm] at hid
      cases hid

/-! ## Runs -/

theorem make_sound (peerStore : PeerStore) (localIdentity : Option Identity)
    (localStreamMuxers : List ProtocolId) (env : ℕ → Answers) :
    Sound (fun _ => []) ⟨World.make peerStore localIdentity localStreamMuxers env, [], []⟩ where
  numbered := ⟨rfl, (fun _ _ hs => by cases hs), (fun _ hid => by cases hid)⟩
  witnessed := ⟨(fun _ _ hs => by cases hs), fun _ _ => rfl, fun _ => Tale.nil, (fun _ hid => by cases hid)⟩
  referring := ⟨(fun _ _ hn => by cases hn), (fun _ _ hfd => by cases hfd), (fun _ _ hid => by cases hid),
    (fun _ _ hkey => by cases hkey), (fun _ _ hid => by cases hid)⟩

/-- Sound while fewer than `2 ^ 32` connections were made. -/
def Kept (w : World) : Prop := w.swarm.made < 2 ^ 32 → ∃ told, Sound told ⟨w, [], []⟩

theorem Kept.does (h : Kept w) (hdoes : Does S reading w w') (hsettled : reading = false → Settled w) :
    Kept w' := fun hsmall => by
  have hmade : w.swarm.made ≤ w'.swarm.made :=
    hdoes.invariant (P := fun sc => w.swarm.made ≤ sc.world.swarm.made)
      (fun _ _ hle hturn => hle.trans hturn.made_le) le_rfl
  exact Sound.turns (h (lt_of_le_of_lt hmade hsmall)) hdoes hsettled hsmall

theorem swarmStep_kept (h : Kept w) (hsettled : Settled w) (call : SwarmCall)
    (hstop : call = .stop → w.swarm.pendingStreams.keys = []) :
    Kept (swarmStep S w call) ∧ Settled (swarmStep S w call) := by
  refine swarm_step (fun _ _ hset hw hdoes => hw.does hdoes fun _ => hset)
    (fun _ _ hw hdoes => hw.does hdoes (by simp)) w call (fun heq hsmall => ?_) h hsettled
  rw [stop_swarm] at hsmall
  obtain ⟨told, hsound⟩ := h hsmall
  exact ⟨told, hsound.stop (hstop heq)⟩

/-- A swarm whose connections so far are sound. -/
def Upright (w : World) : Prop := (∃ told, Sound told ⟨w, [], []⟩) ∧ Settled w

theorem swarmStep_upright (h : Upright w) (call : SwarmCall)
    (hsmall : (swarmStep S w call).swarm.made < 2 ^ 32)
    (hstop : call = .stop → w.swarm.pendingStreams.keys = []) : Upright (swarmStep S w call) := by
  have hkept := swarmStep_kept (S := S) (fun _ => h.1) h.2 call hstop
  exact ⟨hkept.1 hsmall, hkept.2⟩

/-- No call makes the number of connections smaller. -/
theorem swarmStep_made (w : World) (call : SwarmCall) :
    w.swarm.made ≤ (swarmStep S w call).swarm.made := by
  by_cases hstop : call = .stop
  · subst hstop
    show w.swarm.made ≤ (stop w).swarm.made
    rw [stop_swarm]
  have hdoes : ∀ {reading : Bool} {w w' : World}, Does S reading w w' → w.swarm.made ≤ w'.swarm.made :=
    fun {_ w _} hdoes => hdoes.invariant (P := fun sc => w.swarm.made ≤ sc.world.swarm.made)
      (fun _ _ hle hturn => hle.trans hturn.made_le) le_rfl
  by_cases hpoll : call = .pollOnce
  · subst hpoll
    obtain ⟨w₁, hread, hrest⟩ := pollOnce_does (S := S) w
    have hdrain : Does S true w₁ (drainConnectionEvents S w₁) := drainConnectionEvents_turns w₁
    exact (hdoes hread).trans ((hdoes hdrain).trans (hdoes hrest))
  · exact hdoes (swarmStep_does (S := S) w hstop hpoll)

/-- The number of connections is small all along when it is small in the end. -/
theorem steps_small {calls : List SwarmCall}
    (hsmall : (Runs.final (swarmStep S) w calls).swarm.made < 2 ^ 32) :
    Runs.Steps (swarmStep S) (fun w call => (swarmStep S w call).swarm.made < 2 ^ 32) w calls :=
  (Runs.Steps.of_final (P := fun w : World => w.swarm.made < 2 ^ 32)
    (fun w call h => lt_of_le_of_lt (swarmStep_made w call) h) hsmall).2

/-- In a run that makes fewer than `2 ^ 32` connections the tables name only connections at
    every moment, if and only if `stop` is called only while no stream is under negotiation. -/
theorem references_iff (peerStore : PeerStore) (localIdentity : Option Identity)
    (localStreamMuxers : List ProtocolId) (env : ℕ → Answers) (calls : List SwarmCall)
    (hsmall : (Runs.final (swarmStep S) (World.make peerStore localIdentity localStreamMuxers env)
      calls).swarm.made < 2 ^ 32) :
    Runs.Steps (swarmStep S) (fun w call => call = .stop → w.swarm.pendingStreams.keys = [])
        (World.make peerStore localIdentity localStreamMuxers env) calls ↔
      Runs.States (swarmStep S) Referenced
        (World.make peerStore localIdentity localStreamMuxers env) calls := by
  refine Runs.steps_iff_states (I := Upright)
    (E := fun w call => (swarmStep S w call).swarm.made < 2 ^ 32) ?_ ?_ ?_
    ⟨⟨_, make_sound _ _ _ _⟩, make_settled _ _ _ _⟩ (steps_small hsmall)
  · rintro w ⟨⟨told, hsound⟩, -⟩
    exact hsound.referring.referenced
  · exact fun w call h hmade hstop => swarmStep_upright h call hmade hstop
  · rintro w call h hmade hreferenced rfl
    -- after `stop` there are no connections
    rw [List.eq_nil_iff_forall_not_mem]
    intro key hkey
    have hreferenced : Referenced (stop w) := hreferenced
    have hconnection := hreferenced.pendingStreams key (by rw [stop_swarm]; exact hkey)
    rw [stop_swarm] at hconnection
    cases hconnection

/-- The events in the queue are the last ones of all. -/
theorem Turn.queued {a b : Scene} (hturn : Turn S reading a b)
    (h : a.world.swarm.eventQueue <:+ a.world.swarm.history) :
    b.world.swarm.eventQueue <:+ b.world.swarm.history := by
  cases hturn with
  | quiet w' hquiet =>
    rw [hquiet.swarm]
    exact h
  | aside w' haside =>
    rw [haside.swarm]
    exact h
  | connect socket isInitiator origin =>
    rw [connect_swarm]
    exact h
  | record event =>
    obtain ⟨earlier, hearlier⟩ := h
    refine ⟨earlier, ?_⟩
    show earlier ++ (a.world.swarm.eventQueue ++ [event]) = a.world.swarm.history ++ [event]
    rw [← List.append_assoc, hearlier]
  | dequeue => exact (List.tail_suffix _).trans h
  | accept id =>
    rcases acceptStream_cases id a.world with hw | ⟨s, -, -, hw⟩ | ⟨s, neg, -, -, -, -, hw⟩
    · rw [hw]
      exact h
    · rw [hw]
      exact h
    · rw [hw]
      exact h
  | remove id =>
    rw [removeConnection_swarm]
    exact h
  | act | outside | report | secured | anonymous | established | forward | pend | polled | log | erase => exact h

/-- In a run without `stop` that makes fewer than `2 ^ 32` connections, the events of every
    connection are queued in order. -/
theorem events_in_order (peerStore : PeerStore) (localIdentity : Option Identity)
    (localStreamMuxers : List ProtocolId) (env : ℕ → Answers) (calls : List SwarmCall)
    (hstop : .stop ∉ calls)
    (hsmall : (Runs.final (swarmStep S) (World.make peerStore localIdentity localStreamMuxers env)
      calls).swarm.made < 2 ^ 32) :
    let w := Runs.final (swarmStep S) (World.make peerStore localIdentity localStreamMuxers env) calls
    w.swarm.eventQueue <:+ w.swarm.history ∧ ∀ id, InOrder (w.story id) := by
  intro w
  have hnever : Runs.Steps (swarmStep S) (fun _ call => call ≠ .stop)
      (World.make peerStore localIdentity localStreamMuxers env) calls :=
    Runs.Steps.of_mem fun call hcall _ heq => hstop (heq ▸ hcall)
  have hqueued : Runs.States (swarmStep S)
      (fun w => w.swarm.eventQueue <:+ w.swarm.history ∧ Settled w) _ calls :=
    swarm_invariant
      (fun _ _ _ h hdoes => hdoes.invariant
        (P := fun sc => sc.world.swarm.eventQueue <:+ sc.world.swarm.history)
        (fun _ _ h hturn => hturn.queued h) h)
      (fun _ _ h hdoes => hdoes.invariant
        (P := fun sc => sc.world.swarm.eventQueue <:+ sc.world.swarm.history)
        (fun _ _ h hturn => hturn.queued h) h)
      (fun _ _ hne => absurd rfl hne) _ calls List.suffix_rfl (make_settled _ _ _ _) hnever
  have hupright := (hnever.and (steps_small hsmall)).invariant (I := Upright)
    (fun w call h hcall => swarmStep_upright h call hcall.2 fun heq => absurd heq hcall.1)
    ⟨⟨_, make_sound _ _ _ _⟩, make_settled _ _ _ _⟩
  obtain ⟨⟨told, hsound⟩, -⟩ := hupright.final
  refine ⟨hqueued.final.1, fun id => ?_⟩
  have horder := (hsound.witnessed.tale id).order
  unfold Scene.story at horder
  rw [List.append_nil] at horder
  exact horder

end Turns

/-! ## Two runs -/

theorem toyCalls_small : (Runs.final (swarmStep Noise.Sodium.toy) toyWorld toyCalls).swarm.made < 2 ^ 32 := by
  decide +kernel

theorem references_iff_toy : Runs.States (swarmStep Noise.Sodium.toy) Referenced toyWorld toyCalls := by
  have hsmall := toyCalls_small
  unfold toyWorld at hsmall ⊢
  refine (references_iff [] (some Connection.toyIdentity) [] toyEnv toyCalls hsmall).mp ?_
  refine Runs.Steps.of_mem fun call hcall _ heq => ?_
  subst heq
  simp [toyCalls] at hcall

theorem events_in_order_toy :
    let w := Runs.final (swarmStep Noise.Sodium.toy) toyWorld toyCalls
    w.swarm.eventQueue <:+ w.swarm.history ∧ ∀ id, InOrder (w.story id) := by
  have hsmall := toyCalls_small
  unfold toyWorld at hsmall ⊢
  exact events_in_order [] (some Connection.toyIdentity) [] toyEnv toyCalls (by simp [toyCalls]) hsmall

/-- A stream is opened on a connection, and its negotiation is under way when the swarm is
    stopped: its key stays in `pending_streams_`. -/
theorem stop_leaves_pending :
    let w := Runs.final (swarmStep Noise.Sodium.toy) toyWorld
      [.dialAddr toyAddr, .pollOnce, .openStream 1 (ascii "/echo/1.0.0"), .stop]
    w.swarm.made < 2 ^ 32 ∧ ¬ Referenced w := by
  intro w
  have hw : w.swarm.made = 1 ∧ w.swarm.pendingStreams.keys.map (fun key : UInt64 => key >>> 32) = [1] ∧
      w.swarm.connections = [] := by
    decide +kernel
  obtain ⟨hmade, hpending, hconnections⟩ := hw
  clear_value w
  refine ⟨by rw [hmade]; norm_num, fun hreferenced => ?_⟩
  obtain ⟨key, hkey, -⟩ := List.mem_map.mp (hpending ▸ List.mem_singleton_self (1 : ConnectionId))
  have hconnection := hreferenced.pendingStreams key hkey
  rw [hconnections] at hconnection
  cases hconnection

end PeerCore
