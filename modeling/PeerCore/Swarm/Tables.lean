import PeerCore.Swarm.Turns

/-!
# The tables of the swarm

What the operations on the tables of the swarm leave in them, as equations between
lookups, and what `register_connection` and `remove_connection` change at all.
-/

namespace PeerCore

open Connection (BasicConnectionSession)

section Lookup

variable {K V : Type} [DecidableEq K]

theorem lookup_insert_eq (m : UnorderedMap K V) (k k' : K) (v : V) :
    (m.insert k v).lookup k' = if k' = k then some v else m.lookup k' := by
  split_ifs with h
  · subst h
    exact AList.lookup_insert m
  · exact AList.lookup_insert_ne h

theorem lookup_erase_eq (m : UnorderedMap K V) (k k' : K) :
    (m.erase k).lookup k' = if k' = k then none else m.lookup k' := by
  split_ifs with h
  · subst h
    exact AList.lookup_erase k' m
  · exact AList.lookup_erase_ne h

theorem erase_absent (m : UnorderedMap K V) {k : K} (h : m.lookup k = none) : m.erase k = m := by
  apply AList.ext
  exact List.kerase_of_notMem_keys (AList.lookup_eq_none.mp h)

theorem lookup_eraseAll (keys : List K) (m : UnorderedMap K V) (k : K) :
    (keys.foldl (fun m key => m.erase key) m).lookup k = if k ∈ keys then none else m.lookup k := by
  induction keys generalizing m with
  | nil => simp
  | cons key keys ih =>
    rw [List.foldl_cons, ih, lookup_erase_eq]
    by_cases hk : k = key <;> simp [hk]

theorem mem_keys_iff_lookup (m : UnorderedMap K V) (k : K) : k ∈ m.keys ↔ ∃ v, m.lookup k = some v := by
  rw [← AList.mem_keys, ← AList.lookup_isSome, Option.isSome_iff_exists]

end Lookup

/-- The keys that `remove_connection` erases from `pending_streams_`. -/
theorem erasePending_lookup (keys : List UInt64) (w : World) (key : UInt64) :
    (erasePending keys w).swarm.pendingStreams.lookup key =
      if key ∈ keys then none else w.swarm.pendingStreams.lookup key := lookup_eraseAll keys _ key

theorem registerConnection_swarm (id : ConnectionId) (fd : Fd) (w : World) :
    (registerConnection id fd w).swarm = { w.swarm with
      eventLoop := (registerConnection id fd w).swarm.eventLoop
      dialingFds := (registerConnection id fd w).swarm.dialingFds
      connFds := w.swarm.connFds.insert id fd
      fdToConn := w.swarm.fdToConn.insert fd id } := by
  unfold registerConnection
  dsimp only
  split_ifs <;> rfl

/-- The session of the next connection. -/
def World.newSession (socket : TcpSocket) (isInitiator : Bool) (w : World) : BasicConnectionSession :=
  BasicConnectionSession.make w.swarm.nextConnId socket.fd socket.remoteAddr isInitiator
    w.swarm.localIdentity w.swarm.localStreamMuxers w.ask.1.random

theorem connect_swarm (socket : TcpSocket) (isInitiator : Bool)
    (origin : Option (DialOrigin socket.remoteAddr)) (w : World) :
    (w.connect socket isInitiator origin).swarm = { w.swarm with
      eventLoop := (w.connect socket isInitiator origin).swarm.eventLoop
      dialingFds := (w.connect socket isInitiator origin).swarm.dialingFds
      sessions := Function.update w.swarm.sessions w.swarm.nextConnId
        (some (w.newSession socket isInitiator))
      connections := w.swarm.connections.insert w.swarm.nextConnId
      connFds := w.swarm.connFds.insert w.swarm.nextConnId socket.fd
      fdToConn := w.swarm.fdToConn.insert socket.fd w.swarm.nextConnId
      nextConnId := w.swarm.nextConnId + 1
      made := w.swarm.made + 1
      origins := Function.update w.swarm.origins w.swarm.nextConnId (origin.map (⟨_, ·⟩)) } :=
  registerConnection_swarm _ _ _

theorem connect_sessions (socket : TcpSocket) (isInitiator : Bool)
    (origin : Option (DialOrigin socket.remoteAddr)) (w : World) :
    (w.connect socket isInitiator origin).swarm.sessions =
      Function.update w.swarm.sessions w.swarm.nextConnId (some (w.newSession socket isInitiator)) :=
  congrArg Swarm.sessions (connect_swarm socket isInitiator origin w)

theorem mem_connect {socket : TcpSocket} {isInitiator : Bool}
    {origin : Option (DialOrigin socket.remoteAddr)} {w : World} {id : ConnectionId} :
    id ∈ (w.connect socket isInitiator origin).swarm.connections ↔
      id = w.swarm.nextConnId ∨ id ∈ w.swarm.connections := by
  rw [connect_swarm]
  exact List.mem_insert_iff

/-- `fd_to_conn_` without the fd of a connection. -/
def fdsWithout (id : ConnectionId) (sw : Swarm) : UnorderedMap Fd ConnectionId :=
  match sw.connFds.lookup id with
  | some fd => sw.fdToConn.erase fd
  | none => sw.fdToConn

theorem removeConnection_swarm (id : ConnectionId) (w : World) :
    (removeConnection id w).swarm = { w.swarm with
      eventLoop := (removeConnection id w).swarm.eventLoop
      sessions := Function.update w.swarm.sessions id ((w.swarm.sessions id).map Connection.close)
      connections := w.swarm.connections.filter (· ≠ id)
      connFds := w.swarm.connFds.erase id
      fdToConn := fdsWithout id w.swarm
      pendingStreams := (erasePending (w.swarm.pendingStreams.keys.filter fun key => key >>> 32 = id)
        w).swarm.pendingStreams
      peerConnections := ((PeerTableChange.forget id).apply
        (w.swarm.peerConnections, w.swarm.connectionPeers)).1
      connectionPeers := ((PeerTableChange.forget id).apply
        (w.swarm.peerConnections, w.swarm.connectionPeers)).2
      peerLog := w.swarm.peerLog ++ [.forget id]
      removals := w.swarm.removals ++ [⟨id, w.swarm.pendingStreams,
        (removeConnection id w).swarm.pendingStreams⟩] } := by
  unfold removeConnection fdsWithout
  dsimp only
  have hfds : (removePending id (changePeers (.forget id) w)).swarm.connFds.lookup id =
      w.swarm.connFds.lookup id := rfl
  rw [hfds]
  cases hfd : w.swarm.connFds.lookup id with
  | none =>
    rw [erase_absent _ hfd]
    cases hs : w.swarm.sessions id with
    | none =>
      have hsame : Function.update w.swarm.sessions id none = w.swarm.sessions := by
        rw [← hs, Function.update_eq_self]
      simp [World.modifySession, removePending, erasePending, changePeers, hs, hsame]
    | some s => simp [World.modifySession, World.setSession, removePending, erasePending, changePeers, hs]
  | some fd =>
    cases hs : w.swarm.sessions id with
    | none =>
      have hsame : Function.update w.swarm.sessions id none = w.swarm.sessions := by
        rw [← hs, Function.update_eq_self]
      simp [World.modifySession, removePending, erasePending, changePeers, hs, hsame]
    | some s => simp [World.modifySession, World.setSession, removePending, erasePending, changePeers, hs]

theorem removeConnection_sessions (id : ConnectionId) (w : World) :
    (removeConnection id w).swarm.sessions =
      Function.update w.swarm.sessions id ((w.swarm.sessions id).map Connection.close) :=
  congrArg Swarm.sessions (removeConnection_swarm id w)

theorem removeConnection_connections (id : ConnectionId) (w : World) :
    (removeConnection id w).swarm.connections = w.swarm.connections.filter (· ≠ id) :=
  congrArg Swarm.connections (removeConnection_swarm id w)

theorem mem_removeConnection {id id' : ConnectionId} {w : World} :
    id' ∈ (removeConnection id w).swarm.connections ↔ id' ∈ w.swarm.connections ∧ id' ≠ id := by
  rw [removeConnection_connections, List.mem_filter, decide_eq_true_eq]

/-- A stream of a connection that stays keeps its negotiation. -/
theorem removeConnection_pending (id : ConnectionId) (w : World) {key : UInt64} {n : ℕ} :
    (removeConnection id w).swarm.pendingStreams.lookup key = some n ↔
      key >>> 32 ≠ id ∧ w.swarm.pendingStreams.lookup key = some n := by
  rw [removeConnection_swarm]
  dsimp only
  rw [erasePending_lookup]
  have hkey : w.swarm.pendingStreams.lookup key = some n → key ∈ w.swarm.pendingStreams.keys :=
    fun h => (mem_keys_iff_lookup _ key).mpr ⟨n, h⟩
  by_cases hid : key >>> 32 = id
  · simp only [hid, ne_eq, not_true_eq_false, false_and, iff_false]
    intro h
    split_ifs at h with hmem
    rw [List.mem_filter] at hmem
    exact hmem ⟨hkey h, by simp [hid]⟩
  · have hmem : key ∉ w.swarm.pendingStreams.keys.filter fun key : UInt64 => key >>> 32 = id := by
      simp [List.mem_filter, hid]
    rw [if_neg hmem]
    simp [hid]

theorem forget_connectionPeers (id : ConnectionId)
    (tables : UnorderedMap Bytes ConnectionId × UnorderedMap ConnectionId Bytes) :
    ((PeerTableChange.forget id).apply tables).2 = tables.2.erase id := by
  unfold PeerTableChange.apply
  dsimp only
  cases h : tables.2.lookup id with
  | none => exact (erase_absent _ h).symm
  | some key => rfl

/-- What is left of `peer_connections_`. -/
theorem forget_peerConnections (id : ConnectionId)
    (tables : UnorderedMap Bytes ConnectionId × UnorderedMap ConnectionId Bytes) (key : Bytes) :
    ((PeerTableChange.forget id).apply tables).1.lookup key =
      if tables.2.lookup id = some key then none else tables.1.lookup key := by
  unfold PeerTableChange.apply
  dsimp only
  cases h : tables.2.lookup id with
  | none => simp
  | some key' =>
    dsimp only
    rw [lookup_erase_eq]
    by_cases hkey : key = key'
    · simp [hkey]
    · simp [hkey, Ne.symm hkey]

theorem fdsWithout_lookup (id : ConnectionId) (sw : Swarm) (fd : Fd) :
    (fdsWithout id sw).lookup fd =
      if sw.connFds.lookup id = some fd then none else sw.fdToConn.lookup fd := by
  unfold fdsWithout
  cases h : sw.connFds.lookup id with
  | none => simp
  | some fd' =>
    dsimp only
    rw [lookup_erase_eq]
    by_cases hfd : fd = fd'
    · simp [hfd]
    · simp [hfd, Ne.symm hfd]

/-- A stream that the peer opened is taken out of the session, and its negotiation
    begins. -/
theorem acceptStream_cases (id : ConnectionId) (w : World) :
    acceptStream id w = w ∨
    (∃ s, id ∈ w.swarm.connections ∧ w.swarm.sessions id = some s ∧
      acceptStream id w = w.setSession id (Connection.acceptInboundStream s).2) ∨
    ∃ s neg, id ∈ w.swarm.connections ∧ w.swarm.sessions id = some s ∧ s.pendingInbound ≠ [] ∧
      neg.connId = id ∧
      acceptStream id w = addPending id
        (newNegotiation neg (w.setSession id (Connection.acceptInboundStream s).2)).1
        (newNegotiation neg (w.setSession id (Connection.acceptInboundStream s).2)).2 := by
  unfold acceptStream World.findConnection
  split_ifs with hid
  · cases hs : w.swarm.sessions id with
    | none => exact .inl rfl
    | some s =>
      dsimp only
      rcases hrun : Connection.acceptInboundStream s with ⟨_ | stream, s'⟩
      · exact .inr (.inl ⟨s, hid, rfl, by rw [hrun]⟩)
      · refine .inr (.inr ⟨s, _, hid, rfl, fun hpending => ?_, rfl, by rw [hrun]⟩)
        unfold Connection.acceptInboundStream at hrun
        rw [hpending] at hrun
        cases hrun
  · exact .inl rfl

/-! ## `stop` -/

theorem modifySession_swarm (w : World) (id : ConnectionId)
    (f : BasicConnectionSession → BasicConnectionSession) :
    (w.modifySession id f).swarm =
      { w.swarm with sessions := (w.modifySession id f).swarm.sessions } := by
  unfold World.modifySession
  cases w.swarm.sessions id <;> rfl

/-- All sessions of a list are closed. -/
theorem closeAll_swarm (ids : List ConnectionId) (w : World) :
    (ids.foldl (fun w id => w.modifySession id Connection.close) w).swarm =
      { w.swarm with
        sessions := (ids.foldl (fun w id => w.modifySession id Connection.close) w).swarm.sessions } := by
  induction ids generalizing w with
  | nil => rfl
  | cons id ids ih =>
    rw [List.foldl_cons, ih, modifySession_swarm]

theorem closeAll_invariant {P : ConnectionId → BasicConnectionSession → Prop}
    (hclose : ∀ id s, P id s → P id (Connection.close s)) (ids : List ConnectionId) (w : World)
    (h : ∀ id s, w.swarm.sessions id = some s → P id s) {id : ConnectionId} {s : BasicConnectionSession}
    (hs : (ids.foldl (fun w id => w.modifySession id Connection.close) w).swarm.sessions id = some s) :
    P id s := by
  induction ids generalizing w with
  | nil => exact h id s hs
  | cons id' ids ih =>
    refine ih (w.modifySession id' Connection.close) (fun i t ht => ?_) hs
    cases hs' : w.swarm.sessions id' with
    | none =>
      have hsame : w.modifySession id' Connection.close = w := by
        unfold World.modifySession
        rw [hs']
      rw [hsame] at ht
      exact h i t ht
    | some s' =>
      have hset : w.modifySession id' Connection.close = w.setSession id' (Connection.close s') := by
        unfold World.modifySession
        rw [hs']
      rw [hset] at ht
      by_cases hi : i = id'
      · subst hi
        rw [World.setSession_self] at ht
        obtain rfl := Option.some.inj ht
        exact hclose i s' (h i s' hs')
      · rw [World.setSession_of_ne _ _ hi] at ht
        exact h i t ht

theorem stop_swarm (w : World) :
    (stop w).swarm = { w.swarm with
      eventLoop := [], transport := {}, listenerFds := [], dialingFds := []
      fdToConn := ∅, connFds := ∅, peerConnections := ∅, connectionPeers := ∅
      peerLog := w.swarm.peerLog ++ [.clear]
      connections := []
      sessions := (stop w).swarm.sessions } := by
  unfold stop
  dsimp only
  rw [closeAll_swarm]
  rfl

/-- What closing keeps holds of the sessions that `stop` closed. -/
theorem stop_sessions {P : ConnectionId → BasicConnectionSession → Prop}
    (hclose : ∀ id s, P id s → P id (Connection.close s)) {w : World}
    (h : ∀ id s, w.swarm.sessions id = some s → P id s) {id : ConnectionId} {s : BasicConnectionSession}
    (hs : (stop w).swarm.sessions id = some s) : P id s := by
  unfold stop at hs
  dsimp only at hs
  refine closeAll_invariant hclose _ _ ?_ hs
  exact h

end PeerCore
