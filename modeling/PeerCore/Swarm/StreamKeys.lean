import PeerCore.Swarm.References

/-!
# The keys of pending streams

`stream_key` puts a 64-bit connection id and a 32-bit stream id in 64 bits, and
`remove_connection` reads the connection id back.

* `KeysApart w`: the keys asked for so far differ, and every `remove_connection` so far
  erased the entries of its connection and no others.
* `Keyed w` is what every turn keeps (`Keyed.turn`) while fewer than `2 ^ 32` connections
  were made.
* `keys_apart`: `KeysApart` in every state of a run that makes fewer than `2 ^ 32`
  connections.
* `removed_stream_stays`: a run after which the entry of a removed connection is left.
-/

namespace PeerCore

open Connection (BasicConnectionSession)

/-- The pairs that `stream_key` was called with have different keys, and `remove_connection`
    took the streams of its connection out of `pending_streams_` and left the others. -/
structure KeysApart (w : World) : Prop where
  apart : ∀ p ∈ w.swarm.keyed, ∀ q ∈ w.swarm.keyed, streamKey p.1 p.2 = streamKey q.1 q.2 → p = q
  exact : ∀ removal ∈ w.swarm.removals, ∀ key n,
    removal.after.lookup key = some n ↔
      removal.before.lookup key = some n ∧ (w.swarm.negotiations n).connId ≠ removal.connId

/-- Two pairs have one key when the stream ids are equal and the connection ids agree in
    their low halves. -/
theorem streamKey_eq_iff (id id' : ConnectionId) (stream stream' : StreamId) :
    streamKey id stream = streamKey id' stream' ↔
      id.toNat % 2 ^ 32 = id'.toNat % 2 ^ 32 ∧ stream = stream' := by
  have hstream : stream.toNat < 2 ^ 32 := stream.toNat_lt
  have hstream' : stream'.toNat < 2 ^ 32 := stream'.toNat_lt
  rw [← UInt64.toNat_inj, ← UInt32.toNat_inj, streamKey_toNat, streamKey_toNat]
  omega

/-- What the invariant is: ids fit the upper half of a key, and the entries of
    `pending_streams_` are where `remove_connection` looks for them. -/
structure Keyed (w : World) : Prop where
  numbered : Numbered w
  small : ∀ p ∈ w.swarm.keyed, p.1.toNat ≤ w.swarm.made
  pending : ∀ key n, w.swarm.pendingStreams.lookup key = some n →
    n < w.swarm.negotiationCount ∧ key >>> 32 = (w.swarm.negotiations n).connId
  removals : ∀ removal ∈ w.swarm.removals, ∀ key n,
    (removal.before.lookup key = some n → n < w.swarm.negotiationCount) ∧
    (removal.after.lookup key = some n ↔
      removal.before.lookup key = some n ∧ (w.swarm.negotiations n).connId ≠ removal.connId)

theorem Keyed.keysApart {w : World} (h : Keyed w) (hsmall : w.swarm.made < 2 ^ 32) : KeysApart w where
  apart := by
    rintro ⟨id, stream⟩ hp ⟨id', stream'⟩ hq heq
    have hid : id.toNat ≤ w.swarm.made := h.small _ hp
    have hid' : id'.toNat ≤ w.swarm.made := h.small _ hq
    obtain ⟨hmod, rfl⟩ := (streamKey_eq_iff id id' stream stream').mp heq
    obtain rfl : id = id' := by
      apply UInt64.toNat_inj.mp
      omega
    rfl
  exact := fun removal hremoval key n => (h.removals removal hremoval key n).2

/-- No key is asked for and no connection removed. Streams may leave `pending_streams_`. -/
structure SameKeys (w w' : World) : Prop where
  keyed : w'.swarm.keyed = w.swarm.keyed
  removals : w'.swarm.removals = w.swarm.removals
  pending : ∀ key n, w'.swarm.pendingStreams.lookup key = some n →
    w.swarm.pendingStreams.lookup key = some n
  count : w'.swarm.negotiationCount = w.swarm.negotiationCount
  connId : ∀ n, (w'.swarm.negotiations n).connId = (w.swarm.negotiations n).connId

namespace SameKeys

theorem of_same {w w' : World} (hkeyed : w'.swarm.keyed = w.swarm.keyed)
    (hremovals : w'.swarm.removals = w.swarm.removals)
    (hpending : w'.swarm.pendingStreams = w.swarm.pendingStreams)
    (hcount : w'.swarm.negotiationCount = w.swarm.negotiationCount)
    (hnegotiations : w'.swarm.negotiations = w.swarm.negotiations) : SameKeys w w' :=
  ⟨hkeyed, hremovals, fun _ _ h => hpending ▸ h, hcount, fun _ => by rw [hnegotiations]⟩

theorem refl (w : World) : SameKeys w w := of_same rfl rfl rfl rfl rfl

end SameKeys

section Turns

variable {S : Noise.Sodium} {reading : Bool} {w w' : World}

/-- A turn asks for a key, removes a connection, or does neither. -/
theorem Turn.keys {a b : Scene} (h : Turn S reading a b) :
    SameKeys a.world b.world ∨
    (∃ id neg w, SameKeys a.world w ∧ SameNumbers a.world w ∧ neg.connId = id ∧
      id ∈ w.swarm.connections ∧
      b.world = addPending id (newNegotiation neg w).1 (newNegotiation neg w).2) ∨
    ∃ id, b.world = removeConnection id a.world := by
  cases h with
  | quiet w' hquiet =>
    refine .inl ⟨by rw [hquiet.swarm], by rw [hquiet.swarm], fun key n hn => ?_, by rw [hquiet.swarm],
      hquiet.connId⟩
    rwa [hquiet.swarm] at hn
  | aside w' haside =>
    exact .inl (SameKeys.of_same (by rw [haside.swarm]) (by rw [haside.swarm]) (by rw [haside.swarm])
      (by rw [haside.swarm]) (by rw [haside.swarm]))
  | connect socket isInitiator origin =>
    exact .inl (SameKeys.of_same (by rw [connect_swarm]) (by rw [connect_swarm]) (by rw [connect_swarm])
      (by rw [connect_swarm]) (by rw [connect_swarm]))
  | accept id =>
    rcases acceptStream_cases id a.world with hw | ⟨s, -, -, hw⟩ | ⟨s, neg, hid, hs, -, hneg, hw⟩
    · left
      rw [hw]
      exact SameKeys.refl _
    · left
      rw [hw]
      exact SameKeys.of_same rfl rfl rfl rfl rfl
    · exact .inr (.inl ⟨id, neg, a.world.setSession id _, SameKeys.of_same rfl rfl rfl rfl rfl,
        SameNumbers.setSession hs _, hneg, hid, hw⟩)
  | pend id s neg hid hs hready hneg =>
    exact .inr (.inl ⟨id, neg, a.world, SameKeys.refl _, SameNumbers.of_same rfl rfl rfl rfl, hneg,
      hid, rfl⟩)
  | erase keys =>
    refine .inl ⟨rfl, rfl, fun key n hn => ?_, rfl, fun _ => rfl⟩
    rw [erasePending_lookup] at hn
    split_ifs at hn
    exact hn
  | remove id => exact .inr (.inr ⟨id, rfl⟩)
  | outside | report | polled => exact .inl (SameKeys.refl _)
  | act | secured | anonymous | established | forward | record | dequeue | log =>
    exact .inl (SameKeys.of_same rfl rfl rfl rfl rfl)

namespace Keyed

/-- What no key is asked for in keeps the invariant, when the numbers are kept. -/
theorem same (h : Keyed w) (hkeys : SameKeys w w') (hnumbered : Numbered w')
    (hmade : w.swarm.made ≤ w'.swarm.made) : Keyed w' where
  numbered := hnumbered
  small := fun p hp => by
    rw [hkeys.keyed] at hp
    exact (h.small p hp).trans hmade
  pending := fun key n hn => by
    rw [hkeys.count, hkeys.connId]
    exact h.pending key n (hkeys.pending key n hn)
  removals := fun removal hremoval key n => by
    rw [hkeys.removals] at hremoval
    rw [hkeys.count, hkeys.connId]
    exact h.removals removal hremoval key n

/-- A key is asked for a stream of a connection. -/
theorem pend (h : Keyed w) (hsmall : w.swarm.made < 2 ^ 32) {id : ConnectionId}
    {neg : ProtocolNegotiatingStream} (hneg : neg.connId = id) (hid : id ∈ w.swarm.connections) :
    Keyed (addPending id (newNegotiation neg w).1 (newNegotiation neg w).2) := by
  have hnew : (addPending id (newNegotiation neg w).1
      (newNegotiation neg w).2).swarm.negotiations w.swarm.negotiationCount = neg :=
    Function.update_self _ _ _
  have hold : ∀ n < w.swarm.negotiationCount, (addPending id (newNegotiation neg w).1
      (newNegotiation neg w).2).swarm.negotiations n = w.swarm.negotiations n :=
    fun n hn => Function.update_of_ne hn.ne _ _
  have hcount : (addPending id (newNegotiation neg w).1
      (newNegotiation neg w).2).swarm.negotiationCount = w.swarm.negotiationCount + 1 := rfl
  constructor
  · exact h.numbered.of_same (SameNumbers.of_same rfl rfl rfl rfl)
  · intro p hp
    rcases List.mem_append.mp hp with hp | hp
    · exact h.small p hp
    · obtain rfl := List.mem_singleton.mp hp
      obtain ⟨s, hs⟩ := h.numbered.present id hid
      exact (h.numbered.ids id s hs).2
  · intro key n hn
    change (w.swarm.pendingStreams.insert (streamKey id _) w.swarm.negotiationCount).lookup key =
      some n at hn
    rw [lookup_insert_eq] at hn
    rw [hcount]
    split_ifs at hn with hkey
    · obtain rfl := Option.some.inj hn
      rw [hnew, hneg, hkey, streamKey_shift (h.numbered.connection_id hsmall hid).2]
      exact ⟨Nat.lt_succ_self _, rfl⟩
    · obtain ⟨hmade, hconn⟩ := h.pending key n hn
      rw [hold n hmade]
      exact ⟨Nat.lt_succ_of_lt hmade, hconn⟩
  · intro removal hremoval key n
    obtain ⟨hmade, hexact⟩ := h.removals removal hremoval key n
    rw [hcount]
    refine ⟨fun hn => Nat.lt_succ_of_lt (hmade hn), hexact.trans (and_congr_right fun hn => ?_)⟩
    rw [hold n (hmade hn)]

/-- The entries whose key begins with the id are those of the connection. -/
theorem remove (h : Keyed w) (id : ConnectionId) : Keyed (removeConnection id w) := by
  have hcount : (removeConnection id w).swarm.negotiationCount = w.swarm.negotiationCount := by
    rw [removeConnection_swarm]
  have hnegotiations : (removeConnection id w).swarm.negotiations = w.swarm.negotiations := by
    rw [removeConnection_swarm]
  constructor
  · exact h.numbered.of_same (removeConnection_numbers id w)
  · rw [removeConnection_swarm]
    exact h.small
  · intro key n hn
    rw [hcount, hnegotiations]
    exact h.pending key n ((removeConnection_pending id w).mp hn).2
  · intro removal hremoval key n
    rw [hcount, hnegotiations]
    rw [removeConnection_swarm] at hremoval
    rcases List.mem_append.mp hremoval with hold | hnew
    · exact h.removals removal hold key n
    · obtain rfl := List.mem_singleton.mp hnew
      refine ⟨fun hn => (h.pending key n hn).1, ?_⟩
      rw [removeConnection_pending]
      constructor
      · rintro ⟨hne, hn⟩
        exact ⟨hn, (h.pending key n hn).2 ▸ hne⟩
      · rintro ⟨hn, hne⟩
        exact ⟨(h.pending key n hn).2.symm ▸ hne, hn⟩

theorem turn {a b : Scene} (h : Keyed a.world) (hturn : Turn S reading a b)
    (hsmall : b.world.swarm.made < 2 ^ 32) : Keyed b.world := by
  have hmade := hturn.made_le
  rcases hturn.keys with hsame | ⟨id, neg, w, hsame, hnumbers, hneg, hid, hb⟩ | ⟨id, hb⟩
  · exact h.same hsame (h.numbered.turn hturn hsmall) hmade
  · have hw : Keyed w := h.same hsame (h.numbered.of_same hnumbers) hnumbers.made.ge
    rw [hb] at hmade hsmall ⊢
    exact hw.pend hsmall hneg hid
  · rw [hb]
    exact h.remove id

end Keyed

/-! ## Runs -/

/-- The keys are right while fewer than `2 ^ 32` connections were made. -/
def KeyedWhileSmall (w : World) : Prop := w.swarm.made < 2 ^ 32 → Keyed w

theorem KeyedWhileSmall.does (h : KeyedWhileSmall w) (hdoes : Does S reading w w') :
    KeyedWhileSmall w' :=
  hdoes.invariant (P := fun sc => KeyedWhileSmall sc.world)
    (fun _ _ hsc hturn hsmall => (hsc (lt_of_le_of_lt hturn.made_le hsmall)).turn hturn hsmall) h

theorem stop_keyed (h : Keyed w) : Keyed (stop w) := by
  refine h.same ?_ (h.numbered.of_same (stop_numbers w)) (stop_numbers w).made.ge
  exact SameKeys.of_same (by rw [stop_swarm]) (by rw [stop_swarm]) (by rw [stop_swarm])
    (by rw [stop_swarm]) (by rw [stop_swarm])

theorem make_keyed (peerStore : PeerStore) (localIdentity : Option Identity)
    (localStreamMuxers : List ProtocolId) (env : ℕ → Answers) :
    Keyed (World.make peerStore localIdentity localStreamMuxers env) where
  numbered := ⟨rfl, (fun _ _ hs => by cases hs), (fun _ hid => by cases hid)⟩
  small := fun _ hp => by cases hp
  pending := fun _ _ hn => by cases hn
  removals := fun _ hremoval => by cases hremoval

/-- In a run of which every call leaves the number of connections made below `2 ^ 32`, the
    keys of pending streams are told apart and removed with their connection. -/
theorem keys_apart (peerStore : PeerStore) (localIdentity : Option Identity)
    (localStreamMuxers : List ProtocolId) (env : ℕ → Answers) (calls : List SwarmCall)
    (hsmall : Runs.Steps (swarmStep S) (fun w call => (swarmStep S w call).swarm.made < 2 ^ 32)
      (World.make peerStore localIdentity localStreamMuxers env) calls) :
    Runs.States (swarmStep S) KeysApart
      (World.make peerStore localIdentity localStreamMuxers env) calls := by
  have hstep : ∀ w call, (KeyedWhileSmall w ∧ Settled w) ∧ w.swarm.made < 2 ^ 32 →
      (swarmStep S w call).swarm.made < 2 ^ 32 →
      (KeyedWhileSmall (swarmStep S w call) ∧ Settled (swarmStep S w call)) ∧
        (swarmStep S w call).swarm.made < 2 ^ 32 := by
    rintro w call ⟨⟨hkeyed, hsettled⟩, hw⟩ hcall
    refine ⟨swarm_step (fun _ _ _ h hdoes => h.does hdoes) (fun _ _ h hdoes => h.does hdoes) w call
      (fun _ _ => stop_keyed (hkeyed hw)) hkeyed hsettled, hcall⟩
  refine (hsmall.invariant hstep ⟨⟨fun _ => make_keyed _ _ _ _, make_settled _ _ _ _⟩, ?_⟩).mono ?_
  · show 0 < 2 ^ 32
    norm_num
  · rintro w ⟨⟨hkeyed, -⟩, hw⟩
    exact (hkeyed hw).keysApart hw

end Turns

theorem keys_apart_toy : Runs.States (swarmStep Noise.Sodium.toy) KeysApart toyWorld
    [.dialAddr toyAddr, .pollOnce, .openStream 1 (ascii "/echo/1.0.0"), .pollOnce] := by
  unfold toyWorld
  refine keys_apart [] (some Connection.toyIdentity) [] toyEnv _ (steps_small ?_)
  decide +kernel

/-! ## Past `2 ^ 32` connections -/

/-- The id after `2 ^ 32` connections. -/
def farId : ConnectionId := 0x100000001

/-- A socket connects at once, the peer completes the upgrade, and the controller opens a
    stream on the connection `farId` and closes it. -/
def farEnv (_ : ℕ) : Answers where
  socket := .ok 5
  connect := .connected
  random := fun _ => ⟨List.Vector.replicate 32 1, List.Vector.replicate 32 2⟩
  ready := [{ fd := 5, input := true }]
  recv := [.data toyReply]
  actions := [.openStream (some farId) (some (ascii "/echo/1.0.0")), .closeConnection (some farId)]

/-- A swarm in the environment `farEnv`. -/
def farWorld : World := World.make [] (some Connection.toyIdentity) [] farEnv

/-- A swarm between two connections. -/
def restingSwarm (made : ℕ) (next : ConnectionId) (sessions : ConnectionId → Option BasicConnectionSession)
    (eventQueue history : List SwarmEvent) (peerLog : List PeerTableChange)
    (origins : ConnectionId → Option ((addr : Multiaddr) × DialOrigin addr)) : Swarm :=
  { localIdentity := some Connection.toyIdentity, localStreamMuxers := []
    sessions, nextConnId := next, eventQueue, history, made, peerLog, origins }

/-- A connection without events stays. -/
theorem drainAndRemove_idle {S : Noise.Sodium} {id : ConnectionId} {w : World}
    (h : ∀ s, w.swarm.sessions id = some s → s.eventQueue = []) : drainAndRemove S [id] w = w := by
  unfold drainAndRemove drainConnectionEventsFor World.findConnection
  simp only [List.foldl_cons, List.foldl_nil]
  split_ifs with hid
  · cases hs : w.swarm.sessions id with
    | none => rfl
    | some s =>
      simp only [h s hs, List.length_nil]
      rfl
  · rfl

theorem beginOutboundUpgrade_toy (id : ConnectionId) (random : ℕ → Noise.Entropy) :
    let r := Connection.beginOutboundUpgrade (Connection.step Noise.Sodium.toy
      (BasicConnectionSession.make id 5 toyAddr true (some Connection.toyIdentity) [] random)
      (.answers [] none))
    r.1 = .ok () ∧ r.2.eventQueue = [] := ⟨rfl, rfl⟩

/-- The swarm was stopped after `made` connections, and no stream was ever opened. -/
def Resting (made : ℕ) (next : ConnectionId) (w : World) : Prop :=
  w.swarm = restingSwarm made next w.swarm.sessions w.swarm.eventQueue w.swarm.history w.swarm.peerLog
      w.swarm.origins ∧
    w.env = farEnv

theorem stop_env (w : World) : (stop w).env = w.env := by
  have hclose : ∀ (ids : List ConnectionId) (w : World),
      (ids.foldl (fun w id => w.modifySession id Connection.close) w).env = w.env := by
    intro ids
    induction ids with
    | nil => exact fun _ => rfl
    | cons id ids ih =>
      intro w
      rw [List.foldl_cons, ih]
      unfold World.modifySession
      cases w.swarm.sessions id <;> rfl
  exact hclose _ _

/-- The connection is dialled, and its upgrade has begun. -/
theorem dialAddr_resting {made : ℕ} {next : ConnectionId} {w : World} (h : Resting made next w) :
    ∃ s, (dialAddr Noise.Sodium.toy toyAddr none w).2 =
      syncTransportFds ((w.ask.2.connect ⟨5, toyAddr⟩ true none).ask.2.setSession next s) := by
  obtain ⟨sw, env, clock⟩ := w
  obtain ⟨hsw, henv⟩ := h
  dsimp only at hsw henv
  subst henv
  rw [hsw]
  generalize sw.sessions = sessions
  generalize sw.eventQueue = eventQueue
  generalize sw.history = history
  generalize sw.peerLog = peerLog
  generalize sw.origins = origins
  set w : World := ⟨restingSwarm made next sessions eventQueue history peerLog origins, farEnv, clock⟩
    with hw
  obtain ⟨hok, hqueue⟩ := beginOutboundUpgrade_toy next (farEnv (clock + 1)).random
  have hs : (w.ask.2.connect ⟨5, toyAddr⟩ true none).ask.2.swarm.sessions next =
      some (BasicConnectionSession.make next 5 toyAddr true (some Connection.toyIdentity) []
        (farEnv (clock + 1)).random) := Function.update_self _ _ _
  have hrun : onSession Noise.Sodium.toy next Connection.beginOutboundUpgrade
      (w.ask.2.connect ⟨5, toyAddr⟩ true none) = (.ok (), (w.ask.2.connect ⟨5, toyAddr⟩ true none).ask.2.setSession next
        (Connection.beginOutboundUpgrade (Connection.step Noise.Sodium.toy
          (BasicConnectionSession.make next 5 toyAddr true (some Connection.toyIdentity) []
            (farEnv (clock + 1)).random) (.answers [] none))).2) := by
    unfold onSession
    dsimp only
    rw [hs]
    exact Prod.ext hok rfl
  have hdial : (dialAddr Noise.Sodium.toy toyAddr none w).2 = syncTransportFds
      (finishUpgrade Noise.Sodium.toy next
        (onSession Noise.Sodium.toy next Connection.beginOutboundUpgrade (w.ask.2.connect ⟨5, toyAddr⟩ true none)).1
        (onSession Noise.Sodium.toy next Connection.beginOutboundUpgrade
          (w.ask.2.connect ⟨5, toyAddr⟩ true none)).2) := rfl
  rw [hdial, hrun]
  refine ⟨_, congrArg syncTransportFds (drainAndRemove_idle fun s hs => ?_)⟩
  rw [World.setSession_self] at hs
  obtain rfl := Option.some.inj hs
  exact hqueue

/-- A connection is dialled and the swarm is stopped: only the counters stay. -/
theorem Resting.cycle {made : ℕ} {next : ConnectionId} {w : World} (h : Resting made next w) :
    Resting (made + 1) (next + 1)
      (Runs.final (swarmStep Noise.Sodium.toy) w [.dialAddr toyAddr, .stop]) := by
  obtain ⟨s, hs⟩ := dialAddr_resting h
  show Resting _ _ (stop (dialAddr Noise.Sodium.toy toyAddr none w).2)
  rw [hs]
  obtain ⟨sw, env, clock⟩ := w
  obtain ⟨hsw, henv⟩ := h
  dsimp only at hsw henv
  subst henv
  refine ⟨?_, stop_env _⟩
  rw [stop_swarm]
  rw [hsw]
  rfl

/-- Connections dialled and stopped, `n` times. -/
def farCycles (n : ℕ) : List SwarmCall := (List.replicate n [.dialAddr toyAddr, .stop]).flatten

theorem farCycles_resting (n : ℕ) :
    Resting n (UInt64.ofNat (n + 1)) (Runs.final (swarmStep Noise.Sodium.toy) farWorld (farCycles n)) := by
  induction n with
  | zero => exact ⟨rfl, rfl⟩
  | succ n ih =>
    have h := ih.cycle
    rw [← Runs.final_append] at h
    have hcalls : farCycles (n + 1) = farCycles n ++ [.dialAddr toyAddr, .stop] := by
      rw [farCycles, List.replicate_succ', List.flatten_append, List.flatten_singleton]
      rfl
    rw [hcalls, UInt64.ofNat_add]
    exact h

/-- The swarm after `n` connections. -/
def farRest (n : ℕ) : World := Runs.final (swarmStep Noise.Sodium.toy) farWorld (farCycles n)

theorem farRest_eq (n : ℕ) : farRest n = ⟨restingSwarm n (UInt64.ofNat (n + 1)) (farRest n).swarm.sessions
    (farRest n).swarm.eventQueue (farRest n).swarm.history (farRest n).swarm.peerLog
    (farRest n).swarm.origins, farEnv, (farRest n).clock⟩ := by
  obtain ⟨hswarm, henv⟩ := farCycles_resting n
  have henv : (farRest n).env = farEnv := henv
  calc farRest n = ⟨(farRest n).swarm, (farRest n).env, (farRest n).clock⟩ := rfl
    _ = _ := by
      rw [henv]
      exact congrArg (World.mk · farEnv _) hswarm

/-- After `2 ^ 32` connections a stream is opened on one more, which is then closed:
    `remove_connection` leaves the stream in `pending_streams_`. -/
theorem removed_stream_stays :
    let w := Runs.final (swarmStep Noise.Sodium.toy) farWorld
      (farCycles (2 ^ 32) ++ [.dialAddr toyAddr, .pollOnce])
    w.swarm.made = 2 ^ 32 + 1 ∧ w.swarm.connections = [] ∧ ¬ KeysApart w := by
  intro w
  have hw : w.swarm.made = 2 ^ 32 + 1 ∧ w.swarm.connections = [] ∧
      (w.swarm.negotiations 0).connId = farId ∧
      w.swarm.removals.map (fun r => (r.connId, r.before.lookup (streamKey farId 1),
        r.after.lookup (streamKey farId 1))) = [(farId, some 0, some 0)] := by
    have hfinal : w = Runs.final (swarmStep Noise.Sodium.toy) (farRest (2 ^ 32))
        [.dialAddr toyAddr, .pollOnce] := Runs.final_append _ _ _
    rw [hfinal, farRest_eq]
    decide +kernel
  obtain ⟨hmade, hconnections, hconn, hremovals⟩ := hw
  clear_value w
  refine ⟨hmade, hconnections, fun hapart => ?_⟩
  obtain ⟨removal, hremoval, hsame⟩ := List.mem_map.mp (hremovals ▸ List.mem_singleton_self _)
  simp only [Prod.mk.injEq] at hsame
  obtain ⟨hid, -, hafter⟩ := hsame
  exact ((hapart.exact removal hremoval _ _).mp hafter).2 (hconn.trans hid.symm)

end PeerCore
