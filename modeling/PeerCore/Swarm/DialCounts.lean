import PeerCore.Swarm.Peers

/-!
# The counter of successful dials

`Counted`: `dial_successes` of a peer has grown with every connection that became
established as the peer, whoever dialled it. `dials_counted_iff`: it has grown with the
dialled ones alone if and only if there were no others, up to the `uint32_t` it is kept
in. `inbound_counted` is a run in which an accepted connection is counted.
-/

namespace PeerCore

open Connection (BasicConnectionSession)

/-- How many dialled connections became established and authenticated as `peer`. -/
def dialsEstablished (w : World) (peer : PeerId) : ℕ :=
  w.swarm.established.countP fun c => c.outbound ∧ c.peerId = some peer

/-- How many accepted connections became established and authenticated as `peer`. -/
def acceptsEstablished (w : World) (peer : PeerId) : ℕ :=
  w.swarm.established.countP fun c => ¬ c.outbound ∧ c.peerId = some peer

/-- The counter has grown by the number of the dialled ones since the store was `store`. -/
def DialsCounted (store : PeerStore) (peer : PeerId) (w : World) : Prop :=
  (w.swarm.peerStore.dialSuccesses peer).toNat =
    (store.dialSuccesses peer).toNat + dialsEstablished w peer

section Swarm

variable {S : Noise.Sodium} {reading : Bool} {store : PeerStore}

/-- How many connections became established and authenticated as `peer`. -/
def establishedAs (w : World) (peer : PeerId) : ℕ :=
  w.swarm.established.countP fun c => c.peerId = some peer

theorem establishedAs_eq (w : World) (peer : PeerId) :
    establishedAs w peer = dialsEstablished w peer + acceptsEstablished w peer := by
  unfold establishedAs dialsEstablished acceptsEstablished
  induction w.swarm.established with
  | nil => rfl
  | cons c rest ih =>
    simp only [List.countP_cons, ih]
    cases c.outbound <;> by_cases hpeer : c.peerId = some peer <;> simp [hpeer] <;> omega

/-- The counters are those of `store`, and one more for each connection established. -/
def Counted (store : PeerStore) (w : World) : Prop :=
  ∀ peer, w.swarm.peerStore.dialSuccesses peer =
    store.dialSuccesses peer + UInt32.ofNat (establishedAs w peer)

namespace Counted

variable {w w' : World}

theorem of_same (h : Counted store w)
    (hdials : ∀ peer, w'.swarm.peerStore.dialSuccesses peer = w.swarm.peerStore.dialSuccesses peer)
    (hestablished : w'.swarm.established = w.swarm.established) : Counted store w' := by
  intro peer
  have hcount : establishedAs w' peer = establishedAs w peer := by
    unfold establishedAs
    rw [hestablished]
  rw [hdials, hcount]
  exact h peer

theorem of_swarm (h : Counted store w) (hstore : w'.swarm.peerStore = w.swarm.peerStore)
    (hestablished : w'.swarm.established = w.swarm.established) : Counted store w' :=
  h.of_same (fun _ => by rw [hstore]) hestablished

/-- The connection is counted for the peer it is authenticated as. -/
theorem established (h : Counted store w) (id : ConnectionId) :
    Counted store (recordEstablished id w) := by
  intro peer
  have hcount : establishedAs (recordEstablished id w) peer =
      establishedAs w peer + if w.remotePeer id = some peer then 1 else 0 := by
    unfold establishedAs recordEstablished
    rw [List.countP_append, List.countP_singleton]
    simp
  have hstore : (recordEstablished id w).swarm.peerStore.dialSuccesses peer =
      w.swarm.peerStore.dialSuccesses peer + if w.remotePeer id = some peer then 1 else 0 := by
    unfold recordEstablished
    dsimp only
    cases w.remotePeer id with
    | none => simp
    | some peer' => simp [PeerStore.recordDialSuccess_dialSuccesses]
  rw [hstore, hcount, h peer, UInt32.ofNat_add, ← UInt32.add_assoc]
  split_ifs <;> rfl

theorem acceptStream (h : Counted store w) (id : ConnectionId) :
    Counted store (acceptStream id w) := by
  rcases acceptStream_cases id w with hw | ⟨s, -, -, hw⟩ | ⟨s, neg, -, -, -, -, hw⟩
  · rw [hw]
    exact h
  · rw [hw]
    exact h.of_swarm rfl rfl
  · rw [hw]
    exact h.of_swarm rfl rfl

theorem turn {a b : Scene} (h : Counted store a.world) (hturn : Turn S reading a b) :
    Counted store b.world := by
  cases hturn with
  | quiet w' hquiet => exact h.of_swarm (by rw [hquiet.swarm]) (by rw [hquiet.swarm])
  | aside w' haside => exact h.of_same haside.dials (by rw [haside.swarm])
  | connect => exact h.of_swarm (by rw [connect_swarm]) (by rw [connect_swarm])
  | established id s e rest =>
    exact (h.of_swarm rfl rfl : Counted store (a.world.take id s rest)).established id
  | accept id => exact h.acceptStream id
  | remove id =>
    exact h.of_swarm (by rw [removeConnection_swarm]) (by rw [removeConnection_swarm])
  | outside | report | polled => exact h
  | act | secured | anonymous | forward | pend | record | dequeue | log | erase =>
    exact h.of_swarm rfl rfl

theorem does (h : Counted store w) (hdoes : Does S reading w w') : Counted store w' :=
  hdoes.invariant (P := fun sc => Counted store sc.world) (fun _ _ h hturn => h.turn hturn) h

theorem stop (h : Counted store w) : Counted store (stop w) :=
  h.of_swarm (by rw [stop_swarm]) (by rw [stop_swarm])

end Counted

theorem make_counted (store : PeerStore) (localIdentity : Option Identity)
    (localStreamMuxers : List ProtocolId) (env : ℕ → Answers) :
    Counted store (World.make store localIdentity localStreamMuxers env) :=
  fun _ => (UInt32.add_zero _).symm

/-- The counter counts the dialled connections, and does not overflow, exactly when a
    multiple of `2 ^ 32` accepted ones are counted with them. -/
theorem Counted.dialsCounted_iff {w : World} (h : Counted store w) (peer : PeerId) :
    DialsCounted store peer w ↔ 2 ^ 32 ∣ acceptsEstablished w peer ∧
      (store.dialSuccesses peer).toNat + dialsEstablished w peer < 2 ^ 32 := by
  have hcounter : (w.swarm.peerStore.dialSuccesses peer).toNat =
      ((store.dialSuccesses peer).toNat + establishedAs w peer) % 2 ^ 32 := by
    rw [h peer, UInt32.toNat_add, UInt32.toNat_ofNat', Nat.add_mod_mod]
  unfold DialsCounted
  rw [hcounter, establishedAs_eq]
  omega

/-- After every run of a swarm the counter of a peer has grown by the number of dialled
    connections that became established as the peer, if and only if no accepted ones did
    (or a multiple of `2 ^ 32`) and the sum fits the counter. -/
theorem dials_counted_iff (peerStore : PeerStore) (localIdentity : Option Identity)
    (localStreamMuxers : List ProtocolId) (env : ℕ → Answers) (calls : List SwarmCall)
    (peer : PeerId) :
    Runs.States (swarmStep S) (fun w => DialsCounted peerStore peer w ↔
        2 ^ 32 ∣ acceptsEstablished w peer ∧
          (peerStore.dialSuccesses peer).toNat + dialsEstablished w peer < 2 ^ 32)
      (World.make peerStore localIdentity localStreamMuxers env) calls := by
  have hrun := swarm_invariant (S := S) (P := Counted peerStore) (C := fun _ _ => True)
    (fun w w' _ h hdoes => h.does hdoes) (fun w w' h hdoes => h.does hdoes)
    (fun w h _ => h.stop) (World.make peerStore localIdentity localStreamMuxers env) calls
    (make_counted _ _ _ _) (make_settled _ _ _ _) (Runs.Steps.of_mem fun _ _ _ => trivial)
  exact hrun.mono fun w hw => hw.1.dialsCounted_iff peer

end Swarm

/-! ## An accepted connection is counted -/

/-- What the initiator of the toy primitives sends, message by message. -/
def toyRequests : List Bytes :=
  let i₁ := Connection.step Noise.Sodium.toy (Connection.toyOutbound ⟨[]⟩ []) .beginOutbound
  let r₁ := Connection.toyDeliver i₁ 0
    (Connection.step Noise.Sodium.toy (Connection.toyInbound []) .beginInbound)
  let i₂ := Connection.toyDeliver r₁ 0 i₁
  let r₂ := Connection.toyDeliver i₂ i₁.io.wireTx.length r₁
  let i₃ := Connection.toyDeliver r₂ r₁.io.wireTx.length i₂
  [i₁.io.wireTx, i₂.io.wireTx.drop i₁.io.wireTx.length, i₃.io.wireTx.drop i₂.io.wireTx.length]

/-- One connection is accepted, and then read three times. -/
def acceptEnv (clock : ℕ) : Answers where
  socket := .ok 4
  random := fun _ => ⟨List.Vector.replicate 32 3, List.Vector.replicate 32 4⟩
  accepts := [.accepted ⟨7, toyAddr⟩]
  ready := [{ fd := if clock < 15 then 4 else 7, input := true }]
  recv := [.data (toyRequests.getD (if clock < 24 then 0 else if clock < 33 then 1 else 2) [])]

/-- A peer dials the swarm and becomes established: it is counted as a successful dial. -/
theorem inbound_counted :
    let w := Runs.final (swarmStep Noise.Sodium.toy)
      (World.make [] (some Connection.toyIdentity) [] acceptEnv)
      [.listenOn toyAddr, .pollOnce, .pollOnce, .pollOnce, .pollOnce]
    w.swarm.established = [⟨1, false, none, some ⟨Noise.zero32⟩⟩] ∧
      w.swarm.peerStore.dialSuccesses ⟨Noise.zero32⟩ = 1 ∧
      ¬ DialsCounted [] ⟨Noise.zero32⟩ w := by
  intro w
  have hw : w.swarm.established = [⟨1, false, none, some ⟨Noise.zero32⟩⟩] ∧
      w.swarm.peerStore.dialSuccesses ⟨Noise.zero32⟩ = 1 := by
    decide +kernel
  obtain ⟨hestablished, hcounter⟩ := hw
  clear_value w
  refine ⟨hestablished, hcounter, ?_⟩
  unfold DialsCounted dialsEstablished
  rw [hestablished, hcounter]
  decide

end PeerCore
