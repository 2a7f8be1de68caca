import PeerCore.Connection.Steps

/-!
# Authentication of the dialled peer

An outbound session whose address names a peer id reaches `Ready` only with that
peer: `finish_secure_upgrade` is the one way past the handshake, and it compares the
identity that the handshake proved.

* `Checked`: the invariant of an outbound session that is not closed.
* `ready_authenticated`: the guarantee, over every run.
-/

namespace PeerCore.Connection

open BasicConnectionSession
open Noise (ProvesIdentity)

variable {S : Noise.Sodium}

/-- `addr` parses as `/ip4/…/tcp/…/p2p/…` and the last part is `expected`. -/
def Dials (addr : Multiaddr) (expected : PeerId) : Prop :=
  ∃ endpoint text, addr.parseIp4Tcp = .ok endpoint ∧ endpoint.peerId = some text ∧
    PeerId.fromString text = .ok expected

variable (S) in
/-- `noise` is what `process_msg2` made of `msg2`, up to the transport counters. -/
def FinishedBy (noise : Noise.NoiseSession) (msg2 : Bytes) : Prop :=
  ∃ before msg3 after, Noise.processMsg2 S msg2 before = (.ok msg3, after) ∧
    noise = { after with csSend := noise.csSend, csRecv := noise.csRecv }

variable (S) in
/-- The message that finished the handshake of `noise` proves its remote peer to be
    `peer`. -/
def Authenticated (noise : Noise.NoiseSession) (peer : PeerId) : Prop :=
  noise.remotePeerId = some peer ∧
    ∃ msg2, FinishedBy S noise msg2 ∧ ProvesIdentity S msg2 noise peer

variable (S) in
/-- The invariant of an outbound session. -/
structure Checked (expected : PeerId) (c : Core) : Prop where
  role : c.isInitiator = true
  dials : Dials c.remoteAddr expected
  ready : c.state = .ready → c.secure.stage = .ready
  secureReady : c.secure.secureReady = true → c.secure.stage = .ready
  waits : c.secure.handshakeState ≠ .awaitingMsg1 ∧ c.secure.handshakeState ≠ .awaitingMsg3
  complete : c.secure.stage = .noiseHandshake → c.secure.handshakeState = .complete →
    ∀ peer, c.secure.noise.remotePeerId = some peer → Authenticated S c.secure.noise peer
  authenticated : c.secure.stage = .muxerNegotiation ∨ c.secure.stage = .ready →
    Authenticated S c.secure.noise expected

theorem Authenticated.congr {noise noise' : Noise.NoiseSession} {peer : PeerId}
    (h : Authenticated S noise peer)
    (hsame : noise' = { noise with csSend := noise'.csSend, csRecv := noise'.csRecv }) :
    Authenticated S noise' peer := by
  obtain ⟨hsome, msg2, ⟨before, msg3, after, hprocess, hafter⟩, hproof⟩ := h
  refine ⟨?_, msg2, ⟨before, msg3, after, hprocess, ?_⟩, hproof.congr ?_ ?_⟩
  · rw [hsame]
    exact hsome
  · rw [hsame, hafter]
  · rw [hsame]
  · rw [hsame]

/-- The comparison in `validate_expected_remote_peer`. -/
theorem validate_ok {s : BasicConnectionSession} {expected : PeerId} (hrole : s.isInitiator = true)
    (hdials : Dials s.remoteAddr expected) (h : validateExpectedRemotePeer s = .ok ()) :
    s.secure.noise.remotePeerId = some expected := by
  obtain ⟨endpoint, text, hparse, htext, hpeer⟩ := hdials
  unfold validateExpectedRemotePeer at h
  rw [hrole, if_neg (by simp), hparse] at h
  simp only [htext] at h
  cases hremote : s.secure.noise.remotePeerId with
  | none => simp [hremote] at h
  | some remote =>
    simp only [hremote, hpeer] at h
    split_ifs at h with hsame
    rw [ne_eq, Decidable.not_not] at hsame
    rw [hsame]

namespace Checked

variable {expected : PeerId} {c c' : Core}

/-- A change that keeps the progress of the upgrade and what the handshake found. -/
theorem of_same (h : Checked S expected c) (hrole : c'.isInitiator = c.isInitiator)
    (haddr : c'.remoteAddr = c.remoteAddr) (hstate : c'.state = c.state)
    (hstage : c'.secure.stage = c.secure.stage)
    (hready : c'.secure.secureReady = c.secure.secureReady)
    (hwaits : c'.secure.handshakeState = c.secure.handshakeState)
    (hnoise : c'.secure.noise = { c.secure.noise with
      csSend := c'.secure.noise.csSend, csRecv := c'.secure.noise.csRecv }) :
    Checked S expected c' where
  role := hrole.trans h.role
  dials := by rw [haddr]; exact h.dials
  ready := by rw [hstate, hstage]; exact h.ready
  secureReady := by rw [hready, hstage]; exact h.secureReady
  waits := by rw [hwaits]; exact h.waits
  complete := by
    have hpeer : c'.secure.noise.remotePeerId = c.secure.noise.remotePeerId := by rw [hnoise]
    rw [hstage, hwaits, hpeer]
    exact fun hs hc peer hp => (h.complete hs hc peer hp).congr hnoise
  authenticated := by
    rw [hstage]
    exact fun hs => (h.authenticated hs).congr hnoise

theorem out (h : Checked S expected c) (hout : OutMoves S c c') : Checked S expected c' := by
  have hframe := hout.frame
  refine h.of_same hframe.isInitiator hframe.remoteAddr hframe.state hframe.stage
    hframe.secureReady hframe.handshakeState ?_
  rw [hframe.secure]

/-- The upgrade goes on before the transport keys are there. -/
theorem upgrade (h : Checked S expected c) (hrole : c'.isInitiator = c.isInitiator)
    (haddr : c'.remoteAddr = c.remoteAddr) (hstate : c'.state ≠ .ready)
    (hready : c'.secure.secureReady = false)
    (hstage : c'.secure.stage = .negotiatingProtocol ∨ c'.secure.stage = .noiseHandshake)
    (hwaits : c'.secure.handshakeState = .idle ∨ c'.secure.handshakeState = .awaitingMsg2) :
    Checked S expected c' where
  role := hrole.trans h.role
  dials := by rw [haddr]; exact h.dials
  ready := fun hs => absurd hs hstate
  secureReady := by rw [hready]; nofun
  waits := by rcases hwaits with hw | hw <;> rw [hw] <;> exact ⟨nofun, nofun⟩
  complete := fun _ hc => by rcases hwaits with hw | hw <;> rw [hw] at hc <;> cases hc
  authenticated := by
    rintro (hs | hs) <;> rcases hstage with hstage | hstage <;> rw [hstage] at hs <;> cases hs

theorem not_ready (h : Checked S expected c) (hstage : c.secure.stage ≠ .ready) :
    c.state ≠ .ready ∧ c.secure.secureReady = false :=
  ⟨fun hs => hstage (h.ready hs), Bool.eq_false_iff.mpr fun hs => hstage (h.secureReady hs)⟩

/-- The handshake ends. -/
theorem msg2 (h : Checked S expected c) {frame msg3 : Bytes} {noise : Noise.NoiseSession}
    {io : SessionIoState} {keyLogs : ℕ → Noise.KeyLog} (hwait : c.Handshaking .awaitingMsg2)
    (hprocess : Noise.processMsg2 S frame c.secure.noise = (.ok msg3, noise)) :
    Checked S expected
      { c with io, secure := { c.secure with noise, keyLogs, handshakeState := .complete } } where
  role := h.role
  dials := h.dials
  ready := fun hs => by
    have hstage := h.ready hs
    rw [hwait.stage] at hstage
    cases hstage
  secureReady := h.secureReady
  waits := ⟨nofun, nofun⟩
  complete := fun _ _ peer hpeer => ⟨hpeer, frame, ⟨_, _, noise, hprocess, rfl⟩,
    Noise.processMsg2_proves hprocess hpeer⟩
  authenticated := by
    have hstage : c.secure.stage = .noiseHandshake := hwait.stage
    rintro (hs | hs) <;> rw [hstage] at hs <;> cases hs

/-- The comparison with the dialled peer, which every way out of the handshake passes. -/
theorem finish (h : Checked S expected c) (hfinish : c.Finishing) :
    Authenticated S c.secure.noise expected := by
  obtain ⟨s, rfl, hvalid⟩ := hfinish.validated
  exact h.complete hfinish.stage hfinish.handshakeState expected
    (validate_ok h.role h.dials hvalid)

/-- Past the handshake. -/
theorem past (h : Checked S expected c) (hrole : c'.isInitiator = c.isInitiator)
    (haddr : c'.remoteAddr = c.remoteAddr)
    (hwaits : c'.secure.handshakeState = c.secure.handshakeState)
    (hready : c'.secure.stage = .ready ∨ c'.secure.stage = .muxerNegotiation ∧
      c'.state ≠ .ready ∧ c'.secure.secureReady = false)
    (hauth : Authenticated S c'.secure.noise expected) : Checked S expected c' where
  role := hrole.trans h.role
  dials := by rw [haddr]; exact h.dials
  ready := fun hs => by
    rcases hready with hr | ⟨-, hr, -⟩
    · exact hr
    · exact absurd hs hr
  secureReady := fun hs => by
    rcases hready with hr | ⟨-, -, hr⟩
    · exact hr
    · rw [hr] at hs
      cases hs
  waits := by rw [hwaits]; exact h.waits
  complete := fun hs => by
    rcases hready with hr | ⟨hr, -⟩ <;> rw [hr] at hs <;> cases hs
  authenticated := fun _ => hauth

theorem sealMessage (h : Checked S expected c) {data ciphertext : Bytes} {io : SessionIoState}
    {secure : SecureChannelState}
    (hseal : Connection.sealMessage S data c.secure = (.ok ciphertext, secure)) :
    Checked S expected { c with secure, io } := by
  obtain ⟨-, -, -, rfl⟩ := sealMessage_ok hseal
  exact h.of_same rfl rfl rfl rfl rfl rfl rfl

theorem openMessage (h : Checked S expected c) {frame plaintext wireRx buffer : Bytes}
    {secure : SecureChannelState}
    (hopen : Connection.openMessage S frame c.secure = (.ok plaintext, secure)) :
    Checked S expected { c.setRx wireRx with secure, muxerNegotiationBuffer := buffer } := by
  obtain ⟨-, -, -, rfl⟩ := openMessage_ok hopen
  exact h.of_same rfl rfl rfl rfl rfl rfl rfl

theorem exchanged (h : Checked S expected c) (hexchange : c.Exchanging) (muxer : Option ProtocolId)
    (span : ℕ) : Checked S expected ((c.adopt muxer).dropExchange span).complete := by
  have hauth := h.authenticated (.inl hexchange.stage)
  cases muxer <;> exact h.past rfl rfl rfl (.inl rfl) (hauth.congr rfl)

theorem begin (h : Checked S expected c) (hbegin : Begin c c') : Checked S expected c' := by
  cases hbegin with
  | outbound proposal hactive hsecure =>
    exact h.upgrade rfl rfl nofun hsecure (.inl rfl) (.inl rfl)
  | inbound hactive hsecure hrole =>
    exact h.upgrade rfl rfl nofun hsecure (.inl rfl) (.inl rfl)

/-- Every move keeps the invariant, or ends with a closed session. -/
theorem move (h : Checked S expected c) (hmove : Move S c c') :
    c'.state = .closed ∨ Checked S expected c' := by
  cases hmove with
  | close | acceptNoiseFail | fail | finishFail | openFail | muxerInboundFail | muxerInboundLost =>
    exact .inl rfl
  | out hout => exact .inr (h.out hout.single)
  | socket | recv | closeSocket =>
    exact .inr (h.of_same rfl rfl rfl rfl rfl rfl rfl)
  | startNoise _ _ _ _ hstage =>
    obtain ⟨hstate, hready⟩ := h.not_ready (by rw [hstage]; nofun)
    exact .inr (h.upgrade rfl rfl hstate hready (.inr rfl) (.inr rfl))
  | acceptNoise _ _ _ _ _ hrole =>
    rw [h.role] at hrole
    cases hrole
  | msg1 _ _ _ _ _ hwait => exact absurd hwait.handshakeState h.waits.1
  | msg2 _ _ _ _ _ hwait _ hprocess => exact .inr (h.msg2 hwait hprocess)
  | msg3 _ _ _ hwait => exact absurd hwait.handshakeState h.waits.2
  | finishYamux hfinish | finishDirect hfinish =>
    exact .inr (h.past rfl rfl rfl (.inl rfl) ((h.finish hfinish).congr rfl))
  | finishInbound hfinish _ _ hrole =>
    rw [h.role] at hrole
    cases hrole
  | finishOutbound _ _ _ _ hfinish _ _ _ _ hseal =>
    obtain ⟨hstate, hready⟩ := h.not_ready (by rw [hfinish.stage]; nofun)
    have hselected : Checked S expected { c with secure := c.secure.select .muxerNegotiation } :=
      h.past rfl rfl rfl (.inr ⟨rfl, hstate, hready⟩) ((h.finish hfinish).congr rfl)
    exact .inr (hselected.sealMessage hseal)
  | openMuxer _ _ _ _ _ _ hopen => exact .inr (h.openMessage hopen)
  | openData _ _ _ _ _ _ _ hopen => exact .inr (h.openMessage hopen)
  | muxerOutbound _ _ hexchange => exact .inr (h.exchanged hexchange _ _)
  | muxerInbound _ _ _ _ _ _ _ hrole =>
    rw [h.role] at hrole
    cases hrole

end Checked

/-- A closed session stays closed. -/
theorem Move.closed {c c' : Core} (h : Move S c c') (hclosed : c.state = .closed) :
    c'.state = .closed := by
  have hinactive : ¬ c.Active := fun hactive => hactive.2.1 hclosed
  cases h with
  | out hout => exact hout.frame.state.trans hclosed
  | socket | closeSocket => exact hclosed
  | close | acceptNoiseFail | fail | finishFail | openFail | muxerInboundFail | muxerInboundLost => rfl
  | recv _ hactive => exact absurd hactive hinactive
  | startNoise _ _ _ hactive => exact absurd hactive hinactive
  | acceptNoise _ _ _ hactive => exact absurd hactive hinactive
  | msg1 _ _ _ _ _ hwait => exact absurd hwait.active hinactive
  | msg2 _ _ _ _ _ hwait => exact absurd hwait.active hinactive
  | msg3 _ _ _ hwait => exact absurd hwait.active hinactive
  | finishYamux hfinish => exact absurd hfinish.active hinactive
  | finishDirect hfinish => exact absurd hfinish.active hinactive
  | finishInbound hfinish => exact absurd hfinish.active hinactive
  | finishOutbound _ _ _ _ hfinish => exact absurd hfinish.active hinactive
  | openMuxer _ _ _ _ hexchange => exact absurd hexchange.active hinactive
  | openData _ _ _ _ hactive => exact absurd hactive hinactive
  | muxerOutbound _ _ hexchange => exact absurd hexchange.active hinactive
  | muxerInbound _ _ _ _ _ _ hexchange => exact absurd hexchange.active hinactive

theorem make_checked {addr : Multiaddr} {expected : PeerId} (hdials : Dials addr expected)
    (id : ConnectionId) (fd : ℤ) (identity : Option Identity) (streamMuxers : List ProtocolId)
    (random : ℕ → Noise.Entropy) :
    Checked S expected (make id fd addr true identity streamMuxers random).core where
  role := rfl
  dials := hdials
  ready := nofun
  secureReady := nofun
  waits := ⟨nofun, nofun⟩
  complete := nofun
  authenticated := by rintro (h | h) <;> cases h

/-- In every run of an outbound session that dials `expected`, with whatever bytes its
    socket yields and whatever calls its owner makes: a session in state `Ready` has
    `expected` as its remote peer, and a message of its handshake proves it. -/
theorem ready_authenticated {addr : Multiaddr} {expected : PeerId} (hdials : Dials addr expected)
    (id : ConnectionId) (fd : ℤ) (identity : Option Identity) (streamMuxers : List ProtocolId)
    (random : ℕ → Noise.Entropy) {t : BasicConnectionSession}
    (hrun : Runs S (fun _ _ => True) (make id fd addr true identity streamMuxers random) t)
    (hready : t.state = .ready) :
    t.remotePeer = some expected ∧
      ∃ msg2, FinishedBy S t.secure.noise msg2 ∧ ProvesIdentity S msg2 t.secure.noise expected := by
  have hinvariant : t.core.state = .closed ∨ Checked S expected t.core := by
    refine hrun.core_invariant (P := fun c => c.state = .closed ∨ Checked S expected c) ?_ ?_ (.inr (make_checked hdials id fd identity streamMuxers random))
    · rintro c c' (hclosed | hc) hmove
      · exact .inl (hmove.closed hclosed)
      · exact hc.move hmove
    · rintro c c' (hclosed | hc) hbegin
      · exact absurd hclosed hbegin.guard.1.2.1
      · exact .inr (hc.begin hbegin)
  rcases hinvariant with hclosed | hc
  · have hstate : t.state = .closed := hclosed
    rw [hready] at hstate
    cases hstate
  · exact hc.authenticated (.inr (hc.ready hready))

/-! ## Two sessions of the toy primitives -/

/-- The identity with the all-zero key. -/
def toyIdentity : Identity := ⟨⟨Noise.zero32⟩, List.Vector.replicate 64 0⟩

/-- A session that dials `addr`, with the toy identity. -/
def toyOutbound (addr : Multiaddr) (streamMuxers : List ProtocolId) : BasicConnectionSession :=
  make 1 3 addr true (some toyIdentity) streamMuxers fun _ =>
    ⟨List.Vector.replicate 32 1, List.Vector.replicate 32 2⟩

/-- A session that listens, with the toy identity. -/
def toyInbound (streamMuxers : List ProtocolId) : BasicConnectionSession :=
  make 2 4 ⟨[]⟩ false (some toyIdentity) streamMuxers fun _ =>
    ⟨List.Vector.replicate 32 3, List.Vector.replicate 32 4⟩

/-- `receiver` reads what `sender` has queued behind the first `skip` bytes. -/
def toyDeliver (sender : BasicConnectionSession) (skip : ℕ) (receiver : BasicConnectionSession) :
    BasicConnectionSession :=
  step Noise.Sodium.toy receiver (.readable [.data (sender.io.wireTx.drop skip)])

/-- The responder has sent msg2. -/
def toyUpgrade (i r : BasicConnectionSession) : BasicConnectionSession × BasicConnectionSession :=
  let i₁ := step Noise.Sodium.toy i .beginOutbound
  let r₁ := toyDeliver i₁ 0 (step Noise.Sodium.toy r .beginInbound)
  let i₂ := toyDeliver r₁ 0 i₁
  let r₂ := toyDeliver i₂ i₁.io.wireTx.length r₁
  (toyDeliver r₂ r₁.io.wireTx.length i₂, r₂)

/-- The responder of the toy primitives, when its direct stream waits. -/
def toyServed : BasicConnectionSession :=
  let i₁ := Connection.step Noise.Sodium.toy (toyOutbound ⟨[]⟩ []) .beginOutbound
  let r₁ := toyDeliver i₁ 0 (Connection.step Noise.Sodium.toy (toyInbound []) .beginInbound)
  let i₂ := toyDeliver r₁ 0 i₁
  let r₂ := toyDeliver i₂ i₁.io.wireTx.length r₁
  toyDeliver (toyDeliver r₂ r₁.io.wireTx.length i₂) i₂.io.wireTx.length r₂

theorem toyUpgrade_runs (i r : BasicConnectionSession) :
    Runs Noise.Sodium.toy (fun _ _ => True) i (toyUpgrade i r).1 := by
  unfold toyUpgrade
  extract_lets i₁ r₁ i₂ r₂
  have h₁ : Runs Noise.Sodium.toy (fun _ _ => True) i i₁ := .step .refl .beginOutbound trivial
  have h₂ : Runs Noise.Sodium.toy (fun _ _ => True) i i₂ :=
    .step h₁ (.readable [.data (r₁.io.wireTx.drop 0)]) trivial
  exact .step h₂ (.readable [.data (r₂.io.wireTx.drop r₁.io.wireTx.length)]) trivial

theorem ready_authenticated_toy :
    let t := (toyUpgrade (toyOutbound
      ⟨ascii "/ip4/127.0.0.1/tcp/1/p2p/12D3KooW9pNAk8aiBuGVQtWRdbkLmo5qVL3e2h5UxbN2Nz9ttwiw"⟩ [])
      (toyInbound [])).1
    t.state = .ready ∧ t.remotePeer = some ⟨Noise.zero32⟩ ∧
      ∃ msg2, FinishedBy Noise.Sodium.toy t.secure.noise msg2 ∧
        ProvesIdentity Noise.Sodium.toy msg2 t.secure.noise ⟨Noise.zero32⟩ := by
  intro t
  have hready : t.state = .ready := by decide +kernel
  have hdials : Dials
      ⟨ascii "/ip4/127.0.0.1/tcp/1/p2p/12D3KooW9pNAk8aiBuGVQtWRdbkLmo5qVL3e2h5UxbN2Nz9ttwiw"⟩
      ⟨Noise.zero32⟩ :=
    ⟨⟨ascii "127.0.0.1", 1, some (ascii "12D3KooW9pNAk8aiBuGVQtWRdbkLmo5qVL3e2h5UxbN2Nz9ttwiw")⟩, _,
      by decide +kernel, rfl, by decide +kernel⟩
  exact ⟨hready, ready_authenticated hdials 1 3 (some toyIdentity) [] _ (toyUpgrade_runs _ _) hready⟩

end PeerCore.Connection
