import PeerCore.Lib.NumberedLog
import PeerCore.Connection.Authentication

/-!
# Authenticity of the transport

Two sessions with matching transport keys run against an adversary who decides every
byte that either of them receives. With an ideal AEAD the plaintexts a session
decrypts are a prefix of those the other one encrypted.

* `Keyed`: a session that uses one pair of transport keys, and whose counters are
  the lengths of its logs. `Keyed.move`: every move keeps it.
* `authentic_stream`: the guarantee.
-/

namespace PeerCore.Connection

open BasicConnectionSession

variable {S : Noise.Sodium}

/-! ## The statement -/

/-- The plaintexts of the successful `decrypt` calls. -/
def BasicConnectionSession.decrypted (s : BasicConnectionSession) : List Bytes :=
  s.secure.opened.filterMap (·.plaintext)

/-- The plaintexts passed to `encrypt`. -/
def BasicConnectionSession.encrypted (s : BasicConnectionSession) : List Bytes :=
  s.secure.sealed.map (·.plaintext)

/-- An ideal AEAD: a message decrypts to `p` under a key and a nonce only when one of
    the two sessions made it by encrypting `p` under the same key and nonce. -/
def Ideal (a b : BasicConnectionSession) : Prop :=
  ∀ r ∈ a.secure.opened ++ b.secure.opened, ∀ p, r.plaintext = some p →
    (⟨r.key, r.nonce, p, r.ciphertext⟩ : SealRecord) ∈ a.secure.sealed ++ b.secure.sealed

/-- A frame that failed to decrypt is the last one ever decrypted, and the session is
    closed. -/
def StopsAtFailure (s : BasicConnectionSession) : Prop :=
  ∀ before r after, s.secure.opened = before ++ r :: after → r.plaintext = none →
    after = [] ∧ s.state = .closed

/-- Everything but an upgrade call that would start another handshake. -/
def NoRestart (s : BasicConnectionSession) (a : Action) : Prop :=
  a.isBegin = true → s.secure.secureReady = true ∨ s.isActive = false

/-! ## The invariant -/

/-- A session with the transport keys `send` and `recv`. -/
structure Keyed (send recv : Bytes32) (c : Core) : Prop where
  stage : c.secure.stage = .muxerNegotiation ∧ c.secure.secureReady = false ∨
    c.secure.stage = .ready ∧ c.secure.secureReady = true
  sendKey : c.secure.noise.csSend.key = send
  recvKey : c.secure.noise.csRecv.key = recv
  sealedKey : ∀ r ∈ c.secure.sealed, r.key = send
  openedKey : ∀ r ∈ c.secure.opened, r.key = recv
  sealedNonce : Numbered (·.nonce.toNat) c.secure.sealed
  openedNonce : Numbered (·.nonce.toNat) c.secure.opened
  sendNonce : c.secure.noise.csSend.nonce.toNat = c.secure.sealed.length
  recvCount : c.secure.noise.csRecv.nonce.toNat = c.secure.opened.countP (·.plaintext.isSome)
  /-- A frame that fails to decrypt closes the session. -/
  openWhole : c.state ≠ .closed → ∀ r ∈ c.secure.opened, r.plaintext ≠ none
  failLast : ∀ r ∈ c.secure.opened.dropLast, r.plaintext ≠ none

/-- The receiving counter, until a frame fails to decrypt. -/
theorem Keyed.recvNonce_of {send recv : Bytes32} {c : Core} (h : Keyed send recv c)
    (hwhole : ∀ r ∈ c.secure.opened, r.plaintext ≠ none) :
    c.secure.noise.csRecv.nonce.toNat = c.secure.opened.length := by
  rw [h.recvCount, List.countP_eq_length]
  intro r hr
  exact Option.isSome_iff_ne_none.mpr (hwhole r hr)

theorem Keyed.recvNonce {send recv : Bytes32} {c : Core} (h : Keyed send recv c)
    (hopen : c.state ≠ .closed) :
    c.secure.noise.csRecv.nonce.toNat = c.secure.opened.length ∧
      ∀ r ∈ c.secure.opened, r.plaintext ≠ none :=
  ⟨h.recvNonce_of (h.openWhole hopen), h.openWhole hopen⟩

/-- Whether the channel of `c` is past the handshake. -/
theorem Keyed.stage_ne {send recv : Bytes32} {c : Core} (h : Keyed send recv c) :
    c.secure.stage ≠ .negotiatingProtocol ∧ c.secure.stage ≠ .noiseHandshake := by
  rcases h.stage with ⟨hstage, -⟩ | ⟨hstage, -⟩ <;> rw [hstage] <;> exact ⟨nofun, nofun⟩

theorem toNat_succ {n : UInt64} (h : n.toNat ≠ 2 ^ 64 - 1) : (n + 1).toNat = n.toNat + 1 := by
  have := n.toNat_lt
  rw [UInt64.toNat_add]
  simp only [UInt64.reduceToNat]
  omega

/-- A change of the socket, of the state, and of what the exchange decides. -/
theorem Keyed.of_secure {send recv : Bytes32} {c c' : Core} (h : Keyed send recv c)
    (hstage : c'.secure.stage = .muxerNegotiation ∧ c'.secure.secureReady = false ∨
      c'.secure.stage = .ready ∧ c'.secure.secureReady = true)
    (hnoise : c'.secure.noise = c.secure.noise) (hsealed : c'.secure.sealed = c.secure.sealed)
    (hopened : c'.secure.opened = c.secure.opened)
    (hstate : c'.state ≠ .closed → c.state ≠ .closed) : Keyed send recv c' where
  stage := hstage
  sendKey := by rw [hnoise]; exact h.sendKey
  recvKey := by rw [hnoise]; exact h.recvKey
  sealedKey := by rw [hsealed]; exact h.sealedKey
  openedKey := by rw [hopened]; exact h.openedKey
  sealedNonce := by rw [hsealed]; exact h.sealedNonce
  openedNonce := by rw [hopened]; exact h.openedNonce
  sendNonce := by rw [hnoise, hsealed]; exact h.sendNonce
  recvCount := by rw [hnoise, hopened]; exact h.recvCount
  openWhole := fun hc => by rw [hopened]; exact h.openWhole (hstate hc)
  failLast := by rw [hopened]; exact h.failLast

theorem Keyed.sealMessage {send recv : Bytes32} {c : Core} {io : SessionIoState}
    {data ciphertext : Bytes} {secure : SecureChannelState} (h : Keyed send recv c)
    (hseal : sealMessage S data c.secure = (.ok ciphertext, secure)) :
    Keyed send recv { c with secure, io } := by
  obtain ⟨-, hnonce, -, rfl⟩ := sealMessage_ok hseal
  refine ⟨h.stage, h.sendKey, h.recvKey, ?_, h.openedKey, ?_, h.openedNonce, ?_, h.recvCount,
    h.openWhole, h.failLast⟩
  · intro r hr
    rcases List.mem_append.mp hr with hr | hr
    · exact h.sealedKey r hr
    · rw [List.mem_singleton.mp hr]
      exact h.sendKey
  · exact h.sealedNonce.concat h.sendNonce
  · simp only [List.length_append, List.length_singleton]
    rw [toNat_succ hnonce, h.sendNonce]

theorem Keyed.openMessage {send recv : Bytes32} {c : Core} {wireRx buffer frame plaintext : Bytes}
    {secure : SecureChannelState} (h : Keyed send recv c) (hactive : c.Active)
    (hopen : openMessage S frame c.secure = (.ok plaintext, secure)) :
    Keyed send recv { c.setRx wireRx with secure, muxerNegotiationBuffer := buffer } := by
  obtain ⟨-, hnonce, -, rfl⟩ := openMessage_ok hopen
  obtain ⟨hrecv, hclean⟩ := h.recvNonce hactive.2.1
  have hclean' : ∀ r ∈ c.secure.opened ++ [(⟨c.secure.noise.csRecv.key, c.secure.noise.csRecv.nonce,
      frame, some plaintext⟩ : OpenRecord)], r.plaintext ≠ none := by
    intro r hr
    rcases List.mem_append.mp hr with hr | hr
    · exact hclean r hr
    · rw [List.mem_singleton.mp hr]
      exact nofun
  refine ⟨h.stage, h.sendKey, h.recvKey, h.sealedKey, ?_, h.sealedNonce, ?_, h.sendNonce, ?_,
    fun _ => hclean', fun r hr => hclean' r (List.dropLast_subset _ hr)⟩
  · intro r hr
    rcases List.mem_append.mp hr with hr | hr
    · exact h.openedKey r hr
    · rw [List.mem_singleton.mp hr]
      exact h.recvKey
  · exact h.openedNonce.concat hrecv
  · show (c.secure.noise.csRecv.nonce + 1).toNat = (c.secure.opened ++ [_]).countP _
    rw [toNat_succ hnonce, h.recvCount, List.countP_append]
    rfl

theorem Keyed.openFail {send recv : Bytes32} {c : Core} {wireRx frame : Bytes} {error : String}
    {secure : SecureChannelState} (h : Keyed send recv c) (hactive : c.Active)
    (hopen : Connection.openMessage S frame c.secure = (.error error, secure)) :
    Keyed send recv { c.setRx wireRx with secure }.shut := by
  obtain ⟨hrecv, hclean⟩ := h.recvNonce hactive.2.1
  rw [openMessage_error hopen]
  refine ⟨h.stage, h.sendKey, h.recvKey, h.sealedKey, ?_, h.sealedNonce, ?_, h.sendNonce, ?_,
    fun hc => absurd rfl hc, ?_⟩
  · intro r hr
    rcases List.mem_append.mp hr with hr | hr
    · exact h.openedKey r hr
    · rw [List.mem_singleton.mp hr]
      exact h.recvKey
  · exact h.openedNonce.concat hrecv
  · show c.secure.noise.csRecv.nonce.toNat = (c.secure.opened ++ [_]).countP _
    rw [h.recvCount, List.countP_append]
    rfl
  · intro r hr
    simp only [Core.shut, Core.setRx, List.dropLast_concat] at hr
    exact hclean r hr

theorem Keyed.outMove {send recv : Bytes32} {c c' : Core} (h : Keyed send recv c)
    (hmove : OutMove S c c') : Keyed send recv c' := by
  cases hmove with
  | answers => exact h.of_secure h.stage rfl rfl rfl id
  | accept => exact h.of_secure h.stage rfl rfl rfl id
  | shutdown => exact h.of_secure h.stage rfl rfl rfl id
  | sealFramed _ _ _ _ _ hseal => exact h.sealMessage hseal
  | sealLost _ _ _ _ _ hseal => exact h.sealMessage hseal

theorem Keyed.outMoves {send recv : Bytes32} {c c' : Core} (h : Keyed send recv c)
    (hmoves : OutMoves S c c') : Keyed send recv c' := by
  induction hmoves with
  | refl => exact h
  | tail _ hstep ih => exact ih.outMove hstep

/-- The end of the exchange. -/
theorem Keyed.complete {send recv : Bytes32} {c : Core} (h : Keyed send recv c)
    (hactive : c.Active) (muxer : Option ProtocolId) (span : ℕ) :
    Keyed send recv ((c.adopt muxer).dropExchange span).complete := by
  cases muxer <;> exact h.of_secure (.inr ⟨rfl, rfl⟩) rfl rfl rfl fun _ => hactive.2.1

theorem Keyed.shut {send recv : Bytes32} {c : Core} (h : Keyed send recv c) :
    Keyed send recv c.shut :=
  h.of_secure h.stage rfl rfl rfl fun hc => absurd rfl hc

theorem Keyed.move {send recv : Bytes32} {c c' : Core} (h : Keyed send recv c)
    (hmove : Move S c c') : Keyed send recv c' := by
  have hstage := h.stage_ne
  cases hmove with
  | out hout => exact h.outMove hout
  | socket | recv | closeSocket => exact h.of_secure h.stage rfl rfl rfl id
  | close => exact h.shut
  | startNoise _ _ _ _ hneg => exact absurd hneg hstage.1
  | acceptNoise _ _ _ _ hneg => exact absurd hneg hstage.1
  | acceptNoiseFail _ _ _ hneg => exact absurd hneg hstage.1
  | msg1 _ _ _ _ _ hwait => exact absurd hwait.stage hstage.2
  | msg2 _ _ _ _ _ hwait => exact absurd hwait.stage hstage.2
  | msg3 _ _ _ hwait => exact absurd hwait.stage hstage.2
  | fail _ _ _ hneg => exact absurd hneg (not_or.mpr hstage)
  | finishYamux hfinish => exact absurd hfinish.stage hstage.2
  | finishDirect hfinish => exact absurd hfinish.stage hstage.2
  | finishInbound hfinish => exact absurd hfinish.stage hstage.2
  | finishOutbound _ _ _ _ hfinish => exact absurd hfinish.stage hstage.2
  | finishFail _ _ hfinish => exact absurd hfinish.stage hstage.2
  | openMuxer _ _ _ _ hexchange _ hopen => exact h.openMessage hexchange.active hopen
  | openData _ _ _ _ hactive _ _ hopen => exact h.openMessage hactive hopen
  | openFail _ _ _ _ hactive _ _ hopen => exact h.openFail hactive hopen
  | muxerOutbound _ _ hexchange => exact h.complete hexchange.active _ _
  | muxerInbound _ _ _ _ _ _ hexchange _ _ _ hseal _ hout =>
    exact ((h.sealMessage hseal).outMoves hout).complete (hout.frame.active hexchange.active) _ _
  | muxerInboundFail _ _ _ _ _ _ _ hseal hout => exact ((h.sealMessage hseal).outMoves hout).shut
  | muxerInboundLost _ _ _ _ _ hseal => exact (h.sealMessage hseal).shut

/-- A property of the core that every move keeps. -/
theorem Runs.noRestart_invariant {P : Core → Prop} {s t : BasicConnectionSession}
    (hrun : Runs S NoRestart s t) (hmove : ∀ c c', P c → Move S c c' → P c') (hs : P s.core) :
    P t.core := by
  refine hrun.invariant (P := fun s => P s.core) hs fun s a hs ha => ?_
  cases hkind : a.isBegin with
  | false => exact (step_moves s hkind).invariant hmove hs
  | true =>
    rcases step_begin (S := S) s hkind with hsame | ⟨c, hstart, -⟩
    · rw [hsame]
      exact hs
    · rcases ha hkind with hready | hinactive
      · exact absurd hready (Bool.eq_false_iff.mp hstart.guard.2)
      · rw [(isActive_iff s).mpr hstart.guard.1] at hinactive
        cases hinactive

theorem Keyed.run {send recv : Bytes32} {s t : BasicConnectionSession} (h : Keyed send recv s.core)
    (hrun : Runs S NoRestart s t) : Keyed send recv t.core :=
  hrun.noRestart_invariant (P := Keyed send recv) (fun _ _ hc hm => hc.move hm) h

theorem Keyed.stopsAtFailure {send recv : Bytes32} {s : BasicConnectionSession}
    (h : Keyed send recv s.core) : StopsAtFailure s := by
  intro before r after hopened hfail
  have hlast : after = [] := by
    by_contra hne
    refine h.failLast r ?_ hfail
    change r ∈ s.secure.opened.dropLast
    rw [hopened, List.dropLast_append_of_ne_nil (by simp), List.dropLast_cons_of_ne_nil hne]
    simp
  refine ⟨hlast, ?_⟩
  by_contra hopen
  refine (h.recvNonce hopen).2 r ?_ hfail
  change r ∈ s.secure.opened
  rw [hopened]
  simp

/-- One direction: with an ideal AEAD, what `b` decrypts is a prefix of what `a`
    encrypts. -/
theorem Keyed.decrypted_isPrefix {ab ba : Bytes32} {a b : BasicConnectionSession}
    (ha : Keyed ab ba a.core) (hb : Keyed ba ab b.core) (hdiffer : ab ≠ ba)
    (hideal : ∀ r ∈ b.secure.opened, ∀ p, r.plaintext = some p →
      (⟨r.key, r.nonce, p, r.ciphertext⟩ : SealRecord) ∈ a.secure.sealed ++ b.secure.sealed) :
    b.decrypted <+: a.encrypted := by
  refine filterMap_isPrefix hb.failLast fun i r p hr hp => ?_
  have hmem := List.mem_of_getElem? hr
  have hsealed : (⟨r.key, r.nonce, p, r.ciphertext⟩ : SealRecord) ∈ a.secure.sealed := by
    rcases List.mem_append.mp (hideal r hmem p hp) with hs | hs
    · exact hs
    · -- the keys of the two directions differ
      have hown := hb.sealedKey _ hs
      rw [hb.openedKey r hmem] at hown
      exact absurd hown hdiffer
  have hat := ha.sealedNonce.getElem?_of_mem hsealed
  have hnonce : r.nonce.toNat = i := hb.openedNonce i r hr
  unfold encrypted
  rw [List.getElem?_map, ← hnonce]
  exact congrArg (Option.map (·.plaintext)) hat

/-- For two sessions with matching transport keys that differ per direction, and any
    runs of them, which include all orders in which they can be interleaved and all
    answers an adversary can make `recv` give: what either session decrypts is a prefix
    of what the other one encrypts, and a frame that fails to decrypt closes it. -/
theorem authentic_stream {ab ba : Bytes32} {a₀ b₀ a b : BasicConnectionSession}
    (ha₀ : Keyed ab ba a₀.core) (hb₀ : Keyed ba ab b₀.core) (hdiffer : ab ≠ ba)
    (hruna : Runs S NoRestart a₀ a) (hrunb : Runs S NoRestart b₀ b) (hideal : Ideal a b) :
    a.decrypted <+: b.encrypted ∧ b.decrypted <+: a.encrypted ∧ StopsAtFailure a ∧
      StopsAtFailure b := by
  have ha := ha₀.run hruna
  have hb := hb₀.run hrunb
  refine ⟨hb.decrypted_isPrefix ha hdiffer.symm fun r hr p hp => ?_,
    ha.decrypted_isPrefix hb hdiffer fun r hr p hp => ?_, ha.stopsAtFailure, hb.stopsAtFailure⟩
  · exact List.mem_append.mpr (List.mem_append.mp
      (hideal r (List.mem_append_left _ hr) p hp)).symm
  · exact hideal r (List.mem_append_right _ hr) p hp

/-- A session of the toy primitives with the transport keys `send` and `recv`. -/
def toyKeyed (isInitiator : Bool) (send recv : Bytes32) : BasicConnectionSession :=
  let s := make 1 3 ⟨[]⟩ isInitiator none [] fun _ => ⟨Noise.zero32, Noise.zero32⟩
  { s with
    state := .ready
    secure := { s.secure with
      stage := .ready, handshakeState := .complete, secureReady := true
      noise := { s.secure.noise with csSend := ⟨send, 0, true⟩, csRecv := ⟨recv, 0, true⟩ } } }

theorem toyKeyed_keyed (isInitiator : Bool) (send recv : Bytes32) :
    Keyed send recv (toyKeyed isInitiator send recv).core where
  stage := .inr ⟨rfl, rfl⟩
  sendKey := rfl
  recvKey := rfl
  sealedKey := nofun
  openedKey := nofun
  sealedNonce := Numbered.nil
  openedNonce := Numbered.nil
  sendNonce := rfl
  recvCount := rfl
  openWhole := fun _ => nofun
  failLast := nofun

/-- One message and a forged frame behind it. -/
theorem authentic_stream_forged :
    let ab := List.Vector.replicate 32 1
    let ba := List.Vector.replicate 32 2
    let a := step Noise.Sodium.toy (toyKeyed true ab ba) (.tryWrite (.direct 0) [7, 8])
    let b := step Noise.Sodium.toy (toyKeyed false ba ab)
      (.readable [.data (a.io.wireTx ++ [0, 1, 9])])
    b.decrypted = [[7, 8]] ∧ b.state = .closed ∧ a.decrypted <+: b.encrypted ∧
      b.decrypted <+: a.encrypted ∧ StopsAtFailure a ∧ StopsAtFailure b := by
  refine ⟨by decide +kernel, by decide +kernel, ?_⟩
  exact authentic_stream (toyKeyed_keyed true _ _) (toyKeyed_keyed false _ _) (by decide)
    (.step .refl _ nofun) (.step .refl _ nofun) (by unfold Ideal; decide +kernel)

end PeerCore.Connection
