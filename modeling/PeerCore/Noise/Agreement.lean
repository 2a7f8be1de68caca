import PeerCore.Noise.Handshake

/-!
# Two honest parties agree

The handshake between two parties that run `noise.cpp` over a faithful link.

The symmetric state (`handshakeHash`, `chainingKey`, `handshakeCipher`) is the
part of a `NoiseSession` that both sides must keep equal. `mixHashSym`,
`mixKeySym` and `sealSym` are the three operations on it; under
`Sodium.Correct` the functions of the source are these operations
(`mixHash_eq`, `mixKeyDh_eq`, `encryptAndHash_eq`), and decryption follows
encryption (`decryptAndHash_seal`). `Transcript` fixes the two parties' keys and
payloads and names every message and every intermediate state.

* `writeMsg1_honest`, `processMsg1_honest`, `processMsg2_honest`,
  `processMsg3_honest`: each call on the transcript's message.
* `handshake_agreement`: the whole handshake, for all keys, identities and
  muxer lists.
-/

namespace PeerCore.Noise

open NoiseSession

/-! ## The symmetric state -/

/-- Handshake hash, chaining key and handshake cipher. -/
abbrev Symmetric := Bytes32 × Bytes32 × CipherState

/-- The symmetric state of a session. -/
def NoiseSession.symmetric (s : NoiseSession) : Symmetric :=
  (s.handshakeHash, s.chainingKey, s.handshakeCipher)

/-- The symmetric state is replaced. -/
def NoiseSession.withSymmetric (s : NoiseSession) (σ : Symmetric) : NoiseSession :=
  { s with handshakeHash := σ.1, chainingKey := σ.2.1, handshakeCipher := σ.2.2 }

@[simp] theorem symmetric_withSymmetric (s : NoiseSession) (σ : Symmetric) :
    (s.withSymmetric σ).symmetric = σ := rfl

@[simp] theorem withSymmetric_withSymmetric (s : NoiseSession) (σ τ : Symmetric) :
    (s.withSymmetric σ).withSymmetric τ = s.withSymmetric τ := rfl

/-- `mix_hash` on the symmetric state. -/
def mixHashSym (S : Sodium) (data : Bytes) (σ : Symmetric) : Symmetric :=
  (S.sha256 (σ.1.toList ++ data), σ.2)

/-- `mix_key` on the symmetric state. -/
def mixKeySym (S : Sodium) (input : Bytes) (σ : Symmetric) : Symmetric :=
  match hkdf2 S σ.2.1 input with
  | .ok derived => (σ.1, derived.1, ⟨derived.2, 0, true⟩)
  | .error _ => σ

/-- `encrypt_and_hash` on the symmetric state: the ciphertext and the state
    after it. -/
def sealSym (S : Sodium) (plaintext : Bytes) (σ : Symmetric) : Bytes × Symmetric :=
  if σ.2.2.hasKey = false then (plaintext, mixHashSym S plaintext σ)
  else
    match encryptWithKey S σ.2.2.key σ.2.2.nonce plaintext σ.1.toList with
    | .ok ciphertext =>
      (ciphertext, mixHashSym S ciphertext
        (σ.1, σ.2.1, { σ.2.2 with nonce := σ.2.2.nonce + 1 }))
    | .error _ => (plaintext, σ)

theorem mixHash_eq (S : Sodium) (data : Bytes) (s : NoiseSession) :
    mixHash S data s = (.ok (), s.withSymmetric (mixHashSym S data s.symmetric)) := rfl

section Correct

variable {S : Sodium} (hS : S.Correct)
include hS

theorem ensureSodiumReady_eq : ensureSodiumReady S = .ok () := by
  simp [ensureSodiumReady, hS.ready]

theorem hkdf2_ok (chainingKey : Bytes32) (input : Bytes) :
    ∃ derived, hkdf2 S chainingKey input = .ok derived := by
  have hmac : ∀ k d, ∃ out, hmacSha256 S k d = .ok out := fun k d => by
    obtain ⟨out, h⟩ := hS.hmac k d
    exact ⟨out, by simp [hmacSha256, h]⟩
  obtain ⟨tempKey, h0⟩ := hmac chainingKey.toList input
  obtain ⟨out1, h1⟩ := hmac tempKey.toList [0x01]
  obtain ⟨out2, h2⟩ := hmac tempKey.toList (out1.toList ++ [0x02])
  exact ⟨(out1, out2), by simp [hkdf2, h0, h1, h2]⟩

theorem mixKey_eq (input : Bytes) (s : NoiseSession) :
    mixKey S input s = (.ok (), s.withSymmetric (mixKeySym S input s.symmetric)) := by
  obtain ⟨derived, h⟩ := hkdf2_ok hS s.chainingKey input
  simp [mixKey, mixKeySym, NoiseSession.symmetric, NoiseSession.withSymmetric, h]

theorem mixKeyDh_eq {localKey : NoiseKeypair} {remotePub shared : Bytes32}
    (h : S.scalarmult localKey.secretKey remotePub = some shared) (s : NoiseSession) :
    mixKeyDh S localKey remotePub s =
      (.ok (), s.withSymmetric (mixKeySym S shared.toList s.symmetric)) := by
  simp [mixKeyDh, computeSharedSecret, h, mixKey_eq hS]

theorem mixKeySym_hasKey (input : Bytes) (σ : Symmetric) : (mixKeySym S input σ).2.2.hasKey = true := by
  obtain ⟨derived, h⟩ := hkdf2_ok hS σ.2.1 input
  simp [mixKeySym, h]

theorem encryptWithKey_ok (key : Bytes32) (nonce : UInt64) (p ad : Bytes) :
    ∃ c, encryptWithKey S key nonce p ad = .ok c ∧ c.length = p.length + aeadTagBytes ∧
      decryptWithKey S key nonce c ad = .ok p := by
  obtain ⟨c, henc, hlen, hdec⟩ := hS.aead key (makeNonce nonce) p ad
  refine ⟨c, by simp [encryptWithKey, henc], hlen, ?_⟩
  rw [decryptWithKey, if_neg (by omega), hdec]

theorem encryptAndHash_eq (p : Bytes) (s : NoiseSession) :
    encryptAndHash S p s =
      (.ok (sealSym S p s.symmetric).1, s.withSymmetric (sealSym S p s.symmetric).2) := by
  obtain ⟨c, henc, -, -⟩ := encryptWithKey_ok hS s.handshakeCipher.key s.handshakeCipher.nonce p
    s.handshakeHash.toList
  unfold encryptAndHash sealSym NoiseSession.symmetric
  cases hkey : s.handshakeCipher.hasKey <;> simp [hkey, henc, mixHash, mixHashSym, withSymmetric]

/-- Whoever holds the symmetric state that sealed a message opens it to the
    plaintext and moves to the same state. -/
theorem decryptAndHash_seal {p : Bytes} {σ : Symmetric} {t : NoiseSession} (h : t.symmetric = σ) :
    decryptAndHash S (sealSym S p σ).1 t = (.ok p, t.withSymmetric (sealSym S p σ).2) := by
  subst h
  obtain ⟨c, henc, -, hdec⟩ := encryptWithKey_ok hS t.handshakeCipher.key t.handshakeCipher.nonce p
    t.handshakeHash.toList
  unfold decryptAndHash sealSym NoiseSession.symmetric
  cases hkey : t.handshakeCipher.hasKey <;>
    simp [hkey, henc, hdec, mixHash, mixHashSym, withSymmetric]

omit hS in
theorem decryptAndHash_plain {c : Bytes} {t : NoiseSession} (h : t.handshakeCipher.hasKey = false) :
    decryptAndHash S c t = (.ok c, t.withSymmetric (mixHashSym S c t.symmetric)) := by
  simp [decryptAndHash, h, mixHash_eq]

theorem sealSym_length {p : Bytes} {σ : Symmetric} (h : σ.2.2.hasKey = true) :
    (sealSym S p σ).1.length = p.length + aeadTagBytes := by
  obtain ⟨c, henc, hlen, -⟩ := encryptWithKey_ok hS σ.2.2.key σ.2.2.nonce p σ.1.toList
  simp [sealSym, h, henc, hlen]

theorem sealSym_hasKey (p : Bytes) (σ : Symmetric) : (sealSym S p σ).2.2.2.hasKey = σ.2.2.hasKey := by
  obtain ⟨c, henc, -, -⟩ := encryptWithKey_ok hS σ.2.2.key σ.2.2.nonce p σ.1.toList
  cases h : σ.2.2.hasKey <;> simp [sealSym, h, henc, mixHashSym]

end Correct

/-! ## Payloads of the two parties -/

/-- The `PeerId` that an identity's handshake payload proves. -/
def Identity.remoteId (identity : Identity) : PeerId := ⟨secretKeyPublic identity.secretKey⟩

/-- What a party learns about the other one: its peer id and its muxers, or
    nothing when the other has no identity. -/
def learn (identity : Option Identity) (ext : NoiseExtensions) (s : NoiseSession) : NoiseSession :=
  { s with
    remotePeerId := identity.map Identity.remoteId
    remoteExtensions := if identity.isSome then ext else {} }

/-- The vectors of an extension record have a size: their encoding is shorter
    than 2^64 bytes. -/
def NoiseExtensions.Fits (ext : NoiseExtensions) : Prop := (serializeExtensions ext).length < 2 ^ 64

instance (ext : NoiseExtensions) : Decidable ext.Fits := inferInstanceAs (Decidable (_ < _))

/-- The payload of an honest party verifies at whoever holds its static key. -/
theorem localPayload_verifies {S : Sodium} (hS : S.Correct) {n : NoiseSession}
    (hid : ∀ i ∈ n.localIdentity, S.IsSecretKey i.secretKey) (hext : n.localExtensions.Fits) :
    ∃ payload, makeLocalPayload S n = .ok payload ∧
      ∀ s : NoiseSession, s.remoteStaticPub = n.staticKey.publicKey →
        verifyRemoteIdentity S payload s = (.ok (), learn n.localIdentity n.localExtensions s) := by
  cases hi : n.localIdentity with
  | none => exact ⟨[], by simp [makeLocalPayload, hi], fun s _ => by simp [verifyRemoteIdentity, learn]⟩
  | some identity =>
    obtain ⟨sig, hsign, hlen, hverify⟩ := hS.sign (signatureMessage n.staticKey.publicKey)
      identity.secretKey (hid identity (by simp [hi]))
    have hkey : serializePublicKey (secretKeyPublic identity.secretKey) ≠ [] := by
      simp [serializePublicKey, fieldBytes_ne_nil]
    have hkeyLen : (serializePublicKey (secretKeyPublic identity.secretKey)).length = 36 := by
      have h32 : (secretKeyPublic identity.secretKey).toList.length = 32 := by simp
      simp only [serializePublicKey, fieldVarint, fieldBytes, h32, List.length_append]
      decide
    have hsig : sig ≠ [] := by rintro rfl; simp at hlen
    refine ⟨_, by simp only [makeLocalPayload, hi, makeHandshakePayload, ensureSodiumReady_eq hS,
      hsign, Except.ok_bind]; rfl, fun s hs => ?_⟩
    have hparse := parseHandshakePayload_make hkey hsig (by omega) (by omega) hext
    simp only [List.isEmpty_iff] at hparse
    unfold verifyRemoteIdentity
    rw [if_neg (by simp [fieldBytes_ne_nil])]
    simp [hparse, verifyHandshakePayload, ensureSodiumReady_eq hS, parsePublicKey_serialize, hs,
      hverify, learn, Identity.remoteId]

/-! ## The transcript -/

/-- The keys and payloads of one handshake. -/
structure Transcript where
  ephemeralI : NoiseKeypair
  staticI : NoiseKeypair
  ephemeralR : NoiseKeypair
  staticR : NoiseKeypair
  payloadI : Bytes
  payloadR : Bytes

namespace Transcript

variable (S : Sodium) (T : Transcript)

/-- The shared secret of two key pairs. -/
def shared (a b : NoiseKeypair) : Bytes := ((S.scalarmult a.secretKey b.publicKey).getD zero32).toList

/-- The state both start from, `initialize_symmetric`. -/
def sym0 : Symmetric := mixHashSym S [] (protocolNameHash, protocolNameHash, {})

/-- After msg1: `e` and the empty payload. -/
def sym1 : Symmetric := mixHashSym S [] (mixHashSym S T.ephemeralI.publicKey.toList (sym0 S))

/-- msg2, `e, ee`. -/
def sym2 : Symmetric :=
  mixKeySym S (shared S T.ephemeralI T.ephemeralR)
    (mixHashSym S T.ephemeralR.publicKey.toList (T.sym1 S))

/-- msg2, `s`. -/
def static2 : Bytes × Symmetric := sealSym S T.staticR.publicKey.toList (T.sym2 S)

/-- msg2, `es` and the payload. -/
def payload2 : Bytes × Symmetric :=
  sealSym S T.payloadR (mixKeySym S (shared S T.ephemeralI T.staticR) (T.static2 S).2)

/-- msg3, `s`. -/
def static3 : Bytes × Symmetric := sealSym S T.staticI.publicKey.toList (T.payload2 S).2

/-- msg3, `se` and the payload. -/
def payload3 : Bytes × Symmetric :=
  sealSym S T.payloadI (mixKeySym S (shared S T.staticI T.ephemeralR) (T.static3 S).2)

/-- `e`. -/
def msg1 : Bytes := T.ephemeralI.publicKey.toList

/-- `e, ee, s, es` and the payload. -/
def msg2 : Bytes := T.ephemeralR.publicKey.toList ++ ((T.static2 S).1 ++ (T.payload2 S).1)

/-- `s, se` and the payload. -/
def msg3 : Bytes := (T.static3 S).1 ++ (T.payload3 S).1

/-- The transport keys: initiator to responder, responder to initiator. -/
def transportKeys : Bytes32 × Bytes32 :=
  match hkdf2 S (T.payload3 S).2.2.1 [] with
  | .ok derived => derived
  | .error _ => (zero32, zero32)

/-- The key pairs are generated ones. -/
structure Generated : Prop where
  ephemeralI : T.ephemeralI.publicKey = S.scalarmultBase T.ephemeralI.secretKey
  staticI : T.staticI.publicKey = S.scalarmultBase T.staticI.secretKey
  ephemeralR : T.ephemeralR.publicKey = S.scalarmultBase T.ephemeralR.secretKey
  staticR : T.staticR.publicKey = S.scalarmultBase T.staticR.secretKey

end Transcript

open Transcript

section Honest

variable {S : Sodium} (hS : S.Correct)
include hS

theorem scalarmult_shared {a b : NoiseKeypair} (ha : a.publicKey = S.scalarmultBase a.secretKey)
    (hb : b.publicKey = S.scalarmultBase b.secretKey) :
    ∃ k : Bytes32, k.toList = shared S a b ∧ S.scalarmult a.secretKey b.publicKey = some k ∧
      S.scalarmult b.secretKey a.publicKey = some k := by
  obtain ⟨k, h1, h2⟩ := hS.dh a.secretKey b.secretKey
  rw [← hb] at h1
  rw [← ha] at h2
  exact ⟨k, by simp [shared, h1], h1, h2⟩

omit hS in
theorem mixHash_with (data : Bytes) (b : NoiseSession) (σ : Symmetric) :
    mixHash S data (b.withSymmetric σ) = (.ok (), b.withSymmetric (mixHashSym S data σ)) := rfl

theorem mixKeyDh_with {localKey : NoiseKeypair} {remotePub k : Bytes32}
    (h : S.scalarmult localKey.secretKey remotePub = some k) (b : NoiseSession) (σ : Symmetric) :
    mixKeyDh S localKey remotePub (b.withSymmetric σ) =
      (.ok (), b.withSymmetric (mixKeySym S k.toList σ)) := mixKeyDh_eq hS h _

theorem encryptAndHash_with (p : Bytes) (b : NoiseSession) (σ : Symmetric) :
    encryptAndHash S p (b.withSymmetric σ) =
      (.ok (sealSym S p σ).1, b.withSymmetric (sealSym S p σ).2) := encryptAndHash_eq hS p _

theorem decryptAndHash_with (p : Bytes) (b : NoiseSession) (σ : Symmetric) :
    decryptAndHash S (sealSym S p σ).1 (b.withSymmetric σ) =
      (.ok p, b.withSymmetric (sealSym S p σ).2) := decryptAndHash_seal hS rfl

/-- `initialize_symmetric` outside the symmetric state. -/
def cleared (s : NoiseSession) : NoiseSession :=
  { s with
    remotePeerId := none, remoteExtensions := {}, handshakeComplete := false,
    hasRemoteEphemeral := false, hasRemoteStatic := false, csSend := {}, csRecv := {} }

omit hS in
theorem initializeSymmetric_eq (s : NoiseSession) :
    initializeSymmetric S s = (.ok (), (cleared s).withSymmetric (sym0 S)) := rfl

/-- The initiator outside the symmetric state, once it has its key pairs. -/
def initiatorBase (T : Transcript) (n : NoiseSession) : NoiseSession :=
  { cleared n with
    isInitiator := true, ephemeral := T.ephemeralI, staticKey := T.staticI,
    configuredEphemeral := none, configuredStatic := none }

/-- The responder outside the symmetric state, once it has msg1 and its key pairs. -/
def responderBase (T : Transcript) (n : NoiseSession) : NoiseSession :=
  { cleared n with
    isInitiator := false, hasRemoteEphemeral := true,
    remoteEphemeralPub := T.ephemeralI.publicKey, ephemeral := T.ephemeralR,
    staticKey := T.staticR, configuredEphemeral := none, configuredStatic := none }

theorem writeMsg1_honest {T : Transcript} {n : NoiseSession} {r : Entropy}
    (he : n.configuredEphemeral.getD (generateKeypair S r.ephemeral) = T.ephemeralI)
    (hs : n.configuredStatic.getD (generateKeypair S r.static) = T.staticI) :
    writeMsg1 S r n = (T.msg1, (initiatorBase T n).withSymmetric (T.sym1 S)) := by
  have htake : takeKeypairs S r ((cleared { n with isInitiator := true }).withSymmetric (sym0 S)) =
      (.ok (), (initiatorBase T n).withSymmetric (sym0 S)) := by
    simp [takeKeypairs, cleared, withSymmetric, initiatorBase, he, hs]
  have hplain : sealSym S [] (mixHashSym S T.ephemeralI.publicKey.toList (sym0 S)) =
      ([], T.sym1 S) := rfl
  have hkey : ((initiatorBase T n).withSymmetric (sym0 S)).ephemeral = T.ephemeralI := rfl
  unfold writeMsg1 writeMsg1Body
  simp only [Op.bind_apply, Op.ofResult_apply, ensureSodiumReady_eq hS, Op.modify_apply,
    initializeSymmetric_eq, htake, Op.get_apply, hkey, mixHash_with, encryptAndHash_with hS, hplain,
    Op.pure_apply, List.append_nil, Transcript.msg1]

theorem processMsg1_honest {T : Transcript} (hT : T.Generated S) {n : NoiseSession} {r : Entropy}
    (he : n.configuredEphemeral.getD (generateKeypair S r.ephemeral) = T.ephemeralR)
    (hs : n.configuredStatic.getD (generateKeypair S r.static) = T.staticR)
    (hp : makeLocalPayload S (responderBase T n) = .ok T.payloadR) :
    processMsg1 S r T.msg1 n =
      (.ok (T.msg2 S), (responderBase T n).withSymmetric (T.payload2 S).2) := by
  obtain ⟨kee, hkee, -, hee⟩ := scalarmult_shared hS hT.ephemeralI hT.ephemeralR
  obtain ⟨kes, hkes, -, hes⟩ := scalarmult_shared hS hT.ephemeralI hT.staticR
  have hlen : ¬ T.msg1.length < 32 := by simp [Transcript.msg1]
  have hcopy : copyN 32 T.msg1 = T.ephemeralI.publicKey := by simp [Transcript.msg1]
  have htake : T.msg1.take 32 = T.ephemeralI.publicKey.toList := by
    rw [List.take_of_length_le (by simp [Transcript.msg1]), Transcript.msg1]
  have hdrop : T.msg1.drop 32 = [] := List.drop_eq_nil_of_le (by simp [Transcript.msg1])
  -- the states up to the generation of the key pairs, outside the symmetric state
  let b0 : NoiseSession := cleared { n with isInitiator := false }
  let b1 : NoiseSession :=
    { b0 with remoteEphemeralPub := T.ephemeralI.publicKey, hasRemoteEphemeral := true }
  have hclear : initializeSymmetric S { n with isInitiator := false } =
      (.ok (), b0.withSymmetric (sym0 S)) := rfl
  have hrecv : Op.modify (fun s : NoiseSession => { s with
      remoteEphemeralPub := T.ephemeralI.publicKey, hasRemoteEphemeral := true })
      (b0.withSymmetric (sym0 S)) = (.ok (), b1.withSymmetric (sym0 S)) := rfl
  have hplain : decryptAndHash S [] (b1.withSymmetric
      (mixHashSym S T.ephemeralI.publicKey.toList (sym0 S))) =
        (.ok [], b1.withSymmetric (T.sym1 S)) := decryptAndHash_plain rfl
  have hkeys : takeKeypairs S r (b1.withSymmetric (T.sym1 S)) =
      (.ok (), (responderBase T n).withSymmetric (T.sym1 S)) := by
    simp [takeKeypairs, b1, b0, cleared, withSymmetric, responderBase, he, hs]
  have hfields : ((responderBase T n).withSymmetric (T.sym1 S)).ephemeral = T.ephemeralR ∧
      ((responderBase T n).withSymmetric (T.sym1 S)).staticKey = T.staticR ∧
      ((responderBase T n).withSymmetric (T.sym1 S)).remoteEphemeralPub = T.ephemeralI.publicKey :=
    ⟨rfl, rfl, rfl⟩
  have hpayload : makeLocalPayload S ((responderBase T n).withSymmetric (T.sym1 S)) =
      .ok T.payloadR := hp
  have hinit : Op.modify (fun s : NoiseSession => { s with isInitiator := false }) n =
      (.ok (), { n with isInitiator := false }) := rfl
  unfold processMsg1
  simp only [Op.bind_apply, Op.ofResult_apply, ensureSodiumReady_eq hS, if_neg hlen, hinit, hclear,
    hcopy, htake, hdrop, hrecv, mixHash_with, Op.mapError, hplain, hkeys, Op.get_apply, hfields,
    mixKeyDh_with hS hee, encryptAndHash_with hS, mixKeyDh_with hS hes, hpayload, Op.pure_apply,
    hkee, hkes]
  rfl

/-- What msg2 leaves at the initiator before it answers. -/
theorem readMsg2_honest {T : Transcript} (hT : T.Generated S) {b : NoiseSession}
    (he : b.ephemeral = T.ephemeralI) :
    readMsg2 S (T.msg2 S) (b.withSymmetric (T.sym1 S)) =
      verifyRemoteIdentity S T.payloadR
        (({ b with
            remoteEphemeralPub := T.ephemeralR.publicKey, hasRemoteEphemeral := true,
            remoteStaticPub := T.staticR.publicKey, hasRemoteStatic := true } :
          NoiseSession).withSymmetric (T.payload2 S).2) := by
  obtain ⟨kee, hkee, hee, -⟩ := scalarmult_shared hS hT.ephemeralI hT.ephemeralR
  obtain ⟨kes, hkes, hes, -⟩ := scalarmult_shared hS hT.ephemeralI hT.staticR
  have hkey2 : (T.sym2 S).2.2.hasKey = true := mixKeySym_hasKey hS _ _
  have hstatic : (T.static2 S).1.length = encryptedStaticLen := by
    rw [static2, sealSym_length hS hkey2]
    simp [encryptedStaticLen]
  have hlen : ¬ (T.msg2 S).length < 32 + encryptedStaticLen := by
    simp [Transcript.msg2, hstatic]
  have htake : (T.msg2 S).take 32 = T.ephemeralR.publicKey.toList := by
    rw [Transcript.msg2, List.take_left' (by simp)]
  have hcopy : copyN 32 (T.msg2 S) = T.ephemeralR.publicKey := by simp [Transcript.msg2]
  have hdrop : (T.msg2 S).drop 32 = (T.static2 S).1 ++ (T.payload2 S).1 := by
    rw [Transcript.msg2, List.drop_left' (by simp)]
  have hstaticPart : ((T.msg2 S).drop 32).take encryptedStaticLen = (T.static2 S).1 := by
    rw [hdrop, List.take_left' hstatic]
  have hpayloadPart : (T.msg2 S).drop (32 + encryptedStaticLen) = (T.payload2 S).1 := by
    rw [← List.drop_drop, hdrop, List.drop_left' hstatic]
  let b1 : NoiseSession :=
    { b with remoteEphemeralPub := T.ephemeralR.publicKey, hasRemoteEphemeral := true }
  let b2 : NoiseSession :=
    { b1 with remoteStaticPub := T.staticR.publicKey, hasRemoteStatic := true }
  have hrecv : Op.modify (fun s : NoiseSession => { s with
      remoteEphemeralPub := T.ephemeralR.publicKey, hasRemoteEphemeral := true })
      (b.withSymmetric (T.sym1 S)) = (.ok (), b1.withSymmetric (T.sym1 S)) := rfl
  have hfields : ∀ σ, (b1.withSymmetric σ).ephemeral = T.ephemeralI ∧
      (b1.withSymmetric σ).remoteEphemeralPub = T.ephemeralR.publicKey := fun σ => ⟨he, rfl⟩
  have hopen2 : decryptAndHash S (T.static2 S).1 (b1.withSymmetric (T.sym2 S)) =
      (.ok T.staticR.publicKey.toList, b1.withSymmetric (T.static2 S).2) :=
    decryptAndHash_with hS _ _ _
  have hstore : Op.modify (fun s : NoiseSession => { s with
      remoteStaticPub := T.staticR.publicKey, hasRemoteStatic := true })
      (b1.withSymmetric (T.static2 S).2) = (.ok (), b2.withSymmetric (T.static2 S).2) := rfl
  have hopenP : decryptAndHash S (T.payload2 S).1 (b2.withSymmetric
      (mixKeySym S (shared S T.ephemeralI T.staticR) (T.static2 S).2)) =
      (.ok T.payloadR, b2.withSymmetric (T.payload2 S).2) := decryptAndHash_with hS _ _ _
  have hsym2 : mixKeySym S (shared S T.ephemeralI T.ephemeralR)
      (mixHashSym S T.ephemeralR.publicKey.toList (T.sym1 S)) = T.sym2 S := rfl
  have h32 : ¬ T.staticR.publicKey.toList.length ≠ 32 := by simp
  unfold readMsg2
  simp only [Op.bind_apply, Op.ofResult_apply, ensureSodiumReady_eq hS, if_neg hlen, hcopy, htake,
    hrecv, mixHash_with, Op.get_apply, hfields, mixKeyDh_with hS hee, hkee, hsym2, Op.mapError,
    hstaticPart, hopen2, if_neg h32, copyN_self, hstore, mixKeyDh_with hS hes, hkes, hpayloadPart,
    hopenP]
  rfl

/-- The answer of the initiator, msg3, and its transport keys. -/
theorem writeMsg3_honest {T : Transcript} (hT : T.Generated S) {b : NoiseSession}
    (hs : b.staticKey = T.staticI) (hre : b.remoteEphemeralPub = T.ephemeralR.publicKey)
    (hi : b.isInitiator = true) (hp : makeLocalPayload S b = .ok T.payloadI) :
    writeMsg3 S (b.withSymmetric (T.payload2 S).2) =
      (.ok (T.msg3 S), ({ b with
        csSend := ⟨(T.transportKeys S).1, 0, true⟩, csRecv := ⟨(T.transportKeys S).2, 0, true⟩,
        handshakeComplete := true } : NoiseSession).withSymmetric (T.payload3 S).2) := by
  obtain ⟨kse, hkse, hse, -⟩ := scalarmult_shared hS hT.staticI hT.ephemeralR
  obtain ⟨derived, hderived⟩ := hkdf2_ok hS (T.payload3 S).2.2.1 []
  have hkeys : T.transportKeys S = derived := by simp [transportKeys, hderived]
  have hfields : ∀ σ, (b.withSymmetric σ).staticKey = T.staticI ∧
      (b.withSymmetric σ).remoteEphemeralPub = T.ephemeralR.publicKey := fun σ => ⟨hs, hre⟩
  have hpayload : ∀ σ, makeLocalPayload S (b.withSymmetric σ) = .ok T.payloadI := fun _ => hp
  have hsplit : splitTransport S (b.withSymmetric (T.payload3 S).2) =
      (.ok (), ({ b with
        csSend := ⟨(T.transportKeys S).1, 0, true⟩, csRecv := ⟨(T.transportKeys S).2, 0, true⟩ } :
          NoiseSession).withSymmetric (T.payload3 S).2) := by
    simp [splitTransport, withSymmetric, hderived, hkeys, hi]
  have hseal : sealSym S T.staticI.publicKey.toList (T.payload2 S).2 = T.static3 S := rfl
  have hsealP : sealSym S T.payloadI (mixKeySym S (shared S T.staticI T.ephemeralR)
      (T.static3 S).2) = T.payload3 S := rfl
  unfold writeMsg3
  simp only [Op.bind_apply, Op.get_apply, hfields, encryptAndHash_with hS, hseal,
    mixKeyDh_with hS hse, hkse, Op.ofResult_apply, hpayload, hsealP, hsplit, Op.modify_apply]
  rfl

theorem processMsg3_honest {T : Transcript} (hT : T.Generated S) {b : NoiseSession}
    (he : b.ephemeral = T.ephemeralR) (hi : b.isInitiator = false) {peer : Option PeerId}
    {ext : NoiseExtensions}
    (hv : ∀ s : NoiseSession, s.remoteStaticPub = T.staticI.publicKey →
      verifyRemoteIdentity S T.payloadI s =
        (.ok (), { s with remotePeerId := peer, remoteExtensions := ext })) :
    processMsg3 S (T.msg3 S) (b.withSymmetric (T.payload2 S).2) =
      (.ok (), ({ b with
        remoteStaticPub := T.staticI.publicKey, hasRemoteStatic := true,
        remotePeerId := peer, remoteExtensions := ext,
        csSend := ⟨(T.transportKeys S).2, 0, true⟩, csRecv := ⟨(T.transportKeys S).1, 0, true⟩,
        handshakeComplete := true } : NoiseSession).withSymmetric (T.payload3 S).2) := by
  obtain ⟨kse, hkse, -, hse⟩ := scalarmult_shared hS hT.staticI hT.ephemeralR
  obtain ⟨derived, hderived⟩ := hkdf2_ok hS (T.payload3 S).2.2.1 []
  have hkeys : T.transportKeys S = derived := by simp [transportKeys, hderived]
  have hkey2 : (T.sym2 S).2.2.hasKey = true := mixKeySym_hasKey hS _ _
  have hkeyP : (T.payload2 S).2.2.2.hasKey = true := by
    rw [payload2, sealSym_hasKey hS, mixKeySym_hasKey hS]
  have hstatic : (T.static3 S).1.length = encryptedStaticLen := by
    rw [static3, sealSym_length hS hkeyP]
    simp [encryptedStaticLen]
  have hlen : ¬ (T.msg3 S).length < encryptedStaticLen := by simp [Transcript.msg3, hstatic]
  have hstaticPart : (T.msg3 S).take encryptedStaticLen = (T.static3 S).1 := by
    rw [Transcript.msg3, List.take_left' hstatic]
  have hpayloadPart : (T.msg3 S).drop encryptedStaticLen = (T.payload3 S).1 := by
    rw [Transcript.msg3, List.drop_left' hstatic]
  let b1 : NoiseSession :=
    { b with remoteStaticPub := T.staticI.publicKey, hasRemoteStatic := true }
  let b2 : NoiseSession := { b1 with remotePeerId := peer, remoteExtensions := ext }
  have hopenS : decryptAndHash S (T.static3 S).1 (b.withSymmetric (T.payload2 S).2) =
      (.ok T.staticI.publicKey.toList, b.withSymmetric (T.static3 S).2) :=
    decryptAndHash_with hS _ _ _
  have hstore : Op.modify (fun s : NoiseSession => { s with
      remoteStaticPub := T.staticI.publicKey, hasRemoteStatic := true })
      (b.withSymmetric (T.static3 S).2) = (.ok (), b1.withSymmetric (T.static3 S).2) := rfl
  have hfields : ∀ σ, (b.withSymmetric σ).ephemeral = T.ephemeralR := fun _ => he
  have hopenP : decryptAndHash S (T.payload3 S).1 (b1.withSymmetric
      (mixKeySym S (shared S T.staticI T.ephemeralR) (T.static3 S).2)) =
      (.ok T.payloadI, b1.withSymmetric (T.payload3 S).2) := decryptAndHash_with hS _ _ _
  have hverify : verifyRemoteIdentity S T.payloadI (b1.withSymmetric (T.payload3 S).2) =
      (.ok (), b2.withSymmetric (T.payload3 S).2) := hv _ rfl
  have hsplit : splitTransport S (b2.withSymmetric (T.payload3 S).2) =
      (.ok (), ({ b2 with
        csSend := ⟨(T.transportKeys S).2, 0, true⟩, csRecv := ⟨(T.transportKeys S).1, 0, true⟩ } :
          NoiseSession).withSymmetric (T.payload3 S).2) := by
    simp [splitTransport, withSymmetric, hderived, hkeys, b2, b1, hi]
  have h32 : ¬ T.staticI.publicKey.toList.length ≠ 32 := by simp
  unfold processMsg3
  simp only [if_neg hlen, Op.bind_apply, Op.get_apply, Op.mapError, hstaticPart, hopenS, if_neg h32,
    copyN_self, hstore, hfields, mixKeyDh_with hS hse, hkse, hpayloadPart, hopenP, hverify, hsplit,
    Op.modify_apply]
  rfl

end Honest

/-! ## The whole handshake -/

/-- What a party brings to a handshake: generated key pairs where key pairs are
    configured, an Ed25519 secret key in its identity, and a muxer list that
    exists as a C++ object. -/
structure Honest (S : Sodium) (n : NoiseSession) : Prop where
  ephemeral : ∀ kp ∈ n.configuredEphemeral, kp.publicKey = S.scalarmultBase kp.secretKey
  static : ∀ kp ∈ n.configuredStatic, kp.publicKey = S.scalarmultBase kp.secretKey
  identity : ∀ i ∈ n.localIdentity, S.IsSecretKey i.secretKey
  extensions : n.localExtensions.Fits

theorem getD_generated {S : Sodium} {configured : Option NoiseKeypair} (r : Bytes32)
    (h : ∀ kp ∈ configured, kp.publicKey = S.scalarmultBase kp.secretKey) :
    (configured.getD (generateKeypair S r)).publicKey =
      S.scalarmultBase (configured.getD (generateKeypair S r)).secretKey := by
  cases configured with
  | none => rfl
  | some kp => exact h kp rfl

/-- The transcript of `nI` and `nR` with the given random bytes: the key pairs
    they take and the payloads they write. -/
def transcript (S : Sodium) (rI rR : Entropy) (nI nR : NoiseSession) : Transcript :=
  let staticI := nI.configuredStatic.getD (generateKeypair S rI.static)
  let staticR := nR.configuredStatic.getD (generateKeypair S rR.static)
  { ephemeralI := nI.configuredEphemeral.getD (generateKeypair S rI.ephemeral)
    staticI := staticI
    ephemeralR := nR.configuredEphemeral.getD (generateKeypair S rR.ephemeral)
    staticR := staticR
    payloadI := (makeLocalPayload S { nI with staticKey := staticI }).toOption.getD []
    payloadR := (makeLocalPayload S { nR with staticKey := staticR }).toOption.getD [] }

theorem transcript_generated {S : Sodium} {rI rR : Entropy} {nI nR : NoiseSession}
    (hI : Honest S nI) (hR : Honest S nR) : (transcript S rI rR nI nR).Generated S :=
  ⟨getD_generated _ hI.ephemeral, getD_generated _ hI.static, getD_generated _ hR.ephemeral,
    getD_generated _ hR.static⟩

/-- The initiator outside the symmetric state, once it has read msg2. -/
def initiatorRead (T : Transcript) (nI nR : NoiseSession) : NoiseSession :=
  { learn nR.localIdentity nR.localExtensions (initiatorBase T nI) with
    remoteEphemeralPub := T.ephemeralR.publicKey, hasRemoteEphemeral := true,
    remoteStaticPub := T.staticR.publicKey, hasRemoteStatic := true }

/-- The initiator after msg3. -/
def initiatorDone (S : Sodium) (T : Transcript) (nI nR : NoiseSession) : NoiseSession :=
  ({ initiatorRead T nI nR with
    csSend := ⟨(T.transportKeys S).1, 0, true⟩, csRecv := ⟨(T.transportKeys S).2, 0, true⟩,
    handshakeComplete := true } : NoiseSession).withSymmetric (T.payload3 S).2

/-- The responder after msg3. -/
def responderDone (S : Sodium) (T : Transcript) (nI nR : NoiseSession) : NoiseSession :=
  ({ learn nI.localIdentity nI.localExtensions (responderBase T nR) with
    remoteStaticPub := T.staticI.publicKey, hasRemoteStatic := true,
    csSend := ⟨(T.transportKeys S).2, 0, true⟩, csRecv := ⟨(T.transportKeys S).1, 0, true⟩,
    handshakeComplete := true } : NoiseSession).withSymmetric (T.payload3 S).2

/-- Every call of an honest handshake succeeds, with the messages of the
    transcript. -/
theorem handshake_run {S : Sodium} (hS : S.Correct) (rI rR : Entropy) {nI nR : NoiseSession}
    (hI : Honest S nI) (hR : Honest S nR) :
    let T := transcript S rI rR nI nR
    writeMsg1 S rI nI = (T.msg1, (initiatorBase T nI).withSymmetric (T.sym1 S)) ∧
      processMsg1 S rR T.msg1 nR =
        (.ok (T.msg2 S), (responderBase T nR).withSymmetric (T.payload2 S).2) ∧
      processMsg2 S (T.msg2 S) ((initiatorBase T nI).withSymmetric (T.sym1 S)) =
        (.ok (T.msg3 S), initiatorDone S T nI nR) ∧
      processMsg3 S (T.msg3 S) ((responderBase T nR).withSymmetric (T.payload2 S).2) =
        (.ok (), responderDone S T nI nR) := by
  intro T
  have hT : T.Generated S := transcript_generated hI hR
  obtain ⟨payI, hpayI, hverI⟩ := localPayload_verifies hS
    (n := { nI with staticKey := T.staticI }) hI.identity hI.extensions
  obtain ⟨payR, hpayR, hverR⟩ := localPayload_verifies hS
    (n := { nR with staticKey := T.staticR }) hR.identity hR.extensions
  have hTI : T.payloadI = payI := by
    change (makeLocalPayload S { nI with staticKey := T.staticI }).toOption.getD [] = payI
    rw [hpayI]; rfl
  have hTR : T.payloadR = payR := by
    change (makeLocalPayload S { nR with staticKey := T.staticR }).toOption.getD [] = payR
    rw [hpayR]; rfl
  refine ⟨writeMsg1_honest hS rfl rfl, processMsg1_honest hS hT rfl rfl (hTR ▸ hpayR), ?_, ?_⟩
  · rw [processMsg2, Op.bind_apply, readMsg2_honest hS hT rfl, hTR, hverR _ rfl]
    exact writeMsg3_honest hS hT (b := initiatorRead T nI nR) rfl rfl rfl (by rw [hTI]; exact hpayI)
  · exact processMsg3_honest hS hT rfl rfl fun s hs => hTI ▸ hverI s hs

/-- Two honest parties complete the handshake, with matching hashes and keys,
    and each learns the other's peer id and muxers. -/
theorem handshake_agreement {S : Sodium} (hS : S.Correct) (rI rR : Entropy) {nI nR : NoiseSession}
    (hI : Honest S nI) (hR : Honest S nR) :
    ∃ msg1 msg2 msg3 i1 r1 i2 r2,
      writeMsg1 S rI nI = (msg1, i1) ∧ msg1 ≠ [] ∧
      processMsg1 S rR msg1 nR = (.ok msg2, r1) ∧
      processMsg2 S msg2 i1 = (.ok msg3, i2) ∧
      processMsg3 S msg3 r1 = (.ok (), r2) ∧
      (i2.handshakeComplete = true ∧ r2.handshakeComplete = true) ∧
      i2.handshakeHash = r2.handshakeHash ∧ i2.chainingKey = r2.chainingKey ∧
      i2.csSend = r2.csRecv ∧ i2.csRecv = r2.csSend ∧
      i2.remotePeerId = nR.localIdentity.map Identity.remoteId ∧
      r2.remotePeerId = nI.localIdentity.map Identity.remoteId ∧
      i2.remoteExtensions.streamMuxers =
        (if nR.localIdentity.isSome then nR.localExtensions.streamMuxers else []) ∧
      r2.remoteExtensions.streamMuxers =
        (if nI.localIdentity.isSome then nI.localExtensions.streamMuxers else []) := by
  obtain ⟨h1, h2, h3, h4⟩ := handshake_run hS rI rR hI hR
  refine ⟨_, _, _, _, _, _, _, h1, ?_, h2, h3, h4, ⟨rfl, rfl⟩, rfl, rfl, rfl, rfl, rfl, rfl, ?_, ?_⟩
  · intro h
    have := congrArg List.length h
    simp [Transcript.msg1] at this
  · change (if nR.localIdentity.isSome then nR.localExtensions else {}).streamMuxers = _
    split_ifs <;> rfl
  · change (if nI.localIdentity.isSome then nI.localExtensions else {}).streamMuxers = _
    split_ifs <;> rfl

/-! ## The assumptions can be met -/

/-- The authentication tag of `Sodium.toy`. -/
def toyTag (key : Bytes32) (nonce : Bytes) : Bytes := (copyN 16 (nonce.drop 4 ++ key.toList)).toList

/-- Primitives without any secrecy that meet `Sodium.Correct`. -/
def Sodium.toy : Sodium where
  ready := true
  sha256 b := copyN 32 b.reverse
  hmacSha256 k d := some (copyN 32 (d.reverse ++ k))
  scalarmult a b := some (List.Vector.map₂ (· ^^^ ·) a b)
  scalarmultBase a := a
  aeadEncrypt k n p _ := some (p ++ toyTag k n)
  aeadDecrypt k n c _ :=
    if c.drop (c.length - 16) = toyTag k n then some (c.take (c.length - 16)) else none
  signDetached msg sk := some (copyN 64 ((secretKeyPublic sk).toList ++ msg)).toList
  verifyDetached sig msg pk := sig == (copyN 64 (pk.toList ++ msg)).toList
  signPublic seed := seed

theorem toy_correct : Sodium.toy.Correct where
  ready := rfl
  hmac _ _ := ⟨_, rfl⟩
  dh a b := by
    refine ⟨_, rfl, ?_⟩
    simp only [Sodium.toy, Option.some.injEq]
    apply List.Vector.ext
    intro i
    simp [UInt8.xor_comm]
  aead k n p ad := by
    have hlen : (toyTag k n).length = 16 := by simp [toyTag]
    refine ⟨p ++ toyTag k n, rfl, by simp [hlen, aeadTagBytes], ?_⟩
    simp [Sodium.toy, hlen]
  sign msg sk _ := ⟨_, rfl, by simp, by simp [Sodium.toy]⟩

/-- An initiator with an identity and a muxer list. -/
def toyInitiator : NoiseSession :=
  { localIdentity := some ⟨⟨List.Vector.replicate 32 1⟩, List.Vector.replicate 64 1⟩
    localExtensions := ⟨[ascii "/yamux/1.0.0"]⟩ }

theorem toyInitiator_honest : Honest Sodium.toy toyInitiator where
  ephemeral kp h := by cases h
  static kp h := by cases h
  identity i h := by cases h; rfl
  extensions := by decide

theorem toyResponder_honest : Honest Sodium.toy {} where
  ephemeral kp h := by cases h
  static kp h := by cases h
  identity i h := by cases h
  extensions := by decide

/-- The anonymous responder learns the initiator's muxers, the initiator learns
    nothing. -/
theorem handshake_agreement_toy :
    ∃ msg1 msg2 msg3 i1 r1 i2 r2,
      writeMsg1 Sodium.toy ⟨zero32, zero32⟩ toyInitiator = (msg1, i1) ∧
      processMsg1 Sodium.toy ⟨zero32, zero32⟩ msg1 {} = (.ok msg2, r1) ∧
      processMsg2 Sodium.toy msg2 i1 = (.ok msg3, i2) ∧
      processMsg3 Sodium.toy msg3 r1 = (.ok (), r2) ∧
      i2.csSend = r2.csRecv ∧ i2.remotePeerId = none ∧
      r2.remoteExtensions.streamMuxers = [ascii "/yamux/1.0.0"] := by
  obtain ⟨msg1, msg2, msg3, i1, r1, i2, r2, h1, -, h2, h3, h4, -, -, -, h5, -, h6, -, -, h7⟩ :=
    handshake_agreement toy_correct ⟨zero32, zero32⟩ ⟨zero32, zero32⟩ toyInitiator_honest
      toyResponder_honest
  exact ⟨msg1, msg2, msg3, i1, r1, i2, r2, h1, h2, h3, h4, h5, h6, h7⟩

end PeerCore.Noise
