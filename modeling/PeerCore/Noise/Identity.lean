import PeerCore.Noise.Agreement
import PeerCore.Noise.Reading

/-!
# What a completed handshake proves about the remote peer

* `ProvesIdentity`: the signed payload, the static key it covers and the
  Diffie-Hellman that the payload was decrypted with, all of one message.
* `processMsg2_proves`: when `process_msg2` succeeds and sets a remote peer, its
  message proves that identity.
* `verify_sized_iff`: when the signature that is verified has 64 bytes.
-/

namespace PeerCore.Noise

/-- The message `msg2` of the handshake of `session` proves the identity `peer`: it
    carries a static key that the session decrypted and used in a Diffie-Hellman, and
    a payload, decrypted with the key of that Diffie-Hellman, whose signature over
    that static key verifies under the key of `peer`. -/
def ProvesIdentity (S : Sodium) (msg2 : Bytes) (session : NoiseSession) (peer : PeerId) : Prop :=
  ∃ (key key' shared chain chain' hash hash' : Bytes32) (nonce : UInt64) (payloadBytes : Bytes)
      (payload : NoiseHandshakePayload),
    decryptWithKey S key nonce ((msg2.drop 32).take encryptedStaticLen) hash.toList =
      .ok session.remoteStaticPub.toList ∧
    computeSharedSecret S session.ephemeral session.remoteStaticPub = .ok shared ∧
    hkdf2 S chain shared.toList = .ok (chain', key') ∧
    decryptWithKey S key' 0 (msg2.drop (32 + encryptedStaticLen)) hash'.toList = .ok payloadBytes ∧
    parseHandshakePayload payloadBytes = .ok payload ∧
    parsePublicKey payload.identityKey = .ok peer.bytes ∧
    S.verifyDetached payload.identitySig
      (ascii "noise-libp2p-static-key:" ++ session.remoteStaticPub.toList) peer.bytes = true

section Inversion

variable {S : Sodium} {s s' : NoiseSession}

theorem mixKeyDh_ok {localKey : NoiseKeypair} {remotePub : Bytes32} {u : Unit}
    (h : mixKeyDh S localKey remotePub s = (.ok u, s')) :
    ∃ (shared : Bytes32) (derived : Bytes32 × Bytes32),
      computeSharedSecret S localKey remotePub = .ok shared ∧
      hkdf2 S s.chainingKey shared.toList = .ok derived ∧
      s' = { s with chainingKey := derived.1, handshakeCipher := ⟨derived.2, 0, true⟩ } := by
  rw [mixKeyDh, Op.ofResult_bind_eq_ok] at h
  obtain ⟨shared, hshared, h⟩ := h
  rw [mixKey, Op.get_bind] at h
  rw [Op.ofResult_bind_eq_ok] at h
  obtain ⟨derived, hderived, h⟩ := h
  cases h
  exact ⟨shared, derived, hshared, hderived, rfl⟩

theorem decryptAndHash_ok {ciphertext plaintext : Bytes} (hkey : s.handshakeCipher.hasKey = true)
    (h : decryptAndHash S ciphertext s = (.ok plaintext, s')) :
    decryptWithKey S s.handshakeCipher.key s.handshakeCipher.nonce ciphertext
        s.handshakeHash.toList = .ok plaintext ∧
      s' = { s with
        handshakeCipher := { s.handshakeCipher with nonce := s.handshakeCipher.nonce + 1 }
        handshakeHash := S.sha256 (s.handshakeHash.toList ++ ciphertext) } := by
  rw [decryptAndHash, Op.get_bind] at h
  rw [hkey, if_neg (by simp), Op.ofResult_bind_eq_ok] at h
  obtain ⟨p, hdec, h⟩ := h
  cases h
  exact ⟨hdec, rfl⟩

/-- What `encrypt_and_hash` leaves alone. -/
theorem encryptAndHash_ok {plaintext ciphertext : Bytes}
    (h : encryptAndHash S plaintext s = (.ok ciphertext, s')) :
    ∃ cipher hash, s' = { s with handshakeCipher := cipher, handshakeHash := hash } := by
  rw [encryptAndHash, Op.get_bind] at h
  split_ifs at h with hkey
  · cases h
    exact ⟨_, _, rfl⟩
  · rw [Op.ofResult_bind_eq_ok] at h
    obtain ⟨c, -, h⟩ := h
    cases h
    exact ⟨_, _, rfl⟩

theorem splitTransport_ok {u : Unit} (h : splitTransport S s = (.ok u, s')) :
    ∃ send recv, s' = { s with csSend := ⟨send, 0, true⟩, csRecv := ⟨recv, 0, true⟩ } := by
  rw [splitTransport, Op.get_bind] at h
  rw [Op.ofResult_bind_eq_ok] at h
  obtain ⟨derived, -, h⟩ := h
  split_ifs at h <;> cases h
  · exact ⟨_, _, rfl⟩
  · exact ⟨_, _, rfl⟩

theorem verifyHandshakePayload_ok {payload : NoiseHandshakePayload} {staticPub : Bytes32}
    {u : Unit} (h : verifyHandshakePayload S payload staticPub = .ok u) :
    ∃ identityPub, parsePublicKey payload.identityKey = .ok identityPub ∧
      S.verifyDetached payload.identitySig (signatureMessage staticPub) identityPub = true := by
  unfold verifyHandshakePayload at h
  rw [Except.bind_eq_ok_iff] at h
  obtain ⟨_, -, h⟩ := h
  rw [Except.bind_eq_ok_iff] at h
  obtain ⟨identityPub, hkey, h⟩ := h
  refine ⟨identityPub, hkey, ?_⟩
  by_contra hverify
  rw [if_neg hverify] at h
  cases h

/-- `verify_remote_identity` clears the remote peer, or finds it proved. -/
theorem verifyRemoteIdentity_ok {payloadBytes : Bytes} {u : Unit}
    (h : verifyRemoteIdentity S payloadBytes s = (.ok u, s')) :
    ∃ (peer : Option PeerId) (extensions : NoiseExtensions),
      s' = { s with remotePeerId := peer, remoteExtensions := extensions } ∧
      ∀ p, peer = some p → ∃ payload, parseHandshakePayload payloadBytes = .ok payload ∧
        parsePublicKey payload.identityKey = .ok p.bytes ∧
        S.verifyDetached payload.identitySig (signatureMessage s.remoteStaticPub) p.bytes = true := by
  unfold verifyRemoteIdentity at h
  split_ifs at h with hempty
  · cases h
    exact ⟨none, {}, rfl, nofun⟩
  · rw [Op.ofResult_bind_eq_ok] at h
    obtain ⟨payload, hparse, h⟩ := h
    rw [Op.get_bind] at h
    rw [Op.ofResult_bind_eq_ok] at h
    obtain ⟨_, hverify, h⟩ := h
    rw [Op.ofResult_bind_eq_ok] at h
    obtain ⟨identityPub, hkey, h⟩ := h
    cases h
    obtain ⟨identityPub', hkey', hsig⟩ := verifyHandshakePayload_ok hverify
    rw [hkey, Except.ok.injEq] at hkey'
    subst hkey'
    refine ⟨some ⟨identityPub⟩, payload.extensions, rfl, fun p hp => ?_⟩
    cases hp
    exact ⟨payload, hparse, hkey, hsig⟩

end Inversion

variable {S : Sodium} {s s' : NoiseSession}

/-- The end of `process_msg2`: the Diffie-Hellman with the received static key, the
    payload, and its signature. -/
theorem readPayload_proves {msg2 : Bytes} {g : String → String}
    {key hash : Bytes32} {nonce : UInt64} {u : Unit}
    (hstatic : decryptWithKey S key nonce ((msg2.drop 32).take encryptedStaticLen) hash.toList =
      .ok s.remoteStaticPub.toList)
    (h : (do
      mixKeyDh S s.ephemeral s.remoteStaticPub
      let remotePayload ← Op.mapError g (decryptAndHash S (msg2.drop (32 + encryptedStaticLen)))
      verifyRemoteIdentity S remotePayload : Op NoiseSession Unit) s = (.ok u, s'))
    {peer : PeerId} (hpeer : s'.remotePeerId = some peer) : ProvesIdentity S msg2 s' peer := by
  rw [Op.bind_eq_ok] at h
  obtain ⟨_, s₁, hdh, h⟩ := h
  obtain ⟨shared, derived, hshared, hderived, rfl⟩ := mixKeyDh_ok hdh
  rw [Op.bind_eq_ok] at h
  obtain ⟨payloadBytes, s₂, hpayload, h⟩ := h
  rw [Op.mapError_eq_ok] at hpayload
  obtain ⟨hplain, rfl⟩ := decryptAndHash_ok rfl hpayload
  obtain ⟨peer', extensions, rfl, hproof⟩ := verifyRemoteIdentity_ok h
  obtain ⟨payload, hparse, hkey, hsig⟩ := hproof peer hpeer
  exact ⟨_, _, shared, _, _, _, _, _, payloadBytes, payload, hstatic, hshared, hderived, hplain,
    hparse, hkey, hsig⟩

/-- The half of `process_msg2` that reads the message proves the peer it sets. -/
theorem readMsg2_proves {msg2 : Bytes} {u : Unit} (h : readMsg2 S msg2 s = (.ok u, s'))
    {peer : PeerId} (hpeer : s'.remotePeerId = some peer) : ProvesIdentity S msg2 s' peer := by
  rw [readMsg2, Op.ofResult_bind_eq_ok] at h
  obtain ⟨_, -, h⟩ := h
  split_ifs at h with hsize
  · cases h
  rw [Op.modify_bind, Op.bind_eq_ok] at h
  obtain ⟨_, s₂, -, h⟩ := h
  rw [Op.get_bind, Op.bind_eq_ok] at h
  obtain ⟨_, s₃, hdh, h⟩ := h
  obtain ⟨_, _, -, -, hs₃⟩ := mixKeyDh_ok hdh
  rw [Op.bind_eq_ok] at h
  obtain ⟨static, s₄, hstatic, h⟩ := h
  rw [Op.mapError_eq_ok] at hstatic
  obtain ⟨hstatic, hs₄⟩ := decryptAndHash_ok (by rw [hs₃]) hstatic
  split_ifs at h with hlen
  · cases h
  rw [ne_eq, Decidable.not_not] at hlen
  have hcopy : static = (copyN 32 static).toList := by
    rw [copyN_toList hlen.ge, List.take_of_length_le hlen.le]
  have hephemeral : s₂.ephemeral = s₄.ephemeral := by rw [hs₄, hs₃]
  rw [Op.modify_bind, hephemeral] at h
  rw [hcopy] at hstatic
  exact readPayload_proves
    (s := { s₄ with remoteStaticPub := copyN 32 static, hasRemoteStatic := true }) hstatic h hpeer

/-- The half of `process_msg2` that writes msg3 keeps what was read, and starts the
    transport counters. -/
theorem writeMsg3_frame {msg3 : Bytes} (h : writeMsg3 S s = (.ok msg3, s')) :
    s'.remotePeerId = s.remotePeerId ∧ s'.remoteStaticPub = s.remoteStaticPub ∧
      s'.ephemeral = s.ephemeral := by
  rw [writeMsg3, Op.get_bind] at h
  rw [Op.bind_eq_ok] at h
  obtain ⟨_, s₁, hstatic, h⟩ := h
  obtain ⟨_, _, rfl⟩ := encryptAndHash_ok hstatic
  rw [Op.bind_eq_ok] at h
  obtain ⟨_, s₂, hdh, h⟩ := h
  obtain ⟨_, _, -, -, rfl⟩ := mixKeyDh_ok hdh
  rw [Op.ofResult_bind_eq_ok] at h
  obtain ⟨_, -, h⟩ := h
  rw [Op.bind_eq_ok] at h
  obtain ⟨_, s₃, henc, h⟩ := h
  obtain ⟨_, _, rfl⟩ := encryptAndHash_ok henc
  rw [Op.bind_eq_ok] at h
  obtain ⟨_, s₄, hsplit, h⟩ := h
  obtain ⟨_, _, rfl⟩ := splitTransport_ok hsplit
  cases h
  exact ⟨rfl, rfl, rfl⟩

theorem ProvesIdentity.congr {msg2 : Bytes} {peer : PeerId} (h : ProvesIdentity S msg2 s peer)
    (hstatic : s'.remoteStaticPub = s.remoteStaticPub) (hephemeral : s'.ephemeral = s.ephemeral) :
    ProvesIdentity S msg2 s' peer := by
  unfold ProvesIdentity
  rw [hstatic, hephemeral]
  exact h

theorem processMsg2_proves {msg2 msg3 : Bytes} (h : processMsg2 S msg2 s = (.ok msg3, s'))
    {peer : PeerId} (hpeer : s'.remotePeerId = some peer) : ProvesIdentity S msg2 s' peer := by
  rw [processMsg2, Op.bind_eq_ok] at h
  obtain ⟨_, t, hread, hwrite⟩ := h
  obtain ⟨hsame, hstatic, hephemeral⟩ := writeMsg3_frame hwrite
  rw [hsame] at hpeer
  exact (readMsg2_proves hread hpeer).congr hstatic hephemeral

/-! ## The transport keys -/

/-- The handshake is done, and there is a key for each direction. -/
structure NoiseSession.Split (s : NoiseSession) : Prop where
  handshakeComplete : s.handshakeComplete = true
  sendKey : s.csSend.hasKey = true
  recvKey : s.csRecv.hasKey = true

/-- The handshake is just done: nothing was encrypted or decrypted with its keys. -/
structure NoiseSession.Fresh (s : NoiseSession) : Prop extends s.Split where
  sendNonce : s.csSend.nonce = 0
  recvNonce : s.csRecv.nonce = 0

/-- The end of both handshake functions that finish. -/
theorem splitTransport_complete {s s' : NoiseSession} {u : Unit}
    (h : (do
      splitTransport S
      Op.modify fun s => { s with handshakeComplete := true } : Op NoiseSession Unit) s = (.ok u, s')) :
    s'.Fresh := by
  rw [Op.bind_eq_ok] at h
  obtain ⟨_, s₁, hsplit, h⟩ := h
  obtain ⟨_, _, rfl⟩ := splitTransport_ok hsplit
  cases h
  exact ⟨⟨rfl, rfl, rfl⟩, rfl, rfl⟩

theorem processMsg2_fresh {msg2 msg3 : Bytes} (h : processMsg2 S msg2 s = (.ok msg3, s')) :
    s'.Fresh := by
  rw [processMsg2, Op.bind_eq_ok] at h
  obtain ⟨_, t, -, h⟩ := h
  rw [writeMsg3, Op.get_bind, Op.bind_eq_ok] at h
  obtain ⟨_, _, -, h⟩ := h
  rw [Op.bind_eq_ok] at h
  obtain ⟨_, _, -, h⟩ := h
  rw [Op.bind_eq_ok] at h
  obtain ⟨_, _, -, h⟩ := h
  rw [Op.bind_eq_ok] at h
  obtain ⟨_, s₁, -, h⟩ := h
  rw [Op.bind_eq_ok] at h
  obtain ⟨_, s₂, hsplit, h⟩ := h
  refine splitTransport_complete (u := ()) (S := S) (s := s₁) ?_
  rw [Op.bind_of_ok hsplit]
  cases h
  rfl

theorem processMsg3_fresh {msg3 : Bytes} {u : Unit} (h : processMsg3 S msg3 s = (.ok u, s')) :
    s'.Fresh := by
  unfold processMsg3 at h
  split_ifs at h with hsize
  · cases h
  · rw [Op.get_bind, Op.bind_eq_ok] at h
    obtain ⟨remoteStatic, _, -, h⟩ := h
    split_ifs at h
    · cases h
    · rw [Op.modify_bind, Op.bind_eq_ok] at h
      obtain ⟨_, _, -, h⟩ := h
      rw [Op.bind_eq_ok] at h
      obtain ⟨_, _, -, h⟩ := h
      rw [Op.bind_eq_ok] at h
      obtain ⟨_, s₁, -, h⟩ := h
      exact splitTransport_complete h

/-! ## The size of the signature

`crypto_sign_verify_detached` reads 64 bytes of its first argument whatever the size
of the buffer, and nobody compares the size of `identity_sig` with 64. -/

/-- `verify_remote_identity` never hands a signature of another size than 64 bytes to
    `crypto_sign_verify_detached`: its result is the same for every function that
    agrees with it on the signatures of 64 bytes. -/
def VerifiesSized (S : Sodium) (payloadBytes : Bytes) (session : NoiseSession) : Prop :=
  ∀ verify : Bytes → Bytes → Bytes32 → Bool,
    (∀ sig msg key, sig.length = 64 → verify sig msg key = S.verifyDetached sig msg key) →
    verifyRemoteIdentity { S with verifyDetached := verify } payloadBytes session =
      verifyRemoteIdentity S payloadBytes session

theorem verifyHandshakePayload_eq {payload : NoiseHandshakePayload} {staticPub : Bytes32} :
    verifyHandshakePayload S payload staticPub =
      if S.ready = true then
        match parsePublicKey payload.identityKey with
        | .error e => .error e
        | .ok identityPub =>
          if S.verifyDetached payload.identitySig (signatureMessage staticPub) identityPub then .ok ()
          else .error "invalid noise static key signature"
      else .error "sodium_init failed" := by
  unfold verifyHandshakePayload ensureSodiumReady
  by_cases hready : S.ready = true
  · rw [if_pos hready, if_pos hready]
    cases parsePublicKey payload.identityKey <;> rfl
  · rw [if_neg hready, if_neg hready]
    rfl

theorem verifyRemoteIdentity_eq {payloadBytes : Bytes} {session : NoiseSession}
    {payload : NoiseHandshakePayload} {identityPub : Bytes32} (hne : payloadBytes ≠ [])
    (hready : S.ready = true) (hparse : parseHandshakePayload payloadBytes = .ok payload)
    (hkey : parsePublicKey payload.identityKey = .ok identityPub) :
    verifyRemoteIdentity S payloadBytes session =
      if S.verifyDetached payload.identitySig (signatureMessage session.remoteStaticPub) identityPub
      then (.ok (), { session with
        remotePeerId := some ⟨identityPub⟩, remoteExtensions := payload.extensions })
      else (.error "invalid noise static key signature", session) := by
  unfold verifyRemoteIdentity
  rw [if_neg hne, Op.bind_apply, Op.ofResult_apply, hparse]
  simp only [Op.get_apply, Op.bind_apply, Op.ofResult_apply, verifyHandshakePayload_eq, hready,
    if_true, hkey]
  split_ifs <;> rfl

/-- A payload that reaches the verification has a signature of 64 bytes: if the payload is
    a sequence of fields that are accepted by the low 32 bits of their numbers, the last
    one numbered 1 so is a public key, and libsodium is ready, then the last one numbered 2
    so has 64 bytes. -/
def SignatureSized (S : Sodium) (payloadBytes : Bytes) : Prop :=
  S.ready = true → ∀ hs key sig, Protobuf.Split payloadBytes hs →
    Accepted (fun b => ∃ es, Protobuf.Split b es) (hs.map narrowed) →
    Protobuf.last 1 (hs.map narrowed) = some key → Protobuf.last 2 (hs.map narrowed) = some sig →
    (∃ identityPub, parsePublicKey key = .ok identityPub) → sig.length = 64

/-- Two functions that agree on the signature of a payload verify it alike. -/
theorem verifyRemoteIdentity_congr {payloadBytes : Bytes} {session : NoiseSession}
    {verify : Bytes → Bytes → Bytes32 → Bool}
    (h : S.ready = true → ∀ payload identityPub, parseHandshakePayload payloadBytes = .ok payload →
      parsePublicKey payload.identityKey = .ok identityPub → ∀ msg,
        verify payload.identitySig msg identityPub =
          S.verifyDetached payload.identitySig msg identityPub) :
    verifyRemoteIdentity { S with verifyDetached := verify } payloadBytes session =
      verifyRemoteIdentity S payloadBytes session := by
  unfold verifyRemoteIdentity
  split_ifs
  · rfl
  rw [Op.bind_apply, Op.bind_apply, Op.ofResult_apply]
  cases hparse : parseHandshakePayload payloadBytes with
  | error e => rfl
  | ok payload =>
    have hverify : verifyHandshakePayload { S with verifyDetached := verify } payload
        session.remoteStaticPub = verifyHandshakePayload S payload session.remoteStaticPub := by
      rw [verifyHandshakePayload_eq, verifyHandshakePayload_eq]
      split_ifs with hready
      · cases hkey : parsePublicKey payload.identityKey with
        | error e => rfl
        | ok identityPub =>
          dsimp only
          simp only [h hready payload identityPub hparse hkey]
      · rfl
    simp only [Op.get_bind]
    rw [hverify]

/-- The signature buffers have the size that libsodium reads exactly when the payload's
    `identity_sig` has 64 bytes, or the payload is refused before it is verified. -/
theorem verify_sized_iff (S : Sodium) (payloadBytes : Bytes) (session : NoiseSession) :
    VerifiesSized S payloadBytes session ↔ SignatureSized S payloadBytes := by
  constructor
  · rintro h hready hs key sig hsplit haccepted hlastKey hlastSig ⟨identityPub, hkey⟩
    obtain ⟨payload, hparse, rfl, rfl⟩ := haccepted.exists_parse hsplit hlastKey hlastSig
    by_contra hsize
    -- a function that differs on this signature only
    let other : Sodium := { S with
      verifyDetached := fun sig msg key => if sig.length = 64 then S.verifyDetached sig msg key
        else !S.verifyDetached sig msg key }
    have hdiffer : verifyRemoteIdentity other payloadBytes session =
        verifyRemoteIdentity S payloadBytes session :=
      h other.verifyDetached fun sig msg key hsig => if_pos hsig
    have hne : payloadBytes ≠ [] := by
      rintro rfl
      cases hparse
    rw [verifyRemoteIdentity_eq hne hready hparse hkey,
      verifyRemoteIdentity_eq (S := other) hne hready hparse hkey] at hdiffer
    simp only [other, hsize, if_false] at hdiffer
    cases hverify : S.verifyDetached payload.identitySig
        (signatureMessage session.remoteStaticPub) identityPub <;> simp [hverify] at hdiffer
  · intro h verify hagree
    refine verifyRemoteIdentity_congr fun hready payload identityPub hparse hkey msg => ?_
    obtain ⟨hs, hsplit, hreads⟩ := parseHandshakePayload_iff.mp hparse
    have haccepted : Accepted (fun b => ∃ es, Protobuf.Split b es) (hs.map narrowed) := by
      simpa only [exists_parsesExtensions] using hreads.accepted
    exact hagree _ _ _ (h hready hs _ _ hsplit haccepted hreads.identityKey hreads.identitySig
      ⟨identityPub, hkey⟩)

/-- A payload with a well-formed identity key and a signature of one byte. -/
def shortSignature : Bytes := fieldBytes 1 (serializePublicKey zero32) ++ fieldBytes 2 [0]

theorem shortSignature_not_sized : ¬ VerifiesSized Sodium.toy shortSignature {} := by
  rw [verify_sized_iff]
  intro h
  have hparse : parseHandshakePayload shortSignature = .ok ⟨serializePublicKey zero32, [0], {}⟩ := by
    decide +kernel
  obtain ⟨hs, hsplit, hreads⟩ := parseHandshakePayload_iff.mp hparse
  have hlen := h rfl hs _ _ hsplit (by simpa only [exists_parsesExtensions] using hreads.accepted)
    hreads.identityKey hreads.identitySig ⟨zero32, by decide +kernel⟩
  cases hlen

end PeerCore.Noise
