import PeerCore.Noise.Payload

/-!
# The Noise XX handshake and the transport ciphers

Model of the stateful half of `protocol/noise/noise.cpp`. Every function that
takes a `NoiseSession&` is an `Op NoiseSession`, so a failure leaves the changes
made before it.

`randombytes_buf` is an argument (`Entropy`): the bytes it would write for the
ephemeral and for the static secret key, used only where no key pair is
configured.
-/

namespace PeerCore.Noise

/-- `NoiseKeypair` (`noise.hpp:14-17`). -/
structure NoiseKeypair where
  publicKey : Bytes32
  secretKey : Bytes32
  deriving DecidableEq

/-- The all-zero array `std::array<uint8_t, 32>{}`. -/
def zero32 : Bytes32 := List.Vector.replicate 32 0

/-- `CipherState` (`noise.hpp:19-23`). -/
structure CipherState where
  key : Bytes32 := zero32
  nonce : UInt64 := 0
  hasKey : Bool := false
  deriving DecidableEq

/-- `NoiseSession` (`noise.hpp:29-55`). -/
structure NoiseSession where
  isInitiator : Bool := false
  localIdentity : Option Identity := none
  remotePeerId : Option PeerId := none
  localExtensions : NoiseExtensions := {}
  remoteExtensions : NoiseExtensions := {}
  ephemeral : NoiseKeypair := ⟨zero32, zero32⟩
  staticKey : NoiseKeypair := ⟨zero32, zero32⟩
  configuredEphemeral : Option NoiseKeypair := none
  configuredStatic : Option NoiseKeypair := none
  remoteEphemeralPub : Bytes32 := zero32
  hasRemoteEphemeral : Bool := false
  remoteStaticPub : Bytes32 := zero32
  hasRemoteStatic : Bool := false
  chainingKey : Bytes32 := zero32
  handshakeHash : Bytes32 := zero32
  handshakeCipher : CipherState := {}
  csSend : CipherState := {}
  csRecv : CipherState := {}
  handshakeComplete : Bool := false

/-- The next outputs of `randombytes_buf`. -/
structure Entropy where
  ephemeral : Bytes32
  static : Bytes32

/-! ## Symmetric primitives -/

/-- `make_nonce` (`noise.cpp:85-93`): four zero bytes, then the counter
    little-endian. -/
def makeNonce (nonce : UInt64) : Bytes :=
  ([0, 0, 0, 0] : Bytes) ++ (List.range 8).map fun i => UInt8.ofNat ((nonce.toNat >>> (i * 8)) &&& 0xFF)

/-- `hmac_sha256` (`noise.cpp:95-104`). -/
def hmacSha256 (S : Sodium) (key data : Bytes) : Result Bytes32 :=
  match S.hmacSha256 key data with
  | some out => .ok out
  | none => .error "hmac init failed"

/-- `hkdf2` (`noise.cpp:106-133`). -/
def hkdf2 (S : Sodium) (chainingKey : Bytes32) (input : Bytes) : Result (Bytes32 × Bytes32) := do
  let tempKey ← hmacSha256 S chainingKey.toList input
  let out1 ← hmacSha256 S tempKey.toList [0x01]
  let out2 ← hmacSha256 S tempKey.toList (out1.toList ++ [0x02])
  pure (out1, out2)

/-- `compute_shared_secret` (`noise.cpp:75-84`). -/
def computeSharedSecret (S : Sodium) (localKey : NoiseKeypair) (remotePub : Bytes32) :
    Result Bytes32 :=
  match S.scalarmult localKey.secretKey remotePub with
  | some shared => .ok shared
  | none => .error "curve25519 DH failed"

/-- `encrypt_with_key` (`noise.cpp:168-191`). -/
def encryptWithKey (S : Sodium) (key : Bytes32) (nonce : UInt64) (plaintext ad : Bytes) :
    Result Bytes :=
  match S.aeadEncrypt key (makeNonce nonce) plaintext ad with
  | some ciphertext => .ok ciphertext
  | none => .error "noise::encrypt failed"

/-- `decrypt_with_key` (`noise.cpp:193-220`). -/
def decryptWithKey (S : Sodium) (key : Bytes32) (nonce : UInt64) (ciphertext ad : Bytes) :
    Result Bytes :=
  if ciphertext.length < aeadTagBytes then .error "ciphertext too short"
  else match S.aeadDecrypt key (makeNonce nonce) ciphertext ad with
    | some plaintext => .ok plaintext
    | none => .error "noise::decrypt failed"

/-! ## The handshake state -/

/-- `mix_hash` (`noise.cpp:135-141`). -/
def mixHash (S : Sodium) (data : Bytes) : Op NoiseSession Unit :=
  Op.modify fun s => { s with handshakeHash := S.sha256 (s.handshakeHash.toList ++ data) }

/-- The initial hash: `kProtocolName` has exactly 32 bytes, so it is copied. -/
def protocolNameHash : Bytes32 := copyN 32 (ascii "Noise_XX_25519_ChaChaPoly_SHA256")

/-- `initialize_symmetric` (`noise.cpp:143-166`). -/
def initializeSymmetric (S : Sodium) : Op NoiseSession Unit := do
  Op.modify fun s =>
    { s with
      remotePeerId := none
      remoteExtensions := {}
      handshakeComplete := false
      hasRemoteEphemeral := false
      hasRemoteStatic := false
      handshakeCipher := {}
      csSend := {}
      csRecv := {}
      handshakeHash := protocolNameHash
      chainingKey := protocolNameHash }
  mixHash S []

/-- `mix_key` (`noise.cpp:222-231`). -/
def mixKey (S : Sodium) (input : Bytes) : Op NoiseSession Unit := do
  let session ← Op.get
  let derived ← Op.ofResult (hkdf2 S session.chainingKey input)
  Op.modify fun s =>
    { s with chainingKey := derived.1, handshakeCipher := ⟨derived.2, 0, true⟩ }

/-- `mix_key_dh` (`noise.cpp:233-239`). -/
def mixKeyDh (S : Sodium) (localKey : NoiseKeypair) (remotePub : Bytes32) : Op NoiseSession Unit := do
  let shared ← Op.ofResult (computeSharedSecret S localKey remotePub)
  mixKey S shared.toList

/-- `encrypt_and_hash` (`noise.cpp:241-257`). -/
def encryptAndHash (S : Sodium) (plaintext : Bytes) : Op NoiseSession Bytes := do
  let session ← Op.get
  if session.handshakeCipher.hasKey = false then
    mixHash S plaintext
    pure plaintext
  else
    let ciphertext ← Op.ofResult (encryptWithKey S session.handshakeCipher.key
      session.handshakeCipher.nonce plaintext session.handshakeHash.toList)
    Op.modify fun s =>
      { s with handshakeCipher := { s.handshakeCipher with nonce := s.handshakeCipher.nonce + 1 } }
    mixHash S ciphertext
    pure ciphertext

/-- `decrypt_and_hash` (`noise.cpp:259-275`). -/
def decryptAndHash (S : Sodium) (ciphertext : Bytes) : Op NoiseSession Bytes := do
  let session ← Op.get
  if session.handshakeCipher.hasKey = false then
    mixHash S ciphertext
    pure ciphertext
  else
    let plaintext ← Op.ofResult (decryptWithKey S session.handshakeCipher.key
      session.handshakeCipher.nonce ciphertext session.handshakeHash.toList)
    Op.modify fun s =>
      { s with handshakeCipher := { s.handshakeCipher with nonce := s.handshakeCipher.nonce + 1 } }
    mixHash S ciphertext
    pure plaintext

/-- `split_transport` (`noise.cpp:277-290`). -/
def splitTransport (S : Sodium) : Op NoiseSession Unit := do
  let session ← Op.get
  let derived ← Op.ofResult (hkdf2 S session.chainingKey [])
  if session.isInitiator then
    Op.modify fun s => { s with csSend := ⟨derived.1, 0, true⟩, csRecv := ⟨derived.2, 0, true⟩ }
  else
    Op.modify fun s => { s with csSend := ⟨derived.2, 0, true⟩, csRecv := ⟨derived.1, 0, true⟩ }

/-- `make_local_payload` (`noise.cpp:377-384`). -/
def makeLocalPayload (S : Sodium) (session : NoiseSession) : Result Bytes :=
  match session.localIdentity with
  | none => .ok []
  | some identity =>
    makeHandshakePayload S identity session.staticKey.publicKey session.localExtensions

/-- `verify_remote_identity` (`noise.cpp:386-406`). -/
def verifyRemoteIdentity (S : Sodium) (payloadBytes : Bytes) : Op NoiseSession Unit := do
  if payloadBytes = [] then
    Op.modify fun s => { s with remotePeerId := none, remoteExtensions := {} }
  else
    let payload ← Op.ofResult (parseHandshakePayload payloadBytes)
    let session ← Op.get
    Op.ofResult (verifyHandshakePayload S payload session.remoteStaticPub)
    let identityPub ← Op.ofResult (parsePublicKey payload.identityKey)
    Op.modify fun s =>
      { s with remotePeerId := some ⟨identityPub⟩, remoteExtensions := payload.extensions }

/-- `NoiseHandshake::generate_keypair` (`noise.cpp:418-425`) on the given
    output of `randombytes_buf`. -/
def generateKeypair (S : Sodium) (random : Bytes32) : NoiseKeypair :=
  ⟨S.scalarmultBase random, random⟩

/-- The two `take_or_generate_keypair` calls (`noise.cpp:408-415`) that draw the
    ephemeral and the static key pair. -/
def takeKeypairs (S : Sodium) (random : Entropy) : Op NoiseSession Unit :=
  Op.modify fun s =>
    { s with
      ephemeral := s.configuredEphemeral.getD (generateKeypair S random.ephemeral)
      staticKey := s.configuredStatic.getD (generateKeypair S random.static)
      configuredEphemeral := none
      configuredStatic := none }

/-! ## The three messages -/

/-- `kEncryptedStaticLen`. -/
def encryptedStaticLen : ℕ := 32 + aeadTagBytes

/-- `NoiseHandshake::write_msg1` (`noise.cpp:427-444`) up to the empty vector it
    returns on failure. -/
def writeMsg1Body (S : Sodium) (random : Entropy) : Op NoiseSession Bytes := do
  Op.ofResult (ensureSodiumReady S)
  Op.modify fun s => { s with isInitiator := true }
  initializeSymmetric S
  takeKeypairs S random
  let session ← Op.get
  let out := session.ephemeral.publicKey.toList
  mixHash S out
  let payload ← encryptAndHash S []
  pure (out ++ payload)

/-- `NoiseHandshake::write_msg1`. -/
def writeMsg1 (S : Sodium) (random : Entropy) (session : NoiseSession) : Bytes × NoiseSession :=
  match writeMsg1Body S random session with
  | (.ok out, s) => (out, s)
  | (.error _, s) => ([], s)

/-- `NoiseHandshake::process_msg1` (`noise.cpp:446-501`). -/
def processMsg1 (S : Sodium) (random : Entropy) (msg1 : Bytes) : Op NoiseSession Bytes := do
  Op.ofResult (ensureSodiumReady S)
  if msg1.length < 32 then Op.fail "invalid msg1 size"
  else
    Op.modify fun s => { s with isInitiator := false }
    initializeSymmetric S
    Op.modify fun s => { s with remoteEphemeralPub := copyN 32 msg1, hasRemoteEphemeral := true }
    mixHash S (msg1.take 32)
    let _ ← Op.mapError ("noise msg1 payload decrypt failed: " ++ ·)
      (decryptAndHash S (msg1.drop 32))
    takeKeypairs S random
    let session ← Op.get
    mixHash S session.ephemeral.publicKey.toList
    mixKeyDh S session.ephemeral session.remoteEphemeralPub
    let encryptedStatic ← encryptAndHash S session.staticKey.publicKey.toList
    mixKeyDh S session.staticKey session.remoteEphemeralPub
    let payload ← Op.ofResult (makeLocalPayload S session)
    let encryptedPayload ← encryptAndHash S payload
    pure (session.ephemeral.publicKey.toList ++ (encryptedStatic ++ encryptedPayload))

/-- The half of `NoiseHandshake::process_msg2` that reads the message
    (`noise.cpp:503-546`). -/
def readMsg2 (S : Sodium) (msg2 : Bytes) : Op NoiseSession Unit := do
  Op.ofResult (ensureSodiumReady S)
  if msg2.length < 32 + encryptedStaticLen then Op.fail "invalid msg2 size"
  else
    Op.modify fun s => { s with remoteEphemeralPub := copyN 32 msg2, hasRemoteEphemeral := true }
    mixHash S (msg2.take 32)
    let session ← Op.get
    mixKeyDh S session.ephemeral session.remoteEphemeralPub
    let remoteStatic ← Op.mapError ("noise msg2 static decrypt failed: " ++ ·)
      (decryptAndHash S ((msg2.drop 32).take encryptedStaticLen))
    if remoteStatic.length ≠ 32 then Op.fail "invalid noise static key"
    else
      Op.modify fun s => { s with remoteStaticPub := copyN 32 remoteStatic, hasRemoteStatic := true }
      mixKeyDh S session.ephemeral (copyN 32 remoteStatic)
      let remotePayload ← Op.mapError ("noise msg2 payload decrypt failed: " ++ ·)
        (decryptAndHash S (msg2.drop (32 + encryptedStaticLen)))
      verifyRemoteIdentity S remotePayload

/-- The half of `NoiseHandshake::process_msg2` that writes msg3
    (`noise.cpp:548-579`). -/
def writeMsg3 (S : Sodium) : Op NoiseSession Bytes := do
  let session ← Op.get
  let encryptedStatic ← encryptAndHash S session.staticKey.publicKey.toList
  mixKeyDh S session.staticKey session.remoteEphemeralPub
  let payload ← Op.ofResult (makeLocalPayload S session)
  let encryptedPayload ← encryptAndHash S payload
  splitTransport S
  Op.modify fun s => { s with handshakeComplete := true }
  pure (encryptedStatic ++ encryptedPayload)

/-- `NoiseHandshake::process_msg2` (`noise.cpp:503-579`). -/
def processMsg2 (S : Sodium) (msg2 : Bytes) : Op NoiseSession Bytes := do
  readMsg2 S msg2
  writeMsg3 S

/-- `NoiseHandshake::process_msg3` (`noise.cpp:581-618`). -/
def processMsg3 (S : Sodium) (msg3 : Bytes) : Op NoiseSession Unit := do
  if msg3.length < encryptedStaticLen then Op.fail "invalid msg3 size"
  else
    let session ← Op.get
    let remoteStatic ← Op.mapError ("noise msg3 static decrypt failed: " ++ ·)
      (decryptAndHash S (msg3.take encryptedStaticLen))
    if remoteStatic.length ≠ 32 then Op.fail "invalid noise static key"
    else
      Op.modify fun s => { s with remoteStaticPub := copyN 32 remoteStatic, hasRemoteStatic := true }
      mixKeyDh S session.ephemeral (copyN 32 remoteStatic)
      let remotePayload ← Op.mapError ("noise msg3 payload decrypt failed: " ++ ·)
        (decryptAndHash S (msg3.drop encryptedStaticLen))
      verifyRemoteIdentity S remotePayload
      splitTransport S
      Op.modify fun s => { s with handshakeComplete := true }

/-! ## Transport messages and framing -/

/-- `NoiseHandshake::encrypt` (`noise.cpp:620-638`). -/
def encrypt (S : Sodium) (plaintext : Bytes) : Op CipherState Bytes := do
  Op.ofResult (ensureSodiumReady S)
  let cs ← Op.get
  if cs.hasKey = false then Op.fail "noise cipher state is not initialized"
  else if cs.nonce.toNat = 2 ^ 64 - 1 then Op.fail "noise nonce exhausted"
  else
    let ciphertext ← Op.ofResult (encryptWithKey S cs.key cs.nonce plaintext [])
    Op.modify fun cs => { cs with nonce := cs.nonce + 1 }
    pure ciphertext

/-- `NoiseHandshake::decrypt` (`noise.cpp:640-658`). -/
def decrypt (S : Sodium) (ciphertext : Bytes) : Op CipherState Bytes := do
  Op.ofResult (ensureSodiumReady S)
  let cs ← Op.get
  if cs.hasKey = false then Op.fail "noise cipher state is not initialized"
  else if cs.nonce.toNat = 2 ^ 64 - 1 then Op.fail "noise nonce exhausted"
  else
    let plaintext ← Op.ofResult (decryptWithKey S cs.key cs.nonce ciphertext [])
    Op.modify fun cs => { cs with nonce := cs.nonce + 1 }
    pure plaintext

section CipherState

variable {S : Sodium} {message result : Bytes} {error : String} {cs cs' : CipherState}

theorem encrypt_ok (h : encrypt S message cs = (.ok result, cs')) :
    cs.hasKey = true ∧ cs.nonce.toNat ≠ 2 ^ 64 - 1 ∧
      encryptWithKey S cs.key cs.nonce message [] = .ok result ∧
      cs' = { cs with nonce := cs.nonce + 1 } := by
  rw [encrypt, Op.bind_eq_ok] at h
  obtain ⟨_, _, hready, h⟩ := h
  obtain ⟨-, rfl⟩ := Op.ofResult_eq_ok.mp hready
  rw [Op.bind_eq_ok] at h
  obtain ⟨_, _, hget, h⟩ := h
  cases hget
  split_ifs at h with hkey hnonce
  · cases h
  · cases h
  · rw [Op.bind_eq_ok] at h
    obtain ⟨ciphertext, _, henc, h⟩ := h
    obtain ⟨henc, rfl⟩ := Op.ofResult_eq_ok.mp henc
    cases h
    exact ⟨by simpa using hkey, hnonce, henc, rfl⟩

/-- A failed `encrypt` does not use up its nonce. -/
theorem encrypt_error (h : encrypt S message cs = (.error error, cs')) : cs' = cs := by
  rw [encrypt, Op.bind_eq_error] at h
  rcases h with h | ⟨_, _, hready, h⟩
  · exact (Op.ofResult_eq_error.mp h).2
  obtain ⟨-, rfl⟩ := Op.ofResult_eq_ok.mp hready
  rw [Op.bind_eq_error] at h
  rcases h with h | ⟨_, _, hget, h⟩
  · cases h
  cases hget
  split_ifs at h
  · cases h; rfl
  · cases h; rfl
  · rw [Op.bind_eq_error] at h
    rcases h with h | ⟨_, _, -, h⟩
    · exact (Op.ofResult_eq_error.mp h).2
    · cases h

theorem decrypt_ok (h : decrypt S message cs = (.ok result, cs')) :
    cs.hasKey = true ∧ cs.nonce.toNat ≠ 2 ^ 64 - 1 ∧
      decryptWithKey S cs.key cs.nonce message [] = .ok result ∧
      cs' = { cs with nonce := cs.nonce + 1 } := by
  rw [decrypt, Op.bind_eq_ok] at h
  obtain ⟨_, _, hready, h⟩ := h
  obtain ⟨-, rfl⟩ := Op.ofResult_eq_ok.mp hready
  rw [Op.bind_eq_ok] at h
  obtain ⟨_, _, hget, h⟩ := h
  cases hget
  split_ifs at h with hkey hnonce
  · cases h
  · cases h
  · rw [Op.bind_eq_ok] at h
    obtain ⟨plaintext, _, hdec, h⟩ := h
    obtain ⟨hdec, rfl⟩ := Op.ofResult_eq_ok.mp hdec
    cases h
    exact ⟨by simpa using hkey, hnonce, hdec, rfl⟩

/-- A failed `decrypt` does not use up its nonce. -/
theorem decrypt_error (h : decrypt S message cs = (.error error, cs')) : cs' = cs := by
  rw [decrypt, Op.bind_eq_error] at h
  rcases h with h | ⟨_, _, hready, h⟩
  · exact (Op.ofResult_eq_error.mp h).2
  obtain ⟨-, rfl⟩ := Op.ofResult_eq_ok.mp hready
  rw [Op.bind_eq_error] at h
  rcases h with h | ⟨_, _, hget, h⟩
  · cases h
  cases hget
  split_ifs at h
  · cases h; rfl
  · cases h; rfl
  · rw [Op.bind_eq_error] at h
    rcases h with h | ⟨_, _, -, h⟩
    · exact (Op.ofResult_eq_error.mp h).2
    · cases h

end CipherState

/-- `NoiseHandshake::encode_frame` (`noise.cpp:763-775`). -/
def encodeFrame (message : Bytes) : Result Bytes :=
  if message.length > 65535 then .error "noise frame too large"
  else .ok (UInt8.ofNat (message.length >>> 8 &&& 0xFF) :: UInt8.ofNat (message.length &&& 0xFF) ::
    message)

/-- The length of a frame header, `(frame[0] << 8) | frame[1]`. -/
def frameLength (b0 b1 : UInt8) : ℕ := (b0.toNat <<< 8) ||| b1.toNat

/-- `NoiseHandshake::decode_frame` (`noise.cpp:777-788`). -/
def decodeFrame (frame : Bytes) : Result Bytes :=
  match frame with
  | b0 :: b1 :: rest =>
    if rest.length ≠ frameLength b0 b1 then .error "invalid noise frame length" else .ok rest
  | _ => .error "incomplete noise frame"

end PeerCore.Noise
