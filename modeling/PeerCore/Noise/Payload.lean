import PeerCore.Lib.Op
import PeerCore.MultistreamSelect

/-!
# The handshake payload

Model of libsodium as the code calls it, and of the protobuf codec of
`protocol/noise/noise.cpp`: identity keys, extensions and the handshake payload.

* `Sodium`: the primitives as parameters. `Sodium.Correct` collects what the
  library documents about them.
* `makeHandshakePayload`, `parseHandshakePayload`, `verifyHandshakePayload`.
* `parseExtensions_serialize`, `parseHandshakePayload_make`: the parser reads
  back what the writer wrote.
-/

namespace PeerCore.Noise

/-! ## libsodium -/

/-- The libsodium functions called by `noise.cpp`. `none` is a non-zero return
    code. -/
structure Sodium where
  /-- `sodium_init() >= 0`. -/
  ready : Bool
  /-- `crypto_hash_sha256`. -/
  sha256 : Bytes → Bytes32
  /-- `crypto_auth_hmacsha256_init`, `_update`, `_final`: key, then data. -/
  hmacSha256 : Bytes → Bytes → Option Bytes32
  /-- `crypto_scalarmult_curve25519`: secret key, then public key. -/
  scalarmult : Bytes32 → Bytes32 → Option Bytes32
  /-- `crypto_scalarmult_curve25519_base`. -/
  scalarmultBase : Bytes32 → Bytes32
  /-- `crypto_aead_chacha20poly1305_ietf_encrypt`: key, nonce, plaintext, associated data. -/
  aeadEncrypt : Bytes32 → Bytes → Bytes → Bytes → Option Bytes
  /-- `crypto_aead_chacha20poly1305_ietf_decrypt`: key, nonce, ciphertext, associated data. -/
  aeadDecrypt : Bytes32 → Bytes → Bytes → Bytes → Option Bytes
  /-- `crypto_sign_detached`: message, then secret key. -/
  signDetached : Bytes → List.Vector UInt8 64 → Option Bytes
  /-- `crypto_sign_verify_detached(...) == 0`: signature, message, public key. -/
  verifyDetached : Bytes → Bytes → Bytes32 → Bool
  /-- The public key of the Ed25519 key pair with the given seed. -/
  signPublic : Bytes32 → Bytes32

/-- `crypto_aead_chacha20poly1305_ietf_ABYTES`. -/
def aeadTagBytes : ℕ := 16

/-- The public half of an Ed25519 secret key, `secret_key.data() + 32`. -/
def secretKeyPublic (sk : List.Vector UInt8 64) : Bytes32 := copyN 32 (sk.toList.drop 32)

/-- `sk` is a secret key of `crypto_sign_keypair`: its second half is the public
    key of the seed in its first half. -/
def Sodium.IsSecretKey (S : Sodium) (sk : List.Vector UInt8 64) : Prop :=
  secretKeyPublic sk = S.signPublic (copyN 32 sk.toList)

/-- What libsodium documents: initialisation succeeds, hashing does not fail,
    Diffie-Hellman on generated keys commutes and does not fail, decryption
    inverts encryption, and a signature by a generated key verifies. -/
structure Sodium.Correct (S : Sodium) : Prop where
  ready : S.ready = true
  hmac : ∀ k d, ∃ out, S.hmacSha256 k d = some out
  dh : ∀ a b, ∃ shared, S.scalarmult a (S.scalarmultBase b) = some shared ∧
    S.scalarmult b (S.scalarmultBase a) = some shared
  aead : ∀ k n p ad, ∃ c, S.aeadEncrypt k n p ad = some c ∧ c.length = p.length + aeadTagBytes ∧
    S.aeadDecrypt k n c ad = some p
  sign : ∀ msg sk, S.IsSecretKey sk → ∃ sig, S.signDetached msg sk = some sig ∧
    sig.length = 64 ∧ S.verifyDetached sig msg (secretKeyPublic sk) = true

/-- `ensure_sodium_ready` (`noise.cpp:62-67`). -/
def ensureSodiumReady (S : Sodium) : Result Unit :=
  if S.ready then .ok () else .error "sodium_init failed"

/-! ## Protobuf fields -/

/-- `decode_uvarint` (`noise.cpp:28-45`). -/
def decodeUvarint : Bytes → Result (ℕ × Bytes) :=
  decodeVarint "invalid protobuf varint" "incomplete protobuf varint"

/-- `append_field_varint` (`noise.cpp:47-52`): the bytes appended. -/
def fieldVarint (fieldNo : UInt64) (value : UInt64) : Bytes :=
  Varint.encode ((fieldNo <<< 3) ||| 0) ++ Varint.encode value

/-- `append_field_bytes` (`noise.cpp:54-60`): the bytes appended. -/
def fieldBytes (fieldNo : UInt64) (value : Bytes) : Bytes :=
  Varint.encode ((fieldNo <<< 3) ||| 2) ++ (Varint.encode (UInt64.ofNat value.length) ++ value)

/-- `static_cast<uint32_t>(key >> 3)`. -/
def fieldNumber (key : ℕ) : ℕ := (key >>> 3) % 2 ^ 32

/-- `static_cast<uint32_t>(key & 0x07)`. -/
def wireType (key : ℕ) : ℕ := key &&& 0x07

/-! ## Identity keys -/

/-- `serialize_public_key_ed25519` (`noise.cpp:292-297`). -/
def serializePublicKey (publicKey : Bytes32) : Bytes := fieldVarint 1 1 ++ fieldBytes 2 publicKey.toList

/-- The loop of `parse_public_key_ed25519`. Here and in the other two field loops
    `fuel` starts as the length of the buffer and every iteration consumes a
    byte, so the buffer is empty when the fuel is used up. -/
def parsePublicKeyLoop : ℕ → Bytes → Option ℕ → Option Bytes32 → Result (Option ℕ × Option Bytes32)
  | 0, _, keyType, publicKey => .ok (keyType, publicKey)
  | fuel + 1, bytes, keyType, publicKey => do
    if bytes = [] then return (keyType, publicKey)
    let (key, bytes) ← decodeUvarint bytes
    if fieldNumber key = 1 ∧ wireType key = 0 then
      let (value, bytes) ← decodeUvarint bytes
      parsePublicKeyLoop fuel bytes (some value) publicKey
    else if fieldNumber key = 2 ∧ wireType key = 2 then
      let (len, bytes) ← decodeUvarint bytes
      if bytes.length < len ∨ len ≠ 32 then throw "invalid identity public key"
      else parsePublicKeyLoop fuel (bytes.drop 32) keyType (some (copyN 32 bytes))
    else throw "unsupported public key encoding"

/-- `parse_public_key_ed25519` (`noise.cpp:299-334`). -/
def parsePublicKey (bytes : Bytes) : Result Bytes32 :=
  match parsePublicKeyLoop bytes.length bytes none none with
  | .error e => .error e
  | .ok (some 1, some publicKey) => .ok publicKey
  | .ok _ => .error "invalid identity public key"

/-- `signature_message` (`noise.cpp:336-340`). -/
def signatureMessage (staticPub : Bytes32) : Bytes :=
  ascii "noise-libp2p-static-key:" ++ staticPub.toList

/-! ## Extensions -/

/-- `NoiseExtensions` (`noise.hpp:25-27`). -/
structure NoiseExtensions where
  streamMuxers : List ProtocolId := []
  deriving DecidableEq

/-- `serialize_extensions` (`noise.cpp:342-349`). -/
def serializeExtensions (ext : NoiseExtensions) : Bytes := (ext.streamMuxers.map (fieldBytes 2)).flatten

/-- The loop of `parse_extensions`. -/
def parseExtensionsLoop : ℕ → Bytes → List ProtocolId → Result (List ProtocolId)
  | 0, _, muxers => .ok muxers
  | fuel + 1, bytes, muxers => do
    if bytes = [] then return muxers
    let (key, bytes) ← decodeUvarint bytes
    if wireType key ≠ 2 then throw "unsupported noise extension"
    let (len, bytes) ← decodeUvarint bytes
    if bytes.length < len then throw "invalid noise extension"
    parseExtensionsLoop fuel (bytes.drop len)
      (if fieldNumber key = 2 then muxers ++ [bytes.take len] else muxers)

/-- `parse_extensions` (`noise.cpp:351-375`). -/
def parseExtensions (bytes : Bytes) : Result NoiseExtensions := do
  let muxers ← parseExtensionsLoop bytes.length bytes []
  pure ⟨muxers⟩

/-! ## The handshake payload -/

/-- `NoiseHandshakePayload` (`noise.hpp:57-61`). -/
structure NoiseHandshakePayload where
  identityKey : Bytes := []
  identitySig : Bytes := []
  extensions : NoiseExtensions := {}
  deriving DecidableEq

/-- `NoiseHandshake::make_handshake_payload` (`noise.cpp:660-693`). -/
def makeHandshakePayload (S : Sodium) (identity : Identity) (staticPub : Bytes32)
    (ext : NoiseExtensions) : Result Bytes := do
  ensureSodiumReady S
  let publicKey := serializePublicKey (secretKeyPublic identity.secretKey)
  match S.signDetached (signatureMessage staticPub) identity.secretKey with
  | none => throw "failed to sign noise static key"
  | some signature =>
    let encodedExtensions := serializeExtensions ext
    pure (fieldBytes 1 publicKey ++ (fieldBytes 2 signature ++
      if encodedExtensions.isEmpty then [] else fieldBytes 4 encodedExtensions))

/-- The loop of `NoiseHandshake::parse_handshake_payload`. -/
def parsePayloadLoop : ℕ → Bytes → NoiseHandshakePayload → Result NoiseHandshakePayload
  | 0, _, out => .ok out
  | fuel + 1, payload, out => do
    if payload = [] then return out
    let (key, payload) ← decodeUvarint payload
    if wireType key ≠ 2 then throw "invalid noise handshake payload"
    let (len, payload) ← decodeUvarint payload
    if payload.length < len then throw "invalid noise handshake payload"
    let field := payload.take len
    let payload := payload.drop len
    if fieldNumber key = 1 then parsePayloadLoop fuel payload { out with identityKey := field }
    else if fieldNumber key = 2 then parsePayloadLoop fuel payload { out with identitySig := field }
    else if fieldNumber key = 4 then
      let extensions ← parseExtensions field
      parsePayloadLoop fuel payload { out with extensions := extensions }
    else parsePayloadLoop fuel payload out

/-- `NoiseHandshake::parse_handshake_payload` (`noise.cpp:695-741`). -/
def parseHandshakePayload (payload : Bytes) : Result NoiseHandshakePayload := do
  let out ← parsePayloadLoop payload.length payload {}
  if out.identityKey = [] ∨ out.identitySig = [] then
    throw "missing identity data in handshake payload"
  pure out

/-- `NoiseHandshake::verify_handshake_payload` (`noise.cpp:743-761`). -/
def verifyHandshakePayload (S : Sodium) (payload : NoiseHandshakePayload) (staticPub : Bytes32) :
    Result Unit := do
  ensureSodiumReady S
  let identityPub ← parsePublicKey payload.identityKey
  if S.verifyDetached payload.identitySig (signatureMessage staticPub) identityPub then pure ()
  else throw "invalid noise static key signature"

/-! ## Reading back what was written -/

@[simp] theorem fieldNumber_bytes : ∀ n < 8, fieldNumber (((UInt64.ofNat n <<< 3) ||| 2 : UInt64).toNat) = n := by
  decide

@[simp] theorem wireType_bytes : ∀ n < 8, wireType (((UInt64.ofNat n <<< 3) ||| 2 : UInt64).toNat) = 2 := by
  decide

theorem decodeUvarint_encode (v : UInt64) (rest : Bytes) :
    decodeUvarint (Varint.encode v ++ rest) = .ok (v.toNat, rest) := by
  rw [decodeUvarint, decodeVarint, Varint.decode_encode]

theorem decodeUvarint_length {value : Bytes} (h : value.length < 2 ^ 64) (rest : Bytes) :
    decodeUvarint (Varint.encode (UInt64.ofNat value.length) ++ (value ++ rest)) =
      .ok (value.length, value ++ rest) := by
  rw [decodeUvarint_encode, UInt64.toNat_ofNat', Nat.mod_eq_of_lt h]

theorem fieldBytes_ne_nil (n : UInt64) (value : Bytes) : fieldBytes n value ≠ [] := by
  simp [fieldBytes, Varint.encode_ne_nil]

theorem fieldBytes_length (n : UInt64) (value : Bytes) :
    value.length + 2 ≤ (fieldBytes n value).length := by
  have h1 := List.length_pos_iff.mpr (Varint.encode_ne_nil ((n <<< 3) ||| 2))
  have h2 := List.length_pos_iff.mpr (Varint.encode_ne_nil (UInt64.ofNat value.length))
  simp [fieldBytes]; omega

theorem parsePublicKey_serialize (publicKey : Bytes32) :
    parsePublicKey (serializePublicKey publicKey) = .ok publicKey := by
  have hlen : publicKey.toList.length = 32 := by simp
  have h1 : serializePublicKey publicKey = 8 :: 1 :: 18 :: 32 :: publicKey.toList := by
    simp only [serializePublicKey, fieldVarint, fieldBytes, hlen]
    rw [show Varint.encode ((1 : UInt64) <<< 3 ||| 0) = [8] by decide,
      show Varint.encode 1 = [1] by decide, show Varint.encode ((2 : UInt64) <<< 3 ||| 2) = [18] by decide,
      show Varint.encode (UInt64.ofNat 32) = [32] by decide]
    rfl
  have hd : ∀ (b : UInt8) rest, b.toNat < 128 → decodeUvarint (b :: rest) = .ok (b.toNat, rest) := by
    intro b rest hb
    have h80 : b.toNat &&& 128 = 0 := by rw [Varint.and_80 (by omega)]; omega
    simp [decodeUvarint, decodeVarint, Varint.decode, Varint.decodeLoop, h80, Varint.and_7f]
    omega
  unfold parsePublicKey
  rw [h1]
  simp only [List.length_cons]
  rw [parsePublicKeyLoop, if_neg (by simp), hd 8 _ (by decide)]
  simp only [Except.ok_bind]
  rw [if_pos (by decide), hd 1 _ (by decide)]
  simp only [Except.ok_bind]
  rw [parsePublicKeyLoop, if_neg (by simp), hd 18 _ (by decide)]
  simp only [Except.ok_bind]
  rw [if_neg (by decide), if_pos (by decide), hd 32 _ (by decide)]
  simp only [Except.ok_bind, hlen]
  rw [if_neg (by decide), copyN_self, List.drop_eq_nil_of_le (by simp), parsePublicKeyLoop]
  rfl

/-- The extension loop reads the muxers one field at a time. -/
theorem parseExtensionsLoop_serialize :
    ∀ (muxers : List ProtocolId) (fuel : ℕ) (acc : List ProtocolId),
      ((muxers.map (fieldBytes 2)).flatten).length ≤ fuel →
      ((muxers.map (fieldBytes 2)).flatten).length < 2 ^ 64 →
      parseExtensionsLoop fuel (muxers.map (fieldBytes 2)).flatten acc = .ok (acc ++ muxers) := by
  intro muxers
  induction muxers with
  | nil =>
    intro fuel acc _ _
    cases fuel <;> simp [parseExtensionsLoop]
  | cons m ms ih =>
    intro fuel acc hfuel hfits
    have hm := fieldBytes_length 2 m
    simp only [List.map_cons, List.flatten_cons, List.length_append] at hfuel hfits ⊢
    obtain ⟨fuel, rfl⟩ : ∃ f, fuel = f + 1 := ⟨fuel - 1, by omega⟩
    rw [parseExtensionsLoop, if_neg (by simp [fieldBytes_ne_nil])]
    simp only [fieldBytes, List.append_assoc]
    rw [decodeUvarint_encode]
    simp only [Except.ok_bind]
    rw [if_neg (by decide), decodeUvarint_length (show m.length < 2 ^ 64 by omega)]
    simp only [Except.ok_bind]
    rw [if_neg (by simp), if_pos (by decide), List.drop_left' rfl, List.take_left' rfl]
    rw [ih fuel _ (by omega) (by omega)]
    simp

theorem parseExtensions_serialize {ext : NoiseExtensions}
    (h : (serializeExtensions ext).length < 2 ^ 64) :
    parseExtensions (serializeExtensions ext) = .ok ext := by
  unfold parseExtensions serializeExtensions at *
  rw [parseExtensionsLoop_serialize ext.streamMuxers _ [] le_rfl h]
  simp

/-- One iteration of the payload loop on a written field. -/
theorem parsePayloadLoop_field {n : ℕ} (hn : n < 8) {value : Bytes} (hfits : value.length < 2 ^ 64)
    (rest : Bytes) (fuel : ℕ) (out : NoiseHandshakePayload) :
    parsePayloadLoop (fuel + 1) (fieldBytes (UInt64.ofNat n) value ++ rest) out =
      (if n = 1 then parsePayloadLoop fuel rest { out with identityKey := value }
      else if n = 2 then parsePayloadLoop fuel rest { out with identitySig := value }
      else if n = 4 then do
        let extensions ← parseExtensions value
        parsePayloadLoop fuel rest { out with extensions := extensions }
      else parsePayloadLoop fuel rest out) := by
  rw [parsePayloadLoop, if_neg (by simp [fieldBytes_ne_nil])]
  simp only [fieldBytes, List.append_assoc]
  rw [decodeUvarint_encode]
  simp only [Except.ok_bind]
  rw [wireType_bytes n hn, fieldNumber_bytes n hn, if_neg (by simp), decodeUvarint_length hfits]
  simp only [Except.ok_bind]
  rw [if_neg (by simp), List.drop_left' rfl, List.take_left' rfl]

/-- The parser reads back the payload that `make_handshake_payload` writes for
    an identity key, a signature and extensions. -/
theorem parseHandshakePayload_make {key sig : Bytes} {ext : NoiseExtensions} (hkey : key ≠ [])
    (hsig : sig ≠ []) (hkeyFits : key.length < 2 ^ 64) (hsigFits : sig.length < 2 ^ 64)
    (hext : (serializeExtensions ext).length < 2 ^ 64) :
    parseHandshakePayload (fieldBytes 1 key ++ (fieldBytes 2 sig ++
      if (serializeExtensions ext).isEmpty then [] else fieldBytes 4 (serializeExtensions ext))) =
      .ok ⟨key, sig, ext⟩ := by
  have h1 := fieldBytes_length 1 key
  have h2 := fieldBytes_length 2 sig
  have step1 := parsePayloadLoop_field (n := 1) (by norm_num) hkeyFits
  have step2 := parsePayloadLoop_field (n := 2) (by norm_num) hsigFits
  have step4 := parsePayloadLoop_field (n := 4) (by norm_num) hext
  unfold parseHandshakePayload
  by_cases hempty : serializeExtensions ext = []
  · have hext' : ext = {} := by
      have := parseExtensions_serialize hext
      rw [hempty] at this
      simp only [parseExtensions, List.length_nil, parseExtensionsLoop, Except.ok_bind,
        Except.pure_eq_ok, Except.ok.injEq] at this
      exact this.symm
    have hlen : ∃ f, (fieldBytes 1 key ++ (fieldBytes 2 sig ++ [])).length = f + 1 + 1 :=
      ⟨(fieldBytes 1 key ++ (fieldBytes 2 sig ++ [])).length - 2, by simp; omega⟩
    obtain ⟨f, hf⟩ := hlen
    simp only [hempty, List.isEmpty_nil, if_true, hf]
    rw [show (1 : UInt64) = UInt64.ofNat 1 from rfl, show (2 : UInt64) = UInt64.ofNat 2 from rfl,
      step1, if_pos rfl, step2, if_neg (by norm_num), if_pos rfl]
    cases f <;> simp [parsePayloadLoop, hkey, hsig, hext']
  · have h4 := fieldBytes_length 4 (serializeExtensions ext)
    have hlen : ∃ f, (fieldBytes 1 key ++ (fieldBytes 2 sig ++
        fieldBytes 4 (serializeExtensions ext))).length = f + 1 + 1 + 1 :=
      ⟨(fieldBytes 1 key ++ (fieldBytes 2 sig ++
        fieldBytes 4 (serializeExtensions ext))).length - 3, by simp; omega⟩
    obtain ⟨f, hf⟩ := hlen
    simp only [List.isEmpty_iff, hempty, if_false, hf]
    rw [show (1 : UInt64) = UInt64.ofNat 1 from rfl, show (2 : UInt64) = UInt64.ofNat 2 from rfl,
      show (4 : UInt64) = UInt64.ofNat 4 from rfl, step1, if_pos rfl, step2, if_neg (by norm_num),
      if_pos rfl, ← List.append_nil (fieldBytes (UInt64.ofNat 4) _), step4, if_neg (by norm_num),
      if_neg (by norm_num), if_pos rfl, parseExtensions_serialize hext]
    cases f <;> simp [parsePayloadLoop, hkey, hsig]

end PeerCore.Noise
