import PeerCore.Lib.Traced
import PeerCore.Noise.Handshake

/-!
# The keys and nonces of a handshake

The functions of `Noise.Handshake` once more, with a `KeyLog` of the cipher keys
they derive and of the AEAD encryptions they perform. `Op.Erases` says that each
is the function it traces (`processMsg1Traced_erases`, …).

`At log cipher send` is the assertion the proofs step through: the log so far, the
handshake cipher and the sending cipher. Every call leaves an orderly log, however
it ends, and a successful one leaves the log its message needs
(`processMsg1Keys_ok`, `processMsg2Keys_ok`, `processMsg3Keys_ok`).
-/

namespace PeerCore.Noise

/-- What one handshake did with its keys: the ephemeral secret key, the keys `mix_key`
    put into the handshake cipher, the encryptions under them, and the transport keys. -/
structure KeyLog where
  ephemeral : Option Bytes32 := none
  mixed : List Bytes32 := []
  seals : List (Bytes32 × UInt64) := []
  split : List Bytes32 := []

namespace KeyLog

/-- The HKDF outputs used as keys, by their position in the handshake. -/
def derived (log : KeyLog) : List Bytes32 := log.mixed ++ log.split

/-- A handshake begins with its ephemeral key. -/
def start (ephemeral : Bytes32) : KeyLog := { ephemeral := some ephemeral }

/-- `mix_key` has derived a key. -/
def addMixed (log : KeyLog) (key : Bytes32) : KeyLog := { log with mixed := log.mixed ++ [key] }

/-- A message is encrypted. -/
def addSeal (log : KeyLog) (key : Bytes32) (nonce : UInt64) : KeyLog :=
  { log with seals := log.seals ++ [(key, nonce)] }

/-- The transport keys are derived. -/
def addSplit (log : KeyLog) (send recv : Bytes32) : KeyLog :=
  { log with split := log.split ++ [send, recv] }

/-- Encryptions use mixed keys, none is repeated if the keys are distinct, and keys are
    derived only with the ephemeral key in place. -/
structure Orderly (ephemeral : Bytes32) (log : KeyLog) : Prop where
  mixed : ∀ u ∈ log.seals, u.1 ∈ log.mixed
  nodup : log.mixed.Nodup → log.seals.Nodup
  ephemeral : log.derived ≠ [] → log.ephemeral = some ephemeral

namespace Orderly

variable {ephemeral : Bytes32} {log : KeyLog}

theorem empty : ({} : KeyLog).Orderly ephemeral :=
  ⟨by simp, fun _ => List.nodup_nil, fun h => absurd rfl h⟩

theorem start : (KeyLog.start ephemeral).Orderly ephemeral :=
  ⟨by simp [KeyLog.start], fun _ => List.nodup_nil, fun _ => rfl⟩

theorem addMixed (h : log.Orderly ephemeral) (he : log.ephemeral = some ephemeral) (key : Bytes32) :
    (log.addMixed key).Orderly ephemeral where
  mixed := fun u hu => List.mem_append_left _ (h.mixed u hu)
  nodup := fun hmixed => h.nodup (List.nodup_append.mp hmixed).1
  ephemeral := fun _ => he

theorem addSeal (h : log.Orderly ephemeral) {key : Bytes32} {nonce : UInt64}
    (hkey : key ∈ log.mixed) (hfresh : log.mixed.Nodup → (key, nonce) ∉ log.seals) :
    (log.addSeal key nonce).Orderly ephemeral where
  mixed := fun u hu => by
    rcases List.mem_append.mp hu with hu | hu
    · exact h.mixed u hu
    · rw [List.mem_singleton.mp hu]
      exact hkey
  nodup := fun hmixed => by
    rw [KeyLog.addSeal, List.nodup_append]
    refine ⟨h.nodup hmixed, List.nodup_singleton _, fun u hu v hv => ?_⟩
    rw [List.mem_singleton.mp hv]
    rintro rfl
    exact hfresh hmixed hu
  ephemeral := h.ephemeral

theorem addSplit (h : log.Orderly ephemeral) (he : log.ephemeral = some ephemeral)
    (send recv : Bytes32) : (log.addSplit send recv).Orderly ephemeral :=
  ⟨h.mixed, h.nodup, fun _ => he⟩

end Orderly

end KeyLog

/-! ## The traced functions -/

section Traced

variable (S : Sodium)

/-- A function on the session that keeps a `KeyLog`. -/
abbrev Traced (α : Type) := Op (NoiseSession × KeyLog) α

/-- `mix_key_dh`. -/
def mixKeyDhTraced (localKey : NoiseKeypair) (remotePub : Bytes32) : Traced Unit := do
  Op.lift (mixKeyDh S localKey remotePub)
  Op.note fun session log => log.addMixed session.handshakeCipher.key

/-- `encrypt_and_hash`. -/
def encryptAndHashTraced (plaintext : Bytes) : Traced Bytes := do
  let session ← Op.lift Op.get
  let ciphertext ← Op.lift (encryptAndHash S plaintext)
  Op.note fun _ log =>
    if session.handshakeCipher.hasKey = true then
      log.addSeal session.handshakeCipher.key session.handshakeCipher.nonce
    else log
  pure ciphertext

/-- `split_transport`. -/
def splitTransportTraced : Traced Unit := do
  Op.lift (splitTransport S)
  Op.note fun session log => log.addSplit session.csSend.key session.csRecv.key

/-- The two `take_or_generate_keypair` calls. -/
def takeKeypairsTraced (random : Entropy) : Traced Unit := do
  Op.lift (takeKeypairs S random)
  Op.note fun session log => { log with ephemeral := some session.ephemeral.secretKey }

/-- `write_msg1`. -/
def writeMsg1Traced (random : Entropy) : Traced Bytes := do
  Op.lift (Op.ofResult (ensureSodiumReady S))
  Op.lift (Op.modify fun s => { s with isInitiator := true })
  Op.lift (initializeSymmetric S)
  takeKeypairsTraced S random
  let session ← Op.lift Op.get
  let out := session.ephemeral.publicKey.toList
  Op.lift (mixHash S out)
  let payload ← encryptAndHashTraced S []
  pure (out ++ payload)

/-- `process_msg1`. -/
def processMsg1Traced (random : Entropy) (msg1 : Bytes) : Traced Bytes := do
  Op.lift (Op.ofResult (ensureSodiumReady S))
  if msg1.length < 32 then Op.fail "invalid msg1 size"
  else
    Op.lift (Op.modify fun s => { s with isInitiator := false })
    Op.lift (initializeSymmetric S)
    Op.lift (Op.modify fun s =>
      { s with remoteEphemeralPub := copyN 32 msg1, hasRemoteEphemeral := true })
    Op.lift (mixHash S (msg1.take 32))
    let _ ← Op.lift (Op.mapError ("noise msg1 payload decrypt failed: " ++ ·)
      (decryptAndHash S (msg1.drop 32)))
    takeKeypairsTraced S random
    let session ← Op.lift Op.get
    Op.lift (mixHash S session.ephemeral.publicKey.toList)
    mixKeyDhTraced S session.ephemeral session.remoteEphemeralPub
    let encryptedStatic ← encryptAndHashTraced S session.staticKey.publicKey.toList
    mixKeyDhTraced S session.staticKey session.remoteEphemeralPub
    let payload ← Op.lift (Op.ofResult (makeLocalPayload S session))
    let encryptedPayload ← encryptAndHashTraced S payload
    pure (session.ephemeral.publicKey.toList ++ (encryptedStatic ++ encryptedPayload))

/-- The half of `process_msg2` that reads the message. -/
def readMsg2Traced (msg2 : Bytes) : Traced Unit := do
  Op.lift (Op.ofResult (ensureSodiumReady S))
  if msg2.length < 32 + encryptedStaticLen then Op.fail "invalid msg2 size"
  else
    Op.lift (Op.modify fun s =>
      { s with remoteEphemeralPub := copyN 32 msg2, hasRemoteEphemeral := true })
    Op.lift (mixHash S (msg2.take 32))
    let session ← Op.lift Op.get
    mixKeyDhTraced S session.ephemeral session.remoteEphemeralPub
    let remoteStatic ← Op.lift (Op.mapError ("noise msg2 static decrypt failed: " ++ ·)
      (decryptAndHash S ((msg2.drop 32).take encryptedStaticLen)))
    if remoteStatic.length ≠ 32 then Op.fail "invalid noise static key"
    else
      Op.lift (Op.modify fun s =>
        { s with remoteStaticPub := copyN 32 remoteStatic, hasRemoteStatic := true })
      mixKeyDhTraced S session.ephemeral (copyN 32 remoteStatic)
      let remotePayload ← Op.lift (Op.mapError ("noise msg2 payload decrypt failed: " ++ ·)
        (decryptAndHash S (msg2.drop (32 + encryptedStaticLen))))
      Op.lift (verifyRemoteIdentity S remotePayload)

/-- The half of `process_msg2` that writes msg3. -/
def writeMsg3Traced : Traced Bytes := do
  let session ← Op.lift Op.get
  let encryptedStatic ← encryptAndHashTraced S session.staticKey.publicKey.toList
  mixKeyDhTraced S session.staticKey session.remoteEphemeralPub
  let payload ← Op.lift (Op.ofResult (makeLocalPayload S session))
  let encryptedPayload ← encryptAndHashTraced S payload
  splitTransportTraced S
  Op.lift (Op.modify fun s => { s with handshakeComplete := true })
  pure (encryptedStatic ++ encryptedPayload)

/-- `process_msg2`. -/
def processMsg2Traced (msg2 : Bytes) : Traced Bytes := do
  readMsg2Traced S msg2
  writeMsg3Traced S

/-- `process_msg3`. -/
def processMsg3Traced (msg3 : Bytes) : Traced Unit := do
  if msg3.length < encryptedStaticLen then Op.fail "invalid msg3 size"
  else
    let session ← Op.lift Op.get
    let remoteStatic ← Op.lift (Op.mapError ("noise msg3 static decrypt failed: " ++ ·)
      (decryptAndHash S (msg3.take encryptedStaticLen)))
    if remoteStatic.length ≠ 32 then Op.fail "invalid noise static key"
    else
      Op.lift (Op.modify fun s =>
        { s with remoteStaticPub := copyN 32 remoteStatic, hasRemoteStatic := true })
      mixKeyDhTraced S session.ephemeral (copyN 32 remoteStatic)
      let remotePayload ← Op.lift (Op.mapError ("noise msg3 payload decrypt failed: " ++ ·)
        (decryptAndHash S (msg3.drop encryptedStaticLen)))
      Op.lift (verifyRemoteIdentity S remotePayload)
      splitTransportTraced S
      Op.lift (Op.modify fun s => { s with handshakeComplete := true })

end Traced

/-! ## They are the functions they trace -/

section Erases

open Op (Erases)

variable (S : Sodium)

theorem takeKeypairsTraced_erases (random : Entropy) :
    Erases (takeKeypairsTraced S random) (takeKeypairs S random) := (Erases.lift _).then_note _

theorem mixKeyDhTraced_erases (localKey : NoiseKeypair) (remotePub : Bytes32) :
    Erases (mixKeyDhTraced S localKey remotePub) (mixKeyDh S localKey remotePub) :=
  (Erases.lift _).then_note _

theorem splitTransportTraced_erases : Erases (splitTransportTraced S) (splitTransport S) :=
  (Erases.lift _).then_note _

theorem encryptAndHashTraced_erases (plaintext : Bytes) :
    Erases (encryptAndHashTraced S plaintext) (encryptAndHash S plaintext) := fun session log =>
  (Erases.lift (encryptAndHash S plaintext)).noted (fun _ _ (log : KeyLog) =>
    if session.handshakeCipher.hasKey = true then
      log.addSeal session.handshakeCipher.key session.handshakeCipher.nonce
    else log) session log

theorem writeMsg1Traced_erases (random : Entropy) :
    Erases (writeMsg1Traced S random) (writeMsg1Body S random) :=
  (Erases.lift _).bind fun _ => (Erases.lift _).bind fun _ => (Erases.lift _).bind fun _ =>
    (takeKeypairsTraced_erases S random).bind fun _ => (Erases.lift _).bind fun _ =>
      (Erases.lift _).bind fun _ => (encryptAndHashTraced_erases S _).bind fun _ => Erases.pure _

theorem processMsg1Traced_erases (random : Entropy) (msg1 : Bytes) :
    Erases (processMsg1Traced S random msg1) (processMsg1 S random msg1) := by
  refine (Erases.lift _).bind fun _ => ?_
  split_ifs
  · exact Erases.fail _
  refine (Erases.lift _).bind fun _ => (Erases.lift _).bind fun _ => (Erases.lift _).bind fun _ =>
    (Erases.lift _).bind fun _ => (Erases.lift _).bind fun _ =>
      (takeKeypairsTraced_erases S random).bind fun _ => (Erases.lift _).bind fun session =>
        (Erases.lift _).bind fun _ => ?_
  exact (mixKeyDhTraced_erases S _ _).bind fun _ => (encryptAndHashTraced_erases S _).bind fun _ =>
    (mixKeyDhTraced_erases S _ _).bind fun _ => (Erases.lift _).bind fun _ =>
      (encryptAndHashTraced_erases S _).bind fun _ => Erases.pure _

theorem readMsg2Traced_erases (msg2 : Bytes) :
    Erases (readMsg2Traced S msg2) (readMsg2 S msg2) := by
  refine (Erases.lift _).bind fun _ => ?_
  split_ifs
  · exact Erases.fail _
  refine (Erases.lift _).bind fun _ => (Erases.lift _).bind fun _ => (Erases.lift _).bind fun _ =>
    (mixKeyDhTraced_erases S _ _).bind fun _ => (Erases.lift _).bind fun remoteStatic => ?_
  split_ifs
  · exact Erases.fail _
  exact (Erases.lift _).bind fun _ => (mixKeyDhTraced_erases S _ _).bind fun _ =>
    (Erases.lift _).bind fun _ => Erases.lift _

theorem writeMsg3Traced_erases : Erases (writeMsg3Traced S) (writeMsg3 S) :=
  (Erases.lift _).bind fun _ => (encryptAndHashTraced_erases S _).bind fun _ =>
    (mixKeyDhTraced_erases S _ _).bind fun _ => (Erases.lift _).bind fun _ =>
      (encryptAndHashTraced_erases S _).bind fun _ => (splitTransportTraced_erases S).bind fun _ =>
        (Erases.lift _).bind fun _ => Erases.pure _

theorem processMsg2Traced_erases (msg2 : Bytes) :
    Erases (processMsg2Traced S msg2) (processMsg2 S msg2) :=
  (readMsg2Traced_erases S msg2).bind fun _ => writeMsg3Traced_erases S

theorem processMsg3Traced_erases (msg3 : Bytes) :
    Erases (processMsg3Traced S msg3) (processMsg3 S msg3) := by
  unfold processMsg3Traced processMsg3
  split_ifs
  · exact Erases.fail _
  refine (Erases.lift _).bind fun session => (Erases.lift _).bind fun remoteStatic => ?_
  split_ifs
  · exact Erases.fail _
  exact (Erases.lift _).bind fun _ => (mixKeyDhTraced_erases S _ _).bind fun _ =>
    (Erases.lift _).bind fun _ => (Erases.lift _).bind fun _ =>
      (splitTransportTraced_erases S).bind fun _ => Erases.lift _

/-- `write_msg1` returns no bytes where it fails. -/
theorem writeMsg1_body (random : Entropy) (session : NoiseSession) :
    (writeMsg1 S random session).2 = (writeMsg1Body S random session).2 ∧
      ((writeMsg1 S random session).1 ≠ [] →
        ∃ out, (writeMsg1Body S random session).1 = .ok out) := by
  unfold writeMsg1
  rcases writeMsg1Body S random session with ⟨e | out, s⟩
  · exact ⟨rfl, fun h => absurd rfl h⟩
  · exact ⟨rfl, fun _ => ⟨out, rfl⟩⟩

end Erases

/-! ## Steps -/

/-- The handshake cipher and the sending cipher of a session that has no configured
    ephemeral key. -/
structure Ciphers (cipher send : CipherState) (s : NoiseSession) : Prop where
  cipher : s.handshakeCipher = cipher
  send : s.csSend = send
  generates : s.configuredEphemeral = none

/-- The ciphers and the log so far. -/
def At (log : KeyLog) (cipher send : CipherState) (s : NoiseSession × KeyLog) : Prop :=
  Ciphers cipher send s.1 ∧ s.2 = log

section Steps

open Op (Triple)

variable {S : Sodium} {α : Type} {log : KeyLog} {cipher send : CipherState} {key : Bytes32}
  {nonce : UInt64} {E : NoiseSession → Prop}

/-- A change of neither cipher. -/
theorem Ciphers.modify {f : NoiseSession → NoiseSession}
    (hf : ∀ s, (f s).handshakeCipher = s.handshakeCipher ∧ (f s).csSend = s.csSend ∧
      (f s).configuredEphemeral = s.configuredEphemeral) :
    Triple (Ciphers cipher send) (Op.modify f) (fun _ => Ciphers cipher send) E :=
  Triple.modify fun s hs =>
    ⟨(hf s).1.trans hs.cipher, (hf s).2.1.trans hs.send, (hf s).2.2.trans hs.generates⟩

theorem Ciphers.ofResult (r : Result α) :
    Triple (Ciphers cipher send) (Op.ofResult r) (fun _ => Ciphers cipher send)
      (Ciphers cipher send) :=
  Triple.ofResult (fun _ _ hs => hs) fun _ hs => hs

theorem Ciphers.get_bind {f : NoiseSession → Op NoiseSession α} {Q : α → NoiseSession → Prop}
    (h : ∀ t, Triple (Ciphers cipher send) (f t) Q E) :
    Triple (Ciphers cipher send) (Op.get >>= f) Q E :=
  Triple.get_bind fun t ht => (h t).weaken (fun s hs => by rwa [hs]) (fun _ _ h => h) fun _ h => h

theorem mixHash_ciphers (data : Bytes) :
    Triple (Ciphers cipher send) (mixHash S data) (fun _ => Ciphers cipher send) E :=
  Ciphers.modify (by exact fun _ => ⟨rfl, rfl, rfl⟩)

theorem verifyRemoteIdentity_ciphers (payload : Bytes) :
    Triple (Ciphers cipher send) (verifyRemoteIdentity S payload) (fun _ => Ciphers cipher send)
      (Ciphers cipher send) := by
  unfold verifyRemoteIdentity
  split_ifs
  · exact Ciphers.modify (by exact fun _ => ⟨rfl, rfl, rfl⟩)
  · exact (Ciphers.ofResult _).bind fun _ => Ciphers.get_bind fun _ =>
      (Ciphers.ofResult _).bind fun _ => (Ciphers.ofResult _).bind fun _ =>
        Ciphers.modify (by exact fun _ => ⟨rfl, rfl, rfl⟩)

theorem mixKeyDh_ciphers (localKey : NoiseKeypair) (remotePub : Bytes32) :
    Triple (Ciphers cipher send) (mixKeyDh S localKey remotePub)
      (fun _ s => ∃ key, Ciphers ⟨key, 0, true⟩ send s) (Ciphers cipher send) :=
  (Ciphers.ofResult _).bind fun _ => Ciphers.get_bind fun _ => (Ciphers.ofResult _).bind fun derived =>
    Triple.modify fun _ hs => ⟨derived.2, rfl, hs.send, hs.generates⟩

/-- Without a key, `decrypt_and_hash` and `encrypt_and_hash` only hash. -/
theorem decryptAndHash_plain_ciphers (hkey : cipher.hasKey = false) (ciphertext : Bytes) :
    Triple (Ciphers cipher send) (decryptAndHash S ciphertext) (fun _ => Ciphers cipher send) E := by
  refine Triple.get_bind fun session hsession => ?_
  rw [if_pos (by rw [hsession.cipher, hkey])]
  refine Triple.bind ?_ fun _ => Triple.pure fun _ hs => hs
  exact (mixHash_ciphers ciphertext).weaken (fun s hs => by rwa [hs]) (fun _ _ hs => hs) fun _ hs => hs

theorem encryptAndHash_plain_ciphers (hkey : cipher.hasKey = false) (plaintext : Bytes) :
    Triple (Ciphers cipher send) (encryptAndHash S plaintext) (fun _ => Ciphers cipher send) E := by
  refine Triple.get_bind fun session hsession => ?_
  rw [if_pos (by rw [hsession.cipher, hkey])]
  refine Triple.bind ?_ fun _ => Triple.pure fun _ hs => hs
  exact (mixHash_ciphers plaintext).weaken (fun s hs => by rwa [hs]) (fun _ _ hs => hs) fun _ hs => hs

/-- With a key, they use up a nonce. -/
theorem decryptAndHash_ciphers (ciphertext : Bytes) :
    Triple (Ciphers ⟨key, nonce, true⟩ send) (decryptAndHash S ciphertext)
      (fun _ => Ciphers ⟨key, nonce + 1, true⟩ send) (Ciphers ⟨key, nonce, true⟩ send) := by
  refine Triple.get_bind fun session hsession => ?_
  rw [if_neg (by rw [hsession.cipher]; simp)]
  refine Triple.bind ((Ciphers.ofResult _).weaken (fun s hs => by rwa [hs]) (fun _ _ hs => hs)
    fun _ hs => hs) fun plaintext => ?_
  refine Triple.bind (Triple.modify fun s hs => ?_) fun _ =>
    (mixHash_ciphers ciphertext).bind fun _ => Triple.pure fun _ hs => hs
  refine ⟨?_, hs.send, hs.generates⟩
  dsimp only
  rw [hs.cipher]

theorem encryptAndHash_ciphers (plaintext : Bytes) :
    Triple (Ciphers ⟨key, nonce, true⟩ send) (encryptAndHash S plaintext)
      (fun _ => Ciphers ⟨key, nonce + 1, true⟩ send) (Ciphers ⟨key, nonce, true⟩ send) := by
  refine Triple.get_bind fun session hsession => ?_
  rw [if_neg (by rw [hsession.cipher]; simp)]
  refine Triple.bind ((Ciphers.ofResult _).weaken (fun s hs => by rwa [hs]) (fun _ _ hs => hs)
    fun _ hs => hs) fun ciphertext => ?_
  refine Triple.bind (Triple.modify fun s hs => ?_) fun _ =>
    (mixHash_ciphers ciphertext).bind fun _ => Triple.pure fun _ hs => hs
  refine ⟨?_, hs.send, hs.generates⟩
  dsimp only
  rw [hs.cipher]

theorem splitTransport_ciphers :
    Triple (Ciphers cipher send) (splitTransport S)
      (fun _ s => ∃ key, Ciphers cipher ⟨key, 0, true⟩ s) (Ciphers cipher send) := by
  refine Ciphers.get_bind fun session => (Ciphers.ofResult _).bind fun derived => ?_
  split_ifs
  · exact Triple.modify fun _ hs => ⟨derived.1, hs.cipher, rfl, hs.generates⟩
  · exact Triple.modify fun _ hs => ⟨derived.2, hs.cipher, rfl, hs.generates⟩

/-! ### The traced steps -/

variable {F : NoiseSession × KeyLog → Prop}

theorem At.lift {x : Op NoiseSession α} {P : NoiseSession → Prop} {Q : α → NoiseSession → Prop}
    (hx : Triple (Ciphers cipher send) x Q P) (hF : ∀ s, P s.1 ∧ s.2 = log → F s) :
    Triple (At log cipher send) (Op.lift x) (fun a s => Q a s.1 ∧ s.2 = log) F :=
  (hx.lift log).weaken (fun _ hs => hs) (fun _ _ hs => hs) hF

/-- A step that cannot fail. -/
theorem At.total {x : Op NoiseSession α} {Q : α → NoiseSession → Prop}
    (hx : Triple (Ciphers cipher send) x Q fun _ => False) :
    Triple (At log cipher send) (Op.lift x) (fun a s => Q a s.1 ∧ s.2 = log) F :=
  At.lift hx fun _ hs => hs.1.elim

theorem mixKeyDhTraced_at (localKey : NoiseKeypair) (remotePub : Bytes32)
    (hF : ∀ s, At log cipher send s → F s) :
    Triple (At log cipher send) (mixKeyDhTraced S localKey remotePub)
      (fun _ s => ∃ key, At (log.addMixed key) ⟨key, 0, true⟩ send s) F := by
  refine (At.lift (mixKeyDh_ciphers localKey remotePub) hF).bind fun _ => Triple.modify fun s hs => ?_
  obtain ⟨⟨key, hciphers⟩, hlog⟩ := hs
  refine ⟨key, hciphers, ?_⟩
  dsimp only
  rw [hlog, hciphers.cipher]

theorem At.get :
    Triple (At log cipher send) (Op.lift Op.get)
      (fun session s => session.handshakeCipher = cipher ∧ At log cipher send s) F where
  ok := fun hs hrun => by
    cases hrun
    exact ⟨hs.1.cipher, hs⟩
  error := fun _ hrun => by cases hrun

theorem encryptAndHashTraced_plain (hkey : cipher.hasKey = false) (plaintext : Bytes) :
    Triple (At log cipher send) (encryptAndHashTraced S plaintext) (fun _ => At log cipher send) F := by
  refine At.get.bind fun session => Triple.of_fact fun hsession => ?_
  refine (At.total (encryptAndHash_plain_ciphers hkey plaintext)).bind fun ciphertext => ?_
  refine Triple.bind (Triple.modify fun s hs => ?_) fun _ => Triple.pure fun _ hs => hs
  refine ⟨hs.1, ?_⟩
  dsimp only
  rw [hsession, hkey, if_neg Bool.false_ne_true, hs.2]

theorem encryptAndHashTraced_at (plaintext : Bytes)
    (hF : ∀ s, At log ⟨key, nonce, true⟩ send s → F s) :
    Triple (At log ⟨key, nonce, true⟩ send) (encryptAndHashTraced S plaintext)
      (fun _ => At (log.addSeal key nonce) ⟨key, nonce + 1, true⟩ send) F := by
  refine At.get.bind fun session => Triple.of_fact fun hsession => ?_
  refine (At.lift (encryptAndHash_ciphers plaintext) hF).bind fun ciphertext => ?_
  refine Triple.bind (Triple.modify fun s hs => ?_) fun _ => Triple.pure fun _ hs => hs
  refine ⟨hs.1, ?_⟩
  dsimp only
  rw [hsession, if_pos rfl, hs.2]

theorem splitTransportTraced_at (hF : ∀ s, At log cipher send s → F s) :
    Triple (At log cipher send) (splitTransportTraced S)
      (fun _ s => ∃ key recv, At (log.addSplit key recv) cipher ⟨key, 0, true⟩ s) F := by
  refine (At.lift splitTransport_ciphers hF).bind fun _ => Triple.modify fun s hs => ?_
  obtain ⟨⟨key, hciphers⟩, hlog⟩ := hs
  refine ⟨key, s.1.csRecv.key, hciphers, ?_⟩
  dsimp only
  rw [hlog, hciphers.send]

theorem initializeSymmetric_ciphers :
    Triple (Ciphers cipher send) (initializeSymmetric S) (fun _ => Ciphers {} {}) E :=
  Triple.bind (Triple.modify fun _ hs => ⟨rfl, rfl, hs.generates⟩) fun _ => mixHash_ciphers []

end Steps

/-! ## The messages -/

/-- A handshake that failed: its log is in order, and the transport is as before. -/
structure Broken (ephemeral : Bytes32) (send : CipherState) (s : NoiseSession × KeyLog) : Prop where
  orderly : s.2.Orderly ephemeral
  send : s.1.csSend = send
  generates : s.1.configuredEphemeral = none

/-- A handshake that succeeded: a new transport key, at its first nonce. -/
structure Keyed (ephemeral : Bytes32) (s : NoiseSession × KeyLog) : Prop where
  orderly : s.2.Orderly ephemeral
  send : ∃ key ∈ s.2.split, s.1.csSend = ⟨key, 0, true⟩
  generates : s.1.configuredEphemeral = none

/-- The log of a responder that waits for msg3. -/
def KeyLog.afterMsg1 (ephemeral key₁ key₂ : Bytes32) : KeyLog :=
  (((KeyLog.start ephemeral).addMixed key₁).addSeal key₁ 0 |>.addMixed key₂).addSeal key₂ 0

theorem KeyLog.afterMsg1_orderly (ephemeral key₁ key₂ : Bytes32) :
    (KeyLog.afterMsg1 ephemeral key₁ key₂).Orderly ephemeral := by
  refine ⟨?_, ?_, fun _ => rfl⟩
  · simp [KeyLog.afterMsg1, KeyLog.start, KeyLog.addMixed, KeyLog.addSeal]
  · simp [KeyLog.afterMsg1, KeyLog.start, KeyLog.addMixed, KeyLog.addSeal]

theorem At.broken {ephemeral : Bytes32} {log : KeyLog} {cipher send : CipherState}
    (h : log.Orderly ephemeral) : ∀ s, At log cipher send s → Broken ephemeral send s := fun s hs => by
  refine ⟨?_, hs.1.send, hs.1.generates⟩
  rw [hs.2]
  exact h

section Messages

open Op (Triple)

variable {S : Sodium} {α : Type} {ephemeral : Bytes32} {log : KeyLog} {cipher send : CipherState}

/-- A step that changes neither cipher, while the log is in order. -/
theorem At.kept {x : Op NoiseSession α} (hlog : log.Orderly ephemeral)
    (hx : Triple (Ciphers cipher send) x (fun _ => Ciphers cipher send) (Ciphers cipher send)) :
    Triple (At log cipher send) (Op.lift x) (fun _ => At log cipher send) (Broken ephemeral send) :=
  At.lift hx (At.broken hlog)

/-- No key pair is configured, so the ephemeral key is the random one. -/
theorem takeKeypairs_ciphers (random : Entropy) {E : NoiseSession → Prop} :
    Triple (Ciphers cipher send) (takeKeypairs S random)
      (fun _ s => s.ephemeral.secretKey = random.ephemeral ∧ Ciphers cipher send s) E := by
  refine Triple.modify fun s hs => ⟨?_, hs.cipher, hs.send, rfl⟩
  dsimp only
  rw [hs.generates]
  rfl

theorem takeKeypairsTraced_at (random : Entropy) {F : NoiseSession × KeyLog → Prop} :
    Triple (At {} cipher send) (takeKeypairsTraced S random)
      (fun _ => At (KeyLog.start random.ephemeral) cipher send) F := by
  refine (At.total (takeKeypairs_ciphers random)).bind fun _ => Triple.modify fun s hs => ?_
  refine ⟨hs.1.2, ?_⟩
  dsimp only
  rw [hs.1.1, hs.2]
  rfl

theorem writeMsg1Traced_at (random : Entropy) :
    Triple (At {} cipher send) (writeMsg1Traced S random)
      (fun _ => At (KeyLog.start random.ephemeral) {} {}) (Broken ephemeral send) := by
  refine (At.kept .empty (Ciphers.ofResult _)).bind fun _ => ?_
  refine (At.total (Ciphers.modify (by exact fun _ => ⟨rfl, rfl, rfl⟩))).bind fun _ => ?_
  refine (At.total initializeSymmetric_ciphers).bind fun _ => ?_
  refine (takeKeypairsTraced_at random).bind fun _ => ?_
  refine At.get.bind fun session => Triple.of_fact fun _ => ?_
  refine (At.total (mixHash_ciphers _)).bind fun _ => ?_
  exact (encryptAndHashTraced_plain rfl []).bind fun _ => Triple.pure fun _ hs => hs

theorem processMsg1Traced_at (random : Entropy) (msg1 : Bytes) :
    Triple (At {} cipher send) (processMsg1Traced S random msg1)
      (fun _ s => ∃ key₁ key₂,
        At (KeyLog.afterMsg1 random.ephemeral key₁ key₂) ⟨key₂, 1, true⟩ {} s)
      (fun s => Broken random.ephemeral send s ∨ Broken random.ephemeral {} s) := by
  refine (At.lift (Ciphers.ofResult _) fun s hs => .inl (At.broken .empty s hs)).bind fun _ => ?_
  split_ifs
  · exact Triple.fail fun s hs => .inl (At.broken .empty s hs)
  refine (At.total (Ciphers.modify (by exact fun _ => ⟨rfl, rfl, rfl⟩))).bind fun _ => ?_
  refine (At.total initializeSymmetric_ciphers).bind fun _ => ?_
  refine (At.total (Ciphers.modify (by exact fun _ => ⟨rfl, rfl, rfl⟩))).bind fun _ => ?_
  refine (At.total (mixHash_ciphers _)).bind fun _ => ?_
  refine (At.total ((decryptAndHash_plain_ciphers rfl _).mapError _)).bind fun _ => ?_
  refine (takeKeypairsTraced_at random).bind fun _ => ?_
  refine At.get.bind fun session => Triple.of_fact fun _ => ?_
  refine (At.total (mixHash_ciphers _)).bind fun _ => ?_
  refine (mixKeyDhTraced_at _ _ fun s hs => .inr (At.broken .start s hs)).bind fun _ =>
    Triple.exists_pre fun key₁ => ?_
  have hstart : (KeyLog.start random.ephemeral).Orderly random.ephemeral := .start
  have h₁ := hstart.addMixed rfl key₁
  refine (encryptAndHashTraced_at _ fun s hs => .inr (At.broken h₁ s hs)).bind fun _ => ?_
  have h₁' := h₁.addSeal (List.mem_append_right _ (List.mem_singleton_self key₁))
    fun _ (hmem : (key₁, (0 : UInt64)) ∈ []) => by cases hmem
  refine (mixKeyDhTraced_at _ _ fun s hs => .inr (At.broken h₁' s hs)).bind fun _ =>
    Triple.exists_pre fun key₂ => ?_
  have h₂ := h₁'.addMixed rfl key₂
  refine (At.lift (Ciphers.ofResult _) fun s hs => .inr (At.broken h₂ s hs)).bind fun _ => ?_
  refine (encryptAndHashTraced_at _ fun s hs => .inr (At.broken h₂ s hs)).bind fun _ => ?_
  exact Triple.pure fun _ hs => ⟨key₁, key₂, hs⟩

theorem readMsg2Traced_at (msg2 : Bytes) :
    Triple (At (KeyLog.start ephemeral) cipher send) (readMsg2Traced S msg2)
      (fun _ s => ∃ key₁ key₂,
        At (((KeyLog.start ephemeral).addMixed key₁).addMixed key₂) ⟨key₂, 1, true⟩ send s)
      (Broken ephemeral send) := by
  refine (At.kept .start (Ciphers.ofResult _)).bind fun _ => ?_
  split_ifs
  · exact Triple.fail (At.broken .start)
  refine (At.total (Ciphers.modify (by exact fun _ => ⟨rfl, rfl, rfl⟩))).bind fun _ => ?_
  refine (At.total (mixHash_ciphers _)).bind fun _ => ?_
  refine At.get.bind fun session => Triple.of_fact fun _ => ?_
  refine (mixKeyDhTraced_at _ _ (At.broken .start)).bind fun _ => Triple.exists_pre fun key₁ => ?_
  have hstart : (KeyLog.start ephemeral).Orderly ephemeral := .start
  have h₁ := hstart.addMixed rfl key₁
  refine (At.lift ((decryptAndHash_ciphers _).mapError _) (At.broken h₁)).bind fun remoteStatic => ?_
  split_ifs
  · exact Triple.fail fun s hs => At.broken h₁ s hs
  refine (At.total (Ciphers.modify (by exact fun _ => ⟨rfl, rfl, rfl⟩))).bind fun _ => ?_
  refine (mixKeyDhTraced_at _ _ (At.broken h₁)).bind fun _ => Triple.exists_pre fun key₂ => ?_
  have h₂ := h₁.addMixed rfl key₂
  refine (At.lift ((decryptAndHash_ciphers _).mapError _) (At.broken h₂)).bind fun _ => ?_
  exact (At.kept h₂ (verifyRemoteIdentity_ciphers _)).weaken (fun _ hs => hs)
    (fun _ _ hs => ⟨key₁, key₂, hs⟩) fun _ hs => hs

theorem splitTransportTraced_keyed (hlog : log.Orderly ephemeral)
    (he : log.ephemeral = some ephemeral) :
    Triple (At log cipher send) (splitTransportTraced S) (fun _ => Keyed ephemeral)
      (Broken ephemeral send) := by
  refine (splitTransportTraced_at (At.broken hlog)).weaken (fun _ hs => hs) ?_ fun _ hs => hs
  intro _ s hs
  obtain ⟨key, recv, hciphers, hsplit⟩ := hs
  refine ⟨?_, ⟨key, ?_, hciphers.send⟩, hciphers.generates⟩
  · rw [hsplit]
    exact hlog.addSplit he key recv
  · rw [hsplit]
    simp [KeyLog.addSplit]

/-- The last step of a handshake touches no key. -/
theorem Keyed.complete {F : NoiseSession × KeyLog → Prop} :
    Triple (Keyed ephemeral) (Op.lift (Op.modify fun s => { s with handshakeComplete := true }))
      (fun _ => Keyed ephemeral) F :=
  Triple.modify fun _ hs => ⟨hs.orderly, hs.send, hs.generates⟩

theorem writeMsg3Traced_at (key₁ key₂ : Bytes32) :
    Triple (At (((KeyLog.start ephemeral).addMixed key₁).addMixed key₂) ⟨key₂, 1, true⟩ send)
      (writeMsg3Traced S) (fun _ => Keyed ephemeral) (Broken ephemeral send) := by
  have hstart : (KeyLog.start ephemeral).Orderly ephemeral := .start
  have h₂ := (hstart.addMixed rfl key₁).addMixed rfl key₂
  refine At.get.bind fun session => Triple.of_fact fun _ => ?_
  refine (encryptAndHashTraced_at _ (At.broken h₂)).bind fun _ => ?_
  have h₂' := h₂.addSeal (List.mem_append_right _ (List.mem_singleton_self key₂))
    fun _ (hmem : (key₂, (1 : UInt64)) ∈ []) => by cases hmem
  refine (mixKeyDhTraced_at _ _ (At.broken h₂')).bind fun _ => Triple.exists_pre fun key₃ => ?_
  have h₃ := h₂'.addMixed rfl key₃
  refine (At.kept h₃ (Ciphers.ofResult _)).bind fun _ => ?_
  refine (encryptAndHashTraced_at _ (At.broken h₃)).bind fun _ => ?_
  have h₃' := h₃.addSeal (List.mem_append_right _ (List.mem_singleton_self key₃))
    fun _ (hmem : (key₃, (0 : UInt64)) ∈ [(key₂, 1)]) => by
      have hnonce := (Prod.mk.inj (List.mem_singleton.mp hmem)).2
      exact absurd hnonce (by decide)
  exact (splitTransportTraced_keyed h₃' rfl).bind fun _ => Keyed.complete.bind fun _ =>
    Triple.pure fun _ hs => hs

theorem processMsg2Traced_at (msg2 : Bytes) :
    Triple (At (KeyLog.start ephemeral) cipher send) (processMsg2Traced S msg2)
      (fun _ => Keyed ephemeral) (Broken ephemeral send) :=
  (readMsg2Traced_at msg2).bind fun _ => Triple.exists_pre fun key₁ =>
    Triple.exists_pre fun key₂ => writeMsg3Traced_at key₁ key₂

theorem processMsg3Traced_at (key₁ key₂ : Bytes32) (msg3 : Bytes) :
    Triple (At (KeyLog.afterMsg1 ephemeral key₁ key₂) ⟨key₂, 1, true⟩ send)
      (processMsg3Traced S msg3) (fun _ => Keyed ephemeral) (Broken ephemeral send) := by
  have h := KeyLog.afterMsg1_orderly ephemeral key₁ key₂
  unfold processMsg3Traced
  split_ifs
  · exact Triple.fail (At.broken h)
  refine At.get.bind fun session => Triple.of_fact fun _ => ?_
  refine (At.lift ((decryptAndHash_ciphers _).mapError _) (At.broken h)).bind fun remoteStatic => ?_
  split_ifs
  · exact Triple.fail fun s hs => At.broken h s hs
  refine (At.total (Ciphers.modify (by exact fun _ => ⟨rfl, rfl, rfl⟩))).bind fun _ => ?_
  refine (mixKeyDhTraced_at _ _ (At.broken h)).bind fun _ => Triple.exists_pre fun key₃ => ?_
  have h₃ := h.addMixed rfl key₃
  refine (At.lift ((decryptAndHash_ciphers _).mapError _) (At.broken h₃)).bind fun _ => ?_
  refine (At.kept h₃ (verifyRemoteIdentity_ciphers _)).bind fun _ => ?_
  exact (splitTransportTraced_keyed h₃ rfl).bind fun _ => Keyed.complete

end Messages

end PeerCore.Noise
