import PeerCore.Connection.Authentication

/-!
# No nonce is used twice

The AEAD encryptions of a session are those of its handshakes, kept in `keyLogs`, and
those of its transport, kept in `sealed`. `Ledger random sends` accounts for all of
them: handshake `n` has an orderly log with the ephemeral key it drew, and the
transport used the nonces `0, …, (sends n).2 - 1` with the key `(sends n).1` of
handshake `n`, one handshake after the other. No step of a session, whatever its peer
sends and however often it is upgraded, breaks this (`Accounted.move`).

`FreshKeys` is the assumption on HKDF and on the random bytes. With it the accounts
say that no key meets a nonce twice (`nonces_unique`).
-/

namespace PeerCore.Connection

open BasicConnectionSession
open Noise (KeyLog Entropy)

/-- The encryptions of the handshakes. -/
def SecureChannelState.handshakeSeals (secure : SecureChannelState) : List (Bytes32 × UInt64) :=
  (List.range (secure.drawn + 1)).flatMap fun n => (secure.keyLogs n).seals

/-- The encryptions of the transport. -/
def SecureChannelState.transportSeals (secure : SecureChannelState) : List (Bytes32 × UInt64) :=
  secure.sealed.map fun r => (r.key, r.nonce)

/-! ## Counting -/

/-- A key with its first nonces. -/
def counted (send : Bytes32 × ℕ) : List (Bytes32 × UInt64) :=
  (List.range send.2).map fun i => (send.1, UInt64.ofNat i)

theorem counted_eq_nil {send : Bytes32 × ℕ} (h : send.2 = 0) : counted send = [] := by
  simp [counted, h]

theorem counted_succ (key : Bytes32) (n : ℕ) :
    counted (key, n + 1) = counted (key, n) ++ [(key, UInt64.ofNat n)] := by
  simp [counted, List.range_succ]

theorem mem_counted {send : Bytes32 × ℕ} {u : Bytes32 × UInt64} (h : u ∈ counted send) :
    0 < send.2 ∧ u.1 = send.1 ∧ ∃ i < send.2, u.2 = UInt64.ofNat i := by
  obtain ⟨i, hi, rfl⟩ := List.mem_map.mp h
  have hlt := List.mem_range.mp hi
  exact ⟨by omega, rfl, i, hlt, rfl⟩

/-- One block grows while all later ones are empty. -/
theorem flatMap_range_snoc {α : Type} {f g : ℕ → List α} {n : ℕ} {x : α}
    (hsame : ∀ j, j ≠ n → g j = f j) (hgrow : g n = f n ++ [x]) (hlater : ∀ j, n < j → f j = []) :
    ∀ m, n < m → (List.range m).flatMap g = (List.range m).flatMap f ++ [x] := by
  intro m hm
  induction m, hm using Nat.le_induction with
  | base =>
    have hearlier : (List.range n).flatMap g = (List.range n).flatMap f :=
      List.flatMap_congr fun j hj => hsame j (List.mem_range.mp hj).ne
    simp [List.range_succ, hearlier, hgrow]
  | succ m hm ih =>
    rw [List.range_succ, List.flatMap_append, List.flatMap_append, ih]
    simp [hsame m (by omega), hlater m (by omega)]

/-! ## The accounts -/

/-- Every encryption of the channel, with the handshake its key comes from. -/
structure Ledger (random : ℕ → Entropy) (sends : ℕ → Bytes32 × ℕ) (secure : SecureChannelState) :
    Prop where
  source : secure.random = random
  generates : secure.noise.configuredEphemeral = none
  first : secure.keyLogs 0 = {}
  unused : ∀ n, secure.drawn < n → secure.keyLogs n = {} ∧ (sends n).2 = 0
  orderly : ∀ n, (secure.keyLogs n).Orderly (random (n - 1)).ephemeral
  keyed : ∀ n, 0 < (sends n).2 → (sends n).1 ∈ (secure.keyLogs n).split
  bounded : ∀ n, (sends n).2 < 2 ^ 64
  sealed : secure.transportSeals =
    (List.range (secure.drawn + 1)).flatMap fun n => counted (sends n)
  sending : secure.noise.csSend.hasKey = true → ∃ n ≤ secure.drawn,
    sends n = (secure.noise.csSend.key, secure.noise.csSend.nonce.toNat) ∧
    secure.noise.csSend.key ∈ (secure.keyLogs n).split ∧ ∀ j, n < j → (sends j).2 = 0

/-- What a session knows while it waits for a handshake message. -/
structure Waiting (random : ℕ → Entropy) (sends : ℕ → Bytes32 × ℕ) (secure : SecureChannelState) :
    Prop where
  msg2 : secure.handshakeState = .awaitingMsg2 →
    secure.keyLogs secure.drawn = KeyLog.start (random (secure.drawn - 1)).ephemeral
  msg3 : secure.handshakeState = .awaitingMsg3 → ∃ key₁ key₂,
    secure.keyLogs secure.drawn = KeyLog.afterMsg1 (random (secure.drawn - 1)).ephemeral key₁ key₂ ∧
      secure.noise.handshakeCipher = ⟨key₂, 1, true⟩
  silent : secure.handshakeState = .awaitingMsg2 ∨ secure.handshakeState = .awaitingMsg3 →
    secure.noise.csSend.hasKey = false ∧ (sends secure.drawn).2 = 0

/-- The accounts of a session balance. -/
def Accounted (random : ℕ → Entropy) (c : Core) : Prop :=
  ∃ sends, Ledger random sends c.secure ∧ (c.state ≠ .closed → Waiting random sends c.secure)

section Accounts

variable {S : Noise.Sodium} {random : ℕ → Entropy} {sends : ℕ → Bytes32 × ℕ}
  {secure secure' : SecureChannelState} {c c' : Core}

/-- What the accounts are about. -/
structure SameKeys (secure secure' : SecureChannelState) : Prop where
  random : secure'.random = secure.random
  drawn : secure'.drawn = secure.drawn
  keyLogs : secure'.keyLogs = secure.keyLogs
  sealed : secure'.sealed = secure.sealed
  send : secure'.noise.csSend = secure.noise.csSend
  cipher : secure'.noise.handshakeCipher = secure.noise.handshakeCipher
  generates : secure'.noise.configuredEphemeral = secure.noise.configuredEphemeral

theorem Ledger.of_same (h : Ledger random sends secure) (hs : SameKeys secure secure') :
    Ledger random sends secure' where
  source := hs.random.trans h.source
  generates := hs.generates.trans h.generates
  first := by rw [hs.keyLogs, h.first]
  unused := by rw [hs.drawn, hs.keyLogs]; exact h.unused
  orderly := by rw [hs.keyLogs]; exact h.orderly
  keyed := by rw [hs.keyLogs]; exact h.keyed
  bounded := h.bounded
  sealed := by
    unfold SecureChannelState.transportSeals
    rw [hs.sealed, hs.drawn]
    exact h.sealed
  sending := by rw [hs.send, hs.drawn, hs.keyLogs]; exact h.sending

/-- A handshake state in which no handshake message is answered with keys. -/
def HandshakeState.Settled (hs : HandshakeState) : Prop := hs ≠ .awaitingMsg2 ∧ hs ≠ .awaitingMsg3

theorem Waiting.settled (h : secure.handshakeState.Settled) : Waiting random sends secure where
  msg2 := fun hw => absurd hw h.1
  msg3 := fun hw => absurd hw h.2
  silent := by
    rintro (hw | hw)
    · exact absurd hw h.1
    · exact absurd hw h.2

theorem Waiting.of_same (h : Waiting random sends secure) (hs : SameKeys secure secure')
    (hstate : secure'.handshakeState = secure.handshakeState) : Waiting random sends secure' where
  msg2 := by rw [hstate, hs.keyLogs, hs.drawn]; exact h.msg2
  msg3 := by rw [hstate, hs.keyLogs, hs.drawn, hs.cipher]; exact h.msg3
  silent := by rw [hstate, hs.send, hs.drawn]; exact h.silent

theorem Accounted.of_same (h : Accounted random c) (hs : SameKeys c.secure c'.secure)
    (hstate : c'.state ≠ .closed → c.state ≠ .closed)
    (hhandshake : c'.secure.handshakeState = c.secure.handshakeState ∨
      c'.secure.handshakeState.Settled) : Accounted random c' := by
  obtain ⟨sends, hledger, hwaiting⟩ := h
  refine ⟨sends, hledger.of_same hs, fun hopen => ?_⟩
  rcases hhandshake with hsame | hsettled
  · exact (hwaiting (hstate hopen)).of_same hs hsame
  · exact .settled hsettled

/-! ## Encrypting -/

/-- One more nonce of the key that sends. -/
theorem Ledger.seal (h : Ledger random sends secure) {message ciphertext : Bytes}
    (hseal : sealMessage S message secure = (.ok ciphertext, secure')) :
    ∃ sends', Ledger random sends' secure' := by
  obtain ⟨hkey, hnonce, -, rfl⟩ := sealMessage_ok hseal
  obtain ⟨n, hn, hsends, hsplit, hlater⟩ := h.sending hkey
  set key := secure.noise.csSend.key
  set nonce := secure.noise.csSend.nonce
  have hnext : (nonce + 1).toNat = nonce.toNat + 1 := by
    have := nonce.toNat_lt
    have hone : (1 : UInt64).toNat = 1 := rfl
    rw [UInt64.toNat_add, hone]
    omega
  have hlt : nonce.toNat + 1 < 2 ^ 64 := by
    have := nonce.toNat_lt
    omega
  refine ⟨Function.update sends n (key, nonce.toNat + 1), h.source, h.generates, h.first, fun j hj => ?_,
    h.orderly, fun j hj => ?_, fun j => ?_, ?_, fun _ => ⟨n, hn, ?_, hsplit, fun j hj => ?_⟩⟩
  · have hne : j ≠ n := by
      dsimp only at hj
      omega
    rw [Function.update_of_ne hne]
    exact h.unused j hj
  · rcases eq_or_ne j n with rfl | hne
    · rw [Function.update_self]
      exact hsplit
    · rw [Function.update_of_ne hne] at hj ⊢
      exact h.keyed j hj
  · rcases eq_or_ne j n with rfl | hne
    · rw [Function.update_self]
      exact hlt
    · rw [Function.update_of_ne hne]
      exact h.bounded j
  · have hgrow := flatMap_range_snoc (f := fun n => counted (sends n))
      (g := fun j => counted (Function.update sends n (key, nonce.toNat + 1) j))
      (x := (key, nonce)) (n := n) (fun j hj => ?_) ?_ (fun j hj => counted_eq_nil (hlater j hj))
      (secure.drawn + 1) (by omega)
    · rw [hgrow, ← h.sealed]
      simp [SecureChannelState.transportSeals]
    · rw [Function.update_of_ne hj]
    · rw [Function.update_self, counted_succ, hsends, UInt64.ofNat_toNat]
  · rw [Function.update_self, hnext]
  · rw [Function.update_of_ne (by omega)]
    exact hlater j hj

/-! ## Handshakes -/

/-- Handshake `d` went on: its log grew, and either the transport cipher is as before, or
    it has no key, or it has a new one of this handshake. -/
theorem Ledger.handshake (h : Ledger random sends secure) {d : ℕ}
    (hd : d = secure.drawn ∨ d = secure.drawn + 1) (hpos : 0 < d) (hzero : (sends d).2 = 0)
    {noise : Noise.NoiseSession} {log : KeyLog}
    (horderly : log.Orderly (random (d - 1)).ephemeral) (hgenerates : noise.configuredEphemeral = none)
    (hsend : noise.csSend = secure.noise.csSend ∧
        (secure.noise.csSend.hasKey = true → d = secure.drawn + 1) ∨
      noise.csSend.hasKey = false ∨ ∃ key ∈ log.split, noise.csSend = ⟨key, 0, true⟩) :
    ∃ sends', Ledger random sends'
      { secure with noise, drawn := d, keyLogs := Function.update secure.keyLogs d log } ∧
      (sends' d).2 = 0 := by
  have hblock : ∀ n, counted (Function.update sends d (noise.csSend.key, 0) n) = counted (sends n) := by
    intro n
    rcases eq_or_ne n d with rfl | hne
    · rw [Function.update_self, counted_eq_nil hzero]
      rfl
    · rw [Function.update_of_ne hne]
  refine ⟨Function.update sends d (noise.csSend.key, 0), ⟨h.source, hgenerates, ?_, fun n hn => ?_,
    fun n => ?_, fun n hn => ?_, fun n => ?_, ?_, fun hkey => ?_⟩, by rw [Function.update_self]⟩
  · dsimp only
    rw [Function.update_of_ne hpos.ne]
    exact h.first
  · dsimp only at hn ⊢
    rw [Function.update_of_ne hn.ne', Function.update_of_ne hn.ne']
    exact h.unused n (by omega)
  · dsimp only
    rcases eq_or_ne n d with rfl | hne
    · rw [Function.update_self]
      exact horderly
    · rw [Function.update_of_ne hne]
      exact h.orderly n
  · dsimp only
    rcases eq_or_ne n d with rfl | hne
    · rw [Function.update_self] at hn
      cases hn
    · rw [Function.update_of_ne hne] at hn ⊢
      rw [Function.update_of_ne hne]
      exact h.keyed n hn
  · rcases eq_or_ne n d with rfl | hne
    · rw [Function.update_self]
      norm_num
    · rw [Function.update_of_ne hne]
      exact h.bounded n
  · have hlast : counted (sends d) = [] := counted_eq_nil hzero
    change secure.transportSeals = (List.range (d + 1)).flatMap fun n =>
      counted (Function.update sends d (noise.csSend.key, 0) n)
    rw [funext hblock, h.sealed]
    rcases hd with rfl | rfl
    · rfl
    · rw [List.range_succ (n := secure.drawn + 1), List.flatMap_append, List.flatMap_singleton, hlast,
        List.append_nil]
  · dsimp only at hkey ⊢
    rcases hsend with ⟨hsame, hnew⟩ | hnone | ⟨key, hmem, hcipher⟩
    · rw [hsame] at hkey ⊢
      obtain ⟨n, hn, hsends, hsplit, hlater⟩ := h.sending hkey
      have hd' := hnew hkey
      have hne : n ≠ d := by omega
      refine ⟨n, by omega, ?_, ?_, fun j hj => ?_⟩
      · rw [Function.update_of_ne hne]
        exact hsends
      · rw [Function.update_of_ne hne]
        exact hsplit
      · rcases eq_or_ne j d with rfl | hj'
        · rw [Function.update_self]
        · rw [Function.update_of_ne hj']
          exact hlater j hj
    · rw [hnone] at hkey
      cases hkey
    · refine ⟨d, le_refl d, ?_, ?_, fun j hj => ?_⟩
      · rw [Function.update_self, hcipher]
        rfl
      · rw [Function.update_self, hcipher]
        exact hmem
      · rw [Function.update_of_ne hj.ne']
        exact (h.unused j (by omega)).2

/-- A new handshake starts from an empty log. -/
theorem Ledger.empty (h : Ledger random sends secure) :
    secure.keyLogs (secure.drawn + 1) = {} ∧ (sends (secure.drawn + 1)).2 = 0 :=
  h.unused _ (by omega)

theorem Ledger.ciphers (h : Ledger random sends secure) {n : ℕ} {log : KeyLog}
    (hlog : secure.keyLogs n = log) :
    Noise.At log secure.noise.handshakeCipher secure.noise.csSend (secure.noise, secure.keyLogs n) :=
  ⟨⟨rfl, rfl, h.generates⟩, hlog⟩

/-- A handshake that failed before it derived the transport keys. -/
theorem Ledger.broken (h : Ledger random sends secure) {d : ℕ}
    (hd : d = secure.drawn ∧ secure.noise.csSend.hasKey = false ∨ d = secure.drawn + 1) (hpos : 0 < d)
    (hzero : (sends d).2 = 0) {noise : Noise.NoiseSession} {log : KeyLog}
    (hbroken : Noise.Broken (random (d - 1)).ephemeral secure.noise.csSend (noise, log)) :
    ∃ sends', Ledger random sends'
      { secure with noise, drawn := d, keyLogs := Function.update secure.keyLogs d log } ∧
      (sends' d).2 = 0 := by
  refine h.handshake ?_ hpos hzero hbroken.orderly hbroken.generates (.inl ⟨hbroken.send, fun hkey => ?_⟩)
  · rcases hd with ⟨hd, -⟩ | hd
    · exact .inl hd
    · exact .inr hd
  · rcases hd with ⟨-, hnone⟩ | hd
    · rw [hnone] at hkey
      cases hkey
    · exact hd

section Calls

variable (h : Ledger secure.random sends secure)
include h

/-- `write_msg1`. -/
theorem Ledger.start :
    ∃ sends', Ledger secure.random sends'
        { secure with
          noise := (Noise.writeMsg1 S (secure.random secure.drawn) secure.noise).2
          drawn := secure.drawn + 1
          keyLogs := secure.draw.keysAfter
            (Noise.writeMsg1Traced S (secure.random secure.drawn)) } ∧
      (sends' (secure.drawn + 1)).2 = 0 ∧
      ((Noise.writeMsg1 S (secure.random secure.drawn) secure.noise).1 ≠ [] →
        secure.draw.keysAfter (Noise.writeMsg1Traced S (secure.random secure.drawn))
            (secure.drawn + 1) = KeyLog.start (secure.random secure.drawn).ephemeral ∧
          (Noise.writeMsg1 S (secure.random secure.drawn) secure.noise).2.csSend.hasKey = false) := by
  obtain ⟨hempty, hzero⟩ := h.empty
  obtain ⟨hnoise, hok⟩ := Noise.writeMsg1_body S (secure.random secure.drawn) secure.noise
  have hkeys : secure.draw.keysAfter (Noise.writeMsg1Traced S (secure.random secure.drawn)) =
      Function.update secure.keyLogs (secure.drawn + 1)
        (Noise.writeMsg1Traced S (secure.random secure.drawn)
          (secure.noise, secure.keyLogs (secure.drawn + 1))).2.2 := rfl
  have hspec : Op.Triple (Noise.At {} secure.noise.handshakeCipher secure.noise.csSend)
      (Noise.writeMsg1Traced S (secure.random secure.drawn)) _
      (Noise.Broken (secure.random secure.drawn).ephemeral secure.noise.csSend) :=
    Noise.writeMsg1Traced_at (secure.random secure.drawn)
  rw [hkeys, Function.update_self]
  generalize (Noise.writeMsg1 S (secure.random secure.drawn) secure.noise).2 = noise at hnoise ⊢
  have hbody : Noise.writeMsg1Body S (secure.random secure.drawn) secure.noise =
      ((Noise.writeMsg1Body S (secure.random secure.drawn) secure.noise).1, noise) :=
    Prod.ext rfl hnoise.symm
  have hrun := (Noise.writeMsg1Traced_erases S (secure.random secure.drawn)).run hbody
    (secure.keyLogs (secure.drawn + 1))
  generalize (Noise.writeMsg1Traced S (secure.random secure.drawn)
    (secure.noise, secure.keyLogs (secure.drawn + 1))).2.2 = log at hrun ⊢
  rcases hresult : (Noise.writeMsg1Body S (secure.random secure.drawn) secure.noise).1 with e | out
  · rw [hresult] at hrun
    obtain ⟨sends', hledger, hzero'⟩ := h.broken (.inr rfl) (by omega) hzero
      (hspec.error (h.ciphers hempty) hrun)
    refine ⟨sends', hledger, hzero', fun hne => ?_⟩
    obtain ⟨out, hout⟩ := hok hne
    rw [hresult] at hout
    cases hout
  · rw [hresult] at hrun
    obtain ⟨hciphers, hlog⟩ := hspec.ok (h.ciphers hempty) hrun
    dsimp only at hciphers hlog
    have horderly : log.Orderly (secure.random secure.drawn).ephemeral := by
      rw [hlog]
      exact .start
    have hsend : noise.csSend.hasKey = false := by rw [hciphers.send]
    obtain ⟨sends', hledger, hzero'⟩ := h.handshake (.inr rfl) (by omega) hzero horderly
      hciphers.generates (.inr (.inl hsend))
    exact ⟨sends', hledger, hzero', fun _ => ⟨hlog, hsend⟩⟩

/-- `process_msg1`. -/
theorem Ledger.msg1 {frame : Bytes} {result : Result Bytes} {noise : Noise.NoiseSession}
    (hprocess : Noise.processMsg1 S (secure.random secure.drawn) frame secure.noise =
      (result, noise)) :
    ∃ sends', Ledger secure.random sends'
        { secure with
          noise, drawn := secure.drawn + 1
          keyLogs := secure.draw.keysAfter
            (Noise.processMsg1Traced S (secure.random secure.drawn) frame) } ∧
      (sends' (secure.drawn + 1)).2 = 0 ∧ ∀ msg2, result = .ok msg2 →
        (∃ key₁ key₂, secure.draw.keysAfter
            (Noise.processMsg1Traced S (secure.random secure.drawn) frame) (secure.drawn + 1) =
              KeyLog.afterMsg1 (secure.random secure.drawn).ephemeral key₁ key₂ ∧
            noise.handshakeCipher = ⟨key₂, 1, true⟩) ∧ noise.csSend.hasKey = false := by
  obtain ⟨hempty, hzero⟩ := h.empty
  have hkeys : secure.draw.keysAfter (Noise.processMsg1Traced S (secure.random secure.drawn) frame) =
      Function.update secure.keyLogs (secure.drawn + 1)
        (Noise.processMsg1Traced S (secure.random secure.drawn) frame
          (secure.noise, secure.keyLogs (secure.drawn + 1))).2.2 := rfl
  have hspec : Op.Triple (Noise.At {} secure.noise.handshakeCipher secure.noise.csSend)
      (Noise.processMsg1Traced S (secure.random secure.drawn) frame) _ _ :=
    Noise.processMsg1Traced_at (secure.random secure.drawn) frame
  have hrun := (Noise.processMsg1Traced_erases S (secure.random secure.drawn) frame).run hprocess
    (secure.keyLogs (secure.drawn + 1))
  rw [hkeys, Function.update_self]
  generalize (Noise.processMsg1Traced S (secure.random secure.drawn) frame
    (secure.noise, secure.keyLogs (secure.drawn + 1))).2.2 = log at hrun ⊢
  rcases result with e | msg2
  · rcases hspec.error (h.ciphers hempty) hrun with hbroken | hbroken
    · obtain ⟨sends', hledger, hzero'⟩ := h.broken (.inr rfl) (by omega) hzero hbroken
      exact ⟨sends', hledger, hzero', by intro _ hmsg; cases hmsg⟩
    · have hsend : noise.csSend.hasKey = false := by rw [show noise.csSend = _ from hbroken.send]
      obtain ⟨sends', hledger, hzero'⟩ := h.handshake (.inr rfl) (by omega) hzero hbroken.orderly
        hbroken.generates (.inr (.inl hsend))
      exact ⟨sends', hledger, hzero', by intro _ hmsg; cases hmsg⟩
  · obtain ⟨key₁, key₂, hciphers, hlog⟩ := hspec.ok (h.ciphers hempty) hrun
    dsimp only at hciphers hlog
    have horderly : log.Orderly (secure.random secure.drawn).ephemeral := by
      rw [hlog]
      exact KeyLog.afterMsg1_orderly _ _ _
    have hsend : noise.csSend.hasKey = false := by rw [hciphers.send]
    obtain ⟨sends', hledger, hzero'⟩ := h.handshake (.inr rfl) (by omega) hzero horderly
      hciphers.generates (.inr (.inl hsend))
    exact ⟨sends', hledger, hzero', fun _ _ => ⟨⟨key₁, key₂, hlog, hciphers.cipher⟩, hsend⟩⟩

/-- `process_msg2` and `process_msg3`, in the state that waits for the message. -/
theorem Ledger.finish {α : Type} {x : Op Noise.NoiseSession α} {traced : Noise.Traced α}
    (herases : Op.Erases traced x) {log : KeyLog}
    (hspec : Op.Triple (Noise.At log secure.noise.handshakeCipher secure.noise.csSend) traced
      (fun _ => Noise.Keyed (secure.random (secure.drawn - 1)).ephemeral)
      (Noise.Broken (secure.random (secure.drawn - 1)).ephemeral secure.noise.csSend))
    (hlog : secure.keyLogs secure.drawn = log) (hpos : 0 < secure.drawn)
    (hsilent : secure.noise.csSend.hasKey = false ∧ (sends secure.drawn).2 = 0)
    {result : Result α} {noise : Noise.NoiseSession} (hprocess : x secure.noise = (result, noise)) :
    ∃ sends', Ledger secure.random sends'
      { secure with noise, keyLogs := secure.keysAfter traced } := by
  have hkeys : secure.keysAfter traced = Function.update secure.keyLogs secure.drawn
      (traced (secure.noise, secure.keyLogs secure.drawn)).2.2 := rfl
  have hrun := herases.run hprocess (secure.keyLogs secure.drawn)
  rw [hkeys]
  generalize (traced (secure.noise, secure.keyLogs secure.drawn)).2.2 = log' at hrun ⊢
  rcases result with e | a
  · obtain ⟨sends', hledger, -⟩ := h.broken (.inl ⟨rfl, hsilent.1⟩) hpos hsilent.2
      (hspec.error (h.ciphers hlog) hrun)
    exact ⟨sends', hledger⟩
  · have hkeyed := hspec.ok (h.ciphers hlog) hrun
    obtain ⟨sends', hledger, -⟩ := h.handshake (.inl rfl) hpos hsilent.2 hkeyed.orderly
      hkeyed.generates (.inr (.inr hkeyed.send))
    exact ⟨sends', hledger⟩

theorem Ledger.msg2 (hwaiting : Waiting secure.random sends secure)
    (hwait : secure.handshakeState = .awaitingMsg2) {frame : Bytes} {result : Result Bytes}
    {noise : Noise.NoiseSession}
    (hprocess : Noise.processMsg2 S frame secure.noise = (result, noise)) :
    ∃ sends', Ledger secure.random sends'
      { secure with noise, keyLogs := secure.keysAfter (Noise.processMsg2Traced S frame) } := by
  have hlog := hwaiting.msg2 hwait
  refine h.finish (Noise.processMsg2Traced_erases S frame) (Noise.processMsg2Traced_at frame) hlog
    (Nat.pos_of_ne_zero fun hzero => ?_) (hwaiting.silent (.inl hwait)) hprocess
  rw [hzero, h.first] at hlog
  cases hlog

theorem Ledger.msg3 (hwaiting : Waiting secure.random sends secure)
    (hwait : secure.handshakeState = .awaitingMsg3) {frame : Bytes} {result : Result Unit}
    {noise : Noise.NoiseSession}
    (hprocess : Noise.processMsg3 S frame secure.noise = (result, noise)) :
    ∃ sends', Ledger secure.random sends'
      { secure with noise, keyLogs := secure.keysAfter (Noise.processMsg3Traced S frame) } := by
  obtain ⟨key₁, key₂, hlog, hcipher⟩ := hwaiting.msg3 hwait
  have hspec : Op.Triple (Noise.At (KeyLog.afterMsg1 (secure.random (secure.drawn - 1)).ephemeral
      key₁ key₂) ⟨key₂, 1, true⟩ secure.noise.csSend) (Noise.processMsg3Traced S frame) _ _ :=
    Noise.processMsg3Traced_at key₁ key₂ frame
  rw [← hcipher] at hspec
  refine h.finish (Noise.processMsg3Traced_erases S frame) hspec hlog
    (Nat.pos_of_ne_zero fun hzero => ?_) (hwaiting.silent (.inr hwait)) hprocess
  rw [hzero, h.first] at hlog
  cases hlog

/-- A call of a handshake function, whatever it returns. -/
theorem Ledger.handshook (hwaiting : Waiting secure.random sends secure)
    (hcall : Handshook S secure secure') : ∃ sends', Ledger secure.random sends' secure' := by
  cases hcall with
  | none => exact ⟨sends, h⟩
  | start =>
    obtain ⟨sends', hledger, -⟩ := h.start (S := S)
    exact ⟨sends', hledger⟩
  | msg1 frame hprocess =>
    obtain ⟨sends', hledger, -⟩ := h.msg1 hprocess
    exact ⟨sends', hledger⟩
  | msg2 frame hwait hprocess => exact h.msg2 hwaiting hwait hprocess
  | msg3 frame hwait hprocess => exact h.msg3 hwaiting hwait hprocess

end Calls

/-! ## Moves -/

theorem Accounted.seal (h : Accounted random c) {message ciphertext : Bytes}
    (hseal : sealMessage S message c.secure = (.ok ciphertext, secure')) (hsecure : c'.secure = secure')
    (hstate : c'.state = c.state) : Accounted random c' := by
  obtain ⟨sends, hledger, hwaiting⟩ := h
  obtain ⟨sends', hledger'⟩ := hledger.seal hseal
  rw [← hsecure] at hledger' hseal
  refine ⟨sends', hledger', fun hopen => .settled ?_⟩
  obtain ⟨hkey, -, -, hafter⟩ := sealMessage_ok hseal
  have hsilent := (hwaiting (hstate ▸ hopen)).silent
  have hhandshake : c'.secure.handshakeState = c.secure.handshakeState := by rw [hafter]
  rw [hhandshake]
  constructor
  · intro hw
    rw [(hsilent (.inl hw)).1] at hkey
    cases hkey
  · intro hw
    rw [(hsilent (.inr hw)).1] at hkey
    cases hkey

theorem Accounted.open (h : Accounted random c) {frame : Bytes} {result : Result Bytes}
    (hopen : openMessage S frame c.secure = (result, secure')) (hsecure : c'.secure = secure')
    (hstate : c'.state ≠ .closed → c.state ≠ .closed) : Accounted random c' := by
  subst hsecure
  rcases result with e | plaintext
  · have hafter := openMessage_error hopen
    refine h.of_same ?_ hstate (.inl ?_)
    · rw [hafter]
      exact ⟨rfl, rfl, rfl, rfl, rfl, rfl, rfl⟩
    · rw [hafter]
  · obtain ⟨-, -, -, hafter⟩ := openMessage_ok hopen
    refine h.of_same ?_ hstate (.inl ?_)
    · rw [hafter]
      exact ⟨rfl, rfl, rfl, rfl, rfl, rfl, rfl⟩
    · rw [hafter]

theorem SameKeys.refl (secure : SecureChannelState) : SameKeys secure secure :=
  ⟨rfl, rfl, rfl, rfl, rfl, rfl, rfl⟩

/-- The keys are the same, and so is the handshake. -/
theorem Accounted.same (h : Accounted random c) (hsecure : c'.secure = c.secure)
    (hstate : c'.state ≠ .closed → c.state ≠ .closed) : Accounted random c' := by
  refine h.of_same ?_ hstate (.inl ?_)
  · rw [hsecure]
    exact SameKeys.refl _
  · rw [hsecure]

theorem Accounted.shut (h : Accounted random c) : Accounted random c.shut :=
  h.same rfl fun hopen => absurd rfl hopen

theorem Accounted.out (h : Accounted random c) (hout : OutMoves S c c') : Accounted random c' := by
  induction hout with
  | refl => exact h
  | tail _ hstep ih =>
    cases hstep with
    | answers | accept | shutdown => exact ih.same rfl id
    | sealFramed _ _ _ _ _ hseal => exact ih.seal hseal rfl rfl
    | sealLost _ _ _ _ _ hseal => exact ih.seal hseal rfl rfl

/-- The handshake is over, and the muxer is selected. -/
theorem Accounted.select (h : Accounted random c) (stage : SecurityStage) :
    Accounted random { c with secure := c.secure.select stage } :=
  h.of_same ⟨rfl, rfl, rfl, rfl, rfl, rfl, rfl⟩ id (.inl rfl)

theorem Accounted.exchanged (h : Accounted random c) (muxer : Option ProtocolId) (span : ℕ)
    (hopen : c.state ≠ .closed) : Accounted random ((c.adopt muxer).dropExchange span).complete := by
  cases muxer with
  | none => exact h.of_same ⟨rfl, rfl, rfl, rfl, rfl, rfl, rfl⟩ (fun _ => hopen) (.inl rfl)
  | some muxer => exact h.of_same ⟨rfl, rfl, rfl, rfl, rfl, rfl, rfl⟩ (fun _ => hopen) (.inl rfl)

theorem Accounted.begin (h : Accounted random c) (hbegin : Begin c c') : Accounted random c' := by
  have hsettled : HandshakeState.idle.Settled := ⟨nofun, nofun⟩
  cases hbegin with
  | outbound proposal hactive =>
    exact h.of_same ⟨rfl, rfl, rfl, rfl, rfl, rfl, rfl⟩ (fun _ => hactive.2.1) (.inr hsettled)
  | inbound hactive =>
    exact h.of_same ⟨rfl, rfl, rfl, rfl, rfl, rfl, rfl⟩ (fun _ => hactive.2.1) (.inr hsettled)

/-- A session that ended. -/
theorem Accounted.ended {sends : ℕ → Bytes32 × ℕ} (hledger : Ledger random sends c.secure)
    (hclosed : c.state = .closed) : Accounted random c :=
  ⟨sends, hledger, fun hopen => absurd hclosed hopen⟩

theorem Accounted.move (h : Accounted random c) (hmove : Move S c c') : Accounted random c' := by
  cases hmove with
  | out hout => exact h.out hout.single
  | socket | recv | closeSocket => exact h.same rfl id
  | close => exact h.shut
  | startNoise span proposal framed hactive hstage hrole hspan hread hframe hmsg1 =>
    obtain ⟨sends, hledger, -⟩ := h
    obtain rfl := hledger.source
    obtain ⟨sends', hledger', hzero, hstart⟩ := hledger.start (S := S)
    obtain ⟨hlog, hsend⟩ := hstart hmsg1
    refine ⟨sends', hledger'.of_same ⟨rfl, rfl, rfl, rfl, rfl, rfl, rfl⟩, fun _ => ⟨fun _ => hlog, ?_,
      fun _ => ⟨hsend, hzero⟩⟩⟩
    intro hw
    cases hw
  | acceptNoise c₁ _ _ hactive _ _ _ _ _ hout =>
    have hqueued : Accounted random c₁ := by
      refine Accounted.out ?_ hout
      exact h.same rfl id
    exact hqueued.of_same ⟨rfl, rfl, rfl, rfl, rfl, rfl, rfl⟩ id (.inr ⟨nofun, nofun⟩)
  | acceptNoiseFail c₁ _ _ _ _ hout =>
    have hqueued : Accounted random c₁ := by
      refine Accounted.out ?_ hout
      exact h.same rfl id
    exact hqueued.shut
  | msg1 frame rest msg2 framed noise hwait hpop hprocess =>
    obtain ⟨sends, hledger, -⟩ := h
    obtain rfl := hledger.source
    obtain ⟨sends', hledger', hzero, hafter⟩ := hledger.msg1 hprocess
    obtain ⟨hkeys, hsend⟩ := hafter msg2 rfl
    refine ⟨sends', hledger'.of_same ⟨rfl, rfl, rfl, rfl, rfl, rfl, rfl⟩, fun _ => ⟨?_, fun _ => hkeys,
      fun _ => ⟨hsend, hzero⟩⟩⟩
    intro hw
    cases hw
  | msg2 frame rest msg3 framed noise hwait hpop hprocess =>
    obtain ⟨sends, hledger, hwaiting⟩ := h
    obtain rfl := hledger.source
    obtain ⟨sends', hledger'⟩ := hledger.msg2 (hwaiting hwait.active.2.1) hwait.handshakeState hprocess
    exact ⟨sends', hledger'.of_same ⟨rfl, rfl, rfl, rfl, rfl, rfl, rfl⟩, fun _ => .settled ⟨nofun, nofun⟩⟩
  | msg3 frame rest noise hwait hpop hprocess =>
    obtain ⟨sends, hledger, hwaiting⟩ := h
    obtain rfl := hledger.source
    obtain ⟨sends', hledger'⟩ := hledger.msg3 (hwaiting hwait.active.2.1) hwait.handshakeState hprocess
    exact ⟨sends', hledger'.of_same ⟨rfl, rfl, rfl, rfl, rfl, rfl, rfl⟩, fun _ => .settled ⟨nofun, nofun⟩⟩
  | fail wireRx secure hactive _ _ _ _ hkeys =>
    obtain ⟨keyed, hcall, hsecure⟩ := hkeys
    obtain ⟨sends, hledger, hwaiting⟩ := h
    obtain rfl := hledger.source
    obtain ⟨sends', hledger'⟩ := hledger.handshook (hwaiting hactive.2.1) hcall
    refine Accounted.ended (hledger'.of_same ?_) rfl
    change SameKeys keyed secure
    rw [hsecure]
    exact ⟨rfl, rfl, rfl, rfl, rfl, rfl, rfl⟩
  | finishYamux hfinish =>
    exact h.of_same ⟨rfl, rfl, rfl, rfl, rfl, rfl, rfl⟩ (fun _ => hfinish.active.2.1) (.inl rfl)
  | finishDirect hfinish =>
    exact h.of_same ⟨rfl, rfl, rfl, rfl, rfl, rfl, rfl⟩ (fun _ => hfinish.active.2.1) (.inl rfl)
  | finishInbound hfinish => exact h.select _
  | finishOutbound _ _ _ _ hfinish _ _ _ _ hseal => exact (h.select _).seal hseal rfl rfl
  | finishFail _ _ hfinish hsecure =>
    rcases hsecure with rfl | ⟨ciphertext, hseal⟩
    · exact (h.select _).shut
    · have hsealed : Accounted random { c with secure := _ } := (h.select _).seal hseal rfl rfl
      exact hsealed.shut
  | openMuxer _ _ _ _ _ _ hopen => exact h.open hopen rfl id
  | openData _ _ _ _ _ _ _ hopen => exact h.open hopen rfl id
  | openFail _ _ _ _ _ _ _ hopen => exact h.open hopen rfl fun hne => absurd rfl hne
  | muxerOutbound _ _ hexchange => exact h.exchanged _ _ hexchange.active.2.1
  | muxerInbound c₁ _ _ _ framed secure hexchange _ _ _ hseal _ hout =>
    have hsealed : Accounted random { c with secure, io := c.io.queue framed } := h.seal hseal rfl rfl
    exact (hsealed.out hout).exchanged _ _ (hout.frame.active hexchange.active).2.1
  | muxerInboundFail c₁ _ _ framed secure _ _ hseal hout =>
    have hsealed : Accounted random { c with secure, io := c.io.queue framed } := h.seal hseal rfl rfl
    exact (hsealed.out hout).shut
  | muxerInboundLost _ _ secure _ _ hseal =>
    have hsealed : Accounted random { c with secure } := h.seal hseal rfl rfl
    exact hsealed.shut

end Accounts

/-! ## The assumption and the result -/

/-- Within a handshake the keys are distinct, handshakes with different ephemeral keys
    have no key in common, and the random bytes never repeat an ephemeral key. -/
structure FreshKeys (random : ℕ → Entropy) (secure : SecureChannelState) : Prop where
  positions : ∀ n, (secure.keyLogs n).derived.Nodup
  chains : ∀ m n e e', (secure.keyLogs m).ephemeral = some e →
    (secure.keyLogs n).ephemeral = some e' → e ≠ e' →
    List.Disjoint (secure.keyLogs m).derived (secure.keyLogs n).derived
  fresh : ∀ i j, i < secure.drawn → j < secure.drawn →
    (random i).ephemeral = (random j).ephemeral → i = j

section Unique

variable {random : ℕ → Entropy} {sends : ℕ → Bytes32 × ℕ} {secure : SecureChannelState}

/-- Keys of different handshakes are different. -/
theorem Ledger.disjoint (h : Ledger random sends secure) (hfresh : FreshKeys random secure) {m n : ℕ}
    (hm : m ≤ secure.drawn) (hn : n ≤ secure.drawn) (hne : m ≠ n) :
    List.Disjoint (secure.keyLogs m).derived (secure.keyLogs n).derived := by
  intro key hkeym hkeyn
  have hpos : ∀ j, key ∈ (secure.keyLogs j).derived → 0 < j := fun j hj =>
    Nat.pos_of_ne_zero fun hzero => by
      rw [hzero, h.first] at hj
      cases hj
  have hpm := hpos m hkeym
  have hpn := hpos n hkeyn
  refine hfresh.chains m n _ _ ((h.orderly m).ephemeral (List.ne_nil_of_mem hkeym))
    ((h.orderly n).ephemeral (List.ne_nil_of_mem hkeyn)) (fun heq => ?_) hkeym hkeyn
  have := hfresh.fresh (m - 1) (n - 1) (by omega) (by omega) heq
  omega

/-- The key of a handshake encryption is one of its mixed keys. -/
theorem Ledger.mem_handshakeSeals (h : Ledger random sends secure) {u : Bytes32 × UInt64} {n : ℕ}
    (hu : u ∈ (secure.keyLogs n).seals) : u.1 ∈ (secure.keyLogs n).derived :=
  List.mem_append_left _ ((h.orderly n).mixed u hu)

/-- The key of a transport encryption is a transport key. -/
theorem Ledger.mem_counted (h : Ledger random sends secure) {u : Bytes32 × UInt64} {n : ℕ}
    (hu : u ∈ counted (sends n)) : u.1 ∈ (secure.keyLogs n).split := by
  obtain ⟨hpos, hkey, -⟩ := Connection.mem_counted hu
  rw [hkey]
  exact h.keyed n hpos

theorem counted_pairwise {send : Bytes32 × ℕ} (hbound : send.2 < 2 ^ 64) :
    (counted send).Pairwise fun u v => u.2 < v.2 := by
  rw [counted, List.pairwise_map]
  refine List.Pairwise.imp_of_mem (fun {i j} hi hj hlt => ?_) List.pairwise_lt_range
  have hi' := List.mem_range.mp hi
  have hj' := List.mem_range.mp hj
  rw [UInt64.lt_iff_toNat_lt, UInt64.toNat_ofNat', UInt64.toNat_ofNat', Nat.mod_eq_of_lt (by omega),
    Nat.mod_eq_of_lt (by omega)]
  exact hlt

theorem Ledger.handshakeSeals_nodup (h : Ledger random sends secure) (hfresh : FreshKeys random secure) :
    secure.handshakeSeals.Nodup := by
  refine List.nodup_flatMap.mpr ⟨fun n _ => ?_, ?_⟩
  · exact (h.orderly n).nodup (List.nodup_append.mp (hfresh.positions n)).1
  · refine List.nodup_range.pairwise_of_forall_ne fun m hm n hn hne => ?_
    intro u hum hun
    have hm' := List.mem_range.mp hm
    have hn' := List.mem_range.mp hn
    exact h.disjoint hfresh (by omega) (by omega) hne (h.mem_handshakeSeals hum)
      (h.mem_handshakeSeals hun)

/-- With one key the nonces of the transport go up. -/
theorem Ledger.transportSeals_pairwise (h : Ledger random sends secure)
    (hfresh : FreshKeys random secure) :
    secure.transportSeals.Pairwise fun u v => u.1 = v.1 → u.2 < v.2 := by
  rw [h.sealed, List.pairwise_flatMap]
  refine ⟨fun n _ => ?_, ?_⟩
  · refine (counted_pairwise (h.bounded n)).imp ?_
    exact fun hlt _ => hlt
  refine List.nodup_range.pairwise_of_forall_ne fun m hm n hn hne => ?_
  intro u hu v hv hkey
  have hm' := List.mem_range.mp hm
  have hn' := List.mem_range.mp hn
  have hu' := List.mem_append_right (secure.keyLogs m).mixed (h.mem_counted hu)
  have hv' := List.mem_append_right (secure.keyLogs n).mixed (h.mem_counted hv)
  rw [← hkey] at hv'
  exact absurd hv' (h.disjoint hfresh (by omega) (by omega) hne hu')

theorem Ledger.seals_nodup (h : Ledger random sends secure) (hfresh : FreshKeys random secure) :
    (secure.handshakeSeals ++ secure.transportSeals).Nodup := by
  refine List.nodup_append.mpr ⟨h.handshakeSeals_nodup hfresh, ?_, fun u hu v hv heq => ?_⟩
  · refine (h.transportSeals_pairwise hfresh).imp fun {u v} hlt heq => ?_
    rw [heq] at hlt
    exact absurd (hlt rfl) (UInt64.lt_irrefl v.2)
  · subst heq
    rw [h.sealed] at hv
    obtain ⟨m, hm, hum⟩ := List.mem_flatMap.mp hu
    obtain ⟨n, hn, hun⟩ := List.mem_flatMap.mp hv
    have hm' := List.mem_range.mp hm
    have hn' := List.mem_range.mp hn
    have hmixed := (h.orderly m).mixed u hum
    have hsplit := h.mem_counted hun
    rcases eq_or_ne m n with rfl | hne
    · exact (List.nodup_append.mp (hfresh.positions m)).2.2 _ hmixed _ hsplit rfl
    · exact h.disjoint hfresh (by omega) (by omega) hne (List.mem_append_left _ hmixed)
        (List.mem_append_right _ hsplit)

/-- The last nonce is never used. -/
theorem Ledger.not_exhausted (h : Ledger random sends secure) :
    ∀ r ∈ secure.sealed, r.nonce.toNat ≠ 2 ^ 64 - 1 := by
  intro r hr
  have hmem : (r.key, r.nonce) ∈ secure.transportSeals := List.mem_map_of_mem hr
  rw [h.sealed] at hmem
  obtain ⟨n, -, hn⟩ := List.mem_flatMap.mp hmem
  obtain ⟨-, -, i, hi, hnonce⟩ := Connection.mem_counted hn
  have hbound := h.bounded n
  dsimp only at hnonce
  rw [hnonce, UInt64.toNat_ofNat', Nat.mod_eq_of_lt (by omega)]
  omega

end Unique

variable {S : Noise.Sodium}

theorem make_accounted (id : ConnectionId) (fd : ℤ) (addr : Multiaddr) (isInitiator : Bool)
    (identity : Option Identity) (streamMuxers : List ProtocolId) (random : ℕ → Entropy) :
    Accounted random (make id fd addr isInitiator identity streamMuxers random).core := by
  refine ⟨fun _ => (Noise.zero32, 0), ⟨rfl, rfl, rfl, fun _ _ => ⟨rfl, rfl⟩, fun _ => .empty,
    fun _ hpos => ?_, fun _ => by norm_num, rfl, fun hkey => ?_⟩, fun _ => .settled ⟨nofun, nofun⟩⟩
  · cases hpos
  · cases hkey

theorem run_ledger {id : ConnectionId} {fd : ℤ} {addr : Multiaddr} {isInitiator : Bool}
    {identity : Option Identity} {streamMuxers : List ProtocolId} {random : ℕ → Entropy}
    {t : BasicConnectionSession}
    (hrun : Runs S (fun _ _ => True) (make id fd addr isInitiator identity streamMuxers random) t) :
    ∃ sends, Ledger random sends t.secure := by
  have haccounted : Accounted random t.core := by
    refine hrun.core_invariant (P := Accounted random) ?_ ?_ ?_
    · exact fun _ _ h hmove => h.move hmove
    · exact fun _ _ h hbegin => h.begin hbegin
    · exact make_accounted id fd addr isInitiator identity streamMuxers random
  obtain ⟨sends, hledger, -⟩ := haccounted
  exact ⟨sends, hledger⟩

/-- In every run of a session, with whatever bytes its socket yields and however often it is
    upgraded: no two of its AEAD encryptions, in handshakes or on the transport, use the
    same key with the same nonce; the transport's nonces for one key go up, and never
    reach 2^64 - 1. -/
theorem nonces_unique (id : ConnectionId) (fd : ℤ) (addr : Multiaddr) (isInitiator : Bool)
    (identity : Option Identity) (streamMuxers : List ProtocolId) (random : ℕ → Entropy)
    {t : BasicConnectionSession}
    (hrun : Runs S (fun _ _ => True) (make id fd addr isInitiator identity streamMuxers random) t)
    (hfresh : FreshKeys random t.secure) :
    (t.secure.handshakeSeals ++ t.secure.transportSeals).Nodup ∧
      (t.secure.transportSeals.Pairwise fun u v => u.1 = v.1 → u.2 < v.2) ∧
      ∀ r ∈ t.secure.sealed, r.nonce.toNat ≠ 2 ^ 64 - 1 := by
  obtain ⟨sends, hledger⟩ := run_ledger hrun
  exact ⟨hledger.seals_nodup hfresh, hledger.transportSeals_pairwise hfresh, hledger.not_exhausted⟩

/-! ## A run of the toy primitives -/

/-- After a single handshake only its own keys matter. -/
theorem Ledger.fresh_of_one {random : ℕ → Entropy} {sends : ℕ → Bytes32 × ℕ}
    {secure : SecureChannelState} (h : Ledger random sends secure) (hdrawn : secure.drawn = 1)
    (hkeys : (secure.keyLogs 1).derived.Nodup) : FreshKeys random secure := by
  have hother : ∀ n, n ≠ 1 → secure.keyLogs n = {} := by
    intro n hn
    rcases Nat.lt_or_ge secure.drawn n with hlater | hearlier
    · exact (h.unused n hlater).1
    · obtain rfl : n = 0 := by omega
      exact h.first
  refine ⟨fun n => ?_, fun m n e e' hm hn hne => ?_, fun i j hi hj _ => by omega⟩
  · rcases eq_or_ne n 1 with rfl | hn
    · exact hkeys
    · rw [hother n hn]
      exact List.nodup_nil
  · rcases eq_or_ne m 1 with rfl | hm'
    · rcases eq_or_ne n 1 with rfl | hn'
      · rw [hm] at hn
        cases hn
        exact absurd rfl hne
      · rw [hother n hn'] at hn
        cases hn
    · rw [hother m hm'] at hm
      cases hm

/-- The same entropy at every draw. -/
def toyRandom : ℕ → Entropy := fun _ => ⟨List.Vector.replicate 32 1, List.Vector.replicate 32 7⟩

/-- A dialer that draws `toyRandom`. -/
def toyDialer : BasicConnectionSession := make 1 3 ⟨[]⟩ true (some toyIdentity) [] toyRandom

/-- An initiator that has written a byte on a direct stream. -/
def toyTalker : BasicConnectionSession :=
  step Noise.Sodium.toy (step Noise.Sodium.toy (toyUpgrade toyDialer (toyInbound [])).1
    (.openStream [])) (.tryWrite (.direct 0) [1])

theorem nonces_unique_toy :
    toyTalker.secure.handshakeSeals.length = 2 ∧ toyTalker.secure.sealed.length = 1 ∧
      (toyTalker.secure.handshakeSeals ++ toyTalker.secure.transportSeals).Nodup := by
  have hrun : Runs Noise.Sodium.toy (fun _ _ => True) toyDialer toyTalker :=
    ((toyUpgrade_runs _ _).step (.openStream []) trivial).step (.tryWrite (.direct 0) [1]) trivial
  obtain ⟨sends, hledger⟩ := run_ledger hrun
  have hfresh : FreshKeys toyRandom toyTalker.secure :=
    hledger.fresh_of_one (by decide +kernel) (by decide +kernel)
  have hunique := nonces_unique 1 3 ⟨[]⟩ true (some toyIdentity) [] toyRandom hrun hfresh
  exact ⟨by decide +kernel, by decide +kernel, hunique.1⟩

end PeerCore.Connection
