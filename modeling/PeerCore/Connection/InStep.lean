import PeerCore.Connection.Upgrading
import PeerCore.Connection.Wire

/-!
# Two sessions in step

Two sessions that upgraded with each other over a lossless stream have matching keys,
and each takes the frames that the other one queued (`Heard`). The counters of a direction
count what was encrypted at one end and decrypted at the other, so they differ by the
frames in transit, until a message is encrypted that no frame can hold, or a session that
is closed drops bytes.

* `met_of_runs`: the upgrades agree.
* `nonces_in_step_iff`: when the counters match, and when no frame fails to decrypt.
* `long_write_out_of_step`: one write of 65520 bytes.
-/

namespace PeerCore.Connection

open BasicConnectionSession
open Noise (Entropy NoiseSession Honest initiatorDone responderDone)

variable {S : Noise.Sodium}

/-! ## The upgrades agree -/

/-- What both sides read as a whole exchange is the same bytes. -/
theorem exchange_unique {p q x y : Bytes} (hp : MultistreamSelect.exchangeSpan p = .ok p.length)
    (hq : MultistreamSelect.exchangeSpan q = .ok q.length) (h : p ++ x = q ++ y) :
    p = q ∧ x = y := by
  have hboth := MultistreamSelect.exchangeSpan_append hp x
  rw [h, MultistreamSelect.exchangeSpan_append hq y, Except.ok.injEq] at hboth
  exact List.append_inj h hboth.symm

theorem noise_fits : MultistreamSelect.Fits noiseProtocol := by
  unfold MultistreamSelect.Fits
  decide

theorem noiseGreeting_span :
    MultistreamSelect.exchangeSpan noiseGreeting = .ok noiseGreeting.length := by
  have hspan := MultistreamSelect.exchangeSpan_exchange MultistreamSelect.header_fits noise_fits []
  rw [List.append_nil] at hspan
  exact hspan

/-- A responder answers the greeting with the same bytes. -/
theorem noiseGreeting_answer :
    MultistreamSelect.negotiateInbound noiseGreeting [noiseProtocol] =
      .ok ⟨noiseGreeting, some noiseProtocol⟩ := by
  have htoken : MultistreamSelect.wireToken noiseProtocol = noiseProtocol := by decide
  rw [noiseGreeting, MultistreamSelect.negotiateInbound_proposal noise_fits, htoken,
    if_pos (List.mem_singleton_self _)]

/-- One end takes the frames that the other one queued. -/
theorem heard_of_queued {u v : Upgrade} {a b : Core} (ha : WireLog u a) (hb : WireLog v b)
    (hspan : MultistreamSelect.exchangeSpan v.heard = .ok v.heard.length)
    (hgreeting : u.greeting = noiseGreeting)
    (hwire : b.io.socket.received <+: a.io.socket.queued) :
    v.heard = noiseGreeting ∧ v.told ++ b.secure.taken <+: u.said ++ a.secure.framed := by
  obtain ⟨more, hmore⟩ := hb.taken.trans hwire
  rw [ha.queued, hgreeting, List.append_assoc] at hmore
  obtain ⟨hheard, hframes⟩ := exchange_unique hspan noiseGreeting_span hmore
  refine ⟨hheard, framesOf_prefix hb.takenShort ?_ hframes⟩
  intro m hm
  rcases List.mem_append.mp hm with hm | hm
  · exact ha.saidShort m hm
  · exact a.secure.framed_short m hm

variable (S) in
/-- Two sessions past a handshake with each other, seen from `a`: the key under which `a`
    encrypts is the one with which `b` decrypts, and `b` takes the frames of `a`. -/
structure Heard (u v : Upgrade) (noiseA noiseB : NoiseSession) (a b : Core) : Prop where
  sender : Established S u noiseA a
  receiver : Established S v noiseB b
  key : noiseA.csSend.key = noiseB.csRecv.key
  heard : v.heard = u.greeting
  told : v.told = u.said
  taken : b.secure.taken <+: a.secure.framed

/-- An initiator and a responder past their handshakes have had the same one. -/
theorem upgrades_agree (hS : S.Correct) {rI rR : Entropy} {nI nR : NoiseSession}
    (hI : Honest S nI) (hR : Honest S nR) {u v : Upgrade} {noiseI noiseR : NoiseSession}
    (hdialed : Dialed S rI nI u noiseI) (hanswered : Answered S rR nR v noiseR) {a b : Core}
    (ha : Established S u noiseI a) (hb : Established S v noiseR b)
    (hab : b.io.socket.received <+: a.io.socket.queued)
    (hba : a.io.socket.received <+: b.io.socket.queued) :
    noiseI = initiatorDone S (Noise.transcript S rI rR nI nR) nI nR ∧
      noiseR = responderDone S (Noise.transcript S rI rR nI nR) nI nR ∧
      Heard S u v noiseI noiseR a b ∧ Heard S v u noiseR noiseI b a := by
  obtain ⟨heardI, msg2, msg3, hspanI, rfl, hprocess2⟩ := hdialed
  obtain ⟨heardR, msg1', msg2', msg3', before, negotiated, hspanR, hnegotiate, hprotocol, rfl, hprocess1,
    hprocess3⟩ := hanswered
  obtain ⟨rfl, hframesR⟩ := heard_of_queued ha.log hb.log hspanR rfl hab
  rw [noiseGreeting_answer, Except.ok.injEq] at hnegotiate
  subst hnegotiate
  obtain ⟨rfl, hframesI⟩ := heard_of_queued hb.log ha.log hspanI rfl hba
  simp only [List.cons_append, List.nil_append, List.cons_prefix_cons] at hframesR hframesI
  obtain ⟨rfl, rfl, htakenR⟩ := hframesR
  obtain ⟨rfl, htakenI⟩ := hframesI
  obtain ⟨hrun1, hrun2, hrun3, hrun4⟩ := Noise.handshake_run hS rI rR hI hR
  rw [hrun1, hrun2, Prod.mk.injEq, Except.ok.injEq] at hprocess1
  obtain ⟨rfl, rfl⟩ := hprocess1
  rw [hrun1, hrun3, Prod.mk.injEq, Except.ok.injEq] at hprocess2
  obtain ⟨rfl, rfl⟩ := hprocess2
  rw [hrun4, Prod.mk.injEq] at hprocess3
  obtain ⟨-, rfl⟩ := hprocess3
  exact ⟨rfl, rfl, ⟨ha, hb, rfl, rfl, rfl, htakenR⟩, ⟨hb, ha, rfl, rfl, rfl, htakenI⟩⟩

/-! ## What is encrypted -/

/-- Every message given to `encrypt` fits a frame when it is encrypted. -/
def FitsFrames (secure : SecureChannelState) : Prop :=
  ∀ r ∈ secure.sealed, r.plaintext.length ≤ 65519

theorem SealRecord.Made.length (hS : S.Correct) {r : SealRecord} (h : r.Made S) :
    r.ciphertext.length = r.plaintext.length + 16 := by
  obtain ⟨c, hencrypt, hlen, -⟩ := Noise.encryptWithKey_ok hS r.key r.nonce r.plaintext []
  rw [h.2, Except.ok.injEq] at hencrypt
  rw [hencrypt, hlen, Noise.aeadTagBytes]

/-- A ciphertext decrypts with the key and the nonce of its record. -/
theorem SealRecord.Made.decrypts (hS : S.Correct) {r : SealRecord} (h : r.Made S) :
    (Noise.decrypt S r.ciphertext ⟨r.key, r.nonce, true⟩).1 = .ok r.plaintext := by
  obtain ⟨c, hencrypt, -, hdecrypt⟩ := Noise.encryptWithKey_ok hS r.key r.nonce r.plaintext []
  rw [h.2, Except.ok.injEq] at hencrypt
  subst hencrypt
  have hnonce : r.nonce.toNat ≠ 18446744073709551615 := h.1
  unfold Noise.decrypt
  simp [Op.bind_apply, Noise.ensureSodiumReady_eq hS, hnonce, hdecrypt]

theorem framed_eq_iff (hS : S.Correct) {secure : SecureChannelState}
    (hmade : ∀ r ∈ secure.sealed, r.Made S) :
    secure.framed.length = secure.sealed.length ↔ FitsFrames secure := by
  have hlen : (secure.sealed.map (·.ciphertext)).length = secure.sealed.length := List.length_map _
  unfold SecureChannelState.framed FitsFrames
  rw [← hlen, List.length_filter_eq_length_iff]
  simp only [List.forall_mem_map, decide_eq_true_eq]
  refine forall₂_congr fun r hr => ?_
  rw [(hmade r hr).length hS]
  omega

theorem FitsFrames.framed (hS : S.Correct) {secure : SecureChannelState}
    (hmade : ∀ r ∈ secure.sealed, r.Made S) (h : FitsFrames secure) :
    secure.framed = secure.sealed.map (·.ciphertext) := by
  refine List.filter_eq_self.mpr fun m hm => ?_
  obtain ⟨r, hr, rfl⟩ := List.mem_map.mp hm
  have hlen := (hmade r hr).length hS
  have hfits := h r hr
  exact decide_eq_true (by omega)

section Heard

variable {u v : Upgrade} {noiseA noiseB : NoiseSession} {a b : Core}

/-- While every message fits, every frame decrypts. -/
theorem Heard.decrypts (hS : S.Correct) (h : Heard S u v noiseA noiseB a b)
    (hfits : FitsFrames a.secure) : ∀ r ∈ b.secure.opened, r.plaintext ≠ none := by
  intro r hr hnone
  obtain ⟨i, hi⟩ := List.mem_iff_getElem?.mp hr
  -- the frame is the one that `a` encrypted at this position
  obtain ⟨rest, hrest⟩ := h.taken
  have hframe : a.secure.framed[i]? = some r.ciphertext := by
    have htaken : b.secure.taken[i]? = some r.ciphertext := by
      rw [SecureChannelState.taken, List.getElem?_map, hi]
      rfl
    rw [← hrest, List.getElem?_append_left (List.getElem?_eq_some_iff.mp htaken).1, htaken]
  rw [hfits.framed hS h.sender.made, List.getElem?_map, Option.map_eq_some_iff] at hframe
  obtain ⟨sent, hsent, hsame⟩ := hframe
  have hmem := List.mem_of_getElem? hsent
  have hkey : sent.key = r.key := by
    rw [h.sender.keyed.sealedKey sent hmem, h.receiver.keyed.openedKey r hr, h.key]
  have hnonce : sent.nonce = r.nonce := by
    have hfirst : sent.nonce.toNat = i := h.sender.keyed.sealedNonce i sent hsent
    have hsecond : r.nonce.toNat = i := h.receiver.keyed.openedNonce i r hi
    exact UInt64.toNat_inj.mp (hfirst.trans hsecond.symm)
  have hopens := (h.sender.made sent hmem).decrypts hS
  obtain ⟨error, cs, hfails⟩ := h.receiver.tried r hr hnone
  rw [hsame, hkey, hnonce, hfails] at hopens
  cases hopens

/-- The bytes from `sender` that `receiver` has not cut into frames: in its receive buffer,
    in flight, and in the send buffer. -/
def inTransit (sender receiver : SessionIoState) : Bytes :=
  receiver.wireRx ++ sender.socket.sent.drop receiver.socket.received.length ++ sender.wireTx

theorem readAll_framesOf {messages : List Bytes} (hlen : ∀ m ∈ messages, m.length ≤ 65535) :
    readAll popWire (framesOf messages) = (messages, []) := by
  induction messages with
  | nil => rfl
  | cons m messages ih =>
    have hpop := popWire_frameOf (hlen m List.mem_cons_self) (framesOf messages)
    rw [framesOf, List.flatMap_cons, ← framesOf, popWire_incremental.readAll_of_some hpop,
      ih fun m' hm' => hlen m' (List.mem_cons_of_mem _ hm')]

/-- No bytes were dropped between `sender` and `receiver`: whenever `close_socket` cleared
    the send buffer of the one or the receive buffer of the other, it was empty. -/
def NothingDropped (sender receiver : SessionIoState) : Prop :=
  sender.socket.unsent = [] ∧ receiver.socket.unread = []

/-- The frames in transit are those that `b` has not taken. -/
theorem Heard.in_transit (h : Heard S u v noiseA noiseB a b) (hflows : Flows a.io)
    (hkept : NothingDropped a.io b.io) (hwire : b.io.socket.received <+: a.io.socket.sent) :
    b.secure.taken ++ (readAll popWire (inTransit a.io b.io)).1 = a.secure.framed := by
  obtain ⟨flight, hflight⟩ := hwire
  obtain ⟨rest, hrest⟩ := h.taken
  have hdrop : a.io.socket.sent.drop b.io.socket.received.length = flight := by
    rw [← hflight, List.drop_left]
  have hqueued := h.sender.log.queued
  rw [hflows.queued, hkept.1, ← hflight, h.receiver.log.received, hkept.2, h.heard, h.told, ← hrest,
    ← List.append_assoc u.said, framesOf_append _ rest] at hqueued
  simp only [List.append_assoc, List.nil_append, List.append_cancel_left_eq] at hqueued
  have hbytes : inTransit a.io b.io = framesOf rest := by
    rw [inTransit, hdrop, List.append_assoc, ← hqueued]
  have hshort : ∀ m ∈ rest, m.length ≤ 65535 := fun m hm =>
    a.secure.framed_short m (by rw [← hrest]; exact List.mem_append_right _ hm)
  rw [hbytes, readAll_framesOf hshort, hrest]

/-! ## Frames on their way -/

/-- Byte `p` of those that `sender` queued is in the receive buffer of `receiver`, in flight,
    or in the send buffer. -/
def OnItsWay (sender receiver : SessionIoState) (p : ℕ) : Prop :=
  receiver.socket.received.length ≤ p + receiver.wireRx.length ∧ p < sender.socket.sent.length ∨
    sender.socket.queued.length ≤ p + sender.wireTx.length

instance (sender receiver : SessionIoState) (p : ℕ) : Decidable (OnItsWay sender receiver p) :=
  inferInstanceAs (Decidable (_ ∧ _ ∨ _))

/-- Where frame `i` of `sender` begins among the bytes it queued. -/
def frameStart (sender : Core) (i : ℕ) : ℕ :=
  sender.io.socket.queued.length - (framesOf (sender.secure.framed.drop i)).length

/-- All bytes of frame `i` are on their way. -/
def WholeOnItsWay (sender receiver : Core) (i : ℕ) : Prop :=
  ∀ p < frameStart sender (i + 1), frameStart sender i ≤ p → OnItsWay sender.io receiver.io p

instance (sender receiver : Core) (i : ℕ) : Decidable (WholeOnItsWay sender receiver i) :=
  Nat.decidableBallLT _ _

/-- The number of complete frames that are queued or in flight. -/
def framesOnTheirWay (sender receiver : Core) : ℕ :=
  (List.range sender.secure.framed.length).countP fun i => WholeOnItsWay sender receiver i

/-- The counters of the two ends differ by the frames on their way. -/
def CountersMatch (a b : Core) : Prop :=
  a.secure.noise.csSend.nonce.toNat = b.secure.noise.csRecv.nonce.toNat + framesOnTheirWay a b

/-- Between two values of `f` every value lies in one step. -/
theorem exists_step {f : ℕ → ℕ} {m n p : ℕ} (hmn : m ≤ n) (hm : f m ≤ p) (hn : p < f n) :
    ∃ i, m ≤ i ∧ i < n ∧ f i ≤ p ∧ p < f (i + 1) := by
  induction n, hmn using Nat.le_induction with
  | base => omega
  | succ n hmn ih =>
    by_cases hlt : p < f n
    · obtain ⟨i, hi, hin, hstep⟩ := ih hlt
      exact ⟨i, hi, by omega, hstep⟩
    · exact ⟨n, hmn, by omega, by omega, hn⟩

/-- How many of the first `n` numbers have a property that those below `m` do not have. -/
theorem countP_range_of_not {P : ℕ → Prop} [DecidablePred P] {m n : ℕ} (hmn : m ≤ n)
    (hlow : ∀ i < m, ¬P i) :
    (List.range n).countP (fun i => P i) ≤ n - m ∧
      ((List.range n).countP (fun i => P i) = n - m ↔ ∀ i, m ≤ i → i < n → P i) := by
  obtain ⟨k, rfl⟩ := Nat.exists_eq_add_of_le hmn
  have hzero : (List.range m).countP (fun i => P i) = 0 := by
    rw [List.countP_eq_zero]
    intro i hi
    simpa using hlow i (List.mem_range.mp hi)
  have hsplit : (List.range (m + k)).countP (fun i => P i) =
      (List.range k).countP fun i => P (m + i) := by
    rw [List.range_add, List.countP_append, hzero, Nat.zero_add, List.countP_map]
    rfl
  have hlen : (List.range k).length = m + k - m := by
    rw [List.length_range, Nat.add_sub_cancel_left]
  rw [hsplit, ← hlen, List.countP_eq_length]
  refine ⟨List.countP_le_length, ?_⟩
  simp only [List.mem_range, decide_eq_true_eq]
  constructor
  · intro hall i hi hlt
    obtain ⟨j, rfl⟩ := Nat.exists_eq_add_of_le hi
    exact hall j (by omega)
  · intro hall j hj
    exact hall (m + j) (by omega) (by omega)

theorem length_frameOf_pos (m : Bytes) : 0 < (frameOf m).length := by
  rw [frameOf]
  exact Nat.succ_pos _

theorem WireLog.frameStart_eq {c : Core} (h : WireLog u c) (i : ℕ) :
    frameStart c i = (u.greeting ++ framesOf (u.said ++ c.secure.framed.take i)).length := by
  have hsplit : c.io.socket.queued =
      (u.greeting ++ framesOf (u.said ++ c.secure.framed.take i)) ++
        framesOf (c.secure.framed.drop i) := by
    rw [h.queued, List.append_assoc, ← framesOf_append, List.append_assoc, List.take_append_drop]
  rw [frameStart, hsplit, List.length_append, Nat.add_sub_cancel_right]

theorem frameStart_mono (c : Core) {i j : ℕ} (hij : i ≤ j) : frameStart c i ≤ frameStart c j := by
  have hsub : (c.secure.framed.drop j).Sublist (c.secure.framed.drop i) :=
    List.drop_sublist_drop_left _ hij
  exact Nat.sub_le_sub_left (hsub.flatMap frameOf).length_le _

/-- No frame is empty. -/
theorem WireLog.frameStart_succ {c : Core} (h : WireLog u c) {i : ℕ}
    (hi : i < c.secure.framed.length) : frameStart c i < frameStart c (i + 1) := by
  rw [h.frameStart_eq, h.frameStart_eq, List.take_add_one, List.getElem?_eq_getElem hi,
    Option.toList_some, ← List.append_assoc u.said, framesOf_append _ [_], framesOf_singleton]
  simp only [List.length_append]
  have hpos := length_frameOf_pos c.secure.framed[i]
  omega

/-- Where the bytes end that `b` has taken. -/
theorem Heard.frameStart_taken (h : Heard S u v noiseA noiseB a b) :
    frameStart a b.secure.taken.length + (b.io.socket.unread.length + b.io.wireRx.length) =
      b.io.socket.received.length := by
  rw [h.sender.log.frameStart_eq, ← List.prefix_iff_eq_take.mp h.taken, h.receiver.log.received,
    h.heard, h.told]
  simp only [List.length_append]

theorem frameStart_length (c : Core) :
    frameStart c c.secure.framed.length = c.io.socket.queued.length := by
  rw [frameStart, List.drop_length]
  rfl

/-- The frames that `b` has taken are on their way no more. The others all are, unless a byte
    was dropped. -/
theorem Heard.whole_iff (h : Heard S u v noiseA noiseB a b) (hflows : Flows a.io)
    (hwire : b.io.socket.received <+: a.io.socket.sent) :
    (∀ i < b.secure.taken.length, ¬WholeOnItsWay a b i) ∧
      ((∀ i, b.secure.taken.length ≤ i → i < a.secure.framed.length → WholeOnItsWay a b i) ↔
        NothingDropped a.io b.io) := by
  have htaken := h.taken.length_le
  have hstart := h.frameStart_taken
  have hreceived := hwire.length_le
  have hqueued := congrArg List.length hflows.queued
  simp only [List.length_append] at hqueued
  refine ⟨fun i hi hwhole => ?_, fun hall => ?_, ?_⟩
  · have hfirst := hwhole _ (h.sender.log.frameStart_succ (by omega)) le_rfl
    have hlt := h.sender.log.frameStart_succ (i := i) (by omega)
    have hle := frameStart_mono a (show i + 1 ≤ b.secure.taken.length from hi)
    unfold OnItsWay at hfirst
    omega
  · -- every byte behind the taken frames is in one of the others
    have hbyte : ∀ p, frameStart a b.secure.taken.length ≤ p → p < a.io.socket.queued.length →
        OnItsWay a.io b.io p := by
      intro p hlow hhigh
      rw [← frameStart_length] at hhigh
      obtain ⟨i, hi, hlt, hbelow, habove⟩ := exists_step htaken hlow hhigh
      exact hall i hi hlt p habove hbelow
    constructor
    · by_contra hne
      have hpos := List.length_pos_of_ne_nil hne
      have hlost := hbyte a.io.socket.sent.length (by omega) (by omega)
      unfold OnItsWay at hlost
      omega
    · by_contra hne
      have hpos := List.length_pos_of_ne_nil hne
      have hlost := hbyte _ le_rfl (by omega)
      unfold OnItsWay at hlost
      omega
  · rintro ⟨hunsent, hunread⟩ i hi hlt p hp hlow
    have hmono := frameStart_mono a hi
    rw [hunread] at hstart
    rw [hunsent] at hqueued
    simp only [List.length_nil] at hstart hqueued
    unfold OnItsWay
    omega

/-- The frames on their way are counted by reading the bytes in transit, when none was dropped. -/
theorem Heard.framesOnTheirWay_eq (h : Heard S u v noiseA noiseB a b) (hflows : Flows a.io)
    (hkept : NothingDropped a.io b.io) (hwire : b.io.socket.received <+: a.io.socket.sent) :
    framesOnTheirWay a b = (readAll popWire (inTransit a.io b.io)).1.length := by
  obtain ⟨hbefore, hbehind⟩ := h.whole_iff hflows hwire
  have hcount := (countP_range_of_not h.taken.length_le hbefore).2.mpr (hbehind.mpr hkept)
  have hframes := congrArg List.length (h.in_transit hflows hkept hwire)
  rw [List.length_append] at hframes
  rw [framesOnTheirWay, hcount]
  omega

/-- The counters match exactly when every message fits a frame and no byte was dropped. -/
theorem Heard.counters_match_iff (hS : S.Correct) (h : Heard S u v noiseA noiseB a b)
    (hflows : Flows a.io) (hwire : b.io.socket.received <+: a.io.socket.sent) :
    CountersMatch a b ↔ FitsFrames a.secure ∧ NothingDropped a.io b.io := by
  obtain ⟨hbefore, hbehind⟩ := h.whole_iff hflows hwire
  obtain ⟨hmost, hall⟩ := countP_range_of_not h.taken.length_le hbefore
  have htaken := h.taken.length_le
  have hopened : b.secure.taken.length = b.secure.opened.length := List.length_map _
  have hframed : a.secure.framed.length ≤ a.secure.sealed.length := by
    unfold SecureChannelState.framed
    exact (List.length_filter_le _ _).trans (List.length_map _).le
  have hrecv := h.receiver.keyed.recvCount
  have hclean : b.secure.opened.countP (·.plaintext.isSome) ≤ b.secure.opened.length :=
    List.countP_le_length
  rw [CountersMatch, h.sender.keyed.sendNonce, ← hbehind, ← hall, ← framed_eq_iff hS h.sender.made]
  change _ = _ + framesOnTheirWay a b ↔ _ ∧ framesOnTheirWay a b = _
  change framesOnTheirWay a b ≤ _ at hmost
  constructor
  · intro hmatch
    constructor <;> omega
  · rintro ⟨hfits, hcount⟩
    have hwhole := h.decrypts hS ((framed_eq_iff hS h.sender.made).mp hfits)
    rw [h.receiver.keyed.recvNonce_of hwhole]
    omega

end Heard

/-! ## Runs of both -/

section Runs

variable {idI idR : ConnectionId} {fdI fdR : ℤ} {addrI addrR : Multiaddr}
  {identityI identityR : Option Identity} {streamMuxersI streamMuxersR : List ProtocolId}
  {randomI randomR : ℕ → Entropy} {a b : BasicConnectionSession}

/-- The socket of a session that began its upgrade. -/
theorem flows_of_run {id : ConnectionId} {fd : ℤ} {addr : Multiaddr} {role : Bool}
    {identity : Option Identity} {streamMuxers : List ProtocolId} {random : ℕ → Entropy}
    {begins : Action} {s : BasicConnectionSession}
    (hrun : Runs S NoRestart (step S (make id fd addr role identity streamMuxers random) begins) s) :
    Flows s.io := by
  have hmake : Flows (make id fd addr role identity streamMuxers random).io := by
    refine ⟨rfl, fun _ => rfl, nofun, ?_, Nat.zero_le _⟩
    intro _ r hr
    cases hr
  have hfirst : Runs S (fun _ _ => True) (make id fd addr role identity streamMuxers random)
      (step S (make id fd addr role identity streamMuxers random) begins) :=
    .step .refl begins trivial
  have hbegun := hfirst.core_invariant (P := fun c => Flows c.io)
    (fun _ _ h hmove => h.move hmove) (fun _ _ h hbegin => h.begin hbegin) hmake
  exact hrun.noRestart_invariant (P := fun c => Flows c.io) (fun _ _ h hmove => h.move hmove) hbegun

/-- An initiator and a responder that upgraded with each other. -/
theorem met_of_runs (hS : S.Correct) (hI : Honest S (configuration identityI streamMuxersI))
    (hR : Honest S (configuration identityR streamMuxersR))
    (hrunI : Runs S NoRestart
      (step S (make idI fdI addrI true identityI streamMuxersI randomI) .beginOutbound) a)
    (hrunR : Runs S NoRestart
      (step S (make idR fdR addrR false identityR streamMuxersR randomR) .beginInbound) b)
    (ha : a.Upgraded) (hb : b.Upgraded)
    (hab : b.io.socket.received <+: a.io.socket.sent)
    (hba : a.io.socket.received <+: b.io.socket.sent) :
    ∃ u v noiseI noiseR, Heard S u v noiseI noiseR a.core b.core ∧
      Heard S v u noiseR noiseI b.core a.core := by
  obtain ⟨u, noiseI, hdialed, hestablishedI⟩ := initiator_upgrade hrunI ha
  obtain ⟨v, noiseR, hanswered, hestablishedR⟩ := responder_upgrade hrunR hb
  obtain ⟨-, -, hboth⟩ := upgrades_agree hS hI hR hdialed hanswered hestablishedI hestablishedR
    (hab.trans (flows_of_run hrunI).ordered) (hba.trans (flows_of_run hrunR).ordered)
  exact ⟨u, v, noiseI, noiseR, hboth⟩

theorem counters_of_runs (hS : S.Correct) (hI : Honest S (configuration identityI streamMuxersI))
    (hR : Honest S (configuration identityR streamMuxersR))
    (hrunI : Runs S NoRestart
      (step S (make idI fdI addrI true identityI streamMuxersI randomI) .beginOutbound) a)
    (hrunR : Runs S NoRestart
      (step S (make idR fdR addrR false identityR streamMuxersR randomR) .beginInbound) b)
    (ha : a.Upgraded) (hb : b.Upgraded)
    (hab : b.io.socket.received <+: a.io.socket.sent)
    (hba : a.io.socket.received <+: b.io.socket.sent) :
    (CountersMatch a.core b.core ↔ FitsFrames a.secure ∧ NothingDropped a.io b.io) ∧
      (CountersMatch b.core a.core ↔ FitsFrames b.secure ∧ NothingDropped b.io a.io) := by
  obtain ⟨u, v, noiseI, noiseR, hforth, hback⟩ := met_of_runs hS hI hR hrunI hrunR ha hb hab hba
  exact ⟨hforth.counters_match_iff hS (flows_of_run hrunI) hab,
    hback.counters_match_iff hS (flows_of_run hrunR) hba⟩

/-- Two sessions that completed the handshake with each other, after any runs of both and
    with any part of the bytes of each received by the other: while what is encrypted fits a
    frame, the other side decrypts every frame it takes; and the counters of a direction
    differ by the frames on their way if and only if every message encrypted in that
    direction had at most 65519 bytes and no byte of it was dropped by closing a socket. -/
theorem nonces_in_step_iff (hS : S.Correct) (hI : Honest S (configuration identityI streamMuxersI))
    (hR : Honest S (configuration identityR streamMuxersR))
    (hrunI : Runs S NoRestart
      (step S (make idI fdI addrI true identityI streamMuxersI randomI) .beginOutbound) a)
    (hrunR : Runs S NoRestart
      (step S (make idR fdR addrR false identityR streamMuxersR randomR) .beginInbound) b)
    (ha : a.Upgraded) (hb : b.Upgraded)
    (hab : b.io.socket.received <+: a.io.socket.sent)
    (hba : a.io.socket.received <+: b.io.socket.sent) :
    (FitsFrames a.secure → ∀ r ∈ b.secure.opened, r.plaintext ≠ none) ∧
      (FitsFrames b.secure → ∀ r ∈ a.secure.opened, r.plaintext ≠ none) ∧
      (CountersMatch a.core b.core ↔ FitsFrames a.secure ∧ NothingDropped a.io b.io) ∧
      (CountersMatch b.core a.core ↔ FitsFrames b.secure ∧ NothingDropped b.io a.io) := by
  obtain ⟨u, v, noiseI, noiseR, hforth, hback⟩ := met_of_runs hS hI hR hrunI hrunR ha hb hab hba
  exact ⟨hforth.decrypts hS, hback.decrypts hS,
    counters_of_runs hS hI hR hrunI hrunR ha hb hab hba⟩

end Runs

/-! ## A write that is too long -/

/-- A direct stream encrypts a message that no frame can hold, and reports the error of
    `encode_frame`: the counter moves, the socket does not. -/
theorem long_write_lost (hS : S.Correct) {s : BasicConnectionSession} (stream : ℕ) (data : Bytes)
    (hready : s.secure.secureReady = true)
    (hstream : ¬((s.directStreams stream).isOpen = false ∨ (s.directStreams stream).writeOpen = false))
    (hkey : s.secure.noise.csSend.hasKey = true)
    (hnonce : s.secure.noise.csSend.nonce.toNat ≠ 2 ^ 64 - 1) (hlong : 65519 < data.length) :
    (∃ error, (streamTryWrite S (.direct stream) data s).1 = .error error) ∧
      (step S s (.tryWrite (.direct stream) data)).io = s.io ∧
      (step S s (.tryWrite (.direct stream) data)).state = s.state ∧
      (step S s (.tryWrite (.direct stream) data)).secure.stage = s.secure.stage ∧
      (step S s (.tryWrite (.direct stream) data)).secure.noise.csSend.nonce =
        s.secure.noise.csSend.nonce + 1 ∧
      ∃ r ∈ (step S s (.tryWrite (.direct stream) data)).secure.sealed, r.plaintext = data := by
  obtain ⟨ciphertext, hencrypt, hlen, -⟩ :=
    Noise.encryptWithKey_ok hS s.secure.noise.csSend.key s.secure.noise.csSend.nonce data []
  have hrefused : Noise.encodeFrame ciphertext = .error "noise frame too large" := by
    rw [Noise.encodeFrame, if_pos]
    rw [hlen, Noise.aeadTagBytes]
    omega
  obtain ⟨secure, hseal⟩ : ∃ secure, sealMessage S data s.secure = (.ok ciphertext, secure) := by
    have hnonce' : s.secure.noise.csSend.nonce.toNat ≠ 18446744073709551615 := hnonce
    simp [sealMessage, Noise.encrypt, Op.bind_apply, Noise.ensureSodiumReady_eq hS, hkey, hnonce',
      hencrypt]
  have hrun : streamTryWrite S (.direct stream) data s = (.error "noise frame too large",
      ({ s with secure } : BasicConnectionSession).setDirect stream
        fun st => { st with isOpen := false }) := by
    rw [streamTryWrite, Op.bind_apply, Op.get_apply]
    dsimp only
    rw [if_neg hstream, queueEncryptedWrite, Op.bind_apply, Op.get_apply]
    dsimp only
    rw [if_neg (by simp [hready])]
    simp only [Op.bind_apply, Op.onFail, onSecure, onIo, Op.zoom, hseal, queueWireMessage,
      Op.ofResult_apply, hrefused]
  obtain ⟨-, -, -, rfl⟩ := sealMessage_ok hseal
  rw [step, hrun]
  exact ⟨⟨_, rfl⟩, rfl, rfl, rfl, rfl, _, List.mem_append_right _ (List.mem_singleton_self _), rfl⟩

/-- `send` accepts everything. -/
def toySends : Action := .answers (List.replicate 20 (.accepted 100000)) none

/-- `receiver` reads what `sender` has sent since it last read. -/
def toyReads (sender receiver : BasicConnectionSession) : BasicConnectionSession :=
  step Noise.Sodium.toy receiver
    (.readable [.data (sender.io.socket.sent.drop receiver.io.socket.received.length)])

/-- The second session reads, and then the first. -/
def toyExchange (pair : BasicConnectionSession × BasicConnectionSession) :
    BasicConnectionSession × BasicConnectionSession :=
  (toyReads (toyReads pair.1 pair.2) pair.1, toyReads pair.1 pair.2)

/-- A dialer whose greeting is sent. -/
def toyGreets : BasicConnectionSession :=
  step Noise.Sodium.toy (step Noise.Sodium.toy
    (step Noise.Sodium.toy toyDialer .beginOutbound) toySends) .writable

/-- A listener that waits for it. -/
def toyWaits : BasicConnectionSession :=
  step Noise.Sodium.toy (step Noise.Sodium.toy (toyInbound []) .beginInbound) toySends

/-- The dialer has finished its handshake, and msg3 is on its way. -/
def toyShaken : BasicConnectionSession × BasicConnectionSession :=
  toyExchange (toyExchange (toyGreets, toyWaits))

/-- The dialer opened its direct stream. -/
def toyTalks : BasicConnectionSession := step Noise.Sodium.toy toyShaken.1 (.openStream [])

/-- The listener has finished its handshake. -/
def toyListens : BasicConnectionSession := toyReads toyShaken.1 toyShaken.2

theorem toyReads_runs {s sender receiver : BasicConnectionSession}
    (h : Runs Noise.Sodium.toy NoRestart s receiver) :
    Runs Noise.Sodium.toy NoRestart s (toyReads sender receiver) := .step h (.readable _) nofun

theorem toyMet_runs :
    Runs Noise.Sodium.toy NoRestart (step Noise.Sodium.toy toyDialer .beginOutbound) toyTalks ∧
      Runs Noise.Sodium.toy NoRestart (step Noise.Sodium.toy (toyInbound []) .beginInbound)
        toyListens := by
  have hsends : ∀ s, NoRestart s toySends := by
    intro s hs
    cases hs
  have hgreets : Runs Noise.Sodium.toy NoRestart (step Noise.Sodium.toy toyDialer .beginOutbound)
      toyGreets := .step (.step .refl toySends (hsends _)) .writable nofun
  have hwaits : Runs Noise.Sodium.toy NoRestart (step Noise.Sodium.toy (toyInbound []) .beginInbound)
      toyWaits := .step .refl toySends (hsends _)
  have hexchange : ∀ pair s t, Runs Noise.Sodium.toy NoRestart s pair.1 →
      Runs Noise.Sodium.toy NoRestart t pair.2 →
      Runs Noise.Sodium.toy NoRestart s (toyExchange pair).1 ∧
        Runs Noise.Sodium.toy NoRestart t (toyExchange pair).2 :=
    fun _ _ _ hs ht => ⟨toyReads_runs hs, toyReads_runs ht⟩
  have hfirst := hexchange (toyGreets, toyWaits) _ _ hgreets hwaits
  have hsecond := hexchange _ _ _ hfirst.1 hfirst.2
  exact ⟨.step hsecond.1 (.openStream []) nofun, toyReads_runs hsecond.2⟩

theorem toyHonest : Honest Noise.Sodium.toy (configuration (some toyIdentity) []) where
  ephemeral := nofun
  static := nofun
  identity := fun i hi => by cases hi; rfl
  extensions := by decide

/-- One message is in transit. -/
theorem nonces_in_step_iff_toy :
    let a := step Noise.Sodium.toy toyTalks (.tryWrite (.direct 0) [1, 2, 3])
    framesOnTheirWay a.core toyListens.core = 1 ∧
      CountersMatch a.core toyListens.core ∧ ∀ r ∈ toyListens.secure.opened, r.plaintext ≠ none := by
  intro a
  have hfits : FitsFrames a.secure := by unfold FitsFrames; decide +kernel
  obtain ⟨hdecrypts, -, hmatch, -⟩ := nonces_in_step_iff Noise.toy_correct
    toyHonest toyHonest
    (toyMet_runs.1.step (.tryWrite (.direct 0) [1, 2, 3]) nofun) toyMet_runs.2 (.inr (by decide +kernel))
    (.inr (by decide +kernel)) (by decide +kernel) (by decide +kernel)
  exact ⟨by decide +kernel, hmatch.mpr ⟨hfits, by unfold NothingDropped; decide +kernel⟩,
    hdecrypts hfits⟩

/-- One write of 65520 bytes, which is refused, and the counters differ by one. -/
theorem long_write_out_of_step :
    let a := step Noise.Sodium.toy toyTalks (.tryWrite (.direct 0) (List.replicate 65520 0))
    Runs Noise.Sodium.toy NoRestart (step Noise.Sodium.toy toyDialer .beginOutbound) a ∧
      Runs Noise.Sodium.toy NoRestart (step Noise.Sodium.toy (toyInbound []) .beginInbound)
        toyListens ∧
      a.Upgraded ∧ toyListens.Upgraded ∧ a.isActive = true ∧ toyListens.isActive = true ∧
      toyListens.io.socket.received <+: a.io.socket.sent ∧
      a.io.socket.received <+: toyListens.io.socket.sent ∧
      ¬ CountersMatch a.core toyListens.core := by
  dsimp only
  obtain ⟨-, hio, hstate, hstage, -, r, hr, hdata⟩ := long_write_lost Noise.toy_correct
    (s := toyTalks) 0 (List.replicate 65520 0) (by decide +kernel) (by decide +kernel)
    (by decide +kernel) (by decide +kernel) (by rw [List.length_replicate]; norm_num)
  have hready : toyTalks.secure.stage = .ready := by decide +kernel
  have hactive : toyTalks.isActive = true := by decide +kernel
  have hrun := toyMet_runs.1.step (.tryWrite (.direct 0) (List.replicate 65520 0)) nofun
  generalize step Noise.Sodium.toy toyTalks (.tryWrite (.direct 0) (List.replicate 65520 0)) = a
    at hrun hio hstate hstage hr ⊢
  have ha : a.Upgraded := .inr (hstage.trans hready)
  have hb : toyListens.Upgraded := .inr (by decide +kernel)
  have hab : toyListens.io.socket.received <+: a.io.socket.sent := by
    rw [hio]
    decide +kernel
  have hba : a.io.socket.received <+: toyListens.io.socket.sent := by
    rw [hio]
    decide +kernel
  refine ⟨hrun, toyMet_runs.2, ha, hb, ?_, by decide +kernel, hab, hba, fun hmatch => ?_⟩
  · rw [isActive, hio, hstate]
    exact hactive
  · obtain ⟨hiff, -⟩ :=
      counters_of_runs Noise.toy_correct toyHonest toyHonest hrun toyMet_runs.2 ha hb hab hba
    obtain ⟨hfits, -⟩ := hiff.mp hmatch
    have hshort : r.plaintext.length ≤ 65519 := hfits r hr
    rw [hdata, List.length_replicate] at hshort
    norm_num at hshort

end PeerCore.Connection
