import PeerCore.Connection.Delivery
import PeerCore.Connection.Settling

/-!
# The secure channel of two sessions

What one of two sessions that upgraded with each other decrypts is what the other one
encrypted, message by message and in order, up to the first message that fits no frame.

* `Heard.opens`: the `i`-th frame decrypts to the `i`-th message.
* `channel_in_order`: the channel is a queue of messages, and what is in transit is
  what is missing.
-/

namespace PeerCore.Connection

open BasicConnectionSession
open Noise (Entropy NoiseSession Honest)

variable {S : Noise.Sodium}

/-! ## Decryptions that succeeded -/

variable (S) in
/-- What a `decrypt` returned is recorded. -/
def OpenRecord.Done (r : OpenRecord) : Prop :=
  ∀ p, r.plaintext = some p →
    Noise.decrypt S r.ciphertext ⟨r.key, r.nonce, true⟩ = (.ok p, ⟨r.key, r.nonce + 1, true⟩)

variable (S) in
/-- Every record of a successful `decrypt` is of one. -/
def Decrypted (c : Core) : Prop := ∀ r ∈ c.secure.opened, r.Done S

theorem openMessage_decrypts {secure secure' : SecureChannelState} {frame plaintext : Bytes}
    (h : openMessage S frame secure = (.ok plaintext, secure')) :
    let cs := secure.noise.csRecv
    Noise.decrypt S frame ⟨cs.key, cs.nonce, true⟩ = (.ok plaintext, ⟨cs.key, cs.nonce + 1, true⟩) := by
  intro cs
  have hflag := (openMessage_ok h).1
  have hkey : secure.noise.csRecv = ⟨cs.key, cs.nonce, true⟩ := by rw [← hflag]
  unfold openMessage at h
  rcases hdecrypt : Noise.decrypt S frame secure.noise.csRecv with ⟨e | p, cs'⟩
  · simp [hdecrypt] at h
  · simp only [hdecrypt, Prod.mk.injEq, Except.ok.injEq] at h
    obtain ⟨-, -, -, hnext⟩ := Noise.decrypt_ok hdecrypt
    rw [← hkey, hdecrypt, hnext, h.1, hflag]

theorem Decrypted.opened {c c' : Core} (h : Decrypted S c) {frame : Bytes} {result : Result Bytes}
    (hrun : openMessage S frame c.secure = (result, c'.secure)) : Decrypted S c' := by
  intro r hr
  cases result with
  | ok plaintext =>
    obtain ⟨-, -, -, hsecure⟩ := openMessage_ok hrun
    have hdecrypt := openMessage_decrypts hrun
    rw [hsecure] at hr
    rcases List.mem_append.mp hr with hr | hr
    · exact h r hr
    · rw [List.mem_singleton.mp hr]
      intro p hp
      rwa [← Option.some.inj hp]
  | error error =>
    rw [openMessage_error hrun] at hr
    rcases List.mem_append.mp hr with hr | hr
    · exact h r hr
    · rw [List.mem_singleton.mp hr]
      nofun

theorem Decrypted.of_opened {c c' : Core} (h : Decrypted S c)
    (hsame : c'.secure.opened = c.secure.opened) : Decrypted S c' := by
  intro r hr
  rw [hsame] at hr
  exact h r hr

theorem Handshook.opened {secure keyed : SecureChannelState} (h : Handshook S secure keyed) :
    keyed.opened = secure.opened := by
  cases h <;> rfl

theorem Decrypted.move {c c' : Core} (h : Decrypted S c) (hmove : Move S c c') : Decrypted S c' := by
  cases hmove with
  | out hout => exact h.of_opened hout.frame.opened
  | acceptNoise _ _ _ _ _ _ _ _ _ hout => exact h.of_opened hout.frame.opened
  | acceptNoiseFail _ _ _ _ _ hout => exact h.of_opened hout.frame.opened
  | fail _ secure _ _ _ _ _ hkeys =>
    obtain ⟨keyed, hshook, hsecure⟩ := hkeys
    refine h.of_opened ?_
    show secure.opened = _
    rw [hsecure]
    exact hshook.opened
  | finishOutbound _ _ _ _ _ _ _ _ _ hseal =>
    obtain ⟨-, -, -, rfl⟩ := sealMessage_ok hseal
    exact h.of_opened rfl
  | finishFail _ secure _ hsecure =>
    rcases hsecure with rfl | ⟨_, hseal⟩
    · exact h.of_opened rfl
    · obtain ⟨-, -, -, rfl⟩ := sealMessage_ok hseal
      exact h.of_opened rfl
  | openMuxer _ _ _ _ _ _ hopen => exact h.opened hopen
  | openData _ _ _ _ _ _ _ hopen => exact h.opened hopen
  | openFail _ _ _ _ _ _ _ hopen => exact h.opened hopen
  | muxerOutbound _ muxer =>
    refine h.of_opened ?_
    cases muxer <;> rfl
  | muxerInbound c₁ _ negotiated _ _ _ _ _ _ _ hseal _ hout =>
    obtain ⟨-, -, -, rfl⟩ := sealMessage_ok hseal
    have hopened : c₁.secure.opened = c.secure.opened := hout.frame.opened
    refine h.of_opened ?_
    cases hp : negotiated.protocol <;> exact hopened
  | muxerInboundFail c₁ _ _ _ _ _ _ hseal hout =>
    obtain ⟨-, -, -, rfl⟩ := sealMessage_ok hseal
    have hopened : c₁.secure.opened = c.secure.opened := hout.frame.opened
    exact h.of_opened hopened
  | muxerInboundLost _ _ _ _ _ hseal =>
    obtain ⟨-, -, -, rfl⟩ := sealMessage_ok hseal
    exact h.of_opened rfl
  | _ => exact h.of_opened rfl

theorem Decrypted.begin {c c' : Core} (h : Decrypted S c) (hbegin : Begin c c') : Decrypted S c' := by
  cases hbegin <;> exact h.of_opened rfl

/-- The records of a session that began its upgrade. -/
theorem decrypted_of_run {id : ConnectionId} {fd : ℤ} {addr : Multiaddr} {role : Bool}
    {identity : Option Identity} {streamMuxers : List ProtocolId} {random : ℕ → Entropy}
    {begins : Action} {s : BasicConnectionSession}
    (hrun : Runs S NoRestart (step S (make id fd addr role identity streamMuxers random) begins) s) :
    Decrypted S s.core := by
  have hmake : Decrypted S (make id fd addr role identity streamMuxers random).core := by
    intro r hr
    cases hr
  have hfirst : Runs S (fun _ _ => True) (make id fd addr role identity streamMuxers random)
      (step S (make id fd addr role identity streamMuxers random) begins) :=
    .step .refl begins trivial
  have hbegun := hfirst.core_invariant (P := Decrypted S)
    (fun _ _ h hmove => h.move hmove) (fun _ _ h hbegin => h.begin hbegin) hmake
  exact hrun.noRestart_invariant (P := Decrypted S) (fun _ _ h hmove => h.move hmove) hbegun

/-! ## Message by message -/

/-- The messages given to `encrypt`. -/
def SecureChannelState.said (secure : SecureChannelState) : List Bytes :=
  secure.sealed.map (·.plaintext)

/-- The messages that `decrypt` returned. -/
def SecureChannelState.heard (secure : SecureChannelState) : List Bytes :=
  secure.opened.filterMap (·.plaintext)

theorem framed_getElem? {secure : SecureChannelState} {i : ℕ}
    (hfits : ∀ r ∈ secure.sealed.take (i + 1), r.ciphertext.length ≤ 65535) :
    secure.framed[i]? = secure.sealed[i]?.map (·.ciphertext) ∨ secure.sealed.length ≤ i := by
  by_cases hlen : secure.sealed.length ≤ i
  · exact .inr hlen
  · refine .inl ?_
    have hhead : ((secure.sealed.take (i + 1)).map (·.ciphertext)).filter (·.length ≤ 65535) =
        (secure.sealed.take (i + 1)).map (·.ciphertext) := by
      refine List.filter_eq_self.mpr fun m hm => ?_
      obtain ⟨r, hr, rfl⟩ := List.mem_map.mp hm
      exact decide_eq_true (hfits r hr)
    have hsplit : secure.framed = (secure.sealed.take (i + 1)).map (·.ciphertext) ++
        ((secure.sealed.drop (i + 1)).map (·.ciphertext)).filter (·.length ≤ 65535) := by
      rw [SecureChannelState.framed]
      conv_lhs => rw [← List.take_append_drop (i + 1) secure.sealed]
      rw [List.map_append, List.filter_append, hhead]
    rw [hsplit, List.getElem?_append_left (by rw [List.length_map, List.length_take]; omega),
      List.getElem?_map, List.getElem?_take_of_lt (Nat.lt_succ_self i)]

section Heard

variable {u v : Upgrade} {noiseA noiseB : NoiseSession} {a b : Core}

/-- While what was encrypted so far fits frames, each frame decrypts to its message. -/
theorem Heard.opens (hS : S.Correct) (h : Heard S u v noiseA noiseB a b) (hdone : Decrypted S b)
    {i : ℕ} (hfits : ∀ r ∈ a.secure.sealed.take (i + 1), r.ciphertext.length ≤ 65535)
    {r : OpenRecord} (hr : b.secure.opened[i]? = some r) :
    ∃ sent, a.secure.sealed[i]? = some sent ∧ r.plaintext = some sent.plaintext := by
  obtain ⟨rest, hrest⟩ := h.taken
  have hframe : a.secure.framed[i]? = some r.ciphertext := by
    have htaken : b.secure.taken[i]? = some r.ciphertext := by
      rw [SecureChannelState.taken, List.getElem?_map, hr]
      rfl
    rw [← hrest, List.getElem?_append_left (List.getElem?_eq_some_iff.mp htaken).1, htaken]
  -- the frame is the one that `a` encrypted at this position
  obtain ⟨sent, hsent, hsame⟩ : ∃ sent, a.secure.sealed[i]? = some sent ∧
      sent.ciphertext = r.ciphertext := by
    rcases framed_getElem? hfits with heq | hlen
    · rw [heq, Option.map_eq_some_iff] at hframe
      exact hframe
    · have hshort : a.secure.framed.length ≤ a.secure.sealed.length := by
        refine (List.length_filter_le _ _).trans ?_
        rw [List.length_map]
      have hlong := (List.getElem?_eq_some_iff.mp hframe).1
      omega
  refine ⟨sent, hsent, ?_⟩
  have hmem := List.mem_of_getElem? hsent
  have hmemR := List.mem_of_getElem? hr
  have hkey : sent.key = r.key := by
    rw [h.sender.keyed.sealedKey sent hmem, h.receiver.keyed.openedKey r hmemR, h.key]
  have hnonce : sent.nonce = r.nonce := by
    have hfirst : sent.nonce.toNat = i := h.sender.keyed.sealedNonce i sent hsent
    have hsecond : r.nonce.toNat = i := h.receiver.keyed.openedNonce i r hr
    exact UInt64.toNat_inj.mp (hfirst.trans hsecond.symm)
  have hmade := h.sender.made sent hmem
  obtain ⟨c, hencrypt, -, hdecrypt⟩ := Noise.encryptWithKey_ok hS sent.key sent.nonce sent.plaintext []
  rw [hmade.2, Except.ok.injEq] at hencrypt
  rw [← hencrypt, hsame, hkey, hnonce] at hdecrypt
  cases hplain : r.plaintext with
  | none =>
    obtain ⟨error, cs, hfails⟩ := h.receiver.tried r hmemR hplain
    have hopens := hmade.decrypts hS
    rw [hsame, hkey, hnonce, hfails] at hopens
    cases hopens
  | some p =>
    obtain ⟨-, -, hp, -⟩ := Noise.decrypt_ok (hdone r hmemR p hplain)
    rw [hdecrypt, Except.ok.injEq] at hp
    rw [hp]

/-- What is heard first is what is said first. -/
theorem Heard.first (hS : S.Correct) (h : Heard S u v noiseA noiseB a b) (hdone : Decrypted S b)
    {data : Bytes} (hbegins : a.secure.Begins data) (hsome : b.secure.plain ≠ []) :
    ∃ more, b.secure.plain = data ++ more := by
  obtain ⟨sent, rest, hsealed, hdata, hlen⟩ := hbegins
  unfold SecureChannelState.plain at hsome ⊢
  cases hopened : b.secure.opened with
  | nil =>
    rw [hopened] at hsome
    exact absurd rfl hsome
  | cons r others =>
    have hfits : ∀ r ∈ a.secure.sealed.take 1, r.ciphertext.length ≤ 65535 := by
      rw [hsealed]
      intro r hr
      rw [List.mem_singleton.mp hr]
      exact hlen
    obtain ⟨sent', hsent', hplain⟩ := h.opens hS hdone (i := 0) hfits (r := r) (by rw [hopened]; rfl)
    rw [hsealed, List.getElem?_cons_zero, Option.some.injEq] at hsent'
    rw [← hsent', hdata] at hplain
    exact ⟨_, by rw [List.filterMap_cons_some hplain, List.flatten_cons]⟩

/-- What is heard is what was said, as far as it has arrived. -/
theorem Heard.in_order (hS : S.Correct) (h : Heard S u v noiseA noiseB a b) (hdone : Decrypted S b)
    (hfits : FitsFrames a.secure) :
    b.secure.heard = a.secure.said.take b.secure.opened.length ∧
      b.secure.opened.length ≤ a.secure.sealed.length := by
  have hframes : ∀ r ∈ a.secure.sealed, r.ciphertext.length ≤ 65535 := by
    intro r hr
    have hlen := (h.sender.made r hr).length hS
    have hshort := hfits r hr
    omega
  have hopens : ∀ (i : ℕ) (r : OpenRecord), b.secure.opened[i]? = some r →
      ∃ sent : SealRecord, a.secure.sealed[i]? = some sent ∧ r.plaintext = some sent.plaintext := fun i r hr =>
    h.opens hS hdone (fun r hr => hframes r (List.mem_of_mem_take hr)) hr
  have hlength : b.secure.opened.length ≤ a.secure.sealed.length := by
    by_contra hlong
    obtain ⟨sent, hsent, -⟩ := hopens _ _ (List.getElem?_eq_getElem (not_le.mp hlong))
    exact absurd (List.getElem?_eq_some_iff.mp hsent).1 (lt_irrefl _)
  refine ⟨?_, hlength⟩
  have hall : b.secure.opened.map (·.plaintext) =
      (a.secure.said.take b.secure.opened.length).map some := by
    refine List.ext_getElem? fun i => ?_
    rw [List.getElem?_map, List.getElem?_map, List.getElem?_take, SecureChannelState.said,
      List.getElem?_map]
    cases hr : b.secure.opened[i]? with
    | none =>
      have hge := List.getElem?_eq_none_iff.mp hr
      rw [if_neg (not_lt.mpr hge)]
      rfl
    | some r =>
      obtain ⟨sent, hsent, hplain⟩ := hopens i r hr
      rw [if_pos (List.getElem?_eq_some_iff.mp hr).1, hsent]
      exact congrArg some hplain
  have hheard : b.secure.heard = (b.secure.opened.map (·.plaintext)).filterMap id := by
    rw [List.filterMap_map]
    rfl
  rw [hheard, hall, List.filterMap_map]
  exact List.filterMap_some

end Heard

/-! ## What is in transit -/

/-- Records made one after the other decrypt one after the other. -/
theorem openAll_made (hS : S.Correct) {key : Bytes32} {records : List SealRecord} :
    ∀ {nonce : UInt64}, (∀ r ∈ records, r.Made S ∧ r.key = key) →
      (∀ i r, records[i]? = some r → r.nonce.toNat = nonce.toNat + i) →
      (openAll S ⟨key, nonce, true⟩ (records.map (·.ciphertext))).1 = records.map (·.plaintext) := by
  induction records with
  | nil => exact fun _ _ => rfl
  | cons r records ih =>
    intro nonce hmade hnonce
    obtain ⟨hr, hkey⟩ := hmade r List.mem_cons_self
    have hfirst : r.nonce = nonce := UInt64.toNat_inj.mp (hnonce 0 r rfl)
    obtain ⟨result, hresult⟩ : ∃ result, Noise.decrypt S r.ciphertext ⟨key, nonce, true⟩ = result :=
      ⟨_, rfl⟩
    have hopens := hr.decrypts hS
    rw [hkey, hfirst, hresult] at hopens
    obtain ⟨outcome, cs⟩ := result
    obtain rfl : outcome = .ok r.plaintext := hopens
    obtain ⟨-, hlast, -, rfl⟩ := Noise.decrypt_ok hresult
    have hnext : (nonce + 1).toNat = nonce.toNat + 1 := toNat_succ hlast
    rw [List.map_cons, List.map_cons, openAll, hresult]
    refine congrArg (_ :: ·) (ih (fun r' hr' => hmade r' (List.mem_cons_of_mem _ hr')) fun i r' hr' => ?_)
    rw [hnonce (i + 1) r' hr', hnext]
    omega

/-- What `b` will decrypt of the frames in transit is what `a` said and `b` has not heard. -/
theorem Heard.still_to_come (hS : S.Correct) {u v : Upgrade} {noiseA noiseB : NoiseSession}
    {a b : Core} (h : Heard S u v noiseA noiseB a b) (hdone : Decrypted S b)
    (hfits : FitsFrames a.secure) (hflows : Flows a.io) (hopenA : a.io.socketOpen = true)
    (hactive : b.Active) (hwire : b.io.socket.received <+: a.io.socket.sent) :
    a.secure.said = b.secure.heard ++
      (openAll S b.secure.noise.csRecv (readAll popWire (inTransit a.io b.io)).1).1 := by
  obtain ⟨hheard, hlength⟩ := h.in_order hS hdone hfits
  have hframes := h.in_transit hflows ⟨hflows.kept hopenA, h.receiver.log.kept hactive.1⟩ hwire
  rw [hfits.framed hS h.sender.made] at hframes
  have htaken : b.secure.taken.length = b.secure.opened.length := List.length_map _
  have hrest : (readAll popWire (inTransit a.io b.io)).1 =
      (a.secure.sealed.drop b.secure.opened.length).map (·.ciphertext) := by
    have hdrop := congrArg (List.drop b.secure.taken.length) hframes
    rw [List.drop_left, htaken] at hdrop
    rw [hdrop, List.map_drop]
  have hnonce : b.secure.noise.csRecv.nonce.toNat = b.secure.opened.length :=
    (h.receiver.keyed.recvNonce hactive.2.1).1
  have hstate : b.secure.noise.csRecv =
      ⟨noiseB.csRecv.key, b.secure.noise.csRecv.nonce, true⟩ := by
    rw [← h.receiver.keyed.recvKey, ← h.receiver.recvKey]
  rw [hrest, hstate, openAll_made hS, hheard, SecureChannelState.said, List.map_drop,
    List.take_append_drop]
  · intro r hr
    have hmem := List.mem_of_mem_drop hr
    exact ⟨h.sender.made r hmem, (h.sender.keyed.sealedKey r hmem).trans h.key⟩
  · intro i r hr
    rw [List.getElem?_drop] at hr
    rw [hnonce]
    exact h.sender.keyed.sealedNonce _ r hr

section Runs

variable {idI idR : ConnectionId} {fdI fdR : ℤ} {addrI addrR : Multiaddr}
  {identityI identityR : Option Identity} {streamMuxersI streamMuxersR : List ProtocolId}
  {randomI randomR : ℕ → Entropy} {a b : BasicConnectionSession}

/-- One direction of the channel between two sessions: what `b` decrypted is the
    beginning of what `a` encrypted, and while both are open the rest is in transit. -/
def InOrder (S : Noise.Sodium) (a b : BasicConnectionSession) : Prop :=
  b.secure.heard <+: a.secure.said ∧
    (a.isActive = true → b.isActive = true → a.secure.said = b.secure.heard ++
      (openAll S b.secure.noise.csRecv (readAll popWire (inTransit a.io b.io)).1).1)

theorem Heard.inOrder (hS : S.Correct) {u v : Upgrade} {noiseA noiseB : NoiseSession}
    (h : Heard S u v noiseA noiseB a.core b.core) (hdone : Decrypted S b.core) (hflows : Flows a.io)
    (hwire : b.io.socket.received <+: a.io.socket.sent) (hfits : FitsFrames a.secure) :
    InOrder S a b := by
  refine ⟨?_, fun hactiveA hactiveB => ?_⟩
  · have hheard : b.secure.heard = a.secure.said.take b.secure.opened.length :=
      (h.in_order hS hdone hfits).1
    rw [hheard]
    exact List.take_prefix _ _
  · rw [isActive_iff] at hactiveA hactiveB
    exact h.still_to_come hS hdone hfits hflows hactiveA.1 hactiveB hwire

/-- Two sessions that completed the handshake with each other, after any runs of both in which
    no upgrade call is repeated, and with any part of the bytes of each received by the other:
    in a direction whose messages all fit a frame, the secure channel is a queue. What one side
    decrypted is what the other encrypted, in order and without a gap; and while both are open,
    decrypting the frames in transit, those in the send buffer, in flight and in the receive
    buffer, gives exactly the messages that are missing. -/
theorem channel_in_order (hS : S.Correct) (hI : Honest S (configuration identityI streamMuxersI))
    (hR : Honest S (configuration identityR streamMuxersR))
    (hrunI : Runs S NoRestart
      (step S (make idI fdI addrI true identityI streamMuxersI randomI) .beginOutbound) a)
    (hrunR : Runs S NoRestart
      (step S (make idR fdR addrR false identityR streamMuxersR randomR) .beginInbound) b)
    (ha : a.Upgraded) (hb : b.Upgraded)
    (hab : b.io.socket.received <+: a.io.socket.sent)
    (hba : a.io.socket.received <+: b.io.socket.sent) :
    (FitsFrames a.secure → InOrder S a b) ∧ (FitsFrames b.secure → InOrder S b a) := by
  obtain ⟨u, v, noiseI, noiseR, hforth, hback⟩ := met_of_runs hS hI hR hrunI hrunR ha hb hab hba
  exact ⟨hforth.inOrder hS (decrypted_of_run hrunR) (flows_of_run hrunI) hab,
    hback.inOrder hS (decrypted_of_run hrunI) (flows_of_run hrunR) hba⟩

end Runs

/-- One message is on its way, and nothing has arrived. -/
theorem channel_in_order_toy :
    let a := step Noise.Sodium.toy toyTalks (.tryWrite (.direct 0) [1, 2, 3])
    a.secure.said = [[1, 2, 3]] ∧ toyListens.secure.heard = [] ∧
      InOrder Noise.Sodium.toy a toyListens := by
  intro a
  have hfits : FitsFrames a.secure := by unfold FitsFrames; decide +kernel
  obtain ⟨hforth, -⟩ := channel_in_order Noise.toy_correct toyHonest toyHonest
    (toyMet_runs.1.step (.tryWrite (.direct 0) [1, 2, 3]) nofun) toyMet_runs.2 (.inr (by decide +kernel))
    (.inr (by decide +kernel)) (by decide +kernel) (by decide +kernel)
  exact ⟨by decide +kernel, by decide +kernel, hforth hfits⟩

end PeerCore.Connection
