import PeerCore.Connection.Channel

/-!
# Two sessions settle on a muxer

An initiator with the muxers `L₁` and a responder with `L₂` each choose a branch from
what the handshake told them. In the exchange the initiator proposes the first of `L₁`
only, and both read it without a trailing newline.

* `responderAdopts`, `initiatorAdopts`: what the exchange ends with.
* `muxers_settle`: what two ready sessions that took the same branch have recorded, and
  that Yamux is active on both or on neither.
-/

namespace PeerCore.Connection

open BasicConnectionSession
open MultistreamSelect (wireToken Fits encodeMessage header)
open Noise (Entropy NoiseSession Honest initiatorDone responderDone)

variable {S : Noise.Sodium}

/-! ## The outcome -/

/-- What a peer tells of its muxers in the handshake. -/
def told (identity : Option Identity) (muxers : List ProtocolId) : List ProtocolId :=
  if identity.isSome then muxers else []

/-- What a responder with the muxers `supported` adopts when `proposal` is proposed. -/
def responderAdopts (proposal : ProtocolId) (supported : List ProtocolId) : Option ProtocolId :=
  if supported.contains (wireToken proposal) then some (wireToken proposal) else none

/-- What the initiator adopts, if the answer is not one it does not expect. -/
def initiatorAdopts (proposal : ProtocolId) (supported : List ProtocolId) : Option ProtocolId :=
  if supported.contains (wireToken proposal)
    then if wireToken (wireToken proposal) = proposal then some proposal else none
    else if proposal = ascii "na" then some proposal else none

/-- The two sides adopt the same, unless the proposal loses a newline or is `na`. -/
theorem adopts_eq {proposal : ProtocolId} {supported : List ProtocolId}
    (hline : proposal.getLast? ≠ some 10) (hna : proposal ≠ ascii "na") :
    initiatorAdopts proposal supported = responderAdopts proposal supported := by
  have htoken : wireToken proposal = proposal := if_neg hline
  unfold initiatorAdopts responderAdopts
  rw [htoken, htoken, if_pos rfl, if_neg hna]

/-- The muxer a session records: Yamux at once, or what the exchange adopts with what it
    would have chosen itself behind that. -/
def recorded (branch : Branch) (adopted chosen : Option ProtocolId) : Option ProtocolId :=
  match branch with
  | .yamux => some yamuxProtocol
  | .exchange => adopted.or chosen
  | .single => none

/-! ## The exchange -/

theorem encodeMessage_length (msg : Bytes) :
    (MultistreamSelect.ensureNewline msg).length ≤ (encodeMessage msg).length := by
  rw [encodeMessage, List.length_append]
  omega

theorem exchange_span {msg : Bytes} (hfits : Fits msg) :
    MultistreamSelect.exchangeSpan (encodeMessage header ++ encodeMessage msg) =
      .ok (encodeMessage header ++ encodeMessage msg).length := by
  have hspan := MultistreamSelect.exchangeSpan_exchange MultistreamSelect.header_fits hfits []
  rwa [List.append_nil] at hspan

section Heard

variable {u v : Upgrade} {noiseA noiseB : NoiseSession} {a b : Core}

/-- A first message that is a whole exchange is what the other side reads as one. -/
theorem Heard.exchange (hS : S.Correct) (h : Heard S u v noiseA noiseB a b) (hdone : Decrypted S b)
    {data exchange : Bytes} (hbegins : a.secure.Begins data)
    (hdata : MultistreamSelect.exchangeSpan data = .ok data.length)
    (hspan : MultistreamSelect.exchangeSpan exchange = .ok exchange.length)
    (hheard : exchange <+: b.secure.plain) : exchange = data := by
  have hsome : b.secure.plain ≠ [] := by
    intro hnil
    rw [hnil, List.prefix_nil] at hheard
    rw [hheard] at hspan
    cases hspan
  obtain ⟨more, hmore⟩ := h.first hS hdone hbegins hsome
  obtain ⟨rest, hrest⟩ := hheard
  rw [hmore] at hrest
  exact (exchange_unique hspan hdata hrest).1

/-- What is encrypted first has less than `2 ^ 64` bytes. -/
theorem Heard.begins_length (hS : S.Correct) (h : Heard S u v noiseA noiseB a b) {data : Bytes}
    (hbegins : a.secure.Begins data) : data.length < 2 ^ 64 := by
  obtain ⟨r, rest, hsealed, rfl, hlen⟩ := hbegins
  have hmade := (h.sender.made r (by rw [hsealed]; exact List.mem_cons_self)).length hS
  omega

/-- What an initiator says first is a whole exchange with the first of its muxers. -/
theorem Heard.proposal (hS : S.Correct) (h : Heard S u v noiseA noiseB a b) {said : Bytes}
    {muxers : List ProtocolId} (hprepare : MultistreamSelect.prepareOutbound muxers = .ok said)
    (hsaid : a.secure.Begins said) :
    said = encodeMessage header ++ encodeMessage (muxers.headD []) ∧ Fits (muxers.headD []) := by
  obtain rfl : encodeMessage header ++ encodeMessage (muxers.headD []) = said := by
    unfold MultistreamSelect.prepareOutbound at hprepare
    cases muxers with
    | nil => cases hprepare
    | cons p rest => exact Except.ok.inj hprepare
  refine ⟨rfl, ?_⟩
  have hlen := h.begins_length hS hsaid
  rw [List.length_append] at hlen
  have := encodeMessage_length (muxers.headD [])
  unfold Fits
  omega

end Heard

/-- Both sides of an exchange that ended. -/
theorem exchange_settles (hS : S.Correct) {u v : Upgrade} {noiseI noiseR : NoiseSession} {a b : Core}
    (hforth : Heard S u v noiseI noiseR a b) (hback : Heard S v u noiseR noiseI b a)
    (hdoneA : Decrypted S a) (hdoneB : Decrypted S b)
    {exchangeI exchangeR : Bytes} {resultI resultR : Option ProtocolId}
    (hspanI : MultistreamSelect.exchangeSpan exchangeI = .ok exchangeI.length)
    (hheardI : exchangeI <+: a.secure.plain)
    (hdecidedI : Decided noiseI exchangeI resultI a.secure true)
    (hspanR : MultistreamSelect.exchangeSpan exchangeR = .ok exchangeR.length)
    (hheardR : exchangeR <+: b.secure.plain)
    (hdecidedR : Decided noiseR exchangeR resultR b.secure false) :
    let proposal := noiseI.localExtensions.streamMuxers.headD []
    let supported := noiseR.localExtensions.streamMuxers
    resultI = initiatorAdopts proposal supported ∧ resultR = responderAdopts proposal supported ∧
      (wireToken proposal ∈ supported → wireToken (wireToken proposal) = proposal ∨
        wireToken (wireToken proposal) = ascii "na") := by
  intro proposal supported
  obtain ⟨said, hprepare, hsaid, hadopt⟩ := hdecidedI
  obtain ⟨negotiated, hnegotiate, hreplied, rfl⟩ : ∃ negotiated,
      MultistreamSelect.negotiateInbound exchangeR supported = .ok negotiated ∧
        b.secure.Begins negotiated.outbound ∧ negotiated.protocol = resultR := by
    cases hdecidedR with
    | responder negotiated hnegotiate hreplied hresult =>
      exact ⟨negotiated, hnegotiate, hreplied, hresult⟩
  -- the responder reads the proposal
  obtain ⟨rfl, hfits⟩ : said = encodeMessage header ++ encodeMessage proposal ∧ Fits proposal :=
    hforth.proposal hS hprepare hsaid
  have hproposed := hforth.exchange hS hdoneB hsaid (exchange_span hfits) hspanR hheardR
  rw [hproposed, MultistreamSelect.negotiateInbound_proposal hfits] at hnegotiate
  -- and the initiator the answer
  have hread : ∀ reply, Fits reply → negotiated.outbound = encodeMessage header ++ encodeMessage reply →
      exchangeI = encodeMessage header ++ encodeMessage reply := by
    intro reply hreply hout
    rw [hout] at hreplied
    exact hback.exchange hS hdoneA hreplied (exchange_span hreply) hspanI hheardI
  have hadopted : ∀ reply, Fits reply → exchangeI = encodeMessage header ++ encodeMessage reply →
      resultI = (if wireToken reply = proposal then some proposal else none) ∧
        (wireToken reply = proposal ∨ wireToken reply = ascii "na") := by
    intro reply hreply hexchange
    have hanswer := MultistreamSelect.readOutboundResponse_reply hreply proposal
    rw [← hexchange] at hanswer
    cases resultI with
    | some muxer =>
      have hok : MultistreamSelect.readOutboundResponse exchangeI proposal = .ok muxer := hadopt
      rw [hanswer] at hok
      split_ifs at hok with hsame hna
      · exact ⟨by rw [if_pos hsame, Except.ok.inj hok], .inl hsame⟩
    | none =>
      have herror : MultistreamSelect.readOutboundResponse exchangeI proposal =
          .error "protocol not supported" := hadopt
      rw [hanswer] at herror
      split_ifs at herror with hsame hna
      · exact ⟨(if_neg hsame).symm, .inr hna⟩
      · simp at herror
  simp only [initiatorAdopts, responderAdopts, List.contains_iff_mem]
  by_cases hmem : wireToken proposal ∈ supported
  · rw [if_pos hmem, Except.ok.injEq] at hnegotiate
    subst hnegotiate
    have htoken := MultistreamSelect.wireToken_fits hfits
    obtain ⟨hresult, hexpected⟩ := hadopted _ htoken (hread _ htoken rfl)
    rw [if_pos hmem, if_pos hmem]
    exact ⟨hresult, rfl, fun _ => hexpected⟩
  · rw [if_neg hmem, Except.ok.injEq] at hnegotiate
    subst hnegotiate
    obtain ⟨hresult, -⟩ := hadopted _ MultistreamSelect.na_fits
      (hread _ MultistreamSelect.na_fits rfl)
    rw [MultistreamSelect.wireToken_na] at hresult
    rw [if_neg hmem, if_neg hmem]
    refine ⟨?_, rfl, fun h => absurd h hmem⟩
    rw [hresult]
    by_cases hna : proposal = ascii "na"
    · rw [if_pos hna, if_pos hna.symm]
    · rw [if_neg hna, if_neg (Ne.symm hna)]

/-- An exchange ends with Yamux for both sides or for neither. -/
theorem yamux_adopted_iff {proposal : ProtocolId} {supported : List ProtocolId}
    (hexpected : wireToken proposal ∈ supported → wireToken (wireToken proposal) = proposal ∨
      wireToken (wireToken proposal) = ascii "na") :
    initiatorAdopts proposal supported = some yamuxProtocol ↔
      responderAdopts proposal supported = some yamuxProtocol := by
  have htoken : wireToken yamuxProtocol = yamuxProtocol := by decide
  have hna : yamuxProtocol ≠ ascii "na" := by decide
  simp only [initiatorAdopts, responderAdopts, List.contains_iff_mem]
  by_cases hmem : wireToken proposal ∈ supported
  · rw [if_pos hmem, if_pos hmem]
    constructor
    · intro h
      split_ifs at h with hsame
      · rw [Option.some.injEq] at h
        rw [h, htoken]
    · intro h
      rw [Option.some.injEq] at h
      rcases hexpected hmem with hsame | hsame
      · rw [if_pos hsame, ← hsame, h, htoken]
      · rw [h, htoken] at hsame
        exact absurd hsame hna
  · rw [if_neg hmem, if_neg hmem]
    refine iff_of_false (fun h => ?_) nofun
    split_ifs at h with hp
    · rw [Option.some.injEq] at h
      exact hna (h.symm.trans hp)

/-! ## Two sessions -/

/-- What a ready session has recorded of its muxers. -/
theorem Settling.recorded {noise : NoiseSession} {c : Core} (h : Settling noise c)
    (hready : c.secure.stage = .ready) :
    (branchOf noise ≠ .exchange ∧ c.hasYamux = decide (branchOf noise = .yamux) ∧
      c.secure.negotiatedStreamMuxer = Connection.recorded (branchOf noise) none none) ∨
    ∃ exchange result, branchOf noise = .exchange ∧
      MultistreamSelect.exchangeSpan exchange = .ok exchange.length ∧ exchange <+: c.secure.plain ∧
      Decided noise exchange result c.secure c.isInitiator ∧
      c.hasYamux = decide (result = some yamuxProtocol) ∧
      c.secure.negotiatedStreamMuxer =
        Connection.recorded (branchOf noise) result (selectStreamMuxer noise) := by
  cases h with
  | stopped _ hs => rw [hready] at hs; cases hs
  | yamux hbranch _ hyamux hmuxer =>
    rw [hbranch]
    exact .inl ⟨nofun, hyamux, hmuxer⟩
  | single hbranch _ hyamux hmuxer =>
    rw [hbranch]
    exact .inl ⟨nofun, hyamux, hmuxer⟩
  | exchanging _ hs => rw [hready] at hs; cases hs
  | agreed exchange result hbranch _ hspan hheard hdecided hyamux hmuxer =>
    refine .inr ⟨exchange, result, hbranch, hspan, hheard, hdecided, hyamux, ?_⟩
    rw [hbranch]
    exact hmuxer

section Runs

variable {idI idR : ConnectionId} {fdI fdR : ℤ} {addrI addrR : Multiaddr}
  {identityI identityR : Option Identity} {streamMuxersI streamMuxersR : List ProtocolId}
  {randomI randomR : ℕ → Entropy} {a b : BasicConnectionSession}

theorem told_eq (identity : Option Identity) (muxers : List ProtocolId) :
    (if identity.isSome then (⟨muxers⟩ : Noise.NoiseExtensions) else {}).streamMuxers =
      told identity muxers := by
  unfold told
  split_ifs <;> rfl

/-- The lists that decide the branches of two sessions that had a handshake with each other. -/
theorem lists_told {t : Noise.Transcript} {noiseI noiseR : NoiseSession}
    (hnoiseI : noiseI = initiatorDone S t (configuration identityI streamMuxersI)
      (configuration identityR streamMuxersR))
    (hnoiseR : noiseR = responderDone S t (configuration identityI streamMuxersI)
      (configuration identityR streamMuxersR)) :
    (noiseI.localExtensions.streamMuxers = streamMuxersI ∧
        noiseI.remoteExtensions.streamMuxers = told identityR streamMuxersR) ∧
      noiseR.localExtensions.streamMuxers = streamMuxersR ∧
        noiseR.remoteExtensions.streamMuxers = told identityI streamMuxersI := by
  rw [hnoiseI, hnoiseR]
  exact ⟨⟨rfl, told_eq identityR streamMuxersR⟩, rfl, told_eq identityI streamMuxersI⟩

theorem branches_told {t : Noise.Transcript} {noiseI noiseR : NoiseSession}
    (hnoiseI : noiseI = initiatorDone S t (configuration identityI streamMuxersI)
      (configuration identityR streamMuxersR))
    (hnoiseR : noiseR = responderDone S t (configuration identityI streamMuxersI)
      (configuration identityR streamMuxersR)) :
    branchOf noiseI = branch streamMuxersI (told identityR streamMuxersR) ∧
      branchOf noiseR = branch streamMuxersR (told identityI streamMuxersI) := by
  obtain ⟨⟨hlocalI, hremoteI⟩, hlocalR, hremoteR⟩ := lists_told hnoiseI hnoiseR
  rw [branchOf, branchOf, hlocalI, hremoteI, hlocalR, hremoteR]
  exact ⟨rfl, rfl⟩

/-- Two sessions that completed the handshake with each other, after any runs of both in which
    no upgrade call is repeated, and with any part of the bytes of each received by the other.
    When both are past the muxer exchange and their lists sent them to the same branch, Yamux
    is active on both or on neither, and each has recorded exactly the muxer that the two lists
    give it. -/
theorem muxers_settle (hS : S.Correct) (hI : Honest S (configuration identityI streamMuxersI))
    (hR : Honest S (configuration identityR streamMuxersR))
    (hrunI : Runs S NoRestart
      (step S (make idI fdI addrI true identityI streamMuxersI randomI) .beginOutbound) a)
    (hrunR : Runs S NoRestart
      (step S (make idR fdR addrR false identityR streamMuxersR randomR) .beginInbound) b)
    (ha : a.secure.stage = .ready) (hb : b.secure.stage = .ready)
    (hab : b.io.socket.received <+: a.io.socket.sent)
    (hba : a.io.socket.received <+: b.io.socket.sent)
    (hsame : branch streamMuxersI (told identityR streamMuxersR) =
      branch streamMuxersR (told identityI streamMuxersI)) :
    a.yamuxSession.isSome = b.yamuxSession.isSome ∧
      a.secure.negotiatedStreamMuxer =
        recorded (branch streamMuxersI (told identityR streamMuxersR))
          (initiatorAdopts (streamMuxersI.headD []) streamMuxersR)
          (streamMuxersI.find? (· ∈ told identityR streamMuxersR)) ∧
      b.secure.negotiatedStreamMuxer =
        recorded (branch streamMuxersR (told identityI streamMuxersI))
          (responderAdopts (streamMuxersI.headD []) streamMuxersR)
          (streamMuxersR.find? (· ∈ told identityI streamMuxersI)) := by
  obtain ⟨u, noiseI, hdialed, hsettledI⟩ := initiator_settled hrunI (.inr ha)
  obtain ⟨v, noiseR, hanswered, hsettledR⟩ := responder_settled hrunR (.inr hb)
  obtain ⟨hnoiseI, hnoiseR, hforth, hback⟩ := upgrades_agree hS hI hR hdialed hanswered
    hsettledI.established hsettledR.established (hab.trans (flows_of_run hrunI).ordered)
    (hba.trans (flows_of_run hrunR).ordered)
  obtain ⟨⟨hlocalI, hremoteI⟩, hlocalR, hremoteR⟩ := lists_told hnoiseI hnoiseR
  obtain ⟨hbranchI, hbranchR⟩ := branches_told hnoiseI hnoiseR
  rw [← hbranchI, ← hbranchR] at hsame ⊢
  rw [← hremoteI, ← hremoteR, ← hlocalI, ← hlocalR, ← selectStreamMuxer_eq, ← selectStreamMuxer_eq]
  have hrecorded : ∀ adopted chosen, branchOf noiseI ≠ .exchange →
      recorded (branchOf noiseI) none none = recorded (branchOf noiseI) adopted chosen := by
    intro adopted chosen hne
    cases hbranch : branchOf noiseI with
    | exchange => exact absurd hbranch hne
    | _ => rfl
  show a.core.hasYamux = b.core.hasYamux ∧ a.core.secure.negotiatedStreamMuxer = _ ∧
    b.core.secure.negotiatedStreamMuxer = _
  rcases hsettledI.settling.recorded ha with ⟨hne, hyamuxI, hmuxerI⟩ |
    ⟨exchangeI, resultI, hexchange, hspanI, hheardI, hdecidedI, hyamuxI, hmuxerI⟩ <;>
  rcases hsettledR.settling.recorded hb with ⟨hneR, hyamuxR, hmuxerR⟩ |
    ⟨exchangeR, resultR, hexchangeR, hspanR, hheardR, hdecidedR, hyamuxR, hmuxerR⟩
  · rw [hyamuxI, hyamuxR, hmuxerI, hmuxerR, ← hsame]
    exact ⟨rfl, hrecorded _ _ hne, hrecorded _ _ hne⟩
  · exact absurd (hsame.trans hexchangeR) hne
  · exact absurd (hsame.symm.trans hexchange) hneR
  · rw [hsettledI.role] at hdecidedI
    rw [hsettledR.role] at hdecidedR
    obtain ⟨rfl, rfl, hexpected⟩ := exchange_settles hS hforth hback (decrypted_of_run hrunI)
      (decrypted_of_run hrunR) hspanI hheardI hdecidedI hspanR hheardR hdecidedR
    have hyamux := yamux_adopted_iff hexpected
    exact ⟨by rw [hyamuxI, hyamuxR, decide_eq_decide]; exact hyamux, hmuxerI, hmuxerR⟩

/-- Where the first muxer is refused, each side keeps the choice that it made itself. -/
example :
    let i := [ascii "/a", ascii "/b", ascii "/c"]
    let r := [ascii "/c", ascii "/b"]
    recorded .exchange (initiatorAdopts (ascii "/a") r) (i.find? (· ∈ r)) = some (ascii "/b") ∧
      recorded .exchange (responderAdopts (ascii "/a") r) (r.find? (· ∈ i)) = some (ascii "/c") := by
  decide

end Runs

/-- Two sessions with the muxers `locals` and `remotes` that have taken `rounds` turns at
    reading. -/
def toyRounds (locals remotes : List ProtocolId) :
    ℕ → BasicConnectionSession × BasicConnectionSession
  | 0 =>
    (step Noise.Sodium.toy (step Noise.Sodium.toy
      (step Noise.Sodium.toy (toyOutbound ⟨[]⟩ locals) .beginOutbound) toySends) .writable,
    step Noise.Sodium.toy (step Noise.Sodium.toy (toyInbound remotes) .beginInbound) toySends)
  | rounds + 1 => toyExchange (toyRounds locals remotes rounds)

theorem toyRounds_runs (locals remotes : List ProtocolId) (rounds : ℕ) :
    Runs Noise.Sodium.toy NoRestart
        (step Noise.Sodium.toy (toyOutbound ⟨[]⟩ locals) .beginOutbound)
        (toyRounds locals remotes rounds).1 ∧
      Runs Noise.Sodium.toy NoRestart (step Noise.Sodium.toy (toyInbound remotes) .beginInbound)
        (toyRounds locals remotes rounds).2 := by
  induction rounds with
  | zero => exact ⟨.step (.step .refl toySends nofun) .writable nofun, .step .refl toySends nofun⟩
  | succ rounds ih => exact ⟨toyReads_runs ih.1, toyReads_runs ih.2⟩

theorem toyConfiguration_honest {streamMuxers : List ProtocolId}
    (hfits : (⟨streamMuxers⟩ : Noise.NoiseExtensions).Fits) :
    Honest Noise.Sodium.toy (configuration (some toyIdentity) streamMuxers) where
  ephemeral := nofun
  static := nofun
  identity := fun i hi => by cases hi; rfl
  extensions := hfits

/-- Both sides adopt `/x` in the exchange. -/
theorem muxers_settle_toy :
    let pair := toyRounds [ascii "/x"] [ascii "/y", ascii "/x"] 3
    pair.1.yamuxSession.isSome = pair.2.yamuxSession.isSome ∧
      pair.1.secure.negotiatedStreamMuxer = some (ascii "/x") ∧
      pair.2.secure.negotiatedStreamMuxer = some (ascii "/x") := by
  dsimp only
  obtain ⟨hrunI, hrunR⟩ := toyRounds_runs [ascii "/x"] [ascii "/y", ascii "/x"] 3
  obtain ⟨hyamux, hmuxerI, hmuxerR⟩ := muxers_settle Noise.toy_correct
    (toyConfiguration_honest (by decide)) (toyConfiguration_honest (by decide)) hrunI hrunR
    (by decide +kernel) (by decide +kernel) (by decide +kernel) (by decide +kernel) (by decide)
  have hrecorded : recorded (branch [ascii "/x"] (told (some toyIdentity) [ascii "/y", ascii "/x"]))
      (initiatorAdopts ([ascii "/x"].headD []) [ascii "/y", ascii "/x"])
      ([ascii "/x"].find? (· ∈ told (some toyIdentity) [ascii "/y", ascii "/x"])) =
        some (ascii "/x") := by decide
  rw [hrecorded] at hmuxerI
  refine ⟨hyamux, hmuxerI, ?_⟩
  rw [hmuxerR]
  decide

end PeerCore.Connection
