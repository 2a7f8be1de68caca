import PeerCore.Connection.InStep

/-!
# The muxer exchange on the wire

Past its handshake a session adopts Yamux at once, goes on without a muxer, or makes one
more multistream exchange under its transport keys. `Settling` says how far it is, with
what it encrypted first and what it read as the exchange; `Settled.move` that every move
keeps it.

* `branch`: where `finish_secure_upgrade` goes, and `Early.settles`.
* `initiator_settled`, `responder_settled`: a session past its handshake has followed
  the exchange.
-/

namespace PeerCore.Connection

open BasicConnectionSession
open Noise (Entropy NoiseSession)

variable {S : Noise.Sodium}

/-! ## The branch -/

/-- Where `finish_secure_upgrade` takes a session. -/
inductive Branch
  | yamux | exchange | single
  deriving DecidableEq

/-- The branch of a session with the muxers `locals` that was told `remotes`. -/
def branch (locals remotes : List ProtocolId) : Branch :=
  if locals.find? (remotes.contains ·) = some yamuxProtocol then .yamux
  else if locals ≠ [] then .exchange
  else .single

theorem selectStreamMuxer_eq (noise : NoiseSession) :
    selectStreamMuxer noise =
      noise.localExtensions.streamMuxers.find? (· ∈ noise.remoteExtensions.streamMuxers) := by
  unfold selectStreamMuxer
  split_ifs with h
  · rcases h with h | h
    · rw [h]
      rfl
    · rw [h]
      exact (List.find?_eq_none.mpr fun m _ => by simp).symm
  · rfl

/-- The branch of a session that came out of its handshake with `noise`. -/
def branchOf (noise : NoiseSession) : Branch :=
  branch noise.localExtensions.streamMuxers noise.remoteExtensions.streamMuxers

theorem branch_yamux {noise : NoiseSession} :
    branchOf noise = .yamux ↔ selectStreamMuxer noise = some yamuxProtocol := by
  simp only [selectStreamMuxer_eq, branchOf, branch, List.contains_eq_mem]
  split_ifs with h <;> simp [h]

theorem branch_single {noise : NoiseSession} :
    branchOf noise = .single ↔ noise.localExtensions.streamMuxers = [] := by
  rw [branchOf, branch]
  split_ifs with h hlocal
  · refine iff_of_false nofun fun hnil => ?_
    rw [hnil] at h
    cases h
  · exact iff_of_false nofun hlocal
  · simpa using hlocal

theorem branch_exchange {noise : NoiseSession} :
    branchOf noise = .exchange ↔
      selectStreamMuxer noise ≠ some yamuxProtocol ∧ noise.localExtensions.streamMuxers ≠ [] := by
  have hyamux : branchOf noise = .yamux ↔ _ := branch_yamux
  have hsingle : branchOf noise = .single ↔ _ := branch_single
  rw [ne_eq, ← hyamux, ne_eq, ← hsingle]
  cases branchOf noise <;> simp

/-! ## What is said first -/

namespace SecureChannelState

/-- What was decrypted, one message behind the other. -/
def plain (secure : SecureChannelState) : Bytes := (secure.opened.filterMap (·.plaintext)).flatten

/-- The first message encrypted under the transport keys is `data`, and it fits a frame. -/
def Begins (secure : SecureChannelState) (data : Bytes) : Prop :=
  ∃ r rest, secure.sealed = r :: rest ∧ r.plaintext = data ∧ r.ciphertext.length ≤ 65535

theorem Begins.mono {secure secure' : SecureChannelState} {data : Bytes} (h : secure.Begins data)
    (hmore : secure.sealed <+: secure'.sealed) : secure'.Begins data := by
  obtain ⟨r, rest, hsealed, hdata, hlen⟩ := h
  obtain ⟨more, hmore⟩ := hmore
  rw [hsealed, List.cons_append] at hmore
  exact ⟨r, rest ++ more, hmore.symm, hdata, hlen⟩

theorem plain_of_opened {secure secure' : SecureChannelState} {r : OpenRecord}
    (h : secure'.opened = secure.opened ++ [r]) :
    secure'.plain = secure.plain ++ r.plaintext.getD [] := by
  rw [plain, h, List.filterMap_append, List.flatten_append, ← plain]
  cases hr : r.plaintext <;> simp [hr]

end SecureChannelState

theorem begins_of_seal {secure secure' : SecureChannelState} {data ciphertext framed : Bytes}
    (hnone : secure.sealed = [])
    (hseal : sealMessage S data secure = (.ok ciphertext, secure'))
    (hframe : Noise.encodeFrame ciphertext = .ok framed) : secure'.Begins data := by
  obtain ⟨-, -, -, rfl⟩ := sealMessage_ok hseal
  refine ⟨⟨secure.noise.csSend.key, secure.noise.csSend.nonce, data, ciphertext⟩, [], ?_, rfl,
    (encodeFrame_ok hframe).1⟩
  show secure.sealed ++ _ = _
  rw [hnone]
  rfl

/-! ## How far a session is -/

/-- How the exchange ended: what the initiator proposed and made of the answer, or what
    the responder answered. -/
inductive Decided (noise : NoiseSession) (exchange : Bytes) (result : Option ProtocolId)
    (secure : SecureChannelState) : Bool → Prop
  | initiator (proposal : Bytes)
    (hprepare : MultistreamSelect.prepareOutbound noise.localExtensions.streamMuxers = .ok proposal)
    (hsaid : secure.Begins proposal)
    (hadopt : Adopted exchange noise.localExtensions.streamMuxers result) :
    Decided noise exchange result secure true
  | responder (negotiated : MultistreamSelect.InboundNegotiation)
    (hnegotiate : MultistreamSelect.negotiateInbound exchange
      noise.localExtensions.streamMuxers = .ok negotiated)
    (hsaid : secure.Begins negotiated.outbound) (hresult : negotiated.protocol = result) :
    Decided noise exchange result secure false

/-- What a session in the exchange has said. -/
inductive Proposed (noise : NoiseSession) (secure : SecureChannelState) : Bool → Prop
  | initiator (proposal : Bytes)
    (hprepare : MultistreamSelect.prepareOutbound noise.localExtensions.streamMuxers = .ok proposal)
    (hsaid : secure.Begins proposal) : Proposed noise secure true
  | responder (hnone : secure.sealed = []) : Proposed noise secure false

/-- A session past its handshake, which `noise` came out of. -/
inductive Settling (noise : NoiseSession) (c : Core) : Prop
  | stopped (hover : ¬ c.Active) (hstage : c.secure.stage = .muxerNegotiation)
  | yamux (hbranch : branchOf noise = .yamux) (hstage : c.secure.stage = .ready)
    (hyamux : c.hasYamux = true)
    (hmuxer : c.secure.negotiatedStreamMuxer = some yamuxProtocol)
  | single (hbranch : branchOf noise = .single) (hstage : c.secure.stage = .ready)
    (hyamux : c.hasYamux = false) (hmuxer : c.secure.negotiatedStreamMuxer = none)
  | exchanging (hbranch : branchOf noise = .exchange)
    (hstage : c.secure.stage = .muxerNegotiation) (hyamux : c.hasYamux = false)
    (hmuxer : c.secure.negotiatedStreamMuxer = selectStreamMuxer noise)
    (hbuffer : c.muxerNegotiationBuffer = c.secure.plain)
    (hproposed : Proposed noise c.secure c.isInitiator)
  | agreed (exchange : Bytes) (result : Option ProtocolId)
    (hbranch : branchOf noise = .exchange) (hstage : c.secure.stage = .ready)
    (hspan : MultistreamSelect.exchangeSpan exchange = .ok exchange.length)
    (hheard : exchange <+: c.secure.plain)
    (hdecided : Decided noise exchange result c.secure c.isInitiator)
    (hyamux : c.hasYamux = decide (result = some yamuxProtocol))
    (hmuxer : c.secure.negotiatedStreamMuxer = result.or (selectStreamMuxer noise))

theorem Decided.mono {noise : NoiseSession} {exchange : Bytes} {result : Option ProtocolId}
    {secure secure' : SecureChannelState} {role : Bool}
    (h : Decided noise exchange result secure role) (hmore : secure.sealed <+: secure'.sealed) :
    Decided noise exchange result secure' role := by
  cases h with
  | initiator proposal hprepare hsaid hadopt =>
    exact .initiator proposal hprepare (hsaid.mono hmore) hadopt
  | responder negotiated hnegotiate hsaid hresult =>
    exact .responder negotiated hnegotiate (hsaid.mono hmore) hresult

theorem Proposed.of_sealed {noise : NoiseSession} {secure secure' : SecureChannelState} {role : Bool}
    (h : Proposed noise secure role) (hsame : secure'.sealed = secure.sealed) :
    Proposed noise secure' role := by
  cases h with
  | initiator proposal hprepare hsaid =>
    exact .initiator proposal hprepare (hsaid.mono (by rw [hsame]))
  | responder hnone => exact .responder (hsame.trans hnone)

/-! ## When the channel is ready -/

/-- What the moves of a ready session leave alone, and what they append to. -/
structure Later (c c' : Core) : Prop where
  isInitiator : c'.isInitiator = c.isInitiator
  stage : c'.secure.stage = c.secure.stage
  hasYamux : c'.hasYamux = c.hasYamux
  muxer : c'.secure.negotiatedStreamMuxer = c.secure.negotiatedStreamMuxer
  sealed : c.secure.sealed <+: c'.secure.sealed
  opened : c.secure.plain <+: c'.secure.plain

theorem Later.of_same {c c' : Core} (hrole : c'.isInitiator = c.isInitiator)
    (hyamux : c'.hasYamux = c.hasYamux) (hsecure : c'.secure = c.secure) : Later c c' := by
  refine ⟨hrole, ?_, hyamux, ?_, ?_, ?_⟩ <;> rw [hsecure]

theorem Later.trans {a b c : Core} (h : Later a b) (h' : Later b c) : Later a c where
  isInitiator := h'.isInitiator.trans h.isInitiator
  stage := h'.stage.trans h.stage
  hasYamux := h'.hasYamux.trans h.hasYamux
  muxer := h'.muxer.trans h.muxer
  sealed := h.sealed.trans h'.sealed
  opened := h.opened.trans h'.opened

theorem Later.seal {c : Core} {data ciphertext : Bytes} {secure : SecureChannelState}
    (io : SessionIoState) (hseal : sealMessage S data c.secure = (.ok ciphertext, secure)) :
    Later c { c with secure, io } := by
  obtain ⟨-, -, -, rfl⟩ := sealMessage_ok hseal
  exact ⟨rfl, rfl, rfl, rfl, List.prefix_append _ _, List.prefix_rfl⟩

theorem OutMove.later {c c' : Core} (h : OutMove S c c') : Later c c' := by
  cases h with
  | answers => exact .of_same rfl rfl rfl
  | accept => exact .of_same rfl rfl rfl
  | shutdown => exact .of_same rfl rfl rfl
  | sealFramed _ _ _ _ _ hseal => exact .seal _ hseal
  | sealLost _ _ _ _ _ hseal => exact .seal c.io hseal

/-- One message is decrypted, or fails to be. -/
theorem openMessage_plain {secure secure' : SecureChannelState} {frame : Bytes}
    {result : Result Bytes} (h : openMessage S frame secure = (result, secure')) :
    secure'.sealed = secure.sealed ∧ secure'.stage = secure.stage ∧
      secure'.negotiatedStreamMuxer = secure.negotiatedStreamMuxer ∧
      secure'.plain = secure.plain ++ result.toOption.getD [] := by
  cases result with
  | ok plaintext =>
    obtain ⟨-, -, -, rfl⟩ := openMessage_ok h
    exact ⟨rfl, rfl, rfl, SecureChannelState.plain_of_opened
      (r := ⟨secure.noise.csRecv.key, secure.noise.csRecv.nonce, frame, some plaintext⟩) rfl⟩
  | error error =>
    rw [openMessage_error h]
    exact ⟨rfl, rfl, rfl, SecureChannelState.plain_of_opened
      (r := ⟨secure.noise.csRecv.key, secure.noise.csRecv.nonce, frame, none⟩) rfl⟩

theorem Later.opens {c c' : Core} {frame : Bytes} {result : Result Bytes}
    {secure : SecureChannelState} (hopen : openMessage S frame c.secure = (result, secure))
    (hsecure : c'.secure = secure) (hrole : c'.isInitiator = c.isInitiator)
    (hyamux : c'.hasYamux = c.hasYamux) : Later c c' := by
  obtain ⟨hsealed, hstage, hmuxer, hplain⟩ := openMessage_plain hopen
  rw [← hsecure] at hsealed hstage hmuxer hplain
  exact ⟨hrole, hstage, hyamux, hmuxer, by rw [hsealed], by rw [hplain]; exact List.prefix_append _ _⟩

theorem Move.later {c c' : Core} (hmove : Move S c c') (hready : c.secure.stage = .ready) :
    Later c c' := by
  have hneg : c.secure.stage ≠ .negotiatingProtocol := by rw [hready]; nofun
  have hnoise : c.secure.stage ≠ .noiseHandshake := by rw [hready]; nofun
  have hmuxer : c.secure.stage ≠ .muxerNegotiation := by rw [hready]; nofun
  cases hmove with
  | out hout => exact hout.later
  | socket => exact .of_same rfl rfl rfl
  | recv => exact .of_same rfl rfl rfl
  | close => exact .of_same rfl rfl rfl
  | closeSocket => exact .of_same rfl rfl rfl
  | openData _ _ _ _ _ _ _ hopen => exact .opens hopen rfl rfl rfl
  | openFail _ _ _ _ _ _ _ hopen => exact .opens hopen rfl rfl rfl
  | startNoise _ _ _ _ hstage => exact absurd hstage hneg
  | acceptNoise _ _ _ _ hstage => exact absurd hstage hneg
  | acceptNoiseFail _ _ _ hstage => exact absurd hstage hneg
  | msg1 _ _ _ _ _ hwait => exact absurd hwait.stage hnoise
  | msg2 _ _ _ _ _ hwait => exact absurd hwait.stage hnoise
  | msg3 _ _ _ hwait => exact absurd hwait.stage hnoise
  | fail _ _ _ hstage => exact absurd hstage (not_or.mpr ⟨hneg, hnoise⟩)
  | finishYamux hfinish => exact absurd hfinish.stage hnoise
  | finishDirect hfinish => exact absurd hfinish.stage hnoise
  | finishInbound hfinish => exact absurd hfinish.stage hnoise
  | finishOutbound _ _ _ _ hfinish => exact absurd hfinish.stage hnoise
  | finishFail _ _ hfinish => exact absurd hfinish.stage hnoise
  | openMuxer _ _ _ _ hexchange => exact absurd hexchange.stage hmuxer
  | muxerOutbound _ _ hexchange => exact absurd hexchange.stage hmuxer
  | muxerInbound _ _ _ _ _ _ hexchange => exact absurd hexchange.stage hmuxer
  | muxerInboundFail _ _ _ _ _ hexchange => exact absurd hexchange.stage hmuxer
  | muxerInboundLost _ _ _ hexchange => exact absurd hexchange.stage hmuxer

/-! ## In the exchange -/

/-- A session that cannot encrypt only uses its socket. -/
theorem OutMoves.silent {c c' : Core} (h : OutMoves S c c') (hmay : ¬ c.MaySeal) :
    c'.secure = c.secure ∧ OutFrame c c' := by
  induction h with
  | refl => exact ⟨rfl, .refl c⟩
  | @tail a b hmoves hstep ih =>
    obtain ⟨hsecure, hframe⟩ := ih
    have hnot : ¬ a.MaySeal := by
      unfold Core.MaySeal at hmay ⊢
      rwa [hsecure, hframe.hasYamux]
    refine ⟨?_, hframe.trans hstep.frame⟩
    cases hstep with
    | answers => exact hsecure
    | accept => exact hsecure
    | shutdown => exact hsecure
    | sealFramed _ _ _ _ hkeys => exact absurd hkeys hnot
    | sealLost _ _ _ _ hkeys => exact absurd hkeys hnot

variable (S) in
/-- A session past its handshake, and how far it is. -/
structure Settled (role : Bool) (u : Upgrade) (noise : NoiseSession) (c : Core) : Prop where
  role : c.isInitiator = role
  established : Established S u noise c
  settling : Settling noise c

namespace Settling

variable {noise : NoiseSession} {c c' : Core}

theorem later (h : Settling noise c) (hready : c.secure.stage = .ready) (hlater : Later c c') :
    Settling noise c' := by
  obtain ⟨hrole, hstage, hyamux, hmuxer, hsealed, hopened⟩ := hlater
  cases h with
  | stopped _ hs => rw [hready] at hs; cases hs
  | yamux hbranch hs hy hm =>
    exact .yamux hbranch (hstage.trans hs) (hyamux.trans hy) (hmuxer.trans hm)
  | single hbranch hs hy hm =>
    exact .single hbranch (hstage.trans hs) (hyamux.trans hy) (hmuxer.trans hm)
  | exchanging _ hs => rw [hready] at hs; cases hs
  | agreed exchange result hbranch hs hspan hheard hdecided hy hm =>
    refine .agreed exchange result hbranch (hstage.trans hs) hspan (hheard.trans hopened) ?_
      (hyamux.trans hy) (hmuxer.trans hm)
    rw [hrole]
    exact hdecided.mono hsealed

/-- The exchange goes on. -/
theorem exchanged (h : Settling noise c) (hstage : c.secure.stage = .muxerNegotiation)
    (hover : ¬ c.Active → ¬ c'.Active)
    (hrole : c'.isInitiator = c.isInitiator) (hyamux : c'.hasYamux = c.hasYamux)
    (hbuffer : c.muxerNegotiationBuffer = c.secure.plain →
      c'.muxerNegotiationBuffer = c'.secure.plain)
    (hstage' : c'.secure.stage = c.secure.stage)
    (hmuxer : c'.secure.negotiatedStreamMuxer = c.secure.negotiatedStreamMuxer)
    (hsealed : c'.secure.sealed = c.secure.sealed) : Settling noise c' := by
  cases h with
  | stopped hnot hs => exact .stopped (hover hnot) (hstage'.trans hs)
  | yamux _ hs => rw [hstage] at hs; cases hs
  | single _ hs => rw [hstage] at hs; cases hs
  | exchanging hbranch hs hy hm hb hproposed =>
    refine .exchanging hbranch (hstage'.trans hs) (hyamux.trans hy) (hmuxer.trans hm) (hbuffer hb) ?_
    rw [hrole]
    exact hproposed.of_sealed hsealed
  | agreed _ _ _ hs => rw [hstage] at hs; cases hs

theorem of_secure (h : Settling noise c) (hstage : c.secure.stage = .muxerNegotiation)
    (hover : ¬ c.Active → ¬ c'.Active) (hrole : c'.isInitiator = c.isInitiator)
    (hyamux : c'.hasYamux = c.hasYamux)
    (hbuffer : c'.muxerNegotiationBuffer = c.muxerNegotiationBuffer)
    (hsecure : c'.secure = c.secure) : Settling noise c' := by
  refine h.exchanged hstage hover hrole hyamux (fun hb => ?_) ?_ ?_ ?_
  · rw [hbuffer, hb, hsecure]
  all_goals rw [hsecure]

/-- An active session in the exchange. -/
theorem of_active (h : Settling noise c) (hexchange : c.Exchanging) :
    branchOf noise = .exchange ∧ c.hasYamux = false ∧
      c.secure.negotiatedStreamMuxer = selectStreamMuxer noise ∧
      c.muxerNegotiationBuffer = c.secure.plain ∧ Proposed noise c.secure c.isInitiator := by
  have hstage := hexchange.stage
  cases h with
  | stopped hnot => exact absurd hexchange.active hnot
  | yamux _ hs => rw [hstage] at hs; cases hs
  | single _ hs => rw [hstage] at hs; cases hs
  | exchanging hbranch _ hy hm hb hproposed => exact ⟨hbranch, hy, hm, hb, hproposed⟩
  | agreed _ _ _ hs => rw [hstage] at hs; cases hs

/-- The exchange ends. -/
theorem complete (hbranch : branchOf noise = .exchange) (hyamux : c.hasYamux = false)
    (hmuxer : c.secure.negotiatedStreamMuxer = selectStreamMuxer noise)
    (hbuffer : c.muxerNegotiationBuffer = c.secure.plain) {span : ℕ}
    (hspan : MultistreamSelect.exchangeSpan c.muxerNegotiationBuffer = .ok span)
    (result : Option ProtocolId)
    (hdecided : Decided noise (c.muxerNegotiationBuffer.take span) result c.secure c.isInitiator) :
    Settling noise ((c.adopt result).dropExchange span).complete := by
  have hheard : c.muxerNegotiationBuffer.take span <+: c.secure.plain := by
    rw [← hbuffer]
    exact List.take_prefix _ _
  cases result with
  | none =>
    exact .agreed _ none hbranch rfl (taken_exchange hspan) hheard (hdecided.mono List.prefix_rfl) hyamux
      hmuxer
  | some muxer =>
    refine .agreed _ (some muxer) hbranch rfl (taken_exchange hspan) hheard
      (hdecided.mono List.prefix_rfl) ?_ rfl
    show (if muxer = yamuxProtocol then true else c.hasYamux) = _
    rw [hyamux]
    by_cases hm : muxer = yamuxProtocol <;> simp [hm]

end Settling

theorem not_active_closeSocket {c : Core} (h : ¬ c.Active) :
    ¬ ({ c with io := closeSocket c.io } : Core).Active :=
  fun ha => h ⟨closeSocket_socketOpen ha.1, ha.2⟩

theorem Settled.move {role : Bool} {u : Upgrade} {noise : NoiseSession} {c c' : Core}
    (h : Settled S role u noise c) (hmove : Move S c c') : Settled S role u noise c' := by
  obtain ⟨hrole, hestablished, hsettling⟩ := h
  have hnext := hestablished.move hmove
  have hnoise : c.secure.noise.localExtensions = noise.localExtensions := by rw [hestablished.noise]
  obtain ⟨hneg, hshake⟩ := hestablished.keyed.stage_ne
  rcases hestablished.keyed.stage with ⟨hstage, hnot⟩ | ⟨hready, -⟩
  swap
  · have hlater := hmove.later hready
    exact ⟨hlater.isInitiator.trans hrole, hnext, hsettling.later hready hlater⟩
  -- in the exchange, where only the exchange is encrypted
  have hsilent : ∀ {a b : Core}, OutMoves S a b → a.secure.secureReady = false → a.hasYamux = false →
      b.secure = a.secure ∧ OutFrame a b := fun hout hkeys hyamux =>
    hout.silent (by unfold Core.MaySeal; rw [hkeys, hyamux]; simp)
  cases hmove with
  | out hout =>
    have hframe := hout.frame
    refine ⟨hframe.isInitiator.trans hrole, hnext, ?_⟩
    have hover : ¬ c.Active → ¬ c'.Active := fun hn ha => hn (hframe.active_iff.mp ha)
    cases hyamux : c.hasYamux with
    | true =>
      cases hsettling with
      | stopped hn => exact .stopped (hover hn) (hframe.stage.trans hstage)
      | yamux _ hs => rw [hstage] at hs; cases hs
      | single _ hs => rw [hstage] at hs; cases hs
      | exchanging _ _ hy => rw [hyamux] at hy; cases hy
      | agreed _ _ _ hs => rw [hstage] at hs; cases hs
    | false =>
      have hsecure := (hsilent hout.single hnot hyamux).1
      exact hsettling.of_secure hstage hover hframe.isInitiator hframe.hasYamux
        hframe.muxerNegotiationBuffer hsecure
  | socket => exact ⟨hrole, hnext, hsettling.of_secure hstage id rfl rfl rfl rfl⟩
  | recv _ hactive =>
    exact ⟨hrole, hnext, hsettling.of_secure hstage (fun hn => absurd hactive hn) rfl rfl rfl rfl⟩
  | close => exact ⟨hrole, hnext, .stopped (not_active_shut c) hstage⟩
  | closeSocket =>
    exact ⟨hrole, hnext, hsettling.of_secure hstage not_active_closeSocket rfl rfl rfl rfl⟩
  | openMuxer frame rest plaintext secure hexchange _ hopen =>
    obtain ⟨hsealed, hsame, hmuxer, hplain⟩ := openMessage_plain hopen
    refine ⟨hrole, hnext, hsettling.exchanged hstage (fun hn => absurd hexchange.active hn) rfl rfl
      (fun hb => ?_) hsame hmuxer hsealed⟩
    show c.muxerNegotiationBuffer ++ plaintext = secure.plain
    rw [hplain, hb]
    rfl
  | openData _ _ _ _ _ hkeys => rw [hnot] at hkeys; cases hkeys
  | openFail _ _ _ secure _ _ _ hopen =>
    obtain ⟨-, hsame, -, -⟩ := openMessage_plain hopen
    exact ⟨hrole, hnext, .stopped (not_active_shut _) (hsame.trans hstage)⟩
  | muxerOutbound span muxer hexchange hinitiator hspan hadopt =>
    obtain ⟨hbranch, hyamux, hmuxer, hbuffer, hproposed⟩ := hsettling.of_active hexchange
    rw [hnoise] at hadopt
    rw [hinitiator] at hproposed
    refine ⟨by cases muxer <;> exact hrole, hnext, .complete hbranch hyamux hmuxer hbuffer hspan muxer ?_⟩
    rw [hinitiator]
    cases hproposed with
    | initiator proposal hprepare hsaid => exact .initiator proposal hprepare hsaid hadopt
  | muxerInbound c₁ span negotiated ciphertext framed secure hexchange hresponder hspan hnegotiate
      hseal hframe hout =>
    obtain ⟨hbranch, hyamux, hmuxer, hbuffer, hproposed⟩ := hsettling.of_active hexchange
    rw [hnoise] at hnegotiate
    rw [hresponder] at hproposed
    have hnone : c.secure.sealed = [] := by
      cases hproposed with
      | responder hnone => exact hnone
    have hsaid := begins_of_seal hnone hseal hframe
    obtain ⟨-, -, -, rfl⟩ := sealMessage_ok hseal
    obtain ⟨hsecure, hframe₁⟩ := hsilent hout hnot hyamux
    have hbuffer₁ : c₁.muxerNegotiationBuffer = c.muxerNegotiationBuffer :=
      hframe₁.muxerNegotiationBuffer
    rw [← hbuffer₁] at hspan hbuffer hnegotiate
    have hrole₁ : c₁.isInitiator = c.isInitiator := hframe₁.isInitiator
    refine ⟨by cases negotiated.protocol <;> exact hrole₁.trans hrole, hnext, .complete hbranch
      (hframe₁.hasYamux.trans hyamux) (by rw [hsecure]; exact hmuxer) (by rw [hbuffer, hsecure]; rfl)
      hspan negotiated.protocol ?_⟩
    rw [hrole₁, hresponder, hsecure]
    exact .responder negotiated hnegotiate hsaid rfl
  | muxerInboundFail c₁ outbound ciphertext framed secure hexchange _ hseal hout =>
    obtain ⟨-, -, -, rfl⟩ := sealMessage_ok hseal
    have hframe₁ := hout.frame
    exact ⟨hframe₁.isInitiator.trans hrole, hnext,
      .stopped (not_active_shut _) (hframe₁.stage.trans hstage)⟩
  | muxerInboundLost outbound ciphertext secure _ _ hseal =>
    obtain ⟨-, -, -, rfl⟩ := sealMessage_ok hseal
    exact ⟨hrole, hnext, .stopped (not_active_shut _) hstage⟩
  | startNoise _ _ _ _ hs => exact absurd hs hneg
  | acceptNoise _ _ _ _ hs => exact absurd hs hneg
  | acceptNoiseFail _ _ _ hs => exact absurd hs hneg
  | msg1 _ _ _ _ _ hwait => exact absurd hwait.stage hshake
  | msg2 _ _ _ _ _ hwait => exact absurd hwait.stage hshake
  | msg3 _ _ _ hwait => exact absurd hwait.stage hshake
  | fail _ _ _ hs => exact absurd hs (not_or.mpr ⟨hneg, hshake⟩)
  | finishYamux hfinish => exact absurd hfinish.stage hshake
  | finishDirect hfinish => exact absurd hfinish.stage hshake
  | finishInbound hfinish => exact absurd hfinish.stage hshake
  | finishOutbound _ _ _ _ hfinish => exact absurd hfinish.stage hshake
  | finishFail _ _ hfinish => exact absurd hfinish.stage hshake

/-! ## Out of the handshake -/

/-- The buffer of the exchange is left alone until the exchange. -/
theorem Move.exchangeBuffer {c c' : Core} (hmove : Move S c c')
    (hstage : c.secure.stage ≠ .muxerNegotiation) :
    c'.muxerNegotiationBuffer = c.muxerNegotiationBuffer := by
  cases hmove with
  | out hout => exact hout.frame.muxerNegotiationBuffer
  | acceptNoise _ _ _ _ _ _ _ _ _ hout => exact hout.frame.muxerNegotiationBuffer
  | acceptNoiseFail _ _ _ _ _ hout => exact hout.frame.muxerNegotiationBuffer
  | openMuxer _ _ _ _ hexchange => exact absurd hexchange.stage hstage
  | muxerOutbound _ _ hexchange => exact absurd hexchange.stage hstage
  | muxerInbound _ _ _ _ _ _ hexchange => exact absurd hexchange.stage hstage
  | muxerInboundFail _ _ _ _ _ hexchange => exact absurd hexchange.stage hstage
  | muxerInboundLost _ _ _ hexchange => exact absurd hexchange.stage hstage
  | _ => rfl

/-- Where `finish_secure_upgrade` leaves a session. -/
theorem Early.settles {role : Bool} {u : Upgrade} {channel : SecureChannelState} {c c' : Core}
    (h : Early role u channel c) (hbuffer : c.muxerNegotiationBuffer = []) (hmove : Move S c c')
    (hpast : c'.secure.stage = .muxerNegotiation ∨ c'.secure.stage = .ready) :
    Settling channel.noise c' := by
  have hplain : channel.plain = [] := by
    rw [SecureChannelState.plain, h.opened]
    rfl
  have hstage : c.secure.stage = .negotiatingProtocol ∨ c.secure.stage = .noiseHandshake := by
    rw [h.secure]
    exact h.stage.imp And.left id
  have hmuxer : c.secure.stage ≠ .muxerNegotiation := by
    rcases hstage with hs | hs <;> rw [hs] <;> nofun
  have hnever : ∀ {d : Core}, d.secure.stage = c.secure.stage → ¬(d.secure.stage = .muxerNegotiation ∨
      d.secure.stage = .ready) := by
    intro d hd
    rw [hd]
    rcases hstage with hs | hs <;> rw [hs] <;> simp
  obtain ⟨hrole, hyamux, hsecure, -, -, hready, hsealed, -⟩ := h
  cases hmove with
  | out hout => exact absurd hpast (hnever hout.frame.stage)
  | socket => exact absurd hpast (hnever rfl)
  | recv => exact absurd hpast (hnever rfl)
  | close => exact absurd hpast (hnever rfl)
  | closeSocket => exact absurd hpast (hnever rfl)
  | startNoise => rcases hpast with hs | hs <;> cases hs
  | acceptNoise => rcases hpast with hs | hs <;> cases hs
  | acceptNoiseFail _ _ _ _ _ hout => exact absurd hpast (hnever hout.frame.stage)
  | msg1 => exact absurd hpast (hnever rfl)
  | msg2 => exact absurd hpast (hnever rfl)
  | msg3 => exact absurd hpast (hnever rfl)
  | fail _ secure _ _ _ hstage' =>
    have hpast' : secure.stage = .muxerNegotiation ∨ secure.stage = .ready := hpast
    rcases hstage' with hs | hs <;> rw [hs] at hpast' <;> simp at hpast'
  | finishYamux hfinish hselect =>
    rw [hsecure] at hselect
    refine .yamux (branch_yamux.mpr hselect) rfl rfl ?_
    show selectStreamMuxer c.secure.noise = _
    rw [hsecure, hselect]
  | finishDirect hfinish hselect hlocal =>
    rw [hsecure] at hlocal
    refine .single (branch_single.mpr hlocal) rfl hyamux ?_
    show selectStreamMuxer c.secure.noise = _
    rw [hsecure, selectStreamMuxer_eq, hlocal]
    rfl
  | finishInbound hfinish hselect hlocal hresponder =>
    rw [hsecure] at hselect hlocal
    refine .exchanging (branch_exchange.mpr ⟨hselect, hlocal⟩) rfl hyamux ?_ ?_ ?_
    · show selectStreamMuxer c.secure.noise = _
      rw [hsecure]
    · show c.muxerNegotiationBuffer = c.secure.plain
      rw [hbuffer, hsecure, hplain]
    · rw [hresponder]
      exact .responder (by rw [← hsealed, ← hsecure]; rfl)
  | finishOutbound proposal ciphertext framed secure hfinish hselect hlocal hinitiator hprepare hseal
      hframe =>
    rw [hsecure] at hselect hlocal hprepare
    have hnone : (c.secure.select .muxerNegotiation).sealed = [] := by
      rw [← hsealed, ← hsecure]
      rfl
    have hsaid := begins_of_seal hnone hseal hframe
    obtain ⟨-, -, -, rfl⟩ := sealMessage_ok hseal
    refine .exchanging (branch_exchange.mpr ⟨hselect, hlocal⟩) rfl hyamux ?_ ?_ ?_
    · show selectStreamMuxer c.secure.noise = _
      rw [hsecure]
    · show c.muxerNegotiationBuffer = c.secure.plain
      rw [hbuffer, hsecure, hplain]
    · rw [hinitiator]
      exact .initiator proposal hprepare hsaid
  | finishFail proposal secure hfinish hsecured =>
    refine .stopped (not_active_shut _) ?_
    show secure.stage = .muxerNegotiation
    rcases hsecured with rfl | ⟨ciphertext, hseal⟩
    · rfl
    · obtain ⟨-, -, -, rfl⟩ := sealMessage_ok hseal
      rfl
  | openMuxer _ _ _ _ hexchange => exact absurd hexchange.stage hmuxer
  | openData _ _ _ _ _ hkeys => rw [hsecure, hready] at hkeys; cases hkeys
  | openFail _ _ _ _ _ hkeys =>
    rw [hsecure, hready, ← hsecure] at hkeys
    rcases hkeys with hs | hs
    · exact absurd hs hmuxer
    · cases hs
  | muxerOutbound _ _ hexchange => exact absurd hexchange.stage hmuxer
  | muxerInbound _ _ _ _ _ _ hexchange => exact absurd hexchange.stage hmuxer
  | muxerInboundFail _ _ _ _ _ hexchange => exact absurd hexchange.stage hmuxer
  | muxerInboundLost _ _ _ hexchange => exact absurd hexchange.stage hmuxer

/-! ## Runs -/

/-- Where a session is that began its upgrade in a phase with `P`. -/
def Onward (S : Noise.Sodium) (role : Bool) (P : Upgrade → SecureChannelState → Prop) (c : Core) :
    Prop :=
  Over c ∨ (∃ u channel, P u channel ∧ Early role u channel c ∧ c.muxerNegotiationBuffer = []) ∨
    ∃ u channel, P u channel ∧ channel.handshakeState = .complete ∧
      Settled S role u channel.noise c

theorem Move.isInitiator {c c' : Core} (hmove : Move S c c') : c'.isInitiator = c.isInitiator := by
  cases hmove with
  | out hout => exact hout.frame.isInitiator
  | acceptNoise _ _ _ _ _ _ _ _ _ hout => exact hout.frame.isInitiator
  | acceptNoiseFail _ _ _ _ _ hout => exact hout.frame.isInitiator
  | muxerOutbound _ muxer => cases muxer <;> rfl
  | muxerInbound c₁ _ negotiated _ _ _ _ _ _ _ _ _ hout =>
    have hrole : c₁.isInitiator = c.isInitiator := hout.frame.isInitiator
    cases hp : negotiated.protocol <;> exact hrole
  | muxerInboundFail _ _ _ _ _ _ _ _ hout => exact hout.frame.isInitiator
  | _ => rfl

theorem Onward.move {role : Bool} {P : Upgrade → SecureChannelState → Prop}
    (hP : Followed S role P) {c c' : Core} (h : Onward S role P c) (hmove : Move S c c') :
    Onward S role P c' := by
  rcases h with hover | ⟨u, channel, hu, hearly, hbuffer⟩ | ⟨u, channel, hu, hcomplete, hsettled⟩
  · exact .inl (hover.move hmove)
  · have hmuxer : c.secure.stage ≠ .muxerNegotiation := by
      rw [hearly.secure]
      rcases hearly.stage with ⟨hs, -⟩ | hs <;> rw [hs] <;> nofun
    have hbuffer' := (hmove.exchangeBuffer hmuxer).trans hbuffer
    rcases hearly.move hmove with hsame | hover | ⟨u', channel', hadvance, hearly'⟩ |
      ⟨hstage, hcomplete, hfinish⟩
    · exact .inr (.inl ⟨u, channel, hu, hsame, hbuffer'⟩)
    · exact .inl hover
    · exact .inr (.inl ⟨u', channel', hP.advance hu hadvance, hearly', hbuffer'⟩)
    · have hestablished := hfinish (hP.fresh hu hstage hcomplete)
      have hpast := hestablished.keyed.stage.imp And.left And.left
      exact .inr (.inr ⟨u, channel, hu, hcomplete, hmove.isInitiator.trans hearly.role, hestablished,
        hearly.settles hbuffer hmove hpast⟩)
  · exact .inr (.inr ⟨u, channel, hu, hcomplete, hsettled.move hmove⟩)

theorem Onward.upgraded {role : Bool} {P : Upgrade → SecureChannelState → Prop}
    {s : BasicConnectionSession} (h : Onward S role P s.core) (hs : s.Upgraded) :
    ∃ u channel, P u channel ∧ channel.handshakeState = .complete ∧
      Settled S role u channel.noise s.core := by
  rcases h with hover | ⟨u, channel, hu, hearly, -⟩ | hsettled
  · have hstage : s.secure.stage = .negotiatingProtocol ∨ s.secure.stage = .noiseHandshake := hover.2
    exact absurd hstage (by rcases hs with h | h <;> rw [h] <;> simp)
  · have hsecure : s.secure = channel := hearly.secure
    have hstage := hearly.stage.imp And.left id
    rw [← hsecure] at hstage
    exact absurd hstage (by rcases hs with h | h <;> rw [h] <;> simp)
  · exact hsettled

section Runs

variable {id : ConnectionId} {fd : ℤ} {addr : Multiaddr} {identity : Option Identity}
  {streamMuxers : List ProtocolId} {random : ℕ → Entropy} {s : BasicConnectionSession}

/-- An initiator that began its upgrade. -/
theorem initiator_onward
    (hrun : Runs S NoRestart
      (step S (make id fd addr true identity streamMuxers random) .beginOutbound) s) :
    Onward S true (Dialing S (random 0) (configuration identity streamMuxers)) s.core := by
  obtain ⟨c, hbegin, hout⟩ := beginOutboundUpgrade_starts (S := S)
    (s := make id fd addr true identity streamMuxers random) ⟨rfl, nofun, nofun⟩ (by
      rintro (h | h) <;> cases h) rfl
  have hfirst : Onward S true (Dialing S (random 0) (configuration identity streamMuxers))
      (step S (make id fd addr true identity streamMuxers random) .beginOutbound).core := by
    cases hbegin with
    | outbound proposal _ _ _ hprepare =>
      cases hprepare
      have hearly := make_early id fd addr true identity streamMuxers random noiseGreeting
      exact .inr (.inl ⟨_, _, .proposing (BasicConnectionSession.core _).restart.secure rfl rfl rfl rfl,
        hearly.outMoves hout, hout.frame.muxerNegotiationBuffer⟩)
    | inbound _ _ hrole => cases hrole
  exact hrun.noRestart_invariant (P := Onward S true _)
    (fun _ _ h hmove => h.move (dialing_followed (random 0) _) hmove) hfirst

/-- A responder that began its upgrade. -/
theorem responder_onward
    (hrun : Runs S NoRestart
      (step S (make id fd addr false identity streamMuxers random) .beginInbound) s) :
    Onward S false (Answering S (random 0) (configuration identity streamMuxers)) s.core := by
  have hfirst : Onward S false (Answering S (random 0) (configuration identity streamMuxers))
      (step S (make id fd addr false identity streamMuxers random) .beginInbound).core := by
    have hearly := make_early id fd addr false identity streamMuxers random []
    exact .inr (.inl ⟨_, _, .listening (BasicConnectionSession.core _).restart.secure rfl rfl rfl rfl,
      hearly, rfl⟩)
  exact hrun.noRestart_invariant (P := Onward S false _)
    (fun _ _ h hmove => h.move (answering_followed (random 0) _) hmove) hfirst

theorem initiator_settled
    (hrun : Runs S NoRestart
      (step S (make id fd addr true identity streamMuxers random) .beginOutbound) s)
    (hs : s.Upgraded) :
    ∃ u noise, Dialed S (random 0) (configuration identity streamMuxers) u noise ∧
      Settled S true u noise s.core := by
  obtain ⟨u, channel, hphase, hcomplete, hsettled⟩ := (initiator_onward hrun).upgraded hs
  refine ⟨u, channel.noise, ?_, hsettled⟩
  cases hphase with
  | proposing _ _ hstate => rw [hcomplete] at hstate; cases hstate
  | waiting _ _ _ _ hwait => rw [hcomplete] at hwait; cases hwait
  | done _ heard msg2 msg3 hspan _ _ hprocess => exact ⟨heard, msg2, msg3, hspan, rfl, hprocess⟩

theorem responder_settled
    (hrun : Runs S NoRestart
      (step S (make id fd addr false identity streamMuxers random) .beginInbound) s)
    (hs : s.Upgraded) :
    ∃ u noise, Answered S (random 0) (configuration identity streamMuxers) u noise ∧
      Settled S false u noise s.core := by
  obtain ⟨u, channel, hphase, hcomplete, hsettled⟩ := (responder_onward hrun).upgraded hs
  refine ⟨u, channel.noise, ?_, hsettled⟩
  cases hphase with
  | listening _ _ hstate => rw [hcomplete] at hstate; cases hstate
  | accepted _ _ _ _ _ _ _ hwait => rw [hcomplete] at hwait; cases hwait
  | waiting _ _ _ _ _ _ _ _ _ hwait => rw [hcomplete] at hwait; cases hwait
  | done _ heard msg1 msg2 msg3 before negotiated hspan hnegotiate hprotocol _ _ hprocess hfinish =>
    exact ⟨heard, msg1, msg2, msg3, before, negotiated, hspan, hnegotiate, hprotocol, rfl, hprocess,
      hfinish⟩

end Runs

end PeerCore.Connection
