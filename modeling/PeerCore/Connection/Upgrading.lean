import PeerCore.Connection.WireLog
import PeerCore.Noise.Agreement
import PeerCore.Prescan

/-!
# The upgrade on the wire

An upgrade exchanges one multistream greeting and the three handshake messages, each
side in its own order. `Advance` is this protocol by itself: what each step appends to
the `Upgrade` and makes of the channel. `Early.move` says that a session follows it until
the transport keys are in use, and `initiator_upgrade` and `responder_upgrade` what a
session has said and heard by then.
-/

namespace PeerCore.Connection

open BasicConnectionSession
open Noise (Entropy NoiseSession)

variable {S : Noise.Sodium}

/-! ## The protocol -/

variable (S) in
/-- One step of the upgrade of an initiator (`true`) or a responder (`false`). -/
inductive Advance (u : Upgrade) (secure : SecureChannelState) :
    Bool → Upgrade → SecureChannelState → Prop
  | start (heard framed : Bytes) (keyLogs : ℕ → Noise.KeyLog)
    (hstage : secure.stage = .negotiatingProtocol)
    (hspan : MultistreamSelect.exchangeSpan heard = .ok heard.length)
    (hframe : Noise.encodeFrame
      (Noise.writeMsg1 S (secure.random secure.drawn) secure.noise).1 = .ok framed) :
    Advance u secure true
      { u with
        heard := u.heard ++ heard
        said := u.said ++ [(Noise.writeMsg1 S (secure.random secure.drawn) secure.noise).1] }
      { secure with
        noise := (Noise.writeMsg1 S (secure.random secure.drawn) secure.noise).2
        drawn := secure.drawn + 1, keyLogs, stage := .noiseHandshake
        handshakeState := .awaitingMsg2 }
  | accept (heard : Bytes) (negotiated : MultistreamSelect.InboundNegotiation)
    (hstage : secure.stage = .negotiatingProtocol)
    (hspan : MultistreamSelect.exchangeSpan heard = .ok heard.length)
    (hnegotiate : MultistreamSelect.negotiateInbound heard [noiseProtocol] = .ok negotiated)
    (hnoise : negotiated.protocol = some noiseProtocol) :
    Advance u secure false
      { u with greeting := u.greeting ++ negotiated.outbound, heard := u.heard ++ heard }
      { secure with stage := .noiseHandshake, handshakeState := .awaitingMsg1 }
  | msg1 (role : Bool) (frame msg2 : Bytes) (noise : NoiseSession) (keyLogs : ℕ → Noise.KeyLog)
    (hstage : secure.stage = .noiseHandshake) (hwait : secure.handshakeState = .awaitingMsg1)
    (hprocess : Noise.processMsg1 S (secure.random secure.drawn) frame secure.noise =
      (.ok msg2, noise)) :
    Advance u secure role { u with said := u.said ++ [msg2], told := u.told ++ [frame] }
      { secure with noise, drawn := secure.drawn + 1, keyLogs, handshakeState := .awaitingMsg3 }
  | msg2 (role : Bool) (frame msg3 : Bytes) (noise : NoiseSession) (keyLogs : ℕ → Noise.KeyLog)
    (hstage : secure.stage = .noiseHandshake) (hwait : secure.handshakeState = .awaitingMsg2)
    (hprocess : Noise.processMsg2 S frame secure.noise = (.ok msg3, noise)) :
    Advance u secure role { u with said := u.said ++ [msg3], told := u.told ++ [frame] }
      { secure with noise, keyLogs, handshakeState := .complete }
  | msg3 (role : Bool) (frame : Bytes) (noise : NoiseSession) (keyLogs : ℕ → Noise.KeyLog)
    (hstage : secure.stage = .noiseHandshake) (hwait : secure.handshakeState = .awaitingMsg3)
    (hprocess : Noise.processMsg3 S frame secure.noise = (.ok (), noise)) :
    Advance u secure role { u with told := u.told ++ [frame] }
      { secure with noise, keyLogs, handshakeState := .complete }

/-- A session before its transport keys are in use. -/
structure Early (role : Bool) (u : Upgrade) (channel : SecureChannelState) (c : Core) : Prop where
  role : c.isInitiator = role
  hasYamux : c.hasYamux = false
  secure : c.secure = channel
  log : WireLog u c
  stage : channel.stage = .negotiatingProtocol ∧ u.said = [] ∧ u.told = [] ∨
    channel.stage = .noiseHandshake
  secureReady : channel.secureReady = false
  sealed : channel.sealed = []
  opened : channel.opened = []

/-- A session that was closed during its upgrade. -/
def Over (c : Core) : Prop :=
  ¬ c.Active ∧ (c.secure.stage = .negotiatingProtocol ∨ c.secure.stage = .noiseHandshake)

theorem not_active_shut (c : Core) : ¬ c.shut.Active := fun h => h.2.1 rfl

theorem OutFrame.active_iff {c c' : Core} (h : OutFrame c c') : c'.Active ↔ c.Active := by
  rw [Core.Active, Core.Active, h.socketOpen, h.state]

theorem closeSocket_socketOpen {io : SessionIoState} (h : (closeSocket io).socketOpen = true) :
    io.socketOpen = true := by
  unfold closeSocket at h
  split_ifs at h
  exact h

theorem Over.move {c c' : Core} (h : Over c) (hmove : Move S c c') : Over c' := by
  obtain ⟨hover, hstage⟩ := h
  cases hmove with
  | out hout => exact ⟨fun ha => hover (hout.frame.active_iff.mp ha), by rwa [hout.frame.stage]⟩
  | socket => exact ⟨hover, hstage⟩
  | close => exact ⟨not_active_shut c, hstage⟩
  | closeSocket => exact ⟨fun ha => hover ⟨closeSocket_socketOpen ha.1, ha.2⟩, hstage⟩
  | recv _ hactive => exact absurd hactive hover
  | startNoise _ _ _ hactive => exact absurd hactive hover
  | acceptNoise _ _ _ hactive => exact absurd hactive hover
  | acceptNoiseFail _ _ hactive => exact absurd hactive hover
  | msg1 _ _ _ _ _ hwait => exact absurd hwait.active hover
  | msg2 _ _ _ _ _ hwait => exact absurd hwait.active hover
  | msg3 _ _ _ hwait => exact absurd hwait.active hover
  | fail _ _ hactive => exact absurd hactive hover
  | finishYamux hfinish => exact absurd hfinish.active hover
  | finishDirect hfinish => exact absurd hfinish.active hover
  | finishInbound hfinish => exact absurd hfinish.active hover
  | finishOutbound _ _ _ _ hfinish => exact absurd hfinish.active hover
  | finishFail _ _ hfinish => exact absurd hfinish.active hover
  | openMuxer _ _ _ _ hexchange => exact absurd hexchange.active hover
  | openData _ _ _ _ hactive => exact absurd hactive hover
  | openFail _ _ _ _ hactive => exact absurd hactive hover
  | muxerOutbound _ _ hexchange => exact absurd hexchange.active hover
  | muxerInbound _ _ _ _ _ _ hexchange => exact absurd hexchange.active hover
  | muxerInboundFail _ _ _ _ _ hexchange => exact absurd hexchange.active hover
  | muxerInboundLost _ _ _ hexchange => exact absurd hexchange.active hover

/-- What the pre-scan found is a whole exchange. -/
theorem taken_exchange {buffer : Bytes} {span : ℕ}
    (hspan : MultistreamSelect.exchangeSpan buffer = .ok span) :
    MultistreamSelect.exchangeSpan (buffer.take span) = .ok (buffer.take span).length := by
  rw [List.length_take_of_le (MultistreamSelect.exchangeSpan_le hspan)]
  exact MultistreamSelect.exchangeSpan_take hspan

namespace Early

variable {role : Bool} {u : Upgrade} {channel : SecureChannelState} {c c' : Core}

/-- Nothing happens but on the socket. -/
theorem of_same (h : Early role u channel c) (hrole : c'.isInitiator = c.isInitiator)
    (hyamux : c'.hasYamux = c.hasYamux) (hsecure : c'.secure = c.secure) (hlog : WireLog u c') :
    Early role u channel c' where
  role := hrole.trans h.role
  hasYamux := hyamux.trans h.hasYamux
  secure := hsecure.trans h.secure
  log := hlog
  stage := h.stage
  secureReady := h.secureReady
  sealed := h.sealed
  opened := h.opened

/-- Without keys nothing is encrypted. -/
theorem outMove (h : Early role u channel c) (hout : OutMove S c c') : Early role u channel c' := by
  have hlog := h.log.outMove hout
  have hmay : ¬ c.MaySeal := by
    unfold Core.MaySeal
    rw [h.secure, h.secureReady, h.hasYamux]
    simp
  cases hout with
  | answers => exact h.of_same rfl rfl rfl hlog
  | accept => exact h.of_same rfl rfl rfl hlog
  | shutdown => exact h.of_same rfl rfl rfl hlog
  | sealFramed _ _ _ _ hkeys => exact absurd hkeys hmay
  | sealLost _ _ _ _ hkeys => exact absurd hkeys hmay

theorem outMoves (h : Early role u channel c) (hmoves : OutMoves S c c') :
    Early role u channel c' := by
  induction hmoves with
  | refl => exact h
  | tail _ hstep ih => exact ih.outMove hstep

/-- The handshake is done, and the keys come into use. -/
theorem established (h : Early role u channel c) (hfresh : channel.noise.Fresh)
    (hstage : c'.secure.stage = .muxerNegotiation ∧ c'.secure.secureReady = false ∨
      c'.secure.stage = .ready ∧ c'.secure.secureReady = true)
    (hio : c'.io = c.io) (hnoise : c'.secure.noise = c.secure.noise)
    (hsealed : c'.secure.sealed = c.secure.sealed) (hopened : c'.secure.opened = c.secure.opened) :
    Established S u channel.noise c' := by
  have hlog : WireLog u c' := by
    refine h.log.of_same (by rw [hio]) (by rw [hio]) (by rw [hio]) ?_ hsealed hopened
    rw [hio]
    exact h.log.kept
  rw [h.secure] at hnoise hsealed hopened
  rw [h.sealed] at hsealed
  rw [h.opened] at hopened
  constructor
  · constructor
    · exact hstage
    · rw [hnoise]
    · rw [hnoise]
    · rw [hsealed]
      nofun
    · rw [hopened]
      nofun
    · rw [hsealed]
      exact Numbered.nil
    · rw [hopened]
      exact Numbered.nil
    · rw [hnoise, hsealed, hfresh.sendNonce]
      rfl
    · rw [hnoise, hopened, hfresh.recvNonce]
      rfl
    · intro _
      rw [hopened]
      nofun
    · rw [hopened]
      nofun
  · exact hlog
  · rw [hnoise]
  · rw [hnoise]
    exact hfresh.recvKey
  · rw [hsealed]
    nofun
  · rw [hopened]
    nofun

/-- The log when the greeting of the peer is read. -/
theorem greeted (h : Early role u channel c) (hactive : c.Active)
    (hstage : channel.stage = .negotiatingProtocol) (span : ℕ) :
    WireLog { u with heard := u.heard ++ c.io.wireRx.take span } (c.setRx (c.io.wireRx.drop span)) := by
  have htold : u.told = [] := by
    rcases h.stage with ⟨-, -, ht⟩ | hs
    · exact ht
    · rw [hstage] at hs
      cases hs
  have htaken : c.secure.taken = [] := by
    rw [h.secure, SecureChannelState.taken, h.opened]
    rfl
  have hbytes : c.io.socket.received =
      u.heard ++ c.io.wireRx.take span ++ c.io.wireRx.drop span := by
    rw [h.log.received_open hactive.1, htold, htaken, List.append_assoc u.heard (List.take _ _),
      List.take_append_drop]
    exact congrArg (· ++ _) (List.append_nil _)
  refine ⟨h.log.queued, ?_, h.log.kept, h.log.saidShort, h.log.takenShort⟩
  show c.io.socket.received =
    _ ++ framesOf (u.told ++ c.secure.taken) ++ (c.io.socket.unread ++ c.io.wireRx.drop span)
  rw [hbytes, htold, htaken, h.log.kept hactive.1, List.append_assoc (u.heard ++ _) (framesOf _)]
  rfl

/-- The log when the answer to the greeting is queued. -/
theorem answered (h : Early role u channel c) (hstage : channel.stage = .negotiatingProtocol)
    (outbound : Bytes) :
    Early role { u with greeting := u.greeting ++ outbound } channel
      { c with io := c.io.queue outbound } := by
  have hstart : u.said = [] ∧ u.told = [] := by
    rcases h.stage with ⟨-, hs⟩ | hs
    · exact hs
    · rw [hstage] at hs
      cases hs
  have hframed : c.secure.framed = [] := by
    rw [h.secure, SecureChannelState.framed, h.sealed]
    rfl
  refine ⟨h.role, h.hasYamux, h.secure, ⟨?_, h.log.received, h.log.kept, h.log.saidShort,
    h.log.takenShort⟩, h.stage, h.secureReady, h.sealed, h.opened⟩
  show c.io.socket.queued ++ outbound = u.greeting ++ outbound ++ framesOf (u.said ++ c.secure.framed)
  rw [h.log.queued, hstart.1, hframed]
  simp [framesOf]

theorem frozen {secure : SecureChannelState} {io : SessionIoState} (h : WireLog u { c with io })
    (hsealed : secure.sealed = c.secure.sealed) (hopened : secure.opened = c.secure.opened) :
    WireLog u { c with io, secure } :=
  h.of_same rfl rfl rfl h.kept hsealed hopened

/-- The proposal of the initiator fails: it is not encrypted, or too long for a frame. -/
theorem finishFail (h : Early role u channel c) (hfresh : channel.noise.Fresh) {proposal : Bytes}
    {secure : SecureChannelState}
    (hlost : secure ≠ c.secure.select .muxerNegotiation → ∃ ciphertext error,
      sealMessage S proposal (c.secure.select .muxerNegotiation) = (.ok ciphertext, secure) ∧
        Noise.encodeFrame ciphertext = .error error) :
    Established S u channel.noise ({ c with secure } : Core).shut := by
  have hready : c.secure.secureReady = false := by rw [h.secure, h.secureReady]
  have hselected : Established S u channel.noise
      { c with secure := c.secure.select .muxerNegotiation } :=
    h.established hfresh (.inl ⟨rfl, hready⟩) rfl rfl rfl rfl
  by_cases hsame : secure = c.secure.select .muxerNegotiation
  · rw [hsame]
    exact hselected.shut
  · obtain ⟨ciphertext, error, hseal, hframe⟩ := hlost hsame
    exact (hselected.sealMessage hseal (hselected.log.sealLost hseal ⟨error, hframe⟩)).shut

/-- What a session in its upgrade can come to. -/
theorem move (h : Early role u channel c) (hmove : Move S c c') :
    Early role u channel c' ∨ Over c' ∨
    (∃ u' channel', Advance S u channel role u' channel' ∧ Early role u' channel' c') ∨
    (channel.stage = .noiseHandshake ∧ channel.handshakeState = .complete ∧
      (channel.noise.Fresh → Established S u channel.noise c')) := by
  have hstage : c.secure.stage = .negotiatingProtocol ∨ c.secure.stage = .noiseHandshake := by
    rw [h.secure]
    exact h.stage.imp And.left id
  have hmuxer : c.secure.stage ≠ .muxerNegotiation := by
    rcases hstage with hs | hs <;> rw [hs] <;> nofun
  have hready : c.secure.secureReady ≠ true := by
    rw [h.secure, h.secureReady]
    nofun
  cases hmove with
  | out hout => exact .inl (h.outMove hout)
  | socket => exact .inl (h.of_same rfl rfl rfl (h.log.of_same rfl rfl rfl h.log.kept rfl rfl))
  | recv bytes => exact .inl (h.of_same rfl rfl rfl (h.log.recv bytes))
  | closeSocket => exact .inl (h.of_same rfl rfl rfl h.log.closeSocket)
  | close => exact .inr (.inl ⟨not_active_shut c, hstage⟩)
  | acceptNoiseFail _ _ _ _ _ hout =>
    exact .inr (.inl ⟨not_active_shut _, by rw [Core.shut, hout.frame.stage]; exact hstage⟩)
  | fail _ _ _ _ _ hstage' => exact .inr (.inl ⟨not_active_shut _, hstage'⟩)
  | startNoise span _ framed hactive hneg hrole hspan _ hframe =>
    obtain ⟨hr, hy, rfl, -, -, hnot, hsealed, hopened⟩ := id h
    rw [hr] at hrole
    subst hrole
    have hlog := ((h.greeted hactive hneg span).say hsealed hframe)
    exact .inr (.inr (.inl ⟨_, _, .start _ framed _ hneg (taken_exchange hspan) hframe,
      ⟨hr, hy, rfl, frozen hlog rfl rfl, .inr rfl, hnot, hsealed, hopened⟩⟩))
  | acceptNoise c₁ span negotiated hactive hneg hrole hspan hnegotiate hnoise hout =>
    rw [h.secure] at hneg
    have h₁ := (h.answered hneg negotiated.outbound).outMoves hout
    have hlog := h₁.greeted (hout.frame.active hactive) hneg span
    have hwire : c₁.io.wireRx = c.io.wireRx := hout.frame.wireRx
    rw [← hwire] at hspan hnegotiate
    obtain ⟨hr, hy, rfl, -, -, hnot, hsealed, hopened⟩ := h₁
    rw [← h.role, hrole] at hr ⊢
    exact .inr (.inr (.inl ⟨_, _, .accept _ negotiated hneg (taken_exchange hspan) hnegotiate hnoise,
      ⟨hr, hy, rfl, frozen hlog rfl rfl, .inr rfl, hnot, hsealed, hopened⟩⟩))
  | msg1 frame rest msg2 framed noise hwait hpop hprocess hframe =>
    obtain ⟨hr, hy, rfl, -, -, hnot, hsealed, hopened⟩ := id h
    have hlog := ((h.log.hear hopened hwait.active.1 hpop).say hsealed hframe)
    exact .inr (.inr (.inl ⟨_, _, .msg1 _ frame msg2 noise _ hwait.stage hwait.handshakeState hprocess,
      ⟨hr, hy, rfl, frozen hlog rfl rfl, .inr hwait.stage, hnot, hsealed, hopened⟩⟩))
  | msg2 frame rest msg3 framed noise hwait hpop hprocess hframe =>
    obtain ⟨hr, hy, rfl, -, -, hnot, hsealed, hopened⟩ := id h
    have hlog := ((h.log.hear hopened hwait.active.1 hpop).say hsealed hframe)
    exact .inr (.inr (.inl ⟨_, _, .msg2 _ frame msg3 noise _ hwait.stage hwait.handshakeState hprocess,
      ⟨hr, hy, rfl, frozen hlog rfl rfl, .inr hwait.stage, hnot, hsealed, hopened⟩⟩))
  | msg3 frame rest noise hwait hpop hprocess =>
    obtain ⟨hr, hy, rfl, -, -, hnot, hsealed, hopened⟩ := id h
    have hlog := h.log.hear hopened hwait.active.1 hpop
    exact .inr (.inr (.inl ⟨_, _, .msg3 _ frame noise _ hwait.stage hwait.handshakeState hprocess,
      ⟨hr, hy, rfl, frozen hlog rfl rfl, .inr hwait.stage, hnot, hsealed, hopened⟩⟩))
  | finishYamux hfinish =>
    exact .inr (.inr (.inr ⟨h.secure ▸ hfinish.stage, h.secure ▸ hfinish.handshakeState, fun hfresh =>
      h.established hfresh (.inr ⟨rfl, rfl⟩) rfl rfl rfl rfl⟩))
  | finishDirect hfinish =>
    exact .inr (.inr (.inr ⟨h.secure ▸ hfinish.stage, h.secure ▸ hfinish.handshakeState, fun hfresh =>
      h.established hfresh (.inr ⟨rfl, rfl⟩) rfl rfl rfl rfl⟩))
  | finishInbound hfinish =>
    exact .inr (.inr (.inr ⟨h.secure ▸ hfinish.stage, h.secure ▸ hfinish.handshakeState, fun hfresh =>
      h.established hfresh (.inl ⟨rfl, hfinish.secureReady⟩) rfl rfl rfl rfl⟩))
  | finishOutbound _ _ _ _ hfinish _ _ _ _ hseal hframe =>
    refine .inr (.inr (.inr ⟨h.secure ▸ hfinish.stage, h.secure ▸ hfinish.handshakeState, fun hfresh =>
      ?_⟩))
    have hselected : Established S u channel.noise
        { c with secure := c.secure.select .muxerNegotiation } :=
      h.established hfresh (.inl ⟨rfl, hfinish.secureReady⟩) rfl rfl rfl rfl
    exact hselected.sealMessage hseal (hselected.log.sealFramed hseal hframe)
  | finishFail _ _ hfinish _ hlost =>
    exact .inr (.inr (.inr ⟨h.secure ▸ hfinish.stage, h.secure ▸ hfinish.handshakeState, fun hfresh =>
      h.finishFail hfresh hlost⟩))
  | openMuxer _ _ _ _ hexchange => exact absurd hexchange.stage hmuxer
  | openData _ _ _ _ _ hkeys => exact absurd hkeys hready
  | openFail _ _ _ _ _ hkeys => exact absurd hkeys (not_or.mpr ⟨hmuxer, hready⟩)
  | muxerOutbound _ _ hexchange => exact absurd hexchange.stage hmuxer
  | muxerInbound _ _ _ _ _ _ hexchange => exact absurd hexchange.stage hmuxer
  | muxerInboundFail _ _ _ _ _ hexchange => exact absurd hexchange.stage hmuxer
  | muxerInboundLost _ _ _ hexchange => exact absurd hexchange.stage hmuxer

end Early

/-! ## Runs -/

/-- Where a session is that began its upgrade in a phase with `P`. -/
def Going (S : Noise.Sodium) (role : Bool) (P : Upgrade → SecureChannelState → Prop) (c : Core) :
    Prop :=
  Over c ∨ (∃ u channel, P u channel ∧ Early role u channel c) ∨
    ∃ u channel, P u channel ∧ channel.handshakeState = .complete ∧
      Established S u channel.noise c

/-- A property of the phases that the protocol keeps. -/
structure Followed (S : Noise.Sodium) (role : Bool) (P : Upgrade → SecureChannelState → Prop) :
    Prop where
  advance : ∀ {u channel u' channel'}, P u channel → Advance S u channel role u' channel' →
    P u' channel'
  fresh : ∀ {u channel}, P u channel → channel.stage = .noiseHandshake →
    channel.handshakeState = .complete → channel.noise.Fresh

theorem Going.move {role : Bool} {P : Upgrade → SecureChannelState → Prop}
    (hP : Followed S role P) {c c' : Core} (h : Going S role P c) (hmove : Move S c c') :
    Going S role P c' := by
  rcases h with hover | ⟨u, channel, hu, hearly⟩ | ⟨u, channel, hu, hcomplete, hestablished⟩
  · exact .inl (hover.move hmove)
  · rcases hearly.move hmove with hsame | hover | ⟨u', channel', hadvance, hearly'⟩ |
      ⟨hstage, hcomplete, hfinish⟩
    · exact .inr (.inl ⟨u, channel, hu, hsame⟩)
    · exact .inl hover
    · exact .inr (.inl ⟨u', channel', hP.advance hu hadvance, hearly'⟩)
    · exact .inr (.inr ⟨u, channel, hu, hcomplete, hfinish (hP.fresh hu hstage hcomplete)⟩)
  · exact .inr (.inr ⟨u, channel, hu, hcomplete, hestablished.move hmove⟩)

/-- The session is past its handshake. -/
def BasicConnectionSession.Upgraded (s : BasicConnectionSession) : Prop :=
  s.secure.stage = .muxerNegotiation ∨ s.secure.stage = .ready

/-- A session past its handshake has followed the protocol to its end. -/
theorem Going.upgraded {role : Bool} {P : Upgrade → SecureChannelState → Prop}
    {s : BasicConnectionSession} (h : Going S role P s.core) (hs : s.Upgraded) :
    ∃ u channel, P u channel ∧ channel.handshakeState = .complete ∧
      Established S u channel.noise s.core := by
  rcases h with ⟨-, hover⟩ | ⟨u, channel, -, hearly⟩ | hestablished
  · exfalso
    have hstage : s.secure.stage = .negotiatingProtocol ∨ s.secure.stage = .noiseHandshake := hover
    rcases hs with hs | hs <;> rw [hs] at hstage <;> rcases hstage with h | h <;> cases h
  · exfalso
    have hsecure : s.secure = channel := hearly.secure
    have hstage := hearly.stage.imp And.left id
    rw [← hsecure] at hstage
    rcases hs with hs | hs <;> rw [hs] at hstage <;> rcases hstage with h | h <;> cases h
  · exact hestablished

/-! ## The initiator -/

/-- The greeting of an initiator, and the answer of a responder. -/
def noiseGreeting : Bytes :=
  MultistreamSelect.encodeMessage MultistreamSelect.header ++
    MultistreamSelect.encodeMessage noiseProtocol

variable (S) in
/-- The phases of an initiator with the configuration `n` that draws `r`. -/
inductive Dialing (r : Entropy) (n : NoiseSession) : Upgrade → SecureChannelState → Prop
  | proposing (channel : SecureChannelState) (hstage : channel.stage = .negotiatingProtocol)
    (hstate : channel.handshakeState = .idle) (hnoise : channel.noise = n)
    (hrandom : channel.random channel.drawn = r) :
    Dialing r n ⟨noiseGreeting, [], [], []⟩ channel
  | waiting (channel : SecureChannelState) (heard : Bytes)
    (hspan : MultistreamSelect.exchangeSpan heard = .ok heard.length)
    (hstage : channel.stage = .noiseHandshake) (hwait : channel.handshakeState = .awaitingMsg2)
    (hnoise : channel.noise = (Noise.writeMsg1 S r n).2) :
    Dialing r n ⟨noiseGreeting, [(Noise.writeMsg1 S r n).1], heard, []⟩ channel
  | done (channel : SecureChannelState) (heard msg2 msg3 : Bytes)
    (hspan : MultistreamSelect.exchangeSpan heard = .ok heard.length)
    (hstage : channel.stage = .noiseHandshake) (hcomplete : channel.handshakeState = .complete)
    (hprocess : Noise.processMsg2 S msg2 (Noise.writeMsg1 S r n).2 = (.ok msg3, channel.noise)) :
    Dialing r n ⟨noiseGreeting, [(Noise.writeMsg1 S r n).1, msg3], heard, [msg2]⟩ channel

theorem dialing_followed (r : Entropy) (n : NoiseSession) : Followed S true (Dialing S r n) where
  advance := by
    intro u channel u' channel' h hadvance
    cases h with
    | proposing _ hstage hstate hnoise hrandom =>
      cases hadvance with
      | start heard framed keyLogs _ hspan =>
        rw [hrandom, hnoise]
        exact .waiting _ heard hspan rfl rfl rfl
      | msg1 _ _ _ _ _ hs => rw [hstage] at hs; cases hs
      | msg2 _ _ _ _ _ hs => rw [hstage] at hs; cases hs
      | msg3 _ _ _ _ hs => rw [hstage] at hs; cases hs
    | waiting _ heard hspan hstage hwait hnoise =>
      cases hadvance with
      | start _ _ _ hs => rw [hstage] at hs; cases hs
      | msg1 _ _ _ _ _ _ hw => rw [hwait] at hw; cases hw
      | msg2 _ frame msg3 noise keyLogs _ _ hprocess =>
        rw [hnoise] at hprocess
        exact .done _ heard frame msg3 hspan hstage rfl hprocess
      | msg3 _ _ _ _ _ hw => rw [hwait] at hw; cases hw
    | done _ _ _ _ _ hstage hcomplete =>
      cases hadvance with
      | start _ _ _ hs => rw [hstage] at hs; cases hs
      | msg1 _ _ _ _ _ _ hw => rw [hcomplete] at hw; cases hw
      | msg2 _ _ _ _ _ _ hw => rw [hcomplete] at hw; cases hw
      | msg3 _ _ _ _ _ hw => rw [hcomplete] at hw; cases hw
  fresh := by
    intro u channel h hstage hcomplete
    cases h with
    | proposing _ hs => rw [hstage] at hs; cases hs
    | waiting _ _ _ _ hwait => rw [hcomplete] at hwait; cases hwait
    | done _ _ _ _ _ _ _ hprocess => exact Noise.processMsg2_fresh hprocess

/-- What an initiator past its handshake has said and heard, and what that made of `noise`. -/
def Dialed (S : Noise.Sodium) (r : Entropy) (n : NoiseSession) (u : Upgrade) (noise : NoiseSession) :
    Prop :=
  ∃ heard msg2 msg3, MultistreamSelect.exchangeSpan heard = .ok heard.length ∧
    u = ⟨noiseGreeting, [(Noise.writeMsg1 S r n).1, msg3], heard, [msg2]⟩ ∧
    Noise.processMsg2 S msg2 (Noise.writeMsg1 S r n).2 = (.ok msg3, noise)

/-- The configuration of a session. -/
def configuration (identity : Option Identity) (streamMuxers : List ProtocolId) : NoiseSession :=
  { localIdentity := identity, localExtensions := ⟨streamMuxers⟩ }

/-- A new session when its upgrade begins. -/
theorem make_early (id : ConnectionId) (fd : ℤ) (addr : Multiaddr) (role : Bool)
    (identity : Option Identity) (streamMuxers : List ProtocolId) (random : ℕ → Entropy)
    (greeting : Bytes) :
    let c := (make id fd addr role identity streamMuxers random).core
    Early role ⟨greeting, [], [], []⟩ c.restart.secure { c.restart with io := c.io.queue greeting } := by
  refine ⟨rfl, rfl, rfl, ⟨?_, rfl, fun _ => rfl, ?_, ?_⟩, .inl ⟨rfl, rfl, rfl⟩, rfl, rfl, rfl⟩
  · exact (List.append_nil _).symm
  · nofun
  · nofun

theorem initiator_upgrade {id : ConnectionId} {fd : ℤ} {addr : Multiaddr}
    {identity : Option Identity} {streamMuxers : List ProtocolId} {random : ℕ → Entropy}
    {s : BasicConnectionSession}
    (hrun : Runs S NoRestart
      (step S (make id fd addr true identity streamMuxers random) .beginOutbound) s)
    (hs : s.Upgraded) :
    ∃ u noise, Dialed S (random 0) (configuration identity streamMuxers) u noise ∧
      Established S u noise s.core := by
  have hfollowed := dialing_followed (S := S) (random 0) (configuration identity streamMuxers)
  obtain ⟨c, hbegin, hout⟩ := beginOutboundUpgrade_starts (S := S)
    (s := make id fd addr true identity streamMuxers random) ⟨rfl, nofun, nofun⟩ (by
      rintro (h | h) <;> cases h) rfl
  have hfirst : Going S true (Dialing S (random 0) (configuration identity streamMuxers))
      (step S (make id fd addr true identity streamMuxers random) .beginOutbound).core := by
    cases hbegin with
    | outbound proposal _ _ _ hprepare =>
      cases hprepare
      have hearly := make_early id fd addr true identity streamMuxers random noiseGreeting
      exact .inr (.inl ⟨_, _, .proposing (BasicConnectionSession.core _).restart.secure rfl rfl rfl rfl,
        hearly.outMoves hout⟩)
    | inbound _ _ hrole => cases hrole
  have hgoing := hrun.noRestart_invariant (P := Going S true _)
    (fun _ _ h hmove => h.move hfollowed hmove) hfirst
  obtain ⟨u, channel, hphase, hcomplete, hestablished⟩ := hgoing.upgraded hs
  refine ⟨u, channel.noise, ?_, hestablished⟩
  cases hphase with
  | proposing _ _ hstate => rw [hcomplete] at hstate; cases hstate
  | waiting _ _ _ _ hwait => rw [hcomplete] at hwait; cases hwait
  | done _ heard msg2 msg3 hspan _ _ hprocess => exact ⟨heard, msg2, msg3, hspan, rfl, hprocess⟩

/-! ## The responder -/

variable (S) in
/-- The phases of a responder with the configuration `n` that draws `r`. -/
inductive Answering (r : Entropy) (n : NoiseSession) : Upgrade → SecureChannelState → Prop
  | listening (channel : SecureChannelState) (hstage : channel.stage = .negotiatingProtocol)
    (hstate : channel.handshakeState = .idle) (hnoise : channel.noise = n)
    (hrandom : channel.random channel.drawn = r) : Answering r n {} channel
  | accepted (channel : SecureChannelState) (heard : Bytes)
    (negotiated : MultistreamSelect.InboundNegotiation)
    (hspan : MultistreamSelect.exchangeSpan heard = .ok heard.length)
    (hnegotiate : MultistreamSelect.negotiateInbound heard [noiseProtocol] = .ok negotiated)
    (hprotocol : negotiated.protocol = some noiseProtocol)
    (hstage : channel.stage = .noiseHandshake) (hwait : channel.handshakeState = .awaitingMsg1)
    (hnoise : channel.noise = n) (hrandom : channel.random channel.drawn = r) :
    Answering r n ⟨negotiated.outbound, [], heard, []⟩ channel
  | waiting (channel : SecureChannelState) (heard msg1 msg2 : Bytes)
    (negotiated : MultistreamSelect.InboundNegotiation)
    (hspan : MultistreamSelect.exchangeSpan heard = .ok heard.length)
    (hnegotiate : MultistreamSelect.negotiateInbound heard [noiseProtocol] = .ok negotiated)
    (hprotocol : negotiated.protocol = some noiseProtocol)
    (hstage : channel.stage = .noiseHandshake) (hwait : channel.handshakeState = .awaitingMsg3)
    (hprocess : Noise.processMsg1 S r msg1 n = (.ok msg2, channel.noise)) :
    Answering r n ⟨negotiated.outbound, [msg2], heard, [msg1]⟩ channel
  | done (channel : SecureChannelState) (heard msg1 msg2 msg3 : Bytes) (noise : NoiseSession)
    (negotiated : MultistreamSelect.InboundNegotiation)
    (hspan : MultistreamSelect.exchangeSpan heard = .ok heard.length)
    (hnegotiate : MultistreamSelect.negotiateInbound heard [noiseProtocol] = .ok negotiated)
    (hprotocol : negotiated.protocol = some noiseProtocol)
    (hstage : channel.stage = .noiseHandshake) (hcomplete : channel.handshakeState = .complete)
    (hprocess : Noise.processMsg1 S r msg1 n = (.ok msg2, noise))
    (hfinish : Noise.processMsg3 S msg3 noise = (.ok (), channel.noise)) :
    Answering r n ⟨negotiated.outbound, [msg2], heard, [msg1, msg3]⟩ channel

theorem answering_followed (r : Entropy) (n : NoiseSession) :
    Followed S false (Answering S r n) where
  advance := by
    intro u channel u' channel' h hadvance
    cases h with
    | listening _ hstage hstate hnoise hrandom =>
      cases hadvance with
      | accept heard negotiated _ hspan hnegotiate hprotocol =>
        exact .accepted _ heard negotiated hspan hnegotiate hprotocol rfl rfl hnoise hrandom
      | msg1 _ _ _ _ _ hs => rw [hstage] at hs; cases hs
      | msg2 _ _ _ _ _ hs => rw [hstage] at hs; cases hs
      | msg3 _ _ _ _ hs => rw [hstage] at hs; cases hs
    | accepted _ heard negotiated hspan hnegotiate hprotocol hstage hwait hnoise hrandom =>
      cases hadvance with
      | accept _ _ hs => rw [hstage] at hs; cases hs
      | msg1 _ frame msg2 noise keyLogs _ _ hprocess =>
        rw [hrandom, hnoise] at hprocess
        exact .waiting _ heard frame msg2 negotiated hspan hnegotiate hprotocol hstage rfl hprocess
      | msg2 _ _ _ _ _ _ hw => rw [hwait] at hw; cases hw
      | msg3 _ _ _ _ _ hw => rw [hwait] at hw; cases hw
    | waiting _ heard msg1 msg2 negotiated hspan hnegotiate hprotocol hstage hwait hprocess =>
      cases hadvance with
      | accept _ _ hs => rw [hstage] at hs; cases hs
      | msg1 _ _ _ _ _ _ hw => rw [hwait] at hw; cases hw
      | msg2 _ _ _ _ _ _ hw => rw [hwait] at hw; cases hw
      | msg3 _ frame noise keyLogs _ _ hfinish =>
        exact .done _ heard msg1 msg2 frame _ negotiated hspan hnegotiate hprotocol hstage rfl hprocess
          hfinish
    | done _ _ _ _ _ _ _ _ _ _ hstage hcomplete =>
      cases hadvance with
      | accept _ _ hs => rw [hstage] at hs; cases hs
      | msg1 _ _ _ _ _ _ hw => rw [hcomplete] at hw; cases hw
      | msg2 _ _ _ _ _ _ hw => rw [hcomplete] at hw; cases hw
      | msg3 _ _ _ _ _ hw => rw [hcomplete] at hw; cases hw
  fresh := by
    intro u channel h hstage hcomplete
    cases h with
    | listening _ hs => rw [hstage] at hs; cases hs
    | accepted _ _ _ _ _ _ _ hwait => rw [hcomplete] at hwait; cases hwait
    | waiting _ _ _ _ _ _ _ _ _ hwait => rw [hcomplete] at hwait; cases hwait
    | done _ _ _ _ _ _ _ _ _ _ _ _ _ hfinish => exact Noise.processMsg3_fresh hfinish

/-- What a responder past its handshake has said and heard, and what that made of `noise`. -/
def Answered (S : Noise.Sodium) (r : Entropy) (n : NoiseSession) (u : Upgrade)
    (noise : NoiseSession) : Prop :=
  ∃ heard msg1 msg2 msg3 before negotiated,
    MultistreamSelect.exchangeSpan heard = .ok heard.length ∧
    MultistreamSelect.negotiateInbound heard [noiseProtocol] = .ok negotiated ∧
    negotiated.protocol = some noiseProtocol ∧
    u = ⟨negotiated.outbound, [msg2], heard, [msg1, msg3]⟩ ∧
    Noise.processMsg1 S r msg1 n = (.ok msg2, before) ∧
    Noise.processMsg3 S msg3 before = (.ok (), noise)

theorem responder_upgrade {id : ConnectionId} {fd : ℤ} {addr : Multiaddr}
    {identity : Option Identity} {streamMuxers : List ProtocolId} {random : ℕ → Entropy}
    {s : BasicConnectionSession}
    (hrun : Runs S NoRestart
      (step S (make id fd addr false identity streamMuxers random) .beginInbound) s)
    (hs : s.Upgraded) :
    ∃ u noise, Answered S (random 0) (configuration identity streamMuxers) u noise ∧
      Established S u noise s.core := by
  have hfollowed := answering_followed (S := S) (random 0) (configuration identity streamMuxers)
  have hfirst : Going S false (Answering S (random 0) (configuration identity streamMuxers))
      (step S (make id fd addr false identity streamMuxers random) .beginInbound).core := by
    have hearly := make_early id fd addr false identity streamMuxers random []
    exact .inr (.inl ⟨_, _, .listening (BasicConnectionSession.core _).restart.secure rfl rfl rfl rfl,
      hearly⟩)
  have hgoing := hrun.noRestart_invariant (P := Going S false _)
    (fun _ _ h hmove => h.move hfollowed hmove) hfirst
  obtain ⟨u, channel, hphase, hcomplete, hestablished⟩ := hgoing.upgraded hs
  refine ⟨u, channel.noise, ?_, hestablished⟩
  cases hphase with
  | listening _ _ hstate => rw [hcomplete] at hstate; cases hstate
  | accepted _ _ _ _ _ _ _ hwait => rw [hcomplete] at hwait; cases hwait
  | waiting _ _ _ _ _ _ _ _ _ hwait => rw [hcomplete] at hwait; cases hwait
  | done _ heard msg1 msg2 msg3 before negotiated hspan hnegotiate hprotocol _ _ hprocess hfinish =>
    exact ⟨heard, msg1, msg2, msg3, before, negotiated, hspan, hnegotiate, hprotocol, rfl, hprocess,
      hfinish⟩

end PeerCore.Connection
