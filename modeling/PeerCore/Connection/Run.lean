import PeerCore.Connection.Moves

/-!
# Runs of one session

What can happen to a session: its owner and the users of its streams call it, its
socket becomes ready, and the operating system decides how its calls will end.
`Begin` and `Move` list everything that can happen to the core of a session, and each
action is a sequence of them (`step_moves`, `step_begin`). A handshake or muxer exchange that fails is one
move together with the closing that follows it, so what is true of every session
that is not closed is not disturbed in between.
-/

namespace PeerCore.Connection

open BasicConnectionSession

/-- What can happen to a session. `answers` sets what the next calls of `send` and
    `shutdown` will do. -/
inductive Action
  | answers (sends : List SendAnswer) (shutdownError : Option String)
  | readable (answers : List RecvAnswer)
  | writable
  | timeout
  | beginOutbound
  | beginInbound
  | openStream (protocol : ProtocolId)
  | acceptStream
  | nextEvent
  | close
  | tryRead (handle : StreamHandle) (size : ℕ)
  | tryWrite (handle : StreamHandle) (data : Bytes)
  | closeWrite (handle : StreamHandle)
  | reset (handle : StreamHandle)

/-- An upgrade call. -/
def Action.isBegin : Action → Bool
  | .beginOutbound | .beginInbound => true
  | _ => false

variable (S : Noise.Sodium)

/-- The session after an action. -/
def step (s : BasicConnectionSession) : Action → BasicConnectionSession
  | .answers sends shutdownError =>
    { s with io := { s.io with socket := { s.io.socket with sends, shutdownError } } }
  | .readable answers => onSocketReadable S answers s
  | .writable => onSocketWritable s
  | .timeout => onTimeout s
  | .beginOutbound => (beginOutboundUpgrade s).2
  | .beginInbound => (beginInboundUpgrade s).2
  | .openStream protocol => (requestOpenStream S protocol s).2
  | .acceptStream => (acceptInboundStream s).2
  | .nextEvent => (nextEvent s).2
  | .close => Connection.close s
  | .tryRead handle size => (streamTryRead S handle size s).2
  | .tryWrite handle data => (streamTryWrite S handle data s).2
  | .closeWrite handle => (streamCloseWrite S handle s).2
  | .reset handle => (streamReset S handle s).2

/-- The states of the runs from `s` whose actions are allowed where they happen. -/
inductive Runs (allowed : BasicConnectionSession → Action → Prop) (s : BasicConnectionSession) :
    BasicConnectionSession → Prop
  | refl : Runs allowed s s
  | step {t : BasicConnectionSession} (h : Runs allowed s t) (a : Action) (ha : allowed t a) :
    Runs allowed s (step S t a)

variable {S}

/-- A property that every allowed action keeps holds in every state of a run. -/
theorem Runs.invariant {allowed : BasicConnectionSession → Action → Prop}
    {P : BasicConnectionSession → Prop} {s t : BasicConnectionSession} (h : Runs S allowed s t)
    (hs : P s) (hstep : ∀ s a, P s → allowed s a → P (Connection.step S s a)) : P t := by
  induction h with
  | refl => exact hs
  | step _ a ha ih => exact hstep _ a ih ha

/-! ## Ending -/

/-- The core after `close`. -/
theorem close_core (s : BasicConnectionSession) :
    (close s).core =
      if s.state = .closed then s.core
      else { s.core with io := closeSocket s.io, state := .closed } := by
  unfold close
  split_ifs with hclosed
  · rfl
  · extract_lets s₁ s₂ s₃
    have h₂ : s₂.core = s₁.core := by
      unfold s₂
      cases s₁.streamState <;> rfl
    have h₃ : s₃.core = { s.core with io := closeSocket s.io, state := .closed } := by
      have : s₃.core = { s₂.core with state := .closed } := rfl
      rw [this, h₂]
      rfl
    split_ifs
    · exact h₃
    · exact h₃

theorem emitError_core (detail : Bytes) (s : BasicConnectionSession) :
    (emitError detail s).core =
      if s.state = .failed ∨ s.state = .closed then s.core else { s.core with state := .failed } := by
  unfold emitError
  split_ifs <;> rfl

/-- `emit_error` and `close` together. -/
theorem close_emitError_core (detail : Bytes) (s : BasicConnectionSession) :
    (close (emitError detail s)).core =
      if s.state = .closed then s.core
      else { s.core with io := closeSocket s.io, state := .closed } := by
  have hstate : (emitError detail s).state = (emitError detail s).core.state := rfl
  have hio : (emitError detail s).io = (emitError detail s).core.io := rfl
  rw [close_core, hstate, hio, emitError_core]
  by_cases hclosed : s.state = .closed
  · simp [hclosed, BasicConnectionSession.core]
  · by_cases hfailed : s.state = .failed <;> simp [hclosed, hfailed, BasicConnectionSession.core]

/-! ## Moves -/

/-- The socket callbacks and the upgrade calls do something. -/
def Core.Active (c : Core) : Prop :=
  c.io.socketOpen = true ∧ c.state ≠ .closed ∧ c.state ≠ .failed

/-- Closed, as by `close`. -/
def Core.shut (c : Core) : Core := { c with io := closeSocket c.io, state := .closed }

/-- What both upgrade calls do first. -/
def Core.restart (c : Core) : Core :=
  { c with
    state := .securing
    secure := { c.secure with stage := .negotiatingProtocol, handshakeState := .idle } }

/-- The receive buffer is replaced. -/
def Core.setRx (c : Core) (wireRx : Bytes) : Core := { c with io := { c.io with wireRx } }

/-- The channel is ready for data. -/
def Core.complete (c : Core) : Core :=
  { c with secure := { c.secure with stage := .ready, secureReady := true }, state := .ready }

/-- A muxer is adopted, if the exchange ended with one. -/
def Core.adopt (c : Core) : Option ProtocolId → Core
  | some muxer => { c with
      secure := { c.secure with negotiatedStreamMuxer := some muxer }
      hasYamux := if muxer = yamuxProtocol then true else c.hasYamux }
  | none => c

/-- The buffer behind the muxer exchange. -/
def Core.dropExchange (c : Core) (span : ℕ) : Core :=
  { c with muxerNegotiationBuffer := c.muxerNegotiationBuffer.drop span }

/-- Waiting for a handshake message. -/
structure Core.Handshaking (c : Core) (expected : HandshakeState) : Prop where
  active : c.Active
  stage : c.secure.stage = .noiseHandshake
  secureReady : c.secure.secureReady = false
  handshakeState : c.secure.handshakeState = expected

/-- The handshake is done, and the remote peer is the expected one. -/
structure Core.Finishing (c : Core) : Prop extends c.Handshaking .complete where
  validated : ∃ s : BasicConnectionSession, s.core = c ∧ validateExpectedRemotePeer s = .ok ()

/-- In the muxer exchange. -/
structure Core.Exchanging (c : Core) : Prop where
  active : c.Active
  stage : c.secure.stage = .muxerNegotiation
  secureReady : c.secure.secureReady = false

/-- The secure channel at the start of the muxer exchange. -/
def SecureChannelState.select (secure : SecureChannelState) (stage : SecurityStage) :
    SecureChannelState :=
  { secure with negotiatedStreamMuxer := selectStreamMuxer secure.noise, stage }

/-- The channel when random bytes were drawn. -/
def SecureChannelState.draw (secure : SecureChannelState) : SecureChannelState :=
  { secure with drawn := secure.drawn + 1 }

/-- How the answer to the proposal of an initiator ends the exchange. -/
def Adopted (exchange : Bytes) (muxers : List ProtocolId) : Option ProtocolId → Prop
  | some muxer => MultistreamSelect.readOutboundResponse exchange (muxers.headD []) = .ok muxer
  | none => MultistreamSelect.readOutboundResponse exchange (muxers.headD []) =
      .error "protocol not supported"

/-- An upgrade call that (re)starts the upgrade. -/
inductive Begin : Core → Core → Prop
  | outbound (c : Core) (proposal : Bytes) (hactive : c.Active)
    (hsecure : c.secure.secureReady = false) (hrole : c.isInitiator = true)
    (hprepare : MultistreamSelect.prepareOutbound [noiseProtocol] = .ok proposal) :
    Begin c { c.restart with io := c.io.queue proposal }
  | inbound (c : Core) (hactive : c.Active) (hsecure : c.secure.secureReady = false)
    (hrole : c.isInitiator = false) : Begin c c.restart

theorem Begin.guard {c c' : Core} (h : Begin c c') : c.Active ∧ c.secure.secureReady = false := by
  cases h with
  | outbound _ hactive hsecure => exact ⟨hactive, hsecure⟩
  | inbound hactive hsecure => exact ⟨hactive, hsecure⟩

variable (S) in
/-- What one call of a handshake function makes of the channel, whatever it returns. -/
inductive Handshook (secure : SecureChannelState) : SecureChannelState → Prop
  | none : Handshook secure secure
  | start :
    Handshook secure { secure with
      noise := (Noise.writeMsg1 S (secure.random secure.drawn) secure.noise).2
      drawn := secure.drawn + 1
      keyLogs := secure.draw.keysAfter (Noise.writeMsg1Traced S (secure.random secure.drawn)) }
  | msg1 (frame : Bytes) {result : Result Bytes} {noise : Noise.NoiseSession}
    (hprocess : Noise.processMsg1 S (secure.random secure.drawn) frame secure.noise =
      (result, noise)) :
    Handshook secure { secure with
      noise, drawn := secure.drawn + 1
      keyLogs := secure.draw.keysAfter
        (Noise.processMsg1Traced S (secure.random secure.drawn) frame) }
  | msg2 (frame : Bytes) {result : Result Bytes} {noise : Noise.NoiseSession}
    (hwait : secure.handshakeState = .awaitingMsg2)
    (hprocess : Noise.processMsg2 S frame secure.noise = (result, noise)) :
    Handshook secure { secure with
      noise, keyLogs := secure.keysAfter (Noise.processMsg2Traced S frame) }
  | msg3 (frame : Bytes) {result : Result Unit} {noise : Noise.NoiseSession}
    (hwait : secure.handshakeState = .awaitingMsg3)
    (hprocess : Noise.processMsg3 S frame secure.noise = (result, noise)) :
    Handshook secure { secure with
      noise, keyLogs := secure.keysAfter (Noise.processMsg3Traced S frame) }

variable (S) in
/-- One step of the core of a session, the upgrade calls apart. -/
inductive Move : Core → Core → Prop
  | out {c c' : Core} (h : OutMove S c c') : Move c c'
  | socket (c : Core) (sends : List SendAnswer) (shutdownError : Option String) :
    Move c { c with io := { c.io with socket := { c.io.socket with sends, shutdownError } } }
  | recv (c : Core) (bytes : Bytes) (hactive : c.Active) :
    Move c { c with io := c.io.recv bytes }
  | close (c : Core) : Move c c.shut
  | closeSocket (c : Core) : Move c { c with io := closeSocket c.io }
  | startNoise (c : Core) (span : ℕ) (proposal framed : Bytes) (hactive : c.Active)
    (hstage : c.secure.stage = .negotiatingProtocol) (hrole : c.isInitiator = true)
    (hspan : MultistreamSelect.exchangeSpan c.io.wireRx = .ok span)
    (hread : MultistreamSelect.readOutboundResponse (c.io.wireRx.take span) noiseProtocol =
      .ok proposal)
    (hframe : Noise.encodeFrame
      (Noise.writeMsg1 S (c.secure.random c.secure.drawn) c.secure.noise).1 = .ok framed)
    (hmsg1 : (Noise.writeMsg1 S (c.secure.random c.secure.drawn) c.secure.noise).1 ≠ []) :
    Move c { c with
      io := ({ c.io with wireRx := c.io.wireRx.drop span }).queue framed
      secure := { c.secure with
        noise := (Noise.writeMsg1 S (c.secure.random c.secure.drawn) c.secure.noise).2
        drawn := c.secure.drawn + 1
        keyLogs := c.secure.draw.keysAfter
          (Noise.writeMsg1Traced S (c.secure.random c.secure.drawn))
        stage := .noiseHandshake, handshakeState := .awaitingMsg2 } }
  | acceptNoise (c c' : Core) (span : ℕ) (negotiated : MultistreamSelect.InboundNegotiation)
    (hactive : c.Active)
    (hstage : c.secure.stage = .negotiatingProtocol) (hrole : c.isInitiator = false)
    (hspan : MultistreamSelect.exchangeSpan c.io.wireRx = .ok span)
    (hnegotiate : MultistreamSelect.negotiateInbound (c.io.wireRx.take span) [noiseProtocol] =
      .ok negotiated)
    (hnoise : negotiated.protocol = some noiseProtocol)
    (hout : OutMoves S { c with io := c.io.queue negotiated.outbound } c') :
    Move c { c'.setRx (c'.io.wireRx.drop span) with
      secure := { c'.secure with stage := .noiseHandshake, handshakeState := .awaitingMsg1 } }
  | acceptNoiseFail (c c' : Core) (outbound : Bytes) (hactive : c.Active)
    (hstage : c.secure.stage = .negotiatingProtocol) (hrole : c.isInitiator = false)
    (hout : OutMoves S { c with io := c.io.queue outbound } c') : Move c c'.shut
  | msg1 (c : Core) (frame rest msg2 framed : Bytes) (noise : Noise.NoiseSession)
    (hwait : c.Handshaking .awaitingMsg1)
    (hpop : tryPopWireFrame c.io.wireRx = .ok (some (frame, rest)))
    (hprocess : Noise.processMsg1 S (c.secure.random c.secure.drawn) frame c.secure.noise =
      (.ok msg2, noise))
    (hframe : Noise.encodeFrame msg2 = .ok framed) :
    Move c { c with
      io := ({ c.io with wireRx := rest }).queue framed
      secure := { c.secure with
        noise, drawn := c.secure.drawn + 1
        keyLogs := c.secure.draw.keysAfter
          (Noise.processMsg1Traced S (c.secure.random c.secure.drawn) frame)
        handshakeState := .awaitingMsg3 } }
  | msg2 (c : Core) (frame rest msg3 framed : Bytes) (noise : Noise.NoiseSession)
    (hwait : c.Handshaking .awaitingMsg2)
    (hpop : tryPopWireFrame c.io.wireRx = .ok (some (frame, rest)))
    (hprocess : Noise.processMsg2 S frame c.secure.noise = (.ok msg3, noise))
    (hframe : Noise.encodeFrame msg3 = .ok framed) :
    Move c { c with
      io := ({ c.io with wireRx := rest }).queue framed
      secure := { c.secure with
        noise, keyLogs := c.secure.keysAfter (Noise.processMsg2Traced S frame)
        handshakeState := .complete } }
  | msg3 (c : Core) (frame rest : Bytes) (noise : Noise.NoiseSession)
    (hwait : c.Handshaking .awaitingMsg3)
    (hpop : tryPopWireFrame c.io.wireRx = .ok (some (frame, rest)))
    (hprocess : Noise.processMsg3 S frame c.secure.noise = (.ok (), noise)) :
    Move c { c.setRx rest with
      secure := { c.secure with
        noise, keyLogs := c.secure.keysAfter (Noise.processMsg3Traced S frame)
        handshakeState := .complete } }
  | fail (c : Core) (wireRx : Bytes) (secure : SecureChannelState) (hactive : c.Active)
    (hstage : c.secure.stage = .negotiatingProtocol ∨ c.secure.stage = .noiseHandshake)
    (hcomplete : c.secure.stage = .noiseHandshake → c.secure.handshakeState = .complete →
      secure = c.secure)
    (hstage' : secure.stage = .negotiatingProtocol ∨ secure.stage = .noiseHandshake)
    (hready : secure.secureReady = c.secure.secureReady)
    (hkeys : ∃ keyed, Handshook S c.secure keyed ∧
      secure = { keyed with stage := secure.stage, handshakeState := secure.handshakeState }) :
    Move c { c.setRx wireRx with secure }.shut
  | finishYamux (c : Core) (hfinish : c.Finishing)
    (hselect : selectStreamMuxer c.secure.noise = some yamuxProtocol) :
    Move c { c with secure := c.secure.select .ready, hasYamux := true }.complete
  | finishDirect (c : Core) (hfinish : c.Finishing)
    (hselect : selectStreamMuxer c.secure.noise ≠ some yamuxProtocol)
    (hlocal : c.secure.noise.localExtensions.streamMuxers = []) :
    Move c { c with secure := c.secure.select .ready }.complete
  | finishInbound (c : Core) (hfinish : c.Finishing)
    (hselect : selectStreamMuxer c.secure.noise ≠ some yamuxProtocol)
    (hlocal : c.secure.noise.localExtensions.streamMuxers ≠ []) (hrole : c.isInitiator = false) :
    Move c { c with secure := c.secure.select .muxerNegotiation }
  | finishOutbound (c : Core) (proposal ciphertext framed : Bytes) (secure : SecureChannelState)
    (hfinish : c.Finishing) (hselect : selectStreamMuxer c.secure.noise ≠ some yamuxProtocol)
    (hlocal : c.secure.noise.localExtensions.streamMuxers ≠ []) (hrole : c.isInitiator = true)
    (hprepare : MultistreamSelect.prepareOutbound c.secure.noise.localExtensions.streamMuxers =
      .ok proposal)
    (hseal : sealMessage S proposal (c.secure.select .muxerNegotiation) = (.ok ciphertext, secure))
    (hframe : Noise.encodeFrame ciphertext = .ok framed) :
    Move c { c with secure, io := c.io.queue framed }
  | finishFail (c : Core) (proposal : Bytes) (secure : SecureChannelState) (hfinish : c.Finishing)
    (hsecure : secure = c.secure.select .muxerNegotiation ∨
      ∃ ciphertext, sealMessage S proposal (c.secure.select .muxerNegotiation) =
        (.ok ciphertext, secure))
    (hlost : secure ≠ c.secure.select .muxerNegotiation → ∃ ciphertext error,
      sealMessage S proposal (c.secure.select .muxerNegotiation) = (.ok ciphertext, secure) ∧
        Noise.encodeFrame ciphertext = .error error) :
    Move c { c with secure }.shut
  | openMuxer (c : Core) (frame rest plaintext : Bytes) (secure : SecureChannelState)
    (hexchange : c.Exchanging)
    (hpop : tryPopWireFrame c.io.wireRx = .ok (some (frame, rest)))
    (hopen : openMessage S frame c.secure = (.ok plaintext, secure)) :
    Move c { c.setRx rest with
      secure, muxerNegotiationBuffer := c.muxerNegotiationBuffer ++ plaintext }
  | openData (c : Core) (frame rest plaintext : Bytes) (secure : SecureChannelState)
    (hactive : c.Active) (hready : c.secure.secureReady = true)
    (hpop : tryPopWireFrame c.io.wireRx = .ok (some (frame, rest)))
    (hopen : openMessage S frame c.secure = (.ok plaintext, secure)) :
    Move c { c.setRx rest with secure }
  | openFail (c : Core) (frame rest : Bytes) (error : String) (secure : SecureChannelState)
    (hactive : c.Active)
    (hkeys : c.secure.stage = .muxerNegotiation ∨ c.secure.secureReady = true)
    (hpop : tryPopWireFrame c.io.wireRx = .ok (some (frame, rest)))
    (hopen : openMessage S frame c.secure = (.error error, secure)) :
    Move c { c.setRx rest with secure }.shut
  | muxerOutbound (c : Core) (span : ℕ) (muxer : Option ProtocolId) (hexchange : c.Exchanging)
    (hrole : c.isInitiator = true)
    (hspan : MultistreamSelect.exchangeSpan c.muxerNegotiationBuffer = .ok span)
    (hadopt : Adopted (c.muxerNegotiationBuffer.take span)
      c.secure.noise.localExtensions.streamMuxers muxer) :
    Move c ((c.adopt muxer).dropExchange span).complete
  | muxerInbound (c c' : Core) (span : ℕ) (negotiated : MultistreamSelect.InboundNegotiation)
    (ciphertext framed : Bytes) (secure : SecureChannelState) (hexchange : c.Exchanging)
    (hrole : c.isInitiator = false)
    (hspan : MultistreamSelect.exchangeSpan c.muxerNegotiationBuffer = .ok span)
    (hnegotiate : MultistreamSelect.negotiateInbound (c.muxerNegotiationBuffer.take span)
      c.secure.noise.localExtensions.streamMuxers = .ok negotiated)
    (hseal : sealMessage S negotiated.outbound c.secure = (.ok ciphertext, secure))
    (hframe : Noise.encodeFrame ciphertext = .ok framed)
    (hout : OutMoves S { c with secure, io := c.io.queue framed } c') :
    Move c ((c'.adopt negotiated.protocol).dropExchange span).complete
  | muxerInboundFail (c c' : Core) (outbound ciphertext framed : Bytes)
    (secure : SecureChannelState) (hexchange : c.Exchanging)
    (hrole : c.isInitiator = false)
    (hseal : sealMessage S outbound c.secure = (.ok ciphertext, secure))
    (hout : OutMoves S { c with secure, io := c.io.queue framed } c')
    (hframe : Noise.encodeFrame ciphertext = .ok framed) :
    Move c c'.shut
  | muxerInboundLost (c : Core) (outbound ciphertext : Bytes) (secure : SecureChannelState)
    (hexchange : c.Exchanging) (hrole : c.isInitiator = false)
    (hseal : sealMessage S outbound c.secure = (.ok ciphertext, secure))
    (hlost : ∃ error, Noise.encodeFrame ciphertext = .error error) :
    Move c { c with secure }.shut

variable (S) in
/-- Any number of moves. -/
def Moves : Core → Core → Prop := Relation.ReflTransGen (Move S)

theorem Moves.refl (c : Core) : Moves S c c := Relation.ReflTransGen.refl

theorem Moves.trans {a b c : Core} (h : Moves S a b) (h' : Moves S b c) : Moves S a c :=
  Relation.ReflTransGen.trans h h'

theorem Move.single {a b : Core} (h : Move S a b) : Moves S a b := Relation.ReflTransGen.single h

theorem OutMoves.moves {a b : Core} (h : OutMoves S a b) : Moves S a b := by
  induction h with
  | refl => exact Moves.refl _
  | tail _ hstep ih => exact ih.trans (Move.out hstep).single

theorem Writes.moves {α : Type} {x : Method α} (h : Writes S x) (s : BasicConnectionSession) :
    Moves S s.core (x s).2.core := OutMoves.moves (h s)

/-- A property that every move keeps is kept by sequences of moves. -/
theorem Moves.invariant {P : Core → Prop} {a b : Core} (h : Moves S a b)
    (hmove : ∀ c c', P c → Move S c c' → P c') (ha : P a) : P b := by
  induction h with
  | refl => exact ha
  | tail _ hstep ih => exact hmove _ _ ih hstep

theorem close_moves (s : BasicConnectionSession) : Moves S s.core (close s).core := by
  rw [close_core]
  split_ifs
  · exact Moves.refl _
  · exact (Move.close s.core).single

theorem close_emitError_moves (detail : Bytes) (s : BasicConnectionSession) :
    Moves S s.core (close (emitError detail s)).core := by
  rw [close_emitError_core]
  split_ifs
  · exact Moves.refl _
  · exact (Move.close s.core).single

end PeerCore.Connection
