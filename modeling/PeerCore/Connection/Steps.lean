import PeerCore.Connection.Run

/-!
# Every action is a sequence of moves

* `processHandshakeFrame_ends`, `muxerFramesLoop_ends`, `dataLoop_ends`, …: a method
  that succeeds makes moves; one that fails makes moves once its caller has closed
  the session.
* `step_moves`, `step_begin`: what an action does to the core.
* `Runs.core_invariant`: the induction over a run.
-/

namespace PeerCore.Connection

open BasicConnectionSession

variable {S : Noise.Sodium}

variable (S) in
/-- How input is processed: a session that stays active has moved, and so has one that
    fails and is then closed. -/
def Ended (c : Core) : Result Unit → Core → Prop
  | .ok _, c' => Moves S c c' ∧ c'.Active
  | .error _, c' => Moves S c c'.shut ∧ c'.state ≠ .closed

theorem Ended.after {a b c : Core} {r : Result Unit} (hmoves : Moves S a b) (h : Ended S b r c) :
    Ended S a r c := by
  cases r with
  | ok => exact ⟨hmoves.trans h.1, h.2⟩
  | error => exact ⟨hmoves.trans h.1, h.2⟩

theorem Ended.bind {x : Method Unit} {f : Unit → Method Unit} {s : BasicConnectionSession} {c : Core}
    (hx : Ended S c (x s).1 (x s).2.core)
    (hf : ∀ s', x s = (.ok (), s') → s'.core.Active → Ended S s'.core (f () s').1 (f () s').2.core) :
    Ended S c ((x >>= f) s).1 ((x >>= f) s).2.core := by
  rw [Op.bind_apply]
  rcases hrun : x s with ⟨e | _, s'⟩
  · rw [hrun] at hx
    exact hx
  · rw [hrun] at hx
    exact (hf s' hrun hx.2).after hx.1

theorem OutFrame.active {c c' : Core} (h : OutFrame c c') (hactive : c.Active) : c'.Active := by
  unfold Core.Active
  rw [h.socketOpen, h.state]
  exact hactive

theorem Core.Active.complete {c : Core} (h : c.Active) : c.complete.Active := ⟨h.1, nofun, nofun⟩

/-- A method that only writes. -/
theorem Writes.ended {x : Method Unit} (hx : Writes S x) (s : BasicConnectionSession)
    (hactive : s.core.Active) : Ended S s.core (x s).1 (x s).2.core := by
  have hout : OutMoves S s.core (x s).2.core := hx s
  cases (x s).1 with
  | ok => exact ⟨hout.moves, hout.frame.active hactive⟩
  | error => exact ⟨hout.moves.trans (Move.close _).single, (hout.frame.active hactive).2.1⟩

/-- A step that fails without a change. -/
theorem Ended.unchanged {c : Core} {e : String} (hactive : c.Active) : Ended S c (.error e) c :=
  ⟨(Move.close c).single, hactive.2.1⟩

/-! ## The upgrade -/

/-- A handshake step that fails. -/
theorem Ended.fail {c : Core} {e : String} (wireRx : Bytes) (secure : SecureChannelState)
    (hactive : c.Active)
    (hstage : c.secure.stage = .negotiatingProtocol ∨ c.secure.stage = .noiseHandshake)
    (hcomplete : c.secure.stage = .noiseHandshake → c.secure.handshakeState = .complete →
      secure = c.secure)
    (hstage' : secure.stage = .negotiatingProtocol ∨ secure.stage = .noiseHandshake)
    (hready : secure.secureReady = c.secure.secureReady)
    (hkeys : ∃ keyed, Handshook S c.secure keyed ∧
      secure = { keyed with stage := secure.stage, handshakeState := secure.handshakeState }) :
    Ended S c (.error e) { c.setRx wireRx with secure } :=
  ⟨(Move.fail c wireRx secure hactive hstage hcomplete hstage' hready hkeys).single, hactive.2.1⟩

theorem queueWireMessage_apply (message : Bytes) (s : BasicConnectionSession) :
    onIo (queueWireMessage message) s = match Noise.encodeFrame message with
      | .ok framed => (.ok (), { s with io := s.io.queue framed })
      | .error e => (.error e, s) := by
  unfold onIo Op.zoom queueWireMessage
  rw [Op.bind_apply, Op.ofResult_apply]
  cases Noise.encodeFrame message <;> rfl

theorem onNoise_apply {α β : Type} (traced : Noise.Traced β) (x : Op Noise.NoiseSession α)
    (s : BasicConnectionSession) :
    onSecure (onNoise traced x) s = ((x s.secure.noise).1,
      { s with
        secure := { s.secure with
          noise := (x s.secure.noise).2, keyLogs := s.secure.keysAfter traced } }) := rfl

theorem drawEntropy_apply (s : BasicConnectionSession) :
    onSecure drawEntropy s = (.ok (s.secure.random s.secure.drawn),
      { s with secure := { s.secure with drawn := s.secure.drawn + 1 } }) := rfl

/-- Reading the answer to the proposal of `/noise`. -/
theorem startNoiseHandshake_ends {s : BasicConnectionSession} {span : ℕ} {proposal : ProtocolId}
    (hactive : s.core.Active) (hstage : s.secure.stage = .negotiatingProtocol)
    (hrole : s.isInitiator = true)
    (hspan : MultistreamSelect.exchangeSpan s.io.wireRx = .ok span)
    (hread : MultistreamSelect.readOutboundResponse (s.io.wireRx.take span) noiseProtocol =
      .ok proposal) :
    Ended S s.core ((do eraseRx span; startNoiseHandshake S : Method Unit) s).1
      ((do eraseRx span; startNoiseHandshake S : Method Unit) s).2.core := by
  have hcomplete : ∀ secure : SecureChannelState, s.secure.stage = .noiseHandshake →
      s.secure.handshakeState = .complete → secure = s.secure := fun _ h => by
    rw [hstage] at h
    cases h
  simp only [eraseRx, startNoiseHandshake, Op.bind_apply, Op.modify_apply, drawEntropy_apply,
    onNoise_apply, Op.update_apply]
  split_ifs with hempty
  · exact Ended.fail _ _ hactive (.inl hstage) (hcomplete _) (.inl hstage) rfl ⟨_, .start, rfl⟩
  · simp only [Op.bind_apply, Op.modify_apply, queueWireMessage_apply]
    cases hframe : Noise.encodeFrame
        (Noise.writeMsg1 S (s.secure.random s.secure.drawn) s.secure.noise).1 with
    | error e =>
      exact Ended.fail _ _ hactive (.inl hstage) (hcomplete _) (.inr rfl) rfl ⟨_, .start, rfl⟩
    | ok framed =>
      refine Ended.after (Move.startNoise s.core span proposal framed hactive hstage hrole hspan hread
        hframe hempty).single ?_
      dsimp only
      exact flushPendingWrites_out.ended _ hactive

theorem processProtocolNegotiation_ends (s : BasicConnectionSession) (hactive : s.core.Active)
    (hstage : s.secure.stage = .negotiatingProtocol) :
    Ended S s.core (processProtocolNegotiation S s).1 (processProtocolNegotiation S s).2.core := by
  unfold processProtocolNegotiation
  rw [Op.bind_apply, Op.get_apply]
  dsimp only
  cases hspan : MultistreamSelect.exchangeSpan s.io.wireRx with
  | error e =>
    dsimp only
    split_ifs
    · exact ⟨Moves.refl _, hactive⟩
    · exact Ended.unchanged hactive
  | ok span =>
    dsimp only
    split_ifs with hrole
    · rw [Op.bind_apply, Op.ofResult_apply]
      cases hread : MultistreamSelect.readOutboundResponse (s.io.wireRx.take span) noiseProtocol with
      | error e => exact Ended.unchanged hactive
      | ok proposal => exact startNoiseHandshake_ends hactive hstage hrole hspan hread
    · rw [Op.bind_apply, Op.ofResult_apply]
      cases hneg : MultistreamSelect.negotiateInbound (s.io.wireRx.take span) [noiseProtocol] with
      | error e => exact Ended.unchanged hactive
      | ok negotiated =>
        dsimp only
        split_ifs with hnoise
        · exact Ended.unchanged hactive
        · rw [ne_eq, Decidable.not_not] at hnoise
          rw [Bool.not_eq_true] at hrole
          have hout := flushPendingWrites_out (S := S)
            { s with io := s.io.queue negotiated.outbound }
          simp only [queueRawBytes, onIo, Op.zoom, Op.bind_apply, Op.modify_apply]
          rcases hflush : flushPendingWrites { s with io := s.io.queue negotiated.outbound }
            with ⟨e | _, s'⟩
          · rw [hflush] at hout
            exact ⟨(Move.acceptNoiseFail s.core s'.core negotiated.outbound hactive hstage hrole
              hout).single, (hout.frame.active hactive).2.1⟩
          · rw [hflush] at hout
            simp only [eraseRx, Op.modify_apply]
            exact ⟨(Move.acceptNoise s.core s'.core span negotiated hactive hstage hrole hspan hneg
              hnoise hout).single, hout.frame.active hactive⟩

/-! ## Becoming ready -/

theorem completeReadyState_core (s : BasicConnectionSession) :
    (completeReadyState s).core = s.core.complete := by
  unfold completeReadyState
  extract_lets
  split_ifs
  · exact (core_createStream none true _).trans rfl
  · rfl

/-- `queue_encrypted_message` by what becomes of the message. -/
theorem queueEncryptedMessage_cases (data : Bytes) (s : BasicConnectionSession) :
    (∃ e, queueEncryptedMessage S data s = (.error e, s)) ∨
    (∃ ciphertext secure e, sealMessage S data s.secure = (.ok ciphertext, secure) ∧
      Noise.encodeFrame ciphertext = .error e ∧
      queueEncryptedMessage S data s = (.error e, { s with secure })) ∨
    (∃ ciphertext secure framed, sealMessage S data s.secure = (.ok ciphertext, secure) ∧
      Noise.encodeFrame ciphertext = .ok framed ∧
      queueEncryptedMessage S data s = onIo flushWire { s with secure, io := s.io.queue framed }) := by
  unfold queueEncryptedMessage
  simp only [Op.bind_apply]
  rcases hseal : sealMessage S data s.secure with ⟨e | ciphertext, secure⟩
  · refine .inl ⟨e, ?_⟩
    simp only [onSecure, Op.zoom, hseal]
    rw [sealMessage_error hseal]
  · simp only [onSecure, Op.zoom, hseal, queueWireMessage_apply]
    cases hframe : Noise.encodeFrame ciphertext with
    | error e => exact .inr (.inl ⟨ciphertext, secure, e, rfl, hframe, rfl⟩)
    | ok framed => exact .inr (.inr ⟨ciphertext, secure, framed, rfl, hframe, rfl⟩)

theorem finishSecureUpgrade_ends (s : BasicConnectionSession)
    (hcomplete : s.core.Handshaking .complete) :
    Ended S s.core (finishSecureUpgrade S s).1 (finishSecureUpgrade S s).2.core := by
  have hsecure : s.secure.secureReady = false := hcomplete.secureReady
  unfold finishSecureUpgrade
  rw [Op.bind_apply, Op.get_apply]
  dsimp only
  rw [hsecure, if_neg (by simp), Op.bind_apply, Op.ofResult_apply]
  cases hvalid : validateExpectedRemotePeer s with
  | error e => exact Ended.unchanged hcomplete.active
  | ok _ =>
    have hfinish : s.core.Finishing := ⟨hcomplete, s, rfl, hvalid⟩
    simp only [Op.bind_apply, Op.modify_apply, Op.get_apply]
    split_ifs with hselect hlocal hrole
    · simp only [Op.modify_apply, completeReadyState_core]
      exact ⟨(Move.finishYamux s.core hfinish hselect).single, hcomplete.active.complete⟩
    · simp only [Op.bind_apply, Op.modify_apply, Op.ofResult_apply]
      cases hprepare : MultistreamSelect.prepareOutbound
          s.secure.noise.localExtensions.streamMuxers with
      | error e => exact ⟨(Move.finishFail s.core [] _ hfinish (.inl rfl)
          (absurd rfl)).single, hcomplete.active.2.1⟩
      | ok proposal =>
        dsimp only
        rcases queueEncryptedMessage_cases (S := S) proposal
          { s with secure := s.secure.select .muxerNegotiation } with
          ⟨e, hrun⟩ | ⟨ciphertext, secure, e, hseal, hlost, hrun⟩ |
          ⟨ciphertext, secure, framed, hseal, hframe, hrun⟩
        · erw [hrun]
          exact ⟨(Move.finishFail s.core proposal _ hfinish (.inl rfl)
          (absurd rfl)).single, hcomplete.active.2.1⟩
        · erw [hrun]
          exact ⟨(Move.finishFail s.core proposal secure hfinish
            (.inr ⟨ciphertext, hseal⟩) fun _ => ⟨ciphertext, e, hseal, hlost⟩).single,
            hcomplete.active.2.1⟩
        · erw [hrun]
          refine Ended.after (Move.finishOutbound s.core proposal ciphertext framed secure hfinish
            hselect hlocal hrole hprepare hseal hframe).single ?_
          exact flushWire_out.ended _ hcomplete.active
    · rw [Bool.not_eq_true] at hrole
      exact ⟨(Move.finishInbound s.core hfinish hselect hlocal hrole).single, hcomplete.active⟩
    · simp only [Op.modify_apply, completeReadyState_core]
      rw [ne_eq, Decidable.not_not] at hlocal
      exact ⟨(Move.finishDirect s.core hfinish hselect hlocal).single, hcomplete.active.complete⟩

theorem OutFrame.handshaking {c c' : Core} {expected : HandshakeState} (h : OutFrame c c')
    (hwait : c.Handshaking expected) : c'.Handshaking expected := by
  exact ⟨h.active hwait.active, h.stage.trans hwait.stage, h.secureReady.trans hwait.secureReady,
    h.handshakeState.trans hwait.handshakeState⟩

theorem flush_finish_ends (s : BasicConnectionSession) (hcomplete : s.core.Handshaking .complete) :
    Ended S s.core ((do flushPendingWrites; finishSecureUpgrade S : Method Unit) s).1
      ((do flushPendingWrites; finishSecureUpgrade S : Method Unit) s).2.core := by
  refine (flushPendingWrites_out.ended s hcomplete.active).bind fun s' hflush _ => ?_
  have hout := flushPendingWrites_out (S := S) s
  rw [hflush] at hout
  exact finishSecureUpgrade_ends s' (hout.frame.handshaking hcomplete)

/-! ## Frames -/

theorem popFrame_apply (s : BasicConnectionSession) :
    popFrame s = match tryPopWireFrame s.io.wireRx with
      | .error e => (.error e, s)
      | .ok none => (.ok none, s)
      | .ok (some (frame, rest)) =>
        (.ok (some frame), { s with io := { s.io with wireRx := rest } }) := by
  unfold popFrame
  rw [Op.bind_apply, Op.get_apply]
  simp only [Op.bind_apply, Op.ofResult_apply]
  rcases tryPopWireFrame s.io.wireRx with e | _ | ⟨frame, rest⟩ <;> rfl

/-- A loop over the buffered frames: it ends well when the buffer is empty, and one
    frame that ended well is followed by the others. -/
theorem popFrame_ends {s : BasicConnectionSession} {f : Bytes → Method Unit}
    (hactive : s.core.Active)
    (hf : ∀ frame rest, tryPopWireFrame s.io.wireRx = .ok (some (frame, rest)) →
      Ended S s.core (f frame { s with io := { s.io with wireRx := rest } }).1
        (f frame { s with io := { s.io with wireRx := rest } }).2.core) :
    Ended S s.core ((do
        match ← popFrame with
        | none => pure ()
        | some frame => f frame : Method Unit) s).1
      ((do
        match ← popFrame with
        | none => pure ()
        | some frame => f frame : Method Unit) s).2.core := by
  rw [Op.bind_apply, popFrame_apply]
  rcases hpop : tryPopWireFrame s.io.wireRx with e | _ | ⟨frame, rest⟩
  · exact Ended.unchanged hactive
  · exact ⟨Moves.refl _, hactive⟩
  · exact hf frame rest hpop

theorem processHandshakeFrame_ends {s : BasicConnectionSession} {frame rest : Bytes}
    (hactive : s.core.Active) (hstage : s.secure.stage = .noiseHandshake)
    (hsecure : s.secure.secureReady = false)
    (hpop : tryPopWireFrame s.io.wireRx = .ok (some (frame, rest))) :
    Ended S s.core
      (processHandshakeFrame S frame { s with io := { s.io with wireRx := rest } }).1
      (processHandshakeFrame S frame { s with io := { s.io with wireRx := rest } }).2.core := by
  unfold processHandshakeFrame
  rw [Op.bind_apply, Op.get_apply]
  dsimp only
  cases hhs : s.secure.handshakeState with
  | idle =>
    exact Ended.fail rest _ hactive (.inr hstage) (fun _ _ => rfl) (.inr hstage) rfl ⟨_, .none, rfl⟩
  | complete =>
    exact Ended.fail rest _ hactive (.inr hstage) (fun _ _ => rfl) (.inr hstage) rfl ⟨_, .none, rfl⟩
  | awaitingMsg1 =>
    have hcomplete : ∀ secure : SecureChannelState, s.secure.stage = .noiseHandshake →
        s.secure.handshakeState = .complete → secure = s.secure := fun _ _ h => by
      rw [hhs] at h
      cases h
    simp only [Op.bind_apply, drawEntropy_apply, onNoise_apply]
    rcases hprocess : Noise.processMsg1 S (s.secure.random s.secure.drawn) frame s.secure.noise
      with ⟨e | msg2, noise⟩
    · exact Ended.fail rest _ hactive (.inr hstage) (hcomplete _) (.inr hstage) rfl
        ⟨_, .msg1 frame hprocess, rfl⟩
    · simp only [Op.modify_apply, queueWireMessage_apply]
      cases hframe : Noise.encodeFrame msg2 with
      | error e =>
        exact Ended.fail rest _ hactive (.inr hstage) (hcomplete _) (.inr hstage) rfl
          ⟨_, .msg1 frame hprocess, rfl⟩
      | ok framed =>
        refine Ended.after (Move.msg1 s.core frame rest msg2 framed noise
          ⟨hactive, hstage, hsecure, hhs⟩ hpop hprocess hframe).single ?_
        dsimp only
        exact flushPendingWrites_out.ended _ hactive
  | awaitingMsg2 =>
    have hcomplete : ∀ secure : SecureChannelState, s.secure.stage = .noiseHandshake →
        s.secure.handshakeState = .complete → secure = s.secure := fun _ _ h => by
      rw [hhs] at h
      cases h
    simp only [Op.bind_apply, onNoise_apply]
    rcases hprocess : Noise.processMsg2 S frame s.secure.noise with ⟨e | msg3, noise⟩
    · exact Ended.fail rest _ hactive (.inr hstage) (hcomplete _) (.inr hstage) rfl
        ⟨_, .msg2 frame hhs hprocess, rfl⟩
    · simp only [Op.modify_apply, queueWireMessage_apply]
      cases hframe : Noise.encodeFrame msg3 with
      | error e =>
        exact Ended.fail rest _ hactive (.inr hstage) (hcomplete _) (.inr hstage) rfl
          ⟨_, .msg2 frame hhs hprocess, rfl⟩
      | ok framed =>
        refine Ended.after (Move.msg2 s.core frame rest msg3 framed noise
          ⟨hactive, hstage, hsecure, hhs⟩ hpop hprocess hframe).single ?_
        exact flush_finish_ends _ ⟨hactive, hstage, hsecure, rfl⟩
  | awaitingMsg3 =>
    have hcomplete : ∀ secure : SecureChannelState, s.secure.stage = .noiseHandshake →
        s.secure.handshakeState = .complete → secure = s.secure := fun _ _ h => by
      rw [hhs] at h
      cases h
    simp only [Op.bind_apply, onNoise_apply]
    rcases hprocess : Noise.processMsg3 S frame s.secure.noise with ⟨e | _, noise⟩
    · exact Ended.fail rest _ hactive (.inr hstage) (hcomplete _) (.inr hstage) rfl
        ⟨_, .msg3 frame hhs hprocess, rfl⟩
    · simp only [Op.modify_apply]
      refine Ended.after (Move.msg3 s.core frame rest noise
        ⟨hactive, hstage, hsecure, hhs⟩ hpop hprocess).single ?_
      exact finishSecureUpgrade_ends _ ⟨hactive, hstage, hsecure, rfl⟩

theorem handshakeLoop_ends (fuel : ℕ) :
    ∀ s : BasicConnectionSession, s.core.Active →
      Ended S s.core (handshakeLoop S fuel s).1 (handshakeLoop S fuel s).2.core := by
  induction fuel with
  | zero => exact fun s hactive => ⟨Moves.refl _, hactive⟩
  | succ fuel ih =>
    intro s hactive
    rw [handshakeLoop, Op.bind_apply, Op.get_apply]
    dsimp only
    split_ifs with hgoing
    · exact popFrame_ends hactive fun frame rest hpop =>
        (processHandshakeFrame_ends hactive hgoing.2 hgoing.1 hpop).bind fun s' _ hactive' =>
          ih s' hactive'
    · exact ⟨Moves.refl _, hactive⟩

/-! ## The muxer exchange -/

theorem muxerFramesLoop_ends (fuel : ℕ) :
    ∀ s : BasicConnectionSession, s.core.Exchanging →
      Ended S s.core (muxerFramesLoop S fuel s).1 (muxerFramesLoop S fuel s).2.core ∧
        ((muxerFramesLoop S fuel s).1 = .ok () → (muxerFramesLoop S fuel s).2.core.Exchanging) := by
  induction fuel with
  | zero => exact fun s hexchange => ⟨⟨Moves.refl _, hexchange.active⟩, fun _ => hexchange⟩
  | succ fuel ih =>
    intro s hexchange
    rw [muxerFramesLoop, Op.bind_apply, popFrame_apply]
    rcases hpop : tryPopWireFrame s.io.wireRx with e | _ | ⟨frame, rest⟩
    · exact ⟨Ended.unchanged hexchange.active, fun h => by cases h⟩
    · exact ⟨⟨Moves.refl _, hexchange.active⟩, fun _ => hexchange⟩
    · dsimp only
      rw [Op.bind_apply]
      rcases hopen : openMessage S frame s.secure with ⟨e | plaintext, secure⟩
      · simp only [onSecure, Op.zoom, hopen]
        exact ⟨⟨(Move.openFail s.core frame rest e secure hexchange.active (.inl hexchange.stage) hpop
          hopen).single, hexchange.active.2.1⟩, fun h => by cases h⟩
      · simp only [onSecure, Op.zoom, hopen, Op.bind_apply, Op.modify_apply]
        have hexchange' : ∀ io buffer, io.socketOpen = true → ({ s.core with
            io, secure, muxerNegotiationBuffer := buffer } : Core).Exchanging := fun io buffer hopen' => by
          obtain ⟨-, -, -, rfl⟩ := openMessage_ok hopen
          exact ⟨⟨hopen', hexchange.active.2⟩, hexchange.stage, hexchange.secureReady⟩
        have hloop := ih { s with
          io := { s.io with wireRx := rest }, secure
          muxerNegotiationBuffer := s.muxerNegotiationBuffer ++ plaintext }
          (hexchange' _ _ hexchange.active.1)
        exact ⟨hloop.1.after (Move.openMuxer s.core frame rest plaintext secure hexchange hpop
          hopen).single, hloop.2⟩

theorem adoptMuxer_core (muxer : ProtocolId) (s : BasicConnectionSession) :
    (adoptMuxer muxer s).core = s.core.adopt (some muxer) := by
  unfold adoptMuxer Core.adopt
  by_cases hyamux : muxer = yamuxProtocol
  · simp only [hyamux, if_true]
    rfl
  · simp only [hyamux, if_false]
    rfl

/-- The end of the muxer exchange. -/
theorem completeExchange_core (span : ℕ) (s : BasicConnectionSession) :
    (completeReadyState
      { s with muxerNegotiationBuffer := s.muxerNegotiationBuffer.drop span }).core =
      (s.core.dropExchange span).complete :=
  completeReadyState_core _

theorem Core.Active.adopt {c : Core} (h : c.Active) (muxer : Option ProtocolId) (span : ℕ) :
    ((c.adopt muxer).dropExchange span).complete.Active := by
  cases muxer <;> exact ⟨h.1, nofun, nofun⟩

theorem answerMuxerExchange_ends {s : BasicConnectionSession} {span : ℕ}
    (hexchange : s.core.Exchanging)
    (hspan : MultistreamSelect.exchangeSpan s.muxerNegotiationBuffer = .ok span) :
    Ended S s.core
      ((do
        answerMuxerExchange S (s.muxerNegotiationBuffer.take span)
        Op.modify fun s => completeReadyState
          { s with muxerNegotiationBuffer := s.muxerNegotiationBuffer.drop span } : Method Unit) s).1
      ((do
        answerMuxerExchange S (s.muxerNegotiationBuffer.take span)
        Op.modify fun s => completeReadyState
          { s with muxerNegotiationBuffer := s.muxerNegotiationBuffer.drop span } :
            Method Unit) s).2.core := by
  rw [Op.bind_apply]
  unfold answerMuxerExchange
  rw [Op.bind_apply, Op.get_apply]
  dsimp only
  split_ifs with hrole
  · cases hread : MultistreamSelect.readOutboundResponse (s.muxerNegotiationBuffer.take span)
        (s.secure.noise.localExtensions.streamMuxers.headD []) with
    | ok selected =>
      simp only [Op.modify_apply, completeExchange_core, adoptMuxer_core]
      exact ⟨(Move.muxerOutbound s.core span (some selected) hexchange hrole hspan hread).single,
        hexchange.active.adopt _ _⟩
    | error e =>
      dsimp only
      split_ifs with hsupported
      · exact Ended.unchanged hexchange.active
      · rw [ne_eq, Decidable.not_not] at hsupported
        subst hsupported
        simp only [Op.pure_apply, Op.modify_apply, completeExchange_core]
        exact ⟨(Move.muxerOutbound s.core span none hexchange hrole hspan hread).single,
          hexchange.active.adopt none _⟩
  · rw [Bool.not_eq_true] at hrole
    rw [Op.bind_apply, Op.ofResult_apply]
    cases hnegotiate : MultistreamSelect.negotiateInbound (s.muxerNegotiationBuffer.take span)
        s.secure.noise.localExtensions.streamMuxers with
    | error e => exact Ended.unchanged hexchange.active
    | ok negotiated =>
      dsimp only
      rw [Op.bind_apply]
      rcases queueEncryptedMessage_cases (S := S) negotiated.outbound s with
        ⟨e, hrun⟩ | ⟨ciphertext, secure, e, hseal, hlost, hrun⟩ |
          ⟨ciphertext, secure, framed, hseal, hframe, hrun⟩
      · rw [hrun]
        exact Ended.unchanged hexchange.active
      · rw [hrun]
        exact ⟨(Move.muxerInboundLost s.core negotiated.outbound ciphertext secure hexchange hrole
          hseal ⟨e, hlost⟩).single, hexchange.active.2.1⟩
      · rw [hrun]
        have hout := flushWire_out (S := S) { s with secure, io := s.io.queue framed }
        rcases hflush : onIo flushWire { s with secure, io := s.io.queue framed } with ⟨e | _, s'⟩
        · rw [hflush] at hout
          exact ⟨(Move.muxerInboundFail s.core s'.core negotiated.outbound ciphertext framed secure
            hexchange hrole hseal hout hframe).single, (hout.frame.active hexchange.active).2.1⟩
        · rw [hflush] at hout
          have hactive : s'.core.Active := hout.frame.active hexchange.active
          have hmove := Move.muxerInbound s.core s'.core span negotiated ciphertext framed secure
            hexchange hrole hspan hnegotiate hseal hframe hout
          cases hprotocol : negotiated.protocol with
          | none =>
            rw [hprotocol] at hmove
            simp only [Op.pure_apply, Op.modify_apply, completeExchange_core]
            exact ⟨hmove.single, hactive.adopt none _⟩
          | some muxer =>
            rw [hprotocol] at hmove
            simp only [Op.modify_apply, completeExchange_core, adoptMuxer_core]
            exact ⟨hmove.single, hactive.adopt _ _⟩

theorem processMuxerNegotiation_ends (s : BasicConnectionSession) (hexchange : s.core.Exchanging) :
    Ended S s.core (processMuxerNegotiation S s).1 (processMuxerNegotiation S s).2.core := by
  have hloop := muxerFramesLoop_ends (S := S) s.io.wireRx.length s hexchange
  unfold processMuxerNegotiation
  rw [Op.bind_apply, Op.get_apply]
  refine hloop.1.bind fun s' hrun _ => ?_
  rw [hrun] at hloop
  have hexchange' : s'.core.Exchanging := hloop.2 rfl
  rw [Op.bind_apply, Op.get_apply]
  dsimp only
  cases hspan : MultistreamSelect.exchangeSpan s'.muxerNegotiationBuffer with
  | error e =>
    dsimp only
    split_ifs
    · exact ⟨Moves.refl _, hexchange'.active⟩
    · exact Ended.unchanged hexchange'.active
  | ok span => exact answerMuxerExchange_ends hexchange' hspan

/-! ## Data -/

theorem dataLoop_ends (fuel : ℕ) :
    ∀ s : BasicConnectionSession, s.core.Active → s.secure.secureReady = true →
      Ended S s.core (dataLoop S fuel s).1 (dataLoop S fuel s).2.core := by
  induction fuel with
  | zero => exact fun s hactive _ => ⟨Moves.refl _, hactive⟩
  | succ fuel ih =>
    intro s hactive hready
    rw [dataLoop]
    refine popFrame_ends hactive fun frame rest hpop => ?_
    rw [Op.bind_apply]
    rcases hopen : openMessage S frame s.secure with ⟨e | plaintext, secure⟩
    · simp only [onSecure, Op.zoom, hopen]
      exact ⟨(Move.openFail s.core frame rest e secure hactive (.inr hready) hpop hopen).single,
        hactive.2.1⟩
    · simp only [onSecure, Op.zoom, hopen]
      refine Ended.after (Move.openData s.core frame rest plaintext secure hactive hready hpop
        hopen).single ?_
      refine ((deliverPlaintext_out plaintext).ended
        { s with io := { s.io with wireRx := rest }, secure } hactive).bind fun s' hrun hactive' => ?_
      refine ih s' hactive' ?_
      have hout := deliverPlaintext_out (S := S) plaintext
        { s with io := { s.io with wireRx := rest }, secure }
      rw [hrun] at hout
      obtain ⟨-, -, -, hsecure⟩ := openMessage_ok hopen
      have hready' : s'.secure.secureReady = secure.secureReady := hout.frame.secureReady
      rw [hready', hsecure]
      exact hready

theorem readData_ends (s : BasicConnectionSession) (hactive : s.core.Active) :
    Ended S s.core
      ((do
        let s ← Op.get
        if s.secure.secureReady = false then pure ()
        else dataLoop S s.io.wireRx.length : Method Unit) s).1
      ((do
        let s ← Op.get
        if s.secure.secureReady = false then pure ()
        else dataLoop S s.io.wireRx.length : Method Unit) s).2.core := by
  rw [Op.bind_apply, Op.get_apply]
  dsimp only
  split_ifs with hready
  · exact ⟨Moves.refl _, hactive⟩
  · rw [Bool.not_eq_false] at hready
    exact dataLoop_ends _ s hactive hready

theorem processPendingInput_ends (s : BasicConnectionSession) (hactive : s.core.Active) :
    Ended S s.core (processPendingInput S s).1 (processPendingInput S s).2.core := by
  have hframes : ∀ s : BasicConnectionSession, s.core.Active →
      Ended S s.core
        ((do
          let s ← Op.get
          handshakeLoop S s.io.wireRx.length
          let s ← Op.get
          if s.secure.secureReady = false ∧ s.secure.stage = .muxerNegotiation then
            processMuxerNegotiation S
          let s ← Op.get
          if s.secure.secureReady = false then pure ()
          else dataLoop S s.io.wireRx.length : Method Unit) s).1
        ((do
          let s ← Op.get
          handshakeLoop S s.io.wireRx.length
          let s ← Op.get
          if s.secure.secureReady = false ∧ s.secure.stage = .muxerNegotiation then
            processMuxerNegotiation S
          let s ← Op.get
          if s.secure.secureReady = false then pure ()
          else dataLoop S s.io.wireRx.length : Method Unit) s).2.core := by
    intro s hactive
    rw [Op.bind_apply, Op.get_apply]
    refine (handshakeLoop_ends _ s hactive).bind fun s₁ _ hactive₁ => ?_
    rw [Op.bind_apply, Op.get_apply]
    dsimp only
    split_ifs with hmuxer
    · exact (processMuxerNegotiation_ends s₁ ⟨hactive₁, hmuxer.2, hmuxer.1⟩).bind
        fun s₂ _ hactive₂ => readData_ends s₂ hactive₂
    · exact readData_ends s₁ hactive₁
  unfold processPendingInput
  rw [Op.bind_apply, Op.get_apply]
  dsimp only
  split_ifs with hstage
  · exact (processProtocolNegotiation_ends s hactive hstage).bind
      fun s₁ _ hactive₁ => hframes s₁ hactive₁
  · exact hframes s hactive

/-! ## Actions -/

theorem isActive_iff (s : BasicConnectionSession) : s.isActive = true ↔ s.core.Active := by
  simp [isActive, Core.Active, BasicConnectionSession.core, and_assoc]

theorem recvLoop_moves (answers : List RecvAnswer) :
    ∀ s : BasicConnectionSession, s.core.Active → Moves S s.core (recvLoop answers s).2.core ∧
      ((recvLoop answers s).1 = true → (recvLoop answers s).2.core.Active) := by
  induction answers with
  | nil => exact fun s hactive => ⟨Moves.refl _, fun _ => hactive⟩
  | cons answer rest ih =>
    intro s hactive
    cases answer with
    | data bytes =>
      rw [recvLoop]
      split_ifs
      · exact ⟨close_moves s, nofun⟩
      · have hrest := ih { s with io := s.io.recv bytes } hactive
        exact ⟨(Move.recv s.core bytes hactive).single.trans hrest.1, hrest.2⟩
    | reset => exact ⟨close_moves s, nofun⟩
    | again => exact ⟨Moves.refl _, fun _ => hactive⟩
    | failed error => exact ⟨close_emitError_moves _ s, nofun⟩

/-- A failure, reported and followed by `close`. -/
theorem Ended.closing {c : Core} {e : String} {s : BasicConnectionSession} {detail : Bytes}
    (h : Ended S c (.error e) s.core) : Moves S c (close (emitError detail s)).core := by
  have hstate : s.state ≠ .closed := h.2
  rw [close_emitError_core, if_neg hstate]
  exact h.1

theorem onSocketReadable_moves (answers : List RecvAnswer) (s : BasicConnectionSession) :
    Moves S s.core (onSocketReadable S answers s).core := by
  unfold onSocketReadable
  split_ifs with hactive
  · exact Moves.refl _
  · rw [Bool.not_eq_false, isActive_iff] at hactive
    have hrecv := recvLoop_moves (S := S) answers s hactive
    rcases hloop : recvLoop answers s with ⟨_ | _, s₁⟩ <;> rw [hloop] at hrecv
    · exact hrecv.1
    · dsimp only
      have hinput := processPendingInput_ends (S := S) s₁ (hrecv.2 rfl)
      rcases hprocess : processPendingInput S s₁ with ⟨e | _, s₂⟩ <;> rw [hprocess] at hinput
      · exact hrecv.1.trans hinput.closing
      · exact hrecv.1.trans hinput.1

theorem onSocketWritable_moves (s : BasicConnectionSession) :
    Moves S s.core (onSocketWritable s).core := by
  unfold onSocketWritable
  split_ifs with hactive
  · exact Moves.refl _
  · rw [Bool.not_eq_false, isActive_iff] at hactive
    have hflush := flushPendingWrites_out.ended (S := S) s hactive
    rcases hrun : flushPendingWrites s with ⟨e | _, s'⟩ <;> rw [hrun] at hflush
    · exact hflush.closing
    · exact hflush.1

theorem onTimeout_moves (s : BasicConnectionSession) : Moves S s.core (onTimeout s).core := by
  unfold onTimeout
  split_ifs
  · exact Moves.refl _
  · exact Moves.refl _
  · exact close_emitError_moves _ s

theorem beginOutboundUpgrade_starts {s : BasicConnectionSession} (hactive : s.core.Active)
    (hready : ¬(s.state = .ready ∨ s.secure.secureReady = true)) (hrole : s.isInitiator = true) :
    ∃ c, Begin s.core c ∧ OutMoves S c (beginOutboundUpgrade s).2.core := by
  have hactive' : ¬ s.isActive = false := by
    rw [Bool.not_eq_false]
    exact (isActive_iff s).mpr hactive
  unfold beginOutboundUpgrade
  rw [Op.bind_apply, Op.get_apply]
  dsimp only
  rw [if_neg hactive', if_neg hready, if_neg (by rw [hrole]; nofun)]
  rw [not_or, Bool.not_eq_true] at hready
  simp only [Op.bind_apply, Op.modify_apply, Op.ofResult_apply]
  cases hprepare : MultistreamSelect.prepareOutbound [noiseProtocol] with
  | error e => cases hprepare
  | ok proposal =>
    refine ⟨_, Begin.outbound s.core proposal hactive hready.2 hrole hprepare, ?_⟩
    simp only [queueRawBytes, onIo, Op.zoom, Op.modify_apply]
    exact flushPendingWrites_out { s with
      state := .securing, createInboundStreamOnReady := false, io := s.io.queue proposal
      secure := { s.secure with stage := .negotiatingProtocol, handshakeState := .idle } }

/-- An upgrade call returns at once, or starts the upgrade. -/
theorem beginOutboundUpgrade_begin (s : BasicConnectionSession) :
    (beginOutboundUpgrade s).2.core = s.core ∨
      ∃ c, Begin s.core c ∧ Moves S c (beginOutboundUpgrade s).2.core := by
  by_cases hactive : s.isActive = false
  · exact .inl (by simp [beginOutboundUpgrade, hactive])
  by_cases hready : s.state = .ready ∨ s.secure.secureReady = true
  · exact .inl (by simp [beginOutboundUpgrade, hactive, hready])
  by_cases hrole : s.isInitiator = false
  · exact .inl (by simp [beginOutboundUpgrade, hactive, hready, hrole])
  rw [Bool.not_eq_false, isActive_iff] at hactive
  rw [Bool.not_eq_false] at hrole
  obtain ⟨c, hbegin, hout⟩ := beginOutboundUpgrade_starts (S := S) hactive hready hrole
  exact .inr ⟨c, hbegin, hout.moves⟩

theorem beginInboundUpgrade_starts {s : BasicConnectionSession} (hactive : s.core.Active)
    (hready : ¬(s.state = .ready ∨ s.secure.secureReady = true)) (hrole : s.isInitiator = false) :
    Begin s.core (beginInboundUpgrade s).2.core := by
  have hactive' : ¬ s.isActive = false := by
    rw [Bool.not_eq_false]
    exact (isActive_iff s).mpr hactive
  unfold beginInboundUpgrade
  rw [Op.bind_apply, Op.get_apply]
  dsimp only
  rw [if_neg hactive', if_neg hready, if_neg (by rw [hrole]; nofun)]
  rw [not_or, Bool.not_eq_true] at hready
  exact Begin.inbound s.core hactive hready.2 hrole

theorem beginInboundUpgrade_begin (s : BasicConnectionSession) :
    (beginInboundUpgrade s).2.core = s.core ∨ Begin s.core (beginInboundUpgrade s).2.core := by
  by_cases hactive : s.isActive = false
  · exact .inl (by simp [beginInboundUpgrade, hactive])
  by_cases hready : s.state = .ready ∨ s.secure.secureReady = true
  · exact .inl (by simp [beginInboundUpgrade, hactive, hready])
  by_cases hrole : s.isInitiator = true
  · exact .inl (by simp [beginInboundUpgrade, hactive, hready, hrole])
  rw [Bool.not_eq_false, isActive_iff] at hactive
  rw [Bool.not_eq_true] at hrole
  exact .inr (beginInboundUpgrade_starts hactive hready hrole)

theorem acceptInboundStream_core (s : BasicConnectionSession) :
    (acceptInboundStream s).2.core = s.core := by
  unfold acceptInboundStream
  cases s.pendingInbound <;> rfl

theorem nextEvent_core (s : BasicConnectionSession) : (Connection.nextEvent s).2.core = s.core := by
  unfold Connection.nextEvent
  cases s.eventQueue <;> rfl

/-- Every action other than an upgrade call is a sequence of moves. -/
theorem step_moves (s : BasicConnectionSession) {a : Action} (ha : a.isBegin = false) :
    Moves S s.core (step S s a).core := by
  cases a with
  | answers sends shutdownError => exact (Move.socket s.core sends shutdownError).single
  | readable answers => exact onSocketReadable_moves answers s
  | writable => exact onSocketWritable_moves s
  | timeout => exact onTimeout_moves s
  | beginOutbound => cases ha
  | beginInbound => cases ha
  | openStream protocol => exact (requestOpenStream_out protocol).moves s
  | acceptStream =>
    rw [step, acceptInboundStream_core]
    exact Moves.refl _
  | nextEvent =>
    rw [step, nextEvent_core]
    exact Moves.refl _
  | close => exact close_moves s
  | tryRead handle size => exact (streamTryRead_out handle size).moves s
  | tryWrite handle data => exact (streamTryWrite_out handle data).moves s
  | closeWrite handle => exact (streamCloseWrite_out handle).moves s
  | reset handle =>
    cases handle with
    | yamux stream => exact (streamReset_yamux_out stream).moves s
    | direct stream => exact (Move.closeSocket s.core).single

/-- An upgrade call changes nothing, or starts the upgrade and moves on. -/
theorem step_begin (s : BasicConnectionSession) {a : Action} (ha : a.isBegin = true) :
    (step S s a).core = s.core ∨ ∃ c, Begin s.core c ∧ Moves S c (step S s a).core := by
  cases a with
  | beginOutbound => exact beginOutboundUpgrade_begin s
  | beginInbound =>
    rcases beginInboundUpgrade_begin s with hsame | hbegin
    · exact .inl hsame
    · exact .inr ⟨_, hbegin, Moves.refl _⟩
  | answers => cases ha
  | readable => cases ha
  | writable => cases ha
  | timeout => cases ha
  | openStream => cases ha
  | acceptStream => cases ha
  | nextEvent => cases ha
  | close => cases ha
  | tryRead => cases ha
  | tryWrite => cases ha
  | closeWrite => cases ha
  | reset => cases ha

/-- A property of the core that every move and every start of the upgrade keeps. -/
theorem Runs.core_invariant {P : Core → Prop} {allowed : BasicConnectionSession → Action → Prop}
    {s t : BasicConnectionSession} (h : Runs S allowed s t)
    (hmove : ∀ c c', P c → Move S c c' → P c') (hbegin : ∀ c c', P c → Begin c c' → P c')
    (hs : P s.core) : P t.core := by
  refine h.invariant (P := fun s => P s.core) hs fun s a hP _ => ?_
  cases hkind : a.isBegin with
  | false => exact (step_moves s hkind).invariant hmove hP
  | true =>
    rcases step_begin (S := S) s hkind with hsame | ⟨c, hstart, hmoves⟩
    · rw [hsame]
      exact hP
    · exact hmoves.invariant hmove (hbegin _ _ hP hstart)

end PeerCore.Connection
