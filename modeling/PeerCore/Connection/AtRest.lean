import PeerCore.Connection.Settling
import PeerCore.Connection.Delivery

/-!
# A session between two calls

Between two calls an active session waits for bytes: what it has buffered is not yet a
whole exchange, or not yet a whole frame, whichever it reads next.

* `AtRest`: this property, by stage. `upgradeInput_ok`: the input loops stop nowhere else.
* `initiator_rests`, `responder_rests`: it holds between any two calls.
-/

namespace PeerCore.Connection

open BasicConnectionSession
open Noise (Entropy NoiseSession)

variable {S : Noise.Sodium}

/-- The buffer is the beginning of an exchange. -/
def Incomplete (buffer : Bytes) : Prop :=
  ∃ e, MultistreamSelect.exchangeSpan buffer = .error e ∧
    MultistreamSelect.isIncompleteError e = true

/-- An active session waits for bytes. -/
structure AtRest (c : Core) : Prop where
  greeting : c.secure.stage = .negotiatingProtocol → Incomplete c.io.wireRx
  handshake : c.secure.stage = .noiseHandshake →
    popWire c.io.wireRx = none ∧ c.secure.handshakeState ≠ .complete
  exchange : c.secure.stage = .muxerNegotiation →
    popWire c.io.wireRx = none ∧ Incomplete c.muxerNegotiationBuffer
  data : c.secure.stage = .ready → popWire c.io.wireRx = none

theorem incomplete_nil : Incomplete [] := ⟨_, rfl, rfl⟩

/-- A buffer that begins with an exchange is not incomplete. -/
theorem Incomplete.not_span {buffer more : Bytes} {n : ℕ} (h : Incomplete (buffer ++ more))
    (hspan : MultistreamSelect.exchangeSpan buffer = .ok n) : False := by
  obtain ⟨e, he, -⟩ := h
  rw [MultistreamSelect.exchangeSpan_append hspan] at he
  cases he

/-! ## What a step of the input leaves -/

section Input

variable {s s' : BasicConnectionSession}

theorem flushPendingWrites_frame (S : Noise.Sodium) {result : Result Unit}
    (h : flushPendingWrites s = (result, s')) : OutFrame s.core s'.core := by
  have hout := OutMoves.frame (flushPendingWrites_out (S := S) s)
  rw [h] at hout
  exact hout

theorem queueEncryptedMessage_frame {data : Bytes} {result : Result Unit}
    (h : queueEncryptedMessage S data s = (result, s')) : OutFrame s.core s'.core := by
  have hseal : ∀ {ciphertext : Bytes} {secure : SecureChannelState} (io : SessionIoState),
      sealMessage S data s.secure = (.ok ciphertext, secure) → io.socketOpen = s.io.socketOpen →
      io.fd = s.io.fd → io.wireRx = s.io.wireRx → io.socket.received = s.io.socket.received →
      OutFrame s.core { s.core with secure, io } := by
    intro ciphertext secure io hrun hopen hfd hrx hreceived
    obtain ⟨-, -, -, rfl⟩ := sealMessage_ok hrun
    exact ⟨rfl, rfl, rfl, rfl, rfl, hopen, hfd, hrx, hreceived, rfl⟩
  rcases queueEncryptedMessage_cases (S := S) data s with ⟨e, hrun⟩ |
    ⟨ciphertext, secure, e, hsealed, -, hrun⟩ | ⟨ciphertext, secure, framed, hsealed, -, hrun⟩
  · rw [hrun, Prod.mk.injEq] at h
    rw [← h.2]
    exact OutFrame.refl _
  · rw [hrun, Prod.mk.injEq] at h
    rw [← h.2]
    exact hseal s.io hsealed rfl rfl rfl rfl
  · have hflush := OutMoves.frame (flushWire_out (S := S)
      { s with secure, io := s.io.queue framed })
    rw [← hrun, h] at hflush
    exact (hseal (s.io.queue framed) hsealed rfl rfl rfl rfl).trans hflush

/-- Reading the greeting of the peer leaves it incomplete or starts the handshake. -/
theorem processProtocolNegotiation_ok
    (h : processProtocolNegotiation S s = (.ok (), s')) :
    s' = s ∧ Incomplete s.io.wireRx ∨
      s'.secure.stage = .noiseHandshake ∧ s'.secure.handshakeState ≠ .complete ∧
        s'.secure.secureReady = s.secure.secureReady := by
  unfold processProtocolNegotiation at h
  rw [Op.get_bind] at h
  cases hspan : MultistreamSelect.exchangeSpan s.io.wireRx with
  | error e =>
    simp only [hspan] at h
    split_ifs at h with he
    · rw [Op.pure_apply, Prod.mk.injEq] at h
      exact .inl ⟨h.2.symm, e, hspan, he⟩
    · cases h
  | ok span =>
    simp only [hspan] at h
    refine .inr ?_
    split_ifs at h with hrole
    · rw [Op.ofResult_bind_eq_ok] at h
      obtain ⟨proposal, -, h⟩ := h
      simp only [eraseRx, startNoiseHandshake, Op.bind_apply, Op.modify_apply, drawEntropy_apply,
        onNoise_apply, Op.update_apply] at h
      split_ifs at h with hempty
      · cases h
      · simp only [Op.bind_apply, Op.modify_apply, queueWireMessage_apply] at h
        cases hframe : Noise.encodeFrame
            (Noise.writeMsg1 S (s.secure.random s.secure.drawn) s.secure.noise).1 with
        | error e => simp [hframe] at h
        | ok framed =>
          simp only [hframe] at h
          have hout := flushPendingWrites_frame S h
          refine ⟨hout.stage, ?_, hout.secureReady⟩
          have hwait := hout.handshakeState
          change s'.secure.handshakeState = .awaitingMsg2 at hwait
          rw [hwait]
          simp
    · rw [Op.ofResult_bind_eq_ok] at h
      obtain ⟨negotiated, -, h⟩ := h
      split_ifs at h
      · cases h
      · rw [Op.bind_eq_ok] at h
        obtain ⟨_, s₁, hqueue, h⟩ := h
        rw [Op.bind_eq_ok] at h
        obtain ⟨_, s₂, hflush, h⟩ := h
        have hout := flushPendingWrites_frame S hflush
        have hready : s₂.secure.secureReady = s₁.secure.secureReady := hout.secureReady
        have hsame : s₁.secure = s.secure := by
          have hrun : (onIo (queueRawBytes negotiated.outbound) s).2.secure = s.secure := rfl
          rw [hqueue] at hrun
          exact hrun
        simp only [eraseRx, Op.bind_apply, Op.modify_apply, Prod.mk.injEq, true_and] at h
        rw [← h]
        exact ⟨rfl, by simp, by rw [← hsame]; exact hready⟩

/-- A handshake that ends well leaves its stage. -/
theorem finishSecureUpgrade_ok (hsecure : s.secure.secureReady = false)
    (h : finishSecureUpgrade S s = (.ok (), s')) :
    (s'.secure.stage = .muxerNegotiation ∨ s'.secure.stage = .ready) ∧
      s'.io.wireRx = s.io.wireRx := by
  have hcomplete : ∀ t : BasicConnectionSession, (completeReadyState t).secure.stage = .ready ∧
      (completeReadyState t).io.wireRx = t.io.wireRx := fun t => by
    have hcore := completeReadyState_core t
    exact ⟨congrArg (fun c => c.secure.stage) hcore, congrArg (fun c => c.io.wireRx) hcore⟩
  unfold finishSecureUpgrade at h
  rw [Op.get_bind] at h
  dsimp only at h
  rw [hsecure, if_neg (by simp), Op.ofResult_bind_eq_ok] at h
  obtain ⟨_, -, h⟩ := h
  simp only [Op.bind_apply, Op.modify_apply, Op.get_apply] at h
  split_ifs at h with hselect hlocal hrole
  · simp only [Op.modify_apply, Prod.mk.injEq, true_and] at h
    obtain ⟨hstage, hwire⟩ := hcomplete (activateYamux
      { s with secure := { s.secure with negotiatedStreamMuxer := selectStreamMuxer s.secure.noise } })
    rw [h] at hstage hwire
    exact ⟨.inr hstage, hwire⟩
  · simp only [Op.bind_apply, Op.modify_apply, Op.ofResult_apply] at h
    cases hprepare : MultistreamSelect.prepareOutbound
        s.secure.noise.localExtensions.streamMuxers with
    | error e => simp [hprepare] at h
    | ok proposal =>
      simp only [hprepare] at h
      have hout := queueEncryptedMessage_frame h
      exact ⟨.inl hout.stage, hout.wireRx⟩
  · simp only [Op.bind_apply, Op.modify_apply, Op.pure_apply, Prod.mk.injEq, true_and] at h
    rw [← h]
    exact ⟨.inl rfl, rfl⟩
  · simp only [Op.modify_apply, Prod.mk.injEq, true_and] at h
    obtain ⟨hstage, hwire⟩ := hcomplete
      { s with secure := { s.secure with negotiatedStreamMuxer := selectStreamMuxer s.secure.noise } }
    rw [h] at hstage hwire
    exact ⟨.inr hstage, hwire⟩

/-- A session whose handshake is under way. -/
def Shaking (s : BasicConnectionSession) : Prop :=
  s.secure.stage = .noiseHandshake →
    s.secure.handshakeState ≠ .complete ∧ s.secure.secureReady = false

/-- One handshake frame is taken, and the next one is waited for or the handshake is over. -/
theorem processHandshakeFrame_ok {frame : Bytes} (hstage : s.secure.stage = .noiseHandshake)
    (hsecure : s.secure.secureReady = false)
    (h : processHandshakeFrame S frame s = (.ok (), s')) :
    s'.io.wireRx = s.io.wireRx ∧ Shaking s' ∧ s'.secure.stage ≠ .negotiatingProtocol := by
  have hpast : ∀ {t : BasicConnectionSession},
      (t.secure.stage = .muxerNegotiation ∨ t.secure.stage = .ready) →
      Shaking t ∧ t.secure.stage ≠ .negotiatingProtocol := by
    rintro t (ht | ht)
    · exact ⟨fun hs => absurd (ht.symm.trans hs) (by decide), fun hs => absurd (ht.symm.trans hs) (by decide)⟩
    · exact ⟨fun hs => absurd (ht.symm.trans hs) (by decide), fun hs => absurd (ht.symm.trans hs) (by decide)⟩
  unfold processHandshakeFrame at h
  rw [Op.get_bind] at h
  cases hhs : s.secure.handshakeState with
  | idle => simp [hhs] at h
  | complete => simp [hhs] at h
  | awaitingMsg1 =>
    simp only [hhs, Op.bind_apply, drawEntropy_apply, onNoise_apply] at h
    rcases hprocess : Noise.processMsg1 S (s.secure.random s.secure.drawn) frame s.secure.noise
      with ⟨e | msg2, noise⟩
    · simp [hprocess] at h
    · simp only [hprocess, Op.modify_apply, queueWireMessage_apply] at h
      cases hframe : Noise.encodeFrame msg2 with
      | error e => simp [hframe] at h
      | ok framed =>
        simp only [hframe] at h
        have hout := flushPendingWrites_frame S h
        have hwait : s'.secure.handshakeState = .awaitingMsg3 := hout.handshakeState
        have hstage' : s'.secure.stage = .noiseHandshake := hout.stage.trans hstage
        refine ⟨hout.wireRx, fun _ => ⟨?_, hout.secureReady.trans hsecure⟩, ?_⟩
        · rw [hwait]
          nofun
        · rw [hstage']
          nofun
  | awaitingMsg2 =>
    simp only [hhs, Op.bind_apply, onNoise_apply] at h
    rcases hprocess : Noise.processMsg2 S frame s.secure.noise with ⟨e | msg3, noise⟩
    · simp [hprocess] at h
    · simp only [hprocess, Op.modify_apply, queueWireMessage_apply] at h
      cases hframe : Noise.encodeFrame msg3 with
      | error e => simp [hframe] at h
      | ok framed =>
        simp only [hframe] at h
        rcases hflush : flushPendingWrites { s with
          secure := { s.secure with
            noise, keyLogs := s.secure.keysAfter (Noise.processMsg2Traced S frame)
            handshakeState := .complete }
          io := s.io.queue framed } with ⟨e | _, t⟩
        · erw [hflush] at h
          cases h
        · erw [hflush] at h
          have hout := flushPendingWrites_frame S hflush
          have hready : t.secure.secureReady = false := hout.secureReady.trans hsecure
          obtain ⟨hstage', hwire⟩ := finishSecureUpgrade_ok hready h
          exact ⟨hwire.trans hout.wireRx, hpast hstage'⟩
  | awaitingMsg3 =>
    simp only [hhs, Op.bind_apply, onNoise_apply] at h
    rcases hprocess : Noise.processMsg3 S frame s.secure.noise with ⟨e | _, noise⟩
    · simp [hprocess] at h
    · simp only [hprocess, Op.modify_apply] at h
      obtain ⟨hstage', hwire⟩ := finishSecureUpgrade_ok (by exact hsecure) h
      exact ⟨hwire, hpast hstage'⟩

theorem popFrame_ok {result : Option Bytes} (h : popFrame s = (.ok result, s')) :
    result = none ∧ s' = s ∧ popWire s.io.wireRx = none ∨
      ∃ frame rest, result = some frame ∧ popWire s.io.wireRx = some (frame, rest) ∧
        s' = { s with io := { s.io with wireRx := rest } } := by
  rw [popFrame_apply, tryPopWireFrame_eq] at h
  rcases hpop : popWire s.io.wireRx with _ | ⟨frame, rest⟩
  · rw [hpop] at h
    simp only [Prod.mk.injEq, Except.ok.injEq] at h
    exact .inl ⟨h.1.symm, h.2.symm, rfl⟩
  · rw [hpop] at h
    simp only [Prod.mk.injEq, Except.ok.injEq] at h
    exact .inr ⟨frame, rest, h.1.symm, rfl, h.2.symm⟩

theorem popWire_shorter {buffer frame rest : Bytes} (h : popWire buffer = some (frame, rest)) :
    rest.length < buffer.length := popWire_incremental.shorter h

/-- The handshake loop stops where it waits for a frame, or behind the handshake. -/
theorem handshakeLoop_ok (fuel : ℕ) : ∀ {s : BasicConnectionSession}, s.io.wireRx.length ≤ fuel →
    Shaking s → handshakeLoop S fuel s = (.ok (), s') →
    Shaking s' ∧ (s'.secure.stage = .noiseHandshake → popWire s'.io.wireRx = none) ∧
      (s' = s ∨ s'.secure.stage ≠ .negotiatingProtocol) := by
  induction fuel with
  | zero =>
    intro s hfuel hshaking h
    rw [handshakeLoop, Op.pure_apply, Prod.mk.injEq] at h
    rw [← h.2]
    refine ⟨hshaking, fun _ => ?_, .inl rfl⟩
    rw [List.eq_nil_of_length_eq_zero (Nat.le_zero.mp hfuel)]
    rfl
  | succ fuel ih =>
    intro s hfuel hshaking h
    rw [handshakeLoop, Op.get_bind] at h
    split_ifs at h with hgoing
    · obtain ⟨hready, hstage⟩ := hgoing
      rw [Op.bind_eq_ok] at h
      obtain ⟨result, t, hpop, h⟩ := h
      rcases popFrame_ok hpop with ⟨rfl, rfl, hnone⟩ | ⟨frame, rest, rfl, hsome, rfl⟩
      · obtain rfl : t = s' := congrArg Prod.snd h
        exact ⟨hshaking, fun _ => hnone, .inl rfl⟩
      · dsimp only at h
        rw [Op.bind_eq_ok] at h
        obtain ⟨_, t, hframe, h⟩ := h
        obtain ⟨hwire, hnext, hstage'⟩ :=
          processHandshakeFrame_ok (by exact hstage) (by exact hready) hframe
        have hshorter := popWire_shorter hsome
        have hlen : t.io.wireRx.length ≤ fuel := by
          rw [hwire]
          show rest.length ≤ fuel
          omega
        obtain ⟨hshaking', hrest, hsame⟩ := ih hlen hnext h
        refine ⟨hshaking', hrest, .inr ?_⟩
        rcases hsame with rfl | hne
        · exact hstage'
        · exact hne
    · rw [Op.pure_apply, Prod.mk.injEq] at h
      rw [← h.2]
      refine ⟨hshaking, fun hs => ?_, .inl rfl⟩
      exact absurd ⟨(hshaking hs).2, hs⟩ hgoing

/-! ## The exchange and the data -/

theorem muxerFramesLoop_ok (fuel : ℕ) : ∀ {s : BasicConnectionSession}, s.io.wireRx.length ≤ fuel →
    muxerFramesLoop S fuel s = (.ok (), s') →
    s'.secure.stage = s.secure.stage ∧ popWire s'.io.wireRx = none := by
  induction fuel with
  | zero =>
    intro s hfuel h
    obtain rfl : s = s' := congrArg Prod.snd h
    refine ⟨rfl, ?_⟩
    rw [List.eq_nil_of_length_eq_zero (Nat.le_zero.mp hfuel)]
    rfl
  | succ fuel ih =>
    intro s hfuel h
    rw [muxerFramesLoop, Op.bind_eq_ok] at h
    obtain ⟨result, t, hpop, h⟩ := h
    rcases popFrame_ok hpop with ⟨rfl, rfl, hnone⟩ | ⟨frame, rest, rfl, hsome, rfl⟩
    · obtain rfl : t = s' := congrArg Prod.snd h
      exact ⟨rfl, hnone⟩
    · dsimp only at h
      rw [Op.bind_eq_ok] at h
      obtain ⟨plaintext, t, hopen, h⟩ := h
      rw [Op.bind_apply, Op.modify_apply] at h
      have hsecure : openMessage S frame s.secure = (.ok plaintext, t.secure) ∧
          t.io.wireRx = rest := by
        unfold onSecure Op.zoom at hopen
        obtain ⟨hresult, rfl⟩ := Prod.mk.inj hopen
        exact ⟨Prod.ext hresult rfl, rfl⟩
      have hshorter := popWire_shorter hsome
      obtain ⟨hstage, hnone⟩ := ih (by
        show t.io.wireRx.length ≤ fuel
        rw [hsecure.2]
        omega) h
      exact ⟨hstage.trans (openMessage_plain hsecure.1).2.1, hnone⟩

/-- The muxer exchange is waited for, or over. -/
theorem processMuxerNegotiation_ok (h : processMuxerNegotiation S s = (.ok (), s')) :
    s'.secure.stage = s.secure.stage ∧ popWire s'.io.wireRx = none ∧
        Incomplete s'.muxerNegotiationBuffer ∨
      s'.secure.stage = .ready := by
  unfold processMuxerNegotiation at h
  rw [Op.get_bind, Op.bind_eq_ok] at h
  obtain ⟨_, t, hloop, h⟩ := h
  obtain ⟨hstage, hnone⟩ := muxerFramesLoop_ok _ le_rfl hloop
  rw [Op.get_bind] at h
  cases hspan : MultistreamSelect.exchangeSpan t.muxerNegotiationBuffer with
  | error e =>
    simp only [hspan] at h
    split_ifs at h with he
    · obtain rfl : t = s' := congrArg Prod.snd h
      exact .inl ⟨hstage, hnone, e, hspan, he⟩
    · cases h
  | ok span =>
    simp only [hspan] at h
    rw [Op.bind_eq_ok] at h
    obtain ⟨_, t', -, h⟩ := h
    refine .inr ?_
    obtain rfl := congrArg Prod.snd h
    have hcore := completeReadyState_core
      { t' with muxerNegotiationBuffer := t'.muxerNegotiationBuffer.drop span }
    exact congrArg (fun c => c.secure.stage) hcore

/-- What the upgrade has read leaves it waiting for more. -/
theorem upgradeInput_ok (hactive : s.core.Active) (harmed : Armed s.core)
    (hcomplete : s.secure.stage = .noiseHandshake → s.secure.handshakeState ≠ .complete)
    (h : upgradeInput S s = (.ok (), s')) :
    (s'.secure.stage = .negotiatingProtocol → Incomplete s'.io.wireRx) ∧
      (s'.secure.stage = .noiseHandshake →
        popWire s'.io.wireRx = none ∧ s'.secure.handshakeState ≠ .complete) ∧
      (s'.secure.stage = .muxerNegotiation →
        popWire s'.io.wireRx = none ∧ Incomplete s'.muxerNegotiationBuffer) := by
  have hunready : ∀ {t : BasicConnectionSession}, Armed t.core → t.secure.stage ≠ .ready →
      t.secure.secureReady = false := fun {t} ht hstage => by
    rw [← Bool.not_eq_true]
    exact fun hready => hstage (ht.secureReady hready).1
  -- behind the greeting
  have hrest : ∀ t : BasicConnectionSession, t.core.Active → Armed t.core → Shaking t →
      (t.secure.stage = .negotiatingProtocol → Incomplete t.io.wireRx) →
      (do
        let s ← Op.get
        handshakeLoop S s.io.wireRx.length
        let s ← Op.get
        if s.secure.secureReady = false ∧ s.secure.stage = .muxerNegotiation then
          processMuxerNegotiation S : Method Unit) t = (.ok (), s') →
      (s'.secure.stage = .negotiatingProtocol → Incomplete s'.io.wireRx) ∧
        (s'.secure.stage = .noiseHandshake →
          popWire s'.io.wireRx = none ∧ s'.secure.handshakeState ≠ .complete) ∧
        (s'.secure.stage = .muxerNegotiation →
          popWire s'.io.wireRx = none ∧ Incomplete s'.muxerNegotiationBuffer) := by
    intro t hactive harmed hshaking hgreeting h
    rw [Op.get_bind, Op.bind_eq_ok] at h
    obtain ⟨_, t', hloop, h⟩ := h
    obtain ⟨hshaking', hnone, hsame⟩ := handshakeLoop_ok _ le_rfl hshaking hloop
    have hends := handshakeLoop_ends (S := S) t.io.wireRx.length t hactive
    rw [hloop] at hends
    have harmed' : Armed t'.core := hends.1.invariant (fun _ _ hc hmove => hc.move hmove) harmed
    have hgreeting' : t'.secure.stage = .negotiatingProtocol → Incomplete t'.io.wireRx := by
      rcases hsame with rfl | hne
      · exact hgreeting
      · exact fun hs => absurd hs hne
    rw [Op.get_bind] at h
    split_ifs at h with hmuxer
    · rcases processMuxerNegotiation_ok h with ⟨hstage, hpop, hincomplete⟩ | hstage
      · rw [hmuxer.2] at hstage
        exact ⟨fun hs => absurd (hstage.symm.trans hs) (by decide), fun hs => absurd (hstage.symm.trans hs) (by decide),
          fun _ => ⟨hpop, hincomplete⟩⟩
      · exact ⟨fun hs => absurd (hstage.symm.trans hs) (by decide), fun hs => absurd (hstage.symm.trans hs) (by decide),
          fun hs => absurd (hstage.symm.trans hs) (by decide)⟩
    · obtain rfl : t' = s' := congrArg Prod.snd h
      refine ⟨hgreeting', fun hs => ⟨hnone hs, (hshaking' hs).1⟩, fun hs => ?_⟩
      exact absurd ⟨hunready harmed' (by rw [hs]; nofun), hs⟩ hmuxer
  unfold upgradeInput at h
  rw [Op.get_bind] at h
  split_ifs at h with hstage
  · rw [Op.bind_eq_ok] at h
    obtain ⟨_, t, hgreet, h⟩ := h
    have hends := processProtocolNegotiation_ends (S := S) s hactive hstage
    rw [hgreet] at hends
    have harmed' : Armed t.core := hends.1.invariant (fun _ _ hc hmove => hc.move hmove) harmed
    rcases processProtocolNegotiation_ok hgreet with ⟨rfl, hincomplete⟩ | ⟨hshake, hstate, hready⟩
    · exact hrest t hactive harmed (fun hs => absurd (hstage.symm.trans hs) (by decide)) (fun _ => hincomplete) h
    · refine hrest t hends.2 harmed' (fun _ => ⟨hstate, ?_⟩)
        (fun hs => absurd (hshake.symm.trans hs) (by decide)) h
      rw [hready]
      exact hunready harmed (by rw [hstage]; nofun)
  · exact hrest s hactive harmed (fun hs => ⟨hcomplete hs, hunready harmed (by rw [hs]; nofun)⟩)
      (fun hs => absurd hs hstage) h

/-! ## Between two calls -/

/-- A session that is closed, or waits for bytes. -/
def Rests (s : BasicConnectionSession) : Prop := s.isActive = true → AtRest s.core

theorem rests_of_closed {s : BasicConnectionSession} (h : s.state = .closed) : Rests s := by
  intro hactive
  rw [isActive_of_closed h] at hactive
  cases hactive

theorem AtRest.of_frame {c c' : Core} (h : AtRest c) (hframe : OutFrame c c') : AtRest c' where
  greeting := by
    rw [hframe.stage, hframe.wireRx]
    exact h.greeting
  handshake := by
    rw [hframe.stage, hframe.wireRx, hframe.handshakeState]
    exact h.handshake
  exchange := by
    rw [hframe.stage, hframe.wireRx, hframe.muxerNegotiationBuffer]
    exact h.exchange
  data := by
    rw [hframe.stage, hframe.wireRx]
    exact h.data

theorem Rests.of_frame (h : Rests s) (hframe : OutFrame s.core s'.core) : Rests s' := by
  intro hactive
  rw [isActive_iff, hframe.active_iff, ← isActive_iff] at hactive
  exact (h hactive).of_frame hframe

theorem recvLoop_secure (answers : List RecvAnswer) : ∀ s : BasicConnectionSession,
    (recvLoop answers s).1 = true → (recvLoop answers s).2.secure = s.secure := by
  induction answers with
  | nil => exact fun _ _ => rfl
  | cons answer rest ih =>
    intro s hgoes
    cases answer with
    | data bytes =>
      rw [recvLoop] at hgoes ⊢
      split_ifs at hgoes ⊢
      exact ih _ hgoes
    | reset => cases hgoes
    | again => rfl
    | failed error => cases hgoes

theorem onSocketReadable_rests (answers : List RecvAnswer) (h : Rests s) (harmed : Armed s.core)
    (hdrained : Drained s)
    (hready : (onSocketReadable S answers s).secure.stage = .ready →
      (onSocketReadable S answers s).secure.secureReady = true) :
    Rests (onSocketReadable S answers s) := by
  have hdrained' := onSocketReadable_drained (S := S) answers hdrained harmed
  unfold onSocketReadable at hdrained' hready ⊢
  split_ifs at hdrained' hready ⊢ with hinactive
  · exact h
  · rw [Bool.not_eq_false] at hinactive
    have hrests := h hinactive
    rw [isActive_iff] at hinactive
    have hrecv := recvLoop_moves (S := S) answers s hinactive
    have hsecure := recvLoop_secure answers s
    rcases hloop : recvLoop answers s with ⟨_ | _, s₁⟩ <;> rw [hloop] at hrecv hsecure
    · have hclosed := recvLoop_closed answers s (by rw [hloop])
      rw [hloop] at hclosed
      exact rests_of_closed hclosed
    · rw [hloop] at hdrained' hready
      dsimp only at hrecv hsecure hdrained' hready ⊢
      have hactive₁ := hrecv.2 rfl
      have harmed₁ : Armed s₁.core := hrecv.1.invariant (fun _ _ hc hmove => hc.move hmove) harmed
      rw [processPendingInput_eq, Op.bind_apply] at hdrained' hready ⊢
      have hupgrade := upgradeInput_ends (S := S) s₁ hactive₁
      rcases hrun : upgradeInput S s₁ with ⟨e | _, s₂⟩ <;> rw [hrun] at hupgrade
      · exact rests_of_closed (close_state _)
      · have harmed₂ : Armed s₂.core :=
          hupgrade.1.invariant (fun _ _ hc hmove => hc.move hmove) harmed₁
        have hinput := upgradeInput_ok hactive₁ harmed₁ (by
          rw [hsecure rfl]
          exact fun hs => (hrests.handshake hs).2) hrun
        rw [hrun] at hdrained' hready
        simp only [Op.bind_apply, Op.get_apply] at hdrained' hready ⊢
        split_ifs at hdrained' hready ⊢ with hnot
        · intro hactive
          refine ⟨hinput.1, hinput.2.1, hinput.2.2, fun hs => ?_⟩
          exact hdrained' hactive (hready hs)
        · rw [Bool.not_eq_false] at hnot
          have hdata := dataLoop_ends (S := S) s₂.io.wireRx.length s₂ hupgrade.2 hnot
          rcases hloop' : dataLoop S s₂.io.wireRx.length s₂ with ⟨e | _, s₃⟩ <;> rw [hloop'] at hdata
          · exact rests_of_closed (close_state _)
          · rw [hloop'] at hdrained' hready
            have hstage : s₃.secure.stage = .ready :=
              hdata.1.invariant (P := fun c => c.secure.stage = .ready)
                (fun _ _ hc hmove => (hmove.later hc).stage.trans hc) (harmed₂.secureReady hnot).1
            intro hactive
            exact ⟨fun hs => absurd (hstage.symm.trans hs) (by decide),
              fun hs => absurd (hstage.symm.trans hs) (by decide),
              fun hs => absurd (hstage.symm.trans hs) (by decide),
              fun hs => hdrained' hactive (hready hs)⟩

/-- What the calls of `NoRestart` leave. -/
theorem step_rests (h : Rests s) (harmed : Armed s.core) (hdrained : Drained s) {a : Action}
    (hno : NoRestart s a)
    (hready : (step S s a).secure.stage = .ready → (step S s a).secure.secureReady = true) :
    Rests (step S s a) := by
  have hsame : ∀ {t : BasicConnectionSession}, t.core = s.core → Rests t := fun hcore => by
    refine h.of_frame ?_
    rw [hcore]
    exact OutFrame.refl _
  have hbegun : a.isBegin = true → Rests (step S s a) := by
    intro hkind
    rcases step_begin (S := S) s hkind with hcore | ⟨c, hbegin, -⟩
    · exact hsame hcore
    · rcases hno hkind with hsecure | hinactive
      · rw [show s.secure.secureReady = false from hbegin.guard.2] at hsecure
        cases hsecure
      · rw [(isActive_iff s).mpr hbegin.guard.1] at hinactive
        cases hinactive
  cases a with
  | answers sends shutdownError => exact h.of_frame ⟨rfl, rfl, rfl, rfl, rfl, rfl, rfl, rfl, rfl, rfl⟩
  | readable answers => exact onSocketReadable_rests answers h harmed hdrained hready
  | writable =>
    rw [step, onSocketWritable]
    split_ifs
    · exact h
    · have hframe := OutMoves.frame (flushPendingWrites_out (S := S) s)
      rcases hrun : flushPendingWrites s with ⟨e | _, t⟩ <;> rw [hrun] at hframe
      · exact rests_of_closed (close_state _)
      · exact h.of_frame hframe
  | timeout =>
    rw [step, onTimeout]
    split_ifs
    · exact h
    · exact h
    · exact rests_of_closed (close_state _)
  | beginOutbound => exact hbegun rfl
  | beginInbound => exact hbegun rfl
  | openStream protocol => exact h.of_frame (OutMoves.frame (requestOpenStream_out protocol s))
  | acceptStream => exact hsame (acceptInboundStream_core s)
  | nextEvent => exact hsame (nextEvent_core s)
  | close => exact rests_of_closed (close_state s)
  | tryRead handle size => exact h.of_frame (OutMoves.frame (streamTryRead_out handle size s))
  | tryWrite handle data => exact h.of_frame (OutMoves.frame (streamTryWrite_out handle data s))
  | closeWrite handle => exact h.of_frame (OutMoves.frame (streamCloseWrite_out handle s))
  | reset handle =>
    cases handle with
    | yamux stream => exact h.of_frame (OutMoves.frame (streamReset_yamux_out stream s))
    | direct stream =>
      have hio : (step S s (.reset (.direct stream))).core =
        { s.core with io := closeSocket s.io } := rfl
      by_cases hclosed : s.io.socketOpen = false ∨ s.io.fd < 0
      · refine hsame ?_
        rw [hio, closeSocket, if_pos hclosed]
        rfl
      · intro hactive
        have hopen := ((isActive_iff _).mp hactive).1
        rw [hio] at hopen
        change (closeSocket s.io).socketOpen = true at hopen
        rw [closeSocket, if_neg hclosed] at hopen
        cases hopen

end Input

/-! ## Runs -/

theorem Onward.secureReady {role : Bool} {P : Upgrade → SecureChannelState → Prop} {c : Core}
    (h : Onward S role P c) (hready : c.secure.stage = .ready) : c.secure.secureReady = true := by
  rcases h with ⟨-, hstage⟩ | ⟨u, channel, -, hearly, -⟩ | ⟨u, channel, -, -, hsettled⟩
  · rw [hready] at hstage
    simp at hstage
  · have hstage := hearly.stage
    rw [← hearly.secure, hready] at hstage
    simp at hstage
  · rcases hsettled.established.keyed.stage with ⟨hstage, -⟩ | ⟨-, hkeys⟩
    · rw [hready] at hstage
      cases hstage
    · exact hkeys

theorem Begin.atRest {c c' : Core} (h : Begin c c') (hnone : c.io.wireRx = []) : AtRest c' := by
  have hstage : c'.secure.stage = .negotiatingProtocol := by cases h <;> rfl
  have hwire : c'.io.wireRx = [] := by cases h <;> exact hnone
  constructor
  · intro _
    rw [hwire]
    exact incomplete_nil
  all_goals
    intro hs
    rw [hstage] at hs
    cases hs

/-- A session on its way waits for bytes after each call. -/
theorem Onward.rests {role : Bool} {P : Upgrade → SecureChannelState → Prop}
    (hP : Followed S role P) {s t : BasicConnectionSession} (hrun : Runs S NoRestart s t)
    (hs : Onward S role P s.core) (hrests : Rests s) (hdrained : Drained s)
    (harmed : Armed s.core) : Rests t := by
  refine (hrun.invariant (P := fun s => Rests s ∧ Drained s ∧ Armed s.core ∧ Onward S role P s.core)
    ⟨hrests, hdrained, harmed, hs⟩ fun s a ⟨hrests, hdrained, harmed, hs⟩ ha => ?_).1
  have hnext : Onward S role P (step S s a).core :=
    (Runs.step .refl a ha).noRestart_invariant (P := Onward S role P)
      (fun _ _ h hmove => h.move hP hmove) hs
  exact ⟨step_rests hrests harmed hdrained ha hnext.secureReady, step_drained hdrained harmed a,
    harmed.step a, hnext⟩

section Runs

variable {id : ConnectionId} {fd : ℤ} {addr : Multiaddr} {identity : Option Identity}
  {streamMuxers : List ProtocolId} {random : ℕ → Entropy} {s : BasicConnectionSession}

theorem initiator_rests
    (hrun : Runs S NoRestart
      (step S (make id fd addr true identity streamMuxers random) .beginOutbound) s) :
    Rests s := by
  obtain ⟨c, hbegin, hout⟩ := beginOutboundUpgrade_starts (S := S)
    (s := make id fd addr true identity streamMuxers random) ⟨rfl, nofun, nofun⟩ (by
      rintro (h | h) <;> cases h) rfl
  have hfirst : Rests (step S (make id fd addr true identity streamMuxers random) .beginOutbound) :=
    fun _ => (hbegin.atRest rfl).of_frame hout.frame
  have hdrained := step_drained (S := S) (s := make id fd addr true identity streamMuxers random)
    nofun (make_armed id fd addr true identity streamMuxers random) .beginOutbound
  exact (initiator_onward .refl).rests (dialing_followed (random 0) _) hrun hfirst hdrained
    ((make_armed id fd addr true identity streamMuxers random).step _)

theorem responder_rests
    (hrun : Runs S NoRestart
      (step S (make id fd addr false identity streamMuxers random) .beginInbound) s) :
    Rests s := by
  have hfirst : Rests (step S (make id fd addr false identity streamMuxers random) .beginInbound) :=
    fun _ => (Begin.inbound (make id fd addr false identity streamMuxers random).core
      ⟨rfl, nofun, nofun⟩ rfl rfl).atRest rfl
  have hdrained := step_drained (S := S) (s := make id fd addr false identity streamMuxers random)
    nofun (make_armed id fd addr false identity streamMuxers random) .beginInbound
  exact (responder_onward .refl).rests (answering_followed (random 0) _) hrun hfirst hdrained
    ((make_armed id fd addr false identity streamMuxers random).step _)

end Runs

end PeerCore.Connection
