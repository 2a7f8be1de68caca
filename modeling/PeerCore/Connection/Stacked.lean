import PeerCore.Connection.Conversation
import PeerCore.Connection.Handles

/-!
# The Yamux sessions of two connected sessions

While two sessions are on their way to Yamux or have reached it, their Yamux sessions and
the history of their users are those of a run of two Yamux sessions joined by FIFO channels:
what is on such a channel is what one side has encrypted and the other one has not
decrypted.

* `Abreast`: one session and one end.
* `upgradeInput_outcome`: the upgrade has made the Yamux session or not begun to.
* `Accompanies`: the same with what the users did, kept by each call on a stream.
-/

namespace PeerCore.Connection

open BasicConnectionSession
open Noise (Entropy NoiseSession Honest)
open Yamux (YamuxSession Host Link Mirrored Mirrors record)

variable {S : Noise.Sodium}

/-! ## Encryption as a channel -/

/-- While there are nonces left, what was encrypted is what the channel has delivered and
    holds. -/
def Sends (delivered : Bytes) (s : BasicConnectionSession) (l : Link) : Prop :=
  (s.secure.noise.csSend.hasKey = true ∧
    s.secure.noise.csSend.nonce.toNat = s.secure.sealed.length) ∧
  (s.secure.sealed.length < 2 ^ 64 - 1 → s.secure.said.flatten = delivered ++ l.wire)

theorem sealMessage_of_key (hS : S.Correct) {secure : SecureChannelState}
    (hkey : secure.noise.csSend.hasKey = true)
    (hnonce : secure.noise.csSend.nonce.toNat ≠ 2 ^ 64 - 1) (data : Bytes) :
    ∃ ciphertext secure', sealMessage S data secure = (.ok ciphertext, secure') := by
  obtain ⟨c, hencrypt, -, -⟩ := Noise.encryptWithKey_ok hS secure.noise.csSend.key
    secure.noise.csSend.nonce data []
  unfold sealMessage Noise.encrypt
  simp only [Op.bind_apply, Op.ofResult_apply, Noise.ensureSodiumReady_eq hS, Op.get_apply, hkey,
    if_neg hnonce, Bool.true_eq_false, if_false, hencrypt, Op.modify_apply, Op.pure_apply]
  exact ⟨_, _, rfl⟩

/-- One encrypted message is one more on the channel. -/
theorem Sends.message (hS : S.Correct) {delivered : Bytes} {s : BasicConnectionSession} {l l' : Link}
    (h : Sends delivered s l) (data : Bytes) (hl : l'.wire = l.wire ++ data) :
    Sends delivered (queueEncryptedMessage S data s).2 l' := by
  obtain ⟨⟨hkey, hnonce⟩, hsaid⟩ := h
  rcases hseal : sealMessage S data s.secure with ⟨e | ciphertext, secure⟩
  · -- `encrypt` fails for want of nonces only
    have hrun : queueEncryptedMessage S data s = (.error e, s) := by
      unfold queueEncryptedMessage
      simp only [Op.bind_apply, onSecure, Op.zoom, hseal]
      rw [sealMessage_error hseal]
    rw [hrun]
    refine ⟨⟨hkey, hnonce⟩, fun hfew => ?_⟩
    have hleft : s.secure.sealed.length < 2 ^ 64 - 1 := hfew
    obtain ⟨ciphertext, secure', hok⟩ := sealMessage_of_key hS hkey (by omega) data
    rw [hseal] at hok
    cases hok
  · have hrun : (queueEncryptedMessage S data s).2.secure = secure := by
      unfold queueEncryptedMessage
      simp only [Op.bind_apply, onSecure, Op.zoom, hseal, queueWireMessage_apply]
      cases Noise.encodeFrame ciphertext <;> rfl
    obtain ⟨-, hlast, -, hsecure⟩ := sealMessage_ok hseal
    have hnext := toNat_succ hlast
    unfold Sends SecureChannelState.said
    rw [hrun, hsecure]
    refine ⟨⟨hkey, ?_⟩, fun hfew => ?_⟩
    · show (s.secure.noise.csSend.nonce + 1).toNat = (s.secure.sealed ++ [_]).length
      rw [hnext, hnonce, List.length_append, List.length_singleton]
    · have hbefore : (s.secure.sealed.map (·.plaintext)).flatten = delivered ++ l.wire := by
        refine hsaid ?_
        simp only [List.length_append, List.length_singleton] at hfew
        omega
      simp only [List.map_append, List.map_cons, List.map_nil, List.flatten_append, List.flatten_cons,
        List.flatten_nil, List.append_nil]
      rw [hbefore, hl, List.append_assoc]

/-- The callbacks of `activate_yamux` use the channel as those of an end do that sends
    everything at once. -/
theorem yamux_mirrors (hS : S.Correct) (delivered : Bytes) :
    Mirrors (yamuxCallbacks S) (Yamux.callbacks fun _ => true) (Sends delivered) where
  accept := fun _ _ _ _ h => h
  outgoing := fun sendBuf s l h => by
    unfold Yamux.send yamuxCallbacks Yamux.callbacks
    dsimp only
    rw [if_pos rfl]
    by_cases hempty : sendBuf = []
    · rw [if_pos hempty]
      refine ⟨rfl, h.1, fun hfew => ?_⟩
      have hsaid : s.secure.said.flatten = delivered ++ l.wire := h.2 hfew
      show s.secure.said.flatten = delivered ++ (l.wire ++ sendBuf)
      rw [hsaid, hempty, List.append_nil]
    · rw [if_neg hempty]
      exact ⟨rfl, h.message hS sendBuf rfl⟩
  close := fun _ _ _ _ _ h => h

/-! ## One side -/

/-- A session and an end: the Yamux session is the same, and what was encrypted is what the
    channel has delivered and holds. -/
structure Abreast (delivered : Bytes) (s : BasicConnectionSession) (h : Host Link) : Prop where
  session : h.1 = s.muxer
  said : s.secure.said.flatten = delivered ++ h.2.wire

/-- A method of the Yamux session, on both. -/
theorem Abreast.method {delivered : Bytes} {α β : Type} {x : Op (Host BasicConnectionSession) α}
    {x' : Op (Host Link) β} {s : BasicConnectionSession} {yamux : YamuxSession} {h : Host Link}
    (hs : Abreast delivered s h) (hyamux : s.yamuxSession = some yamux)
    (hkeyed : s.secure.noise.csSend.hasKey = true ∧
      s.secure.noise.csSend.nonce.toNat = s.secure.sealed.length)
    (hx : ∀ {g : Host BasicConnectionSession} {g' : Host Link}, Mirrored (Sends delivered) g g' →
      Mirrored (Sends delivered) (x g).2 (x' g').2)
    (hfew : (onYamux x s).2.secure.sealed.length < 2 ^ 64 - 1) :
    Abreast delivered (onYamux x s).2 (x' h).2 := by
  have hmirrored : Mirrored (Sends delivered) (yamux, s) h :=
    ⟨hs.session.trans (muxer_of_some hyamux), hkeyed, fun _ => hs.said⟩
  obtain ⟨hsession, -, hsaid⟩ := hx hmirrored
  have hrun : (onYamux x s).2 =
      { (x (yamux, s)).2.2 with yamuxSession := some (x (yamux, s)).2.1 } := by
    unfold onYamux
    rw [hyamux]
  rw [hrun] at hfew ⊢
  exact ⟨hsession.trans (muxer_of_some rfl).symm, hsaid hfew⟩

/-! ## What leaves the streams alone -/

/-- The Yamux session, the logs of the secure channel and whether it is ready are the same. -/
structure Undisturbed (s s' : BasicConnectionSession) : Prop where
  isInitiator : s'.isInitiator = s.isInitiator
  yamuxSession : s'.yamuxSession = s.yamuxSession
  sealed : s'.secure.sealed = s.secure.sealed
  opened : s'.secure.opened = s.secure.opened
  secureReady : s'.secure.secureReady = s.secure.secureReady

theorem Undisturbed.refl (s : BasicConnectionSession) : Undisturbed s s := ⟨rfl, rfl, rfl, rfl, rfl⟩

theorem Undisturbed.trans {a b c : BasicConnectionSession} (h : Undisturbed a b)
    (h' : Undisturbed b c) : Undisturbed a c :=
  ⟨h'.isInitiator.trans h.isInitiator, h'.yamuxSession.trans h.yamuxSession,
    h'.sealed.trans h.sealed, h'.opened.trans h.opened, h'.secureReady.trans h.secureReady⟩

theorem close_undisturbed (s : BasicConnectionSession) : Undisturbed s (close s) := by
  have hcore := close_core s
  have hsame : (close s).core.isInitiator = s.isInitiator ∧ (close s).core.secure = s.secure := by
    rw [hcore]
    split_ifs <;> exact ⟨rfl, rfl⟩
  have hsecure : (close s).secure = s.secure := hsame.2
  exact ⟨hsame.1, close_yamuxSession s, by rw [hsecure], by rw [hsecure], by rw [hsecure]⟩

theorem emitError_undisturbed (detail : Bytes) (s : BasicConnectionSession) :
    Undisturbed s (emitError detail s) := by
  unfold emitError
  split_ifs <;> exact ⟨rfl, rfl, rfl, rfl, rfl⟩

/-- A failure that is reported, and the closing behind it. -/
theorem closing_undisturbed (detail : Bytes) (s : BasicConnectionSession) :
    Undisturbed s (close (emitError detail s)) :=
  (emitError_undisturbed detail s).trans (close_undisturbed _)

theorem recvLoop_undisturbed (answers : List RecvAnswer) :
    ∀ s : BasicConnectionSession, Undisturbed s (recvLoop answers s).2 := by
  induction answers with
  | nil => exact Undisturbed.refl
  | cons answer rest ih =>
    intro s
    cases answer with
    | data bytes =>
      rw [recvLoop]
      split_ifs
      · exact close_undisturbed s
      · have hrecv : Undisturbed s { s with io := s.io.recv bytes } := ⟨rfl, rfl, rfl, rfl, rfl⟩
        exact hrecv.trans (ih _)
    | reset => exact close_undisturbed s
    | again => exact Undisturbed.refl s
    | failed error => exact closing_undisturbed _ s

/-- A method that leaves the streams alone. -/
def Calm {α : Type} (x : Method α) : Prop := Op.Preserves Undisturbed x

section Calm

variable {α β : Type}

theorem Calm.bind {x : Method α} {f : α → Method β} (hx : Calm x) (hf : ∀ a, Calm (f a)) :
    Calm (x >>= f) := Op.Preserves.bind (fun _ _ _ h h' => h.trans h') hx hf

theorem Calm.pure (a : α) : Calm (Pure.pure a : Method α) := Undisturbed.refl

theorem Calm.fail (e : String) : Calm (Op.fail e : Method α) := Undisturbed.refl

theorem Calm.get : Calm (Op.get : Method BasicConnectionSession) := Undisturbed.refl

theorem Calm.ofResult (r : Result α) : Calm (Op.ofResult r : Method α) := Undisturbed.refl

theorem Calm.onIo (x : Op SessionIoState α) : Calm (Connection.onIo x) :=
  fun _ => ⟨rfl, rfl, rfl, rfl, rfl⟩

theorem Calm.outside {f : BasicConnectionSession → BasicConnectionSession}
    (hf : ∀ s, Undisturbed s (f s)) :
    Calm (Op.modify f) := hf

theorem Calm.onFail {x : Method α} (hx : Calm x)
    {f : BasicConnectionSession → BasicConnectionSession} (hf : ∀ s, Undisturbed s (f s)) :
    Calm (Op.onFail f x) := fun s => by
  have hs := hx s
  unfold Op.onFail
  rcases hrun : x s with ⟨e | a, s'⟩ <;> rw [hrun] at hs
  · exact hs.trans (hf s')
  · exact hs

theorem Calm.onNoise (traced : Noise.Traced β) (x : Op NoiseSession α) :
    Calm (onSecure (Connection.onNoise traced x)) := fun _ => ⟨rfl, rfl, rfl, rfl, rfl⟩

theorem Calm.drawEntropy : Calm (onSecure Connection.drawEntropy) :=
  fun _ => ⟨rfl, rfl, rfl, rfl, rfl⟩

theorem flushStream_calm (stream : ℕ) : Calm (flushStream stream) := by
  have hset : ∀ f : StreamState → StreamState, Calm (Op.modify (·.setDirect stream f)) :=
    fun _ _ => ⟨rfl, rfl, rfl, rfl, rfl⟩
  refine Calm.get.bind fun s => ?_
  split_ifs
  · exact (hset _).bind fun _ => .fail _
  · refine ((Calm.onIo _).onFail (by exact fun _ => ⟨rfl, rfl, rfl, rfl, rfl⟩)).bind fun _ =>
      Calm.get.bind fun s => ?_
    split_ifs
    · cases s.io.socket.shutdownError with
      | some error =>
        exact (Calm.outside (by exact fun _ => ⟨rfl, rfl, rfl, rfl, rfl⟩)).bind fun _ =>
          (hset _).bind fun _ => .fail _
      | none => exact .outside (by exact fun _ => ⟨rfl, rfl, rfl, rfl, rfl⟩)
    · exact .pure _

theorem flushPendingWrites_calm : Calm flushPendingWrites := by
  refine (Calm.onIo _).bind fun _ => Calm.get.bind fun s => ?_
  cases s.streamState with
  | none => exact .pure _
  | some stream =>
    dsimp only
    split_ifs
    · exact flushStream_calm stream
    · exact .pure _

theorem startNoiseHandshake_calm : Calm (startNoiseHandshake S) := by
  refine Calm.drawEntropy.bind fun random => (Calm.onNoise _ _).bind fun msg1 => ?_
  split_ifs
  · exact .fail _
  · exact (Calm.outside (by exact fun _ => ⟨rfl, rfl, rfl, rfl, rfl⟩)).bind fun _ =>
      (Calm.onIo _).bind fun _ => flushPendingWrites_calm

theorem processProtocolNegotiation_calm : Calm (processProtocolNegotiation S) := by
  have herase : ∀ span, Calm (eraseRx span) := fun _ _ => ⟨rfl, rfl, rfl, rfl, rfl⟩
  refine Calm.get.bind fun s => ?_
  cases MultistreamSelect.exchangeSpan s.io.wireRx with
  | error e =>
    dsimp only
    split_ifs
    · exact .pure _
    · exact .fail _
  | ok span =>
    dsimp only
    split_ifs
    · exact (Calm.ofResult _).bind fun _ => (herase span).bind fun _ => startNoiseHandshake_calm
    · refine (Calm.ofResult _).bind fun negotiated => ?_
      split_ifs
      · exact .fail _
      · exact (Calm.onIo _).bind fun _ => flushPendingWrites_calm.bind fun _ =>
          (herase span).bind fun _ => .outside (by exact fun _ => ⟨rfl, rfl, rfl, rfl, rfl⟩)

end Calm

/-! ## The upgrade -/

/-- The streams are those of before, whether Yamux is active by now or not. -/
structure SameStreams (s s' : BasicConnectionSession) : Prop where
  muxer : s'.muxer = s.muxer
  sealed : s'.secure.sealed = s.secure.sealed
  opened : s'.secure.opened = s.secure.opened

theorem SameStreams.trans {a b c : BasicConnectionSession} (h : SameStreams a b)
    (h' : SameStreams b c) : SameStreams a c :=
  ⟨h'.muxer.trans h.muxer, h'.sealed.trans h.sealed, h'.opened.trans h.opened⟩

theorem Undisturbed.same {s s' : BasicConnectionSession} (h : Undisturbed s s') :
    SameStreams s s' := by
  refine ⟨?_, h.sealed, h.opened⟩
  unfold muxer
  rw [h.yamuxSession, h.isInitiator]

/-- The upgrade has not chosen Yamux in the handshake. -/
def Elsewhere (secure : SecureChannelState) : Prop :=
  secure.stage = .muxerNegotiation ∨ secure.stage = .ready ∧ branchOf secure.noise ≠ .yamux

theorem ToMuxed.not_elsewhere {role : Bool} {P : Upgrade → SecureChannelState → Prop} {c : Core}
    (h : ToMuxed S c) (honward : Onward S role P c) : ¬ Elsewhere c.secure := by
  rintro (hstage | ⟨hstage, hbranch⟩)
  · rcases h.early_or_serving honward with ⟨u, channel, -, hearly⟩ | ⟨-, -, -, -, -, hready, -⟩
    · rcases hearly.stage with ⟨hs, -⟩ | hs <;> rw [← hearly.secure, hstage] at hs <;> cases hs
    · rw [hstage] at hready
      cases hready
  · rcases h.early_or_serving honward with ⟨u, channel, -, hearly⟩ | ⟨-, -, -, -, -, -, -, hyamux⟩
    · rcases hearly.stage with ⟨hs, -⟩ | hs <;> rw [← hearly.secure, hstage] at hs <;> cases hs
    · exact hbranch hyamux

/-- What the upgrade makes of a session without a Yamux session. -/
def UpgradeOutcome (s s' : BasicConnectionSession) : Prop :=
  SameStreams s s' ∧ (s'.yamuxSession = none ∨ s'.secure.secureReady = true) ∨
    Elsewhere s'.secure

theorem UpgradeOutcome.of_undisturbed {s s' : BasicConnectionSession} (h : Undisturbed s s')
    (hnone : s.yamuxSession = none) : UpgradeOutcome s s' :=
  .inl ⟨h.same, .inl (h.yamuxSession.trans hnone)⟩

theorem UpgradeOutcome.after {s s' s'' : BasicConnectionSession} (h : Undisturbed s s')
    (h' : UpgradeOutcome s' s'') :
    UpgradeOutcome s s'' := by
  rcases h' with ⟨hsame, hleft⟩ | helse
  · exact .inl ⟨h.same.trans hsame, hleft⟩
  · exact .inr helse

theorem completeReadyState_yamuxSession (s : BasicConnectionSession) :
    (completeReadyState s).yamuxSession = s.yamuxSession ∧
      (completeReadyState s).isInitiator = s.isInitiator ∧
      (completeReadyState s).secure = { s.secure with stage := .ready, secureReady := true } := by
  unfold completeReadyState
  extract_lets
  split_ifs
  · exact ⟨rfl, rfl, rfl⟩
  · exact ⟨rfl, rfl, rfl⟩

/-- The handshake ends with Yamux, or goes elsewhere. -/
theorem finishSecureUpgrade_outcome {s : BasicConnectionSession} (hnone : s.yamuxSession = none)
    (hready : s.secure.secureReady = false) : UpgradeOutcome s (finishSecureUpgrade S s).2 := by
  have hmuxer : s.muxer = .make 0 s.isInitiator := by rw [muxer, hnone]
  unfold finishSecureUpgrade
  rw [Op.get_bind]
  dsimp only
  rw [hready, if_neg Bool.false_ne_true]
  cases validateExpectedRemotePeer s with
  | error e => exact .of_undisturbed (Undisturbed.refl s) hnone
  | ok =>
    simp only [Op.bind_apply, Op.ofResult_apply, Op.modify_apply, Op.get_apply]
    split_ifs with hselect hlocal hrole
    · obtain ⟨hyamux, -, hsecure⟩ := completeReadyState_yamuxSession (activateYamux { s with
        secure := { s.secure with negotiatedStreamMuxer := selectStreamMuxer s.secure.noise } })
      rw [Op.modify_apply]
      refine .inl ⟨⟨?_, ?_, ?_⟩, .inr ?_⟩
      · rw [muxer_of_some hyamux, hmuxer]
        exact YamuxSession.anonymous_make _ _
      · rw [hsecure]
        rfl
      · rw [hsecure]
        rfl
      · rw [hsecure]
    · refine .inr (.inl ?_)
      simp only [Op.bind_apply, Op.modify_apply, Op.ofResult_apply]
      cases MultistreamSelect.prepareOutbound s.secure.noise.localExtensions.streamMuxers with
      | error e => rfl
      | ok proposal =>
        have hframe : ∀ t : BasicConnectionSession,
            OutFrame t.core (queueEncryptedMessage S proposal t).2.core :=
          fun _ => queueEncryptedMessage_frame rfl
        exact (hframe _).stage
    · exact .inr (.inl rfl)
    · refine .inr (.inr ?_)
      obtain ⟨-, -, hsecure⟩ := completeReadyState_yamuxSession { s with
        secure := { s.secure with negotiatedStreamMuxer := selectStreamMuxer s.secure.noise } }
      rw [Op.modify_apply, hsecure]
      exact ⟨rfl, fun hbranch => hselect (branch_yamux.mp hbranch)⟩

/-- A calm method in front. -/
theorem UpgradeOutcome.bind {α : Type} {x : Method α} {f : α → Method Unit}
    {s : BasicConnectionSession} (hx : Calm x) (hnone : s.yamuxSession = none) (hready : s.secure.secureReady = false)
    (hf : ∀ a s', s'.yamuxSession = none → s'.secure.secureReady = false →
      UpgradeOutcome s' (f a s').2) :
    UpgradeOutcome s ((x >>= f) s).2 := by
  have hundisturbed : Undisturbed s (x s).2 := hx s
  rw [Op.bind_apply]
  rcases hrun : x s with ⟨e | a, s'⟩ <;> rw [hrun] at hundisturbed
  · exact .of_undisturbed hundisturbed hnone
  · exact .after hundisturbed
      (hf a s' (hundisturbed.yamuxSession.trans hnone) (hundisturbed.secureReady.trans hready))

theorem processHandshakeFrame_outcome (frame : Bytes) {s : BasicConnectionSession}
    (hnone : s.yamuxSession = none) (hready : s.secure.secureReady = false) :
    UpgradeOutcome s (processHandshakeFrame S frame s).2 := by
  have hset : ∀ hs : HandshakeState, Calm (Op.modify fun s : BasicConnectionSession =>
      { s with secure := { s.secure with handshakeState := hs } }) :=
    fun _ _ => ⟨rfl, rfl, rfl, rfl, rfl⟩
  have hfinish : ∀ s' : BasicConnectionSession, s'.yamuxSession = none →
      s'.secure.secureReady = false → UpgradeOutcome s' (finishSecureUpgrade S s').2 :=
    fun _ => finishSecureUpgrade_outcome
  unfold processHandshakeFrame
  refine UpgradeOutcome.bind .get hnone hready fun s₀ s hnone hready => ?_
  cases s₀.secure.handshakeState with
  | idle => exact .of_undisturbed (Undisturbed.refl s) hnone
  | complete => exact .of_undisturbed (Undisturbed.refl s) hnone
  | awaitingMsg1 =>
    refine .of_undisturbed ?_ hnone
    exact (Calm.drawEntropy.bind fun _ => (Calm.onNoise _ _).bind fun _ => (hset _).bind fun _ =>
      (Calm.onIo _).bind fun _ => flushPendingWrites_calm) s
  | awaitingMsg2 =>
    exact .bind (.onNoise _ _) hnone hready fun _ _ hnone hready =>
      .bind (hset _) hnone hready fun _ _ hnone hready =>
        .bind (.onIo _) hnone hready fun _ _ hnone hready =>
          .bind flushPendingWrites_calm hnone hready fun _ _ => hfinish _
  | awaitingMsg3 =>
    exact .bind (.onNoise _ _) hnone hready fun _ _ hnone hready =>
      .bind (hset _) hnone hready fun _ _ => hfinish _

theorem popFrame_calm : Calm popFrame := by
  refine Calm.get.bind fun s => (Calm.ofResult _).bind fun popped => ?_
  cases popped with
  | none => exact .pure _
  | some popped =>
    exact (Calm.outside (by exact fun _ => ⟨rfl, rfl, rfl, rfl, rfl⟩)).bind fun _ => .pure _

/-- Past the handshake its loop does nothing. -/
theorem handshakeLoop_past (fuel : ℕ) {s : BasicConnectionSession}
    (hpast : s.secure.stage ≠ .noiseHandshake) : handshakeLoop S fuel s = (.ok (), s) := by
  cases fuel with
  | zero => rfl
  | succ fuel =>
    rw [handshakeLoop, Op.get_bind, if_neg (fun h => hpast h.2)]
    rfl

theorem handshakeLoop_outcome (fuel : ℕ) : ∀ {s : BasicConnectionSession},
    (s.yamuxSession = none ∨ s.secure.secureReady = true) →
      UpgradeOutcome s (handshakeLoop S fuel s).2 := by
  induction fuel with
  | zero => exact fun hs => .inl ⟨(Undisturbed.refl _).same, hs⟩
  | succ fuel ih =>
    intro s hs
    rw [handshakeLoop, Op.get_bind]
    split_ifs with hgoing
    · obtain ⟨hready, -⟩ := hgoing
      have hnone : s.yamuxSession = none := by simpa [hready] using hs
      refine .bind popFrame_calm hnone hready fun popped s hnone hready => ?_
      cases popped with
      | none => exact .of_undisturbed (Undisturbed.refl s) hnone
      | some frame =>
        have hframe := processHandshakeFrame_outcome (S := S) frame hnone hready
        show UpgradeOutcome s ((processHandshakeFrame S frame >>= fun _ => handshakeLoop S fuel) s).2
        rw [Op.bind_apply]
        rcases hrun : processHandshakeFrame S frame s with ⟨e | _, s'⟩ <;> rw [hrun] at hframe
        · exact hframe
        · rcases hframe with ⟨hsame, hleft⟩ | helse
          · rcases ih hleft with ⟨hsame', hleft'⟩ | helse
            · exact .inl ⟨hsame.trans hsame', hleft'⟩
            · exact .inr helse
          · -- the loop is over
            have hpast : s'.secure.stage ≠ .noiseHandshake := by
              rcases helse with hstage | ⟨hstage, -⟩ <;> rw [hstage] <;> decide
            show UpgradeOutcome s (handshakeLoop S fuel s').2
            rw [handshakeLoop_past fuel hpast]
            exact .inr helse
    · exact .inl ⟨(Undisturbed.refl s).same, hs⟩

/-- The core after a call of the input loops, when a failure has closed the session. -/
def Core.afterwards (c : Core) : Result Unit → Core
  | .ok _ => c
  | .error _ => c.shut

theorem Core.afterwards_secure (c : Core) (r : Result Unit) : (c.afterwards r).secure = c.secure := by
  cases r <;> rfl

theorem Ended.afterwards {c c' : Core} {r : Result Unit} (h : Ended S c r c') :
    Moves S c (c'.afterwards r) := by
  cases r <;> exact h.1

/-- A session on its way to Yamux has its streams after the upgrade that it had before. -/
theorem upgradeInput_outcome {role : Bool} {P : Upgrade → SecureChannelState → Prop}
    (hP : Followed S role P) {s s' : BasicConnectionSession} {r : Result Unit}
    (hrun : upgradeInput S s = (r, s')) (hactive : s.core.Active)
    (hnone : s.yamuxSession = none) (honward : Onward S role P s.core)
    (hto : ToMuxed S (s'.core.afterwards r)) :
    SameStreams s s' ∧ (s'.yamuxSession = none ∨ s'.secure.secureReady = true) := by
  have hmove : ∀ {c c' : Core}, Onward S role P c → Moves S c c' → Onward S role P c' :=
    fun h hmoves => hmoves.invariant (P := Onward S role P) (fun _ _ h hmove => h.move hP hmove) h
  -- what an outcome comes to at the end
  have hend : ∀ {t : BasicConnectionSession} {r : Result Unit}, UpgradeOutcome s t →
      Onward S role P (t.core.afterwards r) → ToMuxed S (t.core.afterwards r) →
      SameStreams s t ∧ (t.yamuxSession = none ∨ t.secure.secureReady = true) := by
    rintro t r (hsame | helse) ht htoward
    · exact hsame
    · rw [show t.secure = t.core.secure from rfl, ← t.core.afterwards_secure r] at helse
      exact absurd helse (htoward.not_elsewhere ht)
  have hloop : ∀ {t : BasicConnectionSession}, Undisturbed s t → t.core.Active →
      Onward S role P t.core →
      (do
        let s ← Op.get
        handshakeLoop S s.io.wireRx.length
        let s ← Op.get
        if s.secure.secureReady = false ∧ s.secure.stage = .muxerNegotiation then
          processMuxerNegotiation S : Method Unit) t = (r, s') →
      SameStreams s s' ∧ (s'.yamuxSession = none ∨ s'.secure.secureReady = true) := by
    intro t hundisturbed hactive ht hrun
    have houtcome := UpgradeOutcome.after hundisturbed
      (handshakeLoop_outcome (S := S) t.io.wireRx.length
      (.inl (hundisturbed.yamuxSession.trans hnone)))
    have hends := handshakeLoop_ends (S := S) t.io.wireRx.length t hactive
    rw [Op.get_bind, Op.bind_apply] at hrun
    rcases hmiddle : handshakeLoop S t.io.wireRx.length t with ⟨e | _, t'⟩ <;>
      rw [hmiddle] at hrun houtcome hends
    · obtain ⟨rfl, rfl⟩ := Prod.mk.inj hrun
      exact hend houtcome (hmove ht hends.afterwards) hto
    · have ht' := hmove ht hends.1
      change (if t'.secure.secureReady = false ∧ t'.secure.stage = .muxerNegotiation then
        processMuxerNegotiation S else Pure.pure ()) t' = (r, s') at hrun
      split_ifs at hrun with hmuxer
      · -- the muxer exchange does not lead to a Yamux session of the handshake
        have hexchange := processMuxerNegotiation_ends (S := S) t' ⟨hends.2, hmuxer.2, hmuxer.1⟩
        rw [hrun] at hexchange
        exact absurd (.inl hmuxer.2) ((hto.of_moves hexchange.afterwards).not_elsewhere ht')
      · obtain ⟨rfl, rfl⟩ := Prod.mk.inj hrun
        exact hend (r := .ok ()) houtcome ht' hto
  unfold upgradeInput at hrun
  rw [Op.get_bind] at hrun
  split_ifs at hrun with hstage
  · have hcalm := processProtocolNegotiation_calm (S := S) s
    have hends := processProtocolNegotiation_ends (S := S) s hactive hstage
    rw [Op.bind_apply] at hrun
    rcases hfirst : processProtocolNegotiation S s with ⟨e | _, t⟩ <;>
      rw [hfirst] at hrun hcalm hends
    · obtain ⟨rfl, rfl⟩ := Prod.mk.inj hrun
      exact hend (.of_undisturbed hcalm hnone) (hmove honward hends.afterwards) hto
    · exact hloop hcalm hends.2 (hmove honward hends.1) hrun
  · exact hloop (Undisturbed.refl s) hactive honward hrun

/-! ## The users -/

/-- A side and an end with the same history. -/
structure Accompanies (delivered : Bytes) (x : Party) (e : Yamux.End) : Prop where
  abreast : Abreast delivered x.session e.host
  opened : e.opened.length ≤ x.history.opens
  wrote : e.wrote = x.history.wrote
  read : e.read = x.history.read
  closedWrite : e.closedWrite = x.history.closedWrite
  didReset : e.didReset = x.history.didReset

/-- What encrypting with the transport keys needs. -/
def KeyedToSend (s : BasicConnectionSession) : Prop :=
  s.secure.noise.csSend.hasKey = true ∧
    s.secure.noise.csSend.nonce.toNat = s.secure.sealed.length

section Use

variable {delivered : Bytes} {x : Party} {e : Yamux.End} {yamux : YamuxSession}

theorem Accompanies.idOf (h : Accompanies delivered x e) (stream : ℕ) :
    e.idOf stream = x.session.idOf stream := by
  have hsession : e.session = x.session.muxer := h.abreast.session
  rw [Yamux.End.idOf, BasicConnectionSession.idOf, hsession]

/-- A method of the Yamux session that returns nothing of interest. -/
theorem Accompanies.method (h : Accompanies delivered x e)
    (hyamux : x.session.yamuxSession = some yamux)
    (hkeyed : KeyedToSend x.session) {α β : Type} {m : Op (Host BasicConnectionSession) α}
    {m' : Op (Host Link) β}
    (hm : ∀ {g : Host BasicConnectionSession} {g' : Host Link}, Mirrored (Sends delivered) g g' →
      Mirrored (Sends delivered) (m g).2 (m' g').2)
    (hfew : (onYamux m x.session).2.secure.sealed.length < 2 ^ 64 - 1) :
    Accompanies delivered { x with session := (onYamux m x.session).2 } (e.withHost (m' e.host).2) :=
  ⟨h.abreast.method hyamux hkeyed hm hfew, h.opened, h.wrote, h.read, h.closedWrite, h.didReset⟩

variable (hS : S.Correct)
include hS

/-- What a session returns to a reader is what the end returns. -/
theorem Accompanies.tryRead_result (h : Accompanies delivered x e)
    (hyamux : x.session.yamuxSession = some yamux) (hkeyed : KeyedToSend x.session)
    (stream size : ℕ) : (streamTryRead S (.yamux stream) size x.session).1 =
      (Yamux.tryRead (Yamux.callbacks fun _ => true) stream size e.host).1 := by
  have hmirrored : Mirrored (Sends delivered) (yamux, x.session) e.host :=
    ⟨h.abreast.session.trans (muxer_of_some hyamux), hkeyed, fun _ => h.abreast.said⟩
  rw [((yamux_mirrors hS delivered).tryRead stream size hmirrored).1]
  show (onYamux _ _).1 = _
  unfold onYamux
  rw [hyamux]

theorem Accompanies.tryRead (h : Accompanies delivered x e)
    (hyamux : x.session.yamuxSession = some yamux)
    (hkeyed : KeyedToSend x.session) (stream size : ℕ)
    (hfew : (step S x.session (.tryRead (.yamux stream) size)).secure.sealed.length < 2 ^ 64 - 1) :
    Accompanies delivered (x.step S (.tryRead (.yamux stream) size))
      (e.tryRead (fun _ => true) stream size) := by
  have hmirrors := yamux_mirrors hS delivered
  have hmethod := h.method hyamux hkeyed (fun hg => (hmirrors.tryRead stream size hg).2) hfew
  have hresult := h.tryRead_result hS hyamux hkeyed stream size
  have hid := h.idOf stream
  show Accompanies delivered ⟨(streamTryRead S (.yamux stream) size x.session).2,
    x.history.reads (x.session.idOf stream) (streamTryRead S (.yamux stream) size x.session).1⟩ _
  rw [hresult]
  unfold Yamux.End.tryRead
  rcases hrun : Yamux.tryRead (Yamux.callbacks fun _ => true) stream size e.host with
    ⟨error | bytes, g⟩ <;> rw [hrun] at hmethod
  · exact hmethod
  · refine ⟨hmethod.abreast, h.opened, h.wrote, ?_, h.closedWrite, h.didReset⟩
    show record e.read _ _ = record x.history.read _ _
    rw [hid, h.read]

theorem Accompanies.tryWrite (h : Accompanies delivered x e)
    (hyamux : x.session.yamuxSession = some yamux)
    (hkeyed : KeyedToSend x.session) (stream : ℕ) (data : Bytes)
    (hfew : (step S x.session (.tryWrite (.yamux stream) data)).secure.sealed.length < 2 ^ 64 - 1) :
    Accompanies delivered (x.step S (.tryWrite (.yamux stream) data))
      (e.tryWrite (fun _ => true) stream data) := by
  have hmirrors := yamux_mirrors hS delivered
  have hmethod := h.method hyamux hkeyed (hmirrors.tryWrite stream data) hfew
  have hid := h.idOf stream
  have hframed : framed S x.session stream data = Yamux.acceptedBytes data
      (Yamux.tryWrite (Yamux.callbacks fun _ => true) stream data e.host).1 := by
    have hbefore : e.host.1 = x.session.muxer := h.abreast.session
    have hafter : (Yamux.tryWrite (Yamux.callbacks fun _ => true) stream data e.host).2.1 =
        (streamTryWrite S (.yamux stream) data x.session).2.muxer := hmethod.abreast.session
    have htaken := Yamux.tryWrite_taken (fun _ => true) stream data e.host
    rw [framed, ← hbefore, ← hafter, ← hid]
    exact htaken.symm
  have hstep : x.step S (.tryWrite (.yamux stream) data) =
      ⟨(streamTryWrite S (.yamux stream) data x.session).2, { x.history with
        wrote := record x.history.wrote (x.session.idOf stream)
          (framed S x.session stream data) }⟩ := rfl
  rw [hstep, hframed]
  unfold Yamux.End.tryWrite
  rcases hrun : Yamux.tryWrite (Yamux.callbacks fun _ => true) stream data e.host with
    ⟨error | n, g⟩ <;> rw [hrun] at hmethod
  · refine ⟨hmethod.abreast, h.opened, ?_, h.read, h.closedWrite, h.didReset⟩
    show e.wrote = record x.history.wrote _ []
    rw [record, List.append_nil, Function.update_eq_self, h.wrote]
  · refine ⟨hmethod.abreast, h.opened, ?_, h.read, h.closedWrite, h.didReset⟩
    show record e.wrote _ _ = record x.history.wrote _ _
    rw [hid, h.wrote]
    rfl

theorem Accompanies.closeWrite (h : Accompanies delivered x e)
    (hyamux : x.session.yamuxSession = some yamux)
    (hkeyed : KeyedToSend x.session) (stream : ℕ)
    (hfew : (step S x.session (.closeWrite (.yamux stream))).secure.sealed.length < 2 ^ 64 - 1) :
    Accompanies delivered (x.step S (.closeWrite (.yamux stream)))
      (e.closeWrite (fun _ => true) stream) := by
  have hmethod := h.method hyamux hkeyed ((yamux_mirrors hS delivered).closeWrite stream) hfew
  refine ⟨hmethod.abreast, h.opened, h.wrote, h.read, ?_, h.didReset⟩
  show Function.update e.closedWrite _ true = Function.update x.history.closedWrite _ true
  rw [h.idOf, h.closedWrite]

theorem Accompanies.reset (h : Accompanies delivered x e)
    (hyamux : x.session.yamuxSession = some yamux)
    (hkeyed : KeyedToSend x.session) (stream : ℕ)
    (hfew : (step S x.session (.reset (.yamux stream))).secure.sealed.length < 2 ^ 64 - 1) :
    Accompanies delivered (x.step S (.reset (.yamux stream))) (e.reset (fun _ => true) stream) := by
  have hmethod := h.method hyamux hkeyed ((yamux_mirrors hS delivered).reset stream) hfew
  refine ⟨hmethod.abreast, h.opened, h.wrote, h.read, h.closedWrite, ?_⟩
  show Function.update e.didReset _ true = Function.update x.history.didReset _ true
  rw [h.idOf, h.didReset]

end Use

end PeerCore.Connection
