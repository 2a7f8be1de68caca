import PeerCore.Connection.Voice

/-!
# A walk through the methods of a session

Most of what a session does while it is upgraded is about neither its streams nor its
events (`Beside`). What is left is listed in `Upheld`: a property that these steps keep
is kept by every method that is not a call about a stream (`Upheld.readable`,
`Upheld.writable`, …).
-/

namespace PeerCore.Connection

open BasicConnectionSession

/-! ## Steps about something else -/

/-- What a step leaves that is about neither the streams nor the events. -/
structure Beside (s s' : BasicConnectionSession) : Prop where
  secureReady : s'.secure.secureReady = s.secure.secureReady
  streamState : s'.streamState = s.streamState
  pendingInbound : s'.pendingInbound = s.pendingInbound
  eventQueue : s'.eventQueue = s.eventQueue
  yamuxSession : s'.yamuxSession = s.yamuxSession
  directCount : s'.directCount = s.directCount
  ids : ∀ stream, (s'.directStreams stream).id = (s.directStreams stream).id

theorem Beside.refl (s : BasicConnectionSession) : Beside s s :=
  ⟨rfl, rfl, rfl, rfl, rfl, rfl, fun _ => rfl⟩

theorem Beside.trans {a b c : BasicConnectionSession} (h : Beside a b) (h' : Beside b c) :
    Beside a c where
  secureReady := h'.secureReady.trans h.secureReady
  streamState := h'.streamState.trans h.streamState
  pendingInbound := h'.pendingInbound.trans h.pendingInbound
  eventQueue := h'.eventQueue.trans h.eventQueue
  yamuxSession := h'.yamuxSession.trans h.yamuxSession
  directCount := h'.directCount.trans h.directCount
  ids := fun stream => (h'.ids stream).trans (h.ids stream)

section Aside

variable {S : Noise.Sodium} {α β : Type}

/-- A method that is no business of the streams. -/
def Aside (x : Method α) : Prop := Op.Preserves Beside x

theorem Aside.bind {x : Method α} {f : α → Method β} (hx : Aside x) (hf : ∀ a, Aside (f a)) :
    Aside (x >>= f) :=
  Op.Preserves.bind (fun _ _ _ h h' => h.trans h') hx hf

theorem Aside.pure (a : α) : Aside (Pure.pure a : Method α) := Beside.refl

theorem Aside.fail (e : String) : Aside (Op.fail e : Method α) := Beside.refl

theorem Aside.get : Aside (Op.get : Method BasicConnectionSession) := Beside.refl

theorem Aside.ofResult (r : Result α) : Aside (Op.ofResult r : Method α) := Beside.refl

theorem Aside.onIo (x : Op SessionIoState α) : Aside (Connection.onIo x) :=
  fun _ => ⟨rfl, rfl, rfl, rfl, rfl, rfl, fun _ => rfl⟩

theorem Aside.onSecure {x : Op SecureChannelState α}
    (hx : ∀ secure, (x secure).2.secureReady = secure.secureReady) : Aside (Connection.onSecure x) :=
  fun s => ⟨hx s.secure, rfl, rfl, rfl, rfl, rfl, fun _ => rfl⟩

theorem Aside.onNoise (traced : Noise.Traced β) (x : Op Noise.NoiseSession α) :
    Aside (Connection.onSecure (Connection.onNoise traced x)) := Aside.onSecure fun _ => rfl

theorem Aside.modify {f : BasicConnectionSession → BasicConnectionSession} (hf : ∀ s, Beside s (f s)) :
    Aside (Op.modify f) := hf

/-- What only writes keeps the channel. -/
theorem Writing.beside {x : Method α} (hx : Writing x) {s : BasicConnectionSession}
    (hready : (x s).2.secure.secureReady = s.secure.secureReady) : Beside s (x s).2 := by
  obtain ⟨hsame, hids⟩ := hx s
  refine ⟨hready, ?_, ?_, ?_, ?_, ?_, hids⟩ <;> rw [hsame]

theorem Writing.aside {x : Method α} (hx : Writing x) (hout : Writes S x) : Aside x :=
  fun s => hx.beside (OutMoves.frame (hout s)).secureReady

variable (S) in
include S in
theorem flushPendingWrites_aside : Aside flushPendingWrites :=
  flushPendingWrites_writing.aside (S := S) flushPendingWrites_out

theorem queueEncryptedMessage_aside (data : Bytes) : Aside (queueEncryptedMessage S data) := fun s =>
  (queueEncryptedMessage_writing S data).beside
    (congrArg Voice.secureReady (queueEncryptedMessage_voice data s))

theorem startNoiseHandshake_aside : Aside (startNoiseHandshake S) := by
  refine (Aside.onSecure fun _ => rfl).bind fun random => (Aside.onNoise _ _).bind fun msg1 => ?_
  split_ifs
  · exact Aside.fail _
  · exact (Aside.modify (by exact fun _ => ⟨rfl, rfl, rfl, rfl, rfl, rfl, fun _ => rfl⟩)).bind
      fun _ => (Aside.onIo _).bind fun _ => flushPendingWrites_aside S

theorem eraseRx_aside (n : ℕ) : Aside (eraseRx n) :=
  Aside.modify fun _ => ⟨rfl, rfl, rfl, rfl, rfl, rfl, fun _ => rfl⟩

theorem processProtocolNegotiation_aside : Aside (processProtocolNegotiation S) := by
  refine Aside.get.bind fun s => ?_
  cases MultistreamSelect.exchangeSpan s.io.wireRx with
  | error e =>
    dsimp only
    split_ifs
    · exact Aside.pure _
    · exact Aside.fail _
  | ok span =>
    dsimp only
    split_ifs
    · exact (Aside.ofResult _).bind fun _ => (eraseRx_aside span).bind fun _ =>
        startNoiseHandshake_aside
    · refine (Aside.ofResult _).bind fun negotiated => ?_
      split_ifs
      · exact Aside.fail _
      · exact (Aside.onIo _).bind fun _ => (flushPendingWrites_aside S).bind fun _ =>
          (eraseRx_aside span).bind fun _ =>
            Aside.modify (by exact fun _ => ⟨rfl, rfl, rfl, rfl, rfl, rfl, fun _ => rfl⟩)

theorem popFrame_aside : Aside popFrame := by
  refine Aside.get.bind fun s => (Aside.ofResult _).bind fun popped => ?_
  cases popped with
  | none => exact Aside.pure _
  | some p =>
    exact (Aside.modify (by exact fun _ => ⟨rfl, rfl, rfl, rfl, rfl, rfl, fun _ => rfl⟩)).bind
      fun _ => Aside.pure _

theorem openMessage_secureReady (frame : Bytes) (secure : SecureChannelState) :
    (openMessage S frame secure).2.secureReady = secure.secureReady := by
  unfold openMessage
  dsimp only
  split <;> rfl

theorem openMessage_aside (frame : Bytes) : Aside (onSecure (openMessage S frame)) :=
  Aside.onSecure (openMessage_secureReady frame)

theorem muxerFramesLoop_aside (fuel : ℕ) : Aside (muxerFramesLoop S fuel) := by
  induction fuel with
  | zero => exact Aside.pure _
  | succ fuel ih =>
    refine popFrame_aside.bind fun popped => ?_
    cases popped with
    | none => exact Aside.pure _
    | some frame =>
      exact (openMessage_aside frame).bind fun _ =>
        (Aside.modify (by exact fun _ => ⟨rfl, rfl, rfl, rfl, rfl, rfl, fun _ => rfl⟩)).bind fun _ => ih

variable (S) in
include S in
theorem beginOutboundUpgrade_aside : Aside beginOutboundUpgrade := by
  refine Aside.get.bind fun s => ?_
  split_ifs
  · exact Aside.fail _
  · exact Aside.pure _
  · exact Aside.fail _
  · exact (Aside.modify (by exact fun _ => ⟨rfl, rfl, rfl, rfl, rfl, rfl, fun _ => rfl⟩)).bind
      fun _ => (Aside.ofResult _).bind fun proposal => (Aside.onIo _).bind fun _ =>
        flushPendingWrites_aside S

theorem beginInboundUpgrade_aside : Aside beginInboundUpgrade := by
  refine Aside.get.bind fun s => ?_
  split_ifs
  · exact Aside.fail _
  · exact Aside.pure _
  · exact Aside.fail _
  · exact Aside.modify (by exact fun _ => ⟨rfl, rfl, rfl, rfl, rfl, rfl, fun _ => rfl⟩)

end Aside

/-! ## What the other steps keep -/

/-- A property that every step keeps which is about the streams or the events. Yamux is
    activated, and the upgrade completed, before the channel is ready; data is read after. -/
structure Upheld (S : Noise.Sodium) (P : BasicConnectionSession → Prop) : Prop where
  beside : ∀ {s s'}, P s → Beside s s' → P s'
  tell : ∀ {s}, P s → ∀ type detail, ¬type.IsStream → P (s.pushEvent type s.streamStateId detail)
  activate : ∀ {s}, P s → s.secure.secureReady = false → P (activateYamux s)
  complete : ∀ {s}, P s → s.secure.secureReady = false → P (completeReadyState s)
  deliver : ∀ {s}, P s → s.secure.secureReady = true → ∀ plaintext, P (deliverPlaintext S plaintext s).2

namespace Upheld

variable {S : Noise.Sodium} {P : BasicConnectionSession → Prop} {α : Type} (h : Upheld S P)
include h

theorem aside {x : Method α} (hx : Aside x) : Op.Leads P P x := fun s hs => h.beside hs (hx s)

/-- Before the channel is ready. -/
theorem early {x : Method α} (hx : Aside x) :
    Op.Leads (fun s => P s ∧ s.secure.secureReady = false)
      (fun s => P s ∧ s.secure.secureReady = false) x := fun s hs =>
  ⟨h.beside hs.1 (hx s), (hx s).secureReady.trans hs.2⟩

/-- After it is ready. -/
theorem late {x : Method α} (hx : Aside x) :
    Op.Leads (fun s => P s ∧ s.secure.secureReady = true)
      (fun s => P s ∧ s.secure.secureReady = true) x := fun s hs =>
  ⟨h.beside hs.1 (hx s), (hx s).secureReady.trans hs.2⟩

theorem emitError {s : BasicConnectionSession} (hs : P s) (detail : Bytes) : P (emitError detail s) := by
  unfold Connection.emitError
  split_ifs
  · exact hs
  · have hfailed : P { s with state := .failed } :=
      h.beside hs ⟨rfl, rfl, rfl, rfl, rfl, rfl, fun _ => rfl⟩
    exact h.tell hfailed .error detail (by simp [EventType.IsStream])

theorem close {s : BasicConnectionSession} (hs : P s) : P (close s) := by
  unfold Connection.close
  split_ifs with hclosed
  · exact hs
  · extract_lets s₁ s₂ s₃
    have h₁ : P s₁ := h.beside hs ⟨rfl, rfl, rfl, rfl, rfl, rfl, fun _ => rfl⟩
    have h₂ : P s₂ := by
      unfold s₂
      cases s₁.streamState with
      | none => exact h₁
      | some stream =>
        exact h.beside h₁ ⟨rfl, rfl, rfl, rfl, rfl, rfl, setDirect_id s₁ stream fun _ => rfl⟩
    have h₃ : P s₃ := h.beside h₂ ⟨rfl, rfl, rfl, rfl, rfl, rfl, fun _ => rfl⟩
    split_ifs
    · exact h₃
    · exact h.beside (h.tell h₃ .closed (ascii "connection closed") (by simp [EventType.IsStream]))
        ⟨rfl, rfl, rfl, rfl, rfl, rfl, fun _ => rfl⟩

/-- The upgrade is finished once, before the channel is ready. -/
theorem finishSecureUpgrade : Op.Leads P P (finishSecureUpgrade S) := by
  refine Op.Leads.get_bind fun s hs => ?_
  split_ifs with hready
  · exact hs
  · rw [Bool.not_eq_true] at hready
    have hlast : ∀ s : BasicConnectionSession, P s ∧ s.secure.secureReady = false → P s :=
      fun s hs => hs.1
    have hselect : Aside (Op.modify fun s : BasicConnectionSession => { s with
        secure := { s.secure with negotiatedStreamMuxer := selectStreamMuxer s.secure.noise } }) :=
      fun _ => ⟨rfl, rfl, rfl, rfl, rfl, rfl, fun _ => rfl⟩
    refine (h.early (Aside.ofResult _)).bind hlast (fun _ =>
      (h.early hselect).bind hlast fun _ => Op.Leads.get_bind fun s hs => ?_) s ⟨hs, hready⟩
    split_ifs
    · exact h.complete (h.activate hs.1 hs.2) hs.2
    · refine (h.early (Aside.modify ?_)).bind hlast (fun _ =>
        ((h.early (Aside.ofResult _)).bind hlast fun proposal =>
          (h.early (queueEncryptedMessage_aside proposal)).mono (fun _ hs => hs) hlast)) s hs
      exact fun _ => ⟨rfl, rfl, rfl, rfl, rfl, rfl, fun _ => rfl⟩
    · exact h.beside hs.1 ⟨rfl, rfl, rfl, rfl, rfl, rfl, fun _ => rfl⟩
    · exact h.complete hs.1 hs.2

theorem processHandshakeFrame (frame : Bytes) : Op.Leads P P (processHandshakeFrame S frame) := by
  have hhandshake : ∀ next : HandshakeState, Aside (Op.modify fun s : BasicConnectionSession =>
      { s with secure := { s.secure with handshakeState := next } }) := fun next _ =>
    ⟨rfl, rfl, rfl, rfl, rfl, rfl, fun _ => rfl⟩
  have hid : ∀ s, P s → P s := fun _ => id
  refine Op.Leads.get_bind fun s hs => ?_
  cases s.secure.handshakeState with
  | idle => exact hs
  | awaitingMsg1 =>
    refine h.aside ?_ s hs
    exact (Aside.onSecure fun _ => rfl).bind fun random => (Aside.onNoise _ _).bind fun msg2 =>
      (hhandshake _).bind fun _ => (Aside.onIo _).bind fun _ => flushPendingWrites_aside S
  | awaitingMsg2 =>
    exact ((h.aside (Aside.onNoise _ _)).bind hid fun msg3 => (h.aside (hhandshake _)).bind hid fun _ =>
      (h.aside (Aside.onIo _)).bind hid fun _ => (h.aside (flushPendingWrites_aside S)).bind hid
        fun _ => h.finishSecureUpgrade) s hs
  | awaitingMsg3 =>
    exact ((h.aside (Aside.onNoise _ _)).bind hid fun _ => (h.aside (hhandshake _)).bind hid fun _ =>
      h.finishSecureUpgrade) s hs
  | complete => exact hs

theorem handshakeLoop (fuel : ℕ) : Op.Leads P P (handshakeLoop S fuel) := by
  have hid : ∀ s, P s → P s := fun _ => id
  induction fuel with
  | zero => exact hid
  | succ fuel ih =>
    refine Op.Leads.get_bind fun s hs => ?_
    split_ifs
    · refine (h.aside popFrame_aside).bind hid (fun popped => ?_) s hs
      cases popped with
      | none => exact hid
      | some frame => exact (h.processHandshakeFrame frame).bind hid fun _ => ih
    · exact hs

theorem adoptMuxer (muxer : ProtocolId) :
    Op.Leads (fun s => P s ∧ s.secure.secureReady = false)
      (fun s => P s ∧ s.secure.secureReady = false) (Op.modify (adoptMuxer muxer)) := by
  rintro s ⟨hs, hready⟩
  have hchosen : P { s with secure := { s.secure with negotiatedStreamMuxer := some muxer } } :=
    h.beside hs ⟨rfl, rfl, rfl, rfl, rfl, rfl, fun _ => rfl⟩
  rw [Op.modify_apply, Connection.adoptMuxer]
  dsimp only
  split_ifs
  · exact ⟨h.activate hchosen hready, hready⟩
  · exact ⟨hchosen, hready⟩

theorem answerMuxerExchange (exchange : Bytes) :
    Op.Leads (fun s => P s ∧ s.secure.secureReady = false)
      (fun s => P s ∧ s.secure.secureReady = false) (answerMuxerExchange S exchange) := by
  have hid : ∀ s : BasicConnectionSession, P s ∧ s.secure.secureReady = false →
      P s ∧ s.secure.secureReady = false := fun _ => id
  refine Op.Leads.get_bind fun s hs => ?_
  split_ifs
  · cases MultistreamSelect.readOutboundResponse exchange
      (s.secure.noise.localExtensions.streamMuxers.headD []) with
    | ok selected => exact h.adoptMuxer selected s hs
    | error e =>
      dsimp only
      split_ifs
      · exact hs
      · exact hs
  · refine ((h.early (Aside.ofResult _)).bind hid fun negotiated =>
      (h.early (queueEncryptedMessage_aside _)).bind hid fun _ => ?_) s hs
    cases negotiated.protocol with
    | some muxer => exact h.adoptMuxer muxer
    | none => exact hid

theorem processMuxerNegotiation :
    Op.Leads (fun s => P s ∧ s.secure.secureReady = false) P (processMuxerNegotiation S) := by
  have hlast : ∀ s : BasicConnectionSession, P s ∧ s.secure.secureReady = false → P s :=
    fun s hs => hs.1
  refine Op.Leads.get_bind fun s hs => ((h.early (muxerFramesLoop_aside _)).bind hlast fun _ =>
    Op.Leads.get_bind fun s hs => ?_) s hs
  cases MultistreamSelect.exchangeSpan s.muxerNegotiationBuffer with
  | error e =>
    dsimp only
    split_ifs
    · exact hs.1
    · exact hs.1
  | ok span =>
    refine ((h.answerMuxerExchange _).bind hlast fun _ => Op.Leads.modify fun s hs => ?_) s hs
    have hdropped : P { s with muxerNegotiationBuffer := s.muxerNegotiationBuffer.drop span } :=
      h.beside hs.1 ⟨rfl, rfl, rfl, rfl, rfl, rfl, fun _ => rfl⟩
    exact h.complete hdropped hs.2

theorem dataLoop (fuel : ℕ) : Op.Leads (fun s => P s ∧ s.secure.secureReady = true) P (dataLoop S fuel) := by
  have hlast : ∀ s : BasicConnectionSession, P s ∧ s.secure.secureReady = true → P s :=
    fun s hs => hs.1
  induction fuel with
  | zero => exact hlast
  | succ fuel ih =>
    refine (h.late popFrame_aside).bind hlast fun popped => ?_
    cases popped with
    | none => exact hlast
    | some frame =>
      refine (h.late (openMessage_aside frame)).bind hlast fun plaintext =>
        Op.Leads.bind (fun s hs => ?_) hlast fun _ => ih
      exact ⟨h.deliver hs.1 hs.2 plaintext,
        (OutMoves.frame (deliverPlaintext_out (S := S) plaintext s)).secureReady.trans hs.2⟩

theorem processPendingInput : Op.Leads P P (processPendingInput S) := by
  have hid : ∀ s, P s → P s := fun _ => id
  have hdata : Op.Leads P P (do
      let s ← Op.get
      if s.secure.secureReady = false then pure ()
      else Connection.dataLoop S s.io.wireRx.length : Method Unit) :=
    Op.Leads.get_bind fun s hs => by
      split_ifs with hready
      · exact hs
      · rw [Bool.not_eq_false] at hready
        exact h.dataLoop _ s ⟨hs, hready⟩
  have hframes : Op.Leads P P (processFrames (S := S)) :=
    Op.Leads.get_bind fun s hs => ((h.handshakeLoop _).bind hid fun _ =>
      Op.Leads.get_bind fun s hs => by
        split_ifs with hmuxer
        · exact (h.processMuxerNegotiation.bind hid fun _ => hdata) s ⟨hs, hmuxer.1⟩
        · exact hdata s hs) s hs
  refine Op.Leads.get_bind fun s hs => ?_
  dsimp only
  split_ifs
  · exact ((h.aside processProtocolNegotiation_aside).bind hid fun _ => hframes) s hs
  · exact hframes s hs

/-! ## The calls of the owner -/

theorem recvLoop (answers : List RecvAnswer) :
    ∀ s : BasicConnectionSession, P s → P (recvLoop answers s).2 := by
  induction answers with
  | nil => exact fun s hs => hs
  | cons answer rest ih =>
    intro s hs
    cases answer with
    | data bytes =>
      rw [Connection.recvLoop]
      split_ifs
      · exact h.close hs
      · exact ih _ (h.beside hs ⟨rfl, rfl, rfl, rfl, rfl, rfl, fun _ => rfl⟩)
    | reset => exact h.close hs
    | again => exact hs
    | failed error => exact h.close (h.emitError hs _)

theorem readable (answers : List RecvAnswer) {s : BasicConnectionSession} (hs : P s) :
    P (onSocketReadable S answers s) := by
  unfold onSocketReadable
  split_ifs
  · exact hs
  · have hloop := h.recvLoop answers s hs
    rcases hrun : Connection.recvLoop answers s with ⟨_ | _, s₁⟩ <;> rw [hrun] at hloop
    · exact hloop
    · have hinput := h.processPendingInput s₁ hloop
      dsimp only
      rcases hprocess : Connection.processPendingInput S s₁ with ⟨e | _, s₂⟩ <;> rw [hprocess] at hinput
      · exact h.close (h.emitError hinput _)
      · exact hinput

theorem writable {s : BasicConnectionSession} (hs : P s) : P (onSocketWritable s) := by
  unfold onSocketWritable
  split_ifs
  · exact hs
  · have hflush := h.aside (flushPendingWrites_aside S) s hs
    rcases hrun : flushPendingWrites s with ⟨e | _, s'⟩ <;> rw [hrun] at hflush
    · exact h.close (h.emitError hflush _)
    · exact hflush

theorem timeout {s : BasicConnectionSession} (hs : P s) : P (onTimeout s) := by
  unfold onTimeout
  split_ifs
  · exact hs
  · exact hs
  · exact h.close (h.emitError hs _)

theorem beginOutbound {s : BasicConnectionSession} (hs : P s) : P (beginOutboundUpgrade s).2 :=
  h.aside (beginOutboundUpgrade_aside S) s hs

theorem beginInbound {s : BasicConnectionSession} (hs : P s) : P (beginInboundUpgrade s).2 :=
  h.aside beginInboundUpgrade_aside s hs

end Upheld

end PeerCore.Connection
