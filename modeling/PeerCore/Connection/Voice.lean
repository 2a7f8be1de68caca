import PeerCore.Connection.Authenticity

/-!
# What the owner of a session sees

`Voice` is the progress of a session with the events it has queued. `Tell` lists how
it changes, and `step_tells` says that every action is a sequence of such changes.
The one exception is `reset` of a direct stream, which closes the socket and tells
nobody (`streamReset_direct_voice`). Writing cannot be seen (`Writes.voice`).
-/

namespace PeerCore.Connection

open BasicConnectionSession
open Yamux (YamuxSession Callbacks Host)

/-! ## What can be seen -/

/-- What the state of a session shows: the fields that its events depend on, and the types of
    the queued events. -/
structure Voice where
  state : ConnectionState
  stage : SecurityStage
  handshakeState : HandshakeState
  secureReady : Bool
  socketOpen : Bool
  fd : ℤ
  closedEmitted : Bool
  events : List EventType

/-- What a session shows. -/
def BasicConnectionSession.voice (s : BasicConnectionSession) : Voice :=
  ⟨s.state, s.secure.stage, s.secure.handshakeState, s.secure.secureReady, s.io.socketOpen, s.io.fd,
    s.closedEmitted, s.eventQueue.map (·.type)⟩

/-- The events of streams. -/
def EventType.IsStream (type : EventType) : Prop :=
  type = .streamOpened ∨ type = .streamAccepted ∨ type = .streamClosed

/-- A handshake message is awaited. -/
def HandshakeState.Awaits (h : HandshakeState) : Prop :=
  h = .awaitingMsg1 ∨ h = .awaitingMsg2 ∨ h = .awaitingMsg3

/-- `is_active`. -/
def Voice.Active (v : Voice) : Prop := v.socketOpen = true ∧ v.state ≠ .closed ∧ v.state ≠ .failed

/-- `events` are queued. -/
def Voice.say (v : Voice) (events : List EventType) : Voice := { v with events := v.events ++ events }

/-- `close_socket`. -/
def Voice.dropSocket (v : Voice) : Voice :=
  if v.socketOpen = false ∨ v.fd < 0 then v else { v with socketOpen := false, fd := -1 }

/-- The progress of the upgrade. -/
def Voice.progress (v : Voice) (stage : SecurityStage) (handshakeState : HandshakeState) : Voice :=
  { v with stage, handshakeState }

/-- `close`, after `emit_error` or without it. -/
def Voice.closed (v : Voice) (errors : List EventType) : Voice :=
  { v.dropSocket.say (errors ++ if v.closedEmitted then [] else [.closed]) with
    state := .closed, closedEmitted := true }

/-- One change that an action makes. -/
inductive Tell : Voice → Voice → Prop
  | begin (v : Voice) (hactive : v.Active) (hsecure : v.secureReady = false) :
    Tell v { v.progress .negotiatingProtocol .idle with state := .securing }
  | handshake (v : Voice) (expected : HandshakeState) (hactive : v.Active)
    (hstage : v.stage = .negotiatingProtocol ∨ v.stage = .noiseHandshake)
    (hexpected : expected.Awaits) : Tell v (v.progress .noiseHandshake expected)
  | exchange (v : Voice) (hactive : v.Active) (hstage : v.stage = .noiseHandshake)
    (hsecure : v.secureReady = false) : Tell v (v.progress .muxerNegotiation .complete)
  | ready (v : Voice) (handshakeState : HandshakeState) (accepted : List EventType)
    (hactive : v.Active) (hsecure : v.secureReady = false)
    (haccepted : ∀ t ∈ accepted, t.IsStream) :
    Tell v { (v.progress .ready handshakeState).say (.secured :: .multiplexerReady :: accepted) with
      state := .ready, secureReady := true }
  | streams (v : Voice) (events : List EventType) (hactive : v.Active)
    (hready : v.secureReady = true ∨ v.state = .ready) (hevents : ∀ t ∈ events, t.IsStream) :
    Tell v (v.say events)
  | close (v : Voice) (stage : SecurityStage) (handshakeState : HandshakeState)
    (errors : List EventType) (hstate : v.state ≠ .closed) (herrors : errors = [] ∨ errors = [.error]) :
    Tell v ((v.progress stage handshakeState).closed errors)

/-- Any number of changes. -/
def Tells : Voice → Voice → Prop := Relation.ReflTransGen Tell

theorem Tells.refl (v : Voice) : Tells v v := Relation.ReflTransGen.refl

theorem Tells.trans {u v w : Voice} (h : Tells u v) (h' : Tells v w) : Tells u w :=
  Relation.ReflTransGen.trans h h'

theorem Tell.single {v w : Voice} (h : Tell v w) : Tells v w := Relation.ReflTransGen.single h

/-- A property that every change keeps. -/
theorem Tells.invariant {P : Voice → Prop} {v w : Voice} (h : Tells v w)
    (htell : ∀ v w, P v → Tell v w → P w) (hv : P v) : P w := by
  induction h with
  | refl => exact hv
  | tail _ hstep ih => exact htell _ _ ih hstep

/-! ## Methods that write

They change the socket, the secure channel and the direct streams. -/

section Narrow

variable {α β : Type}

/-- Nothing but the socket, the secure channel and the direct streams changes. -/
def Narrow (x : Method α) : Prop :=
  Op.Preserves (fun s s' =>
    s' = { s with io := s'.io, secure := s'.secure, directStreams := s'.directStreams }) x

/-- And the direct streams keep their ids. -/
def Writing (x : Method α) : Prop :=
  Op.Preserves (fun s s' =>
    s' = { s with io := s'.io, secure := s'.secure, directStreams := s'.directStreams } ∧
      ∀ stream, (s'.directStreams stream).id = (s.directStreams stream).id) x

theorem Writing.narrow {x : Method α} (hx : Writing x) : Narrow x := fun s => (hx s).1

theorem Writing.bind {x : Method α} {f : α → Method β} (hx : Writing x) (hf : ∀ a, Writing (f a)) :
    Writing (x >>= f) :=
  Op.Preserves.bind (fun _ _ _ h h' =>
    ⟨by rw [h'.1, h.1], fun stream => (h'.2 stream).trans (h.2 stream)⟩) hx hf

theorem Writing.pure (a : α) : Writing (Pure.pure a : Method α) := fun _ => ⟨rfl, fun _ => rfl⟩

theorem Writing.fail (e : String) : Writing (Op.fail e : Method α) := fun _ => ⟨rfl, fun _ => rfl⟩

theorem Writing.get : Writing (Op.get : Method BasicConnectionSession) := fun _ => ⟨rfl, fun _ => rfl⟩

theorem Writing.onIo (x : Op SessionIoState α) : Writing (Connection.onIo x) :=
  fun _ => ⟨rfl, fun _ => rfl⟩

theorem Writing.onSecure (x : Op SecureChannelState α) : Writing (Connection.onSecure x) :=
  fun _ => ⟨rfl, fun _ => rfl⟩

theorem setDirect_id (s : BasicConnectionSession) (stream : ℕ) {f : StreamState → StreamState}
    (hf : ∀ st, (f st).id = st.id) (other : ℕ) :
    ((s.setDirect stream f).directStreams other).id = (s.directStreams other).id := by
  show (Function.update s.directStreams stream (f (s.directStreams stream)) other).id = _
  by_cases hsame : other = stream
  · rw [hsame, Function.update_self, hf]
  · rw [Function.update_of_ne hsame]

theorem Writing.setDirect (stream : ℕ) {f : StreamState → StreamState} (hf : ∀ st, (f st).id = st.id) :
    Writing (Op.modify fun s => s.setDirect stream f) :=
  fun s => ⟨rfl, setDirect_id s stream hf⟩

theorem Writing.onFail {x : Method α} (hx : Writing x) (stream : ℕ) {f : StreamState → StreamState}
    (hf : ∀ st, (f st).id = st.id) : Writing (Op.onFail (fun s => s.setDirect stream f) x) :=
  fun s => by
  have hs := hx s
  unfold Op.onFail
  rcases hrun : x s with ⟨e | a, s'⟩ <;> rw [hrun] at hs
  · dsimp only at hs ⊢
    refine ⟨?_, fun other => (setDirect_id s' stream hf other).trans (hs.2 other)⟩
    rw [hs.1]
    rfl
  · exact hs

theorem flushStream_writing (stream : ℕ) : Writing (flushStream stream) := by
  refine Writing.get.bind fun s => ?_
  split_ifs
  · exact (Writing.setDirect _ (by exact fun _ => rfl)).bind fun _ => Writing.fail _
  · refine ((Writing.onIo _).onFail _ (by exact fun _ => rfl)).bind fun _ => Writing.get.bind fun s => ?_
    split_ifs
    · cases s.io.socket.shutdownError with
      | some error =>
        have hshut : Writing (Op.modify fun s => { s with io := s.io.shut false }) :=
          fun _ => ⟨rfl, fun _ => rfl⟩
        exact hshut.bind fun _ => (Writing.setDirect _ (by exact fun _ => rfl)).bind fun _ => Writing.fail _
      | none => exact fun _ => ⟨rfl, fun _ => rfl⟩
    · exact Writing.pure _

theorem flushPendingWrites_writing : Writing flushPendingWrites := by
  refine (Writing.onIo _).bind fun _ => Writing.get.bind fun s => ?_
  cases s.streamState with
  | none => exact Writing.pure _
  | some stream =>
    dsimp only
    split_ifs
    · exact flushStream_writing stream
    · exact Writing.pure _

theorem flushPendingWrites_narrow : Narrow flushPendingWrites := flushPendingWrites_writing.narrow

variable (S : Noise.Sodium)

theorem queueEncryptedMessage_writing (data : Bytes) : Writing (queueEncryptedMessage S data) :=
  (Writing.onSecure _).bind fun _ => (Writing.onIo _).bind fun _ => Writing.onIo _

theorem queueEncryptedMessage_narrow (data : Bytes) : Narrow (queueEncryptedMessage S data) :=
  (queueEncryptedMessage_writing S data).narrow

theorem queueEncryptedWrite_writing (stream : ℕ) (data : Bytes) :
    Writing (queueEncryptedWrite S stream data) := by
  refine Writing.get.bind fun s => ?_
  split_ifs
  · exact Writing.fail _
  · exact ((Writing.onSecure _).onFail _ (by exact fun _ => rfl)).bind fun _ =>
      ((Writing.onIo _).onFail _ (by exact fun _ => rfl)).bind fun _ =>
        (flushStream_writing stream).bind fun _ => Writing.pure _

/-- The methods of a direct stream. -/
theorem directTryRead_writing (stream size : ℕ) : Writing (streamTryRead S (.direct stream) size) := by
  refine Writing.get.bind fun s => ?_
  dsimp only
  split_ifs
  · exact Writing.pure _
  · exact (Writing.setDirect _ (by exact fun _ => rfl)).bind fun _ => Writing.pure _

theorem directTryWrite_writing (stream : ℕ) (data : Bytes) :
    Writing (streamTryWrite S (.direct stream) data) := by
  refine Writing.get.bind fun s => ?_
  dsimp only
  split_ifs
  · exact Writing.fail _
  · exact queueEncryptedWrite_writing S stream data

theorem directCloseWrite_writing (stream : ℕ) : Writing (streamCloseWrite S (.direct stream)) := by
  refine Writing.get.bind fun s => ?_
  split_ifs
  · exact Writing.fail _
  · exact (Writing.setDirect _ (by exact fun _ => rfl)).bind fun _ => flushStream_writing stream

theorem directReset_writing (stream : ℕ) : Writing (streamReset S (.direct stream)) := fun s => by
  refine ⟨rfl, fun other => ?_⟩
  have hid := setDirect_id s stream (f := fun st =>
    { st with isOpen := false, writeOpen := false, closeWritePending := false, rxBuffer := [] })
    (fun _ => rfl) other
  exact hid

end Narrow

/-! ## Methods that tell nothing -/

section Mute

variable {α : Type}

/-- No event is queued. -/
def Mute (x : Method α) : Prop :=
  Op.Preserves (fun s s' => s'.eventQueue = s.eventQueue ∧ s'.closedEmitted = s.closedEmitted) x

theorem Narrow.mute {x : Method α} (h : Narrow x) : Mute x := fun s => by
  rw [h s]
  exact ⟨rfl, rfl⟩

theorem flushPendingWrites_mute : Mute flushPendingWrites := flushPendingWrites_narrow.mute

variable (S : Noise.Sodium)

/-- The callbacks that a method of a stream handle can reach: no stream is accepted and
    none is closed by the peer. -/
def localCallbacks : Callbacks BasicConnectionSession :=
  { yamuxCallbacks S with accept := none, close := none }

theorem localCallbacks_respects : Yamux.Respects (localCallbacks S) fun s s' =>
    s'.eventQueue = s.eventQueue ∧ s'.closedEmitted = s.closedEmitted where
  refl := fun _ => ⟨rfl, rfl⟩
  trans := fun _ _ _ h h' => ⟨h'.1.trans h.1, h'.2.trans h.2⟩
  accept := nofun
  outgoing := fun f hf sendBuf s => by
    cases hf
    dsimp only
    split_ifs
    · exact ⟨rfl, rfl⟩
    · exact (queueEncryptedMessage_narrow S sendBuf).mute s
  close := nofun

theorem onYamux_mute {x : Op (Host BasicConnectionSession) α}
    (hx : Yamux.Keeps (fun s s' => s'.eventQueue = s.eventQueue ∧ s'.closedEmitted = s.closedEmitted)
      x) : Mute (onYamux x) := fun s => by
  unfold onYamux
  cases s.yamuxSession with
  | none => exact ⟨rfl, rfl⟩
  | some yamux => exact hx (yamux, s)

theorem onYamuxOpen_mute : Mute (onYamux (Yamux.openStream (yamuxCallbacks S))) := by
  have hopen := Yamux.openStream_respects (localCallbacks_respects S)
  exact onYamux_mute hopen

theorem streamTryRead_mute (handle : StreamHandle) (size : ℕ) :
    Mute (streamTryRead S handle size) := by
  cases handle with
  | yamux stream => exact onYamux_mute (Yamux.tryRead_respects (localCallbacks_respects S) stream size)
  | direct stream => exact (directTryRead_writing S stream size).narrow.mute

theorem streamTryWrite_mute (handle : StreamHandle) (data : Bytes) :
    Mute (streamTryWrite S handle data) := by
  cases handle with
  | yamux stream => exact onYamux_mute (Yamux.tryWrite_respects (localCallbacks_respects S) stream data)
  | direct stream => exact (directTryWrite_writing S stream data).narrow.mute

theorem streamCloseWrite_mute (handle : StreamHandle) : Mute (streamCloseWrite S handle) := by
  cases handle with
  | yamux stream => exact onYamux_mute (Yamux.closeWrite_respects (localCallbacks_respects S) stream)
  | direct stream => exact (directCloseWrite_writing S stream).narrow.mute

theorem streamReset_mute (handle : StreamHandle) : Mute (streamReset S handle) := by
  cases handle with
  | yamux stream => exact onYamux_mute (Yamux.reset_respects (localCallbacks_respects S) stream)
  | direct stream => exact (directReset_writing S stream).narrow.mute

end Mute

section Voice

variable {S : Noise.Sodium}

/-- A change of the socket and of the channel that writing makes cannot be seen. -/
theorem voice_of_frame {s s' : BasicConnectionSession} (hframe : OutFrame s.core s'.core)
    (hmute : s'.eventQueue = s.eventQueue ∧ s'.closedEmitted = s.closedEmitted) :
    s'.voice = s.voice := by
  have hstate : s'.state = s.state := hframe.state
  have hstage : s'.secure.stage = s.secure.stage := hframe.stage
  have hhandshake : s'.secure.handshakeState = s.secure.handshakeState := hframe.handshakeState
  have hready : s'.secure.secureReady = s.secure.secureReady := hframe.secureReady
  have hopen : s'.io.socketOpen = s.io.socketOpen := hframe.socketOpen
  have hfd : s'.io.fd = s.io.fd := hframe.fd
  unfold voice
  rw [hstate, hstage, hhandshake, hready, hopen, hfd, hmute.1, hmute.2]

theorem Writes.voice {α : Type} {x : Method α} (hx : Writes S x) (hmute : Mute x)
    (s : BasicConnectionSession) : (x s).2.voice = s.voice :=
  voice_of_frame (OutMoves.frame (hx s)) (hmute s)

theorem isActive_iff_voice (s : BasicConnectionSession) : s.isActive = true ↔ s.voice.Active :=
  isActive_iff s

/-! ## Streams -/

/-- Only events of streams are queued. -/
def Adds (s s' : BasicConnectionSession) : Prop :=
  ∃ events, (∀ t ∈ events, t.IsStream) ∧
    s'.eventQueue.map (·.type) = s.eventQueue.map (·.type) ++ events ∧
    s'.closedEmitted = s.closedEmitted

theorem Adds.of_mute {s s' : BasicConnectionSession}
    (h : s'.eventQueue = s.eventQueue ∧ s'.closedEmitted = s.closedEmitted) : Adds s s' :=
  ⟨[], nofun, by rw [h.1, List.append_nil], h.2⟩

theorem Adds.trans {a b c : BasicConnectionSession} (h : Adds a b) (h' : Adds b c) : Adds a c := by
  obtain ⟨events, hstream, hqueue, hemitted⟩ := h
  obtain ⟨events', hstream', hqueue', hemitted'⟩ := h'
  refine ⟨events ++ events', fun t ht => ?_, ?_, hemitted'.trans hemitted⟩
  · exact (List.mem_append.mp ht).elim (hstream t) (hstream' t)
  · rw [hqueue', hqueue, List.append_assoc]

theorem Adds.push (s : BasicConnectionSession) {type : EventType} (htype : type.IsStream)
    (streamId : Option StreamId) (detail : Bytes) : Adds s (s.pushEvent type streamId detail) := by
  refine ⟨[type], fun t ht => ?_, ?_, rfl⟩
  · rw [List.mem_singleton.mp ht]
    exact htype
  · simp [pushEvent]

/-- The event of a new direct stream. -/
theorem createStream_adds (protocol : Option ProtocolId) (inboundEvent : Bool)
    (s : BasicConnectionSession) : Adds s (createStream protocol inboundEvent s).2 := by
  cases inboundEvent with
  | false => exact Adds.push { s with
      directStreams := _, directCount := _, streamState := _, nextStreamId := _ } (.inl rfl) _ _
  | true => exact Adds.push { s with
      directStreams := _, directCount := _, streamState := _, nextStreamId := _ } (.inr (.inl rfl)) _ _

theorem ensureInboundStream_adds (s : BasicConnectionSession) : Adds s (ensureInboundStream s).2 := by
  unfold ensureInboundStream
  cases s.streamState with
  | none => exact createStream_adds _ _ _
  | some stream =>
    dsimp only
    split_ifs
    · exact Adds.of_mute ⟨rfl, rfl⟩
    · exact createStream_adds _ _ _

theorem yamuxCallbacks_adds : Yamux.Respects (yamuxCallbacks S) Adds where
  refl := fun _ => Adds.of_mute ⟨rfl, rfl⟩
  trans := fun _ _ _ h h' => h.trans h'
  accept := fun f hf stream sid s => by
    cases hf
    exact Adds.push { s with pendingInbound := _ } (.inr (.inl rfl)) _ _
  outgoing := fun f hf sendBuf s => by
    cases hf
    dsimp only
    split_ifs
    · exact Adds.of_mute ⟨rfl, rfl⟩
    · exact Adds.of_mute ((queueEncryptedMessage_narrow S sendBuf).mute s)
  close := fun f hf sid detail s => by
    cases hf
    exact Adds.push s (.inr (.inr rfl)) _ _

theorem deliverPlaintext_adds (plaintext : Bytes) (s : BasicConnectionSession) :
    Adds s (deliverPlaintext S plaintext s).2 := by
  unfold deliverPlaintext
  split_ifs with hyamux
  · unfold onYamux
    cases hy : s.yamuxSession with
    | none => exact Adds.of_mute ⟨rfl, rfl⟩
    | some yamux => exact Yamux.receive_respects yamuxCallbacks_adds plaintext (yamux, s)
  · exact ensureInboundStream_adds s

theorem requestOpenStream_adds (protocol : ProtocolId) (s : BasicConnectionSession) :
    Adds s (requestOpenStream S protocol s).2 := by
  have hbind : ∀ {α β : Type} {x : Method α} {f : α → Method β}, Op.Preserves Adds x →
      (∀ a, Op.Preserves Adds (f a)) → Op.Preserves Adds (x >>= f) :=
    Op.Preserves.bind fun _ _ _ h h' => h.trans h'
  have hmute : ∀ {α : Type} {x : Method α}, Mute x → Op.Preserves Adds x :=
    fun h s => Adds.of_mute (h s)
  have hcreate : Op.Preserves Adds (do
      let stream ← Op.update (createStream (some protocol) false)
      pure (StreamHandle.direct stream) : Method StreamHandle) := fun s => createStream_adds _ _ s
  refine hbind (hmute Writing.get.narrow.mute) (fun s => ?_) s
  split_ifs
  · exact hmute (Writing.fail _).narrow.mute
  · exact hmute (Writing.fail _).narrow.mute
  · refine hbind (hmute (onYamuxOpen_mute S)) fun stream =>
      hbind (hmute (onYamux_mute fun _ => ⟨rfl, rfl⟩)) fun sid => ?_
    exact hbind (fun s => Adds.push s (.inl rfl) _ _) fun _ => hmute (Writing.pure _).narrow.mute
  · cases s.streamState with
    | none => exact hcreate
    | some stream =>
      dsimp only
      split_ifs
      · exact hmute (Writing.fail _).narrow.mute
      · exact hcreate

/-- Events of streams on an active session that is ready. -/
theorem Adds.tells {s s' : BasicConnectionSession} (h : Adds s s') (hframe : OutFrame s.core s'.core)
    (hactive : s.voice.Active) (hready : s.secure.secureReady = true ∨ s.state = .ready) :
    Tells s.voice s'.voice := by
  obtain ⟨events, hstream, hqueue, hemitted⟩ := h
  have hvoice : s'.voice = s.voice.say events := by
    have hsame := @voice_of_frame s
      { s' with eventQueue := s.eventQueue, closedEmitted := s.closedEmitted } hframe ⟨rfl, rfl⟩
    unfold Voice.say
    rw [← hsame]
    unfold voice
    rw [hqueue, hemitted]
  rw [hvoice]
  exact (Tell.streams s.voice events hactive hready hstream).single

/-! ## Ending -/

theorem close_voice (s : BasicConnectionSession) :
    (close s).voice = if s.state = .closed then s.voice else s.voice.closed [] := by
  unfold close
  split_ifs with hclosed
  · rfl
  · extract_lets s₁ s₂ s₃
    have hsocket : s₁.voice = s.voice.dropSocket := by
      have hio : s₁.voice = { s.voice with
        socketOpen := (closeSocket s.io).socketOpen, fd := (closeSocket s.io).fd } := rfl
      rw [hio]
      unfold closeSocket Voice.dropSocket
      split_ifs <;> first | rfl | contradiction
    have hdirect : s₂.voice = s₁.voice := by
      unfold s₂
      cases s₁.streamState <;> rfl
    have hstate : s₃.voice = { s.voice.dropSocket with state := .closed } := by
      rw [← hsocket, ← hdirect]
      rfl
    have hemitted : s₃.closedEmitted = s.voice.closedEmitted := by
      unfold s₃ s₂
      cases s₁.streamState <;> rfl
    unfold Voice.closed
    split_ifs with hemit hemit' hemit'
    · rw [hstate]
      rw [hemitted] at hemit
      unfold Voice.say Voice.dropSocket
      split_ifs <;> simp [hemit]
    · rw [hemitted] at hemit
      exact absurd hemit hemit'
    · rw [hemitted] at hemit
      exact absurd hemit' hemit
    · have hpush : ({ s₃.pushEvent .closed s₃.streamStateId (ascii "connection closed") with
          closedEmitted := true } : BasicConnectionSession).voice =
          { s₃.voice.say [.closed] with closedEmitted := true } := by
        simp [voice, Voice.say, pushEvent]
      rw [hpush, hstate]
      rfl

theorem emitError_voice (detail : Bytes) (s : BasicConnectionSession) :
    (emitError detail s).voice =
      if s.state = .failed ∨ s.state = .closed then s.voice
      else { s.voice.say [.error] with state := .failed } := by
  unfold emitError
  split_ifs
  · rfl
  · simp [voice, Voice.say, pushEvent]

theorem close_tells (s : BasicConnectionSession) : Tells s.voice (close s).voice := by
  rw [close_voice]
  split_ifs with hclosed
  · exact Tells.refl _
  · exact (Tell.close s.voice s.secure.stage s.secure.handshakeState [] hclosed (.inl rfl)).single

/-- `emit_error` and `close` of a session that is not closed. -/
theorem close_emitError_voice (detail : Bytes) {s : BasicConnectionSession}
    (hclosed : s.state ≠ .closed) (hfailed : s.state ≠ .failed) :
    (close (emitError detail s)).voice = s.voice.closed [.error] := by
  have hstate : (emitError detail s).state = .failed := by
    unfold emitError
    rw [if_neg (not_or.mpr ⟨hfailed, hclosed⟩)]
    rfl
  rw [close_voice, if_neg (by rw [hstate]; nofun), emitError_voice,
    if_neg (not_or.mpr ⟨hfailed, hclosed⟩)]
  unfold Voice.closed Voice.dropSocket Voice.say
  dsimp only
  split_ifs <;> simp

/-! ## Processing input -/

/-- How input is processed: a method that succeeds has told, and one that fails has told
    up to the progress of the upgrade. The session stays active in between. -/
def Spoken (v : Voice) : Result Unit → Voice → Prop
  | .ok _, v' => Tells v v' ∧ v'.Active
  | .error _, v' => ∃ w stage handshakeState, Tells v w ∧ w.Active ∧ v' = w.progress stage handshakeState

theorem Spoken.after {u v w : Voice} {r : Result Unit} (htells : Tells u v) (h : Spoken v r w) :
    Spoken u r w := by
  cases r with
  | ok => exact ⟨htells.trans h.1, h.2⟩
  | error =>
    obtain ⟨w', stage, handshakeState, hw, hactive, heq⟩ := h
    exact ⟨w', stage, handshakeState, htells.trans hw, hactive, heq⟩

theorem Spoken.bind {x : Method Unit} {f : Unit → Method Unit} {s : BasicConnectionSession} {v : Voice}
    (hx : Spoken v (x s).1 (x s).2.voice)
    (hf : ∀ s', x s = (.ok (), s') → s'.voice.Active →
      Spoken s'.voice (f () s').1 (f () s').2.voice) :
    Spoken v ((x >>= f) s).1 ((x >>= f) s).2.voice := by
  rw [Op.bind_apply]
  rcases hrun : x s with ⟨e | _, s'⟩
  · rw [hrun] at hx
    exact hx
  · rw [hrun] at hx
    exact (hf s' hrun hx.2).after hx.1

/-- A step that tells nothing. -/
theorem Spoken.silent {v : Voice} (r : Result Unit) (hactive : v.Active) : Spoken v r v := by
  cases r with
  | ok => exact ⟨Tells.refl v, hactive⟩
  | error => exact ⟨v, v.stage, v.handshakeState, Tells.refl v, hactive, rfl⟩

/-- A failure after progress of the upgrade. -/
theorem Spoken.fail {v : Voice} {e : String} (hactive : v.Active) (stage : SecurityStage)
    (handshakeState : HandshakeState) : Spoken v (.error e) (v.progress stage handshakeState) :=
  ⟨v, stage, handshakeState, Tells.refl v, hactive, rfl⟩

/-- A method that only writes, and tells nothing. -/
theorem Writes.spoken {x : Method Unit} (hx : Writes S x) (hmute : Mute x)
    (s : BasicConnectionSession) (hactive : s.voice.Active) :
    Spoken s.voice (x s).1 (x s).2.voice := by
  rw [hx.voice hmute]
  exact Spoken.silent _ hactive

/-- A failure, reported and followed by `close`. -/
theorem Spoken.closing {v : Voice} {e : String} {s : BasicConnectionSession} {detail : Bytes}
    (h : Spoken v (.error e) s.voice) : Tells v (close (emitError detail s)).voice := by
  obtain ⟨w, stage, handshakeState, htells, hactive, heq⟩ := h
  have hstate : s.state = w.state := congrArg Voice.state heq
  rw [close_emitError_voice detail (by rw [hstate]; exact hactive.2.1)
    (by rw [hstate]; exact hactive.2.2), heq]
  exact htells.trans (Tell.close w stage handshakeState [.error] hactive.2.1 (.inr rfl)).single

theorem completeReadyState_voice (s : BasicConnectionSession) :
    ∃ accepted, (∀ t ∈ accepted, t.IsStream) ∧ (completeReadyState s).voice =
      { (s.voice.progress .ready s.secure.handshakeState).say
          (.secured :: .multiplexerReady :: accepted) with state := .ready, secureReady := true } := by
  unfold completeReadyState
  extract_lets secure s₁ s₂ s₃ s₄ created
  have hready : s₄.voice =
      { (s.voice.progress .ready s.secure.handshakeState).say [.secured, .multiplexerReady] with
        state := .ready, secureReady := true } := by
    simp [s₄, s₃, s₂, s₁, secure, voice, Voice.say, Voice.progress, pushEvent]
  split_ifs
  · refine ⟨[.streamAccepted], fun t ht => ?_, ?_⟩
    · rw [List.mem_singleton.mp ht]
      exact .inr (.inl rfl)
    · have hcreate : created.voice = s₄.voice.say [.streamAccepted] := by
        simp [created, voice, Voice.say, createStream, pushEvent]
      change created.voice = _
      rw [hcreate, hready]
      simp [Voice.say]
  · exact ⟨[], nofun, hready⟩

/-- The channel becomes ready. -/
theorem completeReadyState_tells {v : Voice} {s : BasicConnectionSession} {stage : SecurityStage}
    {handshakeState : HandshakeState} (hv : s.voice = v.progress stage handshakeState)
    (hactive : v.Active) (hsecure : v.secureReady = false) :
    Tells v (completeReadyState s).voice ∧ (completeReadyState s).voice.Active := by
  obtain ⟨accepted, haccepted, hready⟩ := completeReadyState_voice s
  have hhandshake : s.secure.handshakeState = handshakeState := congrArg Voice.handshakeState hv
  rw [hready, hv, hhandshake]
  exact ⟨(Tell.ready v handshakeState accepted hactive hsecure haccepted).single, hactive.1, nofun,
    nofun⟩

/-- Encrypting and sending cannot be seen, whatever becomes of the message. -/
theorem queueEncryptedMessage_voice (data : Bytes) (s : BasicConnectionSession) :
    (queueEncryptedMessage S data s).2.voice = s.voice := by
  rcases queueEncryptedMessage_cases (S := S) data s with
    ⟨e, hrun⟩ | ⟨ciphertext, secure, e, hseal, -, hrun⟩ | ⟨ciphertext, secure, framed, hseal, -, hrun⟩
  · rw [hrun]
  · obtain ⟨-, -, -, rfl⟩ := sealMessage_ok hseal
    rw [hrun]
    rfl
  · obtain ⟨-, -, -, rfl⟩ := sealMessage_ok hseal
    rw [hrun]
    exact flushWire_out.voice (S := S) (Writing.onIo _).narrow.mute _

/-- The end of the handshake. -/
theorem finishSecureUpgrade_spoken {v : Voice} {s : BasicConnectionSession}
    (hv : s.voice = v.progress .noiseHandshake .complete) (hactive : v.Active)
    (hstage : v.stage = .noiseHandshake) (hsecure : v.secureReady = false) :
    Spoken v (finishSecureUpgrade S s).1 (finishSecureUpgrade S s).2.voice := by
  have hsecure' : s.secure.secureReady = false :=
    (congrArg Voice.secureReady hv).trans hsecure
  -- the exchange starts, and what is written for it cannot be seen
  have hexchange : ∀ s' : BasicConnectionSession, s'.voice = s.voice.progress .muxerNegotiation
      s.secure.handshakeState → Tells v s'.voice ∧ s'.voice.Active := fun s' hs' => by
    have hhandshake : s.secure.handshakeState = .complete := congrArg Voice.handshakeState hv
    rw [hs', hv, hhandshake]
    exact ⟨(Tell.exchange v hactive hstage hsecure).single, hactive⟩
  unfold finishSecureUpgrade
  rw [Op.bind_apply, Op.get_apply]
  dsimp only
  rw [hsecure', if_neg (by simp), Op.bind_apply, Op.ofResult_apply]
  cases validateExpectedRemotePeer s with
  | error e =>
    rw [hv]
    exact Spoken.fail hactive _ _
  | ok _ =>
    simp only [Op.bind_apply, Op.modify_apply, Op.get_apply]
    split_ifs with hselect hlocal hrole
    · exact completeReadyState_tells hv hactive hsecure
    · simp only [Op.bind_apply, Op.modify_apply, Op.ofResult_apply]
      have hstart := hexchange { s with secure := s.secure.select .muxerNegotiation } rfl
      cases MultistreamSelect.prepareOutbound s.secure.noise.localExtensions.streamMuxers with
      | error e => exact Spoken.after hstart.1 (Spoken.silent _ hstart.2)
      | ok proposal =>
        have hsent := queueEncryptedMessage_voice (S := S) proposal
          { s with secure := s.secure.select .muxerNegotiation }
        rw [← hsent] at hstart
        exact Spoken.after hstart.1 (Spoken.silent _ hstart.2)
    · exact hexchange _ rfl
    · exact completeReadyState_tells hv hactive hsecure

/-- A handshake message that is awaited moves the upgrade on; any other is refused. -/
theorem processHandshakeFrame_spoken (frame : Bytes) {s : BasicConnectionSession}
    (hactive : s.voice.Active) (hstage : s.secure.stage = .noiseHandshake)
    (hsecure : s.secure.secureReady = false) :
    Spoken s.voice (processHandshakeFrame S frame s).1 (processHandshakeFrame S frame s).2.voice := by
  have hprogress : s.voice = s.voice.progress .noiseHandshake s.secure.handshakeState := by
    rw [← hstage]
    rfl
  unfold processHandshakeFrame
  rw [Op.bind_apply, Op.get_apply]
  dsimp only
  cases hhs : s.secure.handshakeState with
  | idle => exact Spoken.silent _ hactive
  | complete => exact Spoken.silent _ hactive
  | awaitingMsg1 =>
    simp only [Op.bind_apply, drawEntropy_apply, onNoise_apply]
    rcases Noise.processMsg1 S (s.secure.random s.secure.drawn) frame s.secure.noise
      with ⟨e | msg2, noise⟩
    · exact Spoken.silent _ hactive
    · simp only [Op.modify_apply, queueWireMessage_apply]
      cases Noise.encodeFrame msg2 with
      | error e => exact Spoken.fail hactive s.secure.stage .awaitingMsg3
      | ok framed =>
        refine Spoken.after (Tell.handshake s.voice .awaitingMsg3 hactive (.inr hstage)
          (.inr (.inr rfl))).single ?_
        have hmsg3 : ∀ t : BasicConnectionSession,
            t.voice = s.voice.progress s.secure.stage .awaitingMsg3 →
            Spoken (s.voice.progress .noiseHandshake .awaitingMsg3) (flushPendingWrites t).1
              (flushPendingWrites t).2.voice := fun t ht => by
          rw [hstage] at ht
          rw [← ht]
          exact flushPendingWrites_out.spoken (S := S) flushPendingWrites_mute t (by rw [ht]; exact hactive)
        exact hmsg3 _ rfl
  | awaitingMsg2 =>
    simp only [Op.bind_apply, onNoise_apply]
    rcases Noise.processMsg2 S frame s.secure.noise with ⟨e | msg3, noise⟩
    · exact Spoken.silent _ hactive
    · simp only [Op.modify_apply, queueWireMessage_apply]
      cases Noise.encodeFrame msg3 with
      | error e => exact Spoken.fail hactive s.secure.stage .complete
      | ok framed =>
        have hfinish : ∀ t : BasicConnectionSession,
            t.voice = s.voice.progress s.secure.stage .complete →
            Spoken s.voice ((do flushPendingWrites; finishSecureUpgrade S : Method Unit) t).1
              ((do flushPendingWrites; finishSecureUpgrade S : Method Unit) t).2.voice := fun t ht => by
          have hflush := (flushPendingWrites_out (S := S)).voice flushPendingWrites_mute t
          rw [ht] at hflush
          rw [Op.bind_apply]
          rcases hrun : flushPendingWrites t with ⟨e | _, t'⟩ <;> rw [hrun] at hflush
          · dsimp only at hflush ⊢
            rw [hflush]
            exact Spoken.fail hactive _ _
          · rw [hstage] at hflush
            exact finishSecureUpgrade_spoken hflush hactive hstage hsecure
        exact hfinish _ rfl
  | awaitingMsg3 =>
    simp only [Op.bind_apply, onNoise_apply]
    rcases Noise.processMsg3 S frame s.secure.noise with ⟨e | _, noise⟩
    · exact Spoken.silent _ hactive
    · simp only [Op.modify_apply]
      have hfinish : ∀ t : BasicConnectionSession,
          t.voice = s.voice.progress s.secure.stage .complete →
          Spoken s.voice (finishSecureUpgrade S t).1 (finishSecureUpgrade S t).2.voice := fun t ht => by
        rw [hstage] at ht
        exact finishSecureUpgrade_spoken ht hactive hstage hsecure
      exact hfinish _ rfl

/-- A loop over the buffered frames. -/
theorem popFrame_spoken {s : BasicConnectionSession} {f : Bytes → Method Unit}
    (hactive : s.voice.Active)
    (hf : ∀ frame rest, Spoken s.voice (f frame { s with io := { s.io with wireRx := rest } }).1
        (f frame { s with io := { s.io with wireRx := rest } }).2.voice) :
    Spoken s.voice ((do
        match ← popFrame with
        | none => pure ()
        | some frame => f frame : Method Unit) s).1
      ((do
        match ← popFrame with
        | none => pure ()
        | some frame => f frame : Method Unit) s).2.voice := by
  rw [Op.bind_apply, popFrame_apply]
  rcases tryPopWireFrame s.io.wireRx with e | _ | ⟨frame, rest⟩
  · exact Spoken.silent _ hactive
  · exact Spoken.silent _ hactive
  · exact hf frame rest

theorem handshakeLoop_spoken (fuel : ℕ) :
    ∀ s : BasicConnectionSession, s.voice.Active →
      Spoken s.voice (handshakeLoop S fuel s).1 (handshakeLoop S fuel s).2.voice := by
  induction fuel with
  | zero => exact fun s hactive => Spoken.silent _ hactive
  | succ fuel ih =>
    intro s hactive
    rw [handshakeLoop, Op.bind_apply, Op.get_apply]
    dsimp only
    split_ifs with hgoing
    · exact popFrame_spoken hactive fun frame rest =>
        (processHandshakeFrame_spoken frame (s := { s with io := { s.io with wireRx := rest } })
          hactive hgoing.2 hgoing.1).bind fun s' _ hactive' => ih s' hactive'
    · exact Spoken.silent _ hactive

/-- Reading the answer to the proposal of `/noise`. -/
theorem startNoiseHandshake_spoken {s : BasicConnectionSession} (span : ℕ)
    (hactive : s.voice.Active) (hstage : s.secure.stage = .negotiatingProtocol) :
    Spoken s.voice ((do eraseRx span; startNoiseHandshake S : Method Unit) s).1
      ((do eraseRx span; startNoiseHandshake S : Method Unit) s).2.voice := by
  simp only [eraseRx, startNoiseHandshake, Op.bind_apply, Op.modify_apply, drawEntropy_apply,
    onNoise_apply, Op.update_apply]
  split_ifs
  · exact Spoken.silent _ hactive
  · simp only [Op.bind_apply, Op.modify_apply, queueWireMessage_apply]
    cases Noise.encodeFrame (Noise.writeMsg1 S (s.secure.random s.secure.drawn) s.secure.noise).1 with
    | error e => exact Spoken.fail hactive .noiseHandshake .awaitingMsg2
    | ok framed =>
      refine Spoken.after (Tell.handshake s.voice .awaitingMsg2 hactive (.inl hstage)
        (.inr (.inl rfl))).single ?_
      exact flushPendingWrites_out.spoken (S := S) flushPendingWrites_mute _ hactive

theorem processProtocolNegotiation_spoken (s : BasicConnectionSession) (hactive : s.voice.Active)
    (hstage : s.secure.stage = .negotiatingProtocol) :
    Spoken s.voice (processProtocolNegotiation S s).1 (processProtocolNegotiation S s).2.voice := by
  unfold processProtocolNegotiation
  rw [Op.bind_apply, Op.get_apply]
  dsimp only
  cases MultistreamSelect.exchangeSpan s.io.wireRx with
  | error e =>
    dsimp only
    split_ifs <;> exact Spoken.silent _ hactive
  | ok span =>
    dsimp only
    split_ifs
    · rw [Op.bind_apply, Op.ofResult_apply]
      cases MultistreamSelect.readOutboundResponse (s.io.wireRx.take span) noiseProtocol with
      | error e => exact Spoken.silent _ hactive
      | ok proposal => exact startNoiseHandshake_spoken span hactive hstage
    · rw [Op.bind_apply, Op.ofResult_apply]
      cases MultistreamSelect.negotiateInbound (s.io.wireRx.take span) [noiseProtocol] with
      | error e => exact Spoken.silent _ hactive
      | ok negotiated =>
        dsimp only
        split_ifs
        · exact Spoken.silent _ hactive
        · simp only [queueRawBytes, onIo, Op.zoom, Op.bind_apply, Op.modify_apply]
          have hflush := (flushPendingWrites_out (S := S)).voice flushPendingWrites_mute
            { s with io := s.io.queue negotiated.outbound }
          rcases hrun : flushPendingWrites { s with io := s.io.queue negotiated.outbound }
            with ⟨e | _, s'⟩ <;> rw [hrun] at hflush
          · have hvoice : s'.voice = s.voice := hflush
            dsimp only
            rw [hvoice]
            exact Spoken.silent _ hactive
          · have hvoice : s'.voice = s.voice := hflush
            have hend : Spoken s.voice (.ok ()) (s'.voice.progress .noiseHandshake .awaitingMsg1) := by
              rw [hvoice]
              exact ⟨(Tell.handshake s.voice .awaitingMsg1 hactive (.inl hstage) (.inl rfl)).single,
                hactive⟩
            exact hend

/-! ## The muxer exchange and the data -/

/-- The frames of the exchange are decrypted in silence. -/
theorem muxerFramesLoop_voice (fuel : ℕ) :
    ∀ s : BasicConnectionSession, (muxerFramesLoop S fuel s).2.voice = s.voice := by
  induction fuel with
  | zero => exact fun s => rfl
  | succ fuel ih =>
    intro s
    rw [muxerFramesLoop, Op.bind_apply, popFrame_apply]
    rcases tryPopWireFrame s.io.wireRx with e | _ | ⟨frame, rest⟩
    · rfl
    · rfl
    · dsimp only
      rw [Op.bind_apply]
      rcases hopen : openMessage S frame s.secure with ⟨e | plaintext, secure⟩
      · simp only [onSecure, Op.zoom, hopen]
        rw [openMessage_error hopen]
        rfl
      · simp only [onSecure, Op.zoom, hopen, Op.bind_apply, Op.modify_apply]
        rw [ih]
        obtain ⟨-, -, -, rfl⟩ := openMessage_ok hopen
        rfl

theorem answerMuxerExchange_voice (exchange : Bytes) (s : BasicConnectionSession) :
    (answerMuxerExchange S exchange s).2.voice = s.voice := by
  have hadopt : ∀ (muxer : ProtocolId) (s : BasicConnectionSession),
      (adoptMuxer muxer s).voice = s.voice := fun muxer s => by
    unfold adoptMuxer
    dsimp only
    split_ifs <;> rfl
  unfold answerMuxerExchange
  rw [Op.bind_apply, Op.get_apply]
  dsimp only
  split_ifs
  · cases MultistreamSelect.readOutboundResponse exchange
        (s.secure.noise.localExtensions.streamMuxers.headD []) with
    | ok selected => exact hadopt selected s
    | error e =>
      dsimp only
      split_ifs <;> rfl
  · rw [Op.bind_apply, Op.ofResult_apply]
    cases MultistreamSelect.negotiateInbound exchange s.secure.noise.localExtensions.streamMuxers with
    | error e => rfl
    | ok negotiated =>
      dsimp only
      rw [Op.bind_apply]
      have hsent := queueEncryptedMessage_voice (S := S) negotiated.outbound s
      rcases hrun : queueEncryptedMessage S negotiated.outbound s with ⟨e | _, s'⟩ <;> rw [hrun] at hsent
      · exact hsent
      · dsimp only
        cases negotiated.protocol with
        | none => exact hsent
        | some muxer => exact (hadopt muxer s').trans hsent

theorem processMuxerNegotiation_spoken (s : BasicConnectionSession) (hactive : s.voice.Active)
    (hsecure : s.secure.secureReady = false) :
    Spoken s.voice (processMuxerNegotiation S s).1 (processMuxerNegotiation S s).2.voice := by
  unfold processMuxerNegotiation
  rw [Op.bind_apply, Op.get_apply]
  dsimp only
  rw [Op.bind_apply]
  have hframes := muxerFramesLoop_voice (S := S) s.io.wireRx.length s
  rcases hrun : muxerFramesLoop S s.io.wireRx.length s with ⟨e | _, s₁⟩ <;> rw [hrun] at hframes
  · dsimp only at hframes ⊢
    rw [hframes]
    exact Spoken.silent _ hactive
  · dsimp only at hframes ⊢
    rw [Op.bind_apply, Op.get_apply]
    dsimp only
    cases MultistreamSelect.exchangeSpan s₁.muxerNegotiationBuffer with
    | error e =>
      dsimp only
      rw [← hframes]
      split_ifs <;> exact Spoken.silent _ (hframes ▸ hactive)
    | ok span =>
      dsimp only
      rw [Op.bind_apply]
      have hanswer := answerMuxerExchange_voice (S := S) (s₁.muxerNegotiationBuffer.take span) s₁
      rcases hrun : answerMuxerExchange S (s₁.muxerNegotiationBuffer.take span) s₁ with ⟨e | _, s₂⟩ <;>
        rw [hrun] at hanswer
      · dsimp only at hanswer ⊢
        rw [hanswer, hframes]
        exact Spoken.silent _ hactive
      · have hvoice : s₂.voice = s.voice.progress s.secure.stage s.secure.handshakeState :=
          hanswer.trans hframes
        exact completeReadyState_tells (s := { s₂ with
          muxerNegotiationBuffer := s₂.muxerNegotiationBuffer.drop span }) hvoice hactive hsecure

theorem dataLoop_spoken (fuel : ℕ) :
    ∀ s : BasicConnectionSession, s.voice.Active → s.secure.secureReady = true →
      Spoken s.voice (dataLoop S fuel s).1 (dataLoop S fuel s).2.voice := by
  induction fuel with
  | zero => exact fun s hactive _ => Spoken.silent _ hactive
  | succ fuel ih =>
    intro s hactive hsecure
    rw [dataLoop]
    refine popFrame_spoken hactive fun frame rest => ?_
    rw [Op.bind_apply]
    rcases hopen : openMessage S frame s.secure with ⟨e | plaintext, secure⟩
    · simp only [onSecure, Op.zoom, hopen]
      rw [openMessage_error hopen]
      exact Spoken.silent _ hactive
    · simp only [onSecure, Op.zoom, hopen]
      obtain ⟨-, -, -, rfl⟩ := openMessage_ok hopen
      have hdeliver : ∀ t : BasicConnectionSession, t.voice = s.voice →
          Spoken s.voice (deliverPlaintext S plaintext t).1 (deliverPlaintext S plaintext t).2.voice ∧
            (deliverPlaintext S plaintext t).2.secure.secureReady = true := fun t ht => by
        have hframe := OutMoves.frame (deliverPlaintext_out (S := S) plaintext t)
        have hready : t.secure.secureReady = true := (congrArg Voice.secureReady ht).trans hsecure
        have htells := (deliverPlaintext_adds (S := S) plaintext t).tells hframe (ht ▸ hactive) (.inl hready)
        have hactive' : (deliverPlaintext S plaintext t).2.voice.Active :=
          hframe.active (c := t.core) (by exact (ht ▸ hactive : t.voice.Active))
        refine ⟨?_, hframe.secureReady.trans hready⟩
        rw [ht] at htells
        cases (deliverPlaintext S plaintext t).1 with
        | ok => exact ⟨htells, hactive'⟩
        | error => exact ⟨_, _, _, htells, hactive', rfl⟩
      have hdelivered := hdeliver { s with
        io := { s.io with wireRx := rest }
        secure := { s.secure with
          noise := { s.secure.noise with
            csRecv := { s.secure.noise.csRecv with nonce := s.secure.noise.csRecv.nonce + 1 } }
          opened := s.secure.opened ++ [⟨s.secure.noise.csRecv.key, s.secure.noise.csRecv.nonce,
            frame, some plaintext⟩] } } rfl
      refine hdelivered.1.bind fun s' hrun hactive' => ih s' hactive' ?_
      rw [hrun] at hdelivered
      exact hdelivered.2

theorem readData_spoken (s : BasicConnectionSession) (hactive : s.voice.Active) :
    Spoken s.voice
      ((do
        let s ← Op.get
        if s.secure.secureReady = false then pure ()
        else dataLoop S s.io.wireRx.length : Method Unit) s).1
      ((do
        let s ← Op.get
        if s.secure.secureReady = false then pure ()
        else dataLoop S s.io.wireRx.length : Method Unit) s).2.voice := by
  rw [Op.bind_apply, Op.get_apply]
  dsimp only
  split_ifs with hready
  · exact Spoken.silent _ hactive
  · rw [Bool.not_eq_false] at hready
    exact dataLoop_spoken _ s hactive hready

/-- What `process_pending_input` does after the protocol negotiation. -/
def processFrames : Method Unit := do
  let s ← Op.get
  handshakeLoop S s.io.wireRx.length
  let s ← Op.get
  if s.secure.secureReady = false ∧ s.secure.stage = .muxerNegotiation then
    processMuxerNegotiation S
  let s ← Op.get
  if s.secure.secureReady = false then pure ()
  else dataLoop S s.io.wireRx.length

theorem processFrames_spoken (s : BasicConnectionSession) (hactive : s.voice.Active) :
    Spoken s.voice (processFrames (S := S) s).1 (processFrames (S := S) s).2.voice := by
  unfold processFrames
  rw [Op.bind_apply, Op.get_apply]
  refine (handshakeLoop_spoken _ s hactive).bind fun s₁ _ hactive₁ => ?_
  rw [Op.bind_apply, Op.get_apply]
  dsimp only
  split_ifs with hmuxer
  · exact (processMuxerNegotiation_spoken s₁ hactive₁ hmuxer.1).bind
      fun s₂ _ hactive₂ => readData_spoken s₂ hactive₂
  · exact readData_spoken s₁ hactive₁

theorem processPendingInput_spoken (s : BasicConnectionSession) (hactive : s.voice.Active) :
    Spoken s.voice (processPendingInput S s).1 (processPendingInput S s).2.voice := by
  unfold processPendingInput
  rw [Op.bind_apply, Op.get_apply]
  dsimp only
  split_ifs with hstage
  · exact (processProtocolNegotiation_spoken s hactive hstage).bind
      fun s₁ _ hactive₁ => processFrames_spoken s₁ hactive₁
  · exact processFrames_spoken s hactive

theorem recvLoop_tells (answers : List RecvAnswer) :
    ∀ s : BasicConnectionSession, s.voice.Active →
      Tells s.voice (recvLoop answers s).2.voice ∧
      ((recvLoop answers s).1 = true → (recvLoop answers s).2.voice.Active) := by
  induction answers with
  | nil => exact fun s hactive => ⟨Tells.refl _, fun _ => hactive⟩
  | cons answer rest ih =>
    intro s hactive
    cases answer with
    | data bytes =>
      rw [recvLoop]
      split_ifs
      · exact ⟨close_tells s, fun h => by cases h⟩
      · exact ih { s with io := s.io.recv bytes } hactive
    | reset => exact ⟨close_tells s, fun h => by cases h⟩
    | again => exact ⟨Tells.refl _, fun _ => hactive⟩
    | failed error =>
      have hfailed : Spoken s.voice (.error error) s.voice := Spoken.silent _ hactive
      exact ⟨hfailed.closing, fun h => by cases h⟩

/-! ## Actions -/

theorem onSocketReadable_tells (answers : List RecvAnswer) (s : BasicConnectionSession) :
    Tells s.voice (onSocketReadable S answers s).voice := by
  unfold onSocketReadable
  split_ifs with hactive
  · exact Tells.refl _
  · rw [Bool.not_eq_false, isActive_iff_voice] at hactive
    have hrecv := recvLoop_tells answers s hactive
    rcases hloop : recvLoop answers s with ⟨_ | _, s₁⟩ <;> rw [hloop] at hrecv
    · exact hrecv.1
    · dsimp only
      have hinput := processPendingInput_spoken (S := S) s₁ (hrecv.2 rfl)
      rcases hprocess : processPendingInput S s₁ with ⟨e | _, s₂⟩ <;> rw [hprocess] at hinput
      · exact hrecv.1.trans hinput.closing
      · exact hrecv.1.trans hinput.1

variable (S) in
include S in
theorem onSocketWritable_tells (s : BasicConnectionSession) :
    Tells s.voice (onSocketWritable s).voice := by
  unfold onSocketWritable
  split_ifs with hactive
  · exact Tells.refl _
  · rw [Bool.not_eq_false, isActive_iff_voice] at hactive
    have hflush := flushPendingWrites_out.spoken (S := S) flushPendingWrites_mute s hactive
    rcases hrun : flushPendingWrites s with ⟨e | _, s'⟩ <;> rw [hrun] at hflush
    · exact hflush.closing
    · exact hflush.1

theorem onTimeout_tells (s : BasicConnectionSession) : Tells s.voice (onTimeout s).voice := by
  unfold onTimeout
  split_ifs with hactive
  · exact Tells.refl _
  · exact Tells.refl _
  · rw [Bool.not_eq_false, isActive_iff_voice] at hactive
    have hlate : Spoken s.voice (.error "") s.voice := Spoken.silent _ hactive
    exact hlate.closing

/-- What both upgrade calls do: nothing, or they start the upgrade over. -/
def Begins (v w : Voice) : Prop :=
  w = v ∨ v.Active ∧ v.secureReady = false ∧
    w = { v.progress .negotiatingProtocol .idle with state := .securing }

theorem Begins.tells {v w : Voice} (h : Begins v w) : Tells v w := by
  rcases h with rfl | ⟨hactive, hsecure, rfl⟩
  · exact Tells.refl _
  · exact (Tell.begin v hactive hsecure).single

variable (S) in
include S in
theorem beginOutboundUpgrade_begins (s : BasicConnectionSession) :
    Begins s.voice (beginOutboundUpgrade s).2.voice := by
  unfold beginOutboundUpgrade
  rw [Op.bind_apply, Op.get_apply]
  dsimp only
  split_ifs with hactive hready hrole
  · exact .inl rfl
  · exact .inl rfl
  · exact .inl rfl
  · rw [Bool.not_eq_false, isActive_iff_voice] at hactive
    rw [not_or, Bool.not_eq_true] at hready
    refine .inr ⟨hactive, hready.2, ?_⟩
    simp only [Op.bind_apply, Op.modify_apply, Op.ofResult_apply]
    cases MultistreamSelect.prepareOutbound [noiseProtocol] with
    | error e => rfl
    | ok proposal =>
      simp only [queueRawBytes, onIo, Op.zoom, Op.modify_apply]
      rw [(flushPendingWrites_out (S := S)).voice flushPendingWrites_mute]
      rfl

theorem beginInboundUpgrade_begins (s : BasicConnectionSession) :
    Begins s.voice (beginInboundUpgrade s).2.voice := by
  unfold beginInboundUpgrade
  rw [Op.bind_apply, Op.get_apply]
  dsimp only
  split_ifs with hactive hready hrole
  · exact .inl rfl
  · exact .inl rfl
  · exact .inl rfl
  · rw [Bool.not_eq_false, isActive_iff_voice] at hactive
    rw [not_or, Bool.not_eq_true] at hready
    exact .inr ⟨hactive, hready.2, rfl⟩

theorem requestOpenStream_tells (protocol : ProtocolId) (s : BasicConnectionSession) :
    Tells s.voice (requestOpenStream S protocol s).2.voice := by
  have hadds := requestOpenStream_adds (S := S) protocol s
  have hframe := OutMoves.frame (requestOpenStream_out (S := S) protocol s)
  by_cases hopen : s.isActive = true ∧ s.state = .ready
  · exact hadds.tells hframe ((isActive_iff_voice s).mp hopen.1) (.inr hopen.2)
  · have hrefused : (requestOpenStream S protocol s).2 = s := by
      unfold requestOpenStream
      rw [Op.bind_apply, Op.get_apply]
      dsimp only
      split_ifs with hactive hstate
      · rfl
      · rfl
      all_goals
        rw [Bool.not_eq_false] at hactive
        rw [ne_eq, Decidable.not_not] at hstate
        exact absurd ⟨hactive, hstate⟩ hopen
    rw [hrefused]
    exact Tells.refl _

theorem acceptInboundStream_voice (s : BasicConnectionSession) :
    (acceptInboundStream s).2.voice = s.voice := by
  unfold acceptInboundStream
  cases s.pendingInbound <;> rfl

/-- `reset` of a direct stream closes the socket. -/
theorem streamReset_direct_voice (stream : ℕ) (s : BasicConnectionSession) :
    (streamReset S (.direct stream) s).2.voice = s.voice.dropSocket := by
  have hio : (streamReset S (.direct stream) s).2.voice = { s.voice with
    socketOpen := (closeSocket s.io).socketOpen, fd := (closeSocket s.io).fd } := rfl
  rw [hio]
  unfold closeSocket Voice.dropSocket
  split_ifs <;> first | rfl | contradiction

/-- Every action but `next_event` and `reset` of a direct stream is a sequence of
    changes. -/
theorem step_tells (s : BasicConnectionSession) {a : Action} (hnext : a ≠ .nextEvent)
    (hreset : ∀ stream, a ≠ .reset (.direct stream)) : Tells s.voice (step S s a).voice := by
  cases a with
  | answers sends shutdownError => exact Tells.refl _
  | readable answers => exact onSocketReadable_tells answers s
  | writable => exact onSocketWritable_tells S s
  | timeout => exact onTimeout_tells s
  | beginOutbound => exact (beginOutboundUpgrade_begins S s).tells
  | beginInbound => exact (beginInboundUpgrade_begins s).tells
  | openStream protocol => exact requestOpenStream_tells protocol s
  | acceptStream =>
    rw [step, acceptInboundStream_voice]
    exact Tells.refl _
  | nextEvent => exact absurd rfl hnext
  | close => exact close_tells s
  | tryRead handle size =>
    rw [step, (streamTryRead_out handle size).voice (streamTryRead_mute S handle size)]
    exact Tells.refl _
  | tryWrite handle data =>
    rw [step, (streamTryWrite_out handle data).voice (streamTryWrite_mute S handle data)]
    exact Tells.refl _
  | closeWrite handle =>
    rw [step, (streamCloseWrite_out handle).voice (streamCloseWrite_mute S handle)]
    exact Tells.refl _
  | reset handle =>
    cases handle with
    | yamux stream =>
      rw [step, (streamReset_yamux_out stream).voice (streamReset_mute S (.yamux stream))]
      exact Tells.refl _
    | direct stream => exact absurd rfl (hreset stream)

end Voice

end PeerCore.Connection
