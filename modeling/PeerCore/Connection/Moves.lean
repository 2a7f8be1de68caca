import PeerCore.Connection.Session
import PeerCore.Yamux.Environment

/-!
# What a session does to its socket and its secure channel

`Core` is the part of a session that the rest of the world depends on: the
socket, the secure channel and the state. `OutMove` lists the ways writing changes
it: the kernel accepts bytes, `shutdown` is called, a message is encrypted
and framed, or encrypted and then refused by `encode_frame`. Every method that
only writes is a sequence of such moves, whatever it returns
(`queueEncryptedMessage_out`, `flushStream_out`, `streamTryWrite_out`, …), also
when the writing is done inside a Yamux callback.
-/

namespace PeerCore.Connection

open Yamux (YamuxSession Callbacks Host)
open BasicConnectionSession

/-- The role, socket, secure channel, state, whether a Yamux session is active, and
    the bytes kept for the muxer exchange. -/
structure Core where
  isInitiator : Bool
  remoteAddr : Multiaddr
  io : SessionIoState
  secure : SecureChannelState
  state : ConnectionState
  hasYamux : Bool
  muxerNegotiationBuffer : Bytes

/-- The core of a session. -/
def BasicConnectionSession.core (s : BasicConnectionSession) : Core :=
  ⟨s.isInitiator, s.remoteAddr, s.io, s.secure, s.state, s.yamuxSession.isSome,
    s.muxerNegotiationBuffer⟩

/-- The script of `send` answers is replaced. -/
def SessionIoState.setSends (io : SessionIoState) (sends : List SendAnswer) : SessionIoState :=
  { io with socket := { io.socket with sends } }

/-- The socket calls are made. -/
def SessionIoState.Usable (io : SessionIoState) : Prop := io.socketOpen = true ∧ 0 ≤ io.fd

/-- Stream data is encrypted only with a secure channel or for a Yamux session. -/
def Core.MaySeal (c : Core) : Prop := c.secure.secureReady = true ∨ c.hasYamux = true

variable (S : Noise.Sodium)

/-- One step of writing. -/
inductive OutMove : Core → Core → Prop
  | answers (c : Core) (sends : List SendAnswer) :
    OutMove c { c with io := c.io.setSends sends }
  | accept (c : Core) (n : ℕ) (husable : c.io.Usable) : OutMove c { c with io := c.io.accept n }
  | shutdown (c : Core) (hopen : c.io.socketOpen = true) (hfirst : c.io.writeShutdown = false)
    (htx : c.io.wireTx = []) (succeeded : Bool) : OutMove c { c with io := c.io.shut succeeded }
  | sealFramed (c : Core) (data ciphertext framed : Bytes) (secure : SecureChannelState)
    (hmay : c.MaySeal) (hseal : sealMessage S data c.secure = (.ok ciphertext, secure))
    (hframe : Noise.encodeFrame ciphertext = .ok framed) :
    OutMove c { c with secure, io := c.io.queue framed }
  | sealLost (c : Core) (data ciphertext : Bytes) (error : String) (secure : SecureChannelState)
    (hmay : c.MaySeal) (hseal : sealMessage S data c.secure = (.ok ciphertext, secure))
    (hframe : Noise.encodeFrame ciphertext = .error error) :
    OutMove c { c with secure }

/-- Any number of steps of writing. -/
def OutMoves : Core → Core → Prop := Relation.ReflTransGen (OutMove S)

/-- A method that only writes. -/
def Writes {α : Type} (x : Method α) : Prop :=
  Op.Preserves (fun s s' => OutMoves S s.core s'.core) x

variable {S}

theorem OutMoves.refl (c : Core) : OutMoves S c c := Relation.ReflTransGen.refl

theorem OutMoves.trans {a b c : Core} (h : OutMoves S a b) (h' : OutMoves S b c) :
    OutMoves S a c := Relation.ReflTransGen.trans h h'

theorem OutMove.single {a b : Core} (h : OutMove S a b) : OutMoves S a b :=
  Relation.ReflTransGen.single h

/-! ## Encryption and decryption as changes of the secure channel -/

section Secure

variable {message result : Bytes} {error : String} {secure secure' : SecureChannelState}

theorem sealMessage_ok (h : sealMessage S message secure = (.ok result, secure')) :
    secure.noise.csSend.hasKey = true ∧ secure.noise.csSend.nonce.toNat ≠ 2 ^ 64 - 1 ∧
      Noise.encryptWithKey S secure.noise.csSend.key secure.noise.csSend.nonce message [] =
        .ok result ∧
      secure' = { secure with
        noise := { secure.noise with
          csSend := { secure.noise.csSend with nonce := secure.noise.csSend.nonce + 1 } }
        sealed := secure.sealed ++
          [⟨secure.noise.csSend.key, secure.noise.csSend.nonce, message, result⟩] } := by
  unfold sealMessage at h
  rcases henc : Noise.encrypt S message secure.noise.csSend with ⟨e | ct, cs⟩
  · simp [henc] at h
  · simp only [henc, Prod.mk.injEq, Except.ok.injEq] at h
    obtain ⟨rfl, rfl⟩ := h
    obtain ⟨hkey, hnonce, hct, rfl⟩ := Noise.encrypt_ok henc
    exact ⟨hkey, hnonce, hct, rfl⟩

/-- A failed `encrypt` changes nothing. -/
theorem sealMessage_error (h : sealMessage S message secure = (.error error, secure')) :
    secure' = secure := by
  unfold sealMessage at h
  rcases henc : Noise.encrypt S message secure.noise.csSend with ⟨e | ct, cs⟩
  · simp only [henc, Prod.mk.injEq] at h
    rw [← h.2, Noise.encrypt_error henc]
  · simp [henc] at h

theorem openMessage_ok (h : openMessage S message secure = (.ok result, secure')) :
    secure.noise.csRecv.hasKey = true ∧ secure.noise.csRecv.nonce.toNat ≠ 2 ^ 64 - 1 ∧
      Noise.decryptWithKey S secure.noise.csRecv.key secure.noise.csRecv.nonce message [] =
        .ok result ∧
      secure' = { secure with
        noise := { secure.noise with
          csRecv := { secure.noise.csRecv with nonce := secure.noise.csRecv.nonce + 1 } }
        opened := secure.opened ++
          [⟨secure.noise.csRecv.key, secure.noise.csRecv.nonce, message, some result⟩] } := by
  unfold openMessage at h
  rcases hdec : Noise.decrypt S message secure.noise.csRecv with ⟨e | pt, cs⟩
  · simp [hdec] at h
  · simp only [hdec, Prod.mk.injEq, Except.ok.injEq] at h
    obtain ⟨rfl, rfl⟩ := h
    obtain ⟨hkey, hnonce, hpt, rfl⟩ := Noise.decrypt_ok hdec
    exact ⟨hkey, hnonce, hpt, rfl⟩

/-- A failed `decrypt` is recorded and changes nothing else. -/
theorem openMessage_error (h : openMessage S message secure = (.error error, secure')) :
    secure' = { secure with
      opened := secure.opened ++
        [⟨secure.noise.csRecv.key, secure.noise.csRecv.nonce, message, none⟩] } := by
  unfold openMessage at h
  rcases hdec : Noise.decrypt S message secure.noise.csRecv with ⟨e | pt, cs⟩
  · simp only [hdec, Prod.mk.injEq] at h
    rw [← h.2, Noise.decrypt_error hdec]
  · simp [hdec] at h

end Secure

/-! ## What writing leaves alone -/

/-- Only what is to be sent has changed: the send buffer, the encryption counter, the history. -/
structure OutFrame (c c' : Core) : Prop where
  isInitiator : c'.isInitiator = c.isInitiator
  remoteAddr : c'.remoteAddr = c.remoteAddr
  state : c'.state = c.state
  hasYamux : c'.hasYamux = c.hasYamux
  muxerNegotiationBuffer : c'.muxerNegotiationBuffer = c.muxerNegotiationBuffer
  socketOpen : c'.io.socketOpen = c.io.socketOpen
  fd : c'.io.fd = c.io.fd
  wireRx : c'.io.wireRx = c.io.wireRx
  received : c'.io.socket.received = c.io.socket.received
  secure : c'.secure = { c.secure with
    noise := { c.secure.noise with csSend := c'.secure.noise.csSend }, sealed := c'.secure.sealed }

theorem OutFrame.refl (c : Core) : OutFrame c c :=
  ⟨rfl, rfl, rfl, rfl, rfl, rfl, rfl, rfl, rfl, rfl⟩

theorem OutFrame.trans {a b c : Core} (h : OutFrame a b) (h' : OutFrame b c) : OutFrame a c where
  isInitiator := h'.isInitiator.trans h.isInitiator
  remoteAddr := h'.remoteAddr.trans h.remoteAddr
  state := h'.state.trans h.state
  hasYamux := h'.hasYamux.trans h.hasYamux
  muxerNegotiationBuffer := h'.muxerNegotiationBuffer.trans h.muxerNegotiationBuffer
  socketOpen := h'.socketOpen.trans h.socketOpen
  fd := h'.fd.trans h.fd
  wireRx := h'.wireRx.trans h.wireRx
  received := h'.received.trans h.received
  secure := by
    have hb := h.secure
    have hc := h'.secure
    rw [hc, hb]

theorem OutMove.frame {a b : Core} (h : OutMove S a b) : OutFrame a b := by
  cases h with
  | answers => exact ⟨rfl, rfl, rfl, rfl, rfl, rfl, rfl, rfl, rfl, rfl⟩
  | accept => exact ⟨rfl, rfl, rfl, rfl, rfl, rfl, rfl, rfl, rfl, rfl⟩
  | shutdown => exact ⟨rfl, rfl, rfl, rfl, rfl, rfl, rfl, rfl, rfl, rfl⟩
  | sealFramed _ _ _ _ _ hseal =>
    obtain ⟨-, -, -, rfl⟩ := sealMessage_ok hseal
    exact ⟨rfl, rfl, rfl, rfl, rfl, rfl, rfl, rfl, rfl, rfl⟩
  | sealLost _ _ _ _ _ hseal =>
    obtain ⟨-, -, -, rfl⟩ := sealMessage_ok hseal
    exact ⟨rfl, rfl, rfl, rfl, rfl, rfl, rfl, rfl, rfl, rfl⟩

theorem OutMoves.frame {a b : Core} (h : OutMoves S a b) : OutFrame a b := by
  induction h with
  | refl => exact OutFrame.refl a
  | tail _ hstep ih => exact ih.trans hstep.frame

namespace OutFrame

variable {c c' : Core} (h : OutFrame c c')
include h

theorem stage : c'.secure.stage = c.secure.stage := by rw [h.secure]

theorem secureReady : c'.secure.secureReady = c.secure.secureReady := by rw [h.secure]

theorem handshakeState : c'.secure.handshakeState = c.secure.handshakeState := by rw [h.secure]

theorem csRecv : c'.secure.noise.csRecv = c.secure.noise.csRecv := by rw [h.secure]

theorem opened : c'.secure.opened = c.secure.opened := by rw [h.secure]

end OutFrame

/-! ## Rules -/

section Rules

variable {α β : Type}

theorem Writes.bind {x : Method α} {f : α → Method β} (hx : Writes S x) (hf : ∀ a, Writes S (f a)) :
    Writes S (x >>= f) :=
  Op.Preserves.bind (fun a b c (h : OutMoves S a.core b.core) (h' : OutMoves S b.core c.core) =>
    h.trans h') hx hf

theorem Writes.pure (a : α) : Writes S (Pure.pure a : Method α) := fun _ => OutMoves.refl _

theorem Writes.fail (e : String) : Writes S (Op.fail e : Method α) := fun _ => OutMoves.refl _

theorem Writes.get : Writes S (Op.get : Method BasicConnectionSession) := fun _ => OutMoves.refl _

/-- A change outside the core. -/
theorem Writes.outside {f : BasicConnectionSession → BasicConnectionSession}
    (hf : ∀ s, (f s).core = s.core) : Writes S (Op.modify f) := fun s => by
  change OutMoves S s.core (f s).core
  rw [hf]
  exact OutMoves.refl _

theorem Writes.onFail {x : Method α} (hx : Writes S x)
    {f : BasicConnectionSession → BasicConnectionSession} (hf : ∀ s, (f s).core = s.core) :
    Writes S (Op.onFail f x) := fun s => by
  have hs : OutMoves S s.core (x s).2.core := hx s
  change OutMoves S s.core (Op.onFail f x s).2.core
  unfold Op.onFail
  rcases hrun : x s with ⟨e | a, s'⟩
  · rw [hrun] at hs
    simpa [hf] using hs
  · rw [hrun] at hs
    exact hs

end Rules

@[simp] theorem core_setDirect (s : BasicConnectionSession) (stream : ℕ)
    (f : StreamState → StreamState) : (s.setDirect stream f).core = s.core := rfl

@[simp] theorem core_pushEvent (s : BasicConnectionSession) (type : EventType)
    (streamId : Option StreamId) (detail : Bytes) :
    (s.pushEvent type streamId detail).core = s.core := rfl

@[simp] theorem core_createStream (protocol : Option ProtocolId) (inboundEvent : Bool)
    (s : BasicConnectionSession) : (createStream protocol inboundEvent s).2.core = s.core := by
  cases inboundEvent <;> rfl

@[simp] theorem core_ensureInboundStream (s : BasicConnectionSession) :
    (ensureInboundStream s).2.core = s.core := by
  unfold ensureInboundStream
  cases s.streamState with
  | none => simp
  | some stream =>
    dsimp only
    split_ifs <;> simp

/-! ## The socket -/

theorem flushWireLoop_out (sends : List SendAnswer) :
    ∀ c : Core, c.io.Usable → OutMoves S c { c with io := (flushWireLoop sends c.io).2 } := by
  induction sends with
  | nil => exact fun c _ => (OutMove.answers c []).single
  | cons answer rest ih =>
    intro c husable
    unfold flushWireLoop
    split_ifs with htx
    · exact (OutMove.answers c (answer :: rest)).single
    · cases answer with
      | accepted n =>
        exact (OutMove.accept c (n + 1) husable).single.trans
          (ih { c with io := c.io.accept (n + 1) } husable)
      | again => exact (OutMove.answers c rest).single
      | failed error => exact (OutMove.answers c rest).single

theorem flushWire_out : Writes S (onIo flushWire) := fun s => by
  change OutMoves S s.core { s.core with io := (flushWire s.io).2 }
  unfold flushWire
  split_ifs with hclosed
  · exact OutMoves.refl _
  · rw [not_or, Bool.not_eq_false, not_lt] at hclosed
    exact flushWireLoop_out s.io.socket.sends s.core hclosed

theorem flushStream_out (stream : ℕ) : Writes S (flushStream stream) := by
  refine Writes.get.bind fun s => ?_
  split_ifs
  · exact (Writes.outside (by intro; rfl)).bind fun _ => Writes.fail _
  · refine (flushWire_out.onFail (by intro; rfl)).bind fun _ s => ?_
    rw [Op.bind_apply, Op.get_apply]
    dsimp only
    split_ifs with hshut
    · cases s.io.socket.shutdownError with
      | some error => exact (OutMove.shutdown s.core hshut.2.1 hshut.2.2.1 hshut.2.2.2 false).single
      | none => exact (OutMove.shutdown s.core hshut.2.1 hshut.2.2.1 hshut.2.2.2 true).single
    · exact OutMoves.refl _

theorem flushPendingWrites_out : Writes S flushPendingWrites := by
  refine flushWire_out.bind fun _ => Writes.get.bind fun s => ?_
  cases s.streamState with
  | none => exact Writes.pure _
  | some stream =>
    dsimp only
    split_ifs
    · exact flushStream_out stream
    · exact Writes.pure _

/-! ## Encrypting -/

/-- Encrypt, frame, and go on with `x`. -/
theorem seal_out {α : Type} {s : BasicConnectionSession} (hmay : s.core.MaySeal) (data : Bytes)
    {f : BasicConnectionSession → BasicConnectionSession} (hf : ∀ s, (f s).core = s.core)
    {x : Method α} (hx : Writes S x) :
    OutMoves S s.core ((do
      let ciphertext ← Op.onFail f (onSecure (sealMessage S data))
      Op.onFail f (onIo (queueWireMessage ciphertext))
      x : Method α) s).2.core := by
  rw [Op.bind_apply]
  rcases hseal : sealMessage S data s.secure with ⟨e | ciphertext, secure⟩
  · simp only [Op.onFail, onSecure, Op.zoom, hseal, hf]
    rw [sealMessage_error hseal]
    exact OutMoves.refl _
  · simp only [Op.onFail, onSecure, Op.zoom, hseal, Op.bind_apply]
    cases hframe : Noise.encodeFrame ciphertext with
    | error e =>
      simp only [onIo, Op.zoom, queueWireMessage, Op.bind_apply, Op.ofResult_apply, hframe, hf]
      exact (OutMove.sealLost s.core data ciphertext e secure hmay hseal hframe).single
    | ok framed =>
      simp only [onIo, Op.zoom, queueWireMessage, Op.bind_apply, Op.ofResult_apply, hframe,
        Op.modify_apply]
      exact (OutMove.sealFramed s.core data ciphertext framed secure hmay hseal hframe).single.trans
        (hx { s with secure, io := s.io.queue framed })

theorem onFail_id {α : Type} (x : Method α) : Op.onFail (fun s => s) x = x := by
  funext s
  unfold Op.onFail
  rcases x s with ⟨_ | _, _⟩ <;> rfl

theorem queueEncryptedMessage_out (data : Bytes) {s : BasicConnectionSession}
    (hmay : s.core.MaySeal) : OutMoves S s.core (queueEncryptedMessage S data s).2.core := by
  have := seal_out (f := fun s => s) hmay data (fun _ => rfl) (flushWire_out (S := S))
  simp only [onFail_id] at this
  exact this

theorem queueEncryptedWrite_out (stream : ℕ) (data : Bytes) :
    Writes S (queueEncryptedWrite S stream data) := fun s => by
  unfold queueEncryptedWrite
  rw [Op.bind_apply, Op.get_apply]
  dsimp only
  split_ifs with hready
  · exact OutMoves.refl _
  · rw [Bool.not_eq_false] at hready
    exact seal_out (.inl hready) data (by intro; rfl) ((flushStream_out stream).bind fun _ => Writes.pure _)

/-! ## Streams -/

theorem yamuxCallbacks_respects :
    Yamux.Respects (yamuxCallbacks S) fun s s' =>
      s.core.hasYamux = true → OutMoves S s.core s'.core where
  refl := fun _ _ => OutMoves.refl _
  trans := fun _ _ _ h h' hyamux => (h hyamux).trans (h' ((h hyamux).frame.hasYamux.trans hyamux))
  accept := fun f hf stream sid s _ => by
    cases hf
    exact OutMoves.refl _
  outgoing := fun f hf sendBuf s hyamux => by
    cases hf
    dsimp only
    split_ifs
    · exact OutMoves.refl _
    · exact queueEncryptedMessage_out sendBuf (.inr hyamux)
  close := fun f hf sid detail s _ => by
    cases hf
    exact OutMoves.refl _

/-- A method of the Yamux session that keeps the moves of its environment. -/
theorem onYamux_out {α : Type} {x : Op (Host BasicConnectionSession) α}
    (hx : Yamux.Keeps (fun s s' => s.core.hasYamux = true → OutMoves S s.core s'.core) x) :
    Writes S (onYamux x) := fun s => by
  unfold onYamux
  cases hy : s.yamuxSession with
  | none => exact OutMoves.refl _
  | some yamux =>
    have hsome : s.core.hasYamux = true := by simp [BasicConnectionSession.core, hy]
    have hmoves : OutMoves S s.core (x (yamux, s)).2.2.core := hx (yamux, s) hsome
    have hyamux := hmoves.frame.hasYamux
    have hcore : ({ (x (yamux, s)).2.2 with yamuxSession := some (x (yamux, s)).2.1 } :
        BasicConnectionSession).core = (x (yamux, s)).2.2.core := by
      rw [hsome] at hyamux
      simp only [BasicConnectionSession.core] at hyamux ⊢
      rw [hyamux]
      rfl
    change OutMoves S s.core ({ (x (yamux, s)).2.2 with yamuxSession := some (x (yamux, s)).2.1 } :
      BasicConnectionSession).core
    rw [hcore]
    exact hmoves

theorem deliverPlaintext_out (plaintext : Bytes) : Writes S (deliverPlaintext S plaintext) :=
  fun s => by
    unfold deliverPlaintext
    split_ifs
    · exact onYamux_out (Yamux.receive_respects yamuxCallbacks_respects plaintext) s
    · change OutMoves S s.core (ensureInboundStream s).2.core
      rw [core_ensureInboundStream]
      exact OutMoves.refl _

theorem streamTryRead_out (handle : StreamHandle) (size : ℕ) :
    Writes S (streamTryRead S handle size) := by
  cases handle with
  | yamux stream => exact onYamux_out (Yamux.tryRead_respects yamuxCallbacks_respects stream size)
  | direct stream =>
    refine Writes.get.bind fun s => ?_
    dsimp only
    split_ifs
    · exact Writes.pure _
    · exact (Writes.outside (by intro; rfl)).bind fun _ => Writes.pure _

theorem streamTryWrite_out (handle : StreamHandle) (data : Bytes) :
    Writes S (streamTryWrite S handle data) := by
  cases handle with
  | yamux stream => exact onYamux_out (Yamux.tryWrite_respects yamuxCallbacks_respects stream data)
  | direct stream =>
    refine Writes.get.bind fun s => ?_
    dsimp only
    split_ifs
    · exact Writes.fail _
    · exact queueEncryptedWrite_out stream data

theorem streamCloseWrite_out (handle : StreamHandle) : Writes S (streamCloseWrite S handle) := by
  cases handle with
  | yamux stream => exact onYamux_out (Yamux.closeWrite_respects yamuxCallbacks_respects stream)
  | direct stream =>
    refine Writes.get.bind fun s => ?_
    split_ifs
    · exact Writes.fail _
    · exact (Writes.outside (by intro; rfl)).bind fun _ => flushStream_out stream

/-- `reset` of a direct stream also closes the socket. -/
theorem streamReset_yamux_out (stream : ℕ) : Writes S (streamReset S (.yamux stream)) :=
  onYamux_out (Yamux.reset_respects yamuxCallbacks_respects stream)

theorem requestOpenStream_out (protocol : ProtocolId) : Writes S (requestOpenStream S protocol) := by
  refine Writes.get.bind fun s => ?_
  split_ifs
  · exact Writes.fail _
  · exact Writes.fail _
  · refine (onYamux_out (Yamux.openStream_respects yamuxCallbacks_respects)).bind fun stream => ?_
    refine (onYamux_out fun h _ => ?_).bind fun sid => ?_
    · exact OutMoves.refl _
    · exact (Writes.outside (by intro; rfl)).bind fun _ => Writes.pure _
  · have hcreate : Writes S (do
        let stream ← Op.update (createStream (some protocol) false)
        pure (StreamHandle.direct stream)) := fun s => by
      change OutMoves S s.core (createStream (some protocol) false s).2.core
      rw [core_createStream]
      exact OutMoves.refl _
    cases s.streamState with
    | none => exact hcreate
    | some stream =>
      dsimp only
      split_ifs
      · exact Writes.fail _
      · exact hcreate

end PeerCore.Connection
