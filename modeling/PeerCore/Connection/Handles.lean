import PeerCore.Yamux.Terminal
import PeerCore.Connection.Delivery

/-!
# Stream handles of a closed session

`close` closes the socket, which ends every direct stream, and leaves the streams of
the Yamux session as they are.

* `closing`: the session on which an action calls `close`.
* `handles_closed`: where no Yamux stream is open at that point, no handle of a closed
  session is open and none accepts data.
* `yamux_handle_stays_open`: a Yamux stream that is open at that point stays open.
-/

namespace PeerCore.Connection

open BasicConnectionSession
open Yamux (YamuxSession Callbacks Host)

variable {S : Noise.Sodium}

/-! ## The statement -/

/-- The session when the `recv` loop stops. -/
def received : List RecvAnswer → BasicConnectionSession → BasicConnectionSession
  | .data bytes :: rest, s => if bytes = [] then s else received rest { s with io := s.io.recv bytes }
  | _, s => s

/-- The session of a method that failed. -/
def failed (run : Result Unit × BasicConnectionSession) : Option BasicConnectionSession :=
  match run with
  | (.ok (), _) => none
  | (.error _, s) => some s

variable (S) in
/-- The session on which the action calls `close`, if it does. -/
def closing (s : BasicConnectionSession) : Action → Option BasicConnectionSession
  | .close => some s
  | .timeout => if s.isActive = false ∨ s.state = .ready then none else some s
  | .writable => if s.isActive = false then none else failed (flushPendingWrites s)
  | .readable answers =>
    if s.isActive = false then none
    else if (recvLoop answers s).1 = false then some (received answers s)
    else failed (processPendingInput S (received answers s))
  | _ => none

variable (S) in
/-- Where the action calls `close`, no Yamux stream that was returned is open; and no
    open one is accepted from a closed session. -/
def LeavesNoneOpen (tr : Trace) (t : BasicConnectionSession) (a : Action) : Prop :=
  (∀ s, closing S t a = some s → ∀ stream, .yamux stream ∈ tr.handles →
    streamIsOpen s (.yamux stream) = false) ∧
  (a = .acceptStream → t.state = .closed → ∀ stream, t.pendingInbound.head? = some (.yamux stream) →
    streamIsOpen t (.yamux stream) = false)

/-- The handle reports that it is closed, and refuses data. -/
def Refuses (S : Noise.Sodium) (t : BasicConnectionSession) (handle : StreamHandle) : Prop :=
  streamIsOpen t handle = false ∧
    ∀ data, ∃ e, (streamTryWrite S handle data t).1 = .error e

/-! ## The socket of a closed session -/

/-- A closed session has no socket. -/
structure Voice.Unplugged (v : Voice) : Prop where
  fd : v.socketOpen = true → 0 ≤ v.fd
  closed : v.state = .closed → v.socketOpen = false

theorem Voice.Unplugged.dropSocket {v : Voice} (h : v.Unplugged) : v.dropSocket.Unplugged := by
  unfold Voice.dropSocket
  split_ifs
  · exact h
  · exact ⟨nofun, fun _ => rfl⟩

theorem Voice.Unplugged.tell {v w : Voice} (h : v.Unplugged) (htell : Tell v w) : w.Unplugged := by
  cases htell with
  | begin | ready => exact ⟨h.fd, nofun⟩
  | handshake | exchange | streams => exact ⟨h.fd, h.closed⟩
  | close stage handshakeState errors hstate herrors =>
    have hdrop : (v.progress stage handshakeState).dropSocket.Unplugged :=
      Voice.Unplugged.dropSocket ⟨h.fd, h.closed⟩
    refine ⟨hdrop.fd, fun _ => ?_⟩
    change (v.progress stage handshakeState).dropSocket.socketOpen = false
    unfold Voice.dropSocket at hdrop ⊢
    split_ifs with hclosed
    · rcases hclosed with hclosed | hneg
      · exact hclosed
      · have := h.fd
        by_contra hopen
        rw [Bool.not_eq_false] at hopen
        have hfd : 0 ≤ v.fd := h.fd hopen
        have hneg' : v.fd < 0 := hneg
        omega
    · rfl

/-! ## Direct streams -/

/-- `flush_stream` fails on a closed socket. -/
theorem flushStream_closed {s : BasicConnectionSession} (h : s.io.socketOpen = false) (stream : ℕ) :
    (flushStream stream s).1 = .error "socket is closed" := by
  unfold flushStream
  simp only [Op.bind_apply, Op.get_apply]
  rw [if_pos (.inl h)]
  rfl

theorem queueEncryptedWrite_closed {s : BasicConnectionSession} (h : s.io.socketOpen = false)
    (stream : ℕ) (data : Bytes) : ∃ e, (queueEncryptedWrite S stream data s).1 = .error e := by
  unfold queueEncryptedWrite
  simp only [Op.bind_apply, Op.get_apply]
  split_ifs
  · exact ⟨_, rfl⟩
  · rcases hseal : sealMessage S data s.secure with ⟨e | ciphertext, secure⟩
    · simp only [Op.onFail, onSecure, Op.zoom, Op.bind_apply, hseal]
      exact ⟨_, rfl⟩
    · simp only [Op.onFail, onSecure, Op.zoom, Op.bind_apply, hseal, queueWireMessage_apply]
      cases Noise.encodeFrame ciphertext with
      | error e => exact ⟨_, rfl⟩
      | ok framed =>
        have hflush := flushStream_closed (s := { s with secure, io := s.io.queue framed }) h stream
        rcases hrun : flushStream stream { s with secure, io := s.io.queue framed } with ⟨e | _, s'⟩
        · refine ⟨e, ?_⟩
          dsimp only
          rw [hrun]
        · rw [hrun] at hflush
          cases hflush

theorem direct_refuses {t : BasicConnectionSession} (hsocket : t.io.socketOpen = false) (stream : ℕ) :
    Refuses S t (.direct stream) := by
  refine ⟨by simp [streamIsOpen, hsocket], fun data => ?_⟩
  unfold streamTryWrite
  simp only [Op.bind_apply, Op.get_apply]
  split_ifs
  · exact ⟨_, rfl⟩
  · exact queueEncryptedWrite_closed hsocket stream data

/-! ## Yamux streams -/

theorem yamux_refuses {t : BasicConnectionSession} {stream : ℕ}
    (hclosed : streamIsOpen t (.yamux stream) = false) : Refuses S t (.yamux stream) := by
  refine ⟨hclosed, fun data => ?_⟩
  unfold streamIsOpen at hclosed
  change ∃ e, (onYamux (Yamux.tryWrite (yamuxCallbacks S) stream data) t).1 = .error e
  unfold onYamux
  cases hyamux : t.yamuxSession with
  | none => exact ⟨_, rfl⟩
  | some yamux =>
    simp only [hyamux] at hclosed
    have hopen : (((yamux, t) : Host BasicConnectionSession).1.heap stream).isOpen = false := hclosed
    have hrefused := Yamux.tryWrite_refused (yamuxCallbacks S) hopen data
    dsimp only
    rw [hrefused]
    exact ⟨_, rfl⟩

theorem close_yamuxSession (s : BasicConnectionSession) :
    (close s).yamuxSession = s.yamuxSession := by
  unfold close
  split_ifs
  · rfl
  · extract_lets s₁ s₂ s₃
    have hsame : s₃.yamuxSession = s.yamuxSession := by
      unfold s₃ s₂
      cases s₁.streamState <;> rfl
    split_ifs <;> exact hsame

theorem emitError_yamuxSession (detail : Bytes) (s : BasicConnectionSession) :
    (emitError detail s).yamuxSession = s.yamuxSession := by
  unfold emitError
  split_ifs <;> rfl

theorem streamIsOpen_congr {s t : BasicConnectionSession} (h : t.yamuxSession = s.yamuxSession)
    (stream : ℕ) : streamIsOpen t (.yamux stream) = streamIsOpen s (.yamux stream) := by
  unfold streamIsOpen
  rw [h]

theorem recvLoop_yamuxSession (answers : List RecvAnswer) :
    ∀ s : BasicConnectionSession,
      ((recvLoop answers s).1 = true → (recvLoop answers s).2 = received answers s) ∧
      ((recvLoop answers s).1 = false →
        (recvLoop answers s).2.yamuxSession = (received answers s).yamuxSession) := by
  induction answers with
  | nil => exact fun s => ⟨fun _ => rfl, (fun h => by cases h)⟩
  | cons answer rest ih =>
    intro s
    cases answer with
    | data bytes =>
      rw [recvLoop, received]
      split_ifs
      · exact ⟨(fun h => by cases h), fun _ => close_yamuxSession s⟩
      · exact ih { s with io := s.io.recv bytes }
    | reset => exact ⟨(fun h => by cases h), fun _ => close_yamuxSession s⟩
    | again => exact ⟨fun _ => rfl, (fun h => by cases h)⟩
    | failed error =>
      refine ⟨(fun h => by cases h), fun _ => ?_⟩
      rw [recvLoop, close_yamuxSession, emitError_yamuxSession]
      rfl

theorem begins_state {s t : BasicConnectionSession} (h : Begins s.voice t.voice) :
    t.state = s.state ∨ t.state = .securing := by
  rcases h with hsame | ⟨-, -, hbegun⟩
  · exact .inl (congrArg Voice.state hsame)
  · exact .inr (congrArg Voice.state hbegun)

/-- An action that closes the session leaves the Yamux session as it is at that point. -/
theorem closing_of_closed {t : BasicConnectionSession} {a : Action} (hbefore : t.state ≠ .closed)
    (hafter : (step S t a).state = .closed) :
    ∃ s, closing S t a = some s ∧ (step S t a).yamuxSession = s.yamuxSession := by
  have hkept : (step S t a).state = t.state ∨ (step S t a).state = .securing →
      ∃ s, closing S t a = some s ∧ (step S t a).yamuxSession = s.yamuxSession := fun hstate => by
    rcases hstate with hstate | hstate <;> rw [hstate] at hafter
    · exact absurd hafter hbefore
    · cases hafter
  cases a with
  | close => exact ⟨t, rfl, close_yamuxSession t⟩
  | timeout =>
    have hclosing : closing S t .timeout =
      if t.isActive = false ∨ t.state = .ready then none else some t := rfl
    rw [step, onTimeout] at hafter ⊢
    rw [hclosing]
    by_cases hidle : t.isActive = false ∨ t.state = .ready
    · split_ifs at hafter with hactive hready
      · exact absurd hafter hbefore
      · exact absurd hafter hbefore
      · exact absurd hidle (not_or.mpr ⟨hactive, hready⟩)
    · obtain ⟨hactive, hready⟩ := not_or.mp hidle
      refine ⟨t, if_neg hidle, ?_⟩
      rw [if_neg hactive, if_neg hready, close_yamuxSession, emitError_yamuxSession]
  | writable =>
    have hclosing : closing S t .writable =
      if t.isActive = false then none else failed (flushPendingWrites t) := rfl
    rw [step, onSocketWritable] at hafter ⊢
    rw [hclosing]
    split_ifs at hafter ⊢ with hactive
    · exact absurd hafter hbefore
    · have hvoice := (flushPendingWrites_out (S := S)).voice flushPendingWrites_mute t
      rcases hrun : flushPendingWrites t with ⟨e | _, s⟩ <;> rw [hrun] at hafter hvoice
      · exact ⟨s, rfl, by rw [close_yamuxSession, emitError_yamuxSession]⟩
      · have hstate : s.state = t.state := congrArg Voice.state hvoice
        exact absurd (hstate.symm.trans hafter) hbefore
  | readable answers =>
    have hclosing : closing S t (.readable answers) =
      if t.isActive = false then none
      else if (recvLoop answers t).1 = false then some (received answers t)
      else failed (processPendingInput S (received answers t)) := rfl
    rw [step, onSocketReadable] at hafter ⊢
    rw [hclosing]
    split_ifs at hafter ⊢ with hactive hstop
    · exact absurd hafter hbefore
    · have hrecv := (recvLoop_yamuxSession answers t).2 hstop
      rcases hloop : recvLoop answers t with ⟨_ | _, s⟩ <;> rw [hloop] at hstop hrecv
      · exact ⟨received answers t, rfl, hrecv⟩
      · cases hstop
    · rw [Bool.not_eq_false] at hstop hactive
      rw [isActive_iff_voice] at hactive
      have hrecv := (recvLoop_yamuxSession answers t).1 hstop
      have hactive' := (recvLoop_tells answers t hactive).2 hstop
      rcases hloop : recvLoop answers t with ⟨_ | _, s⟩ <;>
        rw [hloop] at hstop hrecv hactive' hafter
      · cases hstop
      · dsimp only at hrecv hactive' hafter ⊢
        rw [hrecv] at hactive' hafter ⊢
        have hspoken := processPendingInput_spoken (S := S) _ hactive'
        rcases hrun : processPendingInput S (received answers t) with ⟨e | _, s'⟩ <;>
          rw [hrun] at hafter hspoken
        · exact ⟨s', rfl, by rw [close_yamuxSession, emitError_yamuxSession]⟩
        · exact absurd hafter hspoken.2.2.1
  | answers sends shutdownError => exact hkept (.inl rfl)
  | nextEvent => exact hkept (.inl (congrArg Core.state (nextEvent_core t)))
  | beginOutbound => exact hkept (begins_state (beginOutboundUpgrade_begins S t))
  | beginInbound => exact hkept (begins_state (beginInboundUpgrade_begins t))
  | openStream protocol => exact hkept (.inl (OutMoves.frame (requestOpenStream_out protocol t)).state)
  | acceptStream => exact hkept (.inl (congrArg Core.state (acceptInboundStream_core t)))
  | tryRead handle size => exact hkept (.inl (OutMoves.frame (streamTryRead_out handle size t)).state)
  | tryWrite handle data => exact hkept (.inl (OutMoves.frame (streamTryWrite_out handle data t)).state)
  | closeWrite handle => exact hkept (.inl (OutMoves.frame (streamCloseWrite_out handle t)).state)
  | reset handle =>
    cases handle with
    | yamux stream => exact hkept (.inl (OutMoves.frame (streamReset_yamux_out stream t)).state)
    | direct stream => exact hkept (.inl rfl)

/-! ## A closed session -/

/-- A method of a stream handle leaves closed streams closed. -/
theorem onYamux_fades {α : Type} {x : Op (Host BasicConnectionSession) α} (hx : Yamux.Fades x)
    {t : BasicConnectionSession} {stream : ℕ} (hclosed : streamIsOpen t (.yamux stream) = false) :
    streamIsOpen (onYamux x t).2 (.yamux stream) = false := by
  unfold onYamux streamIsOpen at *
  cases hyamux : t.yamuxSession with
  | none =>
    dsimp only
    rw [hyamux]
  | some yamux =>
    rw [hyamux] at hclosed
    exact hx (yamux, t) stream hclosed

/-- A method that writes keeps the Yamux streams as they are. -/
theorem Narrow.streamIsOpen {α : Type} {x : Method α} (hx : Narrow x) {t : BasicConnectionSession}
    {stream : ℕ} (hclosed : Connection.streamIsOpen t (.yamux stream) = false) :
    Connection.streamIsOpen (x t).2 (.yamux stream) = false := by
  rw [hx t]
  exact hclosed

/-- No action opens a Yamux stream of a closed session. -/
theorem step_of_closed {t : BasicConnectionSession} (hclosed : t.state = .closed) (a : Action)
    {stream : ℕ} (hstream : streamIsOpen t (.yamux stream) = false) :
    streamIsOpen (step S t a) (.yamux stream) = false := by
  have hinactive : t.isActive = false := by simp [isActive, hclosed]
  cases a with
  | answers sends shutdownError => exact hstream
  | readable answers =>
    rw [step, onSocketReadable, if_pos hinactive]
    exact hstream
  | writable =>
    rw [step, onSocketWritable, if_pos hinactive]
    exact hstream
  | timeout =>
    rw [step, onTimeout, if_pos hinactive]
    exact hstream
  | beginOutbound =>
    have hsame : (beginOutboundUpgrade t).2 = t := by
      unfold beginOutboundUpgrade
      simp [hinactive]
    rw [step, hsame]
    exact hstream
  | beginInbound =>
    have hsame : (beginInboundUpgrade t).2 = t := by
      unfold beginInboundUpgrade
      simp [hinactive]
    rw [step, hsame]
    exact hstream
  | openStream protocol =>
    have hsame : (requestOpenStream S protocol t).2 = t := by
      unfold requestOpenStream
      simp [hinactive]
    rw [step, hsame]
    exact hstream
  | acceptStream =>
    have hsame : (acceptInboundStream t).2.yamuxSession = t.yamuxSession := by
      unfold acceptInboundStream
      cases t.pendingInbound <;> rfl
    rw [step, streamIsOpen_congr hsame]
    exact hstream
  | nextEvent =>
    have hsame : (Connection.nextEvent t).2.yamuxSession = t.yamuxSession := by
      unfold Connection.nextEvent
      cases t.eventQueue <;> rfl
    rw [step, streamIsOpen_congr hsame]
    exact hstream
  | close =>
    rw [step, streamIsOpen_congr (close_yamuxSession t)]
    exact hstream
  | tryRead handle size =>
    cases handle with
    | yamux stream' => exact onYamux_fades (Yamux.tryRead_fades stream' size) hstream
    | direct stream' => exact (directTryRead_writing S stream' size).narrow.streamIsOpen hstream
  | tryWrite handle data =>
    cases handle with
    | yamux stream' => exact onYamux_fades (Yamux.tryWrite_fades stream' data) hstream
    | direct stream' => exact (directTryWrite_writing S stream' data).narrow.streamIsOpen hstream
  | closeWrite handle =>
    cases handle with
    | yamux stream' => exact onYamux_fades (Yamux.closeWrite_fades stream') hstream
    | direct stream' => exact (directCloseWrite_writing S stream').narrow.streamIsOpen hstream
  | reset handle =>
    cases handle with
    | yamux stream' => exact onYamux_fades (Yamux.reset_fades stream') hstream
    | direct stream' => exact (directReset_writing S stream').narrow.streamIsOpen hstream

/-- The handles that an action on a closed session returns. -/
theorem handles_of_closed {t : BasicConnectionSession} (hclosed : t.state = .closed) (tr : Trace)
    (a : Action) : (tr.after S t a).handles = tr.handles ∨
      a = .acceptStream ∧ ∃ handle, t.pendingInbound.head? = some handle ∧
        (tr.after S t a).handles = tr.handles ++ [handle] := by
  cases a with
  | openStream protocol =>
    have hrefused : (requestOpenStream S protocol t).1 = .error "connection is closed" := by
      unfold requestOpenStream
      simp [isActive, hclosed]
    refine .inl ?_
    rw [Trace.after, hrefused]
  | acceptStream =>
    unfold Trace.after acceptInboundStream
    cases t.pendingInbound with
    | nil => exact .inl (List.append_nil _)
    | cons handle rest => exact .inr ⟨rfl, handle, rfl, rfl⟩
  | answers | readable | writable | timeout | beginOutbound | beginInbound | nextEvent | close
  | tryRead | tryWrite | closeWrite | reset => exact .inl rfl

/-- The handles that the closing action returns: none. -/
theorem handles_of_closing {t : BasicConnectionSession} {a : Action} {s : BasicConnectionSession}
    (h : closing S t a = some s) (tr : Trace) : (tr.after S t a).handles = tr.handles := by
  cases a with
  | openStream | acceptStream => cases h
  | answers | readable | writable | timeout | beginOutbound | beginInbound | nextEvent | close
  | tryRead | tryWrite | closeWrite | reset => rfl

/-! ## The guarantee -/

/-- In every run of a session with a real descriptor in which `close` is only called
    with no returned Yamux stream open: once the session is closed, every handle it ever
    returned is closed and refuses data. -/
theorem handles_closed (id : ConnectionId) {fd : ℤ} (hfd : 0 ≤ fd) (remoteAddr : Multiaddr)
    (isInitiator : Bool) (identity : Option Identity) (streamMuxers : List ProtocolId)
    (random : ℕ → Noise.Entropy) {tr : Trace} {t : BasicConnectionSession}
    (hrun : Traced S (LeavesNoneOpen S)
      (make id fd remoteAddr isInitiator identity streamMuxers random) tr t)
    (hclosed : t.state = .closed) : ∀ handle ∈ tr.handles, Refuses S t handle := by
  have hsocket : t.io.socketOpen = false := by
    have hunplugged : (tr.voice t).Unplugged := hrun.voice_invariant (fun _ _ hv htell => hv.tell htell)
      (fun _ _ _ _ hv => hv.dropSocket) ⟨fun _ => hfd, nofun⟩
    exact hunplugged.closed hclosed
  have hyamux : t.state = .closed → ∀ stream, .yamux stream ∈ tr.handles →
      streamIsOpen t (.yamux stream) = false := by
    clear hclosed hsocket
    induction hrun with
    | refl => exact fun h => nomatch h
    | @step tr t _ a ha ih =>
      intro hafter stream hmem
      by_cases hbefore : t.state = .closed
      · rcases handles_of_closed (S := S) hbefore tr a with hsame | ⟨haccept, handle, hhead, hmore⟩
        · rw [hsame] at hmem
          exact step_of_closed hbefore a (ih hbefore stream hmem)
        · rw [hmore] at hmem
          rcases List.mem_append.mp hmem with hmem | hmem
          · exact step_of_closed hbefore a (ih hbefore stream hmem)
          · rw [← List.mem_singleton.mp hmem] at hhead
            exact step_of_closed hbefore a (ha.2 haccept hbefore stream hhead)
      · obtain ⟨s, hclosing, hsame⟩ := closing_of_closed hbefore hafter
        rw [handles_of_closing hclosing] at hmem
        rw [streamIsOpen_congr hsame]
        exact ha.1 s hclosing stream hmem
  intro handle hmem
  cases handle with
  | yamux stream => exact yamux_refuses (hyamux hclosed stream hmem)
  | direct stream => exact direct_refuses hsocket stream

/-! ## A Yamux session of the toy primitives -/

/-- Whether the action can return a stream handle. -/
def Action.returns : Action → Bool
  | .openStream _ | .acceptStream => true
  | _ => false

/-- As long as no handle is returned, none is left open. -/
theorem play_leavesNoneOpen (actions : List Action) (h : ∀ a ∈ actions, a.returns = false)
    (s : BasicConnectionSession) : (play S actions s).1.handles = [] ∧
      Traced S (LeavesNoneOpen S) s (play S actions s).1 (play S actions s).2 := by
  induction actions using List.reverseRecOn with
  | nil => exact ⟨rfl, .refl⟩
  | append_singleton actions a ih =>
    obtain ⟨hnone, htraced⟩ := ih fun b hb => h b (List.mem_append_left _ hb)
    have ha : a.returns = false := h a (by simp)
    refine ⟨?_, htraced.play_concat ⟨fun t _ stream hmem => ?_, fun haccept => ?_⟩⟩
    · rw [play_concat]
      cases a with
      | openStream | acceptStream => cases ha
      | answers | readable | writable | timeout | beginOutbound | beginInbound | nextEvent | close
      | tryRead | tryWrite | closeWrite | reset => exact hnone
    · rw [hnone] at hmem
      cases hmem
    · rw [haccept] at ha
      cases ha

theorem leavesNoneOpen_of_none {tr : Trace} {t : BasicConnectionSession} {a : Action}
    (hnone : closing S t a = none) (haccept : a ≠ .acceptStream) : LeavesNoneOpen S tr t a := by
  refine ⟨fun s hs => ?_, fun h => absurd h haccept⟩
  rw [hnone] at hs
  cases hs

/-- The initiator of two sessions that agree on Yamux. -/
def toyYamux : BasicConnectionSession := toyOutbound ⟨[]⟩ [yamuxProtocol]

/-- It becomes ready and opens a stream. -/
def toyYamuxOpen : List Action :=
  toyDial toyYamux (toyInbound [yamuxProtocol]) ++ [.openStream (ascii "/echo")]

theorem toyYamuxOpen_traced : Traced Noise.Sodium.toy (LeavesNoneOpen Noise.Sodium.toy) toyYamux
    (play Noise.Sodium.toy toyYamuxOpen toyYamux).1
    (play Noise.Sodium.toy toyYamuxOpen toyYamux).2 := by
  have hdial := play_leavesNoneOpen (S := Noise.Sodium.toy)
    (toyDial toyYamux (toyInbound [yamuxProtocol])) (by simp [toyDial, Action.returns])
    toyYamux
  exact hdial.2.play_concat (leavesNoneOpen_of_none rfl (by simp))

/-- The stream is reset before the session is closed. -/
theorem handles_closed_toy :
    let p := play Noise.Sodium.toy (toyYamuxOpen ++ [.reset (.yamux 0)] ++ [.close]) toyYamux
    (p.1.handles = [.yamux 0] ∧ p.2.state = .closed) ∧
      ∀ handle ∈ p.1.handles, Refuses Noise.Sodium.toy p.2 handle := by
  intro p
  have hstate : p.1.handles = [.yamux 0] ∧ p.2.state = .closed := by decide +kernel
  have hreset := toyYamuxOpen_traced.play_concat (a := .reset (.yamux 0))
    (leavesNoneOpen_of_none rfl nofun)
  have hrun : Traced Noise.Sodium.toy (LeavesNoneOpen Noise.Sodium.toy) toyYamux p.1 p.2 := by
    refine hreset.play_concat ⟨fun s hs stream hmem => ?_, nofun⟩
    have hhandles : (play Noise.Sodium.toy (toyYamuxOpen ++ [.reset (.yamux 0)]) toyYamux).1.handles =
        [.yamux 0] := by decide +kernel
    rw [hhandles, List.mem_singleton] at hmem
    rw [StreamHandle.yamux.inj hmem, ← Option.some.inj hs]
    decide +kernel
  exact ⟨hstate, handles_closed 1 (by decide) ⟨[]⟩ true (some toyIdentity) [yamuxProtocol] _ hrun
    hstate.2⟩

/-- The stream is open when the session is closed, and stays open. -/
theorem yamux_handle_stays_open :
    ¬ ∀ tr t, Traced Noise.Sodium.toy (fun _ _ _ => True) toyYamux tr t → t.state = .closed →
      ∀ handle ∈ tr.handles, Refuses Noise.Sodium.toy t handle := by
  intro h
  have hrefuses := h _ _ (play_traced (toyYamuxOpen ++ [.close])
    (fun _ _ _ _ => trivial) toyYamux) (by decide +kernel) (.yamux 0) (by decide +kernel)
  exact absurd hrefuses.1 (by decide +kernel)

end PeerCore.Connection
