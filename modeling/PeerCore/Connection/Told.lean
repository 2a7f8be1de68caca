import PeerCore.Connection.Handles
import PeerCore.Connection.Walk

/-!
# What the owner of a session is told

* `Plain`: before the channel is ready no event names a stream (`plain_upheld`).
* `Lived told s`: the events of the types `told` were taken from `s`. Every action
  keeps it (`Lived.step`), and `Lived.take` is what the next event may be.
* `step_grows`: an action queues events behind the ones that are there, the channel
  and the peer stay, and `Secured` is queued when the channel becomes ready.
* `OnHandle`: calls on the handles of streams queue nothing.
-/

namespace PeerCore.Connection

open BasicConnectionSession
open Yamux (YamuxSession Callbacks Host)

/-! ## Before the channel is ready -/

/-- Before the channel is ready there are no streams, and no event names one. -/
def Plain (s : BasicConnectionSession) : Prop :=
  s.secure.secureReady = false →
    s.streamState = none ∧ s.pendingInbound = [] ∧ ∀ e ∈ s.eventQueue, e.streamId = none

theorem Plain.of_ready {s : BasicConnectionSession} (h : s.secure.secureReady = true) : Plain s := by
  intro hready
  rw [h] at hready
  cases hready

theorem Plain.of_same {s s' : BasicConnectionSession} (h : Plain s)
    (hready : s'.secure.secureReady = s.secure.secureReady) (hstream : s'.streamState = s.streamState)
    (hpending : s'.pendingInbound = s.pendingInbound) (hqueue : s'.eventQueue = s.eventQueue) :
    Plain s' := by
  intro hnot
  rw [hready] at hnot
  rw [hstream, hpending, hqueue]
  exact h hnot

/-- An event about the direct stream of the session. -/
theorem Plain.push {s : BasicConnectionSession} (h : Plain s) (type : EventType) (detail : Bytes) :
    Plain (s.pushEvent type s.streamStateId detail) := by
  intro hready
  obtain ⟨hstream, hpending, hqueue⟩ := h hready
  refine ⟨hstream, hpending, fun e he => ?_⟩
  rcases List.mem_append.mp he with he | he
  · exact hqueue e he
  · rw [List.mem_singleton.mp he]
    show s.streamState.map _ = none
    rw [hstream]
    rfl

theorem completeReadyState_plain (s : BasicConnectionSession) : Plain (completeReadyState s) := by
  obtain ⟨_, _, hvoice⟩ := completeReadyState_voice s
  exact Plain.of_ready (congrArg Voice.secureReady hvoice)

theorem plain_upheld {S : Noise.Sodium} : Upheld S Plain where
  beside := fun hs h => hs.of_same h.secureReady h.streamState h.pendingInbound h.eventQueue
  tell := fun hs type detail _ => hs.push type detail
  activate := fun hs _ => hs.of_same rfl rfl rfl rfl
  complete := fun {s} _ _ => completeReadyState_plain s
  deliver := fun {s} _ hready plaintext =>
    Plain.of_ready ((OutMoves.frame (deliverPlaintext_out (S := S) plaintext s)).secureReady.trans hready)

/-! ## Calls on the handles of streams -/

section OnHandle

variable (S : Noise.Sodium) {α : Type}

/-- The calls on handles, and the answers of the socket. -/
def Action.OnHandle : Action → Prop
  | .answers _ _ | .tryRead _ _ | .tryWrite _ _ | .closeWrite _ | .reset _ => True
  | _ => False

/-- What such a call leaves as it is. -/
structure Unheard (s s' : BasicConnectionSession) : Prop where
  state : s'.state = s.state
  secureReady : s'.secure.secureReady = s.secure.secureReady
  remotePeer : s'.remotePeer = s.remotePeer
  streamState : s'.streamState = s.streamState
  pendingInbound : s'.pendingInbound = s.pendingInbound
  eventQueue : s'.eventQueue = s.eventQueue

theorem Unheard.refl (s : BasicConnectionSession) : Unheard s s := ⟨rfl, rfl, rfl, rfl, rfl, rfl⟩

theorem Unheard.trans {a b c : BasicConnectionSession} (h : Unheard a b) (h' : Unheard b c) :
    Unheard a c :=
  ⟨h'.1.trans h.1, h'.2.trans h.2, h'.3.trans h.3, h'.4.trans h.4, h'.5.trans h.5, h'.6.trans h.6⟩

theorem Unheard.plain {s s' : BasicConnectionSession} (h : Unheard s s') (hs : Plain s) : Plain s' :=
  hs.of_same h.secureReady h.streamState h.pendingInbound h.eventQueue

theorem OutFrame.remotePeer {c c' : Core} (h : OutFrame c c') :
    c'.secure.noise.remotePeerId = c.secure.noise.remotePeerId := by
  rw [h.secure]

theorem Narrow.unheard {x : Method α} (hx : Narrow x) (hout : Writes S x) (s : BasicConnectionSession) :
    Unheard s (x s).2 := by
  have hframe := OutMoves.frame (hout s)
  have hnarrow := hx s
  refine ⟨hframe.state, hframe.secureReady, hframe.remotePeer, ?_, ?_, ?_⟩ <;> rw [hnarrow]

/-- The Yamux session calls back for outgoing frames only. -/
theorem localCallbacks_unheard : Yamux.Respects (localCallbacks S) Unheard where
  refl := Unheard.refl
  trans := fun _ _ _ h h' => h.trans h'
  accept := nofun
  outgoing := fun f hf sendBuf s => by
    cases hf
    dsimp only
    split_ifs
    · exact Unheard.refl s
    · have hvoice := queueEncryptedMessage_voice (S := S) sendBuf s
      have hnarrow := queueEncryptedMessage_narrow S sendBuf s
      refine ⟨congrArg Voice.state hvoice, congrArg Voice.secureReady hvoice, ?_, ?_, ?_, ?_⟩
      · rcases queueEncryptedMessage_cases (S := S) sendBuf s with
          ⟨e, hrun⟩ | ⟨ciphertext, secure, e, hseal, -, hrun⟩ | ⟨ciphertext, secure, framed, hseal, -, hrun⟩
        · rw [hrun]
        · obtain ⟨-, -, -, rfl⟩ := sealMessage_ok hseal
          rw [hrun]
          rfl
        · obtain ⟨-, -, -, rfl⟩ := sealMessage_ok hseal
          rw [hrun]
          exact (OutMoves.frame (flushWire_out (S := S) _)).remotePeer
      all_goals rw [hnarrow]
  close := nofun

theorem onYamux_unheard {x : Op (Host BasicConnectionSession) α} (hx : Yamux.Keeps Unheard x)
    (s : BasicConnectionSession) : Unheard s (onYamux x s).2 := by
  unfold onYamux
  cases s.yamuxSession with
  | none => exact Unheard.refl s
  | some yamux =>
    have hs := hx (yamux, s)
    exact ⟨hs.1, hs.2, hs.3, hs.4, hs.5, hs.6⟩

theorem step_unheard (s : BasicConnectionSession) {a : Action} (ha : a.OnHandle) :
    Unheard s (step S s a) := by
  cases a with
  | answers sends shutdownError => exact ⟨rfl, rfl, rfl, rfl, rfl, rfl⟩
  | tryRead handle size =>
    cases handle with
    | yamux stream =>
      exact onYamux_unheard (Yamux.tryRead_respects (localCallbacks_unheard S) stream size) s
    | direct stream => exact (directTryRead_writing S stream size).narrow.unheard S (streamTryRead_out _ size) s
  | tryWrite handle data =>
    cases handle with
    | yamux stream =>
      exact onYamux_unheard (Yamux.tryWrite_respects (localCallbacks_unheard S) stream data) s
    | direct stream => exact (directTryWrite_writing S stream data).narrow.unheard S (streamTryWrite_out _ data) s
  | closeWrite handle =>
    cases handle with
    | yamux stream =>
      exact onYamux_unheard (Yamux.closeWrite_respects (localCallbacks_unheard S) stream) s
    | direct stream => exact (directCloseWrite_writing S stream).narrow.unheard S (streamCloseWrite_out _) s
  | reset handle =>
    cases handle with
    | yamux stream =>
      exact onYamux_unheard (Yamux.reset_respects (localCallbacks_unheard S) stream) s
    | direct stream => exact ⟨rfl, rfl, rfl, rfl, rfl, rfl⟩
  | readable => cases ha
  | writable => cases ha
  | timeout => cases ha
  | beginOutbound => cases ha
  | beginInbound => cases ha
  | openStream => cases ha
  | acceptStream => cases ha
  | nextEvent => cases ha
  | close => cases ha

end OnHandle

/-! ## What an action adds to the queue -/

/-- Events are queued behind the ones that are there, and the channel stays ready. When
    it becomes ready, that is told. -/
structure Voice.Grows (v w : Voice) : Prop where
  ready : v.secureReady = true → w.secureReady = true
  events : ∃ queued, w.events = v.events ++ queued ∧
    (w.secureReady = v.secureReady → .secured ∉ queued ∧ .multiplexerReady ∉ queued) ∧
    (w.secureReady ≠ v.secureReady → .secured ∈ queued ∧ .multiplexerReady ∈ queued)

namespace Voice.Grows

variable {u v w : Voice}

/-- The channel does not become ready. -/
theorem of_quiet (hready : w.secureReady = v.secureReady) (queued : List EventType)
    (hevents : w.events = v.events ++ queued) (hsecured : .secured ∉ queued)
    (hmultiplexer : .multiplexerReady ∉ queued) : v.Grows w where
  ready := fun h => hready.trans h
  events := ⟨queued, hevents, fun _ => ⟨hsecured, hmultiplexer⟩, fun hne => absurd hready hne⟩

theorem refl (v : Voice) : v.Grows v := of_quiet rfl [] (by simp) (by simp) (by simp)

theorem trans (h : u.Grows v) (h' : v.Grows w) : u.Grows w := by
  obtain ⟨queued, hevents, hsame, hnew⟩ := h.events
  obtain ⟨queued', hevents', hsame', hnew'⟩ := h'.events
  refine ⟨fun hu => h'.ready (h.ready hu), queued ++ queued', ?_, fun heq => ?_, fun hne => ?_⟩
  · rw [hevents', hevents, List.append_assoc]
  · -- a channel that became ready would have stayed so
    have hv : v.secureReady = u.secureReady := by
      cases hu : u.secureReady with
      | true => exact h.ready hu
      | false =>
        by_contra hready
        rw [Bool.not_eq_false] at hready
        rw [hu, h'.ready hready] at heq
        cases heq
    have hw : w.secureReady = v.secureReady := heq.trans hv.symm
    simp only [List.mem_append, not_or]
    exact ⟨⟨(hsame hv).1, (hsame' hw).1⟩, (hsame hv).2, (hsame' hw).2⟩
  · simp only [List.mem_append]
    by_cases hv : v.secureReady = u.secureReady
    · have hw : w.secureReady ≠ v.secureReady := by
        rw [hv]
        exact hne
      exact ⟨.inr (hnew' hw).1, .inr (hnew' hw).2⟩
    · exact ⟨.inl (hnew hv).1, .inl (hnew hv).2⟩

end Voice.Grows

theorem EventType.IsStream.ne {type : EventType} (h : type.IsStream) :
    type ≠ .secured ∧ type ≠ .multiplexerReady := by
  rcases h with rfl | rfl | rfl <;> exact ⟨by simp, by simp⟩

theorem Voice.dropSocket_same (v : Voice) :
    v.dropSocket.secureReady = v.secureReady ∧ v.dropSocket.events = v.events := by
  unfold Voice.dropSocket
  split_ifs
  · exact ⟨rfl, rfl⟩
  · exact ⟨rfl, rfl⟩

theorem Tell.grows {v w : Voice} (h : Tell v w) : v.Grows w := by
  have hquiet : ∀ u : Voice, u.secureReady = v.secureReady → u.events = v.events → v.Grows u :=
    fun u hready hevents => Voice.Grows.of_quiet hready [] (by simp [hevents]) (by simp) (by simp)
  cases h with
  | begin => exact hquiet _ rfl rfl
  | handshake => exact hquiet _ rfl rfl
  | exchange => exact hquiet _ rfl rfl
  | ready handshakeState accepted hactive hsecure haccepted =>
    refine ⟨fun _ => rfl, .secured :: .multiplexerReady :: accepted, rfl, fun heq => ?_, fun _ => ?_⟩
    · rw [hsecure] at heq
      cases heq
    · simp
  | streams events hactive hready hevents =>
    exact Voice.Grows.of_quiet rfl events rfl (fun hs => (hevents _ hs).ne.1 rfl)
      fun hs => (hevents _ hs).ne.2 rfl
  | close stage handshakeState errors hstate herrors =>
    have hdrop := (v.progress stage handshakeState).dropSocket_same
    refine Voice.Grows.of_quiet hdrop.1 (errors ++ if v.closedEmitted then [] else [.closed]) ?_ ?_ ?_
    · show (v.progress stage handshakeState).dropSocket.events ++ _ = _
      rw [hdrop.2]
      rfl
    · rcases herrors with rfl | rfl <;> split_ifs <;> simp
    · rcases herrors with rfl | rfl <;> split_ifs <;> simp

theorem Tells.grows {v w : Voice} (h : Tells v w) : v.Grows w := by
  induction h with
  | refl => exact Voice.Grows.refl v
  | tail _ hstep ih => exact ih.trans hstep.grows

variable {S : Noise.Sodium}

theorem step_grows (s : BasicConnectionSession) {a : Action} (ha : a ≠ .nextEvent) :
    s.voice.Grows (step S s a).voice := by
  by_cases hdirect : ∃ stream, a = .reset (.direct stream)
  · obtain ⟨stream, rfl⟩ := hdirect
    rw [step, streamReset_direct_voice]
    obtain ⟨hready, hevents⟩ := s.voice.dropSocket_same
    exact Voice.Grows.of_quiet hready [] (by simp [hevents]) (by simp) (by simp)
  · rw [not_exists] at hdirect
    exact (step_tells s ha hdirect).grows

/-- The actions that cannot end the upgrade: all but reading. -/
def Action.Local (a : Action) : Prop := ∀ answers, a ≠ .readable answers

theorem close_secureReady (s : BasicConnectionSession) :
    (close s).secure.secureReady = s.secure.secureReady := by
  have hcore := congrArg (fun c : Core => c.secure.secureReady) (close_core s)
  rw [apply_ite (fun c : Core => c.secure.secureReady)] at hcore
  simpa [core] using hcore

theorem close_emitError_secureReady (detail : Bytes) (s : BasicConnectionSession) :
    (close (emitError detail s)).secure.secureReady = s.secure.secureReady := by
  have hcore := congrArg (fun c : Core => c.secure.secureReady) (close_emitError_core detail s)
  rw [apply_ite (fun c : Core => c.secure.secureReady)] at hcore
  simpa [core] using hcore

theorem step_secureReady (s : BasicConnectionSession) {a : Action} (ha : a.Local) :
    (step S s a).secure.secureReady = s.secure.secureReady := by
  cases a with
  | readable answers => exact absurd rfl (ha answers)
  | writable =>
    show (onSocketWritable s).secure.secureReady = _
    unfold onSocketWritable
    split_ifs
    · rfl
    · have hflush := (OutMoves.frame (flushPendingWrites_out (S := S) s)).secureReady
      rcases hrun : flushPendingWrites s with ⟨e | _, s'⟩ <;> rw [hrun] at hflush
      · exact (close_emitError_secureReady _ s').trans hflush
      · exact hflush
  | timeout =>
    show (onTimeout s).secure.secureReady = _
    unfold onTimeout
    split_ifs
    · rfl
    · rfl
    · exact close_emitError_secureReady _ s
  | beginOutbound =>
    rcases beginOutboundUpgrade_begins S s with hsame | ⟨-, -, hsame⟩
    · exact congrArg Voice.secureReady hsame
    · exact congrArg Voice.secureReady hsame
  | beginInbound =>
    rcases beginInboundUpgrade_begins s with hsame | ⟨-, -, hsame⟩
    · exact congrArg Voice.secureReady hsame
    · exact congrArg Voice.secureReady hsame
  | openStream protocol =>
    exact (OutMoves.frame (requestOpenStream_out (S := S) protocol s)).secureReady
  | acceptStream => exact congrArg Voice.secureReady (acceptInboundStream_voice s)
  | nextEvent => exact congrArg (fun c : Core => c.secure.secureReady) (nextEvent_core s)
  | close => exact close_secureReady s
  | answers => exact (step_unheard S s (by exact trivial)).secureReady
  | tryRead => exact (step_unheard S s (by exact trivial)).secureReady
  | tryWrite => exact (step_unheard S s (by exact trivial)).secureReady
  | closeWrite => exact (step_unheard S s (by exact trivial)).secureReady
  | reset => exact (step_unheard S s (by exact trivial)).secureReady

/-! ## The peer -/

/-- The peer of a channel that is ready. -/
structure Core.Settled (peer : Option PeerId) (c : Core) : Prop where
  secureReady : c.secure.secureReady = true
  stage : c.secure.stage = .ready
  remotePeer : c.secure.noise.remotePeerId = peer

theorem Core.Settled.move {peer : Option PeerId} {c c' : Core} (h : c.Settled peer) (hmove : Move S c c') :
    c'.Settled peer := by
  obtain ⟨hready, hstage, hpeer⟩ := h
  -- the upgrade is over
  have hnot : ∀ {p : Prop}, c.secure.secureReady = false → p := fun hf => by
    rw [hready] at hf
    cases hf
  have hpast : ∀ {p : Prop} {stage : SecurityStage}, c.secure.stage = stage → stage ≠ .ready → p :=
    fun hs hne => absurd (hs.symm.trans hstage) hne
  cases hmove with
  | out hout =>
    have hframe := hout.frame
    exact ⟨hframe.secureReady.trans hready, hframe.stage.trans hstage, hframe.remotePeer.trans hpeer⟩
  | socket => exact ⟨hready, hstage, hpeer⟩
  | recv => exact ⟨hready, hstage, hpeer⟩
  | close => exact ⟨hready, hstage, hpeer⟩
  | closeSocket => exact ⟨hready, hstage, hpeer⟩
  | startNoise _ _ _ _ hs => exact hpast hs (by simp)
  | acceptNoise _ _ _ _ hs => exact hpast hs (by simp)
  | acceptNoiseFail _ _ _ hs => exact hpast hs (by simp)
  | msg1 _ _ _ _ _ hwait => exact hnot hwait.secureReady
  | msg2 _ _ _ _ _ hwait => exact hnot hwait.secureReady
  | msg3 _ _ _ hwait => exact hnot hwait.secureReady
  | fail _ _ _ hs =>
    rcases hs with hs | hs
    · exact hpast hs (by simp)
    · exact hpast hs (by simp)
  | finishYamux hfinish => exact hnot hfinish.secureReady
  | finishDirect hfinish => exact hnot hfinish.secureReady
  | finishInbound hfinish => exact hnot hfinish.secureReady
  | finishOutbound _ _ _ _ hfinish => exact hnot hfinish.secureReady
  | finishFail _ _ hfinish => exact hnot hfinish.secureReady
  | openMuxer _ _ _ _ hexchange => exact hnot hexchange.secureReady
  | openData _ _ _ _ _ _ _ hopen =>
    obtain ⟨-, -, -, rfl⟩ := openMessage_ok hopen
    exact ⟨hready, hstage, hpeer⟩
  | openFail _ _ _ _ _ _ _ hopen =>
    obtain rfl := openMessage_error hopen
    exact ⟨hready, hstage, hpeer⟩
  | muxerOutbound _ _ hexchange => exact hnot hexchange.secureReady
  | muxerInbound _ _ _ _ _ _ hexchange => exact hnot hexchange.secureReady
  | muxerInboundFail _ _ _ _ _ hexchange => exact hnot hexchange.secureReady
  | muxerInboundLost _ _ _ hexchange => exact hnot hexchange.secureReady

/-- The peer of a session whose channel is ready is never another one. -/
theorem step_remotePeer {s : BasicConnectionSession} (harmed : Armed s.core)
    (hready : s.secure.secureReady = true) (a : Action) : (step S s a).remotePeer = s.remotePeer := by
  have hsettled : s.core.Settled s.remotePeer := ⟨hready, (harmed.secureReady hready).1, rfl⟩
  cases hkind : a.isBegin with
  | false =>
    exact ((step_moves s hkind).invariant (fun _ _ h hmove => h.move hmove) hsettled).remotePeer
  | true =>
    rcases step_begin (S := S) s hkind with hsame | ⟨c, hbegin, -⟩
    · exact congrArg (fun c : Core => c.secure.noise.remotePeerId) hsame
    · have hnot : s.secure.secureReady = false := hbegin.guard.2
      rw [hready] at hnot
      cases hnot

/-! ## The life of a session -/

/-- What stands before what in a whole life. -/
def Follows (a b : EventType) : Prop :=
  a ≠ .closed ∧ b ≠ .secured ∧ (b = .multiplexerReady → a = .secured) ∧ (a = .error → b = .closed)

theorem Opening.follows {word : List EventType} (h : Opening word) : word.Pairwise Follows := by
  rcases h with rfl | ⟨streams, hstreams, rfl⟩
  · exact List.Pairwise.nil
  · have hstream : ∀ a b : EventType, a.IsStream ∨ a = .secured ∨ a = .multiplexerReady → b.IsStream →
        Follows a b := by
      intro a b ha hb
      refine ⟨?_, hb.ne.1, fun h => absurd h hb.ne.2, ?_⟩
      · rintro rfl
        rcases ha with (ha | ha | ha) | ha | ha <;> cases ha
      · rintro rfl
        rcases ha with (ha | ha | ha) | ha | ha <;> cases ha
    refine List.pairwise_cons.mpr ⟨fun b hb => ?_, List.pairwise_cons.mpr ⟨fun b hb => ?_, ?_⟩⟩
    · rcases List.mem_cons.mp hb with rfl | hb
      · exact ⟨by simp, by simp, fun _ => rfl, by simp⟩
      · exact hstream _ b (.inr (.inl rfl)) (hstreams b hb)
    · exact hstream _ b (.inr (.inr rfl)) (hstreams b hb)
    · exact List.pairwise_of_forall_mem_list fun a ha b hb => hstream a b (.inl (hstreams a ha)) (hstreams b hb)

theorem WholeLife.follows {whole : List EventType} (h : WholeLife whole) : whole.Pairwise Follows := by
  obtain ⟨opening, errors, hopening, herrors, rfl⟩ := h
  have hlive : ∀ a ∈ opening, a ≠ .closed ∧ a ≠ .error := by
    intro a ha
    rcases hopening with rfl | ⟨streams, hstreams, rfl⟩
    · cases ha
    · rcases List.mem_cons.mp ha with rfl | ha
      · exact ⟨by simp, by simp⟩
      rcases List.mem_cons.mp ha with rfl | ha
      · exact ⟨by simp, by simp⟩
      · rcases hstreams a ha with rfl | rfl | rfl <;> exact ⟨by simp, by simp⟩
  rcases herrors with rfl | rfl
  · rw [List.append_nil]
    refine List.pairwise_append.mpr ⟨hopening.follows, List.pairwise_singleton _ _, fun a ha b hb => ?_⟩
    rw [List.mem_singleton.mp hb]
    exact ⟨(hlive a ha).1, by simp, by simp, fun _ => rfl⟩
  · rw [List.append_assoc]
    refine List.pairwise_append.mpr ⟨hopening.follows, ?_, fun a ha b hb => ?_⟩
    · exact List.pairwise_pair.mpr ⟨by simp, by simp, by simp, by simp⟩
    · have hb' : b = .error ∨ b = .closed := by simpa using hb
      rcases hb' with rfl | rfl
      · exact ⟨(hlive a ha).1, by simp, by simp, fun h => absurd h (hlive a ha).2⟩
      · exact ⟨(hlive a ha).1, by simp, by simp, fun _ => rfl⟩

/-- The events of streams come behind `MultiplexerReady`. -/
theorem WholeLife.stream_behind {told rest : List EventType} {t : EventType}
    (h : WholeLife (told ++ t :: rest)) (ht : t.IsStream) : .multiplexerReady ∈ told := by
  obtain ⟨opening, errors, hopening, herrors, hword⟩ := h
  have htne : t ≠ .error ∧ t ≠ .closed := by
    rcases ht with rfl | rfl | rfl <;> exact ⟨by simp, by simp⟩
  rcases hopening with rfl | ⟨streams, hstreams, rfl⟩
  · -- without an opening there is no event of a stream
    have hmem : t ∈ [] ++ errors ++ [EventType.closed] := by
      rw [← hword]
      simp
    rcases herrors with rfl | rfl
    · exact absurd (by simpa using hmem) htne.2
    · rcases (by simpa using hmem : t = .error ∨ t = .closed) with h | h
      · exact absurd h htne.1
      · exact absurd h htne.2
  · cases told with
    | nil =>
      simp only [List.nil_append, List.cons_append, List.cons.injEq] at hword
      exact absurd hword.1 ht.ne.1
    | cons a told =>
      simp only [List.cons_append, List.cons.injEq] at hword
      cases told with
      | nil =>
        simp only [List.nil_append, List.cons.injEq] at hword
        exact absurd hword.2.1 ht.ne.2
      | cons b told =>
        simp only [List.cons_append, List.cons.injEq] at hword
        rw [hword.2.1]
        simp

/-- Events of the types `told` were taken from the session. -/
structure Lived (told : List EventType) (s : BasicConnectionSession) : Prop where
  orderly : Orderly (s.voice.behind told)
  plain : Plain s
  armed : Armed s.core
  upgraded : s.secure.secureReady = true → .multiplexerReady ∈ told ++ s.eventQueue.map (·.type)

theorem make_lived (id : ConnectionId) (fd : ℤ) (remoteAddr : Multiaddr) (isInitiator : Bool)
    (identity : Option Identity) (streamMuxers : List ProtocolId) (random : ℕ → Noise.Entropy) :
    Lived [] (make id fd remoteAddr isInitiator identity streamMuxers random) where
  orderly := make_orderly id fd remoteAddr isInitiator identity streamMuxers random
  plain := fun _ => ⟨rfl, rfl, fun e he => by cases he⟩
  armed := make_armed id fd remoteAddr isInitiator identity streamMuxers random
  upgraded := fun h => by cases h

namespace Lived

variable {told : List EventType} {s : BasicConnectionSession}

/-- A session in state `Ready` has a channel. -/
theorem secureReady (h : Lived told s) (hstate : s.state = .ready) : s.secure.secureReady = true := by
  rcases h.orderly.phase with hphase | hphase | hphase
  · exact absurd hstate hphase.state.1
  · exact hphase.secureReady
  · exact absurd (hstate.symm.trans hphase.state) (by simp)

theorem openStream_plain (h : Lived told s) (protocol : ProtocolId) :
    Plain (requestOpenStream S protocol s).2 := by
  by_cases hready : s.secure.secureReady = true
  · exact Plain.of_ready
      ((OutMoves.frame (requestOpenStream_out (S := S) protocol s)).secureReady.trans hready)
  · have hrefused : (requestOpenStream S protocol s).2 = s := by
      unfold requestOpenStream
      rw [Op.get_bind]
      split_ifs with hactive hstate
      · rfl
      · rfl
      all_goals
        rw [ne_eq, Decidable.not_not] at hstate
        exact absurd (h.secureReady hstate) hready
    rw [hrefused]
    exact h.plain

theorem acceptInboundStream_plain (h : Plain s) : Plain (acceptInboundStream s).2 := by
  unfold acceptInboundStream
  cases hpending : s.pendingInbound with
  | nil => exact h
  | cons stream rest =>
    intro hready
    obtain ⟨-, hnone, -⟩ := h hready
    rw [hpending] at hnone
    cases hnone

theorem step (h : Lived told s) {a : Action} (ha : a ≠ .nextEvent) : Lived told (step S s a) where
  orderly := by
    by_cases hdirect : ∃ stream, a = .reset (.direct stream)
    · obtain ⟨stream, rfl⟩ := hdirect
      rw [Connection.step, streamReset_direct_voice, Voice.dropSocket_behind]
      exact h.orderly.dropSocket
    · rw [not_exists] at hdirect
      exact ((step_tells s ha hdirect).behind told).invariant (fun _ _ hv htell => hv.tell htell) h.orderly
  plain := by
    cases a with
    | readable answers => exact plain_upheld.readable answers h.plain
    | writable => exact (plain_upheld (S := S)).writable h.plain
    | timeout => exact (plain_upheld (S := S)).timeout h.plain
    | beginOutbound => exact (plain_upheld (S := S)).beginOutbound h.plain
    | beginInbound => exact (plain_upheld (S := S)).beginInbound h.plain
    | openStream protocol => exact h.openStream_plain protocol
    | acceptStream => exact acceptInboundStream_plain h.plain
    | nextEvent => exact absurd rfl ha
    | close => exact (plain_upheld (S := S)).close h.plain
    | answers => exact (step_unheard S s (by exact trivial)).plain h.plain
    | tryRead => exact (step_unheard S s (by exact trivial)).plain h.plain
    | tryWrite => exact (step_unheard S s (by exact trivial)).plain h.plain
    | closeWrite => exact (step_unheard S s (by exact trivial)).plain h.plain
    | reset => exact (step_unheard S s (by exact trivial)).plain h.plain
  armed := h.armed.step a
  upgraded := fun hready => by
    have hgrows := step_grows (S := S) s ha
    obtain ⟨queued, hevents, -, hnew⟩ := hgrows.events
    have hqueue : (Connection.step S s a).eventQueue.map (·.type) = s.eventQueue.map (·.type) ++ queued :=
      hevents
    rw [hqueue, ← List.append_assoc]
    by_cases hsame : (Connection.step S s a).secure.secureReady = s.secure.secureReady
    · exact List.mem_append_left _ (h.upgraded (hsame ▸ hready))
    · exact List.mem_append_right _ (hnew hsame).2

end Lived

/-- What the next event `e` of a session can be; `rest` stays in the queue. -/
structure NextEvent (told : List EventType) (e : ConnectionEvent) (rest : List ConnectionEvent) : Prop where
  live : .closed ∉ told
  secured : e.type = .secured → .secured ∉ told ∧ .multiplexerReady ∉ told
  multiplexerReady : e.type = .multiplexerReady → .multiplexerReady ∉ told
  stream : e.type.IsStream → .multiplexerReady ∈ told
  named : e.type = .error ∨ e.type = .closed → e.streamId ≠ none → .multiplexerReady ∈ told
  last : e.type = .closed → rest = []

/-- Taking the next event. -/
theorem Lived.take {told : List EventType} {s : BasicConnectionSession} (h : Lived told s)
    {e : ConnectionEvent} {rest : List ConnectionEvent} (hqueue : s.eventQueue = e :: rest) :
    Lived (told ++ [e.type]) { s with eventQueue := rest } ∧ NextEvent told e rest := by
  have hvoice : ({ s with eventQueue := rest } : BasicConnectionSession).voice.behind (told ++ [e.type]) =
      s.voice.behind told := by
    simp [voice, Voice.behind, hqueue]
  obtain ⟨whole, hwhole, ⟨more, hmore⟩⟩ := h.orderly.inOrder
  have hword : whole = told ++ e.type :: (rest.map (·.type) ++ more) := by
    rw [← hmore]
    simp [voice, Voice.behind, hqueue]
  have hfollows := hwhole.follows
  rw [hword] at hfollows hwhole
  obtain ⟨-, hrest, hbefore⟩ := List.pairwise_append.mp hfollows
  have hbehind := (List.pairwise_cons.mp hrest).1
  have htold : ∀ a ∈ told, Follows a e.type := fun a ha => hbefore a ha _ (by simp)
  have hlater : ∀ f ∈ rest, Follows e.type f.type := fun f hf =>
    hbehind f.type (List.mem_append_left _ (List.mem_map_of_mem hf))
  refine ⟨⟨?_, ?_, h.armed, ?_⟩, ⟨fun hc => (htold _ hc).1 rfl, fun he => ?_, fun he hm => ?_,
    fun ht => hwhole.stream_behind ht, fun he hid => ?_, fun he => ?_⟩⟩
  · rw [hvoice]
    exact h.orderly
  · intro hready
    obtain ⟨hstream, hpending, hplain⟩ := h.plain hready
    exact ⟨hstream, hpending, fun f hf => hplain f (by rw [hqueue]; exact List.mem_cons_of_mem _ hf)⟩
  · intro hready
    have hup := h.upgraded hready
    rw [hqueue] at hup
    simpa using hup
  · exact ⟨fun hm => (htold _ hm).2.1 he, fun hm => (htold _ hm).2.1 he⟩
  · exact absurd ((htold _ hm).2.2.1 he) (by simp)
  · have hready : s.secure.secureReady = true := by
      by_contra hnot
      rw [Bool.not_eq_true] at hnot
      exact hid ((h.plain hnot).2.2 e (by rw [hqueue]; simp))
    have hup := h.upgraded hready
    rw [hqueue] at hup
    rcases List.mem_append.mp hup with hup | hup
    · exact hup
    -- behind an error or the end there is no `MultiplexerReady`
    · rcases List.mem_cons.mp hup with hup | hup
      · rcases he with he | he <;> cases hup.trans he
      · obtain ⟨f, hf, hft⟩ := List.mem_map.mp hup
        rcases he with he | he
        · have hclosed := (hlater f hf).2.2.2 he
          rw [hft] at hclosed
          cases hclosed
        · exact absurd he (hlater f hf).1
  · cases rest with
    | nil => rfl
    | cons f rest => exact absurd he (hlater f (by simp)).1

end PeerCore.Connection
