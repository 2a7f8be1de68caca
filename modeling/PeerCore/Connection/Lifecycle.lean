import PeerCore.Connection.Voice

/-!
# The life of a session

Runs that remember the events taken and the stream handles returned, and what holds
of them whatever the peer sends and the owner calls.

* `lifecycle`: the order of the events, what `secure_ready` stands for, and the
  handshake states in which a frame is processed.
* `socket_closed_iff`: the socket is closed in state `Closed` only, and told once, as
  long as no direct stream is reset; `reset_closes_silently` is such a reset.
-/

namespace PeerCore.Connection

open BasicConnectionSession

/-! ## Runs with what they gave out -/

/-- The events taken with `next_event`, and the stream handles that
    `request_open_stream` and `accept_inbound_stream` returned. -/
structure Trace where
  events : List ConnectionEvent := []
  handles : List StreamHandle := []
  deriving DecidableEq

/-- All events ever queued, in order. -/
def Trace.queued (tr : Trace) (s : BasicConnectionSession) : List ConnectionEvent :=
  tr.events ++ s.eventQueue

section Traced

variable (S : Noise.Sodium)

/-- What `a` adds to the trace. -/
def Trace.after (tr : Trace) (s : BasicConnectionSession) : Action → Trace
  | .nextEvent => { tr with events := tr.events ++ (nextEvent s).1.toList }
  | .openStream protocol =>
    match (requestOpenStream S protocol s).1 with
    | .ok handle => { tr with handles := tr.handles ++ [handle] }
    | .error _ => tr
  | .acceptStream => { tr with handles := tr.handles ++ (acceptInboundStream s).1.toList }
  | _ => tr

/-- The runs from `s` whose actions are allowed where they happen, with their traces. -/
inductive Traced (allowed : Trace → BasicConnectionSession → Action → Prop)
    (s : BasicConnectionSession) : Trace → BasicConnectionSession → Prop
  | refl : Traced allowed s {} s
  | step {tr : Trace} {t : BasicConnectionSession} (h : Traced allowed s tr t) (a : Action)
    (ha : allowed tr t a) : Traced allowed s (tr.after S t a) (step S t a)

variable {S}
variable {allowed : Trace → BasicConnectionSession → Action → Prop} {s t : BasicConnectionSession}
  {tr : Trace}

theorem Traced.runs (h : Traced S allowed s tr t) : Runs S (fun _ _ => True) s t := by
  induction h with
  | refl => exact .refl
  | step _ a _ ih => exact .step ih a trivial

/-- `log` was queued before. -/
def Voice.behind (v : Voice) (log : List EventType) : Voice := { v with events := log ++ v.events }

theorem Voice.say_behind (v : Voice) (log events : List EventType) :
    (v.say events).behind log = (v.behind log).say events := by
  simp [Voice.say, Voice.behind]

theorem Voice.dropSocket_behind (v : Voice) (log : List EventType) :
    v.dropSocket.behind log = (v.behind log).dropSocket := by
  unfold Voice.dropSocket Voice.behind
  dsimp only
  split_ifs <;> rfl

theorem Tell.behind {v w : Voice} (h : Tell v w) (log : List EventType) :
    Tell (v.behind log) (w.behind log) := by
  cases h with
  | begin hactive hsecure => exact Tell.begin (v.behind log) hactive hsecure
  | handshake expected hactive hstage hexpected =>
    exact Tell.handshake (v.behind log) expected hactive hstage hexpected
  | exchange hactive hstage hsecure => exact Tell.exchange (v.behind log) hactive hstage hsecure
  | ready handshakeState accepted hactive hsecure haccepted =>
    have hready := Tell.ready (v.behind log) handshakeState accepted hactive hsecure haccepted
    simp only [Voice.say, Voice.behind, Voice.progress, List.append_assoc] at hready ⊢
    exact hready
  | streams events hactive hready hevents =>
    rw [Voice.say_behind]
    exact Tell.streams (v.behind log) events hactive hready hevents
  | close stage handshakeState errors hstate herrors =>
    have hclose := Tell.close (v.behind log) stage handshakeState errors hstate herrors
    have hsame : ((v.progress stage handshakeState).closed errors).behind log =
        ((v.behind log).progress stage handshakeState).closed errors := by
      unfold Voice.closed Voice.dropSocket Voice.say Voice.behind Voice.progress
      dsimp only
      split_ifs <;> simp
    rw [hsame]
    exact hclose

theorem Tells.behind {v w : Voice} (h : Tells v w) (log : List EventType) :
    Tells (v.behind log) (w.behind log) := by
  induction h with
  | refl => exact Tells.refl _
  | tail _ hstep ih => exact ih.trans (hstep.behind log).single

/-- What can be seen of a session, with the events it has queued before. -/
def Trace.voice (tr : Trace) (s : BasicConnectionSession) : Voice :=
  s.voice.behind (tr.events.map (·.type))

theorem Trace.voice_events (tr : Trace) (s : BasicConnectionSession) :
    (tr.voice s).events = (tr.queued s).map (·.type) := by
  simp [Trace.voice, Voice.behind, BasicConnectionSession.voice, Trace.queued]

/-- Taking an event from the queue queues nothing. -/
theorem nextEvent_voice (tr : Trace) (s : BasicConnectionSession) :
    (tr.after S s .nextEvent).voice (step S s .nextEvent) = tr.voice s := by
  unfold Trace.voice Voice.behind Trace.after step Connection.nextEvent voice
  cases hqueue : s.eventQueue with
  | nil => simp [hqueue]
  | cons ev rest => simp

theorem Trace.after_events (tr : Trace) (s : BasicConnectionSession) {a : Action}
    (ha : a ≠ .nextEvent) : (tr.after S s a).events = tr.events := by
  unfold Trace.after
  split
  · exact absurd rfl ha
  · split <;> rfl
  · rfl
  · rfl

/-- A property that every change keeps, and `reset` of a direct stream where it is
    allowed, holds in every state of a run. -/
theorem Traced.voice_invariant {P : Voice → Prop} (h : Traced S allowed s tr t)
    (htell : ∀ v w, P v → Tell v w → P w)
    (hreset : ∀ tr t stream, allowed tr t (.reset (.direct stream)) → P (tr.voice t) →
      P (tr.voice t).dropSocket)
    (hs : P s.voice) : P (tr.voice t) := by
  induction h with
  | refl => exact hs
  | @step tr t _ a ha ih =>
    by_cases hnext : a = .nextEvent
    · subst hnext
      rw [nextEvent_voice]
      exact ih
    · have hvoice : (tr.after S t a).voice (Connection.step S t a) =
          (Connection.step S t a).voice.behind (tr.events.map (·.type)) := by
        rw [Trace.voice, Trace.after_events tr t hnext]
      rw [hvoice]
      by_cases hdirect : ∃ stream, a = .reset (.direct stream)
      · obtain ⟨stream, rfl⟩ := hdirect
        rw [Connection.step, streamReset_direct_voice, Voice.dropSocket_behind]
        exact hreset tr t stream ha ih
      · rw [not_exists] at hdirect
        exact ((step_tells t hnext hdirect).behind _).invariant htell ih

end Traced

/-! ## The order of the events -/

/-- `[Secured MultiplexerReady (StreamOpened|StreamAccepted|StreamClosed)*]`. -/
def Opening (word : List EventType) : Prop :=
  word = [] ∨ ∃ streams : List EventType, (∀ t ∈ streams, t.IsStream) ∧
    word = .secured :: .multiplexerReady :: streams

/-- `[Secured MultiplexerReady (…)*] [Error] Closed`. -/
def WholeLife (word : List EventType) : Prop :=
  ∃ opening errors : List EventType, Opening opening ∧ (errors = [] ∨ errors = [.error]) ∧
    word = opening ++ errors ++ [.closed]

theorem Opening.isPrefix {word : List EventType} (h : Opening word) :
    ∃ whole, WholeLife whole ∧ word <+: whole :=
  ⟨word ++ [] ++ [.closed], ⟨word, [], h, .inl rfl, rfl⟩, by simp⟩

/-- Before the channel is ready. -/
structure Voice.Upgrading (v : Voice) : Prop where
  state : v.state ≠ .ready ∧ v.state ≠ .closed
  secureReady : v.secureReady = false
  closedEmitted : v.closedEmitted = false
  events : v.events = []

/-- The upgrade is over and the session serves its streams. -/
structure Voice.Serving (v : Voice) : Prop where
  state : v.state = .ready
  stage : v.stage = .ready
  secureReady : v.secureReady = true
  closedEmitted : v.closedEmitted = false
  events : ∃ streams : List EventType, (∀ t ∈ streams, t.IsStream) ∧
    v.events = .secured :: .multiplexerReady :: streams

/-- The session is closed. -/
structure Voice.Over (v : Voice) : Prop where
  state : v.state = .closed
  closedEmitted : v.closedEmitted = true
  events : WholeLife v.events

/-- The joint invariant of state, stage, handshake state and events. -/
structure Orderly (v : Voice) : Prop where
  phase : v.Upgrading ∨ v.Serving ∨ v.Over
  settled : v.Active → v.stage = .noiseHandshake → v.handshakeState.Awaits

namespace Orderly

variable {v w : Voice}

theorem upgrading (h : Orderly v) (hactive : v.Active) (hsecure : v.secureReady = false) :
    v.Upgrading := by
  rcases h.phase with hphase | hphase | hphase
  · exact hphase
  · rw [hphase.secureReady] at hsecure
    cases hsecure
  · exact absurd hphase.state hactive.2.1

theorem serving (h : Orderly v) (hactive : v.Active)
    (hready : v.secureReady = true ∨ v.state = .ready) : v.Serving := by
  rcases h.phase with hphase | hphase | hphase
  · rcases hready with hready | hready
    · rw [hphase.secureReady] at hready
      cases hready
    · exact absurd hready hphase.state.1
  · exact hphase
  · exact absurd hphase.state hactive.2.1

theorem upgrading_of_stage (h : Orderly v) (hactive : v.Active) (hstage : v.stage ≠ .ready) :
    v.Upgrading := by
  rcases h.phase with hphase | hphase | hphase
  · exact hphase
  · exact absurd hphase.stage hstage
  · exact absurd hphase.state hactive.2.1

theorem opening (h : Orderly v) (hstate : v.state ≠ .closed) :
    Opening v.events ∧ v.closedEmitted = false := by
  rcases h.phase with hphase | hphase | hphase
  · exact ⟨.inl hphase.events, hphase.closedEmitted⟩
  · exact ⟨.inr hphase.events, hphase.closedEmitted⟩
  · exact absurd hphase.state hstate

theorem close (h : Orderly v) (stage : SecurityStage) (handshakeState : HandshakeState)
    {errors : List EventType} (hstate : v.state ≠ .closed) (herrors : errors = [] ∨ errors = [.error]) :
    Orderly ((v.progress stage handshakeState).closed errors) := by
  obtain ⟨hopening, hemitted⟩ := h.opening hstate
  refine ⟨.inr (.inr ⟨rfl, rfl, v.events, errors, hopening, herrors, ?_⟩), fun hactive => ?_⟩
  · unfold Voice.closed Voice.say Voice.dropSocket Voice.progress
    dsimp only
    split_ifs <;> simp_all
  · exact absurd rfl hactive.2.1

theorem tell (h : Orderly v) (htell : Tell v w) : Orderly w := by
  cases htell with
  | begin hactive hsecure =>
    have hphase := h.upgrading hactive hsecure
    exact ⟨.inl ⟨⟨nofun, nofun⟩, hsecure, hphase.closedEmitted, hphase.events⟩, fun _ => nofun⟩
  | handshake expected hactive hstage hexpected =>
    have hphase := h.upgrading_of_stage hactive (by rcases hstage with hs | hs <;> rw [hs] <;> nofun)
    exact ⟨.inl ⟨hphase.state, hphase.secureReady, hphase.closedEmitted, hphase.events⟩,
      fun _ _ => hexpected⟩
  | exchange hactive hstage hsecure =>
    have hphase := h.upgrading hactive hsecure
    exact ⟨.inl ⟨hphase.state, hsecure, hphase.closedEmitted, hphase.events⟩, fun _ => nofun⟩
  | ready handshakeState accepted hactive hsecure haccepted =>
    have hphase := h.upgrading hactive hsecure
    refine ⟨.inr (.inl ⟨rfl, rfl, rfl, hphase.closedEmitted, accepted, haccepted, ?_⟩), fun _ => nofun⟩
    simp [Voice.say, Voice.progress, hphase.events]
  | streams events hactive hready hevents =>
    have hphase := h.serving hactive hready
    obtain ⟨streams, hstreams, hqueue⟩ := hphase.events
    refine ⟨.inr (.inl ⟨hphase.state, hphase.stage, hphase.secureReady, hphase.closedEmitted,
      streams ++ events, fun t ht => ?_, ?_⟩), h.settled⟩
    · exact (List.mem_append.mp ht).elim (hstreams t) (hevents t)
    · simp [Voice.say, hqueue]
  | close stage handshakeState errors hstate herrors => exact h.close _ _ hstate herrors

theorem dropSocket (h : Orderly v) : Orderly v.dropSocket := by
  unfold Voice.dropSocket
  split_ifs
  · exact h
  · refine ⟨?_, fun hactive => absurd hactive.1 (by simp)⟩
    rcases h.phase with hphase | hphase | hphase
    · exact .inl ⟨hphase.state, hphase.secureReady, hphase.closedEmitted, hphase.events⟩
    · exact .inr (.inl ⟨hphase.state, hphase.stage, hphase.secureReady, hphase.closedEmitted,
        hphase.events⟩)
    · exact .inr (.inr ⟨hphase.state, hphase.closedEmitted, hphase.events⟩)

theorem inOrder (h : Orderly v) : ∃ whole, WholeLife whole ∧ v.events <+: whole := by
  by_cases hstate : v.state = .closed
  · rcases h.phase with hphase | hphase | hphase
    · exact absurd hstate hphase.state.2
    · rw [hphase.state] at hstate
      cases hstate
    · exact ⟨v.events, hphase.events, List.prefix_refl _⟩
  · exact (h.opening hstate).1.isPrefix

end Orderly

theorem make_orderly (id : ConnectionId) (fd : ℤ) (remoteAddr : Multiaddr) (isInitiator : Bool)
    (identity : Option Identity) (streamMuxers : List ProtocolId) (random : ℕ → Noise.Entropy) :
    Orderly (make id fd remoteAddr isInitiator identity streamMuxers random).voice :=
  ⟨.inl ⟨⟨nofun, nofun⟩, rfl, rfl, rfl⟩, fun _ => nofun⟩

theorem Traced.orderly {S : Noise.Sodium} {s t : BasicConnectionSession} {tr : Trace}
    {allowed : Trace → BasicConnectionSession → Action → Prop} (h : Traced S allowed s tr t)
    (hs : Orderly s.voice) : Orderly (tr.voice t) :=
  h.voice_invariant (fun _ _ hv htell => hv.tell htell) (fun _ _ _ _ hv => hv.dropSocket) hs

/-! ## The transport keys -/

/-- The keys are there as soon as the handshake is over. -/
structure Armed (c : Core) : Prop where
  secureReady : c.secure.secureReady = true → c.secure.stage = .ready ∧ c.secure.noise.Split
  split : c.Active → c.secure.stage = .muxerNegotiation ∨ c.secure.stage = .ready ∨
    c.secure.stage = .noiseHandshake ∧ c.secure.handshakeState = .complete → c.secure.noise.Split

namespace Armed

variable {S : Noise.Sodium} {c c' : Core}

/-- A change that keeps the progress of the upgrade and the keys. -/
theorem of_same (h : Armed c) (hactive : c'.Active → c.Active)
    (hstage : c'.secure.stage = c.secure.stage)
    (hhandshake : c'.secure.handshakeState = c.secure.handshakeState)
    (hready : c'.secure.secureReady = c.secure.secureReady)
    (hsplit : c.secure.noise.Split → c'.secure.noise.Split) : Armed c' where
  secureReady := fun hr => by
    rw [hready] at hr
    rw [hstage]
    exact ⟨(h.secureReady hr).1, hsplit (h.secureReady hr).2⟩
  split := fun ha hs => by
    rw [hstage, hhandshake] at hs
    exact hsplit (h.split (hactive ha) hs)

/-- Before the handshake is over. -/
theorem upgrade (hready : c'.secure.secureReady = false)
    (hstage : c'.secure.stage = .negotiatingProtocol ∨
      c'.secure.stage = .noiseHandshake ∧ c'.secure.handshakeState ≠ .complete) : Armed c' where
  secureReady := fun hr => by
    rw [hready] at hr
    cases hr
  split := fun _ hs => by
    rcases hstage with hstage | ⟨hstage, hcomplete⟩ <;> rw [hstage] at hs
    · rcases hs with hs | hs | ⟨hs, -⟩ <;> cases hs
    · rcases hs with hs | hs | ⟨-, hs⟩
      · cases hs
      · cases hs
      · exact absurd hs hcomplete

/-- A session that is closed before the channel is ready. -/
theorem ended (hready : c'.secure.secureReady = false) (hclosed : c'.state = .closed) : Armed c' where
  secureReady := fun hr => by
    rw [hready] at hr
    cases hr
  split := fun hactive => absurd hclosed hactive.2.1

theorem past (hready : c'.secure.secureReady = true → c'.secure.stage = .ready)
    (hsplit : c'.secure.noise.Split) : Armed c' where
  secureReady := fun hr => ⟨hready hr, hsplit⟩
  split := fun _ _ => hsplit

theorem shut (h : Armed c) : Armed c.shut where
  secureReady := h.secureReady
  split := fun hactive => absurd rfl hactive.2.1

theorem notReady (h : Armed c) (hstage : c.secure.stage ≠ .ready) : c.secure.secureReady = false :=
  Bool.eq_false_iff.mpr fun hr => hstage (h.secureReady hr).1

theorem out (h : Armed c) (hout : OutMoves S c c') : Armed c' := by
  induction hout with
  | refl => exact h
  | @tail b d hbefore hmove ih =>
    have hframe := hmove.frame
    have hactive : d.Active → b.Active := fun hd => by
      unfold Core.Active at hd ⊢
      rw [hframe.socketOpen, hframe.state] at hd
      exact hd
    refine ih.of_same hactive hframe.stage hframe.handshakeState hframe.secureReady ?_
    cases hmove with
    | answers | accept | shutdown => exact id
    | sealFramed _ _ _ _ _ hseal =>
      obtain ⟨hkey, -, -, rfl⟩ := sealMessage_ok hseal
      exact fun hsplit => ⟨hsplit.handshakeComplete, hkey, hsplit.recvKey⟩
    | sealLost _ _ _ _ _ hseal =>
      obtain ⟨hkey, -, -, rfl⟩ := sealMessage_ok hseal
      exact fun hsplit => ⟨hsplit.handshakeComplete, hkey, hsplit.recvKey⟩

theorem sealMessage (h : Armed c) {data ciphertext : Bytes} {io : SessionIoState}
    {secure : SecureChannelState} (hopen : io.socketOpen = c.io.socketOpen)
    (hseal : Connection.sealMessage S data c.secure = (.ok ciphertext, secure)) :
    Armed { c with secure, io } := by
  obtain ⟨hkey, -, -, rfl⟩ := sealMessage_ok hseal
  refine h.of_same (fun hactive => ?_) rfl rfl rfl
    fun hsplit => ⟨hsplit.handshakeComplete, hkey, hsplit.recvKey⟩
  unfold Core.Active at hactive ⊢
  rw [← hopen]
  exact hactive

theorem openMessage (h : Armed c) {frame plaintext wireRx buffer : Bytes}
    {secure : SecureChannelState}
    (hopen : Connection.openMessage S frame c.secure = (.ok plaintext, secure)) :
    Armed { c.setRx wireRx with secure, muxerNegotiationBuffer := buffer } := by
  obtain ⟨hkey, -, -, rfl⟩ := openMessage_ok hopen
  exact h.of_same id rfl rfl rfl
    fun hsplit => ⟨hsplit.handshakeComplete, hsplit.sendKey, hkey⟩

theorem finish (h : Armed c) (hfinish : c.Finishing) : c.secure.noise.Split :=
  h.split hfinish.active (.inr (.inr ⟨hfinish.stage, hfinish.handshakeState⟩))

theorem exchanged (h : Armed c) (hexchange : c.Exchanging) (muxer : Option ProtocolId) (span : ℕ) :
    Armed ((c.adopt muxer).dropExchange span).complete := by
  have hsplit := h.split hexchange.active (.inl hexchange.stage)
  cases muxer <;> exact past (fun _ => rfl) hsplit

theorem begin (hbegin : Begin c c') : Armed c' := by
  cases hbegin with
  | outbound proposal hactive hsecure => exact upgrade hsecure (.inl rfl)
  | inbound hactive hsecure => exact upgrade hsecure (.inl rfl)

theorem move (h : Armed c) (hmove : Move S c c') : Armed c' := by
  cases hmove with
  | out hout => exact h.out hout.single
  | socket | recv => exact h.of_same id rfl rfl rfl id
  | closeSocket =>
    refine h.of_same (fun hactive => ?_) rfl rfl rfl id
    refine ⟨?_, hactive.2⟩
    have hopen := hactive.1
    unfold Connection.closeSocket at hopen
    split_ifs at hopen
    exact hopen
  | close => exact h.shut
  | startNoise _ _ _ _ hstage =>
    exact upgrade (h.notReady (by rw [hstage]; nofun)) (.inr ⟨rfl, nofun⟩)
  | acceptNoise _ _ _ _ hstage _ _ _ _ hout =>
    have hready : c.secure.secureReady = false := h.notReady (by rw [hstage]; nofun)
    exact upgrade (hout.frame.secureReady.trans hready) (.inr ⟨rfl, nofun⟩)
  | acceptNoiseFail _ _ _ hstage _ hout =>
    have hready : c.secure.secureReady = false := h.notReady (by rw [hstage]; nofun)
    exact ended (hout.frame.secureReady.trans hready) rfl
  | msg1 _ _ _ _ _ hwait => exact upgrade hwait.secureReady (.inr ⟨hwait.stage, nofun⟩)
  | msg2 _ _ _ _ _ hwait _ hprocess =>
    exact past (fun hr => absurd hr (Bool.eq_false_iff.mp hwait.secureReady))
      (Noise.processMsg2_fresh hprocess).toSplit
  | msg3 _ _ _ hwait _ hprocess =>
    exact past (fun hr => absurd hr (Bool.eq_false_iff.mp hwait.secureReady))
      (Noise.processMsg3_fresh hprocess).toSplit
  | fail _ _ _ hstage _ _ hready =>
    have hsecure : c.secure.secureReady = false :=
      h.notReady (by rcases hstage with hs | hs <;> rw [hs] <;> nofun)
    exact ended (hready.trans hsecure) rfl
  | finishYamux hfinish | finishDirect hfinish => exact past (fun _ => rfl) (h.finish hfinish)
  | finishInbound hfinish =>
    exact past (fun hr => absurd hr (Bool.eq_false_iff.mp hfinish.secureReady)) (h.finish hfinish)
  | finishOutbound _ _ _ _ hfinish _ _ _ _ hseal =>
    have hselected : Armed { c with secure := c.secure.select .muxerNegotiation } :=
      past (fun hr => absurd hr (Bool.eq_false_iff.mp hfinish.secureReady)) (h.finish hfinish)
    exact hselected.sealMessage rfl hseal
  | finishFail _ _ hfinish hsecure =>
    rcases hsecure with rfl | ⟨ciphertext, hseal⟩
    · exact ended hfinish.secureReady rfl
    · obtain ⟨-, -, -, rfl⟩ := sealMessage_ok hseal
      exact ended hfinish.secureReady rfl
  | openMuxer _ _ _ _ _ _ hopen => exact h.openMessage hopen
  | openData _ _ _ _ _ _ _ hopen => exact h.openMessage hopen
  | openFail frame rest _ _ _ _ _ hopen =>
    rw [openMessage_error hopen]
    refine Armed.shut ?_
    exact h.of_same id rfl rfl rfl id
  | muxerOutbound _ _ hexchange => exact h.exchanged hexchange _ _
  | muxerInbound _ _ _ _ framed secure hexchange _ _ _ hseal _ hout =>
    have hsealed : Armed { c with secure, io := c.io.queue framed } := h.sealMessage rfl hseal
    obtain ⟨-, -, -, rfl⟩ := sealMessage_ok hseal
    have hexchange' : Core.Exchanging _ := ⟨hout.frame.active hexchange.active,
      hout.frame.stage.trans hexchange.stage, hout.frame.secureReady.trans hexchange.secureReady⟩
    exact (hsealed.out hout).exchanged hexchange' _ _
  | muxerInboundFail _ _ _ framed secure _ _ hseal hout =>
    have hsealed : Armed { c with secure, io := c.io.queue framed } := h.sealMessage rfl hseal
    exact (hsealed.out hout).shut
  | muxerInboundLost _ _ _ _ _ hseal => exact (h.sealMessage rfl hseal).shut

end Armed

theorem Armed.step {S : Noise.Sodium} {s : BasicConnectionSession} (h : Armed s.core) (a : Action) :
    Armed (Connection.step S s a).core := by
  cases hkind : a.isBegin with
  | false => exact (step_moves s hkind).invariant (fun _ _ hc hmove => hc.move hmove) h
  | true =>
    rcases step_begin (S := S) s hkind with hsame | ⟨c, hbegin, hmoves⟩
    · rw [hsame]
      exact h
    · exact hmoves.invariant (fun _ _ hc hmove => hc.move hmove) (Armed.begin hbegin)

theorem make_armed (id : ConnectionId) (fd : ℤ) (remoteAddr : Multiaddr) (isInitiator : Bool)
    (identity : Option Identity) (streamMuxers : List ProtocolId) (random : ℕ → Noise.Entropy) :
    Armed (make id fd remoteAddr isInitiator identity streamMuxers random).core :=
  Armed.upgrade rfl (.inl rfl)

/-! ## The handshake frames -/

section Frames

variable (S : Noise.Sodium)

/-- The handshake states in which `handshakeLoop` calls `process_handshake_frame`. -/
def loopStates : ℕ → BasicConnectionSession → List HandshakeState
  | 0, _ => []
  | fuel + 1, s =>
    if s.secure.secureReady = false ∧ s.secure.stage = .noiseHandshake then
      match popFrame s with
      | (.ok (some frame), s) =>
        s.secure.handshakeState ::
          match processHandshakeFrame S frame s with
          | (.ok (), s) => loopStates fuel s
          | _ => []
      | _ => []
    else []

/-- The handshake states in which `on_socket_readable` calls `process_handshake_frame`. -/
def frameStates (answers : List RecvAnswer) (s : BasicConnectionSession) : List HandshakeState :=
  if s.isActive = false then []
  else
    match recvLoop answers s with
    | (false, _) => []
    | (true, s) =>
      if s.secure.stage = .negotiatingProtocol then
        match processProtocolNegotiation S s with
        | (.ok (), s) => loopStates S s.io.wireRx.length s
        | (.error _, _) => []
      else loopStates S s.io.wireRx.length s

variable {S}

theorem loopStates_awaits (log : List EventType) (fuel : ℕ) :
    ∀ s : BasicConnectionSession, s.voice.Active → Orderly (s.voice.behind log) →
      ∀ h ∈ loopStates S fuel s, h.Awaits := by
  induction fuel with
  | zero => exact fun _ _ _ => nofun
  | succ fuel ih =>
    intro s hactive horderly h hmem
    rw [loopStates] at hmem
    split_ifs at hmem with hgoing
    · rw [popFrame_apply] at hmem
      rcases hpop : tryPopWireFrame s.io.wireRx with e | _ | ⟨frame, rest⟩ <;>
        simp only [hpop] at hmem
      · cases hmem
      · cases hmem
      · have hawaits : s.secure.handshakeState.Awaits := horderly.settled hactive hgoing.2
        have hspoken := processHandshakeFrame_spoken (S := S) frame
          (s := { s with io := { s.io with wireRx := rest } }) hactive hgoing.2 hgoing.1
        rcases List.mem_cons.mp hmem with rfl | hlater
        · exact hawaits
        · rcases hrun : processHandshakeFrame S frame { s with io := { s.io with wireRx := rest } }
            with ⟨e | _, s'⟩ <;> rw [hrun] at hlater hspoken
          · cases hlater
          · exact ih s' hspoken.2
              ((hspoken.1.behind log).invariant (fun _ _ hv htell => hv.tell htell) horderly) h hlater
    · cases hmem

theorem frameStates_awaits (answers : List RecvAnswer) {s : BasicConnectionSession}
    {log : List EventType} (horderly : Orderly (s.voice.behind log)) :
    ∀ h ∈ frameStates S answers s, h.Awaits := by
  intro h hmem
  unfold frameStates at hmem
  split_ifs at hmem with hactive
  · cases hmem
  · rw [Bool.not_eq_false, isActive_iff_voice] at hactive
    have hrecv := recvLoop_tells answers s hactive
    rcases hloop : recvLoop answers s with ⟨_ | _, s₁⟩ <;> rw [hloop] at hrecv hmem
    · cases hmem
    · have horderly₁ : Orderly (s₁.voice.behind log) :=
        (hrecv.1.behind log).invariant (fun _ _ hv htell => hv.tell htell) horderly
      dsimp only at hmem
      split_ifs at hmem with hstage
      · have hspoken := processProtocolNegotiation_spoken (S := S) s₁ (hrecv.2 rfl) hstage
        rcases hrun : processProtocolNegotiation S s₁ with ⟨e | _, s₂⟩ <;> rw [hrun] at hmem hspoken
        · cases hmem
        · exact loopStates_awaits log _ s₂ hspoken.2
            ((hspoken.1.behind log).invariant (fun _ _ hv htell => hv.tell htell) horderly₁) h hmem
      · exact loopStates_awaits log _ s₁ (hrecv.2 rfl) horderly₁ h hmem

end Frames

/-! ## The guarantees -/

section Guarantees

variable {S : Noise.Sodium}

/-- In every run of a session, with whatever its socket yields and whatever its owner
    calls: the queued events are a prefix of a whole life, the channel is ready only with
    the handshake done and both transport keys set, and a handshake frame is processed
    only where one is awaited. -/
theorem lifecycle (id : ConnectionId) (fd : ℤ) (remoteAddr : Multiaddr) (isInitiator : Bool)
    (identity : Option Identity) (streamMuxers : List ProtocolId) (random : ℕ → Noise.Entropy)
    {tr : Trace} {t : BasicConnectionSession}
    (hrun : Traced S (fun _ _ _ => True)
      (make id fd remoteAddr isInitiator identity streamMuxers random) tr t) :
    (∃ whole, WholeLife whole ∧ (tr.queued t).map (·.type) <+: whole) ∧
      (t.secure.secureReady = true → t.secure.noise.handshakeComplete = true ∧
        t.secure.noise.csSend.hasKey = true ∧ t.secure.noise.csRecv.hasKey = true) ∧
      ∀ answers, ∀ h ∈ frameStates S answers t, h ≠ .idle ∧ h ≠ .complete := by
  have horderly := hrun.orderly
    (make_orderly id fd remoteAddr isInitiator identity streamMuxers random)
  refine ⟨?_, fun hready => ?_, fun answers h hmem => ?_⟩
  · rw [← tr.voice_events t]
    exact horderly.inOrder
  · have harmed : Armed t.core := hrun.runs.invariant (P := fun s => Armed s.core)
      (make_armed id fd remoteAddr isInitiator identity streamMuxers random)
      fun _ a hs _ => hs.step a
    obtain ⟨-, hsplit⟩ := harmed.secureReady hready
    exact ⟨hsplit.handshakeComplete, hsplit.sendKey, hsplit.recvKey⟩
  · rcases frameStates_awaits answers horderly h hmem with rfl | rfl | rfl <;> exact ⟨nofun, nofun⟩

/-! ### The socket -/

/-- `reset` of a direct stream only once the socket is closed. -/
def SparesSocket (_tr : Trace) (t : BasicConnectionSession) (a : Action) : Prop :=
  ∀ stream, a = .reset (.direct stream) → t.io.socketOpen = false

/-- The socket is closed in state `Closed` only, and told once. -/
def ClosedOnce (tr : Trace) (t : BasicConnectionSession) : Prop :=
  t.io.socketOpen = false ↔
    t.state = .closed ∧ ((tr.queued t).map (·.type)).count .closed = 1

/-- The invariant of a session whose direct streams spare the socket. -/
structure Paired (v : Voice) : Prop where
  fd : v.socketOpen = true → 0 ≤ v.fd
  socket : v.socketOpen = false ↔ v.state = .closed
  emitted : v.closedEmitted = true ↔ v.state = .closed
  count : v.events.count .closed = if v.closedEmitted then 1 else 0

theorem count_closed_streams {events : List EventType} (h : ∀ t ∈ events, t.IsStream) :
    events.count .closed = 0 := by
  rw [List.count_eq_zero]
  intro hmem
  rcases h _ hmem with h | h | h <;> cases h

/-- A change that keeps the socket and tells nothing of its end. -/
theorem Paired.of_same {v w : Voice} (h : Paired v) (hopen : w.socketOpen = v.socketOpen)
    (hfd : w.fd = v.fd) (hstate : w.state = .closed ↔ v.state = .closed)
    (hemitted : w.closedEmitted = v.closedEmitted)
    (hcount : w.events.count .closed = v.events.count .closed) : Paired w where
  fd := by rw [hopen, hfd]; exact h.fd
  socket := by rw [hopen, hstate]; exact h.socket
  emitted := by rw [hemitted, hstate]; exact h.emitted
  count := by rw [hcount, hemitted]; exact h.count

theorem Paired.close {v : Voice} (h : Paired v) (stage : SecurityStage)
    (handshakeState : HandshakeState) {errors : List EventType} (hstate : v.state ≠ .closed)
    (herrors : errors = [] ∨ errors = [.error]) :
    Paired ((v.progress stage handshakeState).closed errors) := by
  have hopen : v.socketOpen = true := by
    rw [← Bool.not_eq_false, h.socket]
    exact hstate
  have hemitted : v.closedEmitted = false := by
    rw [← Bool.not_eq_true, h.emitted]
    exact hstate
  have hcount : v.events.count .closed = 0 := by
    rw [h.count, hemitted]
    rfl
  have hfd := h.fd hopen
  have hdrop : ¬ (v.socketOpen = false ∨ v.fd < 0) := by
    rw [hopen]
    rintro (hclosed | hneg)
    · cases hclosed
    · omega
  unfold Voice.closed Voice.dropSocket Voice.progress Voice.say
  dsimp only
  rw [if_neg hdrop, hemitted]
  refine ⟨nofun, ⟨fun _ => rfl, fun _ => rfl⟩, ⟨fun _ => rfl, fun _ => rfl⟩, ?_⟩
  rcases herrors with rfl | rfl <;> simp [hcount]

theorem Paired.tell {v w : Voice} (h : Paired v) (htell : Tell v w) : Paired w := by
  cases htell with
  | begin hactive => exact h.of_same rfl rfl ⟨nofun, fun hs => absurd hs hactive.2.1⟩ rfl rfl
  | handshake | exchange => exact h.of_same rfl rfl Iff.rfl rfl rfl
  | ready handshakeState accepted hactive hsecure haccepted =>
    refine h.of_same rfl rfl ⟨nofun, fun hs => absurd hs hactive.2.1⟩ rfl ?_
    simp [Voice.say, Voice.progress, count_closed_streams haccepted]
  | streams events hactive hready hevents =>
    refine h.of_same rfl rfl Iff.rfl rfl ?_
    simp [Voice.say, count_closed_streams hevents]
  | close stage handshakeState errors hstate herrors => exact h.close _ _ hstate herrors

/-- In every run of a session with a real descriptor in which no direct stream is reset
    while the socket is open: the socket is closed if and only if the state is `Closed`
    and exactly one `Closed` event has been queued. -/
theorem socket_closed_iff (id : ConnectionId) {fd : ℤ} (hfd : 0 ≤ fd) (remoteAddr : Multiaddr)
    (isInitiator : Bool) (identity : Option Identity) (streamMuxers : List ProtocolId)
    (random : ℕ → Noise.Entropy) {tr : Trace} {t : BasicConnectionSession}
    (hrun : Traced S SparesSocket
      (make id fd remoteAddr isInitiator identity streamMuxers random) tr t) : ClosedOnce tr t := by
  have hpaired : Paired (tr.voice t) := by
    refine hrun.voice_invariant (fun _ _ hv htell => hv.tell htell) (fun tr t stream ha hv => ?_) ?_
    · have hopen : (tr.voice t).socketOpen = false := ha stream rfl
      unfold Voice.dropSocket
      rw [if_pos (.inl hopen)]
      exact hv
    · exact ⟨fun _ => hfd, ⟨nofun, nofun⟩, ⟨nofun, nofun⟩, rfl⟩
  unfold ClosedOnce
  rw [← tr.voice_events t]
  refine ⟨fun hopen => ⟨hpaired.socket.mp hopen, ?_⟩, fun hclosed => hpaired.socket.mpr hclosed.1⟩
  rw [hpaired.count, if_pos (hpaired.emitted.mpr (hpaired.socket.mp hopen))]

end Guarantees

/-! ## A direct session of the toy primitives -/

/-- The run of `actions`. -/
def play (S : Noise.Sodium) (actions : List Action) (s : BasicConnectionSession) :
    Trace × BasicConnectionSession :=
  actions.foldl (fun p a => (p.1.after S p.2 a, step S p.2 a)) ({}, s)

theorem play_concat (S : Noise.Sodium) (actions : List Action) (a : Action)
    (s : BasicConnectionSession) : play S (actions ++ [a]) s =
      ((play S actions s).1.after S (play S actions s).2 a, step S (play S actions s).2 a) := by
  unfold play
  rw [List.foldl_append]
  rfl

theorem Traced.play_concat {S : Noise.Sodium}
    {allowed : Trace → BasicConnectionSession → Action → Prop} {actions : List Action} {a : Action}
    {s : BasicConnectionSession} (h : Traced S allowed s (play S actions s).1 (play S actions s).2)
    (ha : allowed (play S actions s).1 (play S actions s).2 a) :
    Traced S allowed s (play S (actions ++ [a]) s).1 (play S (actions ++ [a]) s).2 := by
  rw [Connection.play_concat]
  exact h.step a ha

theorem play_traced {S : Noise.Sodium} {allowed : Trace → BasicConnectionSession → Action → Prop}
    (actions : List Action) (hallowed : ∀ a ∈ actions, ∀ tr t, allowed tr t a)
    (s : BasicConnectionSession) :
    Traced S allowed s (play S actions s).1 (play S actions s).2 := by
  induction actions using List.reverseRecOn with
  | nil => exact .refl
  | append_singleton actions a ih =>
    exact (ih fun b hb => hallowed b (List.mem_append_left _ hb)).play_concat
      (hallowed a (by simp) _ _)

/-- What the initiator does until its session is ready. -/
def toyDial (i r : BasicConnectionSession) : List Action :=
  let i₁ := step Noise.Sodium.toy i .beginOutbound
  let r₁ := toyDeliver i₁ 0 (step Noise.Sodium.toy r .beginInbound)
  let i₂ := toyDeliver r₁ 0 i₁
  let r₂ := toyDeliver i₂ i₁.io.wireTx.length r₁
  [.beginOutbound, .readable [.data (r₁.io.wireTx.drop 0)],
    .readable [.data (r₂.io.wireTx.drop r₁.io.wireTx.length)]]

/-- An outbound session that processes msg2 where it awaits it, becomes ready, gives out its
    first event, and is closed. -/
theorem lifecycle_toy :
    let calls := toyDial (toyOutbound ⟨[]⟩ []) (toyInbound [])
    let waiting := play Noise.Sodium.toy (calls.take 2) (toyOutbound ⟨[]⟩ [])
    let closed := play Noise.Sodium.toy (calls ++ [.nextEvent, .close]) (toyOutbound ⟨[]⟩ [])
    (∃ answers, calls.drop 2 = [.readable answers] ∧
      frameStates Noise.Sodium.toy answers waiting.2 = [.awaitingMsg2] ∧
      ∀ h ∈ frameStates Noise.Sodium.toy answers waiting.2, h ≠ .idle ∧ h ≠ .complete) ∧
    ((closed.1.queued closed.2).map (·.type) = [.secured, .multiplexerReady, .closed] ∧
      ∃ whole, WholeLife whole ∧ (closed.1.queued closed.2).map (·.type) <+: whole) ∧
    closed.2.secure.secureReady = true ∧ closed.2.secure.noise.handshakeComplete = true ∧
      closed.2.secure.noise.csSend.hasKey = true ∧ closed.2.secure.noise.csRecv.hasKey = true := by
  intro calls waiting closed
  have hwaiting : Traced Noise.Sodium.toy (fun _ _ _ => True) (toyOutbound ⟨[]⟩ []) waiting.1 waiting.2 :=
    play_traced _ (fun _ _ _ _ => trivial) _
  have hclosed : Traced Noise.Sodium.toy (fun _ _ _ => True) (toyOutbound ⟨[]⟩ []) closed.1 closed.2 :=
    play_traced _ (fun _ _ _ _ => trivial) _
  obtain ⟨-, -, hawaited⟩ := lifecycle 1 3 ⟨[]⟩ true (some toyIdentity) [] _ hwaiting
  obtain ⟨hwhole, hkeys, -⟩ := lifecycle 1 3 ⟨[]⟩ true (some toyIdentity) [] _ hclosed
  have hready : closed.2.secure.secureReady = true := by decide +kernel
  have hevents : (closed.1.queued closed.2).map (·.type) = [.secured, .multiplexerReady, .closed] := by
    decide +kernel
  refine ⟨⟨_, rfl, ?_, hawaited _⟩, ⟨hevents, hwhole⟩, hready, hkeys hready⟩
  decide +kernel

/-- The same session, closed by its owner. -/
theorem socket_closed_iff_toy :
    let p := play Noise.Sodium.toy
      (toyDial (toyOutbound ⟨[]⟩ []) (toyInbound []) ++ [.close]) (toyOutbound ⟨[]⟩ [])
    p.2.io.socketOpen = false ∧ ClosedOnce p.1 p.2 := by
  intro p
  refine ⟨by decide +kernel, socket_closed_iff 1 (by decide) ⟨[]⟩ true (some toyIdentity) [] _
    (play_traced _ (fun a ha tr t stream hreset => ?_) (toyOutbound ⟨[]⟩ []))⟩
  rw [hreset] at ha
  simp [toyDial] at ha

/-- `reset` of the direct stream of an open session: the socket is closed, and the
    session says nothing. -/
theorem reset_closes_silently :
    ¬ ∀ tr t, Traced Noise.Sodium.toy (fun _ _ _ => True) (toyOutbound ⟨[]⟩ []) tr t →
      ClosedOnce tr t := by
  intro h
  have hreset := h _ _ (play_traced (toyDial (toyOutbound ⟨[]⟩ []) (toyInbound []) ++
    [.openStream (ascii "/echo"), .reset (.direct 0)]) (fun _ _ _ _ => trivial) _)
  revert hreset
  unfold ClosedOnce
  decide +kernel

end PeerCore.Connection
