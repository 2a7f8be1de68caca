import PeerCore.Connection.Told
import PeerCore.Swarm.Negotiation

/-!
# Inbound streams and the events that announce them

A session queues the handle of an inbound stream in one place and its event in another,
and the swarm takes from both (`connection_session.cpp:447-459`, `swarm.cpp:804-811`).

* `Admits`: what a session does to the two queues. Streams that were made keep their ids.
* `Lockstep`: the queues agree, which every method keeps (`lockstep_step`).
* `inbound_in_step`: they agree in every state of a session that the swarm drains.
-/

namespace PeerCore

open Connection
open BasicConnectionSession
open Yamux (YamuxSession YamuxStream Host Carries)

variable {S : Noise.Sodium}

/-! ## The two queues -/

/-- The ids of the events that announce inbound streams. -/
def announced (s : BasicConnectionSession) : List (Option StreamId) :=
  (s.eventQueue.filter fun e => e.type = .streamAccepted).map (·.streamId)

/-- The handle is of a stream that was made. -/
def Made (s : BasicConnectionSession) : StreamHandle → Prop
  | .yamux stream => ∃ yamux, s.yamuxSession = some yamux ∧ stream < yamux.allocated
  | .direct stream => stream < s.directCount

/-- The ids of the streams that wait are those announced, in order. There are none before
    the channel is ready. -/
structure Lockstep (s : BasicConnectionSession) : Prop where
  inStep : s.pendingInbound.map (fun handle => some (streamId s handle)) = announced s
  made : ∀ handle ∈ s.pendingInbound, Made s handle
  early : s.secure.secureReady = false → s.pendingInbound = []

/-- Streams that were made keep their ids, and a stream is queued with its event. -/
structure Admits (s s' : BasicConnectionSession) : Prop where
  kept : ∀ handle, Made s handle → Made s' handle ∧ streamId s' handle = streamId s handle
  queued : ∃ handles, s'.pendingInbound = s.pendingInbound ++ handles ∧
    announced s' = announced s ++ handles.map (fun handle => some (streamId s' handle)) ∧
    ∀ handle ∈ handles, Made s' handle

theorem announced_push (s : BasicConnectionSession) {type : EventType} (htype : type ≠ .streamAccepted)
    (sid : Option StreamId) (detail : Bytes) : announced (s.pushEvent type sid detail) = announced s := by
  show ((s.eventQueue ++ [_]).filter _).map _ = _
  rw [List.filter_append, List.map_append]
  simp [htype, announced]

theorem announced_accept (s : BasicConnectionSession) (sid : StreamId) (detail : Bytes) :
    announced (s.pushEvent .streamAccepted (some sid) detail) = announced s ++ [some sid] := by
  show ((s.eventQueue ++ [_]).filter _).map _ = _
  rw [List.filter_append, List.map_append]
  simp [announced]

/-! ## Admitting streams -/

/-- Nothing is queued. -/
theorem Admits.of_kept {s s' : BasicConnectionSession}
    (hkept : ∀ handle, Made s handle → Made s' handle ∧ streamId s' handle = streamId s handle)
    (hpending : s'.pendingInbound = s.pendingInbound) (hannounced : announced s' = announced s) :
    Admits s s' :=
  ⟨hkept, [], by rw [hpending, List.append_nil], by rw [hannounced, List.map_nil, List.append_nil], nofun⟩

theorem Admits.refl (s : BasicConnectionSession) : Admits s s :=
  Admits.of_kept (fun _ h => ⟨h, rfl⟩) rfl rfl

theorem Admits.trans {a b c : BasicConnectionSession} (h : Admits a b) (h' : Admits b c) :
    Admits a c := by
  obtain ⟨handles, hpending, hannounced, hmade⟩ := h.queued
  obtain ⟨handles', hpending', hannounced', hmade'⟩ := h'.queued
  refine ⟨fun handle ha => ?_, handles ++ handles', ?_, ?_, ?_⟩
  · have hb := h.kept handle ha
    have hc := h'.kept handle hb.1
    exact ⟨hc.1, hc.2.trans hb.2⟩
  · rw [hpending', hpending, List.append_assoc]
  · have hsame : handles.map (fun handle => some (streamId c handle)) =
        handles.map (fun handle => some (streamId b handle)) :=
      List.map_congr_left fun handle hmem => by rw [(h'.kept handle (hmade handle hmem)).2]
    rw [hannounced', hannounced, List.map_append, hsame, List.append_assoc]
  · intro handle hmem
    rcases List.mem_append.mp hmem with hmem | hmem
    · exact (h'.kept handle (hmade handle hmem)).1
    · exact hmade' handle hmem

/-- The streams are the same. -/
theorem kept_of_same {s s' : BasicConnectionSession} (hyamux : s'.yamuxSession = s.yamuxSession)
    (hcount : s'.directCount = s.directCount)
    (hids : ∀ stream, (s'.directStreams stream).id = (s.directStreams stream).id) (handle : StreamHandle)
    (h : Made s handle) : Made s' handle ∧ streamId s' handle = streamId s handle := by
  cases handle with
  | yamux stream =>
    unfold Made streamId
    rw [hyamux]
    exact ⟨h, rfl⟩
  | direct stream =>
    unfold Made streamId
    rw [hcount]
    exact ⟨h, hids stream⟩

theorem Admits.of_beside {s s' : BasicConnectionSession} (h : Beside s s') : Admits s s' :=
  Admits.of_kept (kept_of_same h.yamuxSession h.directCount h.ids) h.pendingInbound
    (by rw [announced, announced, h.eventQueue])

theorem Admits.push (s : BasicConnectionSession) {type : EventType} (htype : type ≠ .streamAccepted)
    (sid : Option StreamId) (detail : Bytes) : Admits s (s.pushEvent type sid detail) :=
  Admits.of_kept (kept_of_same rfl rfl fun _ => rfl) rfl (announced_push s htype sid detail)

/-! ## Yamux -/

/-- The session with its Yamux session in place. -/
def withYamux (h : Host BasicConnectionSession) : BasicConnectionSession :=
  { h.2 with yamuxSession := some h.1 }

/-- The stream objects keep their ids, and the queues stay. -/
theorem Admits.of_heap {h h' : Host BasicConnectionSession} (hcount : h.1.allocated ≤ h'.1.allocated)
    (hheap : ∀ stream < h.1.allocated, (h'.1.heap stream).id = (h.1.heap stream).id)
    (hdirect : h'.2.directCount = h.2.directCount)
    (hids : ∀ stream, (h'.2.directStreams stream).id = (h.2.directStreams stream).id)
    (hpending : h'.2.pendingInbound = h.2.pendingInbound) (hqueue : announced h'.2 = announced h.2) :
    Admits (withYamux h) (withYamux h') := by
  refine Admits.of_kept (fun handle hmade => ?_) hpending hqueue
  cases handle with
  | yamux stream =>
    obtain ⟨yamux, hyamux, hlt⟩ := hmade
    cases hyamux
    exact ⟨⟨h'.1, rfl, lt_of_lt_of_le hlt hcount⟩, hheap stream hlt⟩
  | direct stream =>
    have hlt : stream < h.2.directCount := hmade
    exact ⟨lt_of_lt_of_eq hlt hdirect.symm, hids stream⟩

theorem yamuxCallbacks_admits :
    Carries (yamuxCallbacks S) fun h h' => Admits (withYamux h) (withYamux h') where
  refl := fun h => Admits.refl _
  trans := fun _ _ _ h h' => h.trans h'
  quiet := fun h s hheap hallocated =>
    Admits.of_heap hallocated.ge (fun stream _ => by rw [hheap]) rfl (fun _ => rfl) rfl rfl
  change := fun h stream f hf => by
    refine Admits.of_heap le_rfl (fun other _ => ?_) rfl (fun _ => rfl) rfl rfl
    show (Function.update h.1.heap stream (f (h.1.heap stream)) other).id = _
    by_cases hsame : other = stream
    · rw [hsame, Function.update_self, hf]
    · rw [Function.update_of_ne hsame]
  create := fun h sid => by
    refine Admits.of_heap (Nat.le_succ _) (fun stream hlt => ?_) rfl (fun _ => rfl) rfl rfl
    show (Function.update h.1.heap h.1.allocated _ stream).id = _
    rw [Function.update_of_ne hlt.ne]
  accept := fun f hf stream h hthere => by
    cases hf
    refine ⟨fun handle hmade => ⟨hmade, rfl⟩, [.yamux stream], rfl, ?_, ?_⟩
    · exact announced_accept { h.2 with pendingInbound := _ } _ _
    · intro handle hmem
      rw [List.mem_singleton.mp hmem]
      exact ⟨h.1, rfl, hthere⟩
  outgoing := fun f hf h => by
    cases hf
    dsimp only
    split_ifs
    · exact Admits.of_heap le_rfl (fun _ _ => rfl) rfl (fun _ => rfl) rfl rfl
    · have hbeside := queueEncryptedMessage_aside (S := S) h.1.sendBuf h.2
      exact Admits.of_heap le_rfl (fun _ _ => rfl) hbeside.directCount hbeside.ids hbeside.pendingInbound
        (by rw [announced, announced, hbeside.eventQueue])
  close := fun f hf sid detail h => by
    cases hf
    exact Admits.of_heap le_rfl (fun _ _ => rfl) rfl (fun _ => rfl) rfl
      (announced_push h.2 (by simp) _ _)

theorem onYamux_admits {α : Type} {x : Op (Host BasicConnectionSession) α}
    (hx : Op.Preserves (fun h h' => Admits (withYamux h) (withYamux h')) x) :
    Op.Preserves Admits (onYamux x) := fun s => by
  unfold onYamux
  cases hyamux : s.yamuxSession with
  | none => exact Admits.refl s
  | some yamux =>
    have hs : Admits (withYamux (yamux, s)) (withYamux (x (yamux, s)).2) := hx (yamux, s)
    have hwith : withYamux (yamux, s) = s := by
      unfold withYamux
      rw [← hyamux]
    rw [hwith] at hs
    exact hs

/-! ## Direct streams -/

/-- A new stream object leaves those before it. -/
theorem createStream_kept (s : BasicConnectionSession) (protocol : Option ProtocolId)
    (inboundEvent : Bool) (handle : StreamHandle) (h : Made s handle) :
    Made (createStream protocol inboundEvent s).2 handle ∧
      streamId (createStream protocol inboundEvent s).2 handle = streamId s handle := by
  cases handle with
  | yamux stream => cases inboundEvent <;> exact ⟨h, rfl⟩
  | direct stream =>
    have hlt : stream < s.directCount := h
    have hid : (Function.update s.directStreams s.directCount
        { id := s.nextStreamId, connectionId := s.id, protocol } stream).id =
        (s.directStreams stream).id := by
      rw [Function.update_of_ne hlt.ne]
    cases inboundEvent with
    | false => exact ⟨Nat.lt_succ_of_lt hlt, hid⟩
    | true => exact ⟨Nat.lt_succ_of_lt hlt, hid⟩

theorem createStream_admits (protocol : Option ProtocolId) (inboundEvent : Bool)
    (s : BasicConnectionSession) : Admits s (createStream protocol inboundEvent s).2 := by
  cases inboundEvent with
  | false =>
    refine Admits.of_kept (createStream_kept s protocol false) rfl ?_
    exact announced_push { s with
      directStreams := _, directCount := _, streamState := _, nextStreamId := _ } (by simp) _ _
  | true =>
    refine ⟨createStream_kept s protocol true, [.direct s.directCount], rfl, ?_, ?_⟩
    · have hid : streamId (createStream protocol true s).2 (.direct s.directCount) = s.nextStreamId := by
        show (Function.update s.directStreams s.directCount _ s.directCount).id = _
        rw [Function.update_self]
      rw [List.map_singleton, hid]
      exact announced_accept { s with
        directStreams := _, directCount := _, streamState := _, nextStreamId := _ } _ _
    · intro handle hmem
      rw [List.mem_singleton.mp hmem]
      exact Nat.lt_succ_self s.directCount

theorem ensureInboundStream_admits (s : BasicConnectionSession) :
    Admits s (ensureInboundStream s).2 := by
  unfold ensureInboundStream
  cases s.streamState with
  | none => exact createStream_admits _ _ _
  | some stream =>
    dsimp only
    split_ifs
    · exact Admits.refl s
    · exact createStream_admits _ _ _

/-! ## The methods -/

theorem deliverPlaintext_admits (plaintext : Bytes) (s : BasicConnectionSession) :
    Admits s (deliverPlaintext S plaintext s).2 := by
  unfold deliverPlaintext
  split_ifs
  · exact onYamux_admits (yamuxCallbacks_admits.receive plaintext) s
  · have hids := setDirect_id (ensureInboundStream s).2 (ensureInboundStream s).1
      (f := fun st => { st with rxBuffer := st.rxBuffer ++ plaintext }) fun _ => rfl
    exact (ensureInboundStream_admits s).trans
      (Admits.of_beside ⟨rfl, rfl, rfl, rfl, rfl, rfl, hids⟩)

theorem completeReadyState_admits (s : BasicConnectionSession) : Admits s (completeReadyState s) := by
  unfold completeReadyState
  extract_lets secure s₁ s₂ s₃ s₄
  have h₁ : Admits s s₁ := Admits.of_kept (kept_of_same rfl rfl fun _ => rfl) rfl rfl
  have h₂ : Admits s s₂ := h₁.trans (Admits.push s₁ (by simp) _ _)
  have h₃ : Admits s s₃ := h₂.trans (Admits.push s₂ (by simp) _ _)
  have h₄ : Admits s s₄ := h₃.trans (Admits.of_kept (kept_of_same rfl rfl fun _ => rfl) rfl rfl)
  split_ifs
  · exact (h₄.trans (createStream_admits none true s₄)).trans
      (Admits.of_kept (kept_of_same rfl rfl fun _ => rfl) rfl rfl)
  · exact h₄

namespace Lockstep

variable {s s' : BasicConnectionSession}

theorem admits (h : Lockstep s) (hadmits : Admits s s')
    (hearly : s'.secure.secureReady = false → s'.pendingInbound = []) : Lockstep s' := by
  obtain ⟨handles, hpending, hannounced, hmade⟩ := hadmits.queued
  refine ⟨?_, ?_, hearly⟩
  · have hsame : s.pendingInbound.map (fun handle => some (streamId s' handle)) =
        s.pendingInbound.map (fun handle => some (streamId s handle)) :=
      List.map_congr_left fun handle hmem => by rw [(hadmits.kept handle (h.made handle hmem)).2]
    rw [hpending, hannounced, List.map_append, hsame, h.inStep]
  · intro handle hmem
    rw [hpending] at hmem
    rcases List.mem_append.mp hmem with hmem | hmem
    · exact (hadmits.kept handle (h.made handle hmem)).1
    · exact hmade handle hmem

/-- Nothing is queued. -/
theorem quiet (h : Lockstep s) (hadmits : Admits s s')
    (hready : s'.secure.secureReady = s.secure.secureReady)
    (hpending : s'.pendingInbound = s.pendingInbound) : Lockstep s' :=
  h.admits hadmits fun hnot => hpending.trans (h.early (hready.symm.trans hnot))

theorem of_ready (h : Lockstep s) (hadmits : Admits s s') (hready : s'.secure.secureReady = true) :
    Lockstep s' :=
  h.admits hadmits fun hnot => by
    rw [hready] at hnot
    cases hnot

end Lockstep

theorem lockstep_upheld : Upheld S Lockstep where
  beside := fun h hbeside => h.quiet (Admits.of_beside hbeside) hbeside.secureReady hbeside.pendingInbound
  tell := fun {s} h type detail htype => by
    have hother : type ≠ .streamAccepted := fun heq => htype (.inr (.inl heq))
    exact h.quiet (Admits.push s hother _ _) rfl rfl
  activate := fun {s} h hready => by
    -- no stream waits yet
    have hnone := h.early hready
    have hannounced : announced s = [] := by rw [← h.inStep, hnone, List.map_nil]
    refine ⟨?_, ?_, fun _ => hnone⟩
    · show s.pendingInbound.map _ = announced s
      rw [hnone, hannounced, List.map_nil]
    · show ∀ handle ∈ s.pendingInbound, _
      rw [hnone]
      exact nofun
  complete := fun {s} h _ => by
    obtain ⟨_, _, hvoice⟩ := completeReadyState_voice s
    exact h.of_ready (completeReadyState_admits s) (congrArg Voice.secureReady hvoice)
  deliver := fun {s} h hready plaintext =>
    h.of_ready (deliverPlaintext_admits plaintext s)
      ((OutMoves.frame (deliverPlaintext_out (S := S) plaintext s)).secureReady.trans hready)

/-- Opening a stream queues its event only. -/
theorem requestOpenStream_admits (protocol : ProtocolId) :
    Op.Preserves Admits (requestOpenStream S protocol) := by
  have hbind : ∀ {α β : Type} {x : Method α} {f : α → Method β}, Op.Preserves Admits x →
      (∀ a, Op.Preserves Admits (f a)) → Op.Preserves Admits (x >>= f) :=
    Op.Preserves.bind fun _ _ _ h h' => h.trans h'
  have hcreate : Op.Preserves Admits (do
      let stream ← Op.update (createStream (some protocol) false)
      pure (StreamHandle.direct stream) : Method StreamHandle) :=
    fun s => createStream_admits (some protocol) false s
  refine hbind Admits.refl fun s => ?_
  split_ifs
  · exact Admits.refl
  · exact Admits.refl
  · refine hbind (onYamux_admits yamuxCallbacks_admits.openStream) fun stream =>
      hbind (onYamux_admits fun h => ?_) fun sid => ?_
    · exact (yamuxCallbacks_admits (S := S)).change h stream _ fun _ => rfl
    · exact hbind (fun s => Admits.push s (by simp) _ _) fun _ => Admits.refl
  · cases s.streamState with
    | none => exact hcreate
    | some stream =>
      dsimp only
      split_ifs
      · exact Admits.refl
      · exact hcreate

theorem requestOpenStream_pending (protocol : ProtocolId) :
    Op.Preserves (fun s s' => s'.pendingInbound = s.pendingInbound) (requestOpenStream S protocol) := by
  have hbind : ∀ {α β : Type} {x : Method α} {f : α → Method β},
      Op.Preserves (fun s s' => s'.pendingInbound = s.pendingInbound) x →
      (∀ a, Op.Preserves (fun s s' => s'.pendingInbound = s.pendingInbound) (f a)) →
      Op.Preserves (fun s s' => s'.pendingInbound = s.pendingInbound) (x >>= f) :=
    Op.Preserves.bind fun _ _ _ h h' => h'.trans h
  have hopen : Op.Preserves (fun s s' : BasicConnectionSession => s'.pendingInbound = s.pendingInbound)
      (onYamux (Yamux.openStream (yamuxCallbacks S))) := fun s =>
    (onYamux_unheard (Yamux.openStream_respects (localCallbacks_unheard S)) s).pendingInbound
  refine hbind (fun _ => rfl) fun s => ?_
  split_ifs
  · exact fun _ => rfl
  · exact fun _ => rfl
  · refine hbind hopen fun stream => hbind (fun s => ?_) fun sid => fun _ => rfl
    unfold onYamux
    cases s.yamuxSession <;> rfl
  · cases s.streamState with
    | none => exact fun _ => rfl
    | some stream =>
      dsimp only
      split_ifs
      · exact fun _ => rfl
      · exact fun _ => rfl

/-- The calls on a handle. -/
theorem onHandle_admits (s : BasicConnectionSession) {a : Action} (ha : a.OnHandle) :
    Admits s (Connection.step S s a) := by
  have hwriting : ∀ {α : Type} {x : Method α}, Writing x → Op.Preserves Admits x := fun hx s => by
    obtain ⟨hsame, hids⟩ := hx s
    refine Admits.of_kept (kept_of_same ?_ ?_ hids) ?_ ?_
    · rw [hsame]
    · rw [hsame]
    · rw [hsame]
    · rw [hsame]
      rfl
  cases a with
  | answers => exact Admits.of_beside ⟨rfl, rfl, rfl, rfl, rfl, rfl, fun _ => rfl⟩
  | tryRead handle size =>
    cases handle with
    | yamux stream => exact onYamux_admits (yamuxCallbacks_admits.tryRead stream size) s
    | direct stream => exact hwriting (directTryRead_writing S stream size) s
  | tryWrite handle data =>
    cases handle with
    | yamux stream => exact onYamux_admits (yamuxCallbacks_admits.tryWrite stream data) s
    | direct stream => exact hwriting (directTryWrite_writing S stream data) s
  | closeWrite handle =>
    cases handle with
    | yamux stream => exact onYamux_admits (yamuxCallbacks_admits.closeWrite stream) s
    | direct stream => exact hwriting (directCloseWrite_writing S stream) s
  | reset handle =>
    cases handle with
    | yamux stream => exact onYamux_admits (yamuxCallbacks_admits.reset stream) s
    | direct stream => exact hwriting (directReset_writing S stream) s
  | readable => cases ha
  | writable => cases ha
  | timeout => cases ha
  | beginOutbound => cases ha
  | beginInbound => cases ha
  | openStream => cases ha
  | acceptStream => cases ha
  | nextEvent => cases ha
  | close => cases ha

/-- Every action but the two of the consumer. -/
theorem lockstep_step {s : BasicConnectionSession} (h : Lockstep s) {a : Action}
    (haccept : a ≠ .acceptStream) (hnext : a ≠ .nextEvent) : Lockstep (Connection.step S s a) := by
  have honHandle : a.OnHandle → Lockstep (Connection.step S s a) := fun ha => by
    have hunheard := step_unheard S s ha
    exact h.quiet (onHandle_admits s ha) hunheard.secureReady hunheard.pendingInbound
  cases a with
  | readable answers => exact lockstep_upheld.readable answers h
  | writable => exact (lockstep_upheld (S := S)).writable h
  | timeout => exact (lockstep_upheld (S := S)).timeout h
  | beginOutbound => exact (lockstep_upheld (S := S)).beginOutbound h
  | beginInbound => exact (lockstep_upheld (S := S)).beginInbound h
  | openStream protocol =>
    exact h.quiet (requestOpenStream_admits protocol s)
      (OutMoves.frame (requestOpenStream_out (S := S) protocol s)).secureReady
      (requestOpenStream_pending protocol s)
  | acceptStream => exact absurd rfl haccept
  | nextEvent => exact absurd rfl hnext
  | close => exact (lockstep_upheld (S := S)).close h
  | answers => exact honHandle trivial
  | tryRead => exact honHandle trivial
  | tryWrite => exact honHandle trivial
  | closeWrite => exact honHandle trivial
  | reset => exact honHandle trivial

/-! ## The consumer -/

/-- One turn of the drain of `handle_connection_event` (`swarm.cpp:743`,
    `swarm.cpp:804-811`): an event, and the stream that it announces. -/
def drain (s : BasicConnectionSession) : BasicConnectionSession :=
  match Connection.nextEvent s with
  | (none, s) => s
  | (some ev, s) =>
    if ev.type = .streamAccepted ∧ ev.streamId.isSome then (acceptInboundStream s).2 else s

/-- The states of a session that only the swarm drains. -/
inductive Drained (S : Noise.Sodium) (s : BasicConnectionSession) : BasicConnectionSession → Prop
  | refl : Drained S s s
  | step {t : BasicConnectionSession} (h : Drained S s t) (a : Action) (haccept : a ≠ .acceptStream)
    (hnext : a ≠ .nextEvent) : Drained S s (Connection.step S t a)
  | drain {t : BasicConnectionSession} (h : Drained S s t) : Drained S s (drain t)

/-- The stream that the next event announces is the one that is accepted. -/
theorem Lockstep.front {s : BasicConnectionSession} (h : Lockstep s) {ev : ConnectionEvent}
    {rest : List ConnectionEvent} (hqueue : s.eventQueue = ev :: rest)
    (htype : ev.type = .streamAccepted) :
    ∃ handle handles, s.pendingInbound = handle :: handles ∧ ev.streamId = some (streamId s handle) ∧
      handles.map (fun handle => some (streamId s handle)) = announced { s with eventQueue := rest } := by
  have hinStep := h.inStep
  rw [announced, hqueue, List.filter_cons_of_pos (by simp [htype]), List.map_cons] at hinStep
  cases hpending : s.pendingInbound with
  | nil =>
    rw [hpending] at hinStep
    cases hinStep
  | cons handle handles =>
    rw [hpending, List.map_cons, List.cons.injEq] at hinStep
    exact ⟨handle, handles, rfl, hinStep.1.symm, hinStep.2⟩

theorem Lockstep.drain {s : BasicConnectionSession} (h : Lockstep s) : Lockstep (drain s) := by
  unfold PeerCore.drain Connection.nextEvent
  cases hqueue : s.eventQueue with
  | nil => exact h
  | cons ev rest =>
    dsimp only
    by_cases htype : ev.type = .streamAccepted
    · obtain ⟨handle, handles, hpending, hid, hrest⟩ := h.front hqueue htype
      have hsome : ev.streamId.isSome = true := by rw [hid, Option.isSome_some]
      rw [if_pos ⟨htype, hsome⟩, acceptInboundStream]
      simp only [hpending]
      refine ⟨hrest, fun other hmem => h.made other ?_, fun hready => ?_⟩
      · rw [hpending]
        exact List.mem_cons_of_mem _ hmem
      · have hnone := h.early hready
        rw [hpending] at hnone
        cases hnone
    · rw [if_neg fun hboth => htype hboth.1]
      refine ⟨?_, h.made, h.early⟩
      have hsame : announced { s with eventQueue := rest } = announced s := by
        rw [announced, announced, hqueue, List.filter_cons_of_neg (by simp [htype])]
      rw [hsame]
      exact h.inStep

theorem make_lockstep (id : ConnectionId) (fd : ℤ) (remoteAddr : Multiaddr) (isInitiator : Bool)
    (identity : Option Identity) (streamMuxers : List ProtocolId) (random : ℕ → Noise.Entropy) :
    Lockstep (BasicConnectionSession.make id fd remoteAddr isInitiator identity streamMuxers random) :=
  ⟨rfl, nofun, fun _ => rfl⟩

/-- In every state of a session that only the swarm drains, the streams that wait are
    those of the `StreamAccepted` events in the queue, in the same order; and the handle
    that is accepted for the next such event has the id of the event. -/
theorem inbound_in_step (id : ConnectionId) (fd : ℤ) (remoteAddr : Multiaddr) (isInitiator : Bool)
    (identity : Option Identity) (streamMuxers : List ProtocolId) (random : ℕ → Noise.Entropy)
    {t : BasicConnectionSession}
    (h : Drained S (BasicConnectionSession.make id fd remoteAddr isInitiator identity streamMuxers random)
      t) :
    t.pendingInbound.map (fun handle => some (streamId t handle)) =
        (t.eventQueue.filter fun e => e.type = .streamAccepted).map (·.streamId) ∧
      ∀ ev, (Connection.nextEvent t).1 = some ev → ev.type = .streamAccepted →
        ∃ handle, (acceptInboundStream (Connection.nextEvent t).2).1 = some handle ∧
          ev.streamId = some (streamId (drain t) handle) := by
  have hlockstep : Lockstep t := by
    induction h with
    | refl => exact make_lockstep id fd remoteAddr isInitiator identity streamMuxers random
    | step _ a haccept hnext ih => exact lockstep_step ih haccept hnext
    | drain _ ih => exact ih.drain
  refine ⟨hlockstep.inStep, fun ev hev htype => ?_⟩
  cases hqueue : t.eventQueue with
  | nil =>
    rw [Connection.nextEvent, hqueue] at hev
    cases hev
  | cons front rest =>
    rw [Connection.nextEvent, hqueue] at hev
    cases hev
    obtain ⟨handle, handles, hpending, hid, -⟩ := hlockstep.front hqueue htype
    have hsome : ev.streamId.isSome = true := by rw [hid, Option.isSome_some]
    have hdrain : drain t = { t with eventQueue := rest, pendingInbound := handles } := by
      simp [drain, Connection.nextEvent, hqueue, htype, hsome, acceptInboundStream, hpending]
    refine ⟨handle, ?_, ?_⟩
    · simp [Connection.nextEvent, hqueue, acceptInboundStream, hpending]
    · rw [hdrain]
      exact hid

theorem toyServed_drained : Drained Noise.Sodium.toy (toyInbound []) toyServed := by
  unfold toyServed
  extract_lets i₁ r₁ i₂ r₂
  have hbegin : Drained Noise.Sodium.toy (toyInbound [])
      (Connection.step Noise.Sodium.toy (toyInbound []) .beginInbound) := .step .refl _ nofun nofun
  have h₁ : Drained Noise.Sodium.toy (toyInbound []) r₁ := .step hbegin (.readable _) nofun nofun
  have h₂ : Drained Noise.Sodium.toy (toyInbound []) r₂ := .step h₁ (.readable _) nofun nofun
  exact .step h₂ (.readable _) nofun nofun

theorem inbound_in_step_toy :
    toyServed.pendingInbound = [.direct 0] ∧
      toyServed.pendingInbound.map (fun handle => some (streamId toyServed handle)) =
        (toyServed.eventQueue.filter fun e => e.type = .streamAccepted).map (·.streamId) ∧
      ∀ ev, (Connection.nextEvent toyServed).1 = some ev → ev.type = .streamAccepted →
        ∃ handle, (acceptInboundStream (Connection.nextEvent toyServed).2).1 = some handle ∧
          ev.streamId = some (streamId (drain toyServed) handle) :=
  ⟨by decide +kernel, inbound_in_step 2 4 ⟨[]⟩ false (some toyIdentity) [] _ toyServed_drained⟩

end PeerCore
