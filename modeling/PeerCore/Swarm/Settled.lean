import PeerCore.Lib.Runs
import PeerCore.Swarm.Functions
import PeerCore.Swarm.Tables

/-!
# Drained connections

`Settled`: no connection has a `Secured` or `MultiplexerReady` event waiting. Only
reading sockets ends an upgrade, and `poll_once` drains all connections afterwards, so
it holds between any two functions (`Settled.turns`, `drainConnectionEvents_settled`).
-/

namespace PeerCore

open Connection (BasicConnectionSession ConnectionEvent)

/-- No connection has its `Secured` or `MultiplexerReady` event waiting. -/
def Settled (w : World) : Prop :=
  ∀ id ∈ w.swarm.connections, ∀ s, w.swarm.sessions id = some s →
    .secured ∉ s.voice.events ∧ .multiplexerReady ∉ s.voice.events

section Turns

variable {S : Noise.Sodium} {w w' : World}

/-- No event of the end of the upgrade is new. -/
def Calmer (s s' : BasicConnectionSession) : Prop :=
  ∀ type ∈ s'.voice.events, type ∈ s.voice.events ∨ type ≠ .secured ∧ type ≠ .multiplexerReady

theorem Calmer.of_events {s s' : BasicConnectionSession} (h : s'.voice.events = s.voice.events) :
    Calmer s s' := by
  intro type htype
  rw [h] at htype
  exact .inl htype

theorem Calmer.step {s : BasicConnectionSession} {a : Connection.Action} (ha : a ≠ .nextEvent)
    (hlocal : a.Local) : Calmer s (Connection.step S s a) := by
  obtain ⟨queued, hevents, hsame, -⟩ := (Connection.step_grows (S := S) s ha).events
  intro type htype
  rw [hevents] at htype
  rcases List.mem_append.mp htype with htype | htype
  · exact .inl htype
  · refine .inr ⟨?_, ?_⟩
    · rintro rfl
      exact (hsame (Connection.step_secureReady s hlocal)).1 htype
    · rintro rfl
      exact (hsame (Connection.step_secureReady s hlocal)).2 htype

theorem Calmer.take {s : BasicConnectionSession} {e : ConnectionEvent} {rest : List ConnectionEvent}
    (hqueue : s.eventQueue = e :: rest) : Calmer s { s with eventQueue := rest } := by
  intro type htype
  refine .inl ?_
  show type ∈ s.eventQueue.map (·.type)
  rw [hqueue]
  exact List.mem_cons_of_mem _ htype

/-- Every session is new, or calmer than before. -/
theorem Settled.of_calmer (h : Settled w)
    (hcalmer : ∀ id ∈ w'.swarm.connections, ∀ s', w'.swarm.sessions id = some s' →
      s'.voice.events = [] ∨
        id ∈ w.swarm.connections ∧ ∃ s, w.swarm.sessions id = some s ∧ Calmer s s') :
    Settled w' := by
  intro id hid s' hs'
  rcases hcalmer id hid s' hs' with hnew | ⟨hold, s, hs, hcalm⟩
  · rw [hnew]
    exact ⟨by simp, by simp⟩
  · have hsettled := h id hold s hs
    refine ⟨fun hmem => ?_, fun hmem => ?_⟩
    · exact (hcalm _ hmem).elim hsettled.1 fun hne => hne.1 rfl
    · exact (hcalm _ hmem).elim hsettled.2 fun hne => hne.2 rfl

theorem Settled.of_same (h : Settled w) (hconnections : w'.swarm.connections = w.swarm.connections)
    (hsessions : w'.swarm.sessions = w.swarm.sessions) : Settled w' := by
  unfold Settled
  rw [hconnections, hsessions]
  exact h

/-- One session changes. -/
theorem Settled.setSession (h : Settled w) {id : ConnectionId} {s s' : BasicConnectionSession}
    (hs : w.swarm.sessions id = some s) (hcalm : Calmer s s') : Settled (w.setSession id s') := by
  refine h.of_calmer fun id' hid' t ht => .inr ⟨hid', ?_⟩
  by_cases hid : id' = id
  · subst hid
    rw [World.setSession_self] at ht
    obtain rfl := Option.some.inj ht
    exact ⟨s, hs, hcalm⟩
  · rw [World.setSession_of_ne _ _ hid] at ht
    exact ⟨t, ht, Calmer.of_events rfl⟩

theorem Quiet.calmer (h : Quiet S w w') {id : ConnectionId} {s' : BasicConnectionSession}
    (hs' : w'.swarm.sessions id = some s') :
    ∃ s, w.swarm.sessions id = some s ∧ Connection.Unheard s s' := by
  have hrel := h.sessions id
  rw [hs'] at hrel
  cases hs : w.swarm.sessions id with
  | none =>
    rw [hs] at hrel
    cases hrel
  | some s =>
    rw [hs] at hrel
    cases hrel with
    | some hplays => exact ⟨s, rfl, hplays.unheard⟩

theorem Connection.Unheard.events {s s' : BasicConnectionSession} (h : Connection.Unheard s s') :
    s'.voice.events = s.voice.events := by
  show s'.eventQueue.map _ = s.eventQueue.map _
  rw [h.eventQueue]

theorem acceptStream_settled (h : Settled w) (id : ConnectionId) : Settled (acceptStream id w) := by
  have hcalm : ∀ s : BasicConnectionSession, Calmer s (Connection.acceptInboundStream s).2 := fun s =>
    Calmer.of_events (congrArg Connection.Voice.events (Connection.acceptInboundStream_voice s))
  rcases acceptStream_cases id w with hw | ⟨s, -, hs, hw⟩ | ⟨s, neg, -, hs, -, -, hw⟩
  · rw [hw]
    exact h
  · rw [hw]
    exact h.setSession hs (hcalm s)
  · rw [hw]
    exact (h.setSession hs (hcalm s)).of_same rfl rfl

theorem removeConnection_settled (h : Settled w) (id : ConnectionId) :
    Settled (removeConnection id w) := by
  refine h.of_calmer fun id' hid' s' hs' => .inr ?_
  obtain ⟨hmem, hne⟩ := mem_removeConnection.mp hid'
  rw [removeConnection_sessions, Function.update_of_ne hne] at hs'
  exact ⟨hmem, s', hs', Calmer.of_events rfl⟩

theorem Settled.turn {a b : Scene} (h : Settled a.world) (hturn : Turn S false a b) :
    Settled b.world := by
  cases hturn with
  | quiet w' hquiet =>
    refine h.of_calmer fun id hid s' hs' => .inr ⟨by rwa [hquiet.connections] at hid, ?_⟩
    obtain ⟨s, hs, hunheard⟩ := hquiet.calmer hs'
    exact ⟨s, hs, Calmer.of_events hunheard.events⟩
  | aside w' haside => exact h.of_same (by rw [haside.swarm]) (by rw [haside.swarm])
  | act id s action hs ha hlocal =>
    exact h.setSession hs (Calmer.step ha (hlocal.resolve_left (by simp)))
  | connect socket isInitiator =>
    refine h.of_calmer fun id hid s' hs' => ?_
    rw [connect_sessions] at hs'
    by_cases hnew : id = a.world.swarm.nextConnId
    · subst hnew
      rw [Function.update_self] at hs'
      obtain rfl := Option.some.inj hs'
      exact .inl rfl
    · rw [Function.update_of_ne hnew] at hs'
      exact .inr ⟨(mem_connect.mp hid).resolve_left hnew, s', hs', Calmer.of_events rfl⟩
  | outside => exact h
  | report => exact h
  | secured id s e rest peer notes hdue hid hs hqueue =>
    exact (h.setSession hs (Calmer.take hqueue)).of_same rfl rfl
  | anonymous id s e rest hid hs hqueue => exact h.setSession hs (Calmer.take hqueue)
  | established id s e rest hdue hid hs hqueue => exact h.setSession hs (Calmer.take hqueue)
  | forward id s e rest type hdue hid hs hqueue => exact h.setSession hs (Calmer.take hqueue)
  | accept id => exact acceptStream_settled h id
  | pend => exact h.of_same rfl rfl
  | polled => exact h
  | record => exact h.of_same rfl rfl
  | dequeue => exact h.of_same rfl rfl
  | log => exact h.of_same rfl rfl
  | erase => exact h.of_same rfl rfl
  | remove id => exact removeConnection_settled h id

theorem Settled.turns {a b : Scene} (h : Settled a.world) (hturns : Turns S false a b) :
    Settled b.world :=
  hturns.invariant (P := fun sc => Settled sc.world) (fun _ _ hsc hturn => hsc.turn hturn) h

theorem Settled.does (h : Settled w) (hdoes : Does S false w w') : Settled w' :=
  Settled.turns (a := ⟨w, [], []⟩) h hdoes

/-! ## Draining -/

/-- The loop takes every event of the connection, and none of another. -/
theorem drainLoop_empties (id : ConnectionId) (fuel : ℕ) :
    ∀ (closing : List ConnectionId) (w : World), (w.queue id).length ≤ fuel →
      (drainLoop S id fuel closing w).2.queue id = [] ∧
      (drainLoop S id fuel closing w).2.swarm.connections = w.swarm.connections ∧
      ∀ id', id' ≠ id → (drainLoop S id fuel closing w).2.queue id' = w.queue id' := by
  induction fuel with
  | zero =>
    exact fun closing w hfuel => ⟨List.length_eq_zero_iff.mp (Nat.le_zero.mp hfuel), rfl, fun _ _ => rfl⟩
  | succ fuel ih =>
    intro closing w hfuel
    rw [drainLoop]
    cases hs : w.swarm.sessions id with
    | none =>
      exact ⟨World.queue_none hs, rfl, fun _ _ => rfl⟩
    | some s =>
      have hqueue : w.queue id = s.eventQueue := World.queue_some hs
      unfold Connection.nextEvent
      dsimp only
      cases hevents : s.eventQueue with
      | nil =>
        have hset : Tended w (w.setSession id s) := Tended.setSession hs rfl
        exact ⟨(hset.queue id).trans (hqueue.trans hevents), rfl, fun id' _ => hset.queue id'⟩
      | cons e rest =>
        dsimp only
        have htended := handleConnectionEvent_tended (S := S) id e closing (w.take id s rest)
        have hrest : (w.take id s rest).queue id = rest := World.queue_some (w.take_sessions id s rest)
        have hother : ∀ id', id' ≠ id → (w.take id s rest).queue id' = w.queue id' := fun id' hid =>
          World.queue_congr (w.setSession_of_ne _ hid)
        obtain ⟨hempty, hconnections, hsame⟩ := ih
          (handleConnectionEvent S id e closing (w.take id s rest)).1
          (handleConnectionEvent S id e closing (w.take id s rest)).2 (by
            rw [htended.queue, hrest]
            rw [hqueue, hevents] at hfuel
            exact Nat.le_of_succ_le_succ hfuel)
        exact ⟨hempty, hconnections.trans htended.connections,
          fun id' hid => (hsame id' hid).trans ((htended.queue id').trans (hother id' hid))⟩

theorem drainConnectionEventsFor_empties (id : ConnectionId) (closing : List ConnectionId) (w : World) :
    (id ∈ w.swarm.connections → (drainConnectionEventsFor S id closing w).2.queue id = []) ∧
      (drainConnectionEventsFor S id closing w).2.swarm.connections = w.swarm.connections ∧
      ∀ id', id' ≠ id → (drainConnectionEventsFor S id closing w).2.queue id' = w.queue id' := by
  unfold drainConnectionEventsFor World.findConnection
  split_ifs with hid
  · cases hs : w.swarm.sessions id with
    | none =>
      exact ⟨fun _ => World.queue_none hs, rfl, fun _ _ => rfl⟩
    | some s =>
      have hqueue : w.queue id = s.eventQueue := World.queue_some hs
      have hloop := drainLoop_empties (S := S) id s.eventQueue.length closing w (by rw [hqueue])
      exact ⟨fun _ => hloop.1, hloop.2⟩
  · exact ⟨fun h => absurd h hid, rfl, fun _ _ => rfl⟩

/-- After the drain of some connections nothing waits in them. -/
theorem drainAll_empties (ids : List ConnectionId) :
    ∀ (closing : List ConnectionId) (w : World),
      (ids.foldl (fun p id => drainConnectionEventsFor S id p.1 p.2) (closing, w)).2.swarm.connections =
        w.swarm.connections ∧
      ∀ id ∈ w.swarm.connections, id ∈ ids ∨ w.queue id = [] →
        (ids.foldl (fun p id => drainConnectionEventsFor S id p.1 p.2) (closing, w)).2.queue id = [] := by
  induction ids with
  | nil => exact fun closing w => ⟨rfl, fun id _ h => h.resolve_left (by simp)⟩
  | cons id ids ih =>
    intro closing w
    rw [List.foldl_cons]
    obtain ⟨hempty, hconnections, hsame⟩ := drainConnectionEventsFor_empties (S := S) id closing w
    obtain ⟨hconnections', hall⟩ := ih (drainConnectionEventsFor S id closing w).1
      (drainConnectionEventsFor S id closing w).2
    refine ⟨hconnections'.trans hconnections, fun id' hid' h => ?_⟩
    refine hall id' (by rw [hconnections]; exact hid') ?_
    by_cases heq : id' = id
    · subst heq
      exact .inr (hempty hid')
    · rw [hsame id' heq]
      exact h.imp_left fun hmem => (List.mem_cons.mp hmem).resolve_left heq

theorem removeConnections_queue (ids : List ConnectionId) (w : World) {id : ConnectionId}
    (hid : id ∈ (removeConnections ids w).swarm.connections) :
    id ∈ w.swarm.connections ∧ (removeConnections ids w).queue id = w.queue id := by
  induction ids generalizing w with
  | nil => exact ⟨hid, rfl⟩
  | cons removed ids ih =>
    obtain ⟨hmem, hqueue⟩ := ih (removeConnection removed w) hid
    obtain ⟨hold, hne⟩ := mem_removeConnection.mp hmem
    refine ⟨hold, hqueue.trans (World.queue_congr ?_)⟩
    rw [removeConnection_sessions, Function.update_of_ne hne]

theorem drainConnectionEvents_settled (w : World) : Settled (drainConnectionEvents S w) := by
  intro id hid s hs
  unfold drainConnectionEvents drainAndRemove at hid hs
  dsimp only at hid hs
  have hvisit := w.ask.1.idOrder.2 w.swarm.connections
  obtain ⟨hconnections, hall⟩ := drainAll_empties (S := S)
    (w.ask.1.idOrder.1 w.ask.2.swarm.connections) [] w.ask.2
  obtain ⟨hold, hqueue⟩ := removeConnections_queue _ _ hid
  rw [hconnections] at hold
  have hempty := hall id hold (.inl (hvisit.mem_iff.mpr hold))
  have hevents : s.eventQueue = [] := by
    rw [← hqueue, World.queue_some hs] at hempty
    exact hempty
  have hvoice : s.voice.events = [] := by
    unfold BasicConnectionSession.voice
    rw [hevents]
    rfl
  rw [hvoice]
  exact ⟨by simp, by simp⟩

/-! ## Runs -/

theorem stop_settled (w : World) : Settled (stop w) := by
  intro id hid
  rw [stop_swarm] at hid
  cases hid

theorem make_settled (peerStore : PeerStore) (localIdentity : Option Identity)
    (localStreamMuxers : List ProtocolId) (env : ℕ → Answers) :
    Settled (World.make peerStore localIdentity localStreamMuxers env) := by
  intro id hid
  cases hid

/-- One call: what the functions of the swarm keep, and `stop` where it is called. -/
theorem swarm_step {P : World → Prop}
    (hdoes : ∀ w w', Settled w → P w → Does S false w w' → P w')
    (hread : ∀ w w', P w → Does S true w w' → P w') (w : World) (call : SwarmCall)
    (hstop : call = .stop → P (stop w)) (hP : P w) (hsettled : Settled w) :
    P (swarmStep S w call) ∧ Settled (swarmStep S w call) := by
  by_cases hcallstop : call = .stop
  · subst hcallstop
    exact ⟨hstop rfl, stop_settled w⟩
  by_cases hpoll : call = .pollOnce
  · subst hpoll
    obtain ⟨w₁, hread₁, hrest⟩ := pollOnce_does (S := S) w
    -- the sockets are read, and then the connections are drained
    have hP₁ := hread w w₁ hP hread₁
    have hP₂ := hread _ _ hP₁ (drainConnectionEvents_turns (S := S) w₁)
    have hset₂ := drainConnectionEvents_settled (S := S) w₁
    show P (pollOnce S w) ∧ Settled (pollOnce S w)
    exact ⟨hdoes _ _ hset₂ hP₂ hrest, hset₂.does hrest⟩
  · have hother := swarmStep_does (S := S) w hcallstop hpoll
    exact ⟨hdoes _ _ hsettled hP hother, hsettled.does hother⟩

/-- The states of a run in which `stop` is called only where `C` allows it: what the
    functions of the swarm and such a `stop` keep holds in all of them. -/
theorem swarm_invariant {P : World → Prop} {C : World → SwarmCall → Prop}
    (hdoes : ∀ w w', Settled w → P w → Does S false w w' → P w')
    (hread : ∀ w w', P w → Does S true w w' → P w')
    (hstop : ∀ w, P w → C w .stop → P (stop w)) (w : World) (calls : List SwarmCall)
    (hw : P w) (hsettled : Settled w) (hC : Runs.Steps (swarmStep S) C w calls) :
    Runs.States (swarmStep S) (fun w => P w ∧ Settled w) w calls := by
  refine hC.invariant (I := fun w => P w ∧ Settled w) (fun w call hI hcall => ?_) ⟨hw, hsettled⟩
  refine swarm_step hdoes hread w call (fun heq => ?_) hI.1 hI.2
  subst heq
  exact hstop w hI.1 hcall

end Turns

end PeerCore
