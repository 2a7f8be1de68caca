import PeerCore.Swarm.Peers

/-!
# The story of a connection

* `World.story w id`: the events of the connection `id` that were ever queued.
  `InOrder` is the order they keep.
* `Tale told story`: the story that belongs to a session that told events of the types
  `told`.
* `Numbered`: the ids of connections are the numbers from 1 on.
* `Witnessed told sc`: every session told `told`, and its story says so.
-/

namespace PeerCore

open Connection (BasicConnectionSession ConnectionEvent EventType Lived NextEvent)

/-! ## Stories -/

/-- The types of a list of events. -/
def types (story : List SwarmEvent) : List SwarmEventType := story.map (·.type)

/-- The order of the events of one connection. -/
structure InOrder (story : List SwarmEvent) : Prop where
  identifiedOnce : (types story).count .peerIdentified ≤ 1
  establishedOnce : (types story).count .connectionEstablished ≤ 1
  closedOnce : (types story).count .connectionClosed ≤ 1
  identifiedFirst : ∀ before e after, story = before ++ e :: after → e.type = .peerIdentified →
    .connectionEstablished ∉ types before
  streamsAfter : ∀ before e after, story = before ++ e :: after → e.streamId ≠ none →
    .connectionEstablished ∈ types before
  closedLast : ∀ before e after, story = before ++ e :: after → e.type = .connectionClosed → after = []

/-- What may come next. -/
structure MayFollow (story : List SwarmEvent) (e : SwarmEvent) : Prop where
  open_ : .connectionClosed ∉ types story
  identified : e.type = .peerIdentified →
    .peerIdentified ∉ types story ∧ .connectionEstablished ∉ types story
  established : e.type = .connectionEstablished → .connectionEstablished ∉ types story
  stream : e.streamId ≠ none → .connectionEstablished ∈ types story

theorem types_append (story more : List SwarmEvent) : types (story ++ more) = types story ++ types more :=
  List.map_append

/-- A list with one more event, cut before an event: that event is the new one or an old one. -/
theorem cut_snoc {story before after : List SwarmEvent} {e f : SwarmEvent}
    (h : story ++ [e] = before ++ f :: after) :
    before = story ∧ f = e ∧ after = [] ∨
      ∃ after', after = after' ++ [e] ∧ story = before ++ f :: after' := by
  rcases List.eq_nil_or_concat after with rfl | ⟨after', last, rfl⟩
  · obtain ⟨hstory, hlast⟩ := List.append_inj' h rfl
    exact .inl ⟨hstory.symm, (List.singleton_inj.mp hlast).symm, rfl⟩
  · rw [List.concat_eq_append, ← List.cons_append, ← List.append_assoc] at h
    obtain ⟨hstory, hlast⟩ := List.append_inj' h rfl
    exact .inr ⟨after', by rw [List.concat_eq_append, List.singleton_inj.mp hlast], hstory⟩

namespace InOrder

variable {story : List SwarmEvent} {e : SwarmEvent}

theorem nil : InOrder [] where
  identifiedOnce := by simp [types]
  establishedOnce := by simp [types]
  closedOnce := by simp [types]
  identifiedFirst := fun before e after h => by simp at h
  streamsAfter := fun before e after h => by simp at h
  closedLast := fun before e after h => by simp at h

/-- One more event of a type that is new, or that may come more than once. -/
theorem count_snoc {type : SwarmEventType} (hcount : (types story).count type ≤ 1)
    (hnew : e.type = type → type ∉ types story) : (types (story ++ [e])).count type ≤ 1 := by
  rw [types_append, List.count_append]
  by_cases htype : e.type = type
  · rw [List.count_eq_zero.mpr (hnew htype)]
    simpa [types] using List.count_le_length (a := type) (l := [e.type])
  · have hnone : (types [e]).count type = 0 := List.count_eq_zero.mpr (by
      simpa [types] using Ne.symm htype)
    rw [hnone]
    exact hcount

theorem snoc (h : InOrder story) (hnext : MayFollow story e) : InOrder (story ++ [e]) where
  identifiedOnce := count_snoc h.identifiedOnce fun htype => (hnext.identified htype).1
  establishedOnce := count_snoc h.establishedOnce hnext.established
  closedOnce := count_snoc h.closedOnce fun _ => hnext.open_
  identifiedFirst := fun before f after hcut htype => by
    rcases cut_snoc hcut with ⟨rfl, rfl, -⟩ | ⟨after', -, hstory⟩
    · exact (hnext.identified htype).2
    · exact h.identifiedFirst before f after' hstory htype
  streamsAfter := fun before f after hcut hstream => by
    rcases cut_snoc hcut with ⟨rfl, rfl, -⟩ | ⟨after', -, hstory⟩
    · exact hnext.stream hstream
    · exact h.streamsAfter before f after' hstory hstream
  closedLast := fun before f after hcut htype => by
    rcases cut_snoc hcut with ⟨-, -, hafter⟩ | ⟨after', -, hstory⟩
    · exact hafter
    -- nothing came behind the end before
    · refine absurd ?_ hnext.open_
      rw [hstory, types_append, ← htype]
      simp [types]

end InOrder

/-! ## What a session told, and its story -/

/-- The story of a session that told events of the types `told`. -/
structure Tale (told : List EventType) (story : List SwarmEvent) : Prop where
  order : InOrder story
  identified : .peerIdentified ∈ types story → .secured ∈ told
  established : .connectionEstablished ∈ types story ↔ .multiplexerReady ∈ told
  closed : .connectionClosed ∈ types story → .closed ∈ told

namespace Tale

variable {told : List EventType} {story : List SwarmEvent} {e : SwarmEvent}

theorem nil : Tale [] [] where
  order := InOrder.nil
  identified := fun h => by cases h
  established := by simp [types]
  closed := fun h => by cases h

/-- An event that is not about the session. -/
theorem aside (h : Tale told story) (hlive : .closed ∉ told)
    (htype : e.type ≠ .peerIdentified ∧ e.type ≠ .connectionEstablished ∧ e.type ≠ .connectionClosed)
    (hstream : e.streamId ≠ none → .multiplexerReady ∈ told) : Tale told (story ++ [e]) where
  order := h.order.snoc {
    open_ := fun hmem => hlive (h.closed hmem)
    identified := fun h => absurd h htype.1
    established := fun h => absurd h htype.2.1
    stream := fun hne => h.established.mpr (hstream hne) }
  identified := fun hmem => h.identified (by simpa [types, htype.1.symm] using hmem)
  established := by
    rw [← h.established]
    simp [types, htype.2.1.symm]
  closed := fun hmem => h.closed (by simpa [types, htype.2.2.symm] using hmem)

theorem notes (h : Tale told story) (hlive : .closed ∉ told) {notes : List SwarmEvent}
    (hnotes : ∀ note ∈ notes, note.type = .protocolNegotiated ∧ note.streamId = none) :
    Tale told (story ++ notes) := by
  induction notes generalizing story with
  | nil =>
    rw [List.append_nil]
    exact h
  | cons note notes ih =>
    obtain ⟨htype, hstream⟩ := hnotes note (by simp)
    have hfirst : Tale told (story ++ [note]) :=
      h.aside hlive ⟨by simp [htype], by simp [htype], by simp [htype]⟩ fun hne => absurd hstream hne
    rw [List.append_cons]
    exact ih hfirst fun note' hmem => hnotes note' (List.mem_cons_of_mem _ hmem)

/-- The session tells an event of type `type`. -/
theorem say (h : Tale told story) {type : EventType} (hnext : MayFollow story e)
    (hidentified : e.type = .peerIdentified → type = .secured)
    (hestablished : e.type = .connectionEstablished ↔ type = .multiplexerReady)
    (hclosed : e.type = .connectionClosed → type = .closed) : Tale (told ++ [type]) (story ++ [e]) where
  order := h.order.snoc hnext
  identified := fun hmem => by
    rw [types_append] at hmem
    rcases List.mem_append.mp hmem with hmem | hmem
    · exact List.mem_append_left _ (h.identified hmem)
    · have htype : e.type = .peerIdentified := (List.mem_singleton.mp hmem).symm
      exact List.mem_append_right _ (by rw [hidentified htype]; simp)
  established := by
    rw [types_append, List.mem_append, List.mem_append, h.established]
    refine or_congr_right ?_
    show .connectionEstablished ∈ [e.type] ↔ _
    rw [List.mem_singleton, List.mem_singleton, eq_comm, hestablished, eq_comm]
  closed := fun hmem => by
    rw [types_append] at hmem
    rcases List.mem_append.mp hmem with hmem | hmem
    · exact List.mem_append_left _ (h.closed hmem)
    · have htype : e.type = .connectionClosed := (List.mem_singleton.mp hmem).symm
      exact List.mem_append_right _ (by rw [hclosed htype]; simp)

/-- The session tells an event that is not passed on. -/
theorem silent (h : Tale told story) {type : EventType} (htype : type ≠ .multiplexerReady) :
    Tale (told ++ [type]) story where
  order := h.order
  identified := fun hmem => List.mem_append_left _ (h.identified hmem)
  established := by
    rw [h.established]
    simp [Ne.symm htype]
  closed := fun hmem => List.mem_append_left _ (h.closed hmem)

/-- The next event of a session may follow in its story. -/
theorem mayFollow (h : Tale told story) {event : ConnectionEvent} {rest : List ConnectionEvent}
    (hnext : NextEvent told event rest)
    (hidentified : e.type = .peerIdentified → event.type = .secured)
    (hestablished : e.type = .connectionEstablished → event.type = .multiplexerReady)
    (hstream : e.streamId ≠ none → .multiplexerReady ∈ told) : MayFollow story e where
  open_ := fun hmem => hnext.live (h.closed hmem)
  identified := fun htype =>
    have hsecured := hnext.secured (hidentified htype)
    ⟨fun hmem => hsecured.1 (h.identified hmem), fun hmem => hsecured.2 (h.established.mp hmem)⟩
  established := fun htype hmem =>
    hnext.multiplexerReady (hestablished htype) (h.established.mp hmem)
  stream := fun hne => h.established.mpr (hstream hne)

end Tale

/-- The events of a connection that were ever queued. -/
def World.story (w : World) (id : ConnectionId) : List SwarmEvent :=
  w.swarm.history.filter (·.connectionId = id)

/-- The same with the events that are due. -/
def Scene.story (sc : Scene) (id : ConnectionId) : List SwarmEvent :=
  (sc.world.swarm.history ++ sc.due).filter (·.connectionId = id)

theorem Scene.story_of_same (sc sc' : Scene) (hhistory : sc'.world.swarm.history = sc.world.swarm.history)
    (hdue : sc'.due = sc.due) (id : ConnectionId) : sc'.story id = sc.story id := by
  unfold Scene.story
  rw [hhistory, hdue]

theorem Scene.story_due (sc sc' : Scene) (hhistory : sc'.world.swarm.history = sc.world.swarm.history)
    (hdue : sc.due = []) (id : ConnectionId) :
    sc'.story id = sc.story id ++ sc'.due.filter (·.connectionId = id) := by
  unfold Scene.story
  rw [hhistory, hdue, List.append_nil, List.filter_append]

/-! ## The ids of connections -/

section Turns

variable {S : Noise.Sodium} {reading : Bool}

/-- The connections made have the ids from 1 on. -/
structure Numbered (w : World) : Prop where
  nextId : w.swarm.nextConnId.toNat = w.swarm.made + 1
  ids : ∀ id s, w.swarm.sessions id = some s → 0 < id.toNat ∧ id.toNat ≤ w.swarm.made
  present : ∀ id ∈ w.swarm.connections, ∃ s, w.swarm.sessions id = some s

/-- The numbers stay, and no session appears or disappears. -/
structure SameNumbers (w w' : World) : Prop where
  nextId : w'.swarm.nextConnId = w.swarm.nextConnId
  made : w'.swarm.made = w.swarm.made
  sessions : ∀ id, (w'.swarm.sessions id).isSome = (w.swarm.sessions id).isSome
  connections : ∀ id ∈ w'.swarm.connections, id ∈ w.swarm.connections

namespace SameNumbers

variable {w w' w'' : World}

theorem of_same (hnext : w'.swarm.nextConnId = w.swarm.nextConnId) (hmade : w'.swarm.made = w.swarm.made)
    (hsessions : w'.swarm.sessions = w.swarm.sessions)
    (hconnections : w'.swarm.connections = w.swarm.connections) : SameNumbers w w' :=
  ⟨hnext, hmade, fun _ => by rw [hsessions], fun _ hid => hconnections ▸ hid⟩

theorem trans (h : SameNumbers w w') (h' : SameNumbers w' w'') : SameNumbers w w'' :=
  ⟨h'.nextId.trans h.nextId, h'.made.trans h.made, fun id => (h'.sessions id).trans (h.sessions id),
    fun id hid => h.connections id (h'.connections id hid)⟩

theorem setSession {id : ConnectionId} {s : BasicConnectionSession} (hs : w.swarm.sessions id = some s)
    (s' : BasicConnectionSession) : SameNumbers w (w.setSession id s') := by
  refine ⟨rfl, rfl, fun id' => ?_, fun _ hid => hid⟩
  by_cases hid : id' = id
  · subst hid
    rw [World.setSession_self, hs]
    rfl
  · rw [World.setSession_of_ne _ _ hid]

end SameNumbers

theorem acceptStream_numbers (id : ConnectionId) (w : World) : SameNumbers w (acceptStream id w) := by
  rcases acceptStream_cases id w with h | ⟨s, -, hs, h⟩ | ⟨s, neg, -, hs, -, -, h⟩
  · rw [h]
    exact SameNumbers.of_same rfl rfl rfl rfl
  · rw [h]
    exact SameNumbers.setSession hs _
  · rw [h]
    exact (SameNumbers.setSession hs _).trans (SameNumbers.of_same rfl rfl rfl rfl)

theorem removeConnection_numbers (id : ConnectionId) (w : World) :
    SameNumbers w (removeConnection id w) := by
  refine ⟨by rw [removeConnection_swarm], by rw [removeConnection_swarm], fun id' => ?_,
    fun id' hid => (mem_removeConnection.mp hid).1⟩
  rw [removeConnection_sessions]
  by_cases hid : id' = id
  · subst hid
    rw [Function.update_self, Option.isSome_map]
  · rw [Function.update_of_ne hid]

/-- Only a new connection gets a number. -/
theorem Turn.numbers {a b : Scene} (h : Turn S reading a b) :
    (∃ socket isInitiator origin, b = { a with world := a.world.connect socket isInitiator origin }) ∨
      SameNumbers a.world b.world := by
  cases h with
  | quiet w' hquiet =>
    refine .inr ⟨by rw [hquiet.swarm], by rw [hquiet.swarm], fun id => ?_, fun id hid => ?_⟩
    · have hrel := hquiet.sessions id
      cases hs : a.world.swarm.sessions id <;> cases hs' : w'.swarm.sessions id <;>
        rw [hs, hs'] at hrel <;> first | rfl | cases hrel
    · rwa [hquiet.connections] at hid
  | aside w' haside =>
    exact .inr (SameNumbers.of_same (by rw [haside.swarm]) (by rw [haside.swarm]) (by rw [haside.swarm])
      (by rw [haside.swarm]))
  | act id s action hs => exact .inr (SameNumbers.setSession hs _)
  | connect socket isInitiator origin => exact .inl ⟨socket, isInitiator, origin, rfl⟩
  | outside => exact .inr (SameNumbers.of_same rfl rfl rfl rfl)
  | report => exact .inr (SameNumbers.of_same rfl rfl rfl rfl)
  | secured id s e rest peer notes hdue hid hs =>
    exact .inr ((SameNumbers.setSession hs _).trans (SameNumbers.of_same rfl rfl rfl rfl))
  | anonymous id s e rest hid hs => exact .inr (SameNumbers.setSession hs _)
  | established id s e rest hdue hid hs =>
    exact .inr ((SameNumbers.setSession hs _).trans (SameNumbers.of_same rfl rfl rfl rfl))
  | forward id s e rest type hdue hid hs => exact .inr (SameNumbers.setSession hs _)
  | accept id => exact .inr (acceptStream_numbers id a.world)
  | pend => exact .inr (SameNumbers.of_same rfl rfl rfl rfl)
  | polled => exact .inr (SameNumbers.of_same rfl rfl rfl rfl)
  | record => exact .inr (SameNumbers.of_same rfl rfl rfl rfl)
  | dequeue => exact .inr (SameNumbers.of_same rfl rfl rfl rfl)
  | log => exact .inr (SameNumbers.of_same rfl rfl rfl rfl)
  | erase => exact .inr (SameNumbers.of_same rfl rfl rfl rfl)
  | remove id => exact .inr (removeConnection_numbers id a.world)

theorem Turn.made_le {a b : Scene} (h : Turn S reading a b) : a.world.swarm.made ≤ b.world.swarm.made := by
  rcases h.numbers with ⟨socket, isInitiator, origin, rfl⟩ | hsame
  · show _ ≤ (a.world.connect socket isInitiator origin).swarm.made
    rw [connect_swarm]
    exact Nat.le_succ _
  · exact hsame.made.ge

namespace Numbered

variable {w w' : World}

theorem of_same (h : Numbered w) (hsame : SameNumbers w w') : Numbered w' where
  nextId := by
    rw [hsame.nextId, hsame.made]
    exact h.nextId
  ids := fun id s hs => by
    have hsome : (w.swarm.sessions id).isSome := by
      rw [← hsame.sessions, hs]
      rfl
    obtain ⟨s', hs'⟩ := Option.isSome_iff_exists.mp hsome
    rw [hsame.made]
    exact h.ids id s' hs'
  present := fun id hid => by
    obtain ⟨s, hs⟩ := h.present id (hsame.connections id hid)
    exact Option.isSome_iff_exists.mp (by rw [hsame.sessions, hs]; rfl)

/-- The id of the next connection is new. -/
theorem next_new (h : Numbered w) : w.swarm.sessions w.swarm.nextConnId = none := by
  cases hs : w.swarm.sessions w.swarm.nextConnId with
  | none => rfl
  | some s =>
    have hle := (h.ids _ s hs).2
    have hnext := h.nextId
    omega

/-- A connection has a positive id below `2 ^ 32`. -/
theorem connection_id (h : Numbered w) (hsmall : w.swarm.made < 2 ^ 32) {id : ConnectionId}
    (hid : id ∈ w.swarm.connections) : 0 < id.toNat ∧ id.toNat < 2 ^ 32 := by
  obtain ⟨s, hs⟩ := h.present id hid
  exact ⟨(h.ids id s hs).1, lt_of_le_of_lt (h.ids id s hs).2 hsmall⟩

theorem next_ne (h : Numbered w) {id : ConnectionId} (hid : id ∈ w.swarm.connections) :
    id ≠ w.swarm.nextConnId := by
  rintro rfl
  obtain ⟨s, hs⟩ := h.present _ hid
  rw [h.next_new] at hs
  cases hs

theorem connect (h : Numbered w) (socket : TcpSocket) (isInitiator : Bool)
    (origin : Option (DialOrigin socket.remoteAddr))
    (hsmall : (w.connect socket isInitiator origin).swarm.made < 2 ^ 32) :
    Numbered (w.connect socket isInitiator origin) := by
  rw [connect_swarm] at hsmall
  have hmade : w.swarm.made + 1 < 2 ^ 32 := hsmall
  have hnext := h.nextId
  have hsucc : (w.swarm.nextConnId + 1).toNat = w.swarm.made + 1 + 1 := by
    rw [UInt64.toNat_add, hnext]
    show (w.swarm.made + 1 + 1) % 2 ^ 64 = _
    omega
  constructor
  · rw [connect_swarm]
    exact hsucc
  · intro id s hs
    rw [connect_sessions] at hs
    have hmade' : (w.connect socket isInitiator origin).swarm.made = w.swarm.made + 1 := by rw [connect_swarm]
    rw [hmade']
    by_cases hid : id = w.swarm.nextConnId
    · subst hid
      omega
    · rw [Function.update_of_ne hid] at hs
      have hold := h.ids id s hs
      omega
  · intro id hid
    rw [connect_sessions]
    by_cases hnew : id = w.swarm.nextConnId
    · exact ⟨_, by rw [hnew, Function.update_self]⟩
    · rw [Function.update_of_ne hnew]
      exact h.present id ((mem_connect.mp hid).resolve_left hnew)

theorem turn {a b : Scene} (h : Numbered a.world) (hturn : Turn S reading a b)
    (hsmall : b.world.swarm.made < 2 ^ 32) : Numbered b.world := by
  rcases hturn.numbers with ⟨socket, isInitiator, origin, rfl⟩ | hsame
  · exact h.connect socket isInitiator origin hsmall
  · exact h.of_same hsame

end Numbered

/-! ## Sessions and stories -/

/-- What a session goes through without telling anything. -/
def Endures (s s' : BasicConnectionSession) : Prop := ∀ told, Lived told s → Lived told s'

theorem Endures.step (s : BasicConnectionSession) {a : Connection.Action} (ha : a ≠ .nextEvent) :
    Endures s (Connection.step S s a) := fun _ h => h.step ha

theorem Plays.endures {s s' : BasicConnectionSession} (h : Plays S s s') : Endures s s' := by
  induction h with
  | refl => exact fun _ h => h
  | tail _ hstep ih =>
    obtain ⟨a, ha, rfl⟩ := hstep
    refine fun told h => (ih told h).step ?_
    rintro rfl
    exact ha

/-- Every session told `told`, and its story says so. `closing` are the connections that
    told their end. -/
structure Witnessed (told : ConnectionId → List EventType) (sc : Scene) : Prop where
  lived : ∀ id s, sc.world.swarm.sessions id = some s → Lived (told id) s
  untold : ∀ id, sc.world.swarm.sessions id = none → told id = []
  tale : ∀ id, Tale (told id) (sc.story id)
  live : ∀ id ∈ sc.world.swarm.connections, .closed ∈ told id → id ∈ sc.closing

/-- The sessions of `w` go on, and none appears or disappears. -/
def SessionsEndure (w w' : World) : Prop :=
  ∀ id, Option.Rel Endures (w.swarm.sessions id) (w'.swarm.sessions id)

namespace SessionsEndure

variable {w w' : World}

theorem rel_refl (o : Option BasicConnectionSession) : Option.Rel Endures o o := by
  cases o with
  | none => exact .none
  | some s => exact .some fun _ h => h

theorem of_same (h : w'.swarm.sessions = w.swarm.sessions) : SessionsEndure w w' := fun id => by
  rw [h]
  exact rel_refl _

theorem trans {w'' : World} (h : SessionsEndure w w') (h' : SessionsEndure w' w'') :
    SessionsEndure w w'' := fun id => by
  have hrel := h id
  have hrel' := h' id
  generalize w'.swarm.sessions id = o' at hrel hrel'
  generalize w.swarm.sessions id = o at hrel
  generalize w''.swarm.sessions id = o'' at hrel'
  cases hrel with
  | none => exact hrel'
  | some hs =>
    cases hrel' with
    | some hs' => exact .some fun told h => hs' told (hs told h)

theorem isSome (h : SessionsEndure w w') (id : ConnectionId) :
    (w.swarm.sessions id).isSome = (w'.swarm.sessions id).isSome := by
  have hrel := h id
  generalize w.swarm.sessions id = o at hrel
  generalize w'.swarm.sessions id = o' at hrel
  cases hrel with
  | none => rfl
  | some => rfl

theorem quiet (h : Quiet S w w') : SessionsEndure w w' := fun id => by
  have hrel := h.sessions id
  generalize w.swarm.sessions id = o at hrel
  generalize w'.swarm.sessions id = o' at hrel
  cases hrel with
  | none => exact .none
  | some hplays => exact .some hplays.endures

theorem update {id : ConnectionId} {s s' : BasicConnectionSession} (hs : w.swarm.sessions id = some s)
    (h : Endures s s') (hsessions : w'.swarm.sessions = Function.update w.swarm.sessions id (some s')) :
    SessionsEndure w w' := fun id' => by
  rw [hsessions]
  by_cases hid : id' = id
  · subst hid
    rw [hs, Function.update_self]
    exact .some h
  · rw [Function.update_of_ne hid]
    exact rel_refl _

theorem accept (id : ConnectionId) (w : World) : SessionsEndure w (acceptStream id w) := by
  have haccept : ∀ s : BasicConnectionSession, Endures s (Connection.acceptInboundStream s).2 := fun s =>
    Endures.step (S := Noise.Sodium.toy) s (a := .acceptStream) (by simp)
  rcases acceptStream_cases id w with hw | ⟨s, -, hs, hw⟩ | ⟨s, neg, -, hs, -, -, hw⟩
  · rw [hw]
    exact of_same rfl
  · rw [hw]
    exact update hs (haccept s) rfl
  · rw [hw]
    exact update hs (haccept s) rfl

end SessionsEndure

namespace Witnessed

variable {told : ConnectionId → List EventType} {sc sc' : Scene}

/-- Sessions go on, and nothing is told. -/
theorem endure (h : Witnessed told sc) (hsessions : SessionsEndure sc.world sc'.world)
    (hstory : ∀ id, sc'.story id = sc.story id)
    (hlive : ∀ id ∈ sc'.world.swarm.connections,
      id ∈ sc.world.swarm.connections ∧ (id ∈ sc.closing → id ∈ sc'.closing)) : Witnessed told sc' where
  lived := fun id s' hs' => by
    have hrel := hsessions id
    rw [hs'] at hrel
    generalize hs : sc.world.swarm.sessions id = o at hrel
    cases hrel with
    | some hendures => exact hendures _ (h.lived id _ hs)
  untold := fun id hnone => by
    have hrel := hsessions id
    rw [hnone] at hrel
    refine h.untold id ?_
    generalize sc.world.swarm.sessions id = o at hrel
    cases hrel with
    | none => rfl
  tale := fun id => by
    rw [hstory]
    exact h.tale id
  live := fun id hid hclosed =>
    have hold := hlive id hid
    hold.2 (h.live id hold.1 hclosed)

theorem of_same (h : Witnessed told sc) (hsessions : sc'.world.swarm.sessions = sc.world.swarm.sessions)
    (hhistory : sc'.world.swarm.history = sc.world.swarm.history) (hdue : sc'.due = sc.due)
    (hconnections : sc'.world.swarm.connections = sc.world.swarm.connections)
    (hclosing : sc'.closing = sc.closing) : Witnessed told sc' :=
  h.endure (SessionsEndure.of_same hsessions) (Scene.story_of_same _ _ hhistory hdue) fun _ hid =>
    ⟨hconnections ▸ hid, fun hmem => hclosing ▸ hmem⟩

/-- A connection appears; it has told nothing. -/
theorem connect (h : Witnessed told sc) (hnumbered : Numbered sc.world) (socket : TcpSocket)
    (isInitiator : Bool) (origin : Option (DialOrigin socket.remoteAddr)) :
    Witnessed told { sc with world := sc.world.connect socket isInitiator origin } where
  lived := fun id s hs => by
    rw [connect_sessions] at hs
    by_cases hnew : id = sc.world.swarm.nextConnId
    · subst hnew
      rw [Function.update_self] at hs
      obtain rfl := Option.some.inj hs
      rw [h.untold _ hnumbered.next_new]
      exact Connection.make_lived _ _ _ _ _ _ _
    · rw [Function.update_of_ne hnew] at hs
      exact h.lived id s hs
  untold := fun id hnone => by
    rw [connect_sessions] at hnone
    by_cases hnew : id = sc.world.swarm.nextConnId
    · subst hnew
      exact h.untold _ hnumbered.next_new
    · rw [Function.update_of_ne hnew] at hnone
      exact h.untold id hnone
  tale := fun id => by
    have hhistory : (sc.world.connect socket isInitiator origin).swarm.history = sc.world.swarm.history := by
      rw [connect_swarm]
    have hstory : Scene.story { sc with world := sc.world.connect socket isInitiator origin } id = sc.story id :=
      Scene.story_of_same sc { sc with world := sc.world.connect socket isInitiator origin } hhistory rfl id
    rw [hstory]
    exact h.tale id
  live := fun id hid hclosed => by
    rcases mem_connect.mp hid with rfl | hold
    · rw [h.untold _ hnumbered.next_new] at hclosed
      cases hclosed
    · exact h.live id hold hclosed

/-- An event of another source than a session. -/
theorem due (h : Witnessed told sc) (hdue : sc.due = []) {event : SwarmEvent}
    (hlive : .closed ∉ told event.connectionId)
    (htype : event.type ≠ .peerIdentified ∧ event.type ≠ .connectionEstablished ∧
      event.type ≠ .connectionClosed)
    (hstream : event.streamId ≠ none → .multiplexerReady ∈ told event.connectionId) :
    Witnessed told { sc with due := [event] } where
  lived := h.lived
  untold := h.untold
  tale := fun id => by
    have hstory : Scene.story { sc with due := [event] } id =
        sc.story id ++ [event].filter (·.connectionId = id) := Scene.story_due sc { sc with due := [event] } rfl hdue id
    rw [hstory]
    by_cases hid : event.connectionId = id
    · subst hid
      simpa using (h.tale event.connectionId).aside hlive htype hstream
    · simpa [hid] using h.tale id
  live := h.live

/-- The next event of a session is taken, and what is due tells it. -/
theorem take (h : Witnessed told sc) {id : ConnectionId} {s : BasicConnectionSession}
    {e : ConnectionEvent} {rest : List ConnectionEvent} (hs : sc.world.swarm.sessions id = some s)
    (hqueue : s.eventQueue = e :: rest)
    (hsessions : sc'.world.swarm.sessions = (sc.world.take id s rest).swarm.sessions)
    (hconnections : sc'.world.swarm.connections = sc.world.swarm.connections)
    (hclosing : sc'.closing = sc.closing ++ if e.type = .closed then [id] else [])
    (htale : Tale (told id ++ [e.type]) (sc'.story id))
    (hother : ∀ id', id' ≠ id → sc'.story id' = sc.story id') :
    Witnessed (Function.update told id (told id ++ [e.type])) sc' where
  lived := fun id' t ht => by
    rw [hsessions] at ht
    by_cases hid : id' = id
    · subst hid
      rw [World.take_sessions] at ht
      obtain rfl := Option.some.inj ht
      rw [Function.update_self]
      exact ((h.lived id' s hs).take hqueue).1
    · rw [Function.update_of_ne hid]
      exact h.lived id' t ((sc.world.setSession_of_ne _ hid).symm.trans ht)
  untold := fun id' hnone => by
    rw [hsessions] at hnone
    by_cases hid : id' = id
    · subst hid
      rw [World.take_sessions] at hnone
      cases hnone
    · rw [Function.update_of_ne hid]
      exact h.untold id' ((sc.world.setSession_of_ne _ hid).symm.trans hnone)
  tale := fun id' => by
    by_cases hid : id' = id
    · subst hid
      rw [Function.update_self]
      exact htale
    · rw [Function.update_of_ne hid, hother id' hid]
      exact h.tale id'
  live := fun id' hid' hclosed => by
    rw [hconnections] at hid'
    rw [hclosing]
    by_cases hid : id' = id
    · subst hid
      rw [Function.update_self] at hclosed
      rcases List.mem_append.mp hclosed with hclosed | hclosed
      · exact List.mem_append_left _ (h.live id' hid' hclosed)
      · rw [if_pos (List.mem_singleton.mp hclosed).symm]
        simp
    · rw [Function.update_of_ne hid] at hclosed
      exact List.mem_append_left _ (h.live id' hid' hclosed)

/-- The same, when nothing else is due. -/
theorem takeDue (h : Witnessed told sc) {id : ConnectionId} {s : BasicConnectionSession}
    {e : ConnectionEvent} {rest : List ConnectionEvent} (hs : sc.world.swarm.sessions id = some s)
    (hqueue : s.eventQueue = e :: rest)
    (hsessions : sc'.world.swarm.sessions = (sc.world.take id s rest).swarm.sessions)
    (hconnections : sc'.world.swarm.connections = sc.world.swarm.connections)
    (hhistory : sc'.world.swarm.history = sc.world.swarm.history)
    (hclosing : sc'.closing = sc.closing ++ if e.type = .closed then [id] else [])
    (hdue : sc.due = []) (hid : ∀ event ∈ sc'.due, event.connectionId = id)
    (htale : Tale (told id ++ [e.type]) (sc.story id ++ sc'.due)) :
    Witnessed (Function.update told id (told id ++ [e.type])) sc' := by
  have hstory := Scene.story_due sc sc' hhistory hdue
  refine h.take hs hqueue hsessions hconnections hclosing ?_ fun id' hne => ?_
  · rw [hstory, List.filter_eq_self.mpr fun event hmem => decide_eq_true (hid event hmem)]
    exact htale
  · rw [hstory, List.filter_eq_nil_iff.mpr, List.append_nil]
    intro event hmem
    rw [decide_eq_true_eq, hid event hmem]
    exact Ne.symm hne

end Witnessed

end Turns

end PeerCore
