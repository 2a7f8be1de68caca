import PeerCore.Connection.Told
import PeerCore.Swarm.Swarm

/-!
# What the swarm does, one thing at a time

* `Quiet`: streams are used and negotiated. Only sessions and negotiations change, and
  a session changes as by calls on the handles of its streams.
* `Turn`: one thing that a function of the swarm does, with what it has checked before.
  Every function is a sequence of them (`Swarm/Functions`).
-/

namespace PeerCore

open Connection (BasicConnectionSession StreamHandle ConnectionEvent Method)

section Quiet

variable (S : Noise.Sodium) {α β : Type}

/-- A session after calls on the handles of its streams. -/
def Plays : BasicConnectionSession → BasicConnectionSession → Prop :=
  Relation.ReflTransGen fun s t => ∃ a : Connection.Action, a.OnHandle ∧ t = Connection.step S s a

/-- The negotiation is over. -/
def ProtocolNegotiatingStream.Over (neg : ProtocolNegotiatingStream) : Prop :=
  neg.stage = .ready ∨ neg.stage = .failed

/-- A negotiation after some use of it. When it is over it stays over. -/
structure Furthered (neg neg' : ProtocolNegotiatingStream) : Prop where
  connId : neg'.connId = neg.connId
  inbound : neg'.inbound = neg.inbound
  stays : neg.Over → neg'.Over ∧ neg'.negotiatedProtocol = neg.negotiatedProtocol

/-- Streams were used: only sessions and negotiations have changed, each in its own way. -/
structure Quiet (w w' : World) : Prop where
  swarm : w'.swarm = { w.swarm with
    sessions := w'.swarm.sessions, negotiations := w'.swarm.negotiations }
  sessions : ∀ id, Option.Rel (Plays S) (w.swarm.sessions id) (w'.swarm.sessions id)
  negotiations : ∀ n, Furthered (w.swarm.negotiations n) (w'.swarm.negotiations n)

variable {S}

theorem Plays.refl (s : BasicConnectionSession) : Plays S s s := Relation.ReflTransGen.refl

theorem Plays.unheard {s s' : BasicConnectionSession} (h : Plays S s s') : Connection.Unheard s s' := by
  induction h with
  | refl => exact Connection.Unheard.refl s
  | tail _ hstep ih =>
    obtain ⟨a, ha, rfl⟩ := hstep
    exact ih.trans (Connection.step_unheard S _ ha)

theorem Plays.rel_refl (o : Option BasicConnectionSession) : Option.Rel (Plays S) o o := by
  cases o with
  | none => exact .none
  | some s => exact .some (Plays.refl s)

theorem Plays.rel_trans {a b c : Option BasicConnectionSession} (h : Option.Rel (Plays S) a b)
    (h' : Option.Rel (Plays S) b c) : Option.Rel (Plays S) a c := by
  cases h with
  | none => exact h'
  | some h =>
    cases h' with
    | some h' => exact .some (Relation.ReflTransGen.trans h h')

namespace Furthered

variable {neg neg' neg'' : ProtocolNegotiatingStream}

theorem refl (neg : ProtocolNegotiatingStream) : Furthered neg neg := ⟨rfl, rfl, fun h => ⟨h, rfl⟩⟩

theorem trans (h : Furthered neg neg') (h' : Furthered neg' neg'') : Furthered neg neg'' := by
  refine ⟨h'.connId.trans h.connId, h'.inbound.trans h.inbound, fun hover => ?_⟩
  obtain ⟨hover', hprotocol⟩ := h.stays hover
  exact ⟨(h'.stays hover').1, (h'.stays hover').2.trans hprotocol⟩

/-- The buffers change. -/
theorem buffers (neg : ProtocolNegotiatingStream) (negotiation app : Bytes) :
    Furthered neg { neg with negotiationBuffer := negotiation, appRxBuffer := app } :=
  ⟨rfl, rfl, fun h => ⟨h, rfl⟩⟩

theorem failed (neg : ProtocolNegotiatingStream) (detail : Option String) :
    Furthered neg { neg with stage := .failed, failureDetail := detail } :=
  ⟨rfl, rfl, fun _ => ⟨.inr rfl, rfl⟩⟩

/-- A negotiation that is not over may do anything. -/
theorem of_not_over (hover : ¬ neg.Over) (hconn : neg'.connId = neg.connId)
    (hinbound : neg'.inbound = neg.inbound) : Furthered neg neg' :=
  ⟨hconn, hinbound, fun h => absurd h hover⟩

end Furthered

namespace Quiet

variable {w w' w'' : World}

theorem connections (h : Quiet S w w') : w'.swarm.connections = w.swarm.connections := by
  rw [h.swarm]

theorem connId (h : Quiet S w w') (n : ℕ) :
    (w'.swarm.negotiations n).connId = (w.swarm.negotiations n).connId :=
  (h.negotiations n).connId

theorem refl (w : World) : Quiet S w w := ⟨rfl, fun _ => Plays.rel_refl _, fun _ => .refl _⟩

theorem trans (h : Quiet S w w') (h' : Quiet S w' w'') : Quiet S w w'' where
  swarm := by
    rw [h'.swarm, h.swarm]
  sessions := fun id => Plays.rel_trans (h.sessions id) (h'.sessions id)
  negotiations := fun n => (h.negotiations n).trans (h'.negotiations n)

theorem ask (w : World) : Quiet S w w.ask.2 := ⟨rfl, fun _ => Plays.rel_refl _, fun _ => .refl _⟩

theorem setNegotiation (w : World) (n : ℕ) {f : ProtocolNegotiatingStream → ProtocolNegotiatingStream}
    (hf : Furthered (w.swarm.negotiations n) (f (w.swarm.negotiations n))) :
    Quiet S w (w.setNegotiation n f) where
  swarm := rfl
  sessions := fun _ => Plays.rel_refl _
  negotiations := fun m => by
    by_cases hm : m = n
    · subst hm
      simpa [World.setNegotiation] using hf
    · simpa [World.setNegotiation, hm] using Furthered.refl _

theorem setSession {id : ConnectionId} {s s' : BasicConnectionSession}
    (hs : w.swarm.sessions id = some s) (h : Plays S s s') : Quiet S w (w.setSession id s') where
  swarm := rfl
  sessions := fun id' => by
    by_cases hid : id' = id
    · subst hid
      simp only [World.setSession, Function.update_self, hs]
      exact .some h
    · simp only [World.setSession, Function.update_of_ne hid]
      exact Plays.rel_refl _
  negotiations := fun _ => .refl _

end Quiet

/-- A method that only uses streams. -/
def IsQuiet (S : Noise.Sodium) (x : Op World α) : Prop := Op.Preserves (Quiet S) x

namespace IsQuiet

theorem bind {x : Op World α} {f : α → Op World β} (hx : IsQuiet S x) (hf : ∀ a, IsQuiet S (f a)) :
    IsQuiet S (x >>= f) :=
  Op.Preserves.bind (fun _ _ _ h h' => h.trans h') hx hf

/-- As `bind`, from one world. -/
theorem bind_at {x : Op World α} {f : α → Op World β} {w : World} (hx : Quiet S w (x w).2)
    (hf : ∀ a, IsQuiet S (f a)) : Quiet S w ((x >>= f) w).2 := by
  rw [Op.bind_apply]
  rcases hrun : x w with ⟨e | a, w'⟩ <;> rw [hrun] at hx
  · exact hx
  · exact hx.trans (hf a w')

theorem pure (a : α) : IsQuiet S (Pure.pure a : Op World α) := Quiet.refl

theorem fail (e : String) : IsQuiet S (Op.fail e : Op World α) := Quiet.refl

theorem ofResult (r : Result α) : IsQuiet S (Op.ofResult r : Op World α) := Quiet.refl

theorem this (n : ℕ) : IsQuiet S (Negotiation.this n) := Quiet.refl

theorem change (n : ℕ) {f : ProtocolNegotiatingStream → ProtocolNegotiatingStream}
    (hf : ∀ neg, Furthered neg (f neg)) : IsQuiet S (Negotiation.change n f) :=
  fun w => Quiet.setNegotiation w n (hf _)

theorem failing {x : Op World α} (n : ℕ) {w : World} (hw : Quiet S w (x w).2) :
    Quiet S w (Negotiation.failing n x w).2 := by
  unfold Negotiation.failing
  rcases hrun : x w with ⟨e | a, w'⟩ <;> rw [hrun] at hw
  · have hfail : Quiet S w' (w'.setNegotiation n fun neg =>
        { neg with stage := .failed, failureDetail := some e }) :=
      Quiet.setNegotiation w' n (.failed _ _)
    exact hw.trans hfail
  · exact hw

/-- A call on a handle. -/
theorem onSession {x : Method α} (id : ConnectionId) (a : Connection.Action) (ha : a.OnHandle)
    (hx : ∀ s, (x s).2 = Connection.step S s a) : IsQuiet S (PeerCore.onSession S id x) := by
  intro w
  unfold PeerCore.onSession
  dsimp only
  cases hs : w.ask.2.swarm.sessions id with
  | none => exact Quiet.ask w
  | some s =>
    refine (Quiet.ask w).trans (Quiet.setSession hs ?_)
    have hanswers : Plays S s
        (Connection.step S s (.answers w.ask.1.sends w.ask.1.shutdownError)) :=
      Relation.ReflTransGen.single ⟨.answers _ _, trivial, rfl⟩
    exact Relation.ReflTransGen.tail hanswers ⟨a, ha, hx _⟩

theorem tryRead (n size : ℕ) : IsQuiet S (Negotiation.inner S n (Connection.streamTryRead S · size)) :=
  fun w => onSession _ (.tryRead (w.swarm.negotiations n).inner size) trivial (by intro; rfl) w

theorem tryWrite (n : ℕ) (data : Bytes) :
    IsQuiet S (Negotiation.inner S n (Connection.streamTryWrite S · data)) :=
  fun w => onSession _ (.tryWrite (w.swarm.negotiations n).inner data) trivial (by intro; rfl) w

theorem closeWrite (n : ℕ) : IsQuiet S (Negotiation.inner S n (Connection.streamCloseWrite S ·)) :=
  fun w => onSession _ (.closeWrite (w.swarm.negotiations n).inner) trivial (by intro; rfl) w

theorem reset (n : ℕ) : IsQuiet S (Negotiation.inner S n (Connection.streamReset S ·)) :=
  fun w => onSession _ (.reset (w.swarm.negotiations n).inner) trivial (by intro; rfl) w

end IsQuiet

namespace Negotiation

theorem readLoop_quiet (n fuel : ℕ) : IsQuiet S (readLoop S n fuel) := by
  induction fuel with
  | zero => exact IsQuiet.pure ()
  | succ fuel ih =>
    intro w
    have hread := IsQuiet.tryRead (S := S) n 1024 w
    unfold readLoop
    rcases hrun : inner S n (Connection.streamTryRead S · 1024) w with ⟨e | _ | ⟨b, bytes⟩, w'⟩ <;>
      rw [hrun] at hread
    · dsimp only
      split_ifs <;> exact hread
    · dsimp only
      split_ifs <;> exact hread
    · exact (hread.trans (Quiet.setNegotiation w' n (.buffers _ _ _))).trans (ih _)

theorem readIntoNegotiationBuffer_quiet (n : ℕ) : IsQuiet S (readIntoNegotiationBuffer S n) :=
  fun w => readLoop_quiet n _ w

/-- A method that only uses streams, when the negotiation is not over. -/
def QuietWhileOpen (S : Noise.Sodium) (n : ℕ) (x : Op World α) : Prop :=
  ∀ w, ¬ (w.swarm.negotiations n).Over → Quiet S w (x w).2

namespace QuietWhileOpen

variable {n : ℕ}

theorem of_quiet {x : Op World α} (hx : IsQuiet S x) : QuietWhileOpen S n x := fun w _ => hx w

/-- A method that leaves the negotiations alone comes first. -/
theorem bind {x : Op World α} {f : α → Op World β} (hx : IsQuiet S x)
    (hsame : ∀ w, (x w).2.swarm.negotiations = w.swarm.negotiations)
    (hf : ∀ a, QuietWhileOpen S n (f a)) : QuietWhileOpen S n (x >>= f) := by
  intro w hopen
  have hw := hx w
  have hw' := hsame w
  rw [Op.bind_apply]
  rcases hrun : x w with ⟨e | a, w'⟩ <;> rw [hrun] at hw hw'
  · exact hw
  · refine hw.trans (hf a w' ?_)
    rw [hw']
    exact hopen

theorem this {f : ProtocolNegotiatingStream → Op World β} (hf : ∀ neg, QuietWhileOpen S n (f neg)) :
    QuietWhileOpen S n (Negotiation.this n >>= f) :=
  bind (IsQuiet.this n) (fun _ => rfl) hf

theorem ofResult {r : Result α} {f : α → Op World β} (hf : ∀ a, QuietWhileOpen S n (f a)) :
    QuietWhileOpen S n (Op.ofResult r >>= f) :=
  bind (IsQuiet.ofResult r) (fun _ => rfl) hf

theorem tryWrite (data : Bytes) {f : ℕ → Op World β} (hf : ∀ a, QuietWhileOpen S n (f a)) :
    QuietWhileOpen S n (Negotiation.inner S n (Connection.streamTryWrite S · data) >>= f) := by
  refine bind (IsQuiet.tryWrite n data) (fun w => ?_) hf
  unfold Negotiation.inner PeerCore.onSession
  dsimp only
  cases w.ask.2.swarm.sessions (w.swarm.negotiations n).connId <;> rfl

theorem change {f : ProtocolNegotiatingStream → ProtocolNegotiatingStream}
    (hconn : ∀ neg, (f neg).connId = neg.connId) (hinbound : ∀ neg, (f neg).inbound = neg.inbound) :
    QuietWhileOpen S n (Negotiation.change n f) :=
  fun w hopen => Quiet.setNegotiation w n (.of_not_over hopen (hconn _) (hinbound _))

end QuietWhileOpen

theorem sendProposal_quiet (n : ℕ) : QuietWhileOpen S n (sendProposal S n) :=
  QuietWhileOpen.this fun _ => QuietWhileOpen.ofResult fun proposal =>
    QuietWhileOpen.tryWrite proposal fun _ => QuietWhileOpen.change (by intro; rfl) (by intro; rfl)

theorem awaitResponse_quiet (n : ℕ) : QuietWhileOpen S n (awaitResponse n) := by
  refine QuietWhileOpen.this fun neg => ?_
  cases MultistreamSelect.exchangeSpan neg.negotiationBuffer with
  | error e =>
    dsimp only
    split_ifs
    · exact .of_quiet (IsQuiet.pure ())
    · exact .of_quiet (IsQuiet.fail e)
  | ok span =>
    exact QuietWhileOpen.ofResult fun selected =>
      QuietWhileOpen.change (by intro; rfl) (by intro; rfl)

theorem answerProposal_quiet (n : ℕ) : QuietWhileOpen S n (answerProposal S n) := by
  refine QuietWhileOpen.this fun neg => ?_
  cases MultistreamSelect.exchangeSpan neg.negotiationBuffer with
  | error e =>
    dsimp only
    split_ifs
    · exact .of_quiet (IsQuiet.pure ())
    · exact .of_quiet (IsQuiet.fail e)
  | ok span =>
    refine QuietWhileOpen.ofResult fun negotiation => QuietWhileOpen.tryWrite _ fun _ => ?_
    cases negotiation.protocol with
    | none =>
      have hclose : IsQuiet S (Op.modify fun w => (inner S n (Connection.streamCloseWrite S ·) w).2) :=
        IsQuiet.closeWrite n
      exact .of_quiet (hclose.bind fun _ => IsQuiet.fail _)
    | some protocol => exact QuietWhileOpen.change (by intro; rfl) (by intro; rfl)

/-- The part of `poll` after the bytes were read. -/
theorem pollBuffer_quiet (n : ℕ) : IsQuiet S (do
    let neg ← this n
    if neg.stage = .awaitingOutboundResponse then failing n (awaitResponse n)
    else if neg.stage = .awaitingInboundProposal then failing n (answerProposal S n)
    else pure ()) := by
  intro w
  show Quiet S w ((if (w.swarm.negotiations n).stage = .awaitingOutboundResponse
    then failing n (awaitResponse n)
    else if (w.swarm.negotiations n).stage = .awaitingInboundProposal
      then failing n (answerProposal S n) else pure ()) w).2
  split_ifs with hresponse hproposal
  · refine IsQuiet.failing n (awaitResponse_quiet n w ?_)
    simp [ProtocolNegotiatingStream.Over, hresponse]
  · refine IsQuiet.failing n (answerProposal_quiet n w ?_)
    simp [ProtocolNegotiatingStream.Over, hproposal]
  · exact Quiet.refl w

theorem poll_quiet (n : ℕ) : IsQuiet S (poll S n) := by
  intro w
  have hread := IsQuiet.bind (fun w => IsQuiet.failing n (readIntoNegotiationBuffer_quiet (S := S) n w))
    fun _ => pollBuffer_quiet (S := S) n
  have hthis : ∀ {f : ProtocolNegotiatingStream → Op World Unit},
      (this n >>= f) w = f (w.swarm.negotiations n) w := rfl
  unfold poll
  rw [hthis]
  cases hstage : (w.swarm.negotiations n).stage with
  | ready => exact Quiet.refl w
  | failed => exact Quiet.refl w
  | sendingOutboundProposal =>
    refine IsQuiet.bind_at (IsQuiet.failing n (sendProposal_quiet n w ?_)) fun _ => hread
    simp [ProtocolNegotiatingStream.Over, hstage]
  | awaitingOutboundResponse => exact hread w
  | awaitingInboundProposal => exact hread w

theorem pollReady_quiet (n : ℕ) : IsQuiet S (pollReady S n) := by
  refine (poll_quiet n).bind fun _ => (IsQuiet.this n).bind fun neg => ?_
  split_ifs
  · exact IsQuiet.pure ()
  · exact IsQuiet.fail _

theorem call_quiet (w : World) (n : ℕ) (c : HandleCall) : Quiet S w (call S w n c) := by
  cases c with
  | tryRead size =>
    have hread : IsQuiet S (tryRead S n size) := by
      refine (pollReady_quiet n).bind fun _ => (IsQuiet.this n).bind fun neg => ?_
      split_ifs
      · exact (IsQuiet.change n fun neg => .buffers neg _ _).bind fun _ => IsQuiet.pure _
      · exact IsQuiet.tryRead n size
    exact hread w
  | tryWrite data =>
    exact ((pollReady_quiet n).bind fun _ => IsQuiet.tryWrite n data : IsQuiet S (tryWrite S n data)) w
  | closeWrite =>
    exact ((pollReady_quiet n).bind fun _ => IsQuiet.closeWrite n : IsQuiet S (closeWrite S n)) w
  | reset =>
    exact ((IsQuiet.change n fun neg => .failed neg _).bind fun _ => IsQuiet.reset n :
      IsQuiet S (reset S n)) w

end Negotiation

theorem userCode_quiet (w : World) : Quiet S w (userCode S w) := by
  unfold userCode
  dsimp only
  refine (Quiet.ask w).trans ?_
  generalize w.ask.2 = w'
  induction w.ask.1.calls generalizing w' with
  | nil => exact Quiet.refl w'
  | cons c calls ih =>
    rw [List.foldl_cons]
    refine Quiet.trans ?_ (ih _)
    split_ifs
    · exact Negotiation.call_quiet w' c.1 c.2
    · exact Quiet.refl w'

end Quiet

/-! ## Turns -/

/-- The events of a session that are passed on, and as what. -/
inductive Forwards : Connection.EventType → SwarmEventType → Prop
  | streamOpened : Forwards .streamOpened .streamOpened
  | streamAccepted : Forwards .streamAccepted .streamAccepted
  | streamClosed : Forwards .streamClosed .streamClosed
  | error : Forwards .error .protocolError
  | closed : Forwards .closed .connectionClosed

/-- The world, the connections whose end was told but which are not removed yet, and the
    events about to be dispatched. -/
structure Scene where
  world : World
  closing : List ConnectionId := []
  due : List SwarmEvent := []

/-- An event is queued. -/
def World.record (event : SwarmEvent) (w : World) : World :=
  { w with swarm := { w.swarm with
    eventQueue := w.swarm.eventQueue ++ [event]
    history := w.swarm.history ++ [event] } }

/-- The first event of the session behind `id` is taken; `rest` stays. -/
def World.take (id : ConnectionId) (s : BasicConnectionSession) (rest : List ConnectionEvent)
    (w : World) : World := w.setSession id { s with eventQueue := rest }

theorem World.setSession_self (w : World) (id : ConnectionId) (s : BasicConnectionSession) :
    (w.setSession id s).swarm.sessions id = some s := Function.update_self _ _ _

theorem World.setSession_of_ne (w : World) {id id' : ConnectionId} (s : BasicConnectionSession)
    (hid : id' ≠ id) : (w.setSession id s).swarm.sessions id' = w.swarm.sessions id' :=
  Function.update_of_ne hid _ _

theorem World.take_sessions (w : World) (id : ConnectionId) (s : BasicConnectionSession)
    (rest : List ConnectionEvent) :
    (w.take id s rest).swarm.sessions id = some { s with eventQueue := rest } :=
  w.setSession_self id _

/-- A new connection is registered. -/
def World.connect (socket : TcpSocket) (isInitiator : Bool)
    (origin : Option (DialOrigin socket.remoteAddr)) (w : World) : World :=
  registerConnection (newConnection socket isInitiator origin w).1 socket.fd
    (newConnection socket isInitiator origin w).2

/-- Neither the connections nor their tables change, nor the counters of the store. -/
structure Aside (w w' : World) : Prop where
  swarm : w'.swarm = { w.swarm with
    peerStore := w'.swarm.peerStore
    eventLoop := w'.swarm.eventLoop
    transport := w'.swarm.transport
    listenerFds := w'.swarm.listenerFds
    dialingFds := w'.swarm.dialingFds
    handlers := w'.swarm.handlers
    given := w'.swarm.given }
  dials : ∀ peer, w'.swarm.peerStore.dialSuccesses peer = w.swarm.peerStore.dialSuccesses peer

section Turns

variable (S : Noise.Sodium)

/-- One thing that the swarm does. Sockets are read while `reading`, and then no
    negotiation is polled. -/
inductive Turn (reading : Bool) : Scene → Scene → Prop
  | quiet (sc : Scene) (w : World) (h : Quiet S sc.world w) : Turn reading sc { sc with world := w }
  | aside (sc : Scene) (w : World) (h : Aside sc.world w) : Turn reading sc { sc with world := w }
  | act (sc : Scene) (id : ConnectionId) (s : BasicConnectionSession) (a : Connection.Action)
    (hs : sc.world.swarm.sessions id = some s) (ha : a ≠ .nextEvent)
    (hlocal : reading = true ∨ a.Local) :
    Turn reading sc { sc with world := sc.world.setSession id (Connection.step S s a) }
  | connect (sc : Scene) (socket : TcpSocket) (isInitiator : Bool)
    (origin : Option (DialOrigin socket.remoteAddr)) (hrole : origin.isSome → isInitiator = true) :
    Turn reading sc { sc with world := sc.world.connect socket isInitiator origin }
  | outside (sc : Scene) (event : SwarmEvent) (hdue : sc.due = [])
    (htype : event.type = .listenerStarted ∨ event.type = .dialFailed)
    (hid : event.connectionId = 0) (hstream : event.streamId = none) :
    Turn reading sc { sc with due := [event] }
  | report (sc : Scene) (event : SwarmEvent) (hdue : sc.due = []) (hclosing : sc.closing = [])
    (hid : event.connectionId ∈ sc.world.swarm.connections)
    (htype : event.type = .incomingConnection ∨ event.type = .protocolError)
    (hstream : event.streamId = none) : Turn reading sc { sc with due := [event] }
  | secured (sc : Scene) (id : ConnectionId) (s : BasicConnectionSession) (e : ConnectionEvent)
    (rest : List ConnectionEvent) (peer : PeerId) (notes : List SwarmEvent) (hdue : sc.due = [])
    (hid : id ∈ sc.world.swarm.connections) (hs : sc.world.swarm.sessions id = some s)
    (hqueue : s.eventQueue = e :: rest) (htype : e.type = .secured)
    (hpeer : s.remotePeer = some peer)
    (hnotes : ∀ note ∈ notes, note.type = .protocolNegotiated ∧ note.connectionId = id ∧
      note.streamId = none) :
    Turn reading sc { sc with
      world := changePeers (.identify id peer.toString) (sc.world.take id s rest)
      due := { type := .peerIdentified, connectionId := id, peerId := some peer, detail := e.detail } ::
        notes }
  | anonymous (sc : Scene) (id : ConnectionId) (s : BasicConnectionSession) (e : ConnectionEvent)
    (rest : List ConnectionEvent)
    (hid : id ∈ sc.world.swarm.connections) (hs : sc.world.swarm.sessions id = some s)
    (hqueue : s.eventQueue = e :: rest) (htype : e.type = .secured) (hpeer : s.remotePeer = none) :
    Turn reading sc { sc with world := sc.world.take id s rest }
  | established (sc : Scene) (id : ConnectionId) (s : BasicConnectionSession) (e : ConnectionEvent)
    (rest : List ConnectionEvent) (hdue : sc.due = [])
    (hid : id ∈ sc.world.swarm.connections) (hs : sc.world.swarm.sessions id = some s)
    (hqueue : s.eventQueue = e :: rest) (htype : e.type = .multiplexerReady) :
    Turn reading sc { sc with
      world := recordEstablished id (sc.world.take id s rest)
      due := [{ type := .connectionEstablished, connectionId := id, peerId := s.remotePeer
                detail := e.detail }] }
  | forward (sc : Scene) (id : ConnectionId) (s : BasicConnectionSession) (e : ConnectionEvent)
    (rest : List ConnectionEvent) (type : SwarmEventType) (hdue : sc.due = [])
    (hid : id ∈ sc.world.swarm.connections) (hs : sc.world.swarm.sessions id = some s)
    (hqueue : s.eventQueue = e :: rest) (htype : Forwards e.type type) :
    Turn reading sc
      { world := sc.world.take id s rest
        closing := sc.closing ++ if e.type = .closed then [id] else []
        due := [{ type, connectionId := id, streamId := e.streamId, detail := e.detail }] }
  | accept (sc : Scene) (id : ConnectionId) :
    Turn reading sc { sc with world := acceptStream id sc.world }
  | pend (sc : Scene) (id : ConnectionId) (s : BasicConnectionSession) (neg : ProtocolNegotiatingStream)
    (hid : id ∈ sc.world.swarm.connections) (hs : sc.world.swarm.sessions id = some s)
    (hready : s.state = .ready) (hneg : neg.connId = id) :
    Turn reading sc { sc with
      world := addPending id (newNegotiation neg sc.world).1 (newNegotiation neg sc.world).2 }
  | polled (sc : Scene) (key : UInt64) (n : ℕ) (event : SwarmEvent) (hreading : reading = false)
    (hdue : sc.due = []) (hclosing : sc.closing = [])
    (hkey : sc.world.swarm.pendingStreams.lookup key = some n)
    (hid : event.connectionId = (sc.world.swarm.negotiations n).connId)
    (htype : event.type = .protocolError ∨ event.type = .protocolNegotiated) :
    Turn reading sc { sc with due := [event] }
  | record (sc : Scene) (event : SwarmEvent) (rest : List SwarmEvent) (hdue : sc.due = event :: rest) :
    Turn reading sc { sc with world := sc.world.record event, due := rest }
  | dequeue (sc : Scene) : Turn reading sc { sc with world := nextEvent sc.world }
  | log (sc : Scene) (n : ℕ) (report : StreamReport) (hreading : reading = false) :
    Turn reading sc { sc with world := logStream n report sc.world }
  | erase (sc : Scene) (keys : List UInt64) :
    Turn reading sc { sc with world := erasePending keys sc.world }
  | remove (sc : Scene) (id : ConnectionId) (rest : List ConnectionId)
    (hclosing : sc.closing = id :: rest) :
    Turn reading sc { sc with world := removeConnection id sc.world, closing := rest }

/-- Any number of turns. -/
def Turns (reading : Bool) : Scene → Scene → Prop := Relation.ReflTransGen (Turn S reading)

variable {S} {reading : Bool}

namespace Turns

variable {a b c : Scene} {w w' : World} {closing : List ConnectionId}

theorem refl (sc : Scene) : Turns S reading sc sc := Relation.ReflTransGen.refl

theorem trans (h : Turns S reading a b) (h' : Turns S reading b c) : Turns S reading a c :=
  Relation.ReflTransGen.trans h h'

theorem invariant {P : Scene → Prop} (h : Turns S reading a b)
    (hturn : ∀ a b, P a → Turn S reading a b → P b) (ha : P a) : P b := by
  induction h with
  | refl => exact ha
  | tail _ hstep ih => exact hturn _ _ ih hstep

end Turns

theorem Turn.single {a b : Scene} (h : Turn S reading a b) : Turns S reading a b :=
  Relation.ReflTransGen.single h

theorem Quiet.turns {w w' : World} (h : Quiet S w w') (closing : List ConnectionId)
    (due : List SwarmEvent) : Turns S reading ⟨w, closing, due⟩ ⟨w', closing, due⟩ :=
  (Turn.quiet ⟨w, closing, due⟩ w' h).single

theorem Aside.turns {w w' : World} (h : Aside w w') (closing : List ConnectionId)
    (due : List SwarmEvent) : Turns S reading ⟨w, closing, due⟩ ⟨w', closing, due⟩ :=
  (Turn.aside ⟨w, closing, due⟩ w' h).single

/-- An event that is due is dispatched. -/
theorem dispatchEvent_turns (event : SwarmEvent) (w : World) (closing : List ConnectionId)
    (due : List SwarmEvent) :
    Turns S reading ⟨w, closing, event :: due⟩ ⟨dispatchEvent S event w, closing, due⟩ :=
  ((userCode_quiet w).turns closing (event :: due)).trans
    (Turn.record ⟨userCode S w, closing, event :: due⟩ event due rfl).single

theorem userCode_turns (w : World) (closing : List ConnectionId) (due : List SwarmEvent) :
    Turns S reading ⟨w, closing, due⟩ ⟨userCode S w, closing, due⟩ :=
  (userCode_quiet w).turns closing due

end Turns

end PeerCore
