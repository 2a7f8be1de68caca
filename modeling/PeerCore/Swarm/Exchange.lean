import PeerCore.Swarm.Negotiator

/-!
# What the bytes of an exchange decide

`Drives` are the states that the calls of its owner lead a `ProtocolNegotiatingStream` to,
in any order and with bytes coming to `inner_` in between.

* `Stands`: what is known of a negotiation in such a state. `poll_stands` and the like:
  each call keeps it.
* `exchange_decides`: the outcome is a function of the bytes that have come to `inner_`,
  the proposal or the reply is written once, and `try_read` returns the bytes behind the
  exchange.
-/

namespace PeerCore

open MultistreamSelect

/-! ## What the bytes decide -/

/-- What is known of a negotiation. -/
inductive Outcome
  | pending
  | ready (protocol : ProtocolId)
  | failed (detail : String)
  deriving DecidableEq

/-- The two kinds of negotiation, with the protocol proposed or the protocols supported. -/
inductive Side
  | outbound (desired : ProtocolId)
  | inbound (supported : List ProtocolId)

namespace Side

/-- The two constructors (`swarm.cpp:66-84`). -/
def make (connId : ConnectionId) (inner : Connection.StreamHandle) : Side → ProtocolNegotiatingStream
  | outbound desired => { connId, inner, desiredProtocol := desired }
  | inbound supported =>
    { connId, inner, supportedProtocols := supported, inbound := true, stage := .awaitingInboundProposal }

/-- The outcome of an exchange in which the other side said `exchange`. -/
def judge : Side → Bytes → Outcome
  | outbound desired, response =>
    match readOutboundResponse response desired with
    | .ok protocol => .ready protocol
    | .error e => .failed e
  | inbound supported, request =>
    match negotiateInbound request supported with
    | .ok reply => (reply.protocol.map Outcome.ready).getD (.failed "protocol not supported")
    | .error e => .failed e

/-- The outcome after some bytes. -/
def verdict (side : Side) (bytes : Bytes) : Outcome :=
  match exchangeSpan bytes with
  | .ok span => side.judge (bytes.take span)
  | .error e => if isIncompleteError e then .pending else .failed e

/-- What is written for some bytes: the proposal whatever they are, or the reply to a
    proposal. -/
def said : Side → Bytes → List Bytes
  | outbound desired, _ => [encodeMessage header ++ encodeMessage desired]
  | inbound supported, bytes =>
    match exchangeSpan bytes with
    | .ok span =>
      match negotiateInbound (bytes.take span) supported with
      | .ok reply => [reply.outbound]
      | .error _ => []
    | .error _ => []

/-- What is written before the other side is heard. -/
def opening : Side → List Bytes
  | outbound desired => [encodeMessage header ++ encodeMessage desired]
  | inbound _ => []

/-- The stage in which the other side is heard. -/
def awaiting : Side → NegotiationStage
  | outbound _ => .awaitingOutboundResponse
  | inbound _ => .awaitingInboundProposal

theorem judge_ne_pending (side : Side) (exchange : Bytes) : side.judge exchange ≠ .pending := by
  intro h
  unfold judge at h
  cases side with
  | outbound desired =>
    dsimp only at h
    cases hread : readOutboundResponse exchange desired <;> rw [hread] at h <;> cases h
  | inbound supported =>
    dsimp only at h
    cases hnegotiate : negotiateInbound exchange supported with
    | error e =>
      rw [hnegotiate] at h
      cases h
    | ok reply =>
      rw [hnegotiate] at h
      rcases reply with ⟨_, _ | _⟩ <;> cases h

/-- The span of an exchange that has an outcome. -/
theorem span_append {side : Side} {bytes : Bytes} (h : side.verdict bytes ≠ .pending) (more : Bytes) :
    exchangeSpan (bytes ++ more) = exchangeSpan bytes := by
  unfold verdict at h
  cases hspan : exchangeSpan bytes with
  | ok span => exact exchangeSpan_append hspan more
  | error e =>
    rw [hspan] at h
    dsimp only at h
    split_ifs at h with hincomplete
    · exact absurd rfl h
    · exact exchangeSpan_error_append hspan (Bool.eq_false_iff.mpr hincomplete) more

theorem verdict_append {side : Side} {bytes : Bytes} (h : side.verdict bytes ≠ .pending) (more : Bytes) :
    side.verdict (bytes ++ more) = side.verdict bytes := by
  unfold verdict
  rw [span_append h]
  cases hspan : exchangeSpan bytes with
  | ok span =>
    dsimp only
    rw [List.take_append_of_le_length (exchangeSpan_le hspan)]
  | error e => rfl

theorem said_append {side : Side} {bytes : Bytes} (h : side.verdict bytes ≠ .pending) (more : Bytes) :
    side.said (bytes ++ more) = side.said bytes := by
  cases side with
  | outbound desired => rfl
  | inbound supported =>
    unfold said
    dsimp only
    rw [span_append h]
    cases hspan : exchangeSpan bytes with
    | ok span =>
      dsimp only
      rw [List.take_append_of_le_length (exchangeSpan_le hspan)]
    | error e => rfl

theorem verdict_of_span {side : Side} {bytes : Bytes} {span : ℕ} (h : exchangeSpan bytes = .ok span) :
    side.verdict bytes = side.judge (bytes.take span) := by
  unfold verdict
  rw [h]

/-- The reply to a whole proposal. -/
theorem said_reply {supported : List ProtocolId} {bytes : Bytes} {span : ℕ} {reply : InboundNegotiation}
    (h : exchangeSpan bytes = .ok span)
    (hnegotiate : negotiateInbound (bytes.take span) supported = .ok reply) :
    (inbound supported).said bytes = [reply.outbound] := by
  unfold said
  dsimp only
  rw [h]
  dsimp only
  rw [hnegotiate]

/-- A proposal that is malformed is not replied to. -/
theorem said_refused {supported : List ProtocolId} {bytes : Bytes} {span : ℕ} {e : String}
    (h : exchangeSpan bytes = .ok span)
    (hnegotiate : negotiateInbound (bytes.take span) supported = .error e) :
    (inbound supported).said bytes = [] := by
  unfold said
  dsimp only
  rw [h]
  dsimp only
  rw [hnegotiate]

theorem said_pending {side : Side} {bytes : Bytes} {e : String} (h : exchangeSpan bytes = .error e) :
    side.said bytes = side.opening := by
  cases side with
  | outbound desired => rfl
  | inbound supported =>
    unfold said
    dsimp only
    rw [h]
    rfl

/-- An outcome that is a protocol takes one message of either side. -/
theorem said_ready {side : Side} {bytes : Bytes} {protocol : ProtocolId}
    (h : side.verdict bytes = .ready protocol) : ∃ message, side.said bytes = [message] := by
  cases side with
  | outbound desired => exact ⟨_, rfl⟩
  | inbound supported =>
    unfold verdict judge at h
    unfold said
    dsimp only at h ⊢
    cases hspan : exchangeSpan bytes with
    | error e =>
      rw [hspan] at h
      dsimp only at h
      split_ifs at h
    | ok span =>
      rw [hspan] at h
      dsimp only at h ⊢
      cases hnegotiate : negotiateInbound (bytes.take span) supported with
      | error e =>
        rw [hnegotiate] at h
        cases h
      | ok reply => exact ⟨_, rfl⟩

end Side

namespace ProtocolNegotiatingStream

/-- The side that a stream takes in the exchange. -/
def side (neg : ProtocolNegotiatingStream) : Side :=
  if neg.inbound then .inbound neg.supportedProtocols else .outbound neg.desiredProtocol

/-- How the negotiation of a stream stands. -/
def outcome (neg : ProtocolNegotiatingStream) : Outcome :=
  if neg.isNegotiated then .ready (neg.negotiatedProtocol.getD [])
  else if neg.hasFailed then .failed neg.failureText
  else .pending

end ProtocolNegotiatingStream

/-! ## Runs -/

namespace Negotiator

variable {τ : Type}

/-- All bytes that have come to `inner_`: those it has given and those it has. -/
def arrived (m : Negotiator τ) (s : τ × List InnerCall) : Bytes := given s.2 ++ m.innerBuffered s.1

/-- What the owner of a negotiation has done: the number of its calls, the bytes that had come
    to `inner_` when it last called an undecided negotiation, the bytes that `try_read` has
    returned and the data that `try_write` has taken. -/
structure Owner where
  calls : ℕ := 0
  heard : Bytes := []
  got : Bytes := []
  put : List Bytes := []

/-- One more call, in the state `s`. -/
def Owner.call (o : Owner) (m : Negotiator τ) (s : τ × List InnerCall) : Owner :=
  { o with
    calls := o.calls + 1
    heard := if (m.this s.1).outcome = .pending then m.arrived s else o.heard }

/-- The states that the calls of the owner lead to, each with the journal of the calls of
    `inner_`. Between them bytes come to `inner_`, or anything else happens to it. -/
inductive Drives (m : Negotiator τ) (first : τ) : τ × List InnerCall → Owner → Prop
  | start : Drives m first (first, []) {}
  | poll {s : τ × List InnerCall} {o : Owner} (h : Drives m first s o) :
    Drives m first (m.journaled.poll s).2 (o.call m s)
  | tryRead {s : τ × List InnerCall} {o : Owner} (size : ℕ) (h : Drives m first s o) :
    Drives m first (m.journaled.tryRead size s).2
      { o.call m s with got := o.got ++ (m.journaled.tryRead size s).1.toOption.getD [] }
  | tryWrite {s : τ × List InnerCall} {o : Owner} (data : Bytes) (h : Drives m first s o) :
    Drives m first (m.journaled.tryWrite data s).2
      { o.call m s with put := o.put ++ accepted data (m.journaled.tryWrite data s).1 }
  | closeWrite {s : τ × List InnerCall} {o : Owner} (h : Drives m first s o) :
    Drives m first (m.journaled.closeWrite s).2 (o.call m s)
  | outside {s : τ × List InnerCall} {o : Owner} {t : τ} (h : Drives m first s o)
    (hthis : m.this t = m.this s.1) : Drives m first (t, s.2) o

/-- A negotiation that was polled or is inbound, with the bytes that decide it, what `inner_`
    has given and taken, and what its owner has got and put. -/
inductive Stands (side : Side) : ProtocolNegotiatingStream → Bytes → Bytes → List Bytes → Bytes →
    List Bytes → Prop
  | waiting (neg : ProtocolNegotiatingStream) (heard : Bytes) (hside : neg.side = side)
    (hstage : neg.stage = side.awaiting) (hbuffer : neg.negotiationBuffer = heard)
    (hrest : neg.appRxBuffer = []) (hverdict : side.verdict heard = .pending) :
    Stands side neg heard heard (side.said heard) [] []
  | ready (neg : ProtocolNegotiatingStream) (heard given got : Bytes) (put : List Bytes) (span : ℕ)
    (protocol : ProtocolId) (hstage : neg.stage = .ready)
    (hprotocol : neg.negotiatedProtocol = some protocol) (hspan : exchangeSpan heard = .ok span)
    (hverdict : side.verdict heard = .ready protocol) (hheard : heard <+: given)
    (hrest : got ++ neg.appRxBuffer = given.drop span) :
    Stands side neg heard given (side.said heard ++ put) got put
  | failed (neg : ProtocolNegotiatingStream) (heard : Bytes) (detail : String)
    (hstage : neg.stage = .failed) (hdetail : neg.failureDetail = some detail)
    (hverdict : side.verdict heard = .failed detail) :
    Stands side neg heard heard (side.said heard) [] []

/-- How a negotiation stands in a state of a run. -/
def StandsAt (m : Negotiator τ) (side : Side) (s : τ × List InnerCall) (o : Owner) : Prop :=
  Stands side (m.this s.1) o.heard (given s.2) (written s.2) o.got o.put

/-- All calls in a journal were as the negotiation needs them. -/
def Proper (journal : List InnerCall) : Prop := ∀ c ∈ journal, c.Proper

instance (journal : List InnerCall) : Decidable (Proper journal) := by
  unfold Proper
  infer_instance

theorem proper_concat {journal : List InnerCall} {c : InnerCall} :
    Proper (journal ++ [c]) ↔ Proper journal ∧ c.Proper := by
  simp [Proper, or_imp, forall_and]

theorem Proper.of_prefix {journal journal' : List InnerCall} (h : Proper journal')
    (hstarts : journal <+: journal') : Proper journal :=
  fun c hc => h c (hstarts.subset hc)

variable {m : Negotiator τ} {side : Side} {s : τ × List InnerCall}

/-! ### The journal grows -/

/-- Nothing is struck out of the journal. -/
def Grows (s s' : τ × List InnerCall) : Prop := s.2 <+: s'.2

theorem grows_refl (s : τ × List InnerCall) : Grows s s := List.prefix_rfl

theorem grows_trans (a b c : τ × List InnerCall) (h : Grows a b) (h' : Grows b c) : Grows a c :=
  List.IsPrefix.trans h h'

theorem grows_innerTryRead (size : ℕ) : Op.Preserves Grows (m.journaled.innerTryRead size) :=
  fun _ => ⟨_, rfl⟩

theorem grows_innerTryWrite (data : Bytes) : Op.Preserves Grows (m.journaled.innerTryWrite data) :=
  fun _ => ⟨_, rfl⟩

theorem grows_innerCloseWrite : Op.Preserves Grows m.journaled.innerCloseWrite := fun _ => ⟨_, rfl⟩

theorem grows_change (f : ProtocolNegotiatingStream → ProtocolNegotiatingStream) :
    Op.Preserves Grows (Op.modify (m.journaled.change f)) := fun _ => List.prefix_rfl

theorem grows_failing {α : Type} {x : Op (τ × List InnerCall) α} (h : Op.Preserves Grows x) :
    Op.Preserves Grows (m.journaled.failing x) := fun s => by
  have hx := h s
  unfold failing
  rcases hrun : x s with ⟨e | a, s'⟩ <;> rw [hrun] at hx <;> exact hx

theorem grows_readLoop (fuel : ℕ) : Op.Preserves Grows (m.journaled.readLoop fuel) := by
  induction fuel with
  | zero => exact grows_refl
  | succ fuel ih =>
    intro s
    have hread := grows_innerTryRead (m := m) 1024 s
    unfold readLoop
    rcases hrun : m.journaled.innerTryRead 1024 s with ⟨e | _ | ⟨b, bytes⟩, s'⟩ <;> rw [hrun] at hread
    · dsimp only
      split_ifs <;> exact hread
    · dsimp only
      split_ifs <;> exact hread
    · refine grows_trans _ s' _ hread ?_
      exact ih (m.journaled.change (fun neg =>
        { neg with negotiationBuffer := neg.negotiationBuffer ++ b :: bytes }) s')

theorem grows_awaitResponse : Op.Preserves Grows m.journaled.awaitResponse := by
  refine .bind grows_trans (.get grows_refl) fun s => ?_
  cases exchangeSpan (m.journaled.this s).negotiationBuffer with
  | error e =>
    dsimp only
    split_ifs
    · exact .pure grows_refl ()
    · exact .fail grows_refl e
  | ok span => exact .bind grows_trans (.ofResult grows_refl _) fun _ => grows_change _

theorem grows_answerProposal : Op.Preserves Grows m.journaled.answerProposal := by
  refine .bind grows_trans (.get grows_refl) fun s => ?_
  cases exchangeSpan (m.journaled.this s).negotiationBuffer with
  | error e =>
    dsimp only
    split_ifs
    · exact .pure grows_refl ()
    · exact .fail grows_refl e
  | ok span =>
    refine .bind grows_trans (.ofResult grows_refl _) fun negotiation => ?_
    refine .bind grows_trans (grows_innerTryWrite _) fun _ => ?_
    cases negotiation.protocol with
    | none =>
      exact .bind grows_trans (fun s => grows_innerCloseWrite s) fun _ => .fail grows_refl _
    | some protocol => exact grows_change _

/-- The last part of `poll`. -/
def hear (m : Negotiator τ) : Op τ Unit := do
  let t ← Op.get
  if (m.this t).stage = .awaitingOutboundResponse then m.failing m.awaitResponse
  else if (m.this t).stage = .awaitingInboundProposal then m.failing m.answerProposal
  else pure ()

theorem grows_hear : Op.Preserves Grows m.journaled.hear := by
  refine .bind grows_trans (.get grows_refl) fun s => ?_
  split_ifs
  · exact grows_failing grows_awaitResponse
  · exact grows_failing grows_answerProposal
  · exact .pure grows_refl ()

/-- What has come is read and heard. -/
def listen (m : Negotiator τ) : Op τ Unit := do
  m.failing m.readIntoNegotiationBuffer
  m.hear

theorem grows_listen : Op.Preserves Grows m.journaled.listen :=
  .bind grows_trans (grows_failing fun s => grows_readLoop _ s) fun _ => grows_hear

theorem grows_sendProposal : Op.Preserves Grows m.journaled.sendProposal :=
  .bind grows_trans (.get grows_refl) fun _ => .bind grows_trans (.ofResult grows_refl _) fun _ =>
    .bind grows_trans (grows_innerTryWrite _) fun _ => grows_change _

theorem poll_awaiting (side : Side) {t : τ} (hstage : (m.this t).stage = side.awaiting) :
    m.poll t = m.listen t := by
  unfold poll
  rw [Op.bind_apply, Op.get_apply]
  simp only [hstage]
  cases side <;> rfl

theorem poll_sending {t : τ} (hstage : (m.this t).stage = .sendingOutboundProposal) :
    m.poll t = (m.failing m.sendProposal >>= fun _ => m.listen) t := by
  unfold poll
  rw [Op.bind_apply, Op.get_apply]
  simp only [hstage]
  rfl

theorem poll_ready {t : τ} (hstage : (m.this t).stage = .ready) : m.poll t = (.ok (), t) := by
  unfold poll
  rw [Op.bind_apply, Op.get_apply]
  simp only [hstage]
  rfl

theorem poll_failed {t : τ} (hstage : (m.this t).stage = .failed) :
    m.poll t = (.error (m.this t).failureText, t) := by
  unfold poll
  rw [Op.bind_apply, Op.get_apply]
  simp only [hstage]
  rfl

theorem grows_poll : Op.Preserves Grows m.journaled.poll := fun s => by
  cases hstage : (m.journaled.this s).stage with
  | sendingOutboundProposal =>
    rw [poll_sending hstage]
    exact Op.Preserves.bind grows_trans (grows_failing grows_sendProposal) (fun _ => grows_listen) s
  | awaitingOutboundResponse =>
    rw [poll_awaiting (.outbound []) hstage]
    exact grows_listen s
  | awaitingInboundProposal =>
    rw [poll_awaiting (.inbound []) hstage]
    exact grows_listen s
  | ready =>
    rw [poll_ready hstage]
    exact grows_refl s
  | failed =>
    rw [poll_failed hstage]
    exact grows_refl s

/-! ### Reading -/

/-- What a read of `inner_` does during a negotiation. -/
theorem innerTryRead_spec (hm : Lawful m) (hstage : (m.this s.1).stage ≠ .ready)
    (hproper : Proper (m.journaled.innerTryRead 1024 s).2.2) :
    let r := m.journaled.innerTryRead 1024 s
    m.this r.2.1 = m.this s.1 ∧ written r.2.2 = written s.2 ∧
      ((r.1 = .error "EAGAIN" ∧ m.innerBuffered s.1 = [] ∧ m.innerBuffered r.2.1 = [] ∧
          given r.2.2 = given s.2) ∨
        ∃ bytes, r.1 = .ok bytes ∧ (bytes = [] → m.innerBuffered s.1 = [] ∧ m.innerIsOpen r.2.1 = true) ∧
          m.innerBuffered s.1 = bytes ++ m.innerBuffered r.2.1 ∧ given r.2.2 = given s.2 ++ bytes) := by
  intro r
  have hlog : r.2.2 = s.2 ++ [.tryRead (m.this s.1).stage (m.innerBuffered s.1)
      (m.innerBuffered r.2.1) r.1 (m.innerIsOpen r.2.1)] := rfl
  have hcall := (proper_concat.mp (hlog ▸ hproper)).2
  have hgiven : given r.2.2 = given s.2 ++ r.1.toOption.getD [] := by
    rw [hlog, given_concat]
    rfl
  have hwritten : written r.2.2 = written s.2 := by
    rw [hlog, written_concat]
    exact List.append_nil _
  refine ⟨hm.read 1024 s.1, hwritten, ?_⟩
  rcases hcall with hready | ⟨hagain, hbefore, hafter⟩ | ⟨hnone, hsome, hbefore⟩
  · exact absurd hready hstage
  · refine .inl ⟨hagain, hbefore, hafter, ?_⟩
    rw [hgiven, hagain]
    exact List.append_nil _
  · cases hresult : r.1 with
    | error e =>
      rw [hresult] at hsome
      cases hsome
    | ok bytes =>
      rw [hresult] at hnone hbefore hgiven
      exact .inr ⟨bytes, rfl, hnone, hbefore, hgiven⟩

/-- The loop reads all that has come, however it is cut. -/
theorem readLoop_spec (hm : Lawful m) (fuel : ℕ) {s : τ × List InnerCall}
    (hstage : (m.this s.1).stage ≠ .ready) (hfuel : (m.innerBuffered s.1).length < fuel)
    (hproper : Proper (m.journaled.readLoop fuel s).2.2) :
    let s' := (m.journaled.readLoop fuel s).2
    (m.journaled.readLoop fuel s).1 = .ok () ∧
      m.this s'.1 = { m.this s.1 with
        negotiationBuffer := (m.this s.1).negotiationBuffer ++ m.innerBuffered s.1 } ∧
      given s'.2 = m.arrived s ∧ written s'.2 = written s.2 ∧ m.innerBuffered s'.1 = [] := by
  induction fuel generalizing s with
  | zero => omega
  | succ fuel ih =>
    have hread : Proper (m.journaled.innerTryRead 1024 s).2.2 := by
      refine hproper.of_prefix ?_
      unfold readLoop
      rcases m.journaled.innerTryRead 1024 s with ⟨e | _ | ⟨b, bytes⟩, s'⟩
      · dsimp only
        split_ifs <;> exact List.prefix_rfl
      · dsimp only
        split_ifs <;> exact List.prefix_rfl
      · exact grows_readLoop fuel (m.journaled.change (fun neg =>
          { neg with negotiationBuffer := neg.negotiationBuffer ++ b :: bytes }) s')
    obtain ⟨hthis, hwritten, hresult⟩ := innerTryRead_spec hm hstage hread
    unfold readLoop at hproper ⊢
    unfold arrived
    generalize m.journaled.innerTryRead 1024 s = r at *
    obtain ⟨result, s'⟩ := r
    dsimp only at hthis hwritten hresult
    rcases hresult with ⟨rfl, hnone, hleft, hgiven⟩ | ⟨bytes, rfl, hopen, hbuffered, hgiven⟩
    · rw [hnone, List.append_nil, List.append_nil]
      exact ⟨rfl, hthis, hgiven, hwritten, hleft⟩
    · cases bytes with
      | nil =>
        obtain ⟨hnone, hstill⟩ := hopen rfl
        have hstill' : m.journaled.innerIsOpen s' = true := hstill
        dsimp only
        rw [if_pos hstill']
        rw [List.nil_append] at hbuffered
        rw [List.append_nil] at hgiven
        rw [hnone, List.append_nil, List.append_nil]
        exact ⟨rfl, hthis, hgiven, hwritten, hbuffered.symm.trans hnone⟩
      | cons b bytes =>
        -- the loop goes on with what is left
        let f := fun neg : ProtocolNegotiatingStream =>
          { neg with negotiationBuffer := neg.negotiationBuffer ++ b :: bytes }
        have hchange : m.this (m.change f s'.1) = f (m.this s'.1) := hm.change f s'.1
        have hkept : m.innerBuffered (m.change f s'.1) = m.innerBuffered s'.1 :=
          hm.buffered f s'.1 fun _ => ⟨rfl, rfl⟩
        have hstage' : (m.this (m.change f s'.1)).stage ≠ .ready := by
          rw [hchange, hthis]
          exact hstage
        have hfuel' : (m.innerBuffered (m.change f s'.1)).length < fuel := by
          rw [hbuffered, List.length_append, List.length_cons] at hfuel
          rw [hkept]
          omega
        obtain ⟨hdone, hthis', hgiven', hwritten', hleft⟩ :=
          ih (s := m.journaled.change f s') hstage' hfuel' hproper
        refine ⟨hdone, hthis'.trans ?_, hgiven'.trans ?_, hwritten'.trans hwritten, hleft⟩
        · show { m.this (m.change f s'.1) with
            negotiationBuffer := (m.this (m.change f s'.1)).negotiationBuffer ++
              m.innerBuffered (m.change f s'.1) } = _
          rw [hchange, hkept, hthis, hbuffered, ← List.append_assoc]
        · show given s'.2 ++ m.innerBuffered (m.change f s'.1) = _
          rw [hkept, hgiven, hbuffered, List.append_assoc]

/-! ### Hearing the other side -/

theorem failing_of_ok {σ α : Type} {m : Negotiator σ} {x : Op σ α} {t : σ} {a : α}
    (h : (x t).1 = .ok a) : m.failing x t = x t := by
  unfold failing
  generalize x t = result at *
  obtain ⟨r, t'⟩ := result
  obtain rfl : r = .ok a := h
  rfl

theorem failing_of_error {σ α : Type} {m : Negotiator σ} {x : Op σ α} {t : σ} {e : String}
    (h : (x t).1 = .error e) : m.failing x t =
      (.error e, m.change (fun neg => { neg with stage := .failed, failureDetail := some e }) (x t).2) := by
  unfold failing
  generalize x t = result at *
  obtain ⟨r, t'⟩ := result
  obtain rfl : r = .error e := h
  rfl

/-- A negotiation that is decided by the bytes it has read, and where its owner has got and put
    nothing. -/
def Hears (m : Negotiator τ) (side : Side) (s s' : τ × List InnerCall) : Prop :=
  Stands side (m.this s'.1) (given s.2) (given s'.2) (written s'.2) [] []

/-- The negotiation fails for the bytes received. -/
theorem fail_hears (hm : Lawful m) {e : String} (hverdict : side.verdict (given s.2) = .failed e)
    (hwritten : written s.2 = side.said (given s.2)) :
    Hears m side s
      (m.journaled.change (fun neg => { neg with stage := .failed, failureDetail := some e }) s) := by
  show Stands side (m.this (m.change _ s.1)) (given s.2) (given s.2) (written s.2) [] []
  rw [hm.change, hwritten]
  exact .failed _ _ e rfl rfl hverdict

/-- The negotiation is over, and what is behind the exchange is kept. -/
theorem finish_hears (hm : Lawful m) {protocol : ProtocolId} {span : ℕ}
    (hbuffer : (m.this s.1).negotiationBuffer = given s.2) (hrest : (m.this s.1).appRxBuffer = [])
    (hspan : exchangeSpan (given s.2) = .ok span) (hverdict : side.verdict (given s.2) = .ready protocol)
    (hwritten : written s.2 = side.said (given s.2)) :
    Hears m side s
      (m.journaled.change (fun neg => { neg with negotiatedProtocol := some protocol }.finish span) s) := by
  show Stands side (m.this (m.change _ s.1)) (given s.2) (given s.2) (written s.2) [] []
  rw [hm.change, hwritten, ← List.append_nil (side.said _)]
  refine .ready _ _ _ [] [] span protocol rfl rfl hspan hverdict List.prefix_rfl ?_
  show (m.this s.1).appRxBuffer ++ (m.this s.1).negotiationBuffer.drop span = _
  rw [hrest, hbuffer]
  rfl

/-- The exchange is not complete, or malformed. -/
theorem hears_of_error (hm : Lawful m) {x : Op (τ × List InnerCall) Unit} {e : String}
    (hside : (m.this s.1).side = side) (hstage : (m.this s.1).stage = side.awaiting)
    (hbuffer : (m.this s.1).negotiationBuffer = given s.2) (hrest : (m.this s.1).appRxBuffer = [])
    (hwritten : written s.2 = side.opening) (hspan : exchangeSpan (given s.2) = .error e)
    (hx : x s = (if isIncompleteError e then pure () else Op.fail e : Op (τ × List InnerCall) Unit) s) :
    Hears m side s (m.journaled.failing x s).2 := by
  rw [← Side.said_pending hspan] at hwritten
  split_ifs at hx with hincomplete
  · rw [failing_of_ok (a := ()) (by rw [hx]; rfl), hx, Op.pure_apply, Hears, hwritten]
    refine .waiting _ _ hside hstage hbuffer hrest ?_
    unfold Side.verdict
    rw [hspan]
    exact if_pos hincomplete
  · rw [failing_of_error (e := e) (by rw [hx]; rfl), hx, Op.fail_apply]
    refine fail_hears hm ?_ hwritten
    unfold Side.verdict
    rw [hspan]
    exact if_neg hincomplete

theorem side_eq_outbound {neg : ProtocolNegotiatingStream} {desired : ProtocolId}
    (h : neg.side = .outbound desired) : neg.desiredProtocol = desired := by
  unfold ProtocolNegotiatingStream.side at h
  split_ifs at h
  exact Side.outbound.inj h

theorem side_eq_inbound {neg : ProtocolNegotiatingStream} {supported : List ProtocolId}
    (h : neg.side = .inbound supported) : neg.supportedProtocols = supported := by
  unfold ProtocolNegotiatingStream.side at h
  split_ifs at h
  exact Side.inbound.inj h

theorem awaitResponse_of_error {t : τ} {e : String}
    (h : exchangeSpan (m.this t).negotiationBuffer = .error e) :
    m.awaitResponse t = (if isIncompleteError e then pure () else Op.fail e : Op τ Unit) t := by
  unfold awaitResponse
  rw [Op.get_bind, h]

theorem awaitResponse_of_span {t : τ} {span : ℕ}
    (h : exchangeSpan (m.this t).negotiationBuffer = .ok span) :
    m.awaitResponse t = (do
      let selected ← Op.ofResult (readOutboundResponse
        ((m.this t).negotiationBuffer.take span) (m.this t).desiredProtocol)
      Op.modify (m.change fun neg => { neg with negotiatedProtocol := some selected }.finish span) :
      Op τ Unit) t := by
  unfold awaitResponse
  rw [Op.get_bind, h]

theorem awaitResponse_hears (hm : Lawful m) {desired : ProtocolId}
    (hside : (m.this s.1).side = .outbound desired) (hstage : (m.this s.1).stage = .awaitingOutboundResponse)
    (hbuffer : (m.this s.1).negotiationBuffer = given s.2) (hrest : (m.this s.1).appRxBuffer = [])
    (hwritten : written s.2 = Side.opening (.outbound desired)) :
    Hears m (.outbound desired) s (m.journaled.failing m.journaled.awaitResponse s).2 := by
  cases hspan : exchangeSpan (given s.2) with
  | error e =>
    exact hears_of_error hm hside hstage hbuffer hrest hwritten hspan
      (awaitResponse_of_error (m := m.journaled) (hbuffer.symm ▸ hspan))
  | ok span =>
    have hawait := awaitResponse_of_span (m := m.journaled) (t := s) (hbuffer.symm ▸ hspan)
    rw [show (m.journaled.this s).negotiationBuffer = given s.2 from hbuffer,
      show (m.journaled.this s).desiredProtocol = desired from side_eq_outbound hside] at hawait
    have hverdict : Side.verdict (.outbound desired) (given s.2) = _ := Side.verdict_of_span hspan
    unfold Side.judge at hverdict
    dsimp only at hverdict
    cases hread : readOutboundResponse ((given s.2).take span) desired with
    | error e =>
      rw [hread] at hawait hverdict
      rw [failing_of_error (e := e) (by rw [hawait]; rfl), hawait]
      exact fail_hears hm hverdict hwritten
    | ok protocol =>
      rw [hread] at hawait hverdict
      rw [failing_of_ok (a := ()) (by rw [hawait]; rfl), hawait]
      exact finish_hears hm hbuffer hrest hspan hverdict hwritten

/-- What a write of `inner_` does during a negotiation. -/
theorem innerTryWrite_spec (hm : Lawful m) (hstage : (m.this s.1).stage ≠ .ready) {data : Bytes}
    (hproper : Proper (m.journaled.innerTryWrite data s).2.2) :
    let r := m.journaled.innerTryWrite data s
    r.1 = .ok data.length ∧ m.this r.2.1 = m.this s.1 ∧ m.innerBuffered r.2.1 = m.innerBuffered s.1 ∧
      given r.2.2 = given s.2 ∧ written r.2.2 = written s.2 ++ [data] := by
  intro r
  have hlog : r.2.2 = s.2 ++ [.tryWrite (m.this s.1).stage (m.innerBuffered s.1)
      (m.innerBuffered r.2.1) data r.1] := rfl
  have hcall := (proper_concat.mp (hlog ▸ hproper)).2
  obtain ⟨hresult, hkept⟩ := Or.resolve_left hcall hstage
  refine ⟨hresult, hm.write data s.1, hkept, ?_, ?_⟩
  · rw [hlog, given_concat]
    exact List.append_nil _
  · rw [hlog, written_concat]
    show written s.2 ++ accepted data r.1 = _
    rw [hresult]
    simp [accepted, Except.toOption]

theorem answerProposal_of_error {t : τ} {e : String}
    (h : exchangeSpan (m.this t).negotiationBuffer = .error e) :
    m.answerProposal t = (if isIncompleteError e then pure () else Op.fail e : Op τ Unit) t := by
  unfold answerProposal
  rw [Op.get_bind, h]

section Answers

variable {t : τ} {span : ℕ} {reply : InboundNegotiation}

theorem answerProposal_of_malformed {e : String}
    (h : exchangeSpan (m.this t).negotiationBuffer = .ok span)
    (hnegotiate : negotiateInbound ((m.this t).negotiationBuffer.take span)
      (m.this t).supportedProtocols = .error e) : m.answerProposal t = (.error e, t) := by
  unfold answerProposal
  rw [Op.get_bind, h]
  dsimp only
  rw [hnegotiate]
  rfl

/-- The proposal is refused. -/
theorem answerProposal_of_none (h : exchangeSpan (m.this t).negotiationBuffer = .ok span)
    (hnegotiate : negotiateInbound ((m.this t).negotiationBuffer.take span)
      (m.this t).supportedProtocols = .ok reply) (hprotocol : reply.protocol = none) :
    m.answerProposal t = (do
      let _ ← m.innerTryWrite reply.outbound
      Op.modify fun t => (m.innerCloseWrite t).2
      Op.fail "protocol not supported" : Op τ Unit) t := by
  unfold answerProposal
  rw [Op.get_bind, h]
  dsimp only
  rw [hnegotiate]
  show (m.innerTryWrite reply.outbound >>= _) t = _
  rw [hprotocol]

/-- The proposal is accepted. -/
theorem answerProposal_of_some (h : exchangeSpan (m.this t).negotiationBuffer = .ok span)
    (hnegotiate : negotiateInbound ((m.this t).negotiationBuffer.take span)
      (m.this t).supportedProtocols = .ok reply) {protocol : ProtocolId}
    (hprotocol : reply.protocol = some protocol) :
    m.answerProposal t = (do
      let _ ← m.innerTryWrite reply.outbound
      Op.modify (m.change fun neg => { neg with negotiatedProtocol := some protocol }.finish span) :
      Op τ Unit) t := by
  unfold answerProposal
  rw [Op.get_bind, h]
  dsimp only
  rw [hnegotiate]
  show (m.innerTryWrite reply.outbound >>= _) t = _
  rw [hprotocol]

end Answers

/-- The reply is written in full, whatever follows. -/
theorem after_reply (hm : Lawful m) (hstage : (m.this s.1).stage ≠ .ready)
    (hwritten : written s.2 = [])
    (hproper : Proper (m.journaled.failing m.journaled.answerProposal s).2.2)
    {outbound : Bytes} {y : Op (τ × List InnerCall) Unit}
    (hanswer : m.journaled.answerProposal s = (m.journaled.innerTryWrite outbound >>= fun _ => y) s)
    (hy : Op.Preserves Grows y) :
    ∃ s', m.journaled.answerProposal s = y s' ∧ m.this s'.1 = m.this s.1 ∧ given s'.2 = given s.2 ∧
      written s'.2 = [outbound] := by
  have hgrows : Grows (m.journaled.innerTryWrite outbound s).2
      (m.journaled.failing m.journaled.answerProposal s).2 := by
    have hfailing : (m.journaled.failing m.journaled.answerProposal s).2.2 =
        (m.journaled.answerProposal s).2.2 := by
      unfold failing
      rcases m.journaled.answerProposal s with ⟨e | u, s'⟩ <;> rfl
    unfold Grows
    rw [hfailing, hanswer, Op.bind_apply]
    rcases m.journaled.innerTryWrite outbound s with ⟨e | n, s'⟩
    · exact List.prefix_rfl
    · exact hy s'
  obtain ⟨hfull, hthis, -, hgiven, hwrote⟩ := innerTryWrite_spec hm hstage (hproper.of_prefix hgrows)
  rw [hwritten, List.nil_append] at hwrote
  refine ⟨_, ?_, hthis, hgiven, hwrote⟩
  rw [hanswer]
  exact Op.bind_of_ok (Prod.ext hfull rfl)

theorem answerProposal_hears (hm : Lawful m) {supported : List ProtocolId}
    (hside : (m.this s.1).side = .inbound supported) (hstage : (m.this s.1).stage = .awaitingInboundProposal)
    (hbuffer : (m.this s.1).negotiationBuffer = given s.2) (hrest : (m.this s.1).appRxBuffer = [])
    (hwritten : written s.2 = []) (hproper : Proper (m.journaled.failing m.journaled.answerProposal s).2.2) :
    Hears m (.inbound supported) s (m.journaled.failing m.journaled.answerProposal s).2 := by
  have hlisten : (m.this s.1).stage ≠ .ready := by
    rw [hstage]
    exact nofun
  cases hspan : exchangeSpan (given s.2) with
  | error e =>
    exact hears_of_error hm hside hstage hbuffer hrest hwritten hspan
      (answerProposal_of_error (m := m.journaled) (hbuffer.symm ▸ hspan))
  | ok span =>
    have hspan' : exchangeSpan (m.journaled.this s).negotiationBuffer = .ok span := hbuffer.symm ▸ hspan
    have hbytes : (m.journaled.this s).negotiationBuffer.take span = (given s.2).take span :=
      congrArg (List.take span) hbuffer
    have hsupported : (m.journaled.this s).supportedProtocols = supported := side_eq_inbound hside
    have hverdict : Side.verdict (.inbound supported) (given s.2) = _ := Side.verdict_of_span hspan
    unfold Side.judge at hverdict
    dsimp only at hverdict
    cases hnegotiate : negotiateInbound ((given s.2).take span) supported with
    | error e =>
      have hanswer := answerProposal_of_malformed hspan' (hbytes.symm ▸ hsupported.symm ▸ hnegotiate)
      rw [hnegotiate] at hverdict
      rw [failing_of_error (e := e) (by rw [hanswer]), hanswer]
      exact fail_hears hm hverdict (hwritten.trans (Side.said_refused hspan hnegotiate).symm)
    | ok reply =>
      have hsaid := Side.said_reply hspan hnegotiate
      have hnegotiate' : negotiateInbound ((m.journaled.this s).negotiationBuffer.take span)
          (m.journaled.this s).supportedProtocols = .ok reply := by
        rw [hbytes, hsupported]
        exact hnegotiate
      rw [hnegotiate] at hverdict
      dsimp only at hverdict
      cases hprotocol : reply.protocol with
      | none =>
        obtain ⟨s', hanswer, -, hgiven, hwrote⟩ := after_reply hm hlisten hwritten hproper
          (answerProposal_of_none hspan' hnegotiate' hprotocol) fun s => grows_innerCloseWrite s
        rw [failing_of_error (e := "protocol not supported") (by rw [hanswer]; rfl), hanswer]
        have hlog : (m.journaled.innerCloseWrite s').2.2 = s'.2 ++ [.closeWrite] := rfl
        have hquiet : given (m.journaled.innerCloseWrite s').2.2 = given s.2 ∧
            written (m.journaled.innerCloseWrite s').2.2 = [reply.outbound] := by
          rw [hlog, given_concat, written_concat, hgiven, hwrote]
          exact ⟨List.append_nil _, List.append_nil _⟩
        have hfail : Hears m (.inbound supported) (m.journaled.innerCloseWrite s').2 _ :=
          fail_hears (e := "protocol not supported") hm (by rw [hquiet.1, hverdict, hprotocol]; rfl)
            (by rw [hquiet.1, hquiet.2, hsaid])
        unfold Hears at hfail ⊢
        rw [hquiet.1] at hfail
        exact hfail
      | some protocol =>
        obtain ⟨s', hanswer, hthis, hgiven, hwrote⟩ := after_reply hm hlisten hwritten hproper
          (answerProposal_of_some hspan' hnegotiate' hprotocol) (grows_change _)
        rw [failing_of_ok (a := ()) (by rw [hanswer]; rfl), hanswer]
        have hready : Side.verdict (.inbound supported) (given s.2) = .ready protocol := by
          rw [hverdict, hprotocol]
          rfl
        have hfinish : Hears m (.inbound supported) s' _ :=
          finish_hears hm (by rw [hthis, hgiven, hbuffer]) (by rw [hthis, hrest]) (by rw [hgiven, hspan])
            (by rw [hgiven, hready]) (by rw [hgiven, hwrote, hsaid])
        unfold Hears at hfinish ⊢
        rw [hgiven] at hfinish
        exact hfinish

/-- The other side is heard. -/
theorem hear_hears (hm : Lawful m) (hside : (m.this s.1).side = side)
    (hstage : (m.this s.1).stage = side.awaiting) (hbuffer : (m.this s.1).negotiationBuffer = given s.2)
    (hrest : (m.this s.1).appRxBuffer = []) (hwritten : written s.2 = side.opening)
    (hproper : Proper (m.journaled.hear s).2.2) : Hears m side s (m.journaled.hear s).2 := by
  have hhear : m.journaled.hear s = (if (m.journaled.this s).stage = .awaitingOutboundResponse then
        m.journaled.failing m.journaled.awaitResponse
      else if (m.journaled.this s).stage = .awaitingInboundProposal then
        m.journaled.failing m.journaled.answerProposal
      else pure () : Op (τ × List InnerCall) Unit) s := rfl
  rw [show (m.journaled.this s).stage = side.awaiting from hstage] at hhear
  cases side with
  | outbound desired =>
    rw [hhear]
    exact awaitResponse_hears hm hside hstage hbuffer hrest hwritten
  | inbound supported =>
    rw [hhear] at hproper ⊢
    exact answerProposal_hears hm hside hstage hbuffer hrest hwritten hproper

/-! ### One call -/

/-- What has come is read and decides. -/
theorem listen_stands (hm : Lawful m) (hside : (m.this s.1).side = side)
    (hstage : (m.this s.1).stage = side.awaiting) (hbuffer : (m.this s.1).negotiationBuffer = given s.2)
    (hrest : (m.this s.1).appRxBuffer = []) (hwritten : written s.2 = side.opening)
    (hproper : Proper (m.journaled.listen s).2.2) :
    let s' := (m.journaled.listen s).2
    Stands side (m.this s'.1) (m.arrived s) (given s'.2) (written s'.2) [] [] := by
  intro s'
  let fuel := (m.innerBuffered s.1).length + 1
  have hlisten : (m.this s.1).stage ≠ .ready := by
    rw [hstage]
    cases side <;> exact fun h => by cases h
  have hread : m.journaled.failing m.journaled.readIntoNegotiationBuffer s =
      m.journaled.failing (m.journaled.readLoop fuel) s := rfl
  have hloop : Proper (m.journaled.readLoop fuel s).2.2 := by
    refine hproper.of_prefix ?_
    have hlast : (m.journaled.readLoop fuel s).2.2 =
        (m.journaled.failing m.journaled.readIntoNegotiationBuffer s).2.2 := by
      rw [hread]
      unfold failing
      rcases m.journaled.readLoop fuel s with ⟨e | u, s'⟩ <;> rfl
    rw [hlast]
    unfold listen
    rw [Op.bind_apply]
    rcases m.journaled.failing m.journaled.readIntoNegotiationBuffer s with ⟨e | u, s'⟩
    · exact List.prefix_rfl
    · exact grows_hear s'
  obtain ⟨hdone, hthis, hgiven, hquiet, -⟩ := readLoop_spec hm fuel hlisten (Nat.lt_succ_self _) hloop
  have hrun : m.journaled.listen s = m.journaled.hear (m.journaled.readLoop fuel s).2 := by
    unfold listen
    rw [Op.bind_of_ok (hread.trans ((failing_of_ok hdone).trans (Prod.ext hdone rfl)))]
  unfold s'
  rw [hrun] at hproper ⊢
  rw [← hgiven]
  refine hear_hears hm ?_ ?_ ?_ ?_ (hquiet.trans hwritten) hproper
  · rw [hthis]
    exact hside
  · rw [hthis]
    exact hstage
  · rw [hthis, hgiven]
    show (m.this s.1).negotiationBuffer ++ m.innerBuffered s.1 = _
    rw [hbuffer]
    rfl
  · rw [hthis]
    exact hrest

/-- An undecided negotiation that is called hears all that has come. -/
theorem heard_of_pending {o : Owner} (h : (m.this s.1).outcome = .pending) :
    (o.call m s).heard = m.arrived s := if_pos h

theorem heard_of_decided {o : Owner} (h : (m.this s.1).outcome ≠ .pending) :
    (o.call m s).heard = o.heard := if_neg h

theorem outcome_pending {neg : ProtocolNegotiatingStream} (hready : neg.stage ≠ .ready)
    (hfailed : neg.stage ≠ .failed) : neg.outcome = .pending := by
  unfold ProtocolNegotiatingStream.outcome ProtocolNegotiatingStream.isNegotiated
    ProtocolNegotiatingStream.hasFailed
  simp [hready, hfailed]

/-- An outbound negotiation that nobody has called. -/
structure Untouched (side : Side) (neg : ProtocolNegotiatingStream) (journal : List InnerCall)
    (o : Owner) : Prop where
  owner : o = {}
  side_eq : neg.side = side
  outbound : ∃ desired, side = .outbound desired
  stage : neg.stage = .sendingOutboundProposal
  buffer : neg.negotiationBuffer = []
  rest : neg.appRxBuffer = []
  journal : journal = []

/-- The first call sends the proposal. -/
theorem poll_untouched (hm : Lawful m) {o : Owner} (h : Untouched side (m.this s.1) s.2 o)
    (hproper : Proper (m.journaled.poll s).2.2) :
    StandsAt m side (m.journaled.poll s).2 (o.call m s) := by
  obtain ⟨rfl, hside, ⟨desired, rfl⟩, hstage, hbuffer, hrest, hjournal⟩ := h
  have hpending : (m.this s.1).outcome = .pending :=
    outcome_pending (by rw [hstage]; exact nofun) (by rw [hstage]; exact nofun)
  let proposal := encodeMessage header ++ encodeMessage desired
  let f := fun neg : ProtocolNegotiatingStream => { neg with stage := .awaitingOutboundResponse }
  rw [poll_sending (m := m.journaled) hstage] at hproper ⊢
  have hbegin : m.journaled.sendProposal s = (m.journaled.innerTryWrite proposal >>= fun _ =>
      Op.modify (m.journaled.change f)) s := by
    unfold proposal
    rw [← side_eq_outbound hside]
    rfl
  have hwrite : Proper (m.journaled.innerTryWrite proposal s).2.2 := by
    refine hproper.of_prefix ?_
    have hlast : (m.journaled.innerTryWrite proposal s).2.2 =
        (m.journaled.failing m.journaled.sendProposal s).2.2 := by
      unfold failing
      rw [hbegin, Op.bind_apply]
      rcases m.journaled.innerTryWrite proposal s with ⟨e | u, s'⟩ <;> rfl
    rw [hlast, Op.bind_apply]
    rcases m.journaled.failing m.journaled.sendProposal s with ⟨e | u, s'⟩
    · exact List.prefix_rfl
    · exact grows_listen s'
  obtain ⟨hfull, hthis, hkept, hgiven, hwrote⟩ :=
    innerTryWrite_spec hm (by rw [hstage]; exact nofun) hwrite
  let sent := m.journaled.change f (m.journaled.innerTryWrite proposal s).2
  have hsend : m.journaled.sendProposal s = (.ok (), sent) := by
    rw [hbegin, Op.bind_of_ok (Prod.ext hfull rfl)]
    rfl
  have hchange : m.this sent.1 = f (m.this (m.journaled.innerTryWrite proposal s).2.1) := hm.change _ _
  have hstill : m.innerBuffered sent.1 = m.innerBuffered s.1 :=
    (hm.buffered f _ fun _ => ⟨rfl, rfl⟩).trans hkept
  have hsame : m.arrived sent = m.arrived s := by
    show given (m.journaled.innerTryWrite proposal s).2.2 ++ m.innerBuffered sent.1 = _
    rw [hgiven, hstill]
    rfl
  rw [Op.bind_of_ok ((failing_of_ok (a := ()) (by rw [hsend])).trans hsend)] at hproper ⊢
  unfold StandsAt
  rw [heard_of_pending hpending, ← hsame]
  refine listen_stands hm ?_ ?_ ?_ ?_ ?_ hproper
  · rw [hchange, hthis]
    exact hside
  · rw [hchange]
    rfl
  · show (m.this sent.1).negotiationBuffer = given (m.journaled.innerTryWrite proposal s).2.2
    rw [hchange, hthis, hgiven, hjournal]
    exact hbuffer
  · rw [hchange, hthis]
    exact hrest
  · show written (m.journaled.innerTryWrite proposal s).2.2 = _
    rw [hwrote, hjournal]
    rfl

theorem Stands.outcome {neg : ProtocolNegotiatingStream} {heard given got : Bytes}
    {written put : List Bytes} (h : Stands side neg heard given written got put) :
    neg.outcome = side.verdict heard := by
  unfold ProtocolNegotiatingStream.outcome ProtocolNegotiatingStream.isNegotiated
    ProtocolNegotiatingStream.hasFailed ProtocolNegotiatingStream.failureText
  cases h with
  | waiting hside hstage hbuffer hrest hverdict =>
    rw [hverdict, hstage]
    cases side <;> rfl
  | ready given got put span protocol hstage hprotocol hspan hverdict hheard hrest =>
    rw [hverdict, hstage, hprotocol]
    rfl
  | failed detail hstage hdetail hverdict =>
    rw [hverdict, hstage, hdetail]
    rfl

theorem Stands.written_eq {neg : ProtocolNegotiatingStream} {heard given got : Bytes}
    {written put : List Bytes} (h : Stands side neg heard given written got put) :
    written = side.said heard ++ put := by
  cases h with
  | waiting => exact (List.append_nil _).symm
  | ready => rfl
  | failed => exact (List.append_nil _).symm

theorem poll_stands (hm : Lawful m) {o : Owner} (h : StandsAt m side s o)
    (hproper : Proper (m.journaled.poll s).2.2) :
    StandsAt m side (m.journaled.poll s).2 (o.call m s) := by
  unfold StandsAt at h ⊢
  have houtcome := h.outcome
  generalize hneg : m.this s.1 = neg at h
  generalize hbytes : o.heard = bytes at h
  generalize hgiven : given s.2 = has at h
  generalize hwrote : written s.2 = wrote at h
  generalize hgot : o.got = got at h
  generalize hput : o.put = put at h
  cases h with
  | waiting hside hstage hbuffer hrest hverdict =>
    rw [hbytes, hneg, hverdict] at houtcome
    subst hneg hbytes
    rw [poll_awaiting (m := m.journaled) side hstage] at hproper ⊢
    show Stands side _ (o.call m s).heard _ _ o.got o.put
    rw [heard_of_pending houtcome, hgot, hput]
    refine listen_stands hm hside hstage (hbuffer.trans hgiven.symm) hrest (hwrote.trans ?_) hproper
    unfold Side.verdict at hverdict
    cases hspan : exchangeSpan o.heard with
    | error e => exact Side.said_pending hspan
    | ok span =>
      rw [hspan] at hverdict
      exact absurd hverdict (Side.judge_ne_pending side _)
  | ready given got put span protocol hstage hprotocol hspan hverdict hheard hrest =>
    subst hneg
    rw [poll_ready (m := m.journaled) hstage]
    have hdecided : (m.this s.1).outcome ≠ .pending := by
      rw [houtcome, hbytes, hverdict]
      exact nofun
    show Stands side (m.this s.1) (o.call m s).heard _ _ o.got o.put
    rw [heard_of_decided hdecided, hbytes, hgiven, hwrote, hgot, hput]
    exact .ready _ _ _ _ _ span protocol hstage hprotocol hspan hverdict hheard hrest
  | failed detail hstage hdetail hverdict =>
    subst hneg
    rw [poll_failed (m := m.journaled) hstage]
    have hdecided : (m.this s.1).outcome ≠ .pending := by
      rw [houtcome, hbytes, hverdict]
      exact nofun
    show Stands side (m.this s.1) (o.call m s).heard _ _ o.got o.put
    rw [heard_of_decided hdecided, hbytes, hgiven, hwrote, hgot, hput]
    exact .failed _ _ detail hstage hdetail hverdict

/-- A call of an owner polls, and goes on where the negotiation is over. -/
theorem pollReady_cases {α : Type} {m : Negotiator τ} (t : τ) (next : Op τ α) :
    ((m.this (m.poll t).2).isNegotiated = true ∧ (m.pollReady >>= fun _ => next) t = next (m.poll t).2) ∨
      ((m.pollReady >>= fun _ => next) t).2 = (m.poll t).2 ∧
        ((m.pollReady >>= fun _ => next) t).1.toOption = none := by
  unfold pollReady
  rw [Op.bind_apply, Op.bind_apply]
  generalize m.poll t = result
  rcases result with ⟨e | u, t'⟩
  · exact .inr ⟨rfl, rfl⟩
  · dsimp only
    rw [Op.bind_apply, Op.get_apply]
    dsimp only
    split_ifs with hdone
    · exact .inl ⟨hdone, rfl⟩
    · exact .inr ⟨rfl, rfl⟩

/-- The part of `try_read` after the negotiation. -/
def take (m : Negotiator τ) (size : ℕ) : Op τ Bytes := do
  let t ← Op.get
  if (m.this t).appRxBuffer ≠ [] then
    Op.modify (m.change fun neg => { neg with appRxBuffer := neg.appRxBuffer.drop size })
    pure ((m.this t).appRxBuffer.take size)
  else m.innerTryRead size

theorem grows_take (size : ℕ) : Op.Preserves Grows (m.journaled.take size) := by
  refine .bind grows_trans (.get grows_refl) fun s => ?_
  split_ifs
  · exact .bind grows_trans (grows_change _) fun _ => .pure grows_refl _
  · exact grows_innerTryRead size

/-- A negotiation that is over. -/
theorem Stands.of_negotiated {neg : ProtocolNegotiatingStream} {heard has got : Bytes}
    {wrote put : List Bytes} (h : Stands side neg heard has wrote got put)
    (hdone : neg.isNegotiated = true) :
    ∃ span protocol, neg.stage = .ready ∧ neg.negotiatedProtocol = some protocol ∧
      exchangeSpan heard = .ok span ∧ side.verdict heard = .ready protocol ∧ heard <+: has ∧
      got ++ neg.appRxBuffer = has.drop span ∧ wrote = side.said heard ++ put := by
  have hready : neg.stage = .ready := by
    unfold ProtocolNegotiatingStream.isNegotiated at hdone
    simp only [Bool.and_eq_true, decide_eq_true_eq] at hdone
    exact hdone.1
  cases h with
  | waiting hside hstage =>
    rw [hready] at hstage
    cases side <;> cases hstage
  | failed detail hstage =>
    rw [hready] at hstage
    cases hstage
  | ready has got put span protocol hstage hprotocol hspan hverdict hheard hrest =>
    exact ⟨span, protocol, hstage, hprotocol, hspan, hverdict, hheard, hrest, rfl⟩

/-- What is behind the exchange is returned: first what was read with it, then what comes. -/
theorem take_stands (hm : Lawful m) {o : Owner} (size : ℕ) (hdone : (m.this s.1).isNegotiated = true)
    (h : StandsAt m side s o) :
    let r := m.journaled.take size s
    StandsAt m side r.2 { o with got := o.got ++ r.1.toOption.getD [] } := by
  intro r
  obtain ⟨span, protocol, hstage, hprotocol, hspan, hverdict, hheard, hrest, hwrote⟩ :=
    Stands.of_negotiated h hdone
  have hr : r = (if (m.this s.1).appRxBuffer ≠ [] then (do
      Op.modify (m.journaled.change fun neg => { neg with appRxBuffer := neg.appRxBuffer.drop size })
      pure ((m.this s.1).appRxBuffer.take size)) else m.journaled.innerTryRead size :
      Op (τ × List InnerCall) Bytes) s := rfl
  unfold StandsAt
  split_ifs at hr with hempty
  · rw [hr]
    show Stands side (m.this (m.change _ s.1)) o.heard (given s.2) (written s.2)
      (o.got ++ (m.this s.1).appRxBuffer.take size) o.put
    rw [hm.change, hwrote]
    refine .ready _ _ _ _ _ span protocol hstage hprotocol hspan hverdict hheard ?_
    rw [List.append_assoc, List.take_append_drop]
    exact hrest
  · have hthis : m.this r.2.1 = m.this s.1 := by
      rw [hr]
      exact hm.read size s.1
    have hgiven : given r.2.2 = given s.2 ++ r.1.toOption.getD [] := by
      rw [hr]
      exact given_concat _ _
    have hquiet : written r.2.2 = written s.2 := by
      rw [hr]
      exact (written_concat _ _).trans (List.append_nil _)
    rw [hthis, hgiven, hquiet, hwrote]
    refine .ready _ _ _ _ _ span protocol hstage hprotocol hspan hverdict
      (hheard.trans (List.prefix_append _ _)) ?_
    rw [not_not] at hempty
    rw [hempty, List.append_nil] at hrest ⊢
    have hle := (exchangeSpan_le hspan).trans hheard.length_le
    rw [hrest, List.drop_append_of_le_length hle]

theorem innerTryWrite_stands (hm : Lawful m) {o : Owner} (data : Bytes)
    (hdone : (m.this s.1).isNegotiated = true) (h : StandsAt m side s o) :
    let r := m.journaled.innerTryWrite data s
    StandsAt m side r.2 { o with put := o.put ++ accepted data r.1 } := by
  intro r
  obtain ⟨span, protocol, hstage, hprotocol, hspan, hverdict, hheard, hrest, hwrote⟩ :=
    Stands.of_negotiated h hdone
  have hthis : m.this r.2.1 = m.this s.1 := hm.write data s.1
  have hgiven : given r.2.2 = given s.2 := (given_concat _ _).trans (List.append_nil _)
  have hwritten : written r.2.2 = written s.2 ++ accepted data r.1 := written_concat _ _
  unfold StandsAt
  rw [hthis, hgiven, hwritten, hwrote, List.append_assoc]
  exact .ready _ _ _ _ _ span protocol hstage hprotocol hspan hverdict hheard hrest

theorem innerCloseWrite_stands (hm : Lawful m) {o : Owner} (h : StandsAt m side s o) :
    StandsAt m side (m.journaled.innerCloseWrite s).2 o := by
  have hthis : m.this (m.journaled.innerCloseWrite s).2.1 = m.this s.1 := hm.close s.1
  have hgiven : given (m.journaled.innerCloseWrite s).2.2 = given s.2 :=
    (given_concat _ _).trans (List.append_nil _)
  have hwritten : written (m.journaled.innerCloseWrite s).2.2 = written s.2 :=
    (written_concat _ _).trans (List.append_nil _)
  unfold StandsAt
  rw [hthis, hgiven, hwritten]
  exact h

/-- What a call has done when it polled is in the journal. -/
theorem proper_poll {α : Type} {next : Op (τ × List InnerCall) α} (hnext : Op.Preserves Grows next)
    (h : Proper ((m.journaled.pollReady >>= fun _ => next) s).2.2) :
    Proper (m.journaled.poll s).2.2 := by
  rcases pollReady_cases (m := m.journaled) s next with ⟨-, hcall⟩ | ⟨hcall, -⟩
  · rw [hcall] at h
    exact h.of_prefix (hnext _)
  · rwa [hcall] at h

theorem tryRead_stands (hm : Lawful m) {o : Owner} (size : ℕ)
    (h : StandsAt m side (m.journaled.poll s).2 (o.call m s)) :
    StandsAt m side (m.journaled.tryRead size s).2
      { o.call m s with got := o.got ++ (m.journaled.tryRead size s).1.toOption.getD [] } := by
  rcases pollReady_cases (m := m.journaled) s (m.journaled.take size) with
    ⟨hdone, hcall⟩ | ⟨hcall, hnone⟩
  · rw [show m.journaled.tryRead size s = _ from hcall]
    exact take_stands hm size hdone h
  · rw [show (m.journaled.tryRead size s).2 = _ from hcall,
      show (m.journaled.tryRead size s).1.toOption = none from hnone]
    exact (List.append_nil o.got).symm ▸ h

theorem tryWrite_stands (hm : Lawful m) {o : Owner} (data : Bytes)
    (h : StandsAt m side (m.journaled.poll s).2 (o.call m s)) :
    StandsAt m side (m.journaled.tryWrite data s).2
      { o.call m s with put := o.put ++ accepted data (m.journaled.tryWrite data s).1 } := by
  rcases pollReady_cases (m := m.journaled) s (m.journaled.innerTryWrite data) with
    ⟨hdone, hcall⟩ | ⟨hcall, hnone⟩
  · rw [show m.journaled.tryWrite data s = _ from hcall]
    exact innerTryWrite_stands hm data hdone h
  · rw [show (m.journaled.tryWrite data s).2 = _ from hcall, accepted,
      show (m.journaled.tryWrite data s).1.toOption = none from hnone]
    exact (List.append_nil o.put).symm ▸ h

theorem closeWrite_stands (hm : Lawful m) {o : Owner}
    (h : StandsAt m side (m.journaled.poll s).2 (o.call m s)) :
    StandsAt m side (m.journaled.closeWrite s).2 (o.call m s) := by
  rcases pollReady_cases (m := m.journaled) s m.journaled.innerCloseWrite with
    ⟨-, hcall⟩ | ⟨hcall, -⟩
  · rw [show m.journaled.closeWrite s = _ from hcall]
    exact innerCloseWrite_stands hm h
  · rw [show (m.journaled.closeWrite s).2 = _ from hcall]
    exact h

/-! ### Whole runs -/

theorem Drives.stands (hm : Lawful m) {first : τ} {o : Owner} {connId : ConnectionId}
    {inner : Connection.StreamHandle} (hfirst : m.this first = side.make connId inner)
    (hrun : Drives m first s o) (hproper : Proper s.2) :
    StandsAt m side s o ∨ Untouched side (m.this s.1) s.2 o := by
  -- a call polls first
  have hpoll : ∀ {s : τ × List InnerCall} {o : Owner},
      (Proper s.2 → StandsAt m side s o ∨ Untouched side (m.this s.1) s.2 o) →
      Proper (m.journaled.poll s).2.2 → StandsAt m side (m.journaled.poll s).2 (o.call m s) := by
    intro s o ih hproper
    rcases ih (hproper.of_prefix (grows_poll s)) with hstands | huntouched
    · exact poll_stands hm hstands hproper
    · exact poll_untouched hm huntouched hproper
  induction hrun with
  | start =>
    unfold StandsAt
    rw [hfirst]
    cases side with
    | outbound desired => exact .inr ⟨rfl, rfl, ⟨desired, rfl⟩, rfl, rfl, rfl, rfl⟩
    | inbound supported => exact .inl (.waiting _ [] rfl rfl rfl rfl rfl)
  | poll h ih => exact .inl (hpoll ih hproper)
  | tryRead size h ih =>
    exact .inl (tryRead_stands hm size (hpoll ih (proper_poll (grows_take size) hproper)))
  | tryWrite data h ih =>
    exact .inl (tryWrite_stands hm data (hpoll ih (proper_poll (grows_innerTryWrite data) hproper)))
  | closeWrite h ih =>
    exact .inl (closeWrite_stands hm (hpoll ih (proper_poll grows_innerCloseWrite hproper)))
  | outside h hthis ih =>
    unfold StandsAt at ih ⊢
    dsimp only at hproper ⊢
    rw [hthis]
    exact ih hproper

theorem Untouched.outcome {neg : ProtocolNegotiatingStream} {journal : List InnerCall} {o : Owner}
    (h : Untouched side neg journal o) : neg.outcome = .pending ∧ side.verdict o.heard = .pending := by
  constructor
  · exact outcome_pending (by rw [h.stage]; exact nofun) (by rw [h.stage]; exact nofun)
  · rw [h.owner]
    rfl

/-- In every state of a run the outcome is that of the bytes heard. -/
theorem Drives.outcome (hm : Lawful m) {first : τ} {o : Owner} {connId : ConnectionId}
    {inner : Connection.StreamHandle} (hfirst : m.this first = side.make connId inner)
    (hrun : Drives m first s o) (hproper : Proper s.2) :
    (m.this s.1).outcome = side.verdict o.heard := by
  rcases hrun.stands hm hfirst hproper with hstands | huntouched
  · exact Stands.outcome hstands
  · obtain ⟨hpending, hverdict⟩ := huntouched.outcome
    exact hpending.trans hverdict.symm

theorem isNegotiated_of_ready {neg : ProtocolNegotiatingStream} {protocol : ProtocolId}
    (hready : neg.outcome = .ready protocol) : neg.isNegotiated = true := by
  unfold ProtocolNegotiatingStream.outcome at hready
  split_ifs at hready with hdone
  exact hdone

/-- Once the negotiation is over, `try_read` returns what is left of its buffer, and then
    what `inner_` returns. -/
theorem tryRead_negotiated {t : τ} (hdone : (m.this t).isNegotiated = true) (size : ℕ) :
    (m.tryRead size t).1 =
      if (m.this t).appRxBuffer = [] then (m.innerTryRead size t).1
      else .ok ((m.this t).appRxBuffer.take size) := by
  have hready : (m.this t).stage = .ready := by
    unfold ProtocolNegotiatingStream.isNegotiated at hdone
    simp only [Bool.and_eq_true, decide_eq_true_eq] at hdone
    exact hdone.1
  have hpoll : m.pollReady t = (.ok (), t) := by
    unfold pollReady
    rw [Op.bind_apply, poll_ready hready]
    dsimp only
    rw [Op.bind_apply, Op.get_apply]
    dsimp only
    rw [if_pos hdone]
    rfl
  unfold tryRead
  rw [Op.bind_of_ok hpoll, Op.bind_apply, Op.get_apply]
  dsimp only
  by_cases hempty : (m.this t).appRxBuffer = []
  · rw [if_neg (not_not.mpr hempty), if_pos hempty]
  · rw [if_pos hempty, if_neg hempty]
    rfl

end Negotiator

open Negotiator in
/-- Whatever is called and however the bytes come: the outcome is decided by the bytes that had
    come to `inner_`, and no further bytes would change it; what is written is the proposal or
    the reply, once, and then what `try_write` takes; and `try_read` returns the bytes behind
    the exchange, those read with it and then those that `inner_` returns. -/
theorem exchange_decides {τ : Type} {m : Negotiator τ} (hm : Lawful m) {side : Side} {first : τ}
    {s : τ × List InnerCall} {o : Owner} {connId : ConnectionId} {inner : Connection.StreamHandle}
    (hfirst : m.this first = side.make connId inner) (hrun : Drives m first s o)
    (hproper : Proper s.2) :
    let neg := m.this s.1
    neg.outcome = side.verdict o.heard ∧
      (neg.outcome ≠ .pending → ∀ more, side.verdict (o.heard ++ more) = neg.outcome) ∧
      (0 < o.calls → written s.2 = side.said o.heard ++ o.put) ∧
      ∀ protocol, neg.outcome = .ready protocol → ∃ span message,
        exchangeSpan o.heard = .ok span ∧ side.said o.heard = [message] ∧ o.heard <+: given s.2 ∧
          o.got ++ neg.appRxBuffer = (given s.2).drop span ∧
          ∀ size, (m.tryRead size s.1).1 =
            if neg.appRxBuffer = [] then (m.innerTryRead size s.1).1
            else .ok (neg.appRxBuffer.take size) := by
  intro neg
  have houtcome : neg.outcome = side.verdict o.heard := hrun.outcome hm hfirst hproper
  refine ⟨houtcome, fun hne more => ?_, fun hcalls => ?_, fun protocol hready => ?_⟩
  · rw [houtcome] at hne ⊢
    exact Side.verdict_append hne more
  · rcases hrun.stands hm hfirst hproper with hstands | huntouched
    · exact hstands.written_eq
    · rw [huntouched.owner] at hcalls
      exact absurd hcalls (Nat.lt_irrefl 0)
  · rcases hrun.stands hm hfirst hproper with hstands | huntouched
    · have hdone := isNegotiated_of_ready hready
      obtain ⟨span, -, -, -, hspan, -, hheard, hrest, -⟩ := Stands.of_negotiated hstands hdone
      obtain ⟨message, hmessage⟩ := Side.said_ready (houtcome.symm.trans hready)
      exact ⟨span, message, hspan, hmessage, hheard, hrest, tryRead_negotiated hdone⟩
    · cases huntouched.outcome.1.symm.trans hready

/-- A world with one connection, upgraded to a direct stream, on which a protocol is negotiated. -/
def negotiatingWorld (side : Side) (session : Connection.BasicConnectionSession) : World where
  swarm :=
    { localIdentity := none
      localStreamMuxers := []
      sessions := fun _ => some session
      negotiations := fun _ => side.make 1 (.direct 0) }
  env := fun _ => {}

/-- Bytes come to its direct stream. -/
def World.arrive (w : World) (bytes : Bytes) : World :=
  let receive (s : Connection.BasicConnectionSession) :=
    s.setDirect 0 fun st => { st with rxBuffer := st.rxBuffer ++ bytes }
  { w with swarm := { w.swarm with sessions := fun id => (w.swarm.sessions id).map receive } }

theorem World.arrive_negotiations (w : World) (bytes : Bytes) :
    (w.arrive bytes).swarm.negotiations = w.swarm.negotiations := rfl

/-- The proposal of `/a`, which is also the reply that accepts it. -/
def toyProposal : Bytes := encodeMessage header ++ encodeMessage (ascii "/a")

/-- An inbound negotiation to which a part of the proposal has come. -/
def firstPart : World :=
  (negotiatingWorld (.inbound [ascii "/a"]) Connection.toyServed).arrive (toyProposal.take 5)

/-- A world is polled, and then bytes come. -/
def polledThen (w : World) (bytes : Bytes) : World × List InnerCall :=
  let polled := ((Negotiation.negotiator Noise.Sodium.toy 0).journaled.poll (w, [])).2
  (polled.1.arrive bytes, polled.2)

open Negotiator in
theorem polledThen_drives (w : World) (bytes : Bytes) :
    let m := Negotiation.negotiator Noise.Sodium.toy 0
    m.Drives w (polledThen w bytes) (Owner.call {} m (w, [])) := by
  intro m
  have hthis : m.this (polledThen w bytes).1 = m.this (m.journaled.poll (w, [])).2.1 :=
    congrFun (World.arrive_negotiations _ bytes) 0
  exact .outside (.poll .start) hthis

open Negotiator in
/-- `try_read` then agrees on `/a`, writes the reply and returns the byte behind the proposal. -/
theorem exchange_decides_parts :
    let m := Negotiation.negotiator Noise.Sodium.toy 0
    let s := polledThen firstPart (toyProposal.drop 5 ++ [7])
    let r := m.journaled.tryRead 16 s
    (m.this s.1).outcome = .pending ∧ r.1 = .ok [7] ∧
      (m.this r.2.1).outcome = .ready (ascii "/a") ∧ written r.2.2 = [toyProposal] ∧
      [7] ++ (m.this r.2.1).appRxBuffer = (given r.2.2).drop toyProposal.length := by
  intro m s r
  have hfirst : m.this firstPart = Side.make 1 (.direct 0) (.inbound [ascii "/a"]) := rfl
  have hproper : Proper r.2.2 := by decide +kernel
  have hread : r.1 = .ok [7] := by decide +kernel
  have houtcome : (m.this r.2.1).outcome = .ready (ascii "/a") := by decide +kernel
  have hrun : m.Drives firstPart r.2 _ := (polledThen_drives firstPart _).tryRead 16
  obtain ⟨-, -, hwritten, hready⟩ := exchange_decides Negotiation.lawful hfirst hrun hproper
  obtain ⟨span, message, hspan, hsaid, -, hrest, -⟩ := hready _ houtcome
  have hlength : span = toyProposal.length := Except.ok.inj (hspan.symm.trans (by decide +kernel))
  refine ⟨by decide +kernel, hread, houtcome, (hwritten (by decide)).trans (by decide +kernel), ?_⟩
  rw [← hlength, ← hrest]
  show [7] ++ _ = [] ++ r.1.toOption.getD [] ++ _
  rw [hread]
  rfl

end PeerCore
