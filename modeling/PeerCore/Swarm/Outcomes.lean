import PeerCore.Swarm.Settled

/-!
# Outcomes of negotiations

What `poll_pending_streams` tells about a stream: the event that ends its negotiation, and
the callback of a handler.

Results:
* `pollPendingStreams_accounts`: the events it dispatches are the outcomes it logs.
* `Phases`: a call of the application is turns in which no negotiation is polled, with
  calls of `poll_pending_streams` in between.
* `told_once`: along any run, each stream has at most one outcome, and after
  ProtocolNegotiated at most one callback, of the method for its direction and of the
  handler for the negotiated protocol.
-/

namespace PeerCore

open Connection (BasicConnectionSession StreamHandle ConnectionEvent)

/-! ## What is told about a stream -/

/-- What was told about a stream. -/
def World.reports (w : World) (n : ℕ) : List StreamReport :=
  (w.swarm.streamLog.filter (·.1 = n)).map (·.2)

/-- The method of a handler for a stream (`swarm.cpp:634-638`). -/
def ProtocolNegotiatingStream.callback (neg : ProtocolNegotiatingStream) : HandlerMethod :=
  if neg.inbound then .onInboundStream else .onOutboundStreamReady

/-- The event that says that the negotiation of `neg` succeeded. -/
structure Negotiated (neg : ProtocolNegotiatingStream) (event : SwarmEvent) : Prop where
  type : event.type = .protocolNegotiated
  connectionId : event.connectionId = neg.connId
  protocol : neg.negotiatedProtocol = some event.detail

/-- The event that says that it failed. -/
structure NotNegotiated (neg : ProtocolNegotiatingStream) (event : SwarmEvent) : Prop where
  type : event.type = .protocolError
  connectionId : event.connectionId = neg.connId

/-- What may be told about a stream in the course of a run. -/
inductive Reported (neg : ProtocolNegotiatingStream) : List StreamReport → Prop
  | nothing : Reported neg []
  | failed (event : SwarmEvent) (h : NotNegotiated neg event) : Reported neg [.outcome event]
  | negotiated (event : SwarmEvent) (h : Negotiated neg event) : Reported neg [.outcome event]
  | handled (event : SwarmEvent) (h : Negotiated neg event) :
    Reported neg [.outcome event, .callback event.detail neg.callback]

theorem Furthered.callback {neg neg' : ProtocolNegotiatingStream} (h : Furthered neg neg') :
    neg'.callback = neg.callback := by
  unfold ProtocolNegotiatingStream.callback
  rw [h.inbound]

theorem Negotiated.furthered {neg neg' : ProtocolNegotiatingStream} {event : SwarmEvent}
    (h : Negotiated neg event) (hover : neg.Over) (hneg : Furthered neg neg') :
    Negotiated neg' event where
  type := h.type
  connectionId := h.connectionId.trans hneg.connId.symm
  protocol := (hneg.stays hover).2.trans h.protocol

/-- What was told stays true. -/
theorem Reported.furthered {neg neg' : ProtocolNegotiatingStream} {reports : List StreamReport}
    (h : Reported neg reports) (hover : reports ≠ [] → neg.Over) (hneg : Furthered neg neg') :
    Reported neg' reports := by
  cases h with
  | nothing => exact .nothing
  | failed event hfailed =>
    exact .failed event ⟨hfailed.type, hfailed.connectionId.trans hneg.connId.symm⟩
  | negotiated event hnegotiated =>
    exact .negotiated event (hnegotiated.furthered (hover (by simp)) hneg)
  | handled event hnegotiated =>
    have hhandled := Reported.handled event (hnegotiated.furthered (hover (by simp)) hneg)
    rw [hneg.callback] at hhandled
    exact hhandled

theorem World.reports_logStream (w : World) (n m : ℕ) (report : StreamReport) :
    (logStream n report w).reports m = w.reports m ++ if m = n then [report] else [] := by
  show ((w.swarm.streamLog ++ [(n, report)]).filter (·.1 = m)).map (·.2) = _
  rw [List.filter_append, List.map_append]
  by_cases h : m = n
  · simp [World.reports, h]
  · simp [World.reports, h, Ne.symm h]

/-! ## The table of pending streams -/

/-- The streams in `pending_streams_` whose key is not in `finished` have no outcome yet;
    what was told about the others is complete. -/
structure Orderly (finished : List UInt64) (w : World) : Prop where
  made : ∀ key n, w.swarm.pendingStreams.lookup key = some n → n < w.swarm.negotiationCount
  waiting : ∀ key n, w.swarm.pendingStreams.lookup key = some n → key ∉ finished → w.reports n = []
  apart : ∀ key key' n, w.swarm.pendingStreams.lookup key = some n →
    w.swarm.pendingStreams.lookup key' = some n → key = key'
  fresh : ∀ n, w.swarm.negotiationCount ≤ n → w.reports n = []
  reported : ∀ n, Reported (w.swarm.negotiations n) (w.reports n)
  ended : ∀ n, w.reports n ≠ [] → (w.swarm.negotiations n).Over

namespace Orderly

variable {finished finished' : List UInt64} {w w' : World} {S : Noise.Sodium}

/-- The streams are used, and nothing is told about them. -/
theorem furthered (h : Orderly finished w)
    (hpending : w'.swarm.pendingStreams = w.swarm.pendingStreams)
    (hcount : w'.swarm.negotiationCount = w.swarm.negotiationCount)
    (hlog : w'.swarm.streamLog = w.swarm.streamLog)
    (hneg : ∀ n, Furthered (w.swarm.negotiations n) (w'.swarm.negotiations n)) :
    Orderly finished w' := by
  have hreports : w'.reports = w.reports := by
    funext n
    unfold World.reports
    rw [hlog]
  constructor
  · rw [hpending, hcount]
    exact h.made
  · rw [hpending, hreports]
    exact h.waiting
  · rw [hpending]
    exact h.apart
  · rw [hcount, hreports]
    exact h.fresh
  · intro n
    rw [hreports]
    exact (h.reported n).furthered (h.ended n) (hneg n)
  · intro n hn
    rw [hreports] at hn
    exact ((hneg n).stays (h.ended n hn)).1

theorem quiet (h : Orderly finished w) (hquiet : Quiet S w w') : Orderly finished w' :=
  h.furthered (by rw [hquiet.swarm]) (by rw [hquiet.swarm]) (by rw [hquiet.swarm]) hquiet.negotiations

theorem of_same (h : Orderly finished w)
    (hpending : w'.swarm.pendingStreams = w.swarm.pendingStreams)
    (hcount : w'.swarm.negotiationCount = w.swarm.negotiationCount)
    (hlog : w'.swarm.streamLog = w.swarm.streamLog)
    (hneg : w'.swarm.negotiations = w.swarm.negotiations) : Orderly finished w' := by
  refine h.furthered hpending hcount hlog fun n => ?_
  rw [hneg]
  exact .refl _

/-- Entries leave the table, those in `finished` among them. -/
theorem shrink (h : Orderly finished w)
    (hpending : ∀ key n, w'.swarm.pendingStreams.lookup key = some n →
      w.swarm.pendingStreams.lookup key = some n ∧ key ∉ finished)
    (hcount : w'.swarm.negotiationCount = w.swarm.negotiationCount)
    (hlog : w'.swarm.streamLog = w.swarm.streamLog)
    (hneg : w'.swarm.negotiations = w.swarm.negotiations) : Orderly [] w' := by
  have hreports : w'.reports = w.reports := by
    funext n
    unfold World.reports
    rw [hlog]
  constructor
  · intro key n hn
    rw [hcount]
    exact h.made key n (hpending key n hn).1
  · intro key n hn _
    rw [hreports]
    exact h.waiting key n (hpending key n hn).1 (hpending key n hn).2
  · intro key key' n hn hn'
    exact h.apart key key' n (hpending key n hn).1 (hpending key' n hn').1
  · rw [hcount, hreports]
    exact h.fresh
  · rw [hneg, hreports]
    exact h.reported
  · rw [hneg, hreports]
    exact h.ended

theorem erase (h : Orderly finished w) : Orderly [] (erasePending finished w) := by
  refine h.shrink (fun key n hn => ?_) rfl rfl rfl
  rw [erasePending_lookup] at hn
  split_ifs at hn with hmem
  exact ⟨hn, hmem⟩

/-- A new stream is under negotiation. -/
theorem pend (h : Orderly [] w) (id : ConnectionId) (neg : ProtocolNegotiatingStream) :
    Orderly [] (addPending id (newNegotiation neg w).1 (newNegotiation neg w).2) := by
  have hlookup : ∀ key n, (addPending id (newNegotiation neg w).1
      (newNegotiation neg w).2).swarm.pendingStreams.lookup key = some n →
      (key = streamKey id (Negotiation.idOf (newNegotiation neg w).2 w.swarm.negotiationCount) ∧
        n = w.swarm.negotiationCount) ∨ w.swarm.pendingStreams.lookup key = some n := by
    intro key n hn
    change (w.swarm.pendingStreams.insert _ w.swarm.negotiationCount).lookup key = some n at hn
    rw [lookup_insert_eq] at hn
    split_ifs at hn with hkey
    · exact .inl ⟨hkey, (Option.some.inj hn).symm⟩
    · exact .inr hn
  have hcount : (addPending id (newNegotiation neg w).1
      (newNegotiation neg w).2).swarm.negotiationCount = w.swarm.negotiationCount + 1 := rfl
  have hother : ∀ n, n ≠ w.swarm.negotiationCount → (addPending id (newNegotiation neg w).1
      (newNegotiation neg w).2).swarm.negotiations n = w.swarm.negotiations n :=
    fun n hn => Function.update_of_ne hn _ _
  constructor
  · intro key n hn
    rw [hcount]
    rcases hlookup key n hn with ⟨-, rfl⟩ | hold
    · omega
    · exact Nat.lt_succ_of_lt (h.made key n hold)
  · intro key n hn _
    rcases hlookup key n hn with ⟨-, rfl⟩ | hold
    · exact h.fresh _ le_rfl
    · exact h.waiting key n hold (by simp)
  · intro key key' n hn hn'
    rcases hlookup key n hn with ⟨hkey, hnew⟩ | hold <;>
      rcases hlookup key' n hn' with ⟨hkey', hnew'⟩ | hold'
    · rw [hkey, hkey']
    · have := h.made key' n hold'
      omega
    · have := h.made key n hold
      omega
    · exact h.apart key key' n hold hold'
  · intro n hn
    rw [hcount] at hn
    exact h.fresh n (by omega)
  · intro n
    show Reported _ (w.reports n)
    by_cases hn : n = w.swarm.negotiationCount
    · rw [h.fresh n hn.ge]
      exact .nothing
    · rw [hother n hn]
      exact h.reported n
  · intro n hn
    rw [hother n fun heq => hn (h.fresh n heq.ge)]
    exact h.ended n hn

/-- Something is told about the stream behind a key. -/
theorem log (h : Orderly finished w) {key : UInt64} {n : ℕ} {report : StreamReport}
    (hkey : w.swarm.pendingStreams.lookup key = some n) (hover : (w.swarm.negotiations n).Over)
    (hreported : Reported (w.swarm.negotiations n) (w.reports n ++ [report]))
    (hsubset : finished ⊆ finished') (hmem : key ∈ finished') :
    Orderly finished' (logStream n report w) := by
  have hother : ∀ m, m ≠ n → (logStream n report w).reports m = w.reports m := by
    intro m hm
    rw [World.reports_logStream, if_neg hm, List.append_nil]
  constructor
  · exact h.made
  · intro key' m hm hnot
    rw [hother m fun heq => hnot (h.apart key key' n hkey (heq ▸ hm) ▸ hmem)]
    exact h.waiting key' m hm fun hin => hnot (hsubset hin)
  · exact h.apart
  · intro m hm
    rw [hother m fun heq => absurd (h.made key n hkey) (by rw [← heq]; exact not_lt.mpr hm)]
    exact h.fresh m hm
  · intro m
    by_cases hm : m = n
    · subst hm
      rw [World.reports_logStream, if_pos rfl]
      exact hreported
    · rw [hother m hm]
      exact h.reported m
  · intro m hm
    by_cases hmn : m = n
    · exact hmn ▸ hover
    · exact h.ended m (hother m hmn ▸ hm)

end Orderly

/-! ## Polling the streams -/

section Poll

variable {S : Noise.Sodium} {finished : List UInt64} {w : World}

theorem dispatchEvent_furthered (event : SwarmEvent) (w : World) (n : ℕ) :
    Furthered (w.swarm.negotiations n) ((dispatchEvent S event w).swarm.negotiations n) :=
  (userCode_quiet (S := S) w).negotiations n

theorem dispatchEvent_orderly (h : Orderly finished w) (event : SwarmEvent) :
    Orderly finished (dispatchEvent S event w) :=
  (h.quiet (userCode_quiet (S := S) w)).of_same rfl rfl rfl rfl

theorem dispatchEvent_pendingStreams (event : SwarmEvent) (w : World) :
    (dispatchEvent S event w).swarm.pendingStreams = w.swarm.pendingStreams := by
  show (userCode S w).swarm.pendingStreams = _
  rw [(userCode_quiet (S := S) w).swarm]

/-- The outcome of a stream whose negotiation is over. -/
theorem dispatchOutcome_orderly (h : Orderly finished w) {key : UInt64} {n : ℕ} {event : SwarmEvent}
    (hkey : w.swarm.pendingStreams.lookup key = some n) (hfinished : key ∉ finished)
    (hover : (w.swarm.negotiations n).Over)
    (hreported : ∀ neg, Furthered (w.swarm.negotiations n) neg → Reported neg [.outcome event]) :
    Orderly (finished ++ [key]) (dispatchOutcome S n event w) := by
  have hfurthered := dispatchEvent_furthered (S := S) event w n
  have horderly := dispatchEvent_orderly (S := S) h event
  have hkey' : (dispatchEvent S event w).swarm.pendingStreams.lookup key = some n := by
    rw [dispatchEvent_pendingStreams]
    exact hkey
  refine horderly.log hkey' (hfurthered.stays hover).1 ?_ (List.subset_append_left _ _) (by simp)
  rw [horderly.waiting key n hkey' hfinished]
  exact hreported _ hfurthered

theorem findHandler_eq {proto handler : ProtocolId} (h : findHandler w proto = some handler) :
    handler = proto := by
  simpa using List.find?_some h

/-- The callback, after the outcome. -/
theorem notifyHandler_orderly (h : Orderly finished w) {key : UInt64} {n : ℕ} {event : SwarmEvent}
    (hkey : w.swarm.pendingStreams.lookup key = some n) (hmem : key ∈ finished)
    (hover : (w.swarm.negotiations n).Over) (hreports : w.reports n = [.outcome event])
    (hnegotiated : Negotiated (w.swarm.negotiations n) event) :
    Orderly finished (notifyHandler S n w) := by
  unfold notifyHandler
  dsimp only
  rw [hnegotiated.protocol, Option.bind_some]
  cases hfind : findHandler w event.detail with
  | none => exact h
  | some handler =>
    obtain rfl := findHandler_eq hfind
    have hlog : Orderly finished
        (logStream n (.callback event.detail (w.swarm.negotiations n).callback) w) := by
      refine h.log hkey hover ?_ (List.Subset.refl _) hmem
      rw [hreports]
      exact .handled event hnegotiated
    have hgive : Orderly finished
        (giveTo n (logStream n (.callback event.detail (w.swarm.negotiations n).callback) w)) :=
      hlog.of_same rfl rfl rfl rfl
    exact hgive.quiet (userCode_quiet (S := S) _)

/-- What `poll_pending_streams` does with a stream. -/
theorem pollPendingStream_cases (n : ℕ) (w : World) :
    ∃ w₁, Quiet S w w₁ ∧
      (pollPendingStream S n w = (false, w₁) ∨
      (w₁.swarm.negotiations n).stage = .failed ∧ pollPendingStream S n w = (true, dispatchOutcome S n
        (pendingEvent w₁ n .protocolError (ascii (w₁.swarm.negotiations n).failureText)) w₁) ∨
      ∃ protocol, (w₁.swarm.negotiations n).stage = .ready ∧
        (w₁.swarm.negotiations n).negotiatedProtocol = some protocol ∧
        pollPendingStream S n w = (true, notifyHandler S n
          (dispatchOutcome S n (pendingEvent w₁ n .protocolNegotiated protocol) w₁))) := by
  have hpoll := Negotiation.poll_quiet (S := S) n w
  unfold pollPendingStream
  rcases hrun : Negotiation.poll S n w with ⟨progress, w₁⟩
  rw [hrun] at hpoll
  refine ⟨w₁, hpoll, ?_⟩
  dsimp only
  by_cases hfailed : (w₁.swarm.negotiations n).hasFailed = true
  · right
    left
    constructor
    · simpa [ProtocolNegotiatingStream.hasFailed] using hfailed
    · rw [if_neg (by simp [hfailed]), if_pos hfailed]
  cases progress with
  | error e => exact .inl (if_pos (by simp [hfailed]))
  | ok =>
    rw [if_neg (by simp), if_neg hfailed]
    cases hready : (w₁.swarm.negotiations n).isNegotiated with
    | false => exact .inl rfl
    | true =>
      cases hprotocol : (w₁.swarm.negotiations n).negotiatedProtocol with
      | none => exact .inl rfl
      | some protocol =>
        simp only [ProtocolNegotiatingStream.isNegotiated, Bool.and_eq_true, decide_eq_true_eq] at hready
        exact .inr (.inr ⟨protocol, hready.1, rfl, rfl⟩)

theorem pollPendingStream_orderly (h : Orderly finished w) {key : UInt64} {n : ℕ}
    (hkey : w.swarm.pendingStreams.lookup key = some n) (hfinished : key ∉ finished) :
    Orderly (if (pollPendingStream S n w).1 then finished ++ [key] else finished)
      (pollPendingStream S n w).2 := by
  obtain ⟨w₁, hpoll, hcases⟩ := pollPendingStream_cases (S := S) n w
  have h₁ := h.quiet hpoll
  have hkey₁ : w₁.swarm.pendingStreams.lookup key = some n := by
    rw [hpoll.swarm]
    exact hkey
  obtain heq | ⟨hstage, heq⟩ | ⟨protocol, hstage, hprotocol, heq⟩ := hcases <;> rw [heq]
  · exact h₁
  · refine dispatchOutcome_orderly h₁ hkey₁ hfinished (.inr hstage) fun neg hneg => ?_
    exact .failed _ ⟨rfl, hneg.connId.symm⟩
  · -- the event describes the negotiation also after the controller has seen it
    have hevent : ∀ neg, Furthered (w₁.swarm.negotiations n) neg →
        Negotiated neg (pendingEvent w₁ n .protocolNegotiated protocol) := fun neg hneg =>
      (show Negotiated (w₁.swarm.negotiations n) _ from ⟨rfl, rfl, hprotocol⟩).furthered
        (.inl hstage) hneg
    have hfurthered := dispatchEvent_furthered (S := S)
      (pendingEvent w₁ n .protocolNegotiated protocol) w₁ n
    have hkey₂ : (dispatchEvent S (pendingEvent w₁ n .protocolNegotiated protocol)
        w₁).swarm.pendingStreams.lookup key = some n := by
      rw [dispatchEvent_pendingStreams]
      exact hkey₁
    have hsilent := (dispatchEvent_orderly (S := S) h₁ _).waiting key n hkey₂ hfinished
    refine notifyHandler_orderly ?_ hkey₂ (by simp) (hfurthered.stays (.inl hstage)).1 ?_
      (hevent _ hfurthered)
    · exact dispatchOutcome_orderly h₁ hkey₁ hfinished (.inl hstage)
        fun neg hneg => .negotiated _ (hevent neg hneg)
    · unfold dispatchOutcome
      rw [World.reports_logStream, hsilent, if_pos rfl]
      rfl

theorem pollPendingLoop_orderly (keys : List UInt64) :
    ∀ (finished : List UInt64) (w : World), keys.Nodup → keys.Disjoint finished → Orderly finished w →
      Orderly (pollPendingLoop S keys finished w).1 (pollPendingLoop S keys finished w).2 := by
  induction keys with
  | nil => exact fun finished w _ _ h => h
  | cons key keys ih =>
    intro finished w hnodup hdisjoint h
    obtain ⟨hnotin, hnodup⟩ := List.nodup_cons.mp hnodup
    obtain ⟨hfinished, hdisjoint⟩ := List.disjoint_cons_left.mp hdisjoint
    unfold pollPendingLoop
    cases hkey : w.swarm.pendingStreams.lookup key with
    | none => exact ih finished w hnodup hdisjoint h
    | some n =>
      have hpolled := pollPendingStream_orderly (S := S) h hkey hfinished
      dsimp only
      rcases hrun : pollPendingStream S n w with ⟨done, w₁⟩
      rw [hrun] at hpolled
      refine ih (if done then finished ++ [key] else finished) w₁ hnodup ?_ hpolled
      cases done with
      | false => exact hdisjoint
      | true => exact List.disjoint_append_right.mpr ⟨hdisjoint, List.disjoint_singleton.mpr hnotin⟩

theorem pollPendingStreams_orderly (h : Orderly [] w) : Orderly [] (pollPendingStreams S w) := by
  have hask : Orderly [] w.ask.2 := h.of_same rfl rfl rfl rfl
  unfold pollPendingStreams
  dsimp only
  refine (pollPendingLoop_orderly (S := S) _ [] w.ask.2 ?_ (by simp) hask).erase
  exact (w.ask.1.idOrder.2 _).nodup_iff.mpr w.ask.2.swarm.pendingStreams.keys_nodup

end Poll

/-! ## What is dispatched and what is logged -/

section Accounts

variable {S : Noise.Sodium} {w w' w'' : World}

/-- The event of an outcome. -/
def StreamReport.event? : StreamReport → Option SwarmEvent
  | .outcome event => some event
  | .callback _ _ => none

/-- The events dispatched are the outcomes logged. -/
def Accounts (w w' : World) : Prop :=
  ∃ told, w'.swarm.streamLog = w.swarm.streamLog ++ told ∧
    w'.swarm.history = w.swarm.history ++ told.filterMap (·.2.event?)

namespace Accounts

theorem refl (w : World) : Accounts w w := ⟨[], by simp, by simp⟩

theorem trans (h : Accounts w w') (h' : Accounts w' w'') : Accounts w w'' := by
  obtain ⟨told, hlog, hhistory⟩ := h
  obtain ⟨told', hlog', hhistory'⟩ := h'
  refine ⟨told ++ told', ?_, ?_⟩
  · rw [hlog', hlog, List.append_assoc]
  · rw [hhistory', hhistory, List.filterMap_append, List.append_assoc]

theorem of_same (hlog : w'.swarm.streamLog = w.swarm.streamLog)
    (hhistory : w'.swarm.history = w.swarm.history) : Accounts w w' :=
  ⟨[], by simp [hlog], by simp [hhistory]⟩

theorem quiet (h : Quiet S w w') : Accounts w w' := of_same (by rw [h.swarm]) (by rw [h.swarm])

theorem dispatchOutcome (n : ℕ) (event : SwarmEvent) (w : World) :
    Accounts w (dispatchOutcome S n event w) := by
  refine (quiet (userCode_quiet (S := S) w)).trans ?_
  exact ⟨[(n, .outcome event)], rfl, rfl⟩

theorem notifyHandler (n : ℕ) (w : World) : Accounts w (notifyHandler S n w) := by
  unfold PeerCore.notifyHandler
  dsimp only
  cases (w.swarm.negotiations n).negotiatedProtocol.bind (findHandler w) with
  | none => exact refl w
  | some handler =>
    refine Accounts.trans ?_ (quiet (userCode_quiet (S := S) _))
    exact ⟨[(n, .callback handler (w.swarm.negotiations n).callback)], rfl, (List.append_nil _).symm⟩

theorem pollPendingStream (n : ℕ) (w : World) : Accounts w (pollPendingStream S n w).2 := by
  obtain ⟨w₁, hpoll, heq | ⟨-, heq⟩ | ⟨protocol, -, -, heq⟩⟩ := pollPendingStream_cases (S := S) n w <;>
    rw [heq]
  · exact quiet hpoll
  · exact (quiet hpoll).trans (dispatchOutcome n _ w₁)
  · exact ((quiet hpoll).trans (dispatchOutcome n _ w₁)).trans (notifyHandler n _)

theorem pollPendingLoop (keys : List UInt64) :
    ∀ (finished : List UInt64) (w : World), Accounts w (pollPendingLoop S keys finished w).2 := by
  induction keys with
  | nil => exact fun finished w => refl w
  | cons key keys ih =>
    intro finished w
    unfold PeerCore.pollPendingLoop
    cases w.swarm.pendingStreams.lookup key with
    | none => exact ih finished w
    | some n => exact (pollPendingStream n w).trans (ih _ _)

end Accounts

/-- Every event that `poll_pending_streams` dispatches is logged as an outcome. -/
theorem pollPendingStreams_accounts (w : World) : Accounts w (pollPendingStreams S w) := by
  have hask : Accounts w w.ask.2 := Accounts.of_same rfl rfl
  exact (hask.trans (Accounts.pollPendingLoop _ _ _)).trans (Accounts.of_same rfl rfl)

end Accounts

/-! ## Runs -/

section Runs

variable {S : Noise.Sodium} {w w' w'' : World}

/-- One thing that is not a poll of the negotiations keeps the table in order. -/
theorem Orderly.turn {a b : Scene} (h : Orderly [] a.world) (hturn : Turn S true a b) :
    Orderly [] b.world := by
  cases hturn with
  | quiet w' hquiet => exact h.quiet hquiet
  | aside w' haside =>
    exact h.of_same (by rw [haside.swarm]) (by rw [haside.swarm]) (by rw [haside.swarm])
      (by rw [haside.swarm])
  | connect socket isInitiator =>
    exact h.of_same (by rw [connect_swarm]) (by rw [connect_swarm]) (by rw [connect_swarm])
      (by rw [connect_swarm])
  | outside | report | anonymous | established | forward | act | record | dequeue | secured =>
    exact h.of_same rfl rfl rfl rfl
  | accept id =>
    obtain hw | ⟨s, -, -, hw⟩ | ⟨s, neg, -, -, -, -, hw⟩ := acceptStream_cases id a.world
    · rw [hw]
      exact h
    · rw [hw]
      exact h.of_same rfl rfl rfl rfl
    · rw [hw]
      have htaken : Orderly [] (a.world.setSession id (Connection.acceptInboundStream s).2) :=
        h.of_same rfl rfl rfl rfl
      exact htaken.pend id neg
  | pend id s neg => exact h.pend id neg
  | erase keys =>
    refine h.shrink (fun key n hn => ?_) rfl rfl rfl
    rw [erasePending_lookup] at hn
    split_ifs at hn
    exact ⟨hn, by simp⟩
  | remove id =>
    refine h.shrink (fun key n hn => ⟨((removeConnection_pending id a.world).mp hn).2, by simp⟩) ?_ ?_ ?_ <;>
      rw [removeConnection_swarm]
  | polled key n event hreading => cases hreading
  | log n report hreading => cases hreading

/-- A part of what the swarm does: no negotiation is polled, all of them are, or the swarm
    is stopped. -/
inductive Phase (S : Noise.Sodium) : World → World → Prop
  | does {w w' : World} (h : Does S true w w') : Phase S w w'
  | polls (w : World) : Phase S w (pollPendingStreams S w)
  | stops (w : World) : Phase S w (stop w)

/-- Any number of parts. -/
def Phases (S : Noise.Sodium) : World → World → Prop := Relation.ReflTransGen (Phase S)

namespace Phases

theorem trans (h : Phases S w w') (h' : Phases S w' w'') : Phases S w w'' :=
  Relation.ReflTransGen.trans h h'

theorem does (h : Does S true w w') : Phases S w w' := Relation.ReflTransGen.single (.does h)

theorem polls (w : World) : Phases S w (pollPendingStreams S w) :=
  Relation.ReflTransGen.single (.polls w)

theorem foldl {α : Type} {f : World → α → World} (hf : ∀ w a, Phases S w (f w a)) (as : List α)
    (w : World) : Phases S w (as.foldl f w) := by
  induction as generalizing w with
  | nil => exact Relation.ReflTransGen.refl
  | cons a as ih => exact (hf w a).trans (ih (f w a))

theorem openStream (connId : ConnectionId) (proto : ProtocolId) (w : World) :
    Phases S w (openStream S connId proto w).2 := by
  obtain ⟨w₁, hdoes, hlast | hlast⟩ : ∃ w₁, Does S true w w₁ ∧ _ := openStream_polls connId proto w
  · rw [hlast]
    exact .does hdoes
  · rw [hlast]
    exact (does hdoes).trans (polls w₁)

theorem openStreamTo (peer : PeerId) (proto : ProtocolId) (w : World) :
    Phases S w (openStreamTo S peer proto w).2 := by
  unfold PeerCore.openStreamTo
  rw [Op.get_bind]
  cases w.swarm.peerConnections.lookup peer.toString with
  | none => exact Relation.ReflTransGen.refl
  | some id => exact openStream id proto w

theorem applyAction (action : ControllerAction) (w : World) :
    Phases S w (applyAction S action w) := by
  unfold PeerCore.applyAction
  split
  · exact does (dialAddr_does _ _ w)
  · exact does (dialPeer_does _ w)
  · split_ifs
    · exact does ((close_does _ w).trans (drainConnectionEvents_turns _))
    · exact Relation.ReflTransGen.refl
  · exact openStream _ _ w
  all_goals exact Relation.ReflTransGen.refl

theorem pollOnce (w : World) : Phases S w (pollOnce S w) := by
  have hsync : ∀ w, Phases S w (syncTransportFds w) := fun w => does (syncTransportFds_does w)
  have huser : ∀ w, Phases S w (userCode S w) := fun w => does (userCode_turns w [] [])
  unfold PeerCore.pollOnce
  dsimp only
  refine (hsync w).trans ((does (eventLoopPollOnce_does _)).trans ((hsync _).trans ?_))
  refine (does (drainConnectionEvents_turns _)).trans ((polls _).trans ?_)
  generalize pollPendingStreams S _ = w₂
  refine (foldl (fun w (_ : ProtocolId) => huser w) w₂.swarm.handlers w₂).trans ((huser _).trans ?_)
  exact (does (ask_does _)).trans (foldl (fun w action => applyAction action w) _ _)

end Phases

/-- Every call of the application. -/
theorem swarmStep_phases (w : World) (call : SwarmCall) : Phases S w (swarmStep S w call) := by
  cases call with
  | start => exact .does (syncTransportFds_does w)
  | stop => exact Relation.ReflTransGen.single (.stops w)
  | listenOn addr => exact .does (listenOn_does addr w)
  | dialAddr addr => exact .does (dialAddr_does addr none w)
  | dialPeer peer => exact .does (dialPeer_does peer w)
  | openStream id proto => exact (Phases.openStream id proto w).trans (.does (giveStream_does _))
  | openStreamTo peer proto => exact (Phases.openStreamTo peer proto w).trans (.does (giveStream_does _))
  | registerHandler proto => exact .does (registerHandler_does proto w)
  | pollOnce => exact Phases.pollOnce w
  | nextEvent => exact .does (Turn.dequeue ⟨w, [], []⟩).single
  | addAddr peer addr => exact .does (addAddr_does peer addr w)
  | useStream n call =>
    show Phases S w (if n ∈ w.swarm.given then Negotiation.call S w n call else w)
    split_ifs
    · exact .does ((Negotiation.call_quiet w n call).turns [] [])
    · exact Relation.ReflTransGen.refl

theorem Orderly.phases (h : Orderly [] w) (hphases : Phases S w w') : Orderly [] w' := by
  induction hphases with
  | refl => exact h
  | tail _ hphase ih =>
    cases hphase with
    | does hdoes =>
      exact hdoes.invariant (P := fun sc => Orderly [] sc.world) (fun _ _ hsc hturn => hsc.turn hturn) ih
    | polls => exact pollPendingStreams_orderly ih
    | stops =>
      exact ih.of_same (by rw [stop_swarm]) (by rw [stop_swarm]) (by rw [stop_swarm]) (by rw [stop_swarm])

/-- Along any run, each stream has at most one outcome, and after it at most one callback.
    The events that `poll_pending_streams` dispatches are these outcomes. -/
theorem told_once (peerStore : PeerStore) (localIdentity : Option Identity)
    (localStreamMuxers : List ProtocolId) (env : ℕ → Answers) (calls : List SwarmCall) :
    let w := Runs.final (swarmStep S) (World.make peerStore localIdentity localStreamMuxers env) calls
    (∀ n, Reported (w.swarm.negotiations n) (w.reports n)) ∧
      ∀ w', Accounts w' (pollPendingStreams S w') := by
  intro w
  have hmake : Orderly [] (World.make peerStore localIdentity localStreamMuxers env) := by
    constructor
    · exact fun key n hn => by cases hn
    · exact fun key n hn => by cases hn
    · exact fun key key' n hn => by cases hn
    · exact fun n _ => rfl
    · exact fun n => .nothing
    · exact fun n hn => absurd rfl hn
  have hstates : Runs.States (swarmStep S) (Orderly []) _ calls :=
    (Runs.Steps.of_mem (C := fun _ _ => True) fun _ _ _ => trivial).invariant
      (fun w call hw _ => hw.phases (swarmStep_phases w call)) hmake
  exact ⟨hstates.final.reported, pollPendingStreams_accounts⟩

end Runs

end PeerCore
