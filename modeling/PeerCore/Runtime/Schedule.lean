import PeerCore.Lib.Alarm
import PeerCore.Lib.Runs
import PeerCore.Runtime.Timers

/-!
# Timers over whole runs of the event loop

A run is any sequence of calls from outside and of polls, whose callbacks make calls
of their own. Seen from the timers it is a sequence of requests and of
`fire_timers` calls.

* `timers_run_alone`: the callback of a timer runs when an alarm by itself would go
  off, whatever other timers there are. A one-shot timer that `fire_timers` loses may
  miss that.
* `timers_keep_time`: as long as no deadline is past the last time point, no callback runs
  early, or again before its interval is over; none runs a second time for a one-shot
  timer, or after the timer was cancelled.
* `deadlines_are_timePoints`: every deadline in the table is a time point.
-/

namespace PeerCore.Runtime

variable {γ σ : Type}

/-! ## Runs -/

/-- What happens to the timers: a request, or a call of `fire_timers` with its readings
    of the clock. -/
inductive TimerCall (γ : Type)
  | serve (request : Request γ)
  | fire (clock : ℕ → ℤ)

/-- A timer callback that ran, with the reading of the clock that found it due. -/
structure TimerRun (γ : Type) where
  id : UInt64
  callback : γ
  reading : ℤ

/-- An event loop, what happened to its timers, and the timer callbacks that ran. -/
structure Schedule (γ : Type) where
  loop : EventLoop γ := {}
  history : List (TimerCall γ) := []
  ran : List (TimerRun γ) := []

/-- The timers after a call of `fire_timers`. -/
def timersAfter (clock : ℕ → ℤ) (timers : List (Timer γ)) : List (Timer γ) :=
  (fireTimers clock timers).kept.map Prod.snd

/-- The callbacks that ran in it. -/
def timerRuns (clock : ℕ → ℤ) (timers : List (Timer γ)) : List (TimerRun γ) :=
  (fireTimers clock timers).fired.filterMap fun i =>
    timers[i]?.map fun t => ⟨t.id, t.callback, clock 0⟩

namespace Schedule

/-- One call. -/
def step (s : Schedule γ) : TimerCall γ → Schedule γ
  | .serve request =>
    { s with loop := s.loop.serve request, history := s.history ++ [.serve request] }
  | .fire clock =>
    { loop := { s.loop with timers := timersAfter clock s.loop.timers }
      history := s.history ++ [.fire clock]
      ran := s.ran ++ timerRuns clock s.loop.timers }

/-- A new event loop after some calls. -/
def replay (calls : List (TimerCall γ)) : Schedule γ := calls.foldl step {}

/-- The callbacks of one timer. -/
def runsOf (id : UInt64) (s : Schedule γ) : List (TimerRun γ) := s.ran.filter fun r => r.id = id

end Schedule

section Polls

variable (react : γ → IoEvent → σ → Reaction σ γ)

/-- The requests made by `callHandler`. -/
def requestsOf (index : ℕ) (event : IoEvent) (p : Polling σ γ) : List (Request γ) :=
  if p.thrown then []
  else
    match p.loop.fdHandlers[index]? with
    | none => []
    | some h => (react h.callback event p.state).requests

/-- The requests made for the bits of one event. -/
def requestsAt (fd : Fd) (index : ℕ) : List IoEvent → Polling σ γ → List (Request γ)
  | [], _ => []
  | event :: events, p =>
    requestsOf react index event p ++
      requestsAt fd index events (callHandler react fd index event p)

/-- The requests made in `handleReady`. -/
def requestsFor (p : Polling σ γ) (ready : ReadyEvent) : List (Request γ) :=
  match p.loop.fdHandlers.findIdx? fun h => h.fd = ready.fd with
  | none => []
  | some index => requestsAt react ready.fd index (callsFor ready) p

/-- The requests made in one poll. -/
def requestsIn : List ReadyEvent → Polling σ γ → List (Request γ)
  | [], _ => []
  | ready :: events, p => requestsFor react p ready ++ requestsIn events (handleReady react p ready)

/-- What happens to an event loop: a call from outside, or a poll. The rest of the program is
    in `state` when the poll begins. -/
inductive LoopCall (σ γ : Type)
  | request (request : Request γ)
  | poll (state : σ) (events : List ReadyEvent) (clock : ℕ → ℤ)

/-- One call. -/
def loopStep (s : Schedule γ) : LoopCall σ γ → Schedule γ
  | .request request => s.step (.serve request)
  | .poll state events clock =>
    let p : Polling σ γ := { loop := s.loop, state }
    let (polled, firing) := pollWithTimeout react events clock p
    let served := s.history ++ (requestsIn react events p).map .serve
    match firing with
    | none => { s with loop := polled.loop, history := served }
    | some _ =>
      { loop := polled.loop
        history := served ++ [.fire clock]
        ran := s.ran ++ timerRuns clock (events.foldl (handleReady react) p).loop.timers }

/-- A new event loop after some calls. -/
def loopRun (calls : List (LoopCall σ γ)) : Schedule γ := calls.foldl (loopStep react) {}

variable {react}

theorem callHandler_loop (fd : Fd) (index : ℕ) (event : IoEvent) (p : Polling σ γ) :
    (callHandler react fd index event p).loop =
      (requestsOf react index event p).foldl EventLoop.serve p.loop := by
  unfold callHandler requestsOf
  split_ifs
  · rfl
  · cases p.loop.fdHandlers[index]? <;> simp

theorem foldl_callHandler_loop (fd : Fd) (index : ℕ) (events : List IoEvent) (p : Polling σ γ) :
    (events.foldl (fun p event => callHandler react fd index event p) p).loop =
      (requestsAt react fd index events p).foldl EventLoop.serve p.loop := by
  induction events generalizing p with
  | nil => rfl
  | cons event events ih =>
    rw [List.foldl_cons, ih, callHandler_loop, requestsAt, List.foldl_append]

theorem handleReady_loop (p : Polling σ γ) (ready : ReadyEvent) :
    (handleReady react p ready).loop =
      (requestsFor react p ready).foldl EventLoop.serve p.loop := by
  unfold handleReady requestsFor
  cases hindex : p.loop.fdHandlers.findIdx? fun h => h.fd = ready.fd with
  | none => rfl
  | some index => exact foldl_callHandler_loop ready.fd index (callsFor ready) p

/-- In a poll the event loop serves the requests of the callbacks. -/
theorem foldl_handleReady_loop (events : List ReadyEvent) (p : Polling σ γ) :
    (events.foldl (handleReady react) p).loop =
      (requestsIn react events p).foldl EventLoop.serve p.loop := by
  induction events generalizing p with
  | nil => rfl
  | cons ready events ih =>
    rw [List.foldl_cons, ih, handleReady_loop, requestsIn, List.foldl_append]

theorem foldl_serve (requests : List (Request γ)) (s : Schedule γ) :
    (requests.map TimerCall.serve).foldl Schedule.step s =
      { s with
        loop := requests.foldl EventLoop.serve s.loop
        history := s.history ++ requests.map .serve } := by
  induction requests generalizing s with
  | nil => simp
  | cons request requests ih =>
    rw [List.map_cons, List.foldl_cons, ih]
    simp [Schedule.step]

/-- A call is a sequence of requests and of `fire_timers` calls. -/
theorem loopStep_eq (s : Schedule γ) (call : LoopCall σ γ) :
    ∃ calls : List (TimerCall γ), loopStep react s call = calls.foldl Schedule.step s := by
  cases call with
  | request request => exact ⟨[.serve request], rfl⟩
  | poll state events clock =>
    have hserved := foldl_serve (requestsIn react events { loop := s.loop, state }) s
    have hloop : (events.foldl (handleReady react) { loop := s.loop, state }).loop = _ :=
      foldl_handleReady_loop events _
    cases hthrown : (events.foldl (handleReady react) { loop := s.loop, state }).thrown with
    | true =>
      refine ⟨(requestsIn react events { loop := s.loop, state }).map .serve, ?_⟩
      rw [hserved]
      simp [loopStep, pollWithTimeout, hthrown, hloop]
    | false =>
      refine ⟨(requestsIn react events { loop := s.loop, state }).map .serve ++ [.fire clock], ?_⟩
      rw [List.foldl_append, hserved]
      simp [loopStep, pollWithTimeout, hthrown, hloop, Schedule.step, timersAfter]

end Polls

/-! ## The history of a run -/

theorem foldl_step_history (calls : List (TimerCall γ)) (s : Schedule γ) :
    (calls.foldl Schedule.step s).history = s.history ++ calls := by
  induction calls generalizing s with
  | nil => simp
  | cons call calls ih =>
    rw [List.foldl_cons, ih]
    cases call <;> simp [Schedule.step]

theorem replay_history (calls : List (TimerCall γ)) : (Schedule.replay calls).history = calls := by
  unfold Schedule.replay
  rw [foldl_step_history]
  rfl

theorem replay_concat (calls : List (TimerCall γ)) (call : TimerCall γ) :
    Schedule.replay (calls ++ [call]) = (Schedule.replay calls).step call := by
  unfold Schedule.replay
  rw [List.foldl_append]
  rfl

/-- A run is what its history says. -/
theorem loopRun_eq_replay (react : γ → IoEvent → σ → Reaction σ γ) (calls : List (LoopCall σ γ)) :
    loopRun react calls = Schedule.replay (loopRun react calls).history := by
  obtain ⟨made, hmade⟩ : ∃ made, loopRun react calls = Schedule.replay made := by
    induction calls using List.reverseRecOn with
    | nil => exact ⟨[], rfl⟩
    | append_singleton calls call ih =>
      obtain ⟨made, hmade⟩ := ih
      obtain ⟨more, hmore⟩ : ∃ more : List (TimerCall γ),
          loopStep react (loopRun react calls) call =
            more.foldl Schedule.step (loopRun react calls) := loopStep_eq _ call
      refine ⟨made ++ more, ?_⟩
      unfold loopRun Schedule.replay at *
      rw [List.foldl_append, List.foldl_append, ← hmade]
      exact hmore
  rw [hmade, replay_history]

/-! ## Ids -/

/-- Whether a call adds a timer. -/
def TimerCall.adds : TimerCall γ → Bool
  | .serve (.addTimer ..) => true
  | _ => false

/-- The id of the timer added when `n` were added before it. -/
def timerId (n : ℕ) : UInt64 := 1 + UInt64.ofNat n

theorem timerId_inj {m n : ℕ} (hm : m < 2 ^ 64) (hn : n < 2 ^ 64) (h : timerId m = timerId n) :
    m = n := by
  have hnat := congrArg UInt64.toNat (add_left_cancel h)
  rwa [UInt64.toNat_ofNat', UInt64.toNat_ofNat', Nat.mod_eq_of_lt hm, Nat.mod_eq_of_lt hn] at hnat

/-- The number of timers added. -/
def timersAdded (calls : List (TimerCall γ)) : ℕ := calls.countP TimerCall.adds

theorem timersAdded_concat (calls : List (TimerCall γ)) (call : TimerCall γ) :
    timersAdded (calls ++ [call]) = timersAdded calls + if call.adds then 1 else 0 := by
  unfold timersAdded
  rw [List.countP_append, List.countP_singleton]

/-- The next id is the counter of the loop. -/
theorem replay_nextTimerId (calls : List (TimerCall γ)) :
    (Schedule.replay calls).loop.nextTimerId = timerId (timersAdded calls) := by
  induction calls using List.reverseRecOn with
  | nil => rfl
  | append_singleton calls call ih =>
    rw [replay_concat, timersAdded_concat]
    rcases call with ⟨⟨⟩⟩ | ⟨⟩
    case serve.addTimer =>
      show (Schedule.replay calls).loop.nextTimerId + 1 = _
      rw [ih]
      simp [TimerCall.adds, timerId, UInt64.ofNat_add, add_assoc]
    all_goals exact ih

/-! ## One call of `fire_timers`, seen from one timer -/

variable {clock : ℕ → ℤ} {timers : List (Timer γ)} {id : UInt64} {t : Timer γ}

theorem timerRuns_eq (clock : ℕ → ℤ) (timers : List (Timer γ)) :
    timerRuns clock timers =
      (timers.filter fun t => t.deadline ≤ clock 0).map fun t => ⟨t.id, t.callback, clock 0⟩ := by
  unfold timerRuns
  show ((fireLoop (clock 0) 0 timers).2).filterMap _ = _
  rw [fireLoop_fired, List.filterMap_map]
  have hentry : ∀ e ∈ (timers.zipIdx 0).filter fun e => e.1.deadline ≤ clock 0,
      timers[e.2]? = some e.1 := by
    intro e he
    simpa using List.mem_zipIdx_iff_getElem?.mp (List.mem_of_mem_filter he)
  have hmap : ((timers.zipIdx 0).filter fun e => e.1.deadline ≤ clock 0).filterMap
        ((fun i => timers[i]?.map fun t => (⟨t.id, t.callback, clock 0⟩ : TimerRun γ)) ∘ Prod.snd) =
      ((timers.zipIdx 0).filter fun e => e.1.deadline ≤ clock 0).map
        fun e => ⟨e.1.id, e.1.callback, clock 0⟩ := by
    rw [← List.filterMap_eq_map]
    apply List.filterMap_congr
    intro e he
    simp [hentry e he]
  rw [hmap]
  conv_rhs => rw [← List.zipIdx_map_fst 0 timers]
  rw [List.filter_map, List.map_map]
  rfl

theorem timerRuns_filter (clock : ℕ → ℤ) (timers : List (Timer γ)) (id : UInt64) :
    (timerRuns clock timers).filter (fun r => r.id = id) =
      ((timers.filter fun t => t.id = id).filter fun t => t.deadline ≤ clock 0).map
        fun t => ⟨t.id, t.callback, clock 0⟩ := by
  rw [timerRuns_eq, List.filter_map, List.filter_filter, List.filter_filter]
  congr 1
  apply List.filter_congr
  intro t _
  exact Bool.and_comm _ _

theorem eraseLoop_timers_sublist (clock : ℕ → ℤ) (n slot : ℕ) (timers : List (Timer γ)) :
    ((eraseLoop clock n slot timers).map Prod.snd).Sublist timers := by
  induction timers generalizing n slot with
  | nil => exact List.Sublist.refl _
  | cons t timers ih =>
    rw [eraseLoop]
    split_ifs
    · exact (ih n (slot + 1)).cons_cons t
    · exact (ih (n + 1) (slot + 1)).cons t
    · exact (ih (n + 1) (slot + 1)).cons_cons t

theorem refreshed_id (now : ℤ) (t : Timer γ) : (t.refreshed now).id = t.id := by
  unfold Timer.refreshed
  split_ifs <;> rfl

theorem timersAfter_filter_sublist (clock : ℕ → ℤ) (timers : List (Timer γ)) (id : UInt64) :
    ((timersAfter clock timers).filter fun t => t.id = id).Sublist
      ((timers.filter fun t => t.id = id).map (Timer.refreshed (clock 0))) := by
  have hsub : (timersAfter clock timers).Sublist (timers.map (Timer.refreshed (clock 0))) := by
    rw [← fireLoop_timers (clock 0) 0]
    exact eraseLoop_timers_sublist clock 1 0 _
  have hid : ((fun t : Timer γ => decide (t.id = id)) ∘ Timer.refreshed (clock 0)) =
      fun t => decide (t.id = id) := by
    funext t
    rw [Function.comp_apply, refreshed_id]
  have hfilter := hsub.filter fun t => t.id = id
  rwa [List.filter_map, hid] at hfilter

theorem mem_timersAfter {t' : Timer γ} :
    t' ∈ timersAfter clock timers ↔ ∃ (i : ℕ) (t : Timer γ), timers[i]? = some t ∧
      t' = t.refreshed (clock 0) ∧ (t.repeats = true ∨ reading clock timers i < t.deadline) := by
  unfold timersAfter
  rw [List.mem_map]
  constructor
  · rintro ⟨⟨i, t'⟩, hkept, rfl⟩
    obtain ⟨t, ht⟩ := mem_kept.mp hkept
    exact ⟨i, t, ht⟩
  · rintro ⟨i, t, ht⟩
    exact ⟨(i, t'), mem_kept.mpr ⟨t, ht⟩, rfl⟩

/-- Other timers do not bring one back. -/
theorem timersAfter_filter_nil (h : (timers.filter fun t => t.id = id) = []) :
    ((timersAfter clock timers).filter fun t => t.id = id) = [] := by
  have hsub := timersAfter_filter_sublist clock timers id
  rw [h] at hsub
  exact List.sublist_nil.mp hsub

/-- The timer of an id stays, unless it is a one-shot timer that is due at one of the readings. -/
theorem timersAfter_filter_single (hclock : Monotone clock)
    (h : (timers.filter fun t => t.id = id) = [t]) :
    (((timersAfter clock timers).filter fun t => t.id = id) = [t.refreshed (clock 0)] ∧
        (t.repeats = true ∨ clock 0 < t.deadline)) ∨
      (((timersAfter clock timers).filter fun t => t.id = id) = [] ∧
        t.repeats = false ∧ (NoneFallsDue clock timers → t.deadline ≤ clock 0)) := by
  have hmem : ∀ t', t' ∈ timers ∧ t'.id = id ↔ t' = t := by
    intro t'
    have hfilter : t' ∈ timers.filter (fun t => t.id = id) ↔ t' = t := by
      rw [h, List.mem_singleton]
    simpa using hfilter
  obtain ⟨htimers, hid⟩ := (hmem t).mpr rfl
  obtain ⟨i, hslot⟩ := List.getElem?_of_mem htimers
  have hsub := timersAfter_filter_sublist clock timers id
  rw [h, List.map_singleton] at hsub
  rcases List.sublist_singleton.mp hsub with hnil | hone
  · right
    have hgone : ¬(t.repeats = true ∨ reading clock timers i < t.deadline) := by
      intro hor
      have hkept : t.refreshed (clock 0) ∈ (timersAfter clock timers).filter fun t => t.id = id :=
        List.mem_filter.mpr ⟨mem_timersAfter.mpr ⟨i, t, hslot, rfl, hor⟩, by simp [refreshed_id, hid]⟩
      rw [hnil] at hkept
      simp at hkept
    rw [not_or, Bool.not_eq_true] at hgone
    refine ⟨hnil, hgone.1, fun hnone => ?_⟩
    by_contra hdue
    exact hgone.2 (hnone i t hslot hgone.1 (not_le.mp hdue))
  · left
    refine ⟨hone, ?_⟩
    have hkept : t.refreshed (clock 0) ∈ timersAfter clock timers :=
      List.mem_of_mem_filter (hone ▸ List.mem_singleton_self (t.refreshed (clock 0)))
    obtain ⟨j, t₁, hslot₁, hsame, hor⟩ := mem_timersAfter.mp hkept
    have hid₁ : t₁.id = id := by
      rw [← refreshed_id (clock 0) t₁, ← hsame, refreshed_id, hid]
    obtain rfl := (hmem t₁).mp ⟨List.mem_of_getElem? hslot₁, hid₁⟩
    have hlater : clock 0 ≤ reading clock timers j := hclock (Nat.zero_le _)
    rcases hor with hrepeats | hread
    · exact .inl hrepeats
    · exact .inr (by omega)

/-! ## The ids in use -/

/-- The timers of the table and those whose callback ran were timersAdded before. -/
theorem replay_ids (calls : List (TimerCall γ)) :
    (∀ t ∈ (Schedule.replay calls).loop.timers, ∃ n < timersAdded calls, t.id = timerId n) ∧
      ∀ r ∈ (Schedule.replay calls).ran, ∃ n < timersAdded calls, r.id = timerId n := by
  induction calls using List.reverseRecOn with
  | nil => exact ⟨nofun, nofun⟩
  | append_singleton calls call ih =>
    have hmono : timersAdded calls ≤ timersAdded (calls ++ [call]) := by
      rw [timersAdded_concat]
      omega
    have hnext := replay_nextTimerId calls
    rw [replay_concat]
    obtain ⟨htimers, hran⟩ := ih
    have hold : ∀ t ∈ (Schedule.replay calls).loop.timers,
        ∃ n < timersAdded (calls ++ [call]), t.id = timerId n := by
      intro t ht
      obtain ⟨n, hn, hid⟩ := htimers t ht
      exact ⟨n, hn.trans_le hmono, hid⟩
    have holdRan : ∀ r ∈ (Schedule.replay calls).ran,
        ∃ n < timersAdded (calls ++ [call]), r.id = timerId n := by
      intro r hr
      obtain ⟨n, hn, hid⟩ := hran r hr
      exact ⟨n, hn.trans_le hmono, hid⟩
    rcases call with ⟨⟨fd, callback⟩ | ⟨fd⟩ | ⟨now, delay, callback, repeats⟩ | ⟨id⟩⟩ | ⟨clock⟩
    · exact ⟨hold, holdRan⟩
    · exact ⟨hold, holdRan⟩
    · refine ⟨fun t ht => ?_, holdRan⟩
      rcases List.mem_append.mp ht with ht | ht
      · exact hold t ht
      · obtain rfl := List.mem_singleton.mp ht
        refine ⟨timersAdded calls, ?_, hnext⟩
        rw [timersAdded_concat]
        exact Nat.lt_succ_self _
    · exact ⟨fun t ht => hold t (List.mem_of_mem_filter ht), holdRan⟩
    · refine ⟨fun t ht => ?_, fun r hr => ?_⟩
      · obtain ⟨i, t₁, hslot, rfl, -⟩ := mem_timersAfter.mp ht
        rw [refreshed_id]
        exact hold t₁ (List.mem_of_getElem? hslot)
      · rcases List.mem_append.mp hr with hr | hr
        · exact holdRan r hr
        · rw [timerRuns_eq] at hr
          obtain ⟨t₁, ht₁, rfl⟩ := List.mem_map.mp hr
          exact hold t₁ (List.mem_of_mem_filter ht₁)

/-- Every deadline in the table is a time point. -/
theorem replay_timePoints (calls : List (TimerCall γ)) :
    ∀ t ∈ (Schedule.replay calls).loop.timers, IsTimePoint t.deadline := by
  induction calls using List.reverseRecOn with
  | nil => nofun
  | append_singleton calls call ih =>
    rw [replay_concat]
    intro t ht
    rcases call with ⟨⟨fd, callback⟩ | ⟨fd⟩ | ⟨now, delay, callback, repeats⟩ | ⟨id⟩⟩ | ⟨clock⟩
    · exact ih t ht
    · exact ih t ht
    · rcases List.mem_append.mp ht with ht | ht
      · exact ih t ht
      · obtain rfl := List.mem_singleton.mp ht
        exact isTimePoint_timePoint (now + millis delay)
    · exact ih t (List.mem_of_mem_filter ht)
    · obtain ⟨i, t₁, hslot, rfl, -⟩ := mem_timersAfter.mp ht
      unfold Timer.refreshed
      split_ifs
      · exact isTimePoint_timePoint (clock 0 + millis t₁.interval)
      · exact ih t₁ (List.mem_of_getElem? hslot)

/-- The next id is new. -/
theorem replay_fresh {calls : List (TimerCall γ)} (hids : timersAdded calls < 2 ^ 64) :
    ((Schedule.replay calls).loop.timers.filter fun t => t.id = timerId (timersAdded calls)) = [] ∧
      (Schedule.replay calls).runsOf (timerId (timersAdded calls)) = [] := by
  obtain ⟨htimers, hran⟩ := replay_ids calls
  have hne : ∀ n < timersAdded calls, timerId n ≠ timerId (timersAdded calls) := by
    intro n hn heq
    have := timerId_inj (hn.trans hids) hids heq
    omega
  constructor
  · apply List.filter_eq_nil_iff.mpr
    intro t ht
    obtain ⟨n, hn, hid⟩ := htimers t ht
    simpa [hid] using hne n hn
  · apply List.filter_eq_nil_iff.mpr
    intro r hr
    obtain ⟨n, hn, hid⟩ := hran r hr
    simpa [hid] using hne n hn

/-! ## A timer and its alarm -/

variable {callback : γ} {delay : ℤ} {repeats : Bool} {alarm : Alarm ℤ} {s : Schedule γ}
  {runs : List (TimerRun γ)}

/-- When the alarm of a timer is set again. -/
def rearm (repeats : Bool) (delay : ℤ) : Option (ℤ → ℤ) :=
  if repeats then some fun now => timePoint (now + millis delay) else none

/-- What a call means to the alarm of the timer `id`. -/
def eventFor (id : UInt64) : TimerCall γ → Option (Alarm.Event ℤ)
  | .fire clock => some (.look (clock 0))
  | .serve (.cancelTimer id') => if id' = id then some .stop else none
  | _ => none

/-- The timer `id` is in the table as long as its alarm is due, and its callback ran when the
    alarm went off. -/
structure Tracks (id : UInt64) (callback : γ) (delay : ℤ) (repeats : Bool) (alarm : Alarm ℤ)
    (s : Schedule γ) : Prop where
  timer : (s.loop.timers.filter fun t => t.id = id) =
    alarm.due.toList.map fun deadline => ⟨id, deadline, callback, repeats, delay⟩
  ran : s.runsOf id = alarm.rung.map fun reading => ⟨id, callback, reading⟩

/-- The timer `id` is gone, after its callback ran as `runs` says. -/
structure Gone (id : UInt64) (runs : List (TimerRun γ)) (s : Schedule γ) : Prop where
  timer : (s.loop.timers.filter fun t => t.id = id) = []
  ran : s.runsOf id = runs

theorem runsOf_fire (clock : ℕ → ℤ) (s : Schedule γ) (id : UInt64) :
    (s.step (.fire clock)).runsOf id = s.runsOf id ++
      ((s.loop.timers.filter fun t => t.id = id).filter fun t => t.deadline ≤ clock 0).map
        fun t => ⟨t.id, t.callback, clock 0⟩ := by
  show (s.ran ++ timerRuns clock s.loop.timers).filter _ = _
  rw [List.filter_append, timerRuns_filter]
  rfl

/-- A timer that is gone does not come back as long as its id is not given again. -/
theorem Gone.step (h : Gone id runs s) (call : TimerCall γ)
    (hnew : call.adds → s.loop.nextTimerId ≠ id) : Gone id runs (s.step call) := by
  rcases call with ⟨⟨fd, callback⟩ | ⟨fd⟩ | ⟨now, delay, callback, repeats⟩ | ⟨id'⟩⟩ | ⟨clock⟩
  · exact ⟨h.timer, h.ran⟩
  · exact ⟨h.timer, h.ran⟩
  · refine ⟨?_, h.ran⟩
    show (s.loop.timers ++ [_]).filter _ = _
    rw [List.filter_append, h.timer]
    simpa using hnew rfl
  · refine ⟨?_, h.ran⟩
    show (s.loop.timers.filter _).filter _ = _
    rw [List.filter_filter]
    apply List.filter_eq_nil_iff.mpr
    intro t ht
    have hid := List.filter_eq_nil_iff.mp h.timer t ht
    simp at hid
    simp [hid]
  · refine ⟨timersAfter_filter_nil h.timer, ?_⟩
    rw [runsOf_fire, h.timer, h.ran]
    exact List.append_nil runs

/-- The id of an older timer is not given again. -/
theorem nextTimerId_ne {calls : List (TimerCall γ)} {call : TimerCall γ} {n : ℕ}
    (hn : n < timersAdded calls) (hids : timersAdded (calls ++ [call]) < 2 ^ 64) :
    call.adds → (Schedule.replay calls).loop.nextTimerId ≠ timerId n := by
  intro hadds heq
  rw [timersAdded_concat, if_pos hadds] at hids
  rw [replay_nextTimerId] at heq
  have := timerId_inj (by omega) (by omega) heq
  omega

theorem timersAdded_le (calls more : List (TimerCall γ)) :
    timersAdded calls ≤ timersAdded (calls ++ more) := by
  unfold timersAdded
  rw [List.countP_append]
  exact Nat.le_add_right _ _

theorem Gone.replay {calls : List (TimerCall γ)} {n : ℕ} (more : List (TimerCall γ))
    (h : Gone (timerId n) runs (Schedule.replay calls)) (hn : n < timersAdded calls)
    (hids : timersAdded (calls ++ more) < 2 ^ 64) :
    Gone (timerId n) runs (Schedule.replay (calls ++ more)) := by
  induction more using List.reverseRecOn with
  | nil => rwa [List.append_nil]
  | append_singleton more call ih =>
    rw [← List.append_assoc] at hids ⊢
    rw [replay_concat]
    have hle := timersAdded_le (calls ++ more) [call]
    exact (ih (by omega)).step call (nextTimerId_ne (hn.trans_le (timersAdded_le calls more)) hids)

theorem Tracks.serve_other (h : Tracks id callback delay repeats alarm s) {request : Request γ}
    (htimers : ((s.loop.serve request).timers.filter fun t => t.id = id) =
      s.loop.timers.filter fun t => t.id = id) :
    Tracks id callback delay repeats alarm (s.step (.serve request)) :=
  ⟨htimers.trans h.timer, h.ran⟩

/-- A timer is cancelled. -/
theorem Tracks.cancel (h : Tracks id callback delay repeats alarm s) (id' : UInt64) :
    Tracks id callback delay repeats
      ((eventFor id (.serve (.cancelTimer id') : TimerCall γ)).toList.foldl
        (Alarm.step (rearm repeats delay)) alarm) (s.step (.serve (.cancelTimer id'))) := by
  by_cases hid : id' = id
  · subst hid
    have hevent : eventFor id' (.serve (.cancelTimer id') : TimerCall γ) = some .stop := if_pos rfl
    rw [hevent]
    refine ⟨?_, h.ran⟩
    show (s.loop.timers.filter _).filter _ = _
    rw [List.filter_filter]
    apply List.filter_eq_nil_iff.mpr
    intro t _
    simp
  · have hevent : eventFor id (.serve (.cancelTimer id') : TimerCall γ) = none := if_neg hid
    rw [hevent]
    apply h.serve_other
    show (s.loop.timers.filter _).filter _ = _
    rw [List.filter_filter]
    apply List.filter_congr
    intro t _
    by_cases hsame : t.id = id
    · simpa [hsame] using Ne.symm hid
    · simp [hsame]

/-- A call of `fire_timers`: the timer does what its alarm does, or it is a one-shot timer that
    falls due between two readings. -/
theorem Tracks.fire (h : Tracks id callback delay repeats alarm s) {start : ℤ}
    (hsound : alarm.Sound (rearm repeats delay) start) {clock : ℕ → ℤ} (hclock : Monotone clock) :
    Tracks id callback delay repeats (alarm.step (rearm repeats delay) (.look (clock 0)))
        (s.step (.fire clock)) ∨
      (Gone id [] (s.step (.fire clock)) ∧ repeats = false ∧ ¬NoneFallsDue clock s.loop.timers) := by
  have hran := runsOf_fire clock s id
  rw [h.timer, h.ran] at hran
  cases hdue : alarm.due with
  | none =>
    left
    rw [hdue] at hran
    rw [Alarm.step_look_of_none hdue]
    have hnil : (s.loop.timers.filter fun t => t.id = id) = [] := by rw [h.timer, hdue]; rfl
    refine ⟨?_, ?_⟩
    · rw [hdue]
      exact timersAfter_filter_nil hnil
    · rw [hran]
      exact List.append_nil _
  | some deadline =>
    rw [hdue] at hran
    have hone : (s.loop.timers.filter fun t => t.id = id) =
        [⟨id, deadline, callback, repeats, delay⟩] := by rw [h.timer, hdue]; rfl
    have hkept := timersAfter_filter_single hclock hone
    by_cases hle : deadline ≤ clock 0
    · left
      rw [Alarm.step_look_of_le hdue hle]
      refine ⟨?_, ?_⟩
      · show (timersAfter clock s.loop.timers).filter _ = _
        rcases hkept with ⟨hstays, hor⟩ | ⟨hgone, hrepeats, -⟩
        · have hrepeats : repeats = true := hor.resolve_right (not_lt.mpr hle)
          subst hrepeats
          rw [hstays, Timer.refreshed, if_pos ⟨hle, rfl⟩]
          rfl
        · have hfalse : repeats = false := hrepeats
          subst hfalse
          rw [hgone]
          rfl
      · rw [hran]
        simp [hle]
    · rw [Alarm.step_look_of_not_le hdue hle]
      have hquiet : (s.step (.fire clock)).runsOf id =
          alarm.rung.map fun reading => ⟨id, callback, reading⟩ := by
        rw [hran]
        simp [hle]
      rcases hkept with ⟨hstays, -⟩ | ⟨hgone, hrepeats, hdue'⟩
      · refine .inl ⟨?_, hquiet⟩
        show (timersAfter clock s.loop.timers).filter _ = _
        rw [hstays, Timer.refreshed, if_neg fun hand => hle hand.1, hdue]
        rfl
      · have hfalse : repeats = false := hrepeats
        refine .inr ⟨⟨hgone, ?_⟩, hfalse, fun hnone => hle (hdue' hnone)⟩
        -- a one-shot timer that is still due has not run
        have hnil : alarm.rung = [] := by
          by_contra hne
          obtain ⟨p, hp, -⟩ := hsound.due_next _ (List.getLast?_eq_some_getLast hne) deadline hdue
          simp [rearm, hfalse] at hp
        rw [hquiet, hnil]
        rfl

/-! ## The timers of a run -/

/-- The alarm of a timer added at `now`, after some more calls. Like the timer it is set for
    time points. -/
def alarmOf (id : UInt64) (now delay : ℤ) (repeats : Bool) (after : List (TimerCall γ)) : Alarm ℤ :=
  Alarm.run (rearm repeats delay) (timePoint (now + millis delay)) (after.filterMap (eventFor id))

/-- No one-shot timer falls due between two readings of one call of `fire_timers`. -/
def Punctual (calls : List (TimerCall γ)) : Prop :=
  Runs.Steps Schedule.step
    (fun s call => ∀ clock, call = .fire clock → NoneFallsDue clock s.loop.timers) {} calls

theorem punctual_concat {calls : List (TimerCall γ)} {call : TimerCall γ} :
    Punctual (calls ++ [call]) ↔ Punctual calls ∧
      ∀ clock, call = .fire clock → NoneFallsDue clock (Schedule.replay calls).loop.timers :=
  Runs.Steps.snoc

theorem alarmOf_concat (id : UInt64) (now delay : ℤ) (repeats : Bool) (after : List (TimerCall γ))
    (call : TimerCall γ) :
    alarmOf id now delay repeats (after ++ [call]) =
      (eventFor id call).toList.foldl (Alarm.step (rearm repeats delay))
        (alarmOf id now delay repeats after) := by
  unfold alarmOf Alarm.run
  rw [List.filterMap_append, List.foldl_append]
  cases hevent : eventFor id call <;> simp [hevent]

theorem timersAdded_mid (before after : List (TimerCall γ)) (now delay : ℤ) (callback : γ)
    (repeats : Bool) :
    timersAdded before <
      timersAdded (before ++ .serve (.addTimer now delay callback repeats) :: after) := by
  unfold timersAdded
  rw [List.countP_append, List.countP_cons_of_pos rfl]
  omega

/-- After any calls a timer does what its alarm does, or it is a one-shot timer that was lost. -/
theorem tracks_replay (before after : List (TimerCall γ)) (now delay : ℤ) (callback : γ)
    (repeats : Bool)
    (hids : timersAdded (before ++ .serve (.addTimer now delay callback repeats) :: after) < 2 ^ 64)
    (hclock : ∀ clock, TimerCall.fire clock ∈ after → Monotone clock) :
    Tracks (timerId (timersAdded before)) callback delay repeats
        (alarmOf (timerId (timersAdded before)) now delay repeats after)
        (Schedule.replay (before ++ .serve (.addTimer now delay callback repeats) :: after)) ∨
      (Gone (timerId (timersAdded before)) []
          (Schedule.replay (before ++ .serve (.addTimer now delay callback repeats) :: after)) ∧
        repeats = false ∧
        ¬Punctual (before ++ .serve (.addTimer now delay callback repeats) :: after)) := by
  induction after using List.reverseRecOn with
  | nil =>
    left
    have hle := timersAdded_mid before [] now delay callback repeats
    have hfresh : timersAdded before < 2 ^ 64 := by omega
    obtain ⟨htimers, hran⟩ := replay_fresh hfresh
    rw [replay_concat]
    refine ⟨?_, hran⟩
    show ((Schedule.replay before).loop.timers ++ [_]).filter _ = _
    rw [List.filter_append, htimers, replay_nextTimerId]
    simp [alarmOf, Alarm.run]
  | append_singleton after call ih =>
    rw [← List.cons_append, ← List.append_assoc] at hids ⊢
    have hle := timersAdded_le
      (before ++ .serve (.addTimer now delay callback repeats) :: after) [call]
    have hmid := timersAdded_mid before after now delay callback repeats
    have hnew := nextTimerId_ne hmid hids
    rw [replay_concat, punctual_concat, alarmOf_concat]
    rcases ih (by omega) fun clock h => hclock clock (List.mem_append_left _ h) with
      htracks | ⟨hgone, hrepeats, hlate⟩
    · rcases call with ⟨⟨fd, callback'⟩ | ⟨fd⟩ | ⟨now', delay', callback', repeats'⟩ | ⟨id'⟩⟩ | ⟨clock⟩
      · exact .inl (htracks.serve_other rfl)
      · exact .inl (htracks.serve_other rfl)
      · left
        apply htracks.serve_other
        show ((Schedule.replay _).loop.timers ++ [_]).filter _ = _
        rw [List.filter_append]
        simpa using hnew rfl
      · exact .inl (htracks.cancel id')
      · have hsound := Alarm.sound_run (rearm repeats delay) (timePoint (now + millis delay))
          (after.filterMap (eventFor (timerId (timersAdded before))))
        rcases htracks.fire hsound (hclock clock (by simp)) with hnext | ⟨hgone, hrepeats, hdue⟩
        · exact .inl hnext
        · exact .inr ⟨hgone, hrepeats, fun h => hdue (h.2 clock rfl)⟩
    · exact .inr ⟨hgone.step call hnew, hrepeats, fun h => hlate h.1⟩

section

variable (react : γ → IoEvent → σ → Reaction σ γ)

theorem loopRun_tracks {calls : List (LoopCall σ γ)} {before after : List (TimerCall γ)} {now : ℤ}
    (hadded : (loopRun react calls).history =
      before ++ .serve (.addTimer now delay callback repeats) :: after)
    (hids : timersAdded (loopRun react calls).history < 2 ^ 64)
    (hclock : ∀ clock, TimerCall.fire clock ∈ (loopRun react calls).history → Monotone clock) :
    Tracks (timerId (timersAdded before)) callback delay repeats
        (alarmOf (timerId (timersAdded before)) now delay repeats after) (loopRun react calls) ∨
      (Gone (timerId (timersAdded before)) [] (loopRun react calls) ∧ repeats = false ∧
        ¬Punctual (loopRun react calls).history) := by
  rw [loopRun_eq_replay, replay_history, hadded]
  rw [hadded] at hids hclock
  exact tracks_replay before after now delay callback repeats hids
    fun clock h => hclock clock (by simp [h])

theorem runsOf_isPrefix {calls : List (LoopCall σ γ)} {before after : List (TimerCall γ)} {now : ℤ}
    (hadded : (loopRun react calls).history =
      before ++ .serve (.addTimer now delay callback repeats) :: after)
    (hids : timersAdded (loopRun react calls).history < 2 ^ 64)
    (hclock : ∀ clock, TimerCall.fire clock ∈ (loopRun react calls).history → Monotone clock) :
    (loopRun react calls).runsOf (timerId (timersAdded before)) <+:
      (alarmOf (timerId (timersAdded before)) now delay repeats after).rung.map
        fun reading => ⟨timerId (timersAdded before), callback, reading⟩ := by
  rcases loopRun_tracks react hadded hids hclock with htracks | ⟨hgone, -, -⟩
  · rw [htracks.ran]
  · rw [hgone.ran]
    exact List.nil_prefix

/-- A one-shot timer runs at most once. -/
theorem runsOf_once {calls : List (LoopCall σ γ)} {before after : List (TimerCall γ)} {now : ℤ}
    (hadded : (loopRun react calls).history =
      before ++ .serve (.addTimer now delay callback false) :: after)
    (hids : timersAdded (loopRun react calls).history < 2 ^ 64)
    (hclock : ∀ clock, TimerCall.fire clock ∈ (loopRun react calls).history → Monotone clock) :
    ((loopRun react calls).runsOf (timerId (timersAdded before))).length ≤ 1 := by
  have hsound := Alarm.sound_run (rearm false delay) (timePoint (now + millis delay))
    (after.filterMap (eventFor (timerId (timersAdded before))))
  have hlength := (runsOf_isPrefix react hadded hids hclock).length_le
  rw [List.length_map] at hlength
  exact hlength.trans (hsound.once rfl)

/-- After `cancel_timer` a timer does not run. -/
theorem runsOf_cancelled {calls : List (LoopCall σ γ)} {before mid rest : List (TimerCall γ)} {now : ℤ}
    (hadded : (loopRun react calls).history =
      before ++ .serve (.addTimer now delay callback repeats) ::
        (mid ++ .serve (.cancelTimer (timerId (timersAdded before))) :: rest))
    (hids : timersAdded (loopRun react calls).history < 2 ^ 64) :
    (loopRun react calls).runsOf (timerId (timersAdded before)) = (Schedule.replay
      (before ++ .serve (.addTimer now delay callback repeats) :: mid)).runsOf
        (timerId (timersAdded before)) := by
  have hmid := timersAdded_mid before mid now delay callback repeats
  have hsplit : (loopRun react calls).history =
      (before ++ .serve (.addTimer now delay callback repeats) :: mid) ++
        [.serve (.cancelTimer (timerId (timersAdded before)))] ++ rest := by
    rw [hadded]
    simp
  have hhistory : loopRun react calls = Schedule.replay _ :=
    (loopRun_eq_replay react calls).trans (congrArg Schedule.replay hsplit)
  rw [hsplit] at hids
  rw [hhistory]
  clear hadded hsplit hhistory
  generalize timersAdded before = n at *
  generalize before ++ TimerCall.serve (.addTimer now delay callback repeats) :: mid = called at *
  have hgone : Gone (timerId n) ((Schedule.replay called).runsOf (timerId n))
      (Schedule.replay (called ++ [.serve (.cancelTimer (timerId n))])) := by
    rw [replay_concat]
    refine ⟨?_, rfl⟩
    show ((Schedule.replay _).loop.timers.filter _).filter _ = _
    rw [List.filter_filter]
    apply List.filter_eq_nil_iff.mpr
    intro t _
    simp
  have hle := timersAdded_le called [.serve (.cancelTimer (timerId n))]
  exact (hgone.replay rest (hmid.trans_le hle) hids).ran

/-- In every run of the event loop every deadline in the table is a time point, as
    `fires_properly_iff` asks. -/
theorem deadlines_are_timePoints (calls : List (LoopCall σ γ)) :
    ∀ t ∈ (loopRun react calls).loop.timers, IsTimePoint t.deadline := by
  rw [loopRun_eq_replay]
  exact replay_timePoints (loopRun react calls).history

/-- Timers do not disturb each other: in every run of the event loop the callback of a timer
    runs at the readings at which an alarm by itself would go off, and the timer is in the
    table as long as that alarm is due. Only a one-shot timer may miss it, when it falls due
    between two readings of one call of `fire_timers`; then its callback does not run. -/
theorem timers_run_alone (calls : List (LoopCall σ γ)) (before after : List (TimerCall γ))
    (now delay : ℤ) (callback : γ) (repeats : Bool)
    (hadded : (loopRun react calls).history =
      before ++ .serve (.addTimer now delay callback repeats) :: after)
    (hids : timersAdded (loopRun react calls).history < 2 ^ 64)
    (hclock : ∀ clock, TimerCall.fire clock ∈ (loopRun react calls).history → Monotone clock) :
    let id := timerId (timersAdded before)
    let alarm := alarmOf id now delay repeats after
    (repeats = true ∨ Punctual (loopRun react calls).history →
        Tracks id callback delay repeats alarm (loopRun react calls)) ∧
      (loopRun react calls).runsOf id <+:
        alarm.rung.map fun reading => ⟨id, callback, reading⟩ := by
  intro id alarm
  refine ⟨fun hor => ?_, runsOf_isPrefix react hadded hids hclock⟩
  rcases loopRun_tracks react hadded hids hclock with htracks | ⟨-, hrepeats, hlate⟩
  · exact htracks
  · rcases hor with htrue | hpunctual
    · exact absurd (htrue.symm.trans hrepeats) (by decide)
    · exact absurd hpunctual hlate

/-- A timer keeps time, in every run of the event loop: its own callback runs, not before the
    delay is over, again only when the interval has passed since the last time, once if it is a
    one-shot timer, and never after the timer was cancelled. A delay or an interval that ends
    past the last time point is the exception: it may be over at once. -/
theorem timers_keep_time (calls : List (LoopCall σ γ)) (before after : List (TimerCall γ))
    (now delay : ℤ) (callback : γ) (repeats : Bool)
    (hadded : (loopRun react calls).history =
      before ++ .serve (.addTimer now delay callback repeats) :: after)
    (hids : timersAdded (loopRun react calls).history < 2 ^ 64)
    (hclock : ∀ clock, TimerCall.fire clock ∈ (loopRun react calls).history → Monotone clock) :
    let id := timerId (timersAdded before)
    let runs := (loopRun react calls).runsOf id
    (∀ r ∈ runs, r.callback = callback) ∧
      (now + millis delay < 2 ^ 63 → ∀ r ∈ runs.head?, now + millis delay ≤ r.reading) ∧
      runs.IsChain (fun r r' => r.reading + millis delay < 2 ^ 63 →
        r.reading + millis delay ≤ r'.reading) ∧
      (repeats = false → runs.length ≤ 1) ∧
      ∀ mid rest, after = mid ++ .serve (.cancelTimer id) :: rest →
        runs = (Schedule.replay
          (before ++ .serve (.addTimer now delay callback repeats) :: mid)).runsOf id := by
  intro id runs
  have hsound := Alarm.sound_run (rearm repeats delay) (timePoint (now + millis delay))
    (after.filterMap (eventFor id))
  obtain ⟨rest, hrest⟩ := runsOf_isPrefix react hadded hids hclock
  set rung := (alarmOf id now delay repeats after).rung with hrung
  have hruns : runs = (rung.take runs.length).map fun reading => ⟨id, callback, reading⟩ := by
    rw [List.map_take, ← hrest, List.take_left]
  have honce : repeats = false → runs.length ≤ 1 := by
    rintro rfl
    exact runsOf_once react hadded hids hclock
  refine ⟨?_, ?_, ?_, honce, ?_⟩
  · intro r hr
    rw [hruns] at hr
    obtain ⟨reading, -, rfl⟩ := List.mem_map.mp hr
    rfl
  · intro hfits r hr
    have hhead : r ∈ (rung.map fun reading => (⟨id, callback, reading⟩ : TimerRun γ)).head? := by
      rw [← hrest]
      exact List.mem_head?_append_of_mem_head? hr
    rw [List.head?_map] at hhead
    obtain ⟨reading, hreading, rfl⟩ := Option.map_eq_some_iff.mp hhead
    exact (le_timePoint hfits).trans (hsound.first reading hreading)
  · cases hrepeats : repeats with
    | true =>
      rw [hruns, List.isChain_map]
      refine (hsound.spaced.take runs.length).imp fun a b h hfits => ?_
      exact (le_timePoint hfits).trans (h _ (by rw [rearm, hrepeats]; rfl))
    | false =>
      have hlength := honce hrepeats
      rcases hcase : runs with _ | ⟨r, _ | ⟨r', more⟩⟩
      · exact .nil
      · exact List.isChain_singleton r
      · rw [hcase, List.length_cons, List.length_cons] at hlength
        omega
  · intro mid rest' hafter
    subst hafter
    exact runsOf_cancelled react hadded hids

end

/-- Callbacks of descriptors that do nothing. -/
def idleReact (_ : Unit) (_ : IoEvent) (_ : Unit) : Reaction Unit Unit := { state := () }

/-- A repeating timer of 2 ms next to a one-shot timer, and a clock that stands still in a poll. -/
def sampleLoop : List (LoopCall Unit Unit) :=
  [.request (.addTimer 0 1 () false), .request (.addTimer 0 2 () true),
    .poll () [] fun _ => 3000000, .poll () [] fun _ => 4000000, .poll () [] fun _ => 6000000]

theorem sampleLoop_clock (clock : ℕ → ℤ)
    (h : TimerCall.fire clock ∈ (loopRun idleReact sampleLoop).history) : Monotone clock := by
  change _ ∈ [_, _, _, _, _] at h
  simp only [List.mem_cons, TimerCall.fire.injEq, reduceCtorEq, false_or, List.not_mem_nil,
    or_false] at h
  rcases h with rfl | rfl | rfl <;> exact monotone_const

/-- The callback of the repeating timer runs at 3 ms and at 6 ms. -/
theorem timers_run_alone_sampleLoop :
    (loopRun idleReact sampleLoop).runsOf 2 = [⟨2, (), 3000000⟩, ⟨2, (), 6000000⟩] := by
  have h := timers_run_alone idleReact sampleLoop [.serve (.addTimer 0 1 () false)]
    [.fire fun _ => 3000000, .fire fun _ => 4000000, .fire fun _ => 6000000] 0 2 () true rfl
    (by decide) sampleLoop_clock
  exact (h.1 (.inl rfl)).ran

/-- The one-shot timer next to it runs once, not before 1 ms. -/
theorem timers_keep_time_sampleLoop :
    ((loopRun idleReact sampleLoop).runsOf 1).length ≤ 1 ∧
      ∀ r ∈ ((loopRun idleReact sampleLoop).runsOf 1).head?, 1000000 ≤ r.reading := by
  have h := timers_keep_time idleReact sampleLoop []
    [.serve (.addTimer 0 2 () true), .fire fun _ => 3000000, .fire fun _ => 4000000,
      .fire fun _ => 6000000] 0 1 () false rfl (by decide) sampleLoop_clock
  exact ⟨h.2.2.2.1 rfl, h.2.1 (by decide)⟩

end PeerCore.Runtime
