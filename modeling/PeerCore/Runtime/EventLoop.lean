import PeerCore.Types

/-!
# The event loop

Model of `runtime/event_loop.cpp`, as built on `epoll`: the handlers of file
descriptors, the timers, and one `poll_with_timeout`.

* A `std::function` is an element of an arbitrary type `γ`. What the callback of a
  descriptor does is given by `react`: from the state `σ` of the rest of the
  program it makes calls to the event loop, in order, and leaves a new state. An
  exception of `register_fd` that it does not catch ends the poll.
* `std::chrono::steady_clock` counts nanoseconds in 64 bits, with a sign. A sum that
  does not fit wraps (`timePoint`). `clock n` is the `n`-th reading of the clock in one
  call.
* `fd_handlers_` is an array and the loop variable `h` of `poll_with_timeout` an
  index into it.
-/

namespace PeerCore

/-- A file descriptor. -/
abbrev Fd := ℤ

/-- `IoEvent` (`event_loop.hpp:13`). -/
inductive IoEvent
  | readable | writable | error
  deriving DecidableEq

/-- One event of `epoll_wait`, with the bits it has. -/
structure ReadyEvent where
  fd : Fd
  input : Bool := false
  output : Bool := false
  error : Bool := false

namespace Runtime

/-! ## Handlers and timers -/

/-- `FdHandler` (`event_loop.hpp:15-18`). -/
structure FdHandler (γ : Type) where
  fd : Fd
  callback : γ
  deriving DecidableEq

/-- `Timer` (`event_loop.hpp:20-26`): `deadline` in nanoseconds, `interval` in
    milliseconds. -/
structure Timer (γ : Type) where
  id : UInt64
  deadline : ℤ
  callback : γ
  repeats : Bool := false
  interval : ℤ := 0
  deriving DecidableEq

/-- The tables of `EventLoop` (`event_loop.hpp:58-60`). -/
structure EventLoop (γ : Type) where
  fdHandlers : List (FdHandler γ) := []
  timers : List (Timer γ) := []
  nextTimerId : UInt64 := 1

variable {γ σ : Type}

/-- Nanoseconds of a `std::chrono::milliseconds`. -/
def millis (ms : ℤ) : ℤ := ms * 1000000

/-- A `steady_clock::time_point` of so many nanoseconds, in 64 bits. -/
def timePoint (ns : ℤ) : ℤ := Int.bmod ns (2 ^ 64)

/-- The integers that are time points. -/
def IsTimePoint (ns : ℤ) : Prop := -2 ^ 63 ≤ ns ∧ ns < 2 ^ 63

theorem isTimePoint_timePoint (ns : ℤ) : IsTimePoint (timePoint ns) := by
  unfold IsTimePoint timePoint
  rw [Int.bmod_def]
  split_ifs <;> omega

/-- Wrapping makes a sum earlier only if it passes the last time point. -/
theorem le_timePoint {ns : ℤ} (h : ns < 2 ^ 63) : ns ≤ timePoint ns := by
  unfold timePoint
  rw [Int.bmod_def]
  split_ifs <;> omega

/-- When the time point `gap` nanoseconds after `due` is past it. -/
theorem lt_timePoint_iff {due gap : ℤ} (h : IsTimePoint due) :
    due < timePoint (due + gap) ↔ 0 < gap % 2 ^ 64 ∧ gap % 2 ^ 64 < 2 ^ 63 - due := by
  unfold IsTimePoint at h
  unfold timePoint
  rw [Int.bmod_def]
  constructor
  · intro hlt
    split_ifs at hlt <;> omega
  · rintro ⟨hpos, hroom⟩
    split_ifs <;> omega

namespace EventLoop

/-- `register_fd` (`event_loop.cpp:51-71`), when `epoll_ctl` succeeds. -/
def registerFd (fd : Fd) (callback : γ) (loop : EventLoop γ) : EventLoop γ :=
  { loop with fdHandlers := loop.fdHandlers ++ [⟨fd, callback⟩] }

/-- `unregister_fd` (`event_loop.cpp:73-87`). -/
def unregisterFd (fd : Fd) (loop : EventLoop γ) : EventLoop γ :=
  { loop with fdHandlers := loop.fdHandlers.filter fun h => h.fd ≠ fd }

/-- `add_timer` (`event_loop.cpp:91-99`), with the clock at `now`. -/
def addTimer (now delay : ℤ) (callback : γ) (repeats : Bool) (loop : EventLoop γ) : EventLoop γ :=
  { loop with
    timers := loop.timers ++
      [⟨loop.nextTimerId, timePoint (now + millis delay), callback, repeats, delay⟩]
    nextTimerId := loop.nextTimerId + 1 }

/-- `cancel_timer` (`event_loop.cpp:101-107`). -/
def cancelTimer (id : UInt64) (loop : EventLoop γ) : EventLoop γ :=
  { loop with timers := loop.timers.filter fun t => t.id ≠ id }

end EventLoop

/-! ## `fire_timers` and `next_timer_delay` -/

/-- The first loop of `fire_timers`, on the timers from position `slot` on: the
    timers afterwards and the positions of those whose callback ran, in order. -/
def fireLoop (now : ℤ) : ℕ → List (Timer γ) → List (Timer γ) × List ℕ
  | _, [] => ([], [])
  | slot, t :: timers =>
    let (timers', fired) := fireLoop now (slot + 1) timers
    if now ≥ t.deadline then
      ((if t.repeats then { t with deadline := timePoint (now + millis t.interval) } else t) ::
        timers', slot :: fired)
    else (t :: timers', fired)

/-- The `remove_if` of `fire_timers`, on the timers from position `slot` on: those
    kept, each with its position. The predicate reads the clock for a one-shot
    timer only; `n` readings have been taken. -/
def eraseLoop (clock : ℕ → ℤ) : ℕ → ℕ → List (Timer γ) → List (ℕ × Timer γ)
  | _, _, [] => []
  | n, slot, t :: timers =>
    if t.repeats then (slot, t) :: eraseLoop clock n (slot + 1) timers
    else if clock n ≥ t.deadline then eraseLoop clock (n + 1) (slot + 1) timers
    else (slot, t) :: eraseLoop clock (n + 1) (slot + 1) timers

/-- What a call of `fire_timers` did: the positions whose callback ran and the
    timers that are left, each with the position it had. -/
structure Firing (γ : Type) where
  fired : List ℕ
  kept : List (ℕ × Timer γ)

/-- `fire_timers` (`event_loop.cpp:170-186`). The callbacks of the timers leave
    `timers_` alone. -/
def fireTimers (clock : ℕ → ℤ) (timers : List (Timer γ)) : Firing γ :=
  let (timers', fired) := fireLoop (clock 0) 0 timers
  { fired, kept := eraseLoop clock 1 0 timers' }

/-- A call of a callback to the event loop. -/
inductive Request (γ : Type)
  | registerFd (fd : Fd) (callback : γ)
  | unregisterFd (fd : Fd)
  | addTimer (now delay : ℤ) (callback : γ) (repeats : Bool)
  | cancelTimer (id : UInt64)

/-- One request. -/
def EventLoop.serve (loop : EventLoop γ) : Request γ → EventLoop γ
  | .registerFd fd callback => loop.registerFd fd callback
  | .unregisterFd fd => loop.unregisterFd fd
  | .addTimer now delay callback repeats => loop.addTimer now delay callback repeats
  | .cancelTimer id => loop.cancelTimer id

/-- What a callback does when it is invoked. -/
structure Reaction (σ γ : Type) where
  requests : List (Request γ) := []
  state : σ
  throws : Bool := false

/-- One `h.callback(event)` made for `fd`, with what `h` referred to: the handler
    at its position, or nothing when the array no longer reaches that far. -/
structure Invocation (γ : Type) where
  fd : Fd
  event : IoEvent
  handler : Option (FdHandler γ)

/-- A `poll_with_timeout` under way. -/
structure Polling (σ γ : Type) where
  loop : EventLoop γ
  state : σ
  invocations : List (Invocation γ) := []
  thrown : Bool := false

/-- The calls made for one event, in the order of `poll_with_timeout`. -/
def callsFor (ready : ReadyEvent) : List IoEvent :=
  (if ready.input then [.readable] else []) ++ (if ready.output then [.writable] else []) ++
    if ready.error then [.error] else []

variable (react : γ → IoEvent → σ → Reaction σ γ)

/-- `h.callback(event)`, where `h` is the handler at `index`. -/
def callHandler (fd : Fd) (index : ℕ) (event : IoEvent) (p : Polling σ γ) : Polling σ γ :=
  if p.thrown then p
  else
    let handler := p.loop.fdHandlers[index]?
    let invocations := p.invocations ++ [⟨fd, event, handler⟩]
    match handler with
    | none => { p with invocations }
    | some h =>
      let reaction := react h.callback event p.state
      { loop := reaction.requests.foldl EventLoop.serve p.loop
        state := reaction.state
        invocations
        thrown := reaction.throws }

/-- The body of the loop over the ready events (`event_loop.cpp:134-142`). -/
def handleReady (p : Polling σ γ) (ready : ReadyEvent) : Polling σ γ :=
  match p.loop.fdHandlers.findIdx? fun h => h.fd = ready.fd with
  | none => p
  | some index =>
    (callsFor ready).foldl (fun p event => callHandler react ready.fd index event p) p

/-- `poll_with_timeout` (`event_loop.cpp:113-149`) when `epoll_wait` returns
    `events`: the state it leaves and, unless a callback threw, what the timers did. -/
def pollWithTimeout (events : List ReadyEvent) (clock : ℕ → ℤ) (p : Polling σ γ) :
    Polling σ γ × Option (Firing γ) :=
  let p := events.foldl (handleReady react) p
  if p.thrown then (p, none)
  else
    let firing := fireTimers clock p.loop.timers
    ({ p with loop := { p.loop with timers := firing.kept.map Prod.snd } }, some firing)

end Runtime

end PeerCore
