import PeerCore.Transport.Tcp
import PeerCore.Lib.Result

/-!
# The accept loop

The listener is registered edge-triggered, so `on_accept_ready` has to take
everything that `accept` has in store, up to and including `EAGAIN`.

* `accept_drains_iff`: it does exactly when no transient error stands before the
  `EAGAIN`.
* `transient_error_strands`: a connection behind an aborted one is left.
-/

namespace PeerCore.Transport

/-- `EAGAIN`. -/
def AcceptCalls.IsEagain (calls : AcceptCalls) : Prop :=
  calls.accept.rc < 0 ∧ calls.accept.errno = eagain

/-- An error that says nothing of the connections behind it. -/
def AcceptCalls.IsTransient (calls : AcceptCalls) : Prop :=
  calls.accept.rc < 0 ∧ (calls.accept.errno = econnaborted ∨ calls.accept.errno = eintr)

namespace TcpTransport

variable (strerror : Errno → String)

/-- What is due to a descriptor that `accept` returned: `on_accepted`, or a close
    when its setup or the conversion of its address fails. -/
def due (serial : ℕ) (calls : AcceptCalls) : Report :=
  match calls.inetNtop with
  | .ok ip =>
    if 0 ≤ calls.setup.setsockopt.rc ∧ 0 ≤ calls.setup.getfl.rc ∧ 0 ≤ calls.setup.setfl.rc then
      .accepted serial ⟨calls.accept.rc, Multiaddr.fromIp4Tcp ip calls.port⟩
    else .closed serial
  | .error _ => .closed serial

/-- What is due to each descriptor among the results, the first one being `serial`. -/
def owed (serial : ℕ) : List AcceptCalls → List Report
  | [] => []
  | calls :: rest =>
    if 0 ≤ calls.accept.rc then due serial calls :: owed (serial + 1) rest else owed serial rest

theorem check_eq (what : String) (r : SysResult) :
    (check strerror what r = .ok () ↔ 0 ≤ r.rc) ∧
      (¬0 ≤ r.rc → ∃ e, check strerror what r = .error e) := by
  unfold check
  by_cases h : r.rc < 0
  · rw [if_pos h]
    exact ⟨by simp [h], fun _ => ⟨_, rfl⟩⟩
  · rw [if_neg h]
    exact ⟨by simpa using h, fun hneg => absurd (not_lt.mp h) hneg⟩

theorem setup_ok_iff (calls : SetupCalls) :
    setup strerror calls = .ok () ↔
      0 ≤ calls.setsockopt.rc ∧ 0 ≤ calls.getfl.rc ∧ 0 ≤ calls.setfl.rc := by
  unfold setup
  simp only [Except.bind_eq_ok_iff, (check_eq strerror _ _).1]
  simp

variable {callbacks : TcpTransportCallbacks}

theorem acceptSocket_eq (hset : callbacks.onAccepted = true) (calls : AcceptCalls) (fd : OpenFd)
    (hfd : fd.fd = calls.accept.rc) (t : TcpTransport) :
    acceptSocket strerror callbacks calls fd t = t.report (due fd.serial calls) := by
  have hclose : t.closeFd fd = t.report (.closed fd.serial) := by
    rw [closeFd, if_pos fd.nonneg]
  have hsetup := setup_ok_iff strerror calls.setup
  unfold acceptSocket due fromSockaddr
  rcases hcase : setup strerror calls.setup with e | ⟨⟩
  · rw [hcase] at hsetup
    have hno : ¬_ := mt hsetup.mpr (by simp)
    cases calls.inetNtop with
    | error errno => exact hclose
    | ok ip =>
      dsimp only
      rw [if_neg hno, hclose]
  · have hyes := hsetup.mp hcase
    cases calls.inetNtop with
    | error errno => exact hclose
    | ok ip =>
      dsimp only
      rw [if_pos hyes, ← hfd, if_pos hset]

theorem acceptLoop_cons_error (callbacks : TcpTransportCallbacks) (calls : AcceptCalls)
    (rest : List AcceptCalls) (t : TcpTransport) (h : calls.accept.rc < 0) :
    acceptLoop strerror callbacks (calls :: rest) t = (rest, t) := by
  rw [acceptLoop, dif_neg (not_le.mpr h), ite_self]

/-- Without errors the loop takes every result. -/
theorem acceptLoop_drains (hset : callbacks.onAccepted = true) (items : List AcceptCalls)
    (last : AcceptCalls) (t : TcpTransport) (hitems : ∀ c ∈ items, 0 ≤ c.accept.rc)
    (hlast : last.accept.rc < 0) :
    (acceptLoop strerror callbacks (items ++ [last]) t).1 = [] ∧
      (acceptLoop strerror callbacks (items ++ [last]) t).2.reports =
        t.reports ++ owed t.obtained items := by
  induction items generalizing t with
  | nil =>
    rw [List.nil_append, acceptLoop_cons_error strerror _ _ _ _ hlast]
    simp [owed]
  | cons calls items ih =>
    have hrc := hitems calls List.mem_cons_self
    rw [List.cons_append, acceptLoop, dif_pos hrc, owed, if_pos hrc]
    dsimp only
    rw [acceptSocket_eq strerror hset calls _ rfl]
    obtain ⟨hrest, hreports⟩ := ih ((obtain calls.accept hrc t).2.report (due t.obtained calls))
      fun c hc => hitems c (List.mem_cons_of_mem _ hc)
    refine ⟨hrest, hreports.trans ?_⟩
    show (t.reports ++ [due t.obtained calls]) ++ owed (t.obtained + 1) items = _
    rw [List.append_assoc, List.singleton_append]

/-- An error before the last result leaves that one in store. -/
theorem acceptLoop_stops (items : List AcceptCalls) (last : AcceptCalls)
    (callbacks : TcpTransportCallbacks) (t : TcpTransport)
    (hitems : ¬∀ c ∈ items, 0 ≤ c.accept.rc) :
    (acceptLoop strerror callbacks (items ++ [last]) t).1 ≠ [] := by
  induction items generalizing t with
  | nil => simp at hitems
  | cons calls items ih =>
    by_cases hrc : 0 ≤ calls.accept.rc
    · rw [List.cons_append, acceptLoop, dif_pos hrc]
      apply ih
      intro hall
      apply hitems
      intro c hc
      rcases List.mem_cons.mp hc with rfl | hc
      · exact hrc
      · exact hall c hc
    · rw [List.cons_append, acceptLoop_cons_error strerror _ _ _ _ (not_le.mp hrc)]
      simp

/-- `on_accept_ready` on a live listener takes every result up to the `EAGAIN`, and
    gives every descriptor among them what is due to it, exactly when there is no
    transient error among them. -/
theorem accept_drains_iff (t : TcpTransport) (listenFd : Fd) (listener : Listener)
    (hlive : (t.listeners.find? fun l => l.socket.fd = listenFd) = some listener)
    (hset : listener.callbacks.onAccepted = true) (items : List AcceptCalls) (last : AcceptCalls)
    (hitems : ∀ c ∈ items, 0 ≤ c.accept.rc ∨ c.IsTransient)
    (hlast : last.IsEagain) :
    ((onAcceptReady strerror listenFd (items ++ [last]) t).1 = [] ∧
        (onAcceptReady strerror listenFd (items ++ [last]) t).2.reports =
          t.reports ++ owed t.obtained items) ↔
      ∀ c ∈ items, ¬c.IsTransient := by
  have hgood : (∀ c ∈ items, ¬c.IsTransient) ↔ ∀ c ∈ items, 0 ≤ c.accept.rc := by
    constructor
    · intro h c hc
      exact (hitems c hc).resolve_right (h c hc)
    · intro h c hc htransient
      exact absurd (h c hc) (not_le.mpr htransient.1)
  unfold onAcceptReady
  rw [hlive, hgood]
  dsimp only
  constructor
  · rintro ⟨hrest, -⟩
    by_contra hbad
    exact acceptLoop_stops strerror items last listener.callbacks t hbad hrest
  · intro h
    exact acceptLoop_drains strerror hset items last t h hlast.1

/-- A listener on descriptor 3, with the callbacks that `Swarm::listen_on` gives it. -/
def toyListener : Listener :=
  { socket := ⟨3, by decide, 0⟩
    addr := ⟨[]⟩
    callbacks := { onConnected := false, onDialFailed := false } }

/-- A transport with that listener. -/
def toyListening : TcpTransport := { listeners := [toyListener], obtained := 1 }

/-- `accept` returning `fd`, of a socket that can be set up. -/
def toyAccept (fd : SysResult) : AcceptCalls :=
  ⟨fd, ⟨⟨0, 0⟩, ⟨0, 0⟩, ⟨0, 0⟩⟩, .ok (ascii "127.0.0.1"), 5000⟩

theorem accept_drains_two :
    (onAcceptReady (fun _ => "") 3 ([toyAccept ⟨4, 0⟩, toyAccept ⟨5, 0⟩] ++ [toyAccept ⟨-1, eagain⟩])
      toyListening).1 = [] :=
  ((accept_drains_iff (fun _ => "") toyListening 3 toyListener rfl rfl
    [toyAccept ⟨4, 0⟩, toyAccept ⟨5, 0⟩] (toyAccept ⟨-1, eagain⟩)
    (fun c hc => .inl (by
      rcases List.mem_cons.mp hc with rfl | hc
      · decide
      · rw [List.mem_singleton.mp hc]
        decide))
    ⟨by decide, rfl⟩).mpr (fun c hc htransient => by
      have hrc := htransient.1
      rcases List.mem_cons.mp hc with rfl | hc
      · exact absurd hrc (by decide)
      · rw [List.mem_singleton.mp hc] at hrc
        exact absurd hrc (by decide))).1

/-- An aborted connection in front of descriptor 4: the loop ends, and `accept`
    keeps the connection and the `EAGAIN`. -/
theorem transient_error_strands :
    ¬∀ (strerror : Errno → String) (t : TcpTransport) (listenFd : Fd) (listener : Listener),
      (t.listeners.find? fun l => l.socket.fd = listenFd) = some listener →
      listener.callbacks.onAccepted = true → ∀ (items : List AcceptCalls) (last : AcceptCalls),
      (∀ c ∈ items, 0 ≤ c.accept.rc ∨ c.IsTransient) → last.IsEagain →
      (onAcceptReady strerror listenFd (items ++ [last]) t).1 = [] ∧
        (onAcceptReady strerror listenFd (items ++ [last]) t).2.reports =
          t.reports ++ owed t.obtained items := by
  intro hall
  have h := (hall (fun _ => "") toyListening 3 toyListener rfl rfl
    [toyAccept ⟨-1, econnaborted⟩, toyAccept ⟨4, 0⟩] (toyAccept ⟨-1, eagain⟩) (by
      intro c hc
      rcases List.mem_cons.mp hc with rfl | hc
      · exact .inr ⟨by decide, .inl rfl⟩
      · rw [List.mem_singleton.mp hc]
        exact .inl (by decide)) ⟨by decide, rfl⟩).1
  exact absurd (congrArg List.length h) (by decide)

end TcpTransport

end PeerCore.Transport
