import PeerCore.Transport.Tcp

/-!
# Who owns a descriptor

Every descriptor that `socket` or `accept` returned is held in `listeners_` or in
`pending_dials_`, or was handed to one callback, or was closed by the transport,
once; and every dial is pending, or had its one callback, or was discarded. A pending
dial has its callback as soon as its descriptor is ready.

Both are one equation of multisets, `Balanced`: what the tables hold and what the
history released adds up to everything obtained so far. A descriptor in the hands
of a function under way is the difference between the two sides, so each helper
has a triple that says what it takes and what it leaves in hand.
-/

namespace PeerCore.Transport

/-! ## The two balances -/

/-- The descriptor a report released. -/
def Report.fds : Report → Multiset ℕ
  | .accepted serial _ => {serial}
  | .connected serial _ _ => {serial}
  | .closed serial => {serial}
  | .dialFailed _ _ _ | .discarded _ => 0

/-- The dial a report ended. -/
def Report.dials : Report → Multiset ℕ
  | .connected _ dial _ => {dial}
  | .dialFailed dial _ _ => {dial}
  | .discarded dial => {dial}
  | .accepted _ _ | .closed _ => 0

namespace TcpTransport

/-- The descriptors in the tables and those released. -/
def fds (t : TcpTransport) : Multiset ℕ :=
  (t.listeners.map fun l => l.socket.serial : List ℕ) +
    (t.pendingDials.map fun d => d.socket.serial : List ℕ) + (t.reports.map Report.fds).sum

/-- The dials pending and those ended. -/
def dialNumbers (t : TcpTransport) : Multiset ℕ :=
  (t.pendingDials.map fun d => d.dial : List ℕ) + (t.reports.map Report.dials).sum

/-- All descriptors and all dials are accounted for, those in hand included, and
    every pending dial has its callbacks. -/
structure Balanced (fds dials : Multiset ℕ) (t : TcpTransport) : Prop where
  fds : t.fds + fds = Multiset.range t.obtained
  dials : t.dialNumbers + dials = Multiset.range t.dials
  callbacks : ∀ d ∈ t.pendingDials, d.callbacks = {}

variable {t : TcpTransport} {F D : Multiset ℕ}

theorem Balanced.report (r : Report) (h : Balanced (r.fds + F) (r.dials + D) t) :
    Balanced F D (t.report r) := by
  constructor
  · show _ = Multiset.range t.obtained
    rw [← h.fds]
    simp only [TcpTransport.fds, TcpTransport.report, List.map_append, List.map_singleton,
      List.sum_append, List.sum_singleton, add_assoc]
  · show _ = Multiset.range t.dials
    rw [← h.dials]
    simp only [dialNumbers, TcpTransport.report, List.map_append, List.map_singleton,
      List.sum_append, List.sum_singleton, add_assoc]
  · exact h.callbacks

theorem Balanced.closeFd {fd : OpenFd} (h : Balanced ({fd.serial} + F) D t) :
    Balanced F D (t.closeFd fd) := by
  rw [TcpTransport.closeFd, if_pos fd.nonneg]
  refine Balanced.report (.closed fd.serial) ?_
  show Balanced ({fd.serial} + F) (0 + D) t
  rwa [zero_add]

theorem Balanced.obtain {r : SysResult} (hr : 0 ≤ r.rc) (h : Balanced 0 D t) :
    Balanced {(obtain r hr t).1.serial} D (obtain r hr t).2 := by
  constructor
  · show t.fds + {t.obtained} = Multiset.range (t.obtained + 1)
    rw [Multiset.range_succ, ← h.fds, add_zero, add_comm, Multiset.singleton_add]
  · exact h.dials
  · exact h.callbacks

/-! ## The helpers -/

variable (strerror : Errno → String)

theorem socket_balanced (r : SysResult) :
    Op.Triple (Balanced 0 D) (socket strerror r) (fun fd => Balanced {fd.serial} D)
      (Balanced 0 D) := by
  unfold socket
  split
  next hr => exact Op.Triple.update fun t ht => ht.obtain hr
  next => exact Op.Triple.fail fun t ht => ht

/-- What follows `socket` either succeeds and leaves the descriptor in hand, or fails
    and has it closed. -/
theorem closing_balanced (fd : OpenFd) (x : Result Unit) :
    Op.Triple (Balanced {fd.serial} D)
      (do
        Op.onFail (closeFd fd) (Op.ofResult x)
        pure fd)
      (fun fd => Balanced {fd.serial} D) (Balanced 0 D) := by
  have hclose : ∀ t, Balanced {fd.serial} D t → Balanced 0 D (t.closeFd fd) := by
    intro t ht
    apply Balanced.closeFd
    rwa [add_zero]
  refine Op.Triple.bind (Q := fun _ => Balanced {fd.serial} D) ?_ fun _ => ?_
  · exact Op.Triple.onFail (Op.Triple.ofResult (fun _ _ ht => ht) fun _ ht => ht) hclose
  · exact Op.Triple.pure fun t ht => ht

theorem createListenSocket_balanced (calls : ListenCalls) :
    Op.Triple (Balanced 0 D) (createListenSocket strerror calls)
      (fun fd => Balanced {fd.serial} D) (Balanced 0 D) :=
  (socket_balanced strerror calls.socket).bind fun fd => closing_balanced fd _

theorem createConnectSocket_balanced (calls : DialCalls) :
    Op.Triple (Balanced 0 D) (createConnectSocket strerror calls)
      (fun fd => Balanced {fd.serial} D) (Balanced 0 D) :=
  (socket_balanced strerror calls.socket).bind fun fd => closing_balanced fd _

/-! ## The operations -/

theorem listen_balanced (addr : Multiaddr) (callbacks : TcpTransportCallbacks)
    (calls : ListenCalls) :
    Op.Triple (Balanced 0 0) (listen strerror addr callbacks calls) (fun _ => Balanced 0 0)
      (Balanced 0 0) := by
  unfold listen
  refine Op.Triple.bind (Q := fun _ => Balanced 0 0) ?_ fun _ => ?_
  · exact Op.Triple.ofResult (fun _ _ ht => ht) fun _ ht => ht
  · refine (createListenSocket_balanced strerror calls).bind fun fd => ?_
    refine Op.Triple.modify fun t ht => ⟨?_, ht.dials, ht.callbacks⟩
    show _ = Multiset.range t.obtained
    rw [← ht.fds]
    simp only [fds, List.map_append, List.map_singleton, ← Multiset.coe_add,
      Multiset.coe_singleton]
    abel

/-- With the descriptor and the dial in hand, `connect` places both. -/
theorem connect_balanced (addr : Multiaddr) (result : SysResult) (socket : OpenFd) (dial : ℕ)
    (h : Balanced {socket.serial} {dial} t) :
    Balanced 0 0 (connect strerror addr {} result socket dial t) := by
  unfold connect
  simp only [↓reduceIte]
  split_ifs
  · apply Balanced.report
    show Balanced ({socket.serial} + 0) ({dial} + 0) t
    rwa [add_zero, add_zero]
  · apply Balanced.closeFd
    apply Balanced.report
    show Balanced (0 + ({socket.serial} + 0)) ({dial} + 0) t
    rwa [zero_add, add_zero, add_zero]
  · constructor
    · show _ = Multiset.range t.obtained
      rw [← h.fds]
      simp only [fds, List.map_append, List.map_singleton, ← Multiset.coe_add,
        Multiset.coe_singleton]
      abel
    · show _ = Multiset.range t.dials
      rw [← h.dials]
      simp only [dialNumbers, List.map_append, List.map_singleton, ← Multiset.coe_add,
        Multiset.coe_singleton]
      abel
    · intro d hd
      rcases List.mem_append.mp hd with hd | hd
      · exact h.callbacks d hd
      · rw [List.mem_singleton.mp hd]

theorem dial_balanced (addr : Multiaddr) (calls : DialCalls) :
    Op.Triple (Balanced 0 0) (dial strerror addr {} calls) (fun _ => Balanced 0 0)
      (Balanced 0 0) := by
  unfold dial
  refine Op.Triple.bind (Q := fun _ => Balanced 0 0) ?_ fun _ => ?_
  · exact Op.Triple.ofResult (fun _ _ ht => ht) fun _ ht => ht
  · refine (createConnectSocket_balanced strerror calls).bind fun fd => ?_
    refine Op.Triple.modify fun t ht => connect_balanced strerror addr _ fd _ ⟨ht.fds, ?_, ht.callbacks⟩
    show t.dialNumbers + {t.dials} = Multiset.range (t.dials + 1)
    rw [Multiset.range_succ, ← ht.dials, add_zero, add_comm, Multiset.singleton_add]

theorem acceptSocket_balanced (callbacks : TcpTransportCallbacks) (calls : AcceptCalls)
    (fd : OpenFd) (h : Balanced {fd.serial} 0 t) :
    Balanced 0 0 (acceptSocket strerror callbacks calls fd t) := by
  have hclose : Balanced 0 0 (t.closeFd fd) := Balanced.closeFd (by rwa [add_zero])
  unfold acceptSocket
  split
  · exact hclose
  · split
    · exact hclose
    · split_ifs
      · apply Balanced.report
        show Balanced ({fd.serial} + 0) (0 + 0) t
        rwa [add_zero, add_zero]
      · exact hclose

theorem acceptLoop_balanced (callbacks : TcpTransportCallbacks) (accepts : List AcceptCalls)
    (t : TcpTransport) (h : Balanced 0 0 t) :
    Balanced 0 0 (acceptLoop strerror callbacks accepts t).2 := by
  induction accepts generalizing t with
  | nil => exact h
  | cons calls rest ih =>
    rw [acceptLoop]
    split_ifs with hr
    · exact ih _ (acceptSocket_balanced strerror callbacks calls _ (h.obtain hr))
    · exact h
    · exact h

theorem onAcceptReady_balanced (listenFd : Fd) (accepts : List AcceptCalls)
    (h : Balanced 0 0 t) : Balanced 0 0 (onAcceptReady strerror listenFd accepts t).2 := by
  unfold onAcceptReady
  split
  · exact h
  · exact acceptLoop_balanced strerror _ accepts t h

theorem finishDial_balanced (dial : PendingDial) (soError : Errno)
    (hset : dial.callbacks = {}) (h : Balanced {dial.socket.serial} {dial.dial} t) :
    Balanced 0 0 (finishDial strerror dial soError t) := by
  unfold finishDial
  rw [hset]
  simp only [↓reduceIte]
  split_ifs
  · apply Balanced.closeFd
    apply Balanced.report
    show Balanced (0 + ({dial.socket.serial} + 0)) ({dial.dial} + 0) t
    rwa [zero_add, add_zero, add_zero]
  · apply Balanced.report
    show Balanced ({dial.socket.serial} + 0) ({dial.dial} + 0) t
    rwa [add_zero, add_zero]

theorem onConnectReady_balanced (socketFd : Fd) (call : SoErrorCall) (h : Balanced 0 0 t) :
    Balanced 0 0 (onConnectReady strerror socketFd call t) := by
  unfold onConnectReady
  cases hfind : t.pendingDials.find? fun dial => dial.socket.fd = socketFd with
  | none => exact h
  | some dial =>
    obtain ⟨hfd, before, after, hpending, hbefore⟩ := List.find?_eq_some_iff_append.mp hfind
    have herase : t.pendingDials.eraseP (fun dial => dial.socket.fd = socketFd) = before ++ after := by
      rw [hpending, List.eraseP_append_right _ (fun d hd => by simpa using hbefore d hd),
        List.eraseP_cons_of_pos (l := after) (p := fun d => decide (d.socket.fd = socketFd)) hfd]
    dsimp only
    rw [herase]
    apply finishDial_balanced strerror dial
    · exact h.callbacks dial (by rw [hpending]; simp)
    · constructor
      · show _ = Multiset.range t.obtained
        rw [← h.fds]
        simp only [fds, hpending, List.map_append, List.map_cons, ← Multiset.coe_add,
          ← Multiset.cons_coe, ← Multiset.singleton_add]
        abel
      · show _ = Multiset.range t.dials
        rw [← h.dials]
        simp only [dialNumbers, hpending, List.map_append, List.map_cons, ← Multiset.coe_add,
          ← Multiset.cons_coe, ← Multiset.singleton_add]
        abel
      · intro d hd
        apply h.callbacks d
        rw [hpending]
        rcases List.mem_append.mp hd with hd | hd
        · exact List.mem_append_left _ hd
        · exact List.mem_append_right _ (List.mem_cons_of_mem _ hd)

/-- The first loop of `close_all`, with the descriptors it has yet to close in hand. -/
theorem closeListeners_balanced (listeners : List Listener) (t : TcpTransport)
    (h : Balanced (listeners.map fun l => l.socket.serial : List ℕ) D t) :
    Balanced 0 D (listeners.foldl (fun t listener => t.closeFd listener.socket) t) := by
  induction listeners generalizing t with
  | nil => exact h
  | cons listener listeners ih =>
    apply ih
    apply Balanced.closeFd
    rwa [List.map_cons, ← Multiset.cons_coe, ← Multiset.singleton_add] at h

/-- The second loop. -/
theorem closeDials_balanced (dials : List PendingDial) (t : TcpTransport)
    (h : Balanced (dials.map fun d => d.socket.serial : List ℕ)
      (dials.map fun d => d.dial : List ℕ) t) :
    Balanced 0 0 (dials.foldl (fun t dial =>
      (t.report (.discarded dial.dial)).closeFd dial.socket) t) := by
  induction dials generalizing t with
  | nil => exact h
  | cons dial dials ih =>
    apply ih
    apply Balanced.closeFd
    apply Balanced.report
    rw [List.map_cons, List.map_cons, ← Multiset.cons_coe, ← Multiset.cons_coe,
      ← Multiset.singleton_add, ← Multiset.singleton_add] at h
    show Balanced (0 + ({dial.socket.serial} + _)) ({dial.dial} + _) t
    rwa [zero_add]

theorem clear_closeFd (fd : OpenFd) (t : TcpTransport) :
    { t.closeFd fd with listeners := [] } = { t with listeners := [] }.closeFd fd ∧
      { t.closeFd fd with pendingDials := [] } = { t with pendingDials := [] }.closeFd fd := by
  unfold closeFd
  rw [if_pos fd.nonneg, if_pos fd.nonneg, if_pos fd.nonneg]
  exact ⟨rfl, rfl⟩

theorem clear_closeListeners (listeners : List Listener) (t : TcpTransport) :
    { listeners.foldl (fun t listener => t.closeFd listener.socket) t with listeners := [] } =
      listeners.foldl (fun t listener => t.closeFd listener.socket) { t with listeners := [] } := by
  induction listeners generalizing t with
  | nil => rfl
  | cons listener listeners ih =>
    rw [List.foldl_cons, List.foldl_cons, ih, (clear_closeFd listener.socket t).1]

theorem clear_closeDials (dials : List PendingDial) (t : TcpTransport) :
    { dials.foldl (fun t dial => (t.report (.discarded dial.dial)).closeFd dial.socket) t with
      pendingDials := [] } =
      dials.foldl (fun t dial => (t.report (.discarded dial.dial)).closeFd dial.socket)
        { t with pendingDials := [] } := by
  induction dials generalizing t with
  | nil => rfl
  | cons dial dials ih =>
    rw [List.foldl_cons, List.foldl_cons, ih, (clear_closeFd dial.socket _).2]
    rfl

theorem closeAll_balanced (h : Balanced 0 0 t) : Balanced 0 0 t.closeAll := by
  have hcleared : Balanced (t.listeners.map fun l => l.socket.serial : List ℕ) 0
      { t with listeners := [] } := by
    refine ⟨?_, h.dials, h.callbacks⟩
    show _ = Multiset.range t.obtained
    rw [← h.fds]
    simp only [fds, List.map_nil, Multiset.coe_nil]
    abel
  have hlisteners := closeListeners_balanced t.listeners _ hcleared
  rw [← clear_closeListeners] at hlisteners
  unfold closeAll
  dsimp only
  rw [clear_closeDials]
  apply closeDials_balanced
  refine ⟨?_, ?_, by simp⟩
  · show _ = Multiset.range _
    rw [← hlisteners.fds]
    simp only [fds, List.map_nil, Multiset.coe_nil]
    abel
  · show _ = Multiset.range _
    rw [← hlisteners.dials]
    simp only [dialNumbers, List.map_nil, Multiset.coe_nil]
    abel

/-! ## Runs -/

theorem step_balanced (call : Call) (h : Balanced 0 0 t) :
    Balanced 0 0 (step strerror t call) := by
  cases call with
  | listen addr calls => exact (listen_balanced strerror addr {} calls).state h
  | dial addr calls => exact (dial_balanced strerror addr calls).state h
  | onAcceptReady listenFd accepts => exact onAcceptReady_balanced strerror listenFd accepts h
  | onConnectReady socketFd call => exact onConnectReady_balanced strerror socketFd call h
  | closeAll => exact closeAll_balanced h

theorem run_balanced (calls : List Call) : Balanced 0 0 (run strerror calls) := by
  induction calls using List.reverseRecOn with
  | nil => exact ⟨rfl, rfl, by simp [run]⟩
  | append_singleton calls call ih =>
    rw [run, List.foldl_concat]
    exact step_balanced strerror call ih

/-! ## What the history says of one descriptor and of one dial -/

/-- The descriptors handed to a callback. -/
def handed (t : TcpTransport) : List ℕ :=
  t.reports.filterMap fun
    | .accepted serial _ => some serial
    | .connected serial _ _ => some serial
    | _ => none

/-- The descriptors closed. -/
def closed (t : TcpTransport) : List ℕ :=
  t.reports.filterMap fun
    | .closed serial => some serial
    | _ => none

/-- The dials whose `on_connected` was invoked. -/
def connectedDials (t : TcpTransport) : List ℕ :=
  t.reports.filterMap fun
    | .connected _ dial _ => some dial
    | _ => none

/-- The dials whose `on_dial_failed` was invoked. -/
def failedDials (t : TcpTransport) : List ℕ :=
  t.reports.filterMap fun
    | .dialFailed dial _ _ => some dial
    | _ => none

/-- The dials that `close_all` discarded. -/
def discardedDials (t : TcpTransport) : List ℕ :=
  t.reports.filterMap fun
    | .discarded dial => some dial
    | _ => none

theorem sum_fds (reports : List Report) :
    (reports.map Report.fds).sum =
      ((handed { reports } : List ℕ) : Multiset ℕ) + (closed { reports } : List ℕ) := by
  induction reports with
  | nil => rfl
  | cons r reports ih =>
    rw [List.map_cons, List.sum_cons, ih]
    cases r with
    | accepted serial socket | connected serial dial socket =>
      show {serial} + _ = ((serial :: handed { reports } : List ℕ) : Multiset ℕ) + _
      rw [← Multiset.cons_coe, ← Multiset.singleton_add, add_assoc]
      rfl
    | dialFailed dial addr detail | discarded dial => exact zero_add _
    | closed serial =>
      show {serial} + _ = _ + ((serial :: closed { reports } : List ℕ) : Multiset ℕ)
      rw [← Multiset.cons_coe, ← Multiset.singleton_add, add_left_comm]
      rfl

theorem sum_dials (reports : List Report) :
    (reports.map Report.dials).sum =
      ((connectedDials { reports } : List ℕ) : Multiset ℕ) + (failedDials { reports } : List ℕ) +
        (discardedDials { reports } : List ℕ) := by
  induction reports with
  | nil => rfl
  | cons r reports ih =>
    rw [List.map_cons, List.sum_cons, ih]
    cases r with
    | accepted serial socket | closed serial => exact zero_add _
    | connected serial dial socket =>
      show {dial} + _ = ((dial :: connectedDials { reports } : List ℕ) : Multiset ℕ) + _ + _
      rw [← Multiset.cons_coe, ← Multiset.singleton_add, add_assoc, add_assoc, add_assoc]
      rfl
    | dialFailed dial addr detail =>
      show {dial} + _ = _ + ((dial :: failedDials { reports } : List ℕ) : Multiset ℕ) + _
      rw [← Multiset.cons_coe, ← Multiset.singleton_add, add_assoc, add_left_comm, add_assoc,
        add_assoc]
      rfl
    | discarded dial =>
      show {dial} + _ = _ + ((dial :: discardedDials { reports } : List ℕ) : Multiset ℕ)
      rw [← Multiset.cons_coe, ← Multiset.singleton_add, add_left_comm]
      rfl

theorem listeners_closeDials (dials : List PendingDial) (t : TcpTransport) :
    (dials.foldl (fun t dial => (t.report (.discarded dial.dial)).closeFd dial.socket) t).listeners =
      t.listeners := by
  induction dials generalizing t with
  | nil => rfl
  | cons dial dials ih =>
    rw [List.foldl_cons, ih]
    unfold closeFd
    split_ifs <;> rfl

/-- No two dials of the table have the same number. -/
theorem Balanced.pending_nodup (h : Balanced F D t) : (t.pendingDials.map fun d => d.dial).Nodup := by
  have hle : ((t.pendingDials.map fun d => d.dial : List ℕ) : Multiset ℕ) ≤
      Multiset.range t.dials := by
    rw [← h.dials, dialNumbers, add_assoc]
    exact Multiset.le_add_right _ _
  exact Multiset.coe_nodup.mp (Multiset.nodup_of_le hle (Multiset.nodup_range _))

/-- The number of a dial that is taken from the table is not in it any more. -/
theorem Balanced.erased (h : Balanced F D t) {dial : PendingDial} {socketFd : Fd}
    (hfind : (t.pendingDials.find? fun d => d.socket.fd = socketFd) = some dial) :
    dial.dial ∉ (t.pendingDials.eraseP fun d => d.socket.fd = socketFd).map fun d => d.dial := by
  obtain ⟨hfd, before, after, hpending, hbefore⟩ := List.find?_eq_some_iff_append.mp hfind
  have hnodup := h.pending_nodup
  rw [hpending, List.map_append, List.map_cons] at hnodup
  rw [hpending, List.eraseP_append_right _ (fun d hd => by simpa using hbefore d hd),
    List.eraseP_cons_of_pos (l := after) (p := fun d => decide (d.socket.fd = socketFd)) hfd,
    List.map_append]
  exact (List.nodup_middle.mp hnodup).notMem

/-- A dial is counted when it returns ok, and then only. -/
theorem dial_counts (addr : Multiaddr) (callbacks : TcpTransportCallbacks) (calls : DialCalls)
    (n : ℕ) :
    Op.Triple (fun t => t.dials = n) (dial strerror addr callbacks calls)
      (fun _ t => t.dials = n + 1) (fun t => t.dials = n) := by
  have hclose : ∀ (fd : OpenFd) (t : TcpTransport), (t.closeFd fd).dials = t.dials := by
    intro fd t
    unfold closeFd
    split_ifs <;> rfl
  unfold dial
  refine Op.Triple.bind (Q := fun _ t => t.dials = n) ?_ fun _ => ?_
  · exact Op.Triple.ofResult (fun _ _ ht => ht) fun _ ht => ht
  refine Op.Triple.bind (Q := fun _ t => t.dials = n) ?_ fun fd => ?_
  · unfold createConnectSocket
    refine Op.Triple.bind (Q := fun _ t => t.dials = n) ?_ fun fd => ?_
    · unfold socket
      split
      · exact Op.Triple.update fun t ht => ht
      · exact Op.Triple.fail fun t ht => ht
    · refine Op.Triple.bind (Q := fun _ t => t.dials = n) ?_ fun _ => Op.Triple.pure fun t ht => ht
      exact Op.Triple.onFail (Op.Triple.ofResult (fun _ _ ht => ht) fun _ ht => ht)
        fun t ht => (hclose fd t).trans ht
  · refine Op.Triple.modify fun t ht => ?_
    unfold connect
    dsimp only
    split_ifs <;> simp [hclose, report, ht]

/-- What a pending dial is told when its descriptor is ready: one of its two
    callbacks, by `so_error`, and the descriptor of a dial that failed is closed. -/
def verdict (dial : PendingDial) (soError : Errno) : List Report :=
  if soError = 0 then [.connected dial.socket.serial dial.dial ⟨dial.socket.fd, dial.addr⟩]
  else [.dialFailed dial.dial dial.addr (strerror soError), .closed dial.socket.serial]

theorem finishDial_eq (dial : PendingDial) (hset : dial.callbacks = {}) (soError : Errno)
    (t : TcpTransport) :
    finishDial strerror dial soError t =
      { t with reports := t.reports ++ verdict strerror dial soError } := by
  unfold finishDial verdict closeFd
  rw [hset, if_pos dial.socket.nonneg, if_pos dial.socket.nonneg]
  by_cases h : soError = 0 <;> simp [h, report]

/-- A pending dial whose descriptor is ready gets its verdict and is pending no more. -/
theorem onConnectReady_ends {dial : PendingDial} {socketFd : Fd}
    (hset : ∀ d ∈ t.pendingDials, d.callbacks = {})
    (hfind : (t.pendingDials.find? fun d => d.socket.fd = socketFd) = some dial)
    (call : SoErrorCall) :
    onConnectReady strerror socketFd call t =
      { t with
        pendingDials := t.pendingDials.eraseP fun d => d.socket.fd = socketFd
        reports := t.reports ++ verdict strerror dial call.value } := by
  unfold onConnectReady
  rw [hfind]
  exact finishDial_eq strerror dial (hset dial (List.mem_of_find?_eq_some hfind)) _ _

/-- After any calls, and whatever the system calls returned: every descriptor
    obtained is in one of the two tables, or was handed to one callback, or was
    closed, once; every dial that returned ok is pending, or had one of its two
    callbacks, once, or was discarded by `close_all`. A pending dial whose descriptor
    is ready gets its verdict and leaves the table. After `close_all` nothing is
    left in the tables. -/
theorem every_fd_owned (calls : List Call) :
    (∀ fd < (run strerror calls).obtained,
      ((run strerror calls).listeners.map fun l => l.socket.serial).count fd +
        ((run strerror calls).pendingDials.map fun d => d.socket.serial).count fd +
        ((run strerror calls).handed.count fd + (run strerror calls).closed.count fd) = 1) ∧
    (∀ dial < (run strerror calls).dials,
      ((run strerror calls).pendingDials.map fun d => d.dial).count dial +
        ((run strerror calls).connectedDials.count dial +
          (run strerror calls).failedDials.count dial +
          (run strerror calls).discardedDials.count dial) = 1) ∧
    (∀ addr callbacks dialCalls n,
      Op.Triple (fun t => t.dials = n) (dial strerror addr callbacks dialCalls)
        (fun _ t => t.dials = n + 1) (fun t => t.dials = n)) ∧
    (∀ socketFd dial call,
      ((run strerror calls).pendingDials.find? fun d => d.socket.fd = socketFd) = some dial →
      (onConnectReady strerror socketFd call (run strerror calls)).reports =
        (run strerror calls).reports ++ verdict strerror dial call.value ∧
      dial.dial ∉ (onConnectReady strerror socketFd call (run strerror calls)).pendingDials.map
        fun d => d.dial) ∧
    (run strerror calls).closeAll.listeners = [] ∧
    (run strerror calls).closeAll.pendingDials = [] := by
  have h := run_balanced strerror calls
  refine ⟨fun fd hfd => ?_, fun dial hdial => ?_, dial_counts strerror,
    fun socketFd dial call hfind => ?_, ?_, rfl⟩
  · have hcount := congrArg (Multiset.count fd) h.fds
    rw [add_zero, fds, sum_fds, Multiset.count_add, Multiset.count_add, Multiset.count_add,
      Multiset.coe_count, Multiset.coe_count, Multiset.coe_count, Multiset.coe_count,
      Multiset.count_eq_one_of_mem (Multiset.nodup_range _)
        (Multiset.mem_range.mpr hfd)] at hcount
    exact hcount
  · have hcount := congrArg (Multiset.count dial) h.dials
    rw [add_zero, dialNumbers, sum_dials, Multiset.count_add, Multiset.count_add,
      Multiset.count_add, Multiset.coe_count, Multiset.coe_count, Multiset.coe_count,
      Multiset.coe_count, Multiset.count_eq_one_of_mem (Multiset.nodup_range _)
        (Multiset.mem_range.mpr hdial)] at hcount
    exact hcount
  · rw [onConnectReady_ends strerror h.callbacks hfind]
    refine ⟨rfl, ?_⟩
    exact h.erased hfind
  · exact listeners_closeDials _ _

/-- Listen on descriptor 3, accept descriptor 4 and fail to set up descriptor 5,
    dial on 6 and on 7, see 6 connect, and discard 7. -/
def toyCalls : List Call :=
  let ok : SysResult := ⟨0, 0⟩
  let addr : Multiaddr := ⟨ascii "/ip4/127.0.0.1/tcp/4001"⟩
  let accept : SysResult → SysResult → AcceptCalls := fun fd flags =>
    ⟨fd, ⟨ok, flags, ok⟩, .ok (ascii "127.0.0.1"), 5000⟩
  let dialing : ℤ → Call := fun fd => .dial addr ⟨1, ⟨fd, 0⟩, ⟨ok, ok, ok⟩, ⟨-1, einprogress⟩⟩
  [.listen addr ⟨1, ⟨3, 0⟩, ⟨ok, ok, ok⟩, ok, ok⟩,
    .onAcceptReady 3 [accept ⟨4, 0⟩ ok, accept ⟨5, 0⟩ ⟨-1, eintr⟩, accept ⟨-1, eagain⟩ ok],
    dialing 6, dialing 7, .onConnectReady 6 ⟨ok, 0⟩, .closeAll]

/-- Before `close_all` the dial on descriptor 7 is pending; it fails when it gets ready. -/
theorem every_fd_owned_toy :
    (run (fun _ => "") toyCalls).handed = [1, 3] ∧ (run (fun _ => "") toyCalls).closed = [2, 0, 4] ∧
      ((run (fun _ => "") toyCalls).listeners.map fun l => l.socket.serial).count 3 +
        ((run (fun _ => "") toyCalls).pendingDials.map fun d => d.socket.serial).count 3 +
        ((run (fun _ => "") toyCalls).handed.count 3 +
          (run (fun _ => "") toyCalls).closed.count 3) = 1 ∧
      (onConnectReady (fun _ => "") 7 ⟨⟨0, 0⟩, 111⟩ (run (fun _ => "") (toyCalls.take 5))).reports =
        (run (fun _ => "") (toyCalls.take 5)).reports ++
          [.dialFailed 1 ⟨ascii "/ip4/127.0.0.1/tcp/4001"⟩ "", .closed 4] :=
  ⟨by decide +kernel, by decide +kernel,
    (every_fd_owned (fun _ => "") toyCalls).1 3 (by decide +kernel),
    ((every_fd_owned (fun _ => "") (toyCalls.take 5)).2.2.2.1 7
      ⟨⟨7, by decide, 4⟩, ⟨ascii "/ip4/127.0.0.1/tcp/4001"⟩, {}, 1⟩ ⟨⟨0, 0⟩, 111⟩ rfl).1⟩

end TcpTransport

end PeerCore.Transport
