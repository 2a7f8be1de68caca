import PeerCore.Yamux.Pair
import PeerCore.Lib.CreditLink

/-!
# One direction of one stream

What the two ends and the two message queues say about the bytes of one stream
in one direction, apart from how a session stores its streams. A `Direction` is a
`CreditLink` as long as both ends hold the stream. An end that no longer holds it
drops what still arrives; the link then goes on with a buffer or a window that
nobody sees.

* `Direction.write`, `read`, `closeWrite`, …: the actions of the two users.
* `Direction.deliverData`, `deliverFin`, `deliverWindow`, …: the front message
  of a queue is handled.
-/

namespace PeerCore.Yamux

/-- `kInitialStreamWindow` as a number. -/
abbrev windowSize : ℕ := 262144

/-- What the writing end holds about a stream. `dead` means that the stream was
    erased. -/
structure SenderView where
  dead : Prop
  window : ℕ
  writeClosed : Bool
  wrote : Bytes
  closedWrite : Bool
  didReset : Bool

/-- What the reading end holds about a stream. -/
structure ReceiverView where
  dead : Prop
  buf : Bytes
  readClosed : Bool
  read : Bytes
  didReset : Bool

/-! ## Messages about one stream -/

/-- The data for `sid` in one message. -/
def Message.dataFor (sid : StreamId) : Message → Bytes
  | .data id payload => if id = sid then payload else []
  | _ => []

/-- The window credit for `sid` in one message. -/
def Message.creditFor (sid : StreamId) : Message → ℕ
  | .window id delta => if id = sid then delta.toNat else 0
  | _ => 0

/-- The data for `sid` in a queue. -/
def dataOf (sid : StreamId) (q : List Message) : Bytes := q.flatMap (·.dataFor sid)

/-- The window credit for `sid` in a queue. -/
def creditOf (sid : StreamId) (q : List Message) : ℕ := (q.map (·.creditFor sid)).sum

/-- No data for `sid` stands behind its FIN. -/
def FinLast (sid : StreamId) : List Message → Prop
  | [] => True
  | m :: q => (m = .fin sid → dataOf sid q = []) ∧ FinLast sid q

section Queues

variable {sid : StreamId}

@[simp] theorem dataOf_nil : dataOf sid [] = [] := rfl

@[simp] theorem dataOf_cons (m : Message) (q : List Message) :
    dataOf sid (m :: q) = m.dataFor sid ++ dataOf sid q := rfl

@[simp] theorem dataOf_append (q q' : List Message) :
    dataOf sid (q ++ q') = dataOf sid q ++ dataOf sid q' := List.flatMap_append

@[simp] theorem creditOf_nil : creditOf sid [] = 0 := rfl

@[simp] theorem creditOf_cons (m : Message) (q : List Message) :
    creditOf sid (m :: q) = m.creditFor sid + creditOf sid q := by
  simp [creditOf]

@[simp] theorem creditOf_append (q q' : List Message) :
    creditOf sid (q ++ q') = creditOf sid q + creditOf sid q' := by
  simp [creditOf]

theorem FinLast.append {q : List Message} {m : Message} (h : FinLast sid q)
    (hm : .fin sid ∈ q → m.dataFor sid = []) : FinLast sid (q ++ [m]) := by
  induction q with
  | nil => exact ⟨fun _ => rfl, trivial⟩
  | cons m' q ih =>
    refine ⟨fun hfin => ?_, ih h.2 fun hq => hm (List.mem_cons_of_mem _ hq)⟩
    subst hfin
    change dataOf sid (q ++ [m]) = []
    simp [h.1 rfl, hm]

/-- The message says nothing to the reader of `sid` but what a SYN, an ACK or a
    window update does. -/
def Message.Quiet (sid : StreamId) (m : Message) : Prop :=
  m.dataFor sid = [] ∧ m ≠ .fin sid ∧ m ≠ .rst sid

theorem Message.quiet_of_ne {m : Message} (h : m.sid ≠ sid) : m.Quiet sid := by
  refine ⟨?_, ?_, ?_⟩
  · cases m with
    | data id payload => exact if_neg h
    | _ => rfl
  · rintro rfl; exact h rfl
  · rintro rfl; exact h rfl

theorem Message.creditFor_of_ne {m : Message} (h : m.sid ≠ sid) : m.creditFor sid = 0 := by
  cases m with
  | window id delta => exact if_neg h
  | _ => rfl

end Queues

/-! ## The invariant -/

/-- The state of one direction of `sid`: `q` are the messages on their way from the
    sender to the receiver, `qb` those on their way back. -/
structure Direction (sid : StreamId) (s : SenderView) (r : ReceiverView) (q qb : List Message) :
    Prop where
  link : ∃ l : CreditLink UInt8 windowSize,
    l.wrote = s.wrote ∧ l.read = r.read ∧ l.inflight = dataOf sid q ∧ l.credit = creditOf sid qb ∧
      (¬ r.dead → l.buf = r.buf) ∧ (¬ s.dead → l.window = s.window)
  finSent : .fin sid ∈ q → s.closedWrite = true
  finLast : FinLast sid q
  finRead : ¬ r.dead → r.readClosed = true → s.closedWrite = true ∧ dataOf sid q = []
  closed : ¬ s.dead → s.closedWrite = true → s.writeClosed = true
  rstSent : .rst sid ∈ q → s.didReset = true
  resetCause : r.dead → r.didReset = true ∨ s.didReset = true

namespace Direction

variable {sid : StreamId} {s : SenderView} {r : ReceiverView} {q qb : List Message}

/-- Before the stream is opened. -/
theorem fresh (hw : s.window = windowSize) (hwrote : s.wrote = []) (hbuf : r.buf = [])
    (hread : r.read = []) (hclosed : s.closedWrite = false) (hread' : r.readClosed = false)
    (hdead : ¬ r.dead) : Direction sid s r [] [] where
  link := ⟨.start, by simp [CreditLink.start, hw, hwrote, hbuf, hread]⟩
  finSent := by simp
  finLast := trivial
  finRead := by simp [hread']
  closed := by simp [hclosed]
  rstSent := by simp
  resetCause := fun h => absurd h hdead

/-! ### What the theorems about runs use -/

theorem read_isPrefix (h : Direction sid s r q qb) : r.read <+: s.wrote := by
  obtain ⟨l, hwrote, hread, -⟩ := h.link
  rw [← hwrote, ← hread]
  exact l.read_isPrefix

/-- The end of the stream is seen only behind the last byte. -/
theorem endOfStream (h : Direction sid s r q qb) (hr : ¬ r.dead) (hbuf : r.buf = [])
    (hclosed : r.readClosed = true) : s.closedWrite = true ∧ r.read = s.wrote := by
  obtain ⟨l, hwrote, hread, hinflight, -, hb, -⟩ := h.link
  obtain ⟨hsent, hnone⟩ := h.finRead hr hclosed
  refine ⟨hsent, ?_⟩
  rw [← hwrote, ← hread]
  exact l.read_eq_wrote (by rw [hinflight, hnone]) (by rw [hb hr, hbuf])

theorem conservation (h : Direction sid s r q qb) (hs : ¬ s.dead) (hr : ¬ r.dead) :
    s.window + (dataOf sid q).length + r.buf.length + creditOf sid qb = windowSize := by
  obtain ⟨l, -, -, hinflight, hcredit, hbuf, hwindow⟩ := h.link
  rw [← hwindow hs, ← hinflight, ← hbuf hr, ← hcredit]
  exact l.conserved

theorem window_add_credit_le (h : Direction sid s r q qb) (hs : ¬ s.dead) :
    s.window + creditOf sid qb ≤ windowSize := by
  obtain ⟨l, -, -, -, hcredit, -, hwindow⟩ := h.link
  rw [← hwindow hs, ← hcredit]
  exact l.window_add_credit_le

theorem buf_le (h : Direction sid s r q qb) (hr : ¬ r.dead) : r.buf.length ≤ windowSize := by
  obtain ⟨l, -, -, -, -, hbuf, -⟩ := h.link
  rw [← hbuf hr]
  exact l.buf_le

/-! ### The users act -/

theorem write (h : Direction sid s r q qb) (hs : ¬ s.dead) (hopen : s.writeClosed = false)
    {payload : Bytes} (hlen : payload.length ≤ s.window) :
    Direction sid { s with window := s.window - payload.length, wrote := s.wrote ++ payload } r
      (q ++ [.data sid payload]) qb where
  link := by
    obtain ⟨l, hwrote, hread, hinflight, hcredit, hbuf, hwindow⟩ := h.link
    refine ⟨l.send payload (by rw [hwindow hs]; exact hlen), ?_, hread, ?_, hcredit, hbuf, ?_⟩
    · simp [CreditLink.send, hwrote]
    · simp [CreditLink.send, hinflight, Message.dataFor]
    · simp [CreditLink.send, hwindow hs]
  finSent := by simpa using h.finSent
  finLast := by
    refine h.finLast.append fun hfin => ?_
    have := h.closed hs (h.finSent hfin)
    rw [hopen] at this
    cases this
  finRead := fun hr hclosed => by
    have := h.closed hs (h.finRead hr hclosed).1
    rw [hopen] at this
    cases this
  closed := h.closed
  rstSent := by simpa using h.rstSent
  resetCause := h.resetCause

/-- Reading `n` bytes and announcing them; a read of nothing announces nothing. -/
theorem read (h : Direction sid s r q qb) (hr : ¬ r.dead) (n : ℕ) {grant : List Message}
    (hgrant : creditOf sid grant = (r.buf.take n).length) :
    Direction sid s { r with buf := r.buf.drop n, read := r.read ++ r.buf.take n } q
      (qb ++ grant) where
  link := by
    obtain ⟨l, hwrote, hread, hinflight, hcredit, hbuf, hwindow⟩ := h.link
    refine ⟨l.take n, hwrote, ?_, hinflight, ?_, fun _ => ?_, hwindow⟩
    · simp [CreditLink.take, hread, hbuf hr]
    · simp only [CreditLink.take, hcredit, hbuf hr, creditOf_append, hgrant]
    · simp [CreditLink.take, hbuf hr]
  finSent := h.finSent
  finLast := h.finLast
  finRead := h.finRead
  closed := h.closed
  rstSent := h.rstSent
  resetCause := h.resetCause

theorem closeWrite (h : Direction sid s r q qb) :
    Direction sid { s with closedWrite := true, writeClosed := true } r (q ++ [.fin sid]) qb where
  link := by simpa [Message.dataFor] using h.link
  finSent := fun _ => rfl
  finLast := h.finLast.append fun _ => rfl
  finRead := fun hr hclosed => ⟨rfl, by simpa [Message.dataFor] using (h.finRead hr hclosed).2⟩
  closed := fun _ _ => rfl
  rstSent := by simpa using h.rstSent
  resetCause := h.resetCause

/-- `close_write` on a stream that is closed for writing already. -/
theorem closeWriteAgain (h : Direction sid s r q qb) (hc : ¬ s.dead → s.writeClosed = true) :
    Direction sid { s with closedWrite := true } r q qb where
  link := h.link
  finSent := fun _ => rfl
  finLast := h.finLast
  finRead := fun hr hclosed => ⟨rfl, (h.finRead hr hclosed).2⟩
  closed := fun hs _ => hc hs
  rstSent := h.rstSent
  resetCause := h.resetCause

/-- The writing end resets the stream. -/
theorem resetSender (h : Direction sid s r q qb) :
    Direction sid { s with dead := True, didReset := true } r (q ++ [.rst sid]) qb where
  link := by
    obtain ⟨l, hwrote, hread, hinflight, hcredit, hbuf, -⟩ := h.link
    exact ⟨l, hwrote, hread, by simpa [Message.dataFor] using hinflight, hcredit, hbuf,
      fun hs => absurd trivial hs⟩
  finSent := by simpa using h.finSent
  finLast := h.finLast.append fun _ => rfl
  finRead := by simpa [Message.dataFor] using h.finRead
  closed := fun hs => absurd trivial hs
  rstSent := fun _ => rfl
  resetCause := fun _ => .inr rfl

/-- The reading end resets the stream. -/
theorem resetReceiver (h : Direction sid s r q qb) :
    Direction sid s { r with dead := True, didReset := true } q (qb ++ [.rst sid]) where
  link := by
    obtain ⟨l, hwrote, hread, hinflight, hcredit, -, hwindow⟩ := h.link
    exact ⟨l, hwrote, hread, hinflight, by simpa [Message.creditFor] using hcredit,
      fun hr => absurd trivial hr, hwindow⟩
  finSent := h.finSent
  finLast := h.finLast
  finRead := fun hr => absurd trivial hr
  closed := h.closed
  rstSent := h.rstSent
  resetCause := fun _ => .inl rfl

/-! ### Messages that do not concern the direction -/

theorem append (h : Direction sid s r q qb) {m : Message} (hm : m.Quiet sid) :
    Direction sid s r (q ++ [m]) qb where
  link := by simpa [hm.1] using h.link
  finSent := by simpa [hm.2.1.symm] using h.finSent
  finLast := h.finLast.append fun _ => hm.1
  finRead := by simpa [hm.1] using h.finRead
  closed := h.closed
  rstSent := by simpa [hm.2.2.symm] using h.rstSent
  resetCause := h.resetCause

theorem appendBack (h : Direction sid s r q qb) {m : Message} (hm : m.creditFor sid = 0) :
    Direction sid s r q (qb ++ [m]) where
  link := by simpa [hm] using h.link
  finSent := h.finSent
  finLast := h.finLast
  finRead := h.finRead
  closed := h.closed
  rstSent := h.rstSent
  resetCause := h.resetCause

theorem drop {m : Message} (h : Direction sid s r (m :: q) qb) (hm : m.dataFor sid = []) :
    Direction sid s r q qb where
  link := by simpa [hm] using h.link
  finSent := fun hq => h.finSent (List.mem_cons_of_mem _ hq)
  finLast := h.finLast.2
  finRead := by simpa [hm] using h.finRead
  closed := h.closed
  rstSent := fun hq => h.rstSent (List.mem_cons_of_mem _ hq)
  resetCause := h.resetCause

theorem dropBack {m : Message} (h : Direction sid s r q (m :: qb)) (hm : m.creditFor sid = 0) :
    Direction sid s r q qb where
  link := by simpa [hm] using h.link
  finSent := h.finSent
  finLast := h.finLast
  finRead := h.finRead
  closed := h.closed
  rstSent := h.rstSent
  resetCause := h.resetCause

/-! ### The front message is handled -/

theorem deliverData {payload : Bytes} (h : Direction sid s r (.data sid payload :: q) qb) :
    Direction sid s { r with buf := r.buf ++ payload } q qb where
  link := by
    obtain ⟨l, hwrote, hread, hinflight, hcredit, hbuf, hwindow⟩ := h.link
    have hsplit : l.inflight = payload ++ dataOf sid q := by
      simpa [Message.dataFor] using hinflight
    refine ⟨l.deliver payload (dataOf sid q) hsplit, hwrote, hread, rfl, hcredit, fun hr => ?_,
      hwindow⟩
    simp [CreditLink.deliver, hbuf hr]
  finSent := fun hq => h.finSent (List.mem_cons_of_mem _ hq)
  finLast := h.finLast.2
  finRead := fun hr hclosed => by
    have := h.finRead hr hclosed
    rw [dataOf_cons, List.append_eq_nil_iff] at this
    exact ⟨this.1, this.2.2⟩
  closed := h.closed
  rstSent := fun hq => h.rstSent (List.mem_cons_of_mem _ hq)
  resetCause := h.resetCause

/-- Data for an erased stream is dropped. -/
theorem deliverDataDead {payload : Bytes} (h : Direction sid s r (.data sid payload :: q) qb)
    (hr : r.dead) : Direction sid s r q qb := by
  have h' := h.deliverData
  obtain ⟨l, hwrote, hread, hinflight, hcredit, -, hwindow⟩ := h'.link
  exact { h' with
    link := ⟨l, hwrote, hread, hinflight, hcredit, fun hr' => absurd hr hr', hwindow⟩ }

theorem deliverFin (h : Direction sid s r (.fin sid :: q) qb) :
    Direction sid s { r with readClosed := true } q qb where
  link := h.link
  finSent := fun hq => h.finSent (List.mem_cons_of_mem _ hq)
  finLast := h.finLast.2
  finRead := fun _ _ => ⟨h.finSent (by simp), h.finLast.1 rfl⟩
  closed := h.closed
  rstSent := fun hq => h.rstSent (List.mem_cons_of_mem _ hq)
  resetCause := h.resetCause

/-- A RST erases the stream at the reading end. -/
theorem deliverRst (h : Direction sid s r (.rst sid :: q) qb) :
    Direction sid s { r with dead := True } q qb where
  link := by
    obtain ⟨l, hwrote, hread, hinflight, hcredit, -, hwindow⟩ := h.link
    exact ⟨l, hwrote, hread, hinflight, hcredit, fun hr => absurd trivial hr, hwindow⟩
  finSent := fun hq => h.finSent (List.mem_cons_of_mem _ hq)
  finLast := h.finLast.2
  finRead := fun hr => absurd trivial hr
  closed := h.closed
  rstSent := fun hq => h.rstSent (List.mem_cons_of_mem _ hq)
  resetCause := fun _ => .inr (h.rstSent (by simp))

/-- A RST erases the stream at the writing end. -/
theorem deliverRstBack (h : Direction sid s r q (.rst sid :: qb)) :
    Direction sid { s with dead := True } r q qb where
  link := by
    obtain ⟨l, hwrote, hread, hinflight, hcredit, hbuf, -⟩ := h.link
    exact ⟨l, hwrote, hread, hinflight, by simpa [Message.creditFor] using hcredit, hbuf,
      fun hs => absurd trivial hs⟩
  finSent := h.finSent
  finLast := h.finLast
  finRead := h.finRead
  closed := fun hs => absurd trivial hs
  rstSent := h.rstSent
  resetCause := h.resetCause

theorem deliverWindow {delta : UInt32} (h : Direction sid s r q (.window sid delta :: qb)) :
    Direction sid { s with window := s.window + delta.toNat } r q qb where
  link := by
    obtain ⟨l, hwrote, hread, hinflight, hcredit, hbuf, hwindow⟩ := h.link
    have hsplit : l.credit = delta.toNat + creditOf sid qb := by
      simpa [Message.creditFor] using hcredit
    refine ⟨l.grant delta.toNat (by omega), hwrote, hread, hinflight, ?_, hbuf, fun hs => ?_⟩
    · simp [CreditLink.grant, hsplit]
    · simp [CreditLink.grant, hwindow hs]
  finSent := h.finSent
  finLast := h.finLast
  finRead := h.finRead
  closed := h.closed
  rstSent := h.rstSent
  resetCause := h.resetCause

/-- Credit for an erased stream is dropped. -/
theorem deliverWindowDead {delta : UInt32} (h : Direction sid s r q (.window sid delta :: qb))
    (hs : s.dead) : Direction sid s r q qb := by
  have h' := h.deliverWindow
  obtain ⟨l, hwrote, hread, hinflight, hcredit, hbuf, -⟩ := h'.link
  exact { h' with
    link := ⟨l, hwrote, hread, hinflight, hcredit, hbuf, fun hs' => absurd hs hs'⟩
    closed := h.closed }

/-- The window of an erased stream is not looked at. -/
theorem congrDeadSender {s' : SenderView} (h : Direction sid s r q qb) (hs' : s'.dead)
    (hwrote : s'.wrote = s.wrote) (hclosed : s'.closedWrite = s.closedWrite)
    (hreset : s'.didReset = s.didReset) : Direction sid s' r q qb where
  link := by
    obtain ⟨l, hlwrote, hread, hinflight, hcredit, hbuf, -⟩ := h.link
    exact ⟨l, by rw [hlwrote, hwrote], hread, hinflight, hcredit, hbuf, fun hs => absurd hs' hs⟩
  finSent := by rw [hclosed]; exact h.finSent
  finLast := h.finLast
  finRead := by rw [hclosed]; exact h.finRead
  closed := fun hs => absurd hs' hs
  rstSent := by rw [hreset]; exact h.rstSent
  resetCause := by rw [hreset]; exact h.resetCause

/-- The buffer of an erased stream is not looked at. -/
theorem congrDeadReceiver {r' : ReceiverView} (h : Direction sid s r q qb) (hr : r.dead)
    (hr' : r'.dead) (hread : r'.read = r.read) (hreset : r'.didReset = r.didReset) :
    Direction sid s r' q qb where
  link := by
    obtain ⟨l, hwrote, hlread, hinflight, hcredit, -, hwindow⟩ := h.link
    exact ⟨l, hwrote, by rw [hlread, hread], hinflight, hcredit, fun hr => absurd hr' hr, hwindow⟩
  finSent := h.finSent
  finLast := h.finLast
  finRead := fun hr => absurd hr' hr
  closed := h.closed
  rstSent := h.rstSent
  resetCause := fun _ => by rw [hreset]; exact h.resetCause hr

end Direction

end PeerCore.Yamux
