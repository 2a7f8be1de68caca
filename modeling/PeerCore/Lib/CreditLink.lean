import Mathlib

/-!
# Credit-based flow control over a FIFO link

A sender may have at most `capacity` elements outstanding. It spends credit when
it sends; the receiver grants it back when the reader takes elements out of the
receive buffer, and the grant travels back to the sender.

`CreditLink` carries the two facts that every operation keeps: nothing is lost or
reordered (`fifo`), and the credit is conserved (`conserved`).

* `CreditLink.send`, `deliver`, `take`, `grant`: the operations.
* `CreditLink.read_isPrefix`, `buf_le`: what follows for every state.
-/

/-- One direction of a flow-controlled link. `wrote` and `read` are the elements
    accepted from the writer and taken by the reader since the start. -/
structure CreditLink (α : Type) (capacity : ℕ) where
  window : ℕ
  inflight : List α
  buf : List α
  credit : ℕ
  wrote : List α
  read : List α
  fifo : wrote = read ++ buf ++ inflight
  conserved : window + inflight.length + buf.length + credit = capacity

namespace CreditLink

variable {α : Type} {capacity : ℕ}

/-- A fresh link. -/
def start : CreditLink α capacity :=
  { window := capacity, inflight := [], buf := [], credit := 0, wrote := [], read := []
    fifo := rfl, conserved := rfl }

/-- The writer sends `data` within its window. -/
def send (l : CreditLink α capacity) (data : List α) (h : data.length ≤ l.window) :
    CreditLink α capacity :=
  { l with
    window := l.window - data.length
    inflight := l.inflight ++ data
    wrote := l.wrote ++ data
    fifo := by rw [l.fifo]; simp
    conserved := by have := l.conserved; simp; omega }

/-- The front of the link, `data`, reaches the receive buffer. -/
def deliver (l : CreditLink α capacity) (data rest : List α) (h : l.inflight = data ++ rest) :
    CreditLink α capacity :=
  { l with
    inflight := rest
    buf := l.buf ++ data
    fifo := by rw [l.fifo, h]; simp
    conserved := by have := l.conserved; rw [h] at this; simp at this ⊢; omega }

/-- The reader takes up to `n` elements and grants as much credit. -/
def take (l : CreditLink α capacity) (n : ℕ) : CreditLink α capacity :=
  { l with
    buf := l.buf.drop n
    credit := l.credit + (l.buf.take n).length
    read := l.read ++ l.buf.take n
    fifo := by rw [List.append_assoc l.read, List.take_append_drop, ← l.fifo]
    conserved := by have := l.conserved; simp; omega }

/-- A grant of `n` reaches the sender. -/
def grant (l : CreditLink α capacity) (n : ℕ) (h : n ≤ l.credit) : CreditLink α capacity :=
  { l with
    window := l.window + n
    credit := l.credit - n
    conserved := by have := l.conserved; omega }

theorem read_isPrefix (l : CreditLink α capacity) : l.read <+: l.wrote := by
  rw [l.fifo, List.append_assoc]
  exact List.prefix_append _ _

/-- With nothing in flight and an empty buffer the reader has everything. -/
theorem read_eq_wrote (l : CreditLink α capacity) (hi : l.inflight = []) (hb : l.buf = []) :
    l.read = l.wrote := by
  rw [l.fifo, hi, hb]; simp

theorem buf_le (l : CreditLink α capacity) : l.buf.length ≤ capacity := by
  have := l.conserved; omega

/-- A grant never takes the window past the capacity. -/
theorem window_add_credit_le (l : CreditLink α capacity) : l.window + l.credit ≤ capacity := by
  have := l.conserved; omega

end CreditLink
