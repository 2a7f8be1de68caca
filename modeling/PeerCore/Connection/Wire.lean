import PeerCore.Connection.Nonces

/-!
# The bytes of the wire

Whatever `send` answers, the bytes that the kernel accepted are the first of those
queued, and `wire_tx_buffer` is the rest but for what `close_socket` cleared out of it
(`Flows`). Every step of a session keeps this, so `shutdown(SHUT_WR)`, which waits for
an empty buffer, is called when everything queued has been sent.
-/

namespace PeerCore.Connection

open BasicConnectionSession
open Noise (Entropy)

/-- What is sent, what is queued and when `shutdown` was called. -/
structure Flows (io : SessionIoState) : Prop where
  queued : io.socket.queued = io.socket.sent ++ (io.socket.unsent ++ io.wireTx)
  kept : io.socketOpen = true → io.socket.unsent = []
  whole : ∀ r ∈ io.socket.shutdowns, r.sent = r.queued
  first : io.writeShutdown = false → ∀ r ∈ io.socket.shutdowns, r.succeeded = false
  once : io.socket.shutdowns.countP ShutdownRecord.succeeded ≤ 1

variable {S : Noise.Sodium} {io io' : SessionIoState} {c c' : Core}

theorem Flows.pending (h : Flows io) (hopen : io.socketOpen = true) :
    io.socket.queued = io.socket.sent ++ io.wireTx := by
  rw [h.queued, h.kept hopen, List.nil_append]

theorem Flows.ordered (h : Flows io) : io.socket.sent <+: io.socket.queued :=
  ⟨_, h.queued.symm⟩

/-! ## The socket -/

/-- Only the receiving side and the answers to come are different. -/
theorem Flows.of_same (h : Flows io) (hopen : io'.socketOpen = io.socketOpen)
    (htx : io'.wireTx = io.wireTx) (hshut : io'.writeShutdown = io.writeShutdown)
    (hqueued : io'.socket.queued = io.socket.queued) (hsent : io'.socket.sent = io.socket.sent)
    (hshutdowns : io'.socket.shutdowns = io.socket.shutdowns)
    (hunsent : io'.socket.unsent = io.socket.unsent) : Flows io' := by
  constructor
  · rw [hqueued, hsent, hunsent, htx]
    exact h.queued
  · rw [hopen, hunsent]
    exact h.kept
  · rw [hshutdowns]
    exact h.whole
  · rw [hshut, hshutdowns]
    exact h.first
  · rw [hshutdowns]
    exact h.once

theorem Flows.queue (h : Flows io) (bytes : Bytes) : Flows (io.queue bytes) := by
  refine ⟨?_, h.kept, h.whole, h.first, h.once⟩
  show io.socket.queued ++ bytes = io.socket.sent ++ (io.socket.unsent ++ (io.wireTx ++ bytes))
  rw [h.queued, List.append_assoc, List.append_assoc]

/-- The kernel takes any part of the buffer. -/
theorem Flows.accept (h : Flows io) (hopen : io.socketOpen = true) (n : ℕ) :
    Flows (io.accept n) := by
  refine ⟨?_, h.kept, h.whole, h.first, h.once⟩
  show io.socket.queued =
    (io.socket.sent ++ io.wireTx.take n) ++ (io.socket.unsent ++ io.wireTx.drop n)
  rw [h.pending hopen, h.kept hopen, List.nil_append, List.append_assoc, List.take_append_drop]

theorem Flows.shut (h : Flows io) (hopen : io.socketOpen = true) (htx : io.wireTx = [])
    (hfirst : io.writeShutdown = false) (succeeded : Bool) : Flows (io.shut succeeded) := by
  have hnone := h.first hfirst
  refine ⟨h.queued, h.kept, ?_, ?_, ?_⟩
  · intro r hr
    rcases List.mem_append.mp hr with hr | hr
    · exact h.whole r hr
    · rw [List.mem_singleton.mp hr]
      show io.socket.sent = io.socket.queued
      rw [h.pending hopen, htx, List.append_nil]
  · intro hstill r hr
    have hfailed : succeeded = false := (Bool.or_eq_false_iff.mp hstill).2
    rcases List.mem_append.mp hr with hr | hr
    · exact hnone r hr
    · rw [List.mem_singleton.mp hr]
      exact hfailed
  · have hzero : io.socket.shutdowns.countP ShutdownRecord.succeeded = 0 := by
      rw [List.countP_eq_zero]
      intro r hr
      simp [hnone r hr]
    show (io.socket.shutdowns ++ [_]).countP ShutdownRecord.succeeded ≤ 1
    rw [List.countP_append, hzero, Nat.zero_add]
    exact List.countP_le_length

theorem Flows.closeSocket (h : Flows io) : Flows (closeSocket io) := by
  unfold Connection.closeSocket
  split_ifs
  · exact h
  next husable =>
    rw [not_or, Bool.not_eq_false] at husable
    refine ⟨?_, nofun, h.whole, nofun, h.once⟩
    show io.socket.queued = io.socket.sent ++ (io.wireTx ++ [])
    rw [h.pending husable.1, List.append_nil]

/-! ## The session -/

theorem Flows.out (h : Flows c.io) (hout : OutMoves S c c') : Flows c'.io := by
  induction hout with
  | refl => exact h
  | tail _ hstep ih =>
    cases hstep with
    | answers => exact ih.of_same rfl rfl rfl rfl rfl rfl rfl
    | accept n husable => exact ih.accept husable.1 n
    | shutdown hopen hfirst htx succeeded => exact ih.shut hopen htx hfirst succeeded
    | sealFramed => exact ih.queue _
    | sealLost => exact ih

theorem Flows.begin (h : Flows c.io) (hbegin : Begin c c') : Flows c'.io := by
  cases hbegin with
  | outbound proposal => exact h.queue proposal
  | inbound => exact h

theorem Flows.rx (h : Flows io) (wireRx : Bytes) : Flows { io with wireRx } :=
  h.of_same rfl rfl rfl rfl rfl rfl rfl

theorem Flows.move (h : Flows c.io) (hmove : Move S c c') : Flows c'.io := by
  cases hmove with
  | out hout => exact h.out hout.single
  | socket | recv => exact h.of_same rfl rfl rfl rfl rfl rfl rfl
  | close | closeSocket | finishFail | muxerInboundLost => exact h.closeSocket
  | startNoise span _ framed => exact (h.rx _).queue framed
  | acceptNoise c₁ span negotiated _ _ _ _ _ _ hout =>
    have hqueued : Flows c₁.io := Flows.out (c := { c with io := _ }) (h.queue negotiated.outbound) hout
    exact hqueued.rx _
  | acceptNoiseFail c₁ outbound _ _ _ hout =>
    have hqueued : Flows c₁.io := Flows.out (c := { c with io := _ }) (h.queue outbound) hout
    exact hqueued.closeSocket
  | msg1 _ rest _ framed | msg2 _ rest _ framed => exact (h.rx rest).queue framed
  | msg3 _ rest | openMuxer _ rest | openData _ rest => exact h.rx rest
  | fail wireRx => exact (h.rx wireRx).closeSocket
  | openFail _ rest => exact (h.rx rest).closeSocket
  | finishYamux | finishDirect | finishInbound => exact h
  | finishOutbound _ _ framed => exact h.queue framed
  | muxerOutbound span muxer =>
    cases muxer <;> exact h
  | muxerInbound c₁ span negotiated ciphertext framed secure _ _ _ _ _ _ hout =>
    have hqueued : Flows c₁.io :=
      Flows.out (c := { c with secure, io := _ }) (h.queue framed) hout
    cases negotiated.protocol <;> exact hqueued
  | muxerInboundFail c₁ _ _ framed secure _ _ _ hout =>
    have hqueued : Flows c₁.io :=
      Flows.out (c := { c with secure, io := _ }) (h.queue framed) hout
    exact hqueued.closeSocket

/-! ## Runs -/

/-- In every run of a session, whatever `send` and `shutdown` answer: what the kernel
    accepted is a prefix of what was queued, in the order of queueing; `shutdown`
    succeeds at most once, and is called only when the two are equal. -/
theorem sends_in_order (id : ConnectionId) (fd : ℤ) (addr : Multiaddr) (isInitiator : Bool)
    (identity : Option Identity) (streamMuxers : List ProtocolId) (random : ℕ → Entropy)
    {t : BasicConnectionSession}
    (hrun : Runs S (fun _ _ => True) (make id fd addr isInitiator identity streamMuxers random) t) :
    t.io.socket.sent <+: t.io.socket.queued ∧
      t.io.socket.shutdowns.countP ShutdownRecord.succeeded ≤ 1 ∧
      ∀ r ∈ t.io.socket.shutdowns, r.sent = r.queued := by
  have h : Flows t.io := by
    refine hrun.core_invariant (P := fun c => Flows c.io) ?_ ?_ ?_
    · exact fun _ _ h hmove => h.move hmove
    · exact fun _ _ h hbegin => h.begin hbegin
    · exact ⟨rfl, fun _ => rfl, by simp [make, BasicConnectionSession.core],
        by simp [make, BasicConnectionSession.core], Nat.zero_le _⟩
  exact ⟨h.ordered, h.once, h.whole⟩

/-- The talker half-closes its direct stream: two sends, and then the shutdown. -/
def toyHalfClosed : BasicConnectionSession :=
  step Noise.Sodium.toy (step Noise.Sodium.toy toyTalker
    (.answers [.accepted 30, .accepted 100000] none)) (.closeWrite (.direct 0))

theorem sends_in_order_toy :
    toyHalfClosed.io.socket.shutdowns.length = 1 ∧
      toyHalfClosed.io.socket.sent <+: toyHalfClosed.io.socket.queued ∧
      toyHalfClosed.io.socket.shutdowns.countP ShutdownRecord.succeeded ≤ 1 := by
  have hrun : Runs Noise.Sodium.toy (fun _ _ => True) toyDialer toyHalfClosed :=
    ((((toyUpgrade_runs _ _).step (.openStream []) trivial).step
      (.tryWrite (.direct 0) [1]) trivial).step (.answers [.accepted 30, .accepted 100000] none)
        trivial).step (.closeWrite (.direct 0)) trivial
  have hflows := sends_in_order 1 3 ⟨[]⟩ true (some toyIdentity) [] toyRandom hrun
  exact ⟨by decide +kernel, hflows.1, hflows.2.1⟩

end PeerCore.Connection
