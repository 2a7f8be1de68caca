import PeerCore.Connection.Counterparts
import PeerCore.Connection.Reader
import PeerCore.Yamux.Mirror

/-!
# Two connected sessions and their users

The system of an initiator and a responder over a lossless byte stream: at each step one
side acts, and what it has received is the beginning of what the other one has sent. The
users of a side hold handles of its Yamux streams, and `History` is what they did with
them.

* `Joint`: the runs of the system.
* `Joint.sound`, `Joint.wire`: what holds of each side, and between them.
-/

namespace PeerCore.Connection

open BasicConnectionSession
open Noise (Entropy NoiseSession Honest)
open Yamux (YamuxSession record)

variable {S : Noise.Sodium}

/-! ## The Yamux session of a connection -/

namespace BasicConnectionSession

/-- The Yamux session without its labels; before `activate_yamux` the one it will make. -/
def muxer (s : BasicConnectionSession) : YamuxSession :=
  match s.yamuxSession with
  | some yamux => yamux.anonymous
  | none => .make 0 s.isInitiator

/-- The id of the Yamux stream behind a handle. -/
def idOf (s : BasicConnectionSession) (stream : ℕ) : StreamId := (s.muxer.heap stream).id

theorem muxer_of_some {s : BasicConnectionSession} {yamux : YamuxSession}
    (h : s.yamuxSession = some yamux) : s.muxer = yamux.anonymous := by
  rw [muxer, h]

end BasicConnectionSession

/-! ## What the users of a session did -/

/-- The number of calls of `request_open_stream`, and for each stream the bytes that
    `try_write` framed and `try_read` returned, and whether `close_write` and `reset` were
    called. -/
structure History where
  opens : ℕ := 0
  wrote : StreamId → Bytes := fun _ => []
  read : StreamId → Bytes := fun _ => []
  closedWrite : StreamId → Bool := fun _ => false
  didReset : StreamId → Bool := fun _ => false

section Users

variable (S : Noise.Sodium)

/-- What `try_write` put into its frame: as many bytes as the window of the stream lost. A
    write that the socket fails in the end has framed its bytes too. -/
def framed (s : BasicConnectionSession) (stream : ℕ) (data : Bytes) : Bytes :=
  data.take (s.muxer.windowOf (s.idOf stream) -
    (streamTryWrite S (.yamux stream) data s).2.muxer.windowOf (s.idOf stream))

variable {S} in
/-- A `try_write` that succeeds has framed the bytes that it says it accepted. -/
theorem framed_of_ok {s : BasicConnectionSession} {stream n : ℕ} {data : Bytes}
    (h : (streamTryWrite S (.yamux stream) data s).1 = .ok n) :
    framed S s stream data = data.take n := by
  unfold framed
  rcases hrun : streamTryWrite S (.yamux stream) data s with ⟨r, t⟩
  obtain rfl : r = .ok n := by rw [hrun] at h; exact h
  cases hyamux : s.yamuxSession with
  | none =>
    have hnone : streamTryWrite S (.yamux stream) data s = (.error "no yamux session", s) := by
      show onYamux (Yamux.tryWrite (yamuxCallbacks S) stream data) s = _
      unfold onYamux
      rw [hyamux]
    rw [hrun] at hnone
    cases hnone
  | some yamux =>
    have hwrite : streamTryWrite S (.yamux stream) data s =
        ((Yamux.tryWrite (yamuxCallbacks S) stream data (yamux, s)).1,
          { (Yamux.tryWrite (yamuxCallbacks S) stream data (yamux, s)).2.2 with
            yamuxSession := some (Yamux.tryWrite (yamuxCallbacks S) stream data (yamux, s)).2.1 }) := by
      show onYamux (Yamux.tryWrite (yamuxCallbacks S) stream data) s = _
      unfold onYamux
      rw [hyamux]
    rcases hmethod : Yamux.tryWrite (yamuxCallbacks S) stream data (yamux, s) with ⟨r, yamux', s'⟩
    rw [hrun, hmethod, Prod.mk.injEq] at hwrite
    obtain ⟨rfl, rfl⟩ := hwrite
    have htaken := Yamux.tryWrite_ok_taken (yamuxCallbacks S) hmethod
    rw [idOf, muxer_of_some hyamux, muxer_of_some rfl]
    exact congrArg data.take htaken

/-- The history when `try_read` has returned. -/
def History.reads (k : History) (sid : StreamId) : Result Bytes → History
  | .ok bytes => { k with read := record k.read sid bytes }
  | .error _ => k

/-- The history after an action on `s`. -/
def History.after (k : History) (s : BasicConnectionSession) : Action → History
  | .openStream _ => { k with opens := k.opens + 1 }
  | .tryWrite (.yamux stream) data =>
    { k with wrote := record k.wrote (s.idOf stream) (framed S s stream data) }
  | .tryRead (.yamux stream) size =>
    k.reads (s.idOf stream) (streamTryRead S (.yamux stream) size s).1
  | .closeWrite (.yamux stream) =>
    { k with closedWrite := Function.update k.closedWrite (s.idOf stream) true }
  | .reset (.yamux stream) =>
    { k with didReset := Function.update k.didReset (s.idOf stream) true }
  | _ => k

/-- A session and what its users did. -/
structure Party where
  session : BasicConnectionSession
  history : History := {}

/-- The session acts, and the history is kept. -/
def Party.step (x : Party) (a : Action) : Party :=
  { session := Connection.step S x.session a, history := x.history.after S x.session a }

end Users

/-- The stream handle that an action is called on. -/
def Action.handle : Action → Option StreamHandle
  | .tryRead handle _ | .tryWrite handle _ | .closeWrite handle | .reset handle => some handle
  | _ => none

/-- The owner does not start another handshake, the users hold Yamux streams that there are,
    and they open fewer than `2 ^ 31` of them. -/
structure Allowed (x : Party) (a : Action) : Prop where
  noRestart : NoRestart x.session a
  handle : ∀ handle, a.handle = some handle →
    ∃ stream, handle = .yamux stream ∧ stream < x.session.muxer.allocated
  few : ∀ protocol, a = .openStream protocol → x.history.opens + 1 < 2 ^ 31

/-! ## The system -/

/-- What a side is made with. -/
structure Endpoint where
  id : ConnectionId
  fd : ℤ
  remoteAddr : Multiaddr
  identity : Option Identity
  streamMuxers : List ProtocolId
  random : ℕ → Entropy

/-- What it brings to the handshake. -/
def Endpoint.noise (e : Endpoint) : NoiseSession := configuration e.identity e.streamMuxers

variable (S) in
/-- A side when it has begun its upgrade; `true` names the initiator. -/
def Endpoint.begin (e : Endpoint) (role : Bool) : BasicConnectionSession :=
  step S (make e.id e.fd e.remoteAddr role e.identity e.streamMuxers e.random) (upgradeCall role)

variable (S) in
/-- The states of all runs of the system. -/
inductive Joint (e : Bool → Endpoint) : (Bool → Party) → Prop
  | start : Joint e fun side => { session := (e side).begin S side }
  | step {w : Bool → Party} (h : Joint e w) (side : Bool) (a : Action) (ha : Allowed (w side) a)
    (hwire : (Connection.step S (w side).session a).io.socket.received <+:
      (w !side).session.io.socket.sent) :
    Joint e (Function.update w side ((w side).step S a))

/-! ## Each side -/

variable (S) in
/-- What moves keep of a side. -/
structure SoundSide (e : Endpoint) (role : Bool) (c : Core) : Prop where
  onward : Onward S role (RolePhase S role (e.random 0) e.noise) c
  armed : Armed c
  decrypted : Decrypted S c
  flows : Flows c.io

theorem SoundSide.move {e : Endpoint} {role : Bool} {c c' : Core} (h : SoundSide S e role c)
    (hmove : Move S c c') : SoundSide S e role c' where
  onward := h.onward.move (phase_followed role _ _) hmove
  armed := h.armed.move hmove
  decrypted := h.decrypted.move hmove
  flows := h.flows.move hmove

theorem SoundSide.moves {e : Endpoint} {role : Bool} {c c' : Core} (h : SoundSide S e role c)
    (hmoves : Moves S c c') : SoundSide S e role c' :=
  hmoves.invariant (P := SoundSide S e role) (fun _ _ h hmove => h.move hmove) h

/-- Every side is in a run of its own. -/
theorem Joint.runs {e : Bool → Endpoint} {w : Bool → Party} (h : Joint S e w) (side : Bool) :
    Runs S NoRestart ((e side).begin S side) (w side).session := by
  induction h with
  | start => exact .refl
  | step _ side' a ha _ ih =>
    by_cases hs : side = side'
    · subst hs
      rw [Function.update_self]
      exact ih.step a ha.noRestart
    · rw [Function.update_of_ne hs]
      exact ih

theorem Joint.sound {e : Bool → Endpoint} {w : Bool → Party} (h : Joint S e w) (side : Bool) :
    SoundSide S (e side) side (w side).session.core := by
  have hrun := h.runs side
  refine ⟨?_, ?_, decrypted_of_run hrun, flows_of_run hrun⟩
  · cases side with
    | true => exact initiator_onward hrun
    | false => exact responder_onward hrun
  · refine hrun.noRestart_invariant (P := Armed) (fun _ _ h hmove => h.move hmove) ?_
    exact (make_armed _ _ _ _ _ _ _).step _

/-! ## Between them -/

/-- What the kernel has accepted stays accepted. -/
theorem OutMoves.sent {c c' : Core} (h : OutMoves S c c') :
    c.io.socket.sent <+: c'.io.socket.sent := by
  induction h with
  | refl => exact List.prefix_rfl
  | tail _ hstep ih =>
    refine ih.trans ?_
    cases hstep with
    | accept => exact List.prefix_append _ _
    | answers | shutdown | sealFramed | sealLost => exact List.prefix_rfl

theorem closeSocket_history (io : SessionIoState) :
    (closeSocket io).socket.sent = io.socket.sent ∧
      (closeSocket io).socket.received = io.socket.received := by
  unfold closeSocket
  split_ifs <;> exact ⟨rfl, rfl⟩

theorem Move.sent {c c' : Core} (hmove : Move S c c') : c.io.socket.sent <+: c'.io.socket.sent := by
  have hclosed : ∀ io : SessionIoState, (Connection.closeSocket io).socket.sent = io.socket.sent :=
    fun io => (closeSocket_history io).1
  cases hmove with
  | out hout => exact hout.single.sent
  | acceptNoise _ _ _ _ _ _ _ _ _ hout => exact hout.sent
  | acceptNoiseFail _ _ _ _ _ hout => exact hout.sent.trans (hclosed _ ▸ List.prefix_rfl)
  | muxerOutbound _ muxer => cases muxer <;> exact List.prefix_rfl
  | muxerInbound _ _ negotiated _ _ _ _ _ _ _ _ _ hout =>
    cases negotiated.protocol <;> exact hout.sent
  | muxerInboundFail _ _ _ _ _ _ _ _ hout => exact hout.sent.trans (hclosed _ ▸ List.prefix_rfl)
  | close => exact hclosed _ ▸ List.prefix_rfl
  | closeSocket => exact hclosed _ ▸ List.prefix_rfl
  | fail => exact (hclosed _).symm ▸ List.prefix_rfl
  | finishFail => exact (hclosed _).symm ▸ List.prefix_rfl
  | openFail => exact (hclosed _).symm ▸ List.prefix_rfl
  | muxerInboundLost => exact (hclosed _).symm ▸ List.prefix_rfl
  | _ => exact List.prefix_rfl

theorem Moves.sent {c c' : Core} (hmoves : Moves S c c') :
    c.io.socket.sent <+: c'.io.socket.sent := by
  induction hmoves with
  | refl => exact List.prefix_rfl
  | tail _ hmove ih => exact ih.trans hmove.sent

theorem Move.received {c c' : Core} (hmove : Move S c c') :
    c.io.socket.received <+: c'.io.socket.received := by
  have hclosed : ∀ io : SessionIoState,
      (Connection.closeSocket io).socket.received = io.socket.received :=
    fun io => (closeSocket_history io).2
  have hout : ∀ {a b : Core}, OutMoves S a b → a.io.socket.received <+: b.io.socket.received :=
    fun h => h.frame.received ▸ List.prefix_rfl
  cases hmove with
  | out hwrite => exact hout hwrite.single
  | recv => exact List.prefix_append _ _
  | acceptNoise _ _ _ _ _ _ _ _ _ hwrites =>
    have hprefix := hout hwrites
    exact hprefix
  | acceptNoiseFail _ _ _ _ _ hwrites => exact (hout hwrites).trans (hclosed _ ▸ List.prefix_rfl)
  | muxerOutbound _ muxer => cases muxer <;> exact List.prefix_rfl
  | muxerInbound _ _ negotiated _ _ _ _ _ _ _ _ _ hwrites =>
    have hprefix := hout hwrites
    cases negotiated.protocol <;> exact hprefix
  | muxerInboundFail _ _ _ _ _ _ _ _ hwrites =>
    exact (hout hwrites).trans (hclosed _ ▸ List.prefix_rfl)
  | close => exact hclosed _ ▸ List.prefix_rfl
  | closeSocket => exact hclosed _ ▸ List.prefix_rfl
  | fail => exact (hclosed _).symm ▸ List.prefix_rfl
  | finishFail => exact (hclosed _).symm ▸ List.prefix_rfl
  | openFail => exact (hclosed _).symm ▸ List.prefix_rfl
  | muxerInboundLost => exact (hclosed _).symm ▸ List.prefix_rfl
  | _ => exact List.prefix_rfl

theorem Moves.received {c c' : Core} (hmoves : Moves S c c') :
    c.io.socket.received <+: c'.io.socket.received := by
  induction hmoves with
  | refl => exact List.prefix_rfl
  | tail _ hmove ih => exact ih.trans hmove.received

/-- What a step of `NoRestart` is: moves. -/
theorem step_moves_of_noRestart (s : BasicConnectionSession) {a : Action} (ha : NoRestart s a) :
    Moves S s.core (step S s a).core := by
  cases hkind : a.isBegin with
  | false => exact step_moves s hkind
  | true =>
    rcases step_begin (S := S) s hkind with hsame | ⟨c, hbegin, -⟩
    · rw [hsame]
      exact Moves.refl _
    · exfalso
      rcases ha hkind with hready | hinactive
      · rw [show s.secure.secureReady = false from hbegin.guard.2] at hready
        cases hready
      · rw [(isActive_iff s).mpr hbegin.guard.1] at hinactive
        cases hinactive

/-- A side that has begun its upgrade has neither received nor encrypted anything. -/
theorem begin_core (e : Endpoint) (side : Bool) :
    let s := e.begin S side
    s.isInitiator = side ∧ s.yamuxSession = none ∧ s.secure.sealed = [] ∧ s.secure.opened = [] ∧
      s.io.socket.received = [] := by
  cases side with
  | false => exact ⟨rfl, rfl, rfl, rfl, rfl⟩
  | true =>
    obtain ⟨c, hbegin, hout⟩ := beginOutboundUpgrade_starts (S := S)
      (s := make e.id e.fd e.remoteAddr true e.identity e.streamMuxers e.random)
      ⟨rfl, nofun, nofun⟩ (by rintro (h | h) <;> cases h) rfl
    cases hbegin with
    | inbound _ _ hrole => cases hrole
    | outbound proposal =>
      obtain ⟨hsecure, hframe⟩ := hout.silent (by rintro (h | h) <;> cases h)
      have hyamux : (e.begin S true).yamuxSession.isSome = false := hframe.hasYamux
      refine ⟨hframe.isInitiator, by simpa using hyamux, ?_, ?_, hframe.received⟩
      · exact congrArg SecureChannelState.sealed hsecure
      · exact congrArg SecureChannelState.opened hsecure

/-- What a side has received is the beginning of what the other one has sent. -/
theorem Joint.wire {e : Bool → Endpoint} {w : Bool → Party} (h : Joint S e w) (side : Bool) :
    (w side).session.io.socket.received <+: (w !side).session.io.socket.sent := by
  induction h with
  | start =>
    rw [(begin_core (S := S) (e side) side).2.2.2.2]
    exact List.nil_prefix
  | @step w _ side' a ha hwire ih =>
    by_cases hs : side = side'
    · subst hs
      rw [Function.update_self, Function.update_of_ne (by simp)]
      exact hwire
    · have hs' : (!side) = side' := by cases side <;> cases side' <;> simp_all
      rw [Function.update_of_ne hs, hs', Function.update_self]
      rw [hs'] at ih
      exact ih.trans (step_moves_of_noRestart (w side').session ha.noRestart).sent

end PeerCore.Connection
