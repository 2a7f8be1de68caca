import PeerCore.Yamux.Message

/-!
# Two sessions joined by FIFO channels

The system of two `YamuxSession`s of opposite roles. An `End` is a session, the
bytes it has sent that the other end has not received yet, and the history of
what its user did. Every handle a user holds comes from `open_stream` or from
the accept callback, so an action names a stream by any allocated handle.

The outgoing callback never fails; `policy` decides at each call whether it moves
`send_buf_` to the channel or leaves it for a later drain.
-/

namespace PeerCore.Yamux

/-- The environment of one session: the channel it sends on, the number of calls
    of its outgoing callback, and the ids given to its accept callback. -/
structure Link where
  wire : Bytes := []
  ticks : ℕ := 0
  accepted : List StreamId := []

/-- The callbacks of an end. -/
def callbacks (policy : ℕ → Bool) : Callbacks Link :=
  { accept := some fun _ sid e => { e with accepted := e.accepted ++ [sid] }
    outgoing := some fun sendBuf e =>
      if policy e.ticks then (.ok (), [], { e with wire := e.wire ++ sendBuf, ticks := e.ticks + 1 })
      else (.ok (), sendBuf, { e with ticks := e.ticks + 1 })
    close := none }

/-- One end with its history: the ids `open_stream` returned, the bytes `try_write`
    accepted and `try_read` returned on each id, and the ids on which `close_write`
    and `reset` were called. -/
structure End where
  session : YamuxSession
  link : Link := {}
  opened : List StreamId := []
  wrote : StreamId → Bytes := fun _ => []
  read : StreamId → Bytes := fun _ => []
  closedWrite : StreamId → Bool := fun _ => false
  didReset : StreamId → Bool := fun _ => false

/-- Extend the history of one stream. -/
def record (f : StreamId → Bytes) (sid : StreamId) (bytes : Bytes) : StreamId → Bytes :=
  Function.update f sid (f sid ++ bytes)

namespace End

variable (policy : ℕ → Bool)

/-- The session and its environment. -/
def host (e : End) : Host Link := (e.session, e.link)

/-- The session and its environment are replaced. -/
def withHost (e : End) (h : Host Link) : End := { e with session := h.1, link := h.2 }

/-- The id of the stream behind a handle. -/
def idOf (e : End) (stream : ℕ) : StreamId := (e.session.heap stream).id

/-- `open_stream`, with the id it returns. -/
def openStream (e : End) : End :=
  match Yamux.openStream (callbacks policy) e.host with
  | (.ok stream, h) => { e.withHost h with opened := e.opened ++ [(h.1.heap stream).id] }
  | (.error _, h) => e.withHost h

/-- `try_write`, with the bytes it accepts. -/
def tryWrite (stream : ℕ) (data : Bytes) (e : End) : End :=
  match Yamux.tryWrite (callbacks policy) stream data e.host with
  | (.ok n, h) => { e.withHost h with wrote := record e.wrote (e.idOf stream) (data.take n) }
  | (.error _, h) => e.withHost h

/-- `try_read`, with the bytes it returns. -/
def tryRead (stream size : ℕ) (e : End) : End :=
  match Yamux.tryRead (callbacks policy) stream size e.host with
  | (.ok bytes, h) => { e.withHost h with read := record e.read (e.idOf stream) bytes }
  | (.error _, h) => e.withHost h

/-- `close_write`. -/
def closeWrite (stream : ℕ) (e : End) : End :=
  { e.withHost (Yamux.closeWrite (callbacks policy) stream e.host).2 with
    closedWrite := Function.update e.closedWrite (e.idOf stream) true }

/-- `reset`. -/
def reset (stream : ℕ) (e : End) : End :=
  { e.withHost (Yamux.reset (callbacks policy) stream e.host).2 with
    didReset := Function.update e.didReset (e.idOf stream) true }

/-- Send what `drain_outgoing` returns. -/
def drain (e : End) : End :=
  let (bytes, session) := drainOutgoing e.session
  { e with session, link := { e.link with wire := e.link.wire ++ bytes } }

/-- `receive`. -/
def receive (data : Bytes) (e : End) : End :=
  e.withHost (Yamux.receive (callbacks policy) data e.host).2

/-- Take `n` bytes off the channel. -/
def unsend (n : ℕ) (e : End) : End := { e with link := { e.link with wire := e.link.wire.drop n } }

end End

/-- What can happen at one end. `deliver n` hands it the next `n` bytes of the
    other end's channel. -/
inductive Action
  | openStream
  | tryWrite (stream : ℕ) (data : Bytes)
  | tryRead (stream size : ℕ)
  | closeWrite (stream : ℕ)
  | reset (stream : ℕ)
  | drain
  | deliver (n : ℕ)

/-- The two ends; `true` names the client. -/
structure Pair where
  client : End
  server : End

namespace Pair

/-- One end. -/
def get (p : Pair) (side : Bool) : End := if side then p.client else p.server

/-- One end is replaced. -/
def set (p : Pair) (side : Bool) (e : End) : Pair :=
  if side then { p with client := e } else { p with server := e }

/-- Two fresh sessions. -/
def make (clientId serverId : ConnectionId) : Pair :=
  { client := { session := .make clientId true }, server := { session := .make serverId false } }

/-- One action at one end. -/
def step (policy : Bool → ℕ → Bool) (p : Pair) (side : Bool) (a : Action) : Pair :=
  let e := p.get side
  match a with
  | .openStream => p.set side (e.openStream (policy side))
  | .tryWrite stream data => p.set side (e.tryWrite (policy side) stream data)
  | .tryRead stream size => p.set side (e.tryRead (policy side) stream size)
  | .closeWrite stream => p.set side (e.closeWrite (policy side) stream)
  | .reset stream => p.set side (e.reset (policy side) stream)
  | .drain => p.set side e.drain
  | .deliver n =>
    let peer := p.get !side
    (p.set (!side) (peer.unsend n)).set side (e.receive (policy side) (peer.link.wire.take n))

/-- A handle is one the session has given out, and a side opens fewer than `2 ^ 31`
    streams. -/
def Enabled (p : Pair) (side : Bool) : Action → Prop
  | .openStream => (p.get side).opened.length + 1 < 2 ^ 31
  | .tryWrite stream _ | .tryRead stream _ | .closeWrite stream | .reset stream =>
    stream < (p.get side).session.allocated
  | .drain | .deliver _ => True

instance (p : Pair) (side : Bool) : ∀ a : Action, Decidable (p.Enabled side a)
  | .openStream => inferInstanceAs (Decidable (_ < _))
  | .tryWrite _ _ | .tryRead _ _ | .closeWrite _ | .reset _ => inferInstanceAs (Decidable (_ < _))
  | .drain | .deliver _ => inferInstanceAs (Decidable True)

/-- The states of all runs. -/
inductive Reachable (policy : Bool → ℕ → Bool) : Pair → Prop
  | make (clientId serverId : ConnectionId) : Reachable policy (make clientId serverId)
  | step {p : Pair} (hp : Reachable policy p) (side : Bool) (a : Action) (ha : p.Enabled side a) :
    Reachable policy (p.step policy side a)

/-- The bytes `side` has written that the other end has not parsed yet: in its
    receive buffer, on the channel, in the send buffer. -/
def undelivered (p : Pair) (side : Bool) : Bytes :=
  (p.get !side).session.recvBuf ++ ((p.get side).link.wire ++ (p.get side).session.sendBuf)

end Pair

/-! ## Reading frames out of undelivered bytes -/

/-- The complete frames at the front of `buf`; at most `fuel`. -/
def framesLoop : ℕ → Bytes → List (YamuxHeader × Bytes)
  | 0, _ => []
  | fuel + 1, buf =>
    match tryParseFrame buf with
    | none => []
    | some (hdr, payload, rest) => (hdr, payload) :: framesLoop fuel rest

/-- The complete frames at the front of `buf`. -/
def framesOf (buf : Bytes) : List (YamuxHeader × Bytes) := framesLoop buf.length buf

/-- The data bytes for `sid` in a list of frames. -/
def dataBytes (sid : StreamId) (frames : List (YamuxHeader × Bytes)) : ℕ :=
  (frames.map fun f => if f.1.streamId = sid then f.2.length else 0).sum

/-- The window credit for `sid` in a list of frames. -/
def creditBytes (sid : StreamId) (frames : List (YamuxHeader × Bytes)) : ℕ :=
  (frames.map fun f =>
    if f.1.type = YamuxType.windowUpdate.value ∧ f.1.streamId = sid then f.1.length.toNat else 0).sum

end PeerCore.Yamux
