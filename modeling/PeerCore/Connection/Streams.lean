import PeerCore.Connection.Stacked
import PeerCore.Yamux.Honest

/-!
# Streams from end to end

What one user of a Yamux stream reads is what the other one wrote, over two connections with
everything between: flow control, encryption, frames, and a byte stream.

* `Linked`: two connected sessions and a pair of Yamux sessions.
* `Joint.linked`: every run of the connections is one of the pair.
-/

namespace PeerCore.Connection

open BasicConnectionSession
open Noise (Entropy NoiseSession Honest)
open Yamux (YamuxSession Host Link Mirrored Pair)

variable {S : Noise.Sodium}

/-! ## Opening a stream -/

/-- The same Yamux session with the same messages behind it, the same end. -/
theorem Accompanies.of_sealed {delivered : Bytes} {x : Party} {e : Yamux.End}
    {s : BasicConnectionSession} (h : Accompanies delivered x e) (hmuxer : s.muxer = x.session.muxer)
    (hsealed : s.secure.sealed = x.session.secure.sealed) :
    Accompanies delivered { x with session := s } e := by
  obtain ⟨⟨hsession, hsaid⟩, hopened, hwrote, hread, hclosed, hreset⟩ := h
  refine ⟨⟨hsession.trans hmuxer.symm, ?_⟩, hopened, hwrote, hread, hclosed, hreset⟩
  rw [SecureChannelState.said, hsealed]
  exact hsaid

theorem Accompanies.of_same {delivered : Bytes} {x : Party} {e : Yamux.End}
    {s : BasicConnectionSession} (h : Accompanies delivered x e) (hsame : SameStreams x.session s) :
    Accompanies delivered { x with session := s } e := h.of_sealed hsame.muxer hsame.sealed

theorem Accompanies.counted {delivered : Bytes} {s : BasicConnectionSession} {k : History}
    {e : Yamux.End} (h : Accompanies delivered ⟨s, k⟩ e) {opens : ℕ} (hle : k.opens ≤ opens) :
    Accompanies delivered ⟨s, { k with opens }⟩ e :=
  ⟨h.abreast, h.opened.trans hle, h.wrote, h.read, h.closedWrite, h.didReset⟩

/-- A session without Yamux opens a stream of its own. -/
theorem requestOpenStream_same {s : BasicConnectionSession} (hnone : s.yamuxSession = none)
    (protocol : ProtocolId) : SameStreams s (requestOpenStream S protocol s).2 := by
  have hcreate : ∀ t : BasicConnectionSession, t = s → ∀ f : ℕ → StreamHandle,
      SameStreams s ((do
        let stream ← Op.update (createStream (some protocol) false)
        pure (f stream) : Method StreamHandle) t).2 := by
    rintro t rfl f
    have hundisturbed : Undisturbed t (createStream (some protocol) false t).2 := by
      unfold createStream
      exact ⟨rfl, rfl, rfl, rfl, rfl⟩
    exact hundisturbed.same
  have hrefl : SameStreams s s := (Undisturbed.refl s).same
  unfold requestOpenStream
  rw [Op.get_bind]
  split_ifs with hactive hready hyamux
  · exact hrefl
  · exact hrefl
  · rw [hnone] at hyamux
    cases hyamux
  · cases s.streamState with
    | none => exact hcreate s rfl _
    | some stream =>
      dsimp only
      split_ifs
      · exact hrefl
      · exact hcreate s rfl _

/-- The label that `request_open_stream` puts on the stream changes nothing else. -/
theorem requestOpenStream_yamux {s : BasicConnectionSession} {yamux : YamuxSession}
    (hyamux : s.yamuxSession = some yamux) (protocol : ProtocolId) :
    SameStreams s (requestOpenStream S protocol s).2 ∨
      SameStreams (onYamux (Yamux.openStream (yamuxCallbacks S)) s).2
        (requestOpenStream S protocol s).2 := by
  have hrefl : SameStreams s s := (Undisturbed.refl s).same
  unfold requestOpenStream
  rw [Op.get_bind]
  split_ifs with hactive hready hsome
  · exact .inl hrefl
  · exact .inl hrefl
  · refine .inr ?_
    rw [Op.bind_apply]
    rcases hopen : onYamux (Yamux.openStream (yamuxCallbacks S)) s with ⟨e | stream, t⟩
    · exact (Undisturbed.refl t).same
    · obtain ⟨yamux', hyamux'⟩ : ∃ yamux', t.yamuxSession = some yamux' := by
        unfold onYamux at hopen
        rw [hyamux] at hopen
        obtain ⟨-, rfl⟩ := Prod.mk.inj hopen
        exact ⟨_, rfl⟩
      have hlabel : onYamux (Op.update fun h : Host BasicConnectionSession =>
          ((h.1.heap stream).id, (h.1.setStream stream (·.setProtocol protocol), h.2))) t =
          (.ok (yamux'.heap stream).id, { t with
            yamuxSession := some (yamux'.setStream stream (·.setProtocol protocol)) }) := by
        unfold onYamux
        rw [hyamux']
        rfl
      show SameStreams t ((onYamux _ >>= _) t).2
      rw [Op.bind_apply, hlabel]
      refine ⟨?_, rfl, rfl⟩
      exact (YamuxSession.anonymous_setProtocol _ _ _).trans (muxer_of_some hyamux').symm
  · rw [hyamux] at hsome
    exact absurd rfl hsome

section Open

variable {delivered : Bytes} {x : Party} {e : Yamux.End} {yamux : YamuxSession}

/-- Where `open_stream` of an end leaves it. -/
theorem End.openStream_host (policy : ℕ → Bool) (e : Yamux.End) :
    ∃ opened, e.openStream policy =
        { e.withHost (Yamux.openStream (Yamux.callbacks policy) e.host).2 with opened } ∧
      opened.length ≤ e.opened.length + 1 := by
  unfold Yamux.End.openStream
  rcases Yamux.openStream (Yamux.callbacks policy) e.host with ⟨error | stream, h⟩
  · exact ⟨e.opened, rfl, Nat.le_succ _⟩
  · exact ⟨_, rfl, by simp⟩

/-- A stream is opened on both sides, or on none. -/
theorem Accompanies.openStream (hS : S.Correct) (h : Accompanies delivered x e)
    (hyamux : x.session.yamuxSession = some yamux) (hkeyed : KeyedToSend x.session)
    (protocol : ProtocolId)
    (hfew : (step S x.session (.openStream protocol)).secure.sealed.length < 2 ^ 64 - 1) :
    Accompanies delivered (x.step S (.openStream protocol)) e ∨
      Accompanies delivered (x.step S (.openStream protocol)) (e.openStream fun _ => true) := by
  have hmirrors := yamux_mirrors hS delivered
  rcases requestOpenStream_yamux (S := S) hyamux protocol with hsame | hsame
  · exact .inl ((h.of_same hsame).counted (Nat.le_succ _))
  · refine .inr ?_
    obtain ⟨opened, hopen, hlen⟩ := End.openStream_host (fun _ => true) e
    have hmethod := h.method hyamux hkeyed hmirrors.openStream
      ((congrArg List.length hsame.sealed).symm.trans_lt hfew)
    have hnext := hmethod.of_same hsame
    rw [hopen]
    exact ⟨hnext.abreast, hlen.trans (Nat.succ_le_succ h.opened), h.wrote, h.read, h.closedWrite,
      h.didReset⟩

end Open

/-! ## Every action but reading -/

/-- What an action does to the streams that neither concerns one nor reads the socket. -/
theorem quiet_undisturbed (s : BasicConnectionSession) {a : Action} (ha : NoRestart s a)
    (hhandle : a.handle = none) (hopen : ∀ protocol, a ≠ .openStream protocol)
    (hread : ∀ answers, a ≠ .readable answers) : Undisturbed s (step S s a) := by
  have hguard : a.isBegin = true → ¬ (s.isActive = true ∧ s.secure.secureReady = false) := by
    rintro hbegin ⟨hactive, hready⟩
    rcases ha hbegin with h | h
    · rw [hready] at h
      cases h
    · rw [hactive] at h
      cases h
  cases a with
  | answers sends shutdownError => exact ⟨rfl, rfl, rfl, rfl, rfl⟩
  | readable answers => exact absurd rfl (hread answers)
  | writable =>
    rw [step, onSocketWritable]
    split_ifs
    · exact Undisturbed.refl s
    · have hcalm := flushPendingWrites_calm s
      rcases hrun : flushPendingWrites s with ⟨e | _, t⟩ <;> rw [hrun] at hcalm
      · exact hcalm.trans (closing_undisturbed _ t)
      · exact hcalm
  | timeout =>
    rw [step, onTimeout]
    split_ifs
    · exact Undisturbed.refl s
    · exact Undisturbed.refl s
    · exact closing_undisturbed _ s
  | beginOutbound =>
    have hstays := hguard rfl
    rw [step, beginOutboundUpgrade, Op.get_bind]
    split_ifs with hinactive hready
    · exact Undisturbed.refl s
    · exact Undisturbed.refl s
    · exact Undisturbed.refl s
    · exact absurd ⟨by simpa using hinactive, by simpa using fun h => hready (.inr h)⟩ hstays
  | beginInbound =>
    have hstays := hguard rfl
    rw [step, beginInboundUpgrade, Op.get_bind]
    split_ifs with hinactive hready
    · exact Undisturbed.refl s
    · exact Undisturbed.refl s
    · exact Undisturbed.refl s
    · exact absurd ⟨by simpa using hinactive, by simpa using fun h => hready (.inr h)⟩ hstays
  | openStream protocol => exact absurd rfl (hopen protocol)
  | acceptStream =>
    rw [step, acceptInboundStream]
    cases s.pendingInbound <;> exact ⟨rfl, rfl, rfl, rfl, rfl⟩
  | nextEvent =>
    rw [step, Connection.nextEvent]
    cases s.eventQueue <;> exact ⟨rfl, rfl, rfl, rfl, rfl⟩
  | close => exact close_undisturbed s
  | tryRead => cases hhandle
  | tryWrite => cases hhandle
  | closeWrite => cases hhandle
  | reset => cases hhandle

/-- Nothing but reading decrypts. -/
theorem step_opened (s : BasicConnectionSession) {a : Action} (ha : NoRestart s a)
    (hread : ∀ answers, a ≠ .readable answers) :
    (step S s a).secure.opened = s.secure.opened := by
  have hquiet : a.handle = none → (∀ protocol, a ≠ .openStream protocol) →
      (step S s a).secure.opened = s.secure.opened :=
    fun hhandle hopen => (quiet_undisturbed s ha hhandle hopen hread).opened
  cases a with
  | openStream protocol => exact (OutMoves.frame (requestOpenStream_out (S := S) protocol s)).opened
  | tryRead handle size => exact (OutMoves.frame (streamTryRead_out (S := S) handle size s)).opened
  | tryWrite handle data => exact (OutMoves.frame (streamTryWrite_out (S := S) handle data s)).opened
  | closeWrite handle => exact (OutMoves.frame (streamCloseWrite_out (S := S) handle s)).opened
  | reset handle =>
    cases handle with
    | yamux stream => exact (OutMoves.frame (streamReset_yamux_out (S := S) stream s)).opened
    | direct stream => rfl
  | readable answers => exact absurd rfl (hread answers)
  | answers => exact hquiet rfl (fun _ h => by cases h)
  | writable => exact hquiet rfl (fun _ h => by cases h)
  | timeout => exact hquiet rfl (fun _ h => by cases h)
  | beginOutbound => exact hquiet rfl (fun _ h => by cases h)
  | beginInbound => exact hquiet rfl (fun _ h => by cases h)
  | acceptStream => exact hquiet rfl (fun _ h => by cases h)
  | nextEvent => exact hquiet rfl (fun _ h => by cases h)
  | close => exact hquiet rfl (fun _ h => by cases h)

/-- A side on its way to Yamux that has a Yamux session serves its streams. -/
theorem SoundSide.serving {ep : Endpoint} {role : Bool} {s : BasicConnectionSession}
    (h : SoundSide S ep role s.core) (hto : ToMuxed S s.core) {yamux : YamuxSession}
    (hyamux : s.yamuxSession = some yamux) :
    KeyedToSend s ∧ s.secure.stage = .ready ∧ s.secure.secureReady = true := by
  rcases hto.early_or_serving h.onward with ⟨u, channel, -, hearly⟩ |
    ⟨u, channel, -, -, hsettled, hstage, -⟩
  · have hnone : s.yamuxSession.isSome = false := hearly.hasYamux
    rw [hyamux] at hnone
    cases hnone
  · have hready : s.secure.secureReady = true := by
      rcases hsettled.established.keyed.stage with ⟨hmuxer, -⟩ | ⟨-, hready⟩
      · rw [hstage] at hmuxer
        cases hmuxer
      · exact hready
    exact ⟨⟨(h.armed.secureReady hready).2.sendKey, hsettled.established.keyed.sendNonce⟩, hstage,
      hready⟩

/-! ## Two sessions and a pair -/

/-- The channels of the pair never hold bytes back. -/
def prompt : Bool → ℕ → Bool := fun _ _ => true

/-- Two sessions and a pair: each channel has delivered what the other session decrypted. -/
structure Linked (side : Bool) (x y : Party) (p : Pair) : Prop where
  here : Accompanies y.session.secure.heard.flatten x (p.get side)
  there : Accompanies x.session.secure.heard.flatten y (p.get !side)

theorem Linked.swap {side : Bool} {x y : Party} {p : Pair} (h : Linked side x y p) :
    Linked (!side) y x p := ⟨h.there, by rw [Bool.not_not]; exact h.here⟩

section Act

variable {side : Bool} {x y : Party} {p : Pair}

/-- The acting side changes, and has decrypted nothing. -/
theorem Linked.acts (h : Linked side x y p) {x' : Party} {e' : Yamux.End}
    (hhere : Accompanies y.session.secure.heard.flatten x' e')
    (hheard : x'.session.secure.heard = x.session.secure.heard) :
    Linked side x' y (p.set side e') := by
  refine ⟨?_, ?_⟩
  · rw [Pair.get_set]
    exact hhere
  · rw [Pair.get_set_not, hheard]
    exact h.there

theorem Linked.stays (h : Linked side x y p) {x' : Party}
    (hhere : Accompanies y.session.secure.heard.flatten x' (p.get side))
    (hheard : x'.session.secure.heard = x.session.secure.heard) : Linked side x' y p := by
  refine ⟨hhere, ?_⟩
  rw [hheard]
  exact h.there

theorem heard_congr {secure secure' : SecureChannelState} (h : secure'.opened = secure.opened) :
    secure'.heard = secure.heard := by rw [SecureChannelState.heard, h, SecureChannelState.heard]

theorem Linked.of_same (h : Linked side x y p) {s : BasicConnectionSession}
    (hsame : SameStreams x.session s) : Linked side { x with session := s } y p :=
  h.stays (h.here.of_same hsame) (heard_congr hsame.opened)

/-- An action that does not read the socket is an action of the pair, or none. -/
theorem Linked.act (hS : S.Correct) (h : Linked side x y p) (hp : p.Reachable prompt)
    {ep : Endpoint} (hx : SoundSide S ep side x.session.core) {a : Action} (ha : Allowed x a)
    (hread : ∀ answers, a ≠ .readable answers) (hto : ToMuxed S (x.step S a).session.core) :
    ∃ p' : Pair, p'.Reachable prompt ∧ Linked side (x.step S a) y p' := by
  have hmoves : Moves S x.session.core (x.step S a).session.core :=
    step_moves_of_noRestart x.session ha.noRestart
  have hbefore : ToMuxed S x.session.core := hto.of_moves hmoves
  have hfew : (step S x.session a).secure.sealed.length < 2 ^ 64 - 1 :=
    (hto.fits (hx.moves hmoves).onward).2
  have hheard : (x.step S a).session.secure.heard = x.session.secure.heard :=
    heard_congr (step_opened x.session ha.noRestart hread)
  have hquiet : x.step S a = { x with session := step S x.session a } → a.handle = none →
      (∀ protocol, a ≠ .openStream protocol) →
      ∃ p' : Pair, p'.Reachable prompt ∧ Linked side (x.step S a) y p' := by
    intro hhistory hhandle hopen
    rw [hhistory]
    exact ⟨p, hp, h.of_same (quiet_undisturbed x.session ha.noRestart hhandle hopen hread).same⟩
  -- a handle is a Yamux stream, so there is a Yamux session
  have hyamux : ∀ handle, a.handle = some handle → ∃ stream yamux, handle = .yamux stream ∧
      x.session.yamuxSession = some yamux ∧ stream < (p.get side).session.allocated := by
    intro handle hhandle
    obtain ⟨stream, hkind, hlt⟩ := ha.handle handle hhandle
    have hsession : (p.get side).session = x.session.muxer := h.here.abreast.session
    rw [← hsession] at hlt
    cases hmuxer : x.session.yamuxSession with
    | none =>
      rw [hsession, muxer, hmuxer] at hlt
      exact absurd hlt (Nat.not_lt_zero _)
    | some yamux => exact ⟨stream, yamux, hkind, rfl, hlt⟩
  cases a with
  | openStream protocol =>
    cases hmuxer : x.session.yamuxSession with
    | none =>
      have hsame := requestOpenStream_same (S := S) hmuxer protocol
      exact ⟨p, hp, h.stays ((h.here.of_same hsame).counted (Nat.le_succ _)) hheard⟩
    | some yamux =>
      have hkeyed := (hx.serving hbefore hmuxer).1
      rcases h.here.openStream hS hmuxer hkeyed protocol hfew with hstays | hopens
      · exact ⟨p, hp, h.stays hstays hheard⟩
      · have henabled : p.Enabled side .openStream :=
          (Nat.succ_le_succ h.here.opened).trans_lt (ha.few protocol rfl)
        exact ⟨_, hp.step side .openStream henabled, h.acts hopens hheard⟩
  | tryRead handle size =>
    obtain ⟨stream, yamux, rfl, hmuxer, hlt⟩ := hyamux handle rfl
    have hkeyed := (hx.serving hbefore hmuxer).1
    exact ⟨_, hp.step side (.tryRead stream size) hlt,
      h.acts (h.here.tryRead hS hmuxer hkeyed stream size hfew) hheard⟩
  | tryWrite handle data =>
    obtain ⟨stream, yamux, rfl, hmuxer, hlt⟩ := hyamux handle rfl
    have hkeyed := (hx.serving hbefore hmuxer).1
    exact ⟨_, hp.step side (.tryWrite stream data) hlt,
      h.acts (h.here.tryWrite hS hmuxer hkeyed stream data hfew) hheard⟩
  | closeWrite handle =>
    obtain ⟨stream, yamux, rfl, hmuxer, hlt⟩ := hyamux handle rfl
    have hkeyed := (hx.serving hbefore hmuxer).1
    exact ⟨_, hp.step side (.closeWrite stream) hlt,
      h.acts (h.here.closeWrite hS hmuxer hkeyed stream hfew) hheard⟩
  | reset handle =>
    obtain ⟨stream, yamux, rfl, hmuxer, hlt⟩ := hyamux handle rfl
    have hkeyed := (hx.serving hbefore hmuxer).1
    exact ⟨_, hp.step side (.reset stream) hlt,
      h.acts (h.here.reset hS hmuxer hkeyed stream hfew) hheard⟩
  | readable answers => exact absurd rfl (hread answers)
  | answers => exact hquiet rfl rfl (fun _ h => by cases h)
  | writable => exact hquiet rfl rfl (fun _ h => by cases h)
  | timeout => exact hquiet rfl rfl (fun _ h => by cases h)
  | beginOutbound => exact hquiet rfl rfl (fun _ h => by cases h)
  | beginInbound => exact hquiet rfl rfl (fun _ h => by cases h)
  | acceptStream => exact hquiet rfl rfl (fun _ h => by cases h)
  | nextEvent => exact hquiet rfl rfl (fun _ h => by cases h)
  | close => exact hquiet rfl rfl (fun _ h => by cases h)

end Act

/-! ## Reading -/

section Read

variable {e : Bool → Endpoint} {side : Bool} {y : Party} {k : History} {s : BasicConnectionSession}
  {p : Pair} {last : Core}

/-- What a session that reads is up to: it ends in `last`, which has received no more than
    the other side has sent. -/
structure Reads (S : Noise.Sodium) (e : Bool → Endpoint) (side : Bool) (y : Party) (last c : Core) :
    Prop where
  sound : SoundSide S (e side) side c
  sent : y.session.io.socket.received <+: c.io.socket.sent
  moves : Moves S c last
  received : last.io.socket.received <+: y.session.io.socket.sent
  toMuxed : ToMuxed S last

theorem Reads.next {c c' : Core} (h : Reads S e side y last c) (hmoves : Moves S c c')
    (hlast : Moves S c' last) : Reads S e side y last c' :=
  ⟨h.sound.moves hmoves, h.sent.trans hmoves.sent, hlast, h.received, h.toMuxed⟩

/-- The message just decrypted is the next one on the channel. -/
theorem Reads.on_channel (hS : S.Correct) (hhonest : ∀ side, Honest S (e side).noise)
    (hy : SoundSide S (e !side) (!side) y.session.core) (htoY : ToMuxed S y.session.core)
    (h : Reads S e side y last s.core) : s.secure.heard <+: y.session.secure.said := by
  have hb : Onward S (!(!side)) (RolePhase S (!(!side)) ((e side).random 0) (e side).noise)
      s.core := by
    rw [Bool.not_not]
    exact h.sound.onward
  have hforth : s.io.socket.received <+: y.session.io.socket.queued :=
    (h.moves.received.trans h.received).trans hy.flows.ordered
  have hback : y.session.io.socket.received <+: s.io.socket.queued :=
    h.sent.trans h.sound.flows.ordered
  exact heard_prefix hS (hhonest !side) (hhonest side) hy.onward hb htoY (h.toMuxed.of_moves h.moves)
    h.sound.decrypted hforth hback

/-- A message handed to the Yamux session is one delivered by the channel of the pair. -/
theorem Linked.hears (hS : S.Correct) (hhonest : ∀ side, Honest S (e side).noise)
    (hy : SoundSide S (e !side) (!side) y.session.core) (htoY : ToMuxed S y.session.core)
    (h : Linked side ⟨s, k⟩ y p) (hp : p.Reachable prompt) {yamux : YamuxSession}
    (hyamux : s.yamuxSession = some yamux) {t : BasicConnectionSession} {plaintext : Bytes}
    (hmuxer : t.yamuxSession = s.yamuxSession) (hsealed : t.secure.sealed = s.secure.sealed)
    (hheard : t.secure.heard = s.secure.heard ++ [plaintext])
    (hreads : Reads S e side y last t.core)
    (hlast : Moves S (deliverPlaintext S plaintext t).2.core last) :
    ∃ p' : Pair, p'.Reachable prompt ∧ Linked side ⟨(deliverPlaintext S plaintext t).2, k⟩ y p' := by
  have hyamux' : t.yamuxSession = some yamux := hmuxer.trans hyamux
  -- what the other side encrypted ends in this message and the rest of the channel
  obtain ⟨more, hmore⟩ := hreads.on_channel hS hhonest hy htoY
  have hwire : (p.get !side).link.wire = plaintext ++ more.flatten := by
    have hsaid : y.session.secure.said.flatten =
        s.secure.heard.flatten ++ (p.get !side).link.wire := h.there.abreast.said
    rw [← hmore, hheard, List.flatten_append, List.flatten_append, List.append_assoc,
      List.flatten_singleton] at hsaid
    exact (List.append_cancel_left hsaid).symm
  have hdeliver : (deliverPlaintext S plaintext t).2 =
      (onYamux (Yamux.receive (yamuxCallbacks S) plaintext) t).2 := by
    rw [deliverPlaintext, if_pos (by rw [hyamux']; rfl)]
  have hopened := (OutMoves.frame (deliverPlaintext_out (S := S) plaintext t)).opened
  have hsame : t.muxer = s.muxer := by rw [muxer_of_some hyamux', muxer_of_some hyamux]
  have htaken : (p.get !side).link.wire.take plaintext.length = plaintext := by
    rw [hwire, List.take_left]
  have hhere : Accompanies y.session.secure.heard.flatten ⟨t, k⟩ (p.get side) :=
    h.here.of_sealed hsame hsealed
  have hlater : SoundSide S (e side) side (deliverPlaintext S plaintext t).2.core :=
    hreads.sound.moves ((deliverPlaintext_out plaintext).moves t)
  refine ⟨_, hp.step side (.deliver plaintext.length) trivial, ?_, ?_⟩
  · have hkeyed := (hreads.sound.serving (hreads.toMuxed.of_moves hreads.moves) hyamux').1
    have hfew := (hreads.toMuxed.of_moves hlast).fits hlater.onward
    rw [hdeliver] at hfew ⊢
    have hmethod := hhere.method hyamux' hkeyed ((yamux_mirrors hS _).receive plaintext) hfew.2
    unfold Pair.step
    dsimp only
    rw [Pair.get_set, htaken]
    exact hmethod
  · unfold Pair.step
    dsimp only
    rw [Pair.get_set_not, Pair.get_set]
    obtain ⟨⟨hsession, -⟩, hopens, hwrote, hread, hclosed, hreset⟩ := h.there
    refine ⟨⟨hsession, ?_⟩, hopens, hwrote, hread, hclosed, hreset⟩
    show y.session.secure.said.flatten =
      (deliverPlaintext S plaintext t).2.secure.heard.flatten ++
        (p.get !side).link.wire.drop plaintext.length
    have hheard' : (deliverPlaintext S plaintext t).2.secure.heard = t.secure.heard :=
      heard_congr hopened
    rw [hheard', hwire, List.drop_left, ← List.flatten_append, hmore]

/-- The data loop delivers the messages of the channel, one after the other. -/
theorem Linked.dataLoop (hS : S.Correct) (hhonest : ∀ side, Honest S (e side).noise)
    (hy : SoundSide S (e !side) (!side) y.session.core) (htoY : ToMuxed S y.session.core)
    (fuel : ℕ) : ∀ {s : BasicConnectionSession} {p : Pair} {yamux : YamuxSession},
    Linked side ⟨s, k⟩ y p → p.Reachable prompt → s.yamuxSession = some yamux → s.core.Active →
      s.secure.secureReady = true →
      Reads S e side y ((dataLoop S fuel s).2.core.afterwards (dataLoop S fuel s).1) s.core →
      ∃ p' : Pair, p'.Reachable prompt ∧ Linked side ⟨(dataLoop S fuel s).2, k⟩ y p' := by
  induction fuel with
  | zero => exact fun h hp _ _ _ _ => ⟨_, hp, h⟩
  | succ fuel ih =>
    intro s p yamux h hp hyamux hactive hready hreads
    rcases hpop : tryPopWireFrame s.io.wireRx with error | _ | ⟨frame, rest⟩
    · rw [Connection.dataLoop, Op.bind_apply, popFrame_apply, hpop]
      exact ⟨p, hp, h⟩
    · rw [Connection.dataLoop, Op.bind_apply, popFrame_apply, hpop]
      exact ⟨p, hp, h⟩
    · rcases hopen : openMessage S frame s.secure with ⟨error | plaintext, secure⟩
      · -- a frame that does not decrypt: nothing more is read
        have hsecure := openMessage_error hopen
        rw [Connection.dataLoop, Op.bind_apply, popFrame_apply, hpop]
        simp only [Op.bind_apply, onSecure, Op.zoom, hopen]
        refine ⟨p, hp, h.stays (h.here.of_sealed rfl (by rw [hsecure])) ?_⟩
        rw [hsecure]
        simp [SecureChannelState.heard]
      · obtain ⟨-, -, -, hsecure⟩ := openMessage_ok hopen
        rw [dataLoop_message fuel hpop hopen] at hreads ⊢
        -- the session with the message, and when its streams have got it
        generalize ht : ({ s with io := { s.io with wireRx := rest }, secure } :
          BasicConnectionSession) = t at hreads ⊢
        have hmove : Move S s.core t.core :=
          ht ▸ Move.openData s.core frame rest plaintext secure hactive hready hpop hopen
        have hactive : t.core.Active := ht ▸ hactive
        have hready : t.secure.secureReady = true := by
          rw [← ht, hsecure]
          exact hready
        have hkept : t.yamuxSession = s.yamuxSession := ht ▸ rfl
        have hout := deliverPlaintext_out (S := S) plaintext t
        obtain ⟨yamux', hyamux'⟩ : ∃ yamux',
            (deliverPlaintext S plaintext t).2.yamuxSession = some yamux' := by
          have hsome := (OutMoves.frame hout).hasYamux
          refine Option.isSome_iff_exists.mp (hsome.trans ?_)
          show t.yamuxSession.isSome = true
          rw [hkept, hyamux]
          rfl
        have hactive' := (OutMoves.frame hout).active hactive
        have hready' := (OutMoves.frame hout).secureReady.trans hready
        have hlast := (dataLoop_ends (S := S) fuel _ hactive' hready').afterwards
        have hmoves : Moves S t.core (deliverPlaintext S plaintext t).2.core :=
          (deliverPlaintext_out plaintext).moves t
        have hreadsT := hreads.next hmove.single (hmoves.trans hlast)
        obtain ⟨p', hp', h'⟩ := h.hears hS hhonest hy htoY hp hyamux hkept
          (by rw [← ht, hsecure]) (by rw [← ht, hsecure]; simp [SecureChannelState.heard]) hreadsT
          hlast
        exact ih h' hp' hyamux' hactive' hready' (hreadsT.next hmoves hlast)

/-- The upgrade leaves the streams alone, also where it makes the Yamux session. -/
theorem upgradeInput_same {ep : Endpoint} {t : BasicConnectionSession} {r : Result Unit}
    (hs : SoundSide S ep side s.core) (hactive : s.core.Active) (hrun : upgradeInput S s = (r, t))
    (hto : ToMuxed S (t.core.afterwards r)) : SameStreams s t := by
  have hends := upgradeInput_ends (S := S) s hactive
  rw [hrun] at hends
  cases hyamux : s.yamuxSession with
  | none => exact (upgradeInput_outcome (phase_followed _ _ _) hrun hactive hyamux hs.onward hto).1
  | some yamux =>
    obtain ⟨-, hstage, hready⟩ := hs.serving (hto.of_moves hends.afterwards) hyamux
    rw [upgradeInput_serving ⟨hactive, hstage, hready⟩] at hrun
    obtain ⟨-, rfl⟩ := Prod.mk.inj hrun
    exact (Undisturbed.refl s).same

/-- A ready session that is on its way to Yamux has its Yamux session. -/
theorem SoundSide.yamux_of_ready {ep : Endpoint} (h : SoundSide S ep side s.core)
    (hto : ToMuxed S s.core) (hready : s.secure.secureReady = true) :
    ∃ yamux, s.yamuxSession = some yamux := by
  rcases hto.early_or_serving h.onward with ⟨u, channel, -, hearly⟩ | ⟨-, -, -, -, -, -, hyamux, -⟩
  · have hnot : s.secure.secureReady = false := by
      rw [show s.secure = channel from hearly.secure]
      exact hearly.secureReady
    rw [hready] at hnot
    cases hnot
  · exact Option.isSome_iff_exists.mp hyamux

/-- What `on_socket_readable` does when the input has been processed. -/
def processed : Result Unit × BasicConnectionSession → BasicConnectionSession
  | (.ok (), s) => s
  | (.error e, s) => close (emitError (ascii e) s)

theorem processed_undisturbed (run : Result Unit × BasicConnectionSession) :
    Undisturbed run.2 (processed run) := by
  rcases run with ⟨e | _, s⟩
  · exact closing_undisturbed _ s
  · exact Undisturbed.refl s

theorem processed_core {c : Core} {run : Result Unit × BasicConnectionSession}
    (h : Ended S c run.1 run.2.core) : (processed run).core = run.2.core.afterwards run.1 := by
  rcases run with ⟨e | _, s⟩
  · have hstate : s.state ≠ .closed := h.2
    rw [processed, close_emitError_core, if_neg hstate]
    rfl
  · rfl

theorem onSocketReadable_eq (answers : List RecvAnswer) (s : BasicConnectionSession) :
    onSocketReadable S answers s = if s.isActive = false then s
      else if (recvLoop answers s).1 then processed (processPendingInput S (recvLoop answers s).2)
      else (recvLoop answers s).2 := by
  unfold onSocketReadable
  split_ifs with hinactive hgoing
  · rfl
  · rcases hloop : recvLoop answers s with ⟨going, t⟩
    have htrue : going = true := by rw [hloop] at hgoing; exact hgoing
    subst htrue
    dsimp only
    rcases processPendingInput S t with ⟨e | _, u⟩ <;> rfl
  · rcases hloop : recvLoop answers s with ⟨going, t⟩
    have hfalse : going = false := by rw [hloop] at hgoing; exact Bool.not_eq_true _ ▸ hgoing
    subst hfalse
    rfl

/-- The buffered input, read while the pair keeps up with it. -/
theorem Linked.pendingInput (hS : S.Correct) (hhonest : ∀ side, Honest S (e side).noise)
    (hy : SoundSide S (e !side) (!side) y.session.core) (htoY : ToMuxed S y.session.core)
    (h : Linked side ⟨s, k⟩ y p) (hp : p.Reachable prompt) (hactive : s.core.Active)
    (hreads : Reads S e side y
      ((processPendingInput S s).2.core.afterwards (processPendingInput S s).1) s.core) :
    ∃ p' : Pair, p'.Reachable prompt ∧ Linked side ⟨(processPendingInput S s).2, k⟩ y p' := by
  rw [processPendingInput_eq, Op.bind_apply] at hreads ⊢
  have hends := upgradeInput_ends (S := S) s hactive
  rcases hrun : upgradeInput S s with ⟨error | _, t⟩ <;> rw [hrun] at hends hreads
  · exact ⟨p, hp, h.of_same (upgradeInput_same hreads.sound hactive hrun hreads.toMuxed)⟩
  · obtain ⟨hmoves, hactive'⟩ := hends
    have hdata := (readData_ends (S := S) t hactive').afterwards
    have hsame := upgradeInput_same hreads.sound hactive hrun (hreads.toMuxed.of_moves hdata)
    have hreadsT := hreads.next hmoves hdata
    have hT : Linked side ⟨t, k⟩ y p := h.of_same hsame
    dsimp only at hreadsT ⊢
    rw [Op.get_bind] at hreadsT ⊢
    split_ifs at hreadsT ⊢ with hready
    · exact ⟨p, hp, hT⟩
    · rw [Bool.not_eq_false] at hready
      obtain ⟨yamux, hyamux⟩ := hreadsT.sound.yamux_of_ready
        (hreadsT.toMuxed.of_moves hreadsT.moves) hready
      exact hT.dataLoop hS hhonest hy htoY _ hp hyamux hactive' hready hreadsT

/-- Reading the socket delivers what the channel of the pair holds. -/
theorem Linked.readable (hS : S.Correct) (hhonest : ∀ side, Honest S (e side).noise)
    (hy : SoundSide S (e !side) (!side) y.session.core) (htoY : ToMuxed S y.session.core)
    (h : Linked side ⟨s, k⟩ y p) (hp : p.Reachable prompt) (hs : SoundSide S (e side) side s.core)
    (hsent : y.session.io.socket.received <+: s.io.socket.sent) (answers : List RecvAnswer)
    (hwire : (onSocketReadable S answers s).io.socket.received <+: y.session.io.socket.sent)
    (hto : ToMuxed S (onSocketReadable S answers s).core) :
    ∃ p' : Pair, p'.Reachable prompt ∧ Linked side ⟨onSocketReadable S answers s, k⟩ y p' := by
  rw [onSocketReadable_eq] at hwire hto ⊢
  split_ifs at hwire hto ⊢ with hinactive hgoing
  · exact ⟨p, hp, h⟩
  · rw [Bool.not_eq_false, isActive_iff] at hinactive
    obtain ⟨hmoves, hactive⟩ := recvLoop_moves (S := S) answers s hinactive
    have hends := processPendingInput_ends (S := S) _ (hactive hgoing)
    have hcore := processed_core hends
    have hreads : Reads S e side y _ (recvLoop answers s).2.core :=
      ⟨hs.moves hmoves, hsent.trans hmoves.sent, hends.afterwards, hcore ▸ hwire, hcore ▸ hto⟩
    have ht : Linked side ⟨(recvLoop answers s).2, k⟩ y p :=
      h.of_same (recvLoop_undisturbed answers s).same
    obtain ⟨p', hp', h'⟩ := ht.pendingInput hS hhonest hy htoY hp (hactive hgoing) hreads
    exact ⟨p', hp', h'.of_same (processed_undisturbed _).same⟩
  · exact ⟨p, hp, h.of_same (recvLoop_undisturbed answers s).same⟩

end Read

/-! ## Runs -/

/-- Two sides that have begun, and two fresh Yamux sessions. -/
theorem begin_linked (e : Bool → Endpoint) (side : Bool) :
    Linked side ⟨(e side).begin S side, {}⟩ ⟨(e !side).begin S (!side), {}⟩ (.make 0 0) := by
  have hside : ∀ side : Bool,
      Accompanies [] ⟨(e side).begin S side, {}⟩ ((Pair.make 0 0).get side) := by
    intro side
    obtain ⟨hrole, hyamux, hsealed, -⟩ := begin_core (S := S) (e side) side
    have habreast : Abreast [] ((e side).begin S side) ((Pair.make 0 0).get side).host := by
      refine ⟨?_, ?_⟩
      · rw [muxer, hyamux, hrole]
        cases side <;> rfl
      · rw [SecureChannelState.said, hsealed]
        cases side <;> rfl
    cases side with
    | true => exact ⟨habreast, le_rfl, rfl, rfl, rfl, rfl⟩
    | false => exact ⟨habreast, le_rfl, rfl, rfl, rfl, rfl⟩
  have hnothing : ∀ side : Bool, ((e side).begin S side).secure.heard.flatten = [] := by
    intro side
    rw [SecureChannelState.heard, (begin_core (S := S) (e side) side).2.2.2.1]
    rfl
  refine ⟨?_, ?_⟩
  · rw [hnothing]
    exact hside side
  · rw [hnothing]
    exact hside !side

/-- In a run towards Yamux on both sides the Yamux sessions, their channels and their users
    are in a run of the pair. -/
theorem Joint.linked (hS : S.Correct) {e : Bool → Endpoint}
    (hhonest : ∀ side, Honest S (e side).noise) {w : Bool → Party} (h : Joint S e w) :
    (∀ side, ToMuxed S (w side).session.core) →
      ∃ p : Pair, p.Reachable prompt ∧ ∀ side, Linked side (w side) (w !side) p := by
  induction h with
  | start => exact fun _ => ⟨.make 0 0, .make 0 0, begin_linked e⟩
  | @step w hjoint side a ha hwire ih =>
    intro hto
    have hmoves := step_moves_of_noRestart (S := S) (w side).session ha.noRestart
    have hafter : ToMuxed S (Connection.step S (w side).session a).core := by
      have hself := hto side
      rw [Function.update_self] at hself
      exact hself
    have hother : ToMuxed S (w !side).session.core := by
      have hthere := hto !side
      rw [Function.update_of_ne (by simp)] at hthere
      exact hthere
    have hbefore : ∀ side', ToMuxed S (w side').session.core := by
      intro side'
      by_cases hs : side' = side
      · rw [hs]
        exact hafter.of_moves hmoves
      · rw [show side' = !side by cases side <;> cases side' <;> simp_all]
        exact hother
    obtain ⟨p, hp, hlinked⟩ := ih hbefore
    obtain ⟨p', hp', h'⟩ : ∃ p' : Pair, p'.Reachable prompt ∧
        Linked side ((w side).step S a) (w !side) p' := by
      by_cases hread : ∃ answers, a = .readable answers
      · obtain ⟨answers, rfl⟩ := hread
        have hsent := hjoint.wire !side
        rw [Bool.not_not] at hsent
        exact (hlinked side).readable hS hhonest (hjoint.sound !side) hother hp (hjoint.sound side)
          hsent answers hwire hafter
      · exact (hlinked side).act hS hp (hjoint.sound side) ha (fun answers h => hread ⟨answers, h⟩)
          hafter
    refine ⟨p', hp', fun side' => ?_⟩
    by_cases hs : side' = side
    · subst hs
      rw [Function.update_self, Function.update_of_ne (by simp)]
      exact h'
    · have hs' : side' = !side := by cases side <;> cases side' <;> simp_all
      subst hs'
      rw [Function.update_of_ne (by simp), Bool.not_not, Function.update_self]
      exact h'.swap

/-! ## From end to end -/

/-- What `x` has given to its secure channel or holds for it, and the Yamux session of `y` has
    not parsed. -/
def onTheWay (x y : BasicConnectionSession) : Bytes :=
  y.muxer.recvBuf ++
    (x.secure.said.flatten.drop y.secure.heard.flatten.length ++ x.muxer.sendBuf)

theorem Linked.onTheWay {side : Bool} {x y : Party} {p : Pair} (h : Linked side x y p) :
    p.undelivered side = onTheWay x.session y.session := by
  have hsession : (p.get side).session = x.session.muxer := h.here.abreast.session
  have hpeer : (p.get !side).session = y.session.muxer := h.there.abreast.session
  have hsaid : x.session.secure.said.flatten =
      y.session.secure.heard.flatten ++ (p.get side).link.wire := h.here.abreast.said
  unfold Pair.undelivered Connection.onTheWay
  rw [hsession, hpeer, hsaid, List.drop_left]

section EndToEnd

variable {e : Bool → Endpoint} {w : Bool → Party}

theorem SoundSide.yamux_of_muxed {ep : Endpoint} {side : Bool} {s : BasicConnectionSession}
    (h : SoundSide S ep side s.core) (hmuxed : Muxed s.core) :
    ∃ yamux, s.yamuxSession = some yamux ∧ KeyedToSend s := by
  have hto : ToMuxed S s.core := ⟨_, Moves.refl _, hmuxed⟩
  rcases hto.early_or_serving h.onward with ⟨u, channel, -, hearly⟩ | ⟨-, -, -, -, -, -, hyamux, -⟩
  · have hstage : channel.stage = .ready := hearly.secure ▸ hmuxed.stage
    rcases hearly.stage with ⟨hother, -⟩ | hother <;> rw [hstage] at hother <;> cases hother
  · obtain ⟨yamux, hyamux⟩ := Option.isSome_iff_exists.mp hyamux
    exact ⟨yamux, hyamux, (h.serving hto hyamux).1⟩

/-- Two ready sessions and the run of the pair that they are in. -/
theorem Joint.pair (hS : S.Correct) (hhonest : ∀ side, Honest S (e side).noise) (h : Joint S e w)
    (hmuxed : ∀ side, Muxed (w side).session.core) :
    ∃ p : Pair, p.Reachable prompt ∧ ∀ side, Linked side (w side) (w !side) p :=
  h.linked hS hhonest fun side => ⟨_, Moves.refl _, hmuxed side⟩

/-- Two honest sessions that chose Yamux in the handshake are ready, and all their messages fit
    frames. What one user has written on a stream that neither has reset was read by the other
    one, or is in the buffer of the stream, or in a frame on its way, in this order and nothing
    twice; what was read is in any case the beginning of what was written; and a reader is told
    the end of the stream only when the other one has called `close_write` and all of it was
    read. -/
theorem streams_end_to_end (hS : S.Correct) (hhonest : ∀ side, Honest S (e side).noise)
    (h : Joint S e w) (hmuxed : ∀ side, Muxed (w side).session.core) (side : Bool) :
    let x := w side
    let y := w !side
    (∀ sid, x.history.didReset sid = false → y.history.didReset sid = false →
      y.history.wrote sid = x.history.read sid ++ x.session.muxer.buffered sid ++
        Yamux.payloadOf sid (Yamux.framesOf (onTheWay y.session x.session))) ∧
      (∀ sid, x.history.read sid <+: y.history.wrote sid) ∧
      ∀ stream size, stream < x.session.muxer.allocated → 0 < size →
        x.history.didReset (x.session.idOf stream) = false →
        y.history.didReset (x.session.idOf stream) = false →
        (streamTryRead S (.yamux stream) size x.session).1 = .ok [] →
        y.history.closedWrite (x.session.idOf stream) = true ∧
          x.history.read (x.session.idOf stream) = y.history.wrote (x.session.idOf stream) := by
  obtain ⟨p, hp, hlinked⟩ := h.pair hS hhonest hmuxed
  obtain ⟨hhere, hthere⟩ := hlinked side
  have hway : p.undelivered (!side) = onTheWay (w !side).session (w side).session :=
    (hlinked side).swap.onTheWay
  have hsession : (p.get side).session = (w side).session.muxer := hhere.abreast.session
  obtain ⟨-, -, -, -, -, hread, hend⟩ := Yamux.streams_in_order hp side
  refine ⟨fun sid hreset hreset' => ?_, fun sid => ?_,
    fun stream size hlt hsize hreset hreset' hempty => ?_⟩
  · rw [← hhere.didReset] at hreset
    rw [← hthere.didReset] at hreset'
    have hconserved := Yamux.bytes_conserved hp (!side) hreset' (by rw [Bool.not_not]; exact hreset)
    rw [Bool.not_not, hway, hsession, hhere.read, hthere.wrote] at hconserved
    exact hconserved
  · rw [← hhere.read, ← hthere.wrote]
    exact hread sid
  · rw [← hhere.idOf] at hreset hreset' ⊢
    rw [← hsession] at hlt
    rw [← hhere.didReset] at hreset
    rw [← hthere.didReset] at hreset'
    obtain ⟨yamux, hyamux, hkeyed⟩ := (h.sound side).yamux_of_muxed (hmuxed side)
    rw [hhere.tryRead_result hS hyamux hkeyed stream size] at hempty
    have hclosed := hend stream size hlt hsize hreset hreset' hempty
    rw [hthere.closedWrite, hthere.wrote, hhere.read] at hclosed
    exact hclosed

/-- The credit of a stream that neither side has reset is conserved from end to end: what its
    writer may still send, what is on its way, what its reader has not read and the credit on
    its way back add up to the initial window. No stream buffers more than that. -/
theorem credit_end_to_end (hS : S.Correct) (hhonest : ∀ side, Honest S (e side).noise)
    (h : Joint S e w) (hmuxed : ∀ side, Muxed (w side).session.core) (side : Bool) {stream : ℕ}
    (hlt : stream < (w side).session.muxer.allocated) :
    let x := w side
    let y := w !side
    let sid := x.session.idOf stream
    (x.history.didReset sid = false → y.history.didReset sid = false →
      (∃ window, x.session.muxer.sendWindows sid = some window ∧
        window.toNat + Yamux.dataBytes sid (Yamux.framesOf (onTheWay x.session y.session)) +
          (y.session.muxer.buffered sid).length +
          Yamux.creditBytes sid (Yamux.framesOf (onTheWay y.session x.session)) =
            Yamux.initialStreamWindow.toNat)) ∧
      (x.session.muxer.heap stream).recvBuf.length ≤ Yamux.initialStreamWindow.toNat := by
  intro x y sid
  obtain ⟨p, hp, hlinked⟩ := h.pair hS hhonest hmuxed
  obtain ⟨hhere, hthere⟩ := hlinked side
  have hway : p.undelivered side = onTheWay x.session y.session := (hlinked side).onTheWay
  have hback : p.undelivered (!side) = onTheWay y.session x.session := (hlinked side).swap.onTheWay
  have hsession : (p.get side).session = x.session.muxer := hhere.abreast.session
  have hpeer : (p.get !side).session = y.session.muxer := hthere.abreast.session
  have hid : (p.get side).idOf stream = sid := hhere.idOf stream
  rw [← hsession] at hlt
  obtain ⟨hconserved, -, hbuffers⟩ := Yamux.window_conserved hp side
  refine ⟨fun hreset hreset' => ?_, hsession ▸ hbuffers stream hlt⟩
  rw [← hhere.didReset] at hreset
  rw [← hthere.didReset] at hreset'
  obtain ⟨q, qb, hj⟩ := Yamux.joined_of_reachable hp side
  obtain ⟨hknown, hentry⟩ := hj.here.object stream hlt
  rw [hid] at hknown hentry
  -- the stream is in the tables, for nobody has reset it
  obtain ⟨window, hwindow⟩ : ∃ window, x.session.muxer.sendWindows sid = some window := by
    rw [← hsession]
    rcases hentry with hs | ⟨hnone, -⟩
    · obtain ⟨-, -, -, hwindow⟩ := hj.here.entry sid stream hs
      exact hwindow
    · have hcause := (hj.back.direction sid).resetCause ⟨hknown, hnone⟩
      simp [Yamux.End.receiver, Yamux.End.sender, hreset, hreset'] at hcause
  have hopened : sid ∈ (p.get side).opened ∨ sid ∈ (p.get !side).opened := by
    refine hknown.imp_right fun haccepted => ?_
    obtain ⟨hinOrder, -⟩ := Yamux.streams_in_order hp !side
    rw [Bool.not_not] at hinOrder
    exact hinOrder.mem haccepted
  have hsum := hconserved sid hopened hreset hreset'
  have hsend : (p.get side).sendWindow sid = window.toNat := by
    rw [Yamux.End.sendWindow, hsession, hwindow]
  have hunread : (p.get !side).unread sid = (y.session.muxer.buffered sid).length := by
    rw [Yamux.End.unread, Yamux.YamuxSession.buffered, hpeer]
    cases y.session.muxer.streams sid <;> rfl
  rw [hsend, hunread, hway, hback] at hsum
  exact ⟨window, hwindow, hsum⟩

end EndToEnd

/-! ## Two toy sessions -/

/-- A dialer and a listener that support Yamux. -/
def toyEndpoint (side : Bool) : Endpoint :=
  if side then ⟨1, 3, ⟨[]⟩, some toyIdentity, [yamuxProtocol], fun _ =>
    ⟨List.Vector.replicate 32 1, List.Vector.replicate 32 2⟩⟩
  else ⟨2, 4, ⟨[]⟩, some toyIdentity, [yamuxProtocol], fun _ =>
    ⟨List.Vector.replicate 32 3, List.Vector.replicate 32 4⟩⟩

/-- One party of a pair; `true` names the first. -/
def sides (pair : Party × Party) (side : Bool) : Party := if side then pair.1 else pair.2

/-- One action of a script; `none` reads what the other side has sent. -/
def toyAction (pair : Party × Party) (side : Bool) : Option Action → Action
  | some a => a
  | none => .readable [.data ((sides pair !side).session.io.socket.sent.drop
      (sides pair side).session.io.socket.received.length)]

/-- One party acts. -/
def toyAct (pair : Party × Party) (side : Bool) (a : Action) : Party × Party :=
  if side then (pair.1.step Noise.Sodium.toy a, pair.2)
  else (pair.1, pair.2.step Noise.Sodium.toy a)

/-- The two sides after a script, whose last action comes first. -/
def toyTalk : List (Bool × Option Action) → Party × Party
  | [] => ({ session := (toyEndpoint true).begin Noise.Sodium.toy true },
      { session := (toyEndpoint false).begin Noise.Sodium.toy false })
  | (side, a) :: script => toyAct (toyTalk script) side (toyAction (toyTalk script) side a)

/-- Every action is allowed, and nothing is received that was not sent. -/
def toyFair : List (Bool × Option Action) → Bool
  | [] => true
  | (side, a) :: script =>
    let pair := toyTalk script
    let a := toyAction pair side a
    toyFair script && !a.isBegin &&
      (match a.handle with
        | none => true
        | some (.yamux stream) => stream < (sides pair side).session.muxer.allocated
        | some (.direct _) => false) &&
      (sides pair side).history.opens + 1 < 2 ^ 31 &&
      (sides (toyAct pair side a) side).session.io.socket.received.isPrefixOf
        (sides pair !side).session.io.socket.sent

theorem toyTalk_joint (script : List (Bool × Option Action)) (h : toyFair script = true) :
    Joint Noise.Sodium.toy toyEndpoint (sides (toyTalk script)) := by
  induction script with
  | nil =>
    have hstart : sides (toyTalk []) =
        fun side => { session := (toyEndpoint side).begin Noise.Sodium.toy side } := by
      funext side
      cases side <;> rfl
    rw [hstart]
    exact .start
  | cons entry script ih =>
    obtain ⟨side, a⟩ := entry
    simp only [toyFair, Bool.and_eq_true, Bool.not_eq_true', decide_eq_true_eq] at h
    obtain ⟨⟨⟨⟨hfair, hbegin⟩, hhandle⟩, hfew⟩, hwire⟩ := h
    have hupdate : sides (toyTalk ((side, a) :: script)) =
        Function.update (sides (toyTalk script)) side ((sides (toyTalk script) side).step
          Noise.Sodium.toy (toyAction (toyTalk script) side a)) := by
      funext side'
      cases side <;> cases side' <;> rfl
    have hself : sides (toyAct (toyTalk script) side (toyAction (toyTalk script) side a)) side =
        (sides (toyTalk script) side).step Noise.Sodium.toy (toyAction (toyTalk script) side a) := by
      cases side <;> rfl
    rw [hself] at hwire
    rw [hupdate]
    refine .step (ih hfair) side _ ⟨?_, ?_, fun _ _ => hfew⟩ (List.isPrefixOf_iff_prefix.mp hwire)
    · intro hrestart
      rw [hbegin] at hrestart
      cases hrestart
    · intro handle hsome
      rw [hsome] at hhandle
      cases handle with
      | yamux stream => exact ⟨stream, rfl, of_decide_eq_true hhandle⟩
      | direct stream => cases hhandle

/-- The dialer writes three bytes on its stream, and the listener reads two of them. -/
def toyScript : List (Bool × Option Action) :=
  [(false, some (.tryRead (.yamux 0) 2)), (false, none),
    (true, some (.tryWrite (.yamux 0) [1, 2, 3])), (true, some (.openStream (ascii "/echo"))),
    (false, none), (true, none), (false, none), (true, none), (false, none),
    (false, some toySends), (true, some .writable), (true, some toySends)]

theorem toyEndpoint_honest (side : Bool) : Honest Noise.Sodium.toy (toyEndpoint side).noise := by
  cases side with
  | true => exact toyConfiguration_honest (by decide)
  | false => exact toyConfiguration_honest (by decide)

theorem toyScript_joint : Joint Noise.Sodium.toy toyEndpoint (sides (toyTalk toyScript)) :=
  toyTalk_joint toyScript (by decide +kernel)

theorem toyScript_muxed (side : Bool) : Muxed (sides (toyTalk toyScript) side).session.core := by
  cases side with
  | true =>
    exact ⟨by decide +kernel, by decide +kernel, by unfold FitsFrames; decide +kernel,
      by decide +kernel⟩
  | false =>
    exact ⟨by decide +kernel, by decide +kernel, by unfold FitsFrames; decide +kernel,
      by decide +kernel⟩

/-- Two bytes are read, and the third one waits in the buffer of the stream. -/
theorem streams_end_to_end_toy :
    let w := sides (toyTalk toyScript)
    ((w true).history.wrote 1 = (w false).history.read 1 ++ [3] ∧ (w false).history.read 1 = [1, 2]) ∧
      (w false).history.read 1 <+: (w true).history.wrote 1 := by
  obtain ⟨hall, hread, -⟩ := streams_end_to_end Noise.toy_correct toyEndpoint_honest toyScript_joint
    toyScript_muxed false
  have hwrote := hall 1 (by decide +kernel) (by decide +kernel)
  have hbuffered : (sides (toyTalk toyScript) false).session.muxer.buffered 1 = [3] ∧
      Yamux.payloadOf 1 (Yamux.framesOf (onTheWay (sides (toyTalk toyScript) !false).session
        (sides (toyTalk toyScript) false).session)) = [] := by decide +kernel
  rw [hbuffered.1, hbuffered.2, List.append_nil] at hwrote
  exact ⟨⟨hwrote, by decide +kernel⟩, hread 1⟩

/-- One byte is not read, and credit for two is on its way back. -/
theorem credit_end_to_end_toy :
    let w := sides (toyTalk toyScript)
    (∃ window, (w true).session.muxer.sendWindows 1 = some window ∧
        window.toNat + 0 + 1 + 2 = 262144) ∧
      ((w true).session.muxer.heap 0).recvBuf.length ≤ 262144 := by
  obtain ⟨hcredit, hbuffer⟩ := credit_end_to_end Noise.toy_correct toyEndpoint_honest toyScript_joint
    toyScript_muxed true (show 0 < _ by decide +kernel)
  have hid : (sides (toyTalk toyScript) true).session.idOf 0 = 1 := by decide +kernel
  rw [hid] at hcredit
  obtain ⟨window, hwindow, hsum⟩ := hcredit (by decide +kernel) (by decide +kernel)
  have hparts : Yamux.dataBytes 1 (Yamux.framesOf (onTheWay (sides (toyTalk toyScript) true).session
        (sides (toyTalk toyScript) !true).session)) = 0 ∧
      ((sides (toyTalk toyScript) !true).session.muxer.buffered 1).length = 1 ∧
      Yamux.creditBytes 1 (Yamux.framesOf (onTheWay (sides (toyTalk toyScript) !true).session
        (sides (toyTalk toyScript) true).session)) = 2 := by
    decide +kernel
  rw [hparts.1, hparts.2.1, hparts.2.2] at hsum
  exact ⟨⟨window, hwindow, hsum⟩, hbuffer⟩

end PeerCore.Connection
