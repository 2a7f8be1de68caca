import PeerCore.Swarm.Exchange

/-!
# Two negotiating streams

An outbound and an inbound negotiation over two ends of a stream that loses nothing and
keeps the order: what one `inner_` has given is the beginning of what the other one has
taken, from the negotiation and behind it from its owner.

* `Side.Settled`: what either side makes of any part of these bytes.
* `negotiators_agree`: both come to the same outcome, and no byte behind the exchange is
  lost.
-/

namespace PeerCore

open MultistreamSelect

/-! ## The exchange of two streams -/

section Exchange

variable (desired : ProtocolId) (supported : List ProtocolId)

/-- The proposal of `desired`. -/
def proposalOf : Bytes := encodeMessage header ++ encodeMessage desired

/-- The reply to the proposal of `desired`. -/
def replyTo : Bytes :=
  encodeMessage header ++ encodeMessage (if supported.contains desired then desired else ascii "na")

/-- The outcome on both sides. -/
def outcomeFor : Outcome :=
  if supported.contains desired then .ready desired else .failed "protocol not supported"

/-- A protocol id that the exchange carries unchanged and that is not its refusal. -/
structure Proposable : Prop where
  fits : Fits desired
  line : desired.getLast? ≠ some 10
  notRefusal : desired ≠ ascii "na"

variable {desired}

theorem outcomeFor_ne_pending : outcomeFor desired supported ≠ .pending := by
  unfold outcomeFor
  split_ifs
  · exact nofun
  · exact nofun

theorem Proposable.wireToken (h : Proposable desired) : wireToken desired = desired := if_neg h.line

/-- What the inbound side makes of the proposal. -/
theorem Proposable.inbound (h : Proposable desired) :
    (Side.inbound supported).verdict (proposalOf desired) = outcomeFor desired supported ∧
      (Side.inbound supported).said (proposalOf desired) = [replyTo desired supported] ∧
      exchangeSpan (proposalOf desired) = .ok (proposalOf desired).length := by
  have hspan : exchangeSpan (proposalOf desired) = .ok (proposalOf desired).length := by
    have hwhole := exchangeSpan_exchange header_fits h.fits []
    rwa [List.append_nil] at hwhole
  have hnegotiate := negotiateInbound_proposal h.fits supported
  rw [h.wireToken] at hnegotiate
  refine ⟨?_, ?_, hspan⟩
  · unfold Side.verdict Side.judge
    rw [hspan]
    dsimp only
    rw [List.take_length, proposalOf, hnegotiate, outcomeFor]
    simp only [List.contains_iff_mem]
    split_ifs <;> rfl
  · unfold Side.said
    dsimp only
    rw [hspan]
    dsimp only
    rw [List.take_length, proposalOf, hnegotiate, replyTo]
    simp only [List.contains_iff_mem]
    split_ifs <;> rfl

/-- What the outbound side makes of the reply. -/
theorem Proposable.outbound (h : Proposable desired) :
    (Side.outbound desired).verdict (replyTo desired supported) = outcomeFor desired supported ∧
      exchangeSpan (replyTo desired supported) = .ok (replyTo desired supported).length := by
  have hspan : exchangeSpan (replyTo desired supported) = .ok (replyTo desired supported).length := by
    have hfits : Fits (if supported.contains desired then desired else ascii "na") := by
      split_ifs
      · exact h.fits
      · exact na_fits
    have hwhole := exchangeSpan_exchange header_fits hfits []
    rwa [List.append_nil] at hwhole
  refine ⟨?_, hspan⟩
  unfold Side.verdict Side.judge
  rw [hspan]
  dsimp only
  rw [List.take_length, replyTo, outcomeFor]
  split_ifs
  · rw [readOutboundResponse_reply h.fits, h.wireToken, if_pos rfl]
  · rw [readOutboundResponse_reply na_fits, wireToken_na, if_neg (Ne.symm h.notRefusal), if_pos rfl]

end Exchange

/-! ## Part of a stream that starts with an exchange -/

theorem Side.verdict_of_prefix {side : Side} {exchange bytes : Bytes}
    (hdecided : side.verdict exchange ≠ .pending) (h : exchange <+: bytes) :
    side.verdict bytes = side.verdict exchange := by
  obtain ⟨more, rfl⟩ := h
  exact Side.verdict_append hdecided more

/-- A side that has read part of a stream that starts with `exchange`: it is undecided, or it
    has read all of `exchange` and decided on it. -/
theorem Side.decides_prefix {side : Side} {exchange more bytes : Bytes}
    (hdecided : side.verdict exchange ≠ .pending)
    (hspan : exchangeSpan exchange = .ok exchange.length) (hbytes : bytes <+: exchange ++ more) :
    side.verdict bytes = .pending ∨
      side.verdict bytes = side.verdict exchange ∧ side.said bytes = side.said exchange ∧
        exchangeSpan bytes = .ok exchange.length ∧ exchange <+: bytes := by
  by_cases hpending : side.verdict bytes = .pending
  · exact .inl hpending
  obtain ⟨rest, hrest⟩ := hbytes
  have hspan' : exchangeSpan bytes = .ok exchange.length := by
    rw [← Side.span_append hpending rest, hrest, exchangeSpan_append hspan]
  refine .inr ⟨?_, ?_, hspan', ?_⟩
  · rw [← Side.verdict_append hpending rest, hrest, Side.verdict_append hdecided]
  · rw [← Side.said_append hpending rest, hrest, Side.said_append hdecided]
  · refine List.prefix_of_prefix_length_le (List.prefix_append exchange more) ?_ (exchangeSpan_le hspan')
    rw [← hrest]
    exact List.prefix_append bytes rest

namespace Negotiator

variable {τ : Type}

/-- An end of the stream: a negotiation that its owner has driven to a state. -/
structure End (m : Negotiator τ) (side : Side) (s : τ × List InnerCall) (o : Owner) : Prop where
  lawful : Lawful m
  driven : ∃ first connId inner, m.this first = side.make connId inner ∧ Drives m first s o
  proper : Proper s.2

/-- What an end has put on the stream. -/
def stream (s : τ × List InnerCall) : Bytes := (written s.2).flatten

theorem Stands.heard_prefix {side : Side} {neg : ProtocolNegotiatingStream} {heard has got : Bytes}
    {wrote put : List Bytes} (h : Stands side neg heard has wrote got put) : heard <+: has := by
  cases h with
  | waiting => exact List.prefix_rfl
  | ready _ _ _ _ _ _ _ _ _ hheard _ => exact hheard
  | failed => exact List.prefix_rfl

/-- `try_write` takes nothing before the negotiation is over. -/
theorem Stands.put_eq {side : Side} {neg : ProtocolNegotiatingStream} {heard has got : Bytes}
    {wrote put : List Bytes} (h : Stands side neg heard has wrote got put)
    (hpending : neg.outcome = .pending) : put = [] := by
  have hverdict := h.outcome.symm.trans hpending
  cases h with
  | waiting => rfl
  | ready _ _ _ span protocol _ _ _ hready => cases hready.symm.trans hverdict
  | failed => rfl

namespace End

variable {m : Negotiator τ} {side : Side} {s : τ × List InnerCall} {o : Owner}

theorem stands (h : End m side s o) : StandsAt m side s o ∨ Untouched side (m.this s.1) s.2 o := by
  obtain ⟨first, connId, inner, hfirst, hrun⟩ := h.driven
  exact hrun.stands h.lawful hfirst h.proper

theorem outcome_eq (h : End m side s o) : (m.this s.1).outcome = side.verdict o.heard := by
  obtain ⟨first, connId, inner, hfirst, hrun⟩ := h.driven
  exact hrun.outcome h.lawful hfirst h.proper

/-- It is decided by bytes that it was given. -/
theorem heard_prefix (h : End m side s o) : o.heard <+: given s.2 := by
  rcases h.stands with hstands | huntouched
  · exact Stands.heard_prefix hstands
  · rw [huntouched.owner]
    exact List.nil_prefix

/-- The owner of an undecided side has put nothing. -/
theorem put_pending (h : End m side s o) (hpending : (m.this s.1).outcome = .pending) :
    o.put = [] := by
  rcases h.stands with hstands | huntouched
  · exact Stands.put_eq hstands hpending
  · rw [huntouched.owner]

/-- An undecided side has sent its opening at most. -/
theorem stream_pending (h : End m side s o) (hpending : (m.this s.1).outcome = .pending) :
    stream s <+: side.opening.flatten := by
  unfold stream
  rcases h.stands with hstands | huntouched
  · rw [hstands.written_eq, h.put_pending hpending, List.append_nil]
    rw [h.outcome_eq] at hpending
    cases hspan : exchangeSpan o.heard with
    | error e => rw [Side.said_pending hspan]
    | ok span =>
      unfold Side.verdict at hpending
      rw [hspan] at hpending
      exact absurd hpending (side.judge_ne_pending _)
  · rw [huntouched.journal]
    exact List.nil_prefix

/-- A decided side has sent what it has to say, and then what its owner has put. -/
theorem stream_decided (h : End m side s o) (hdecided : (m.this s.1).outcome ≠ .pending) :
    stream s = (side.said o.heard).flatten ++ o.put.flatten := by
  rcases h.stands with hstands | huntouched
  · rw [stream, hstands.written_eq, List.flatten_append]
  · exact absurd huntouched.outcome.1 hdecided

/-- A side that was called has sent its opening. -/
theorem opening_sent (h : End m side s o) (hcalls : 0 < o.calls) :
    side.opening.flatten <+: stream s := by
  rcases h.stands with hstands | huntouched
  · rw [stream, hstands.written_eq, List.flatten_append]
    cases side with
    | outbound desired => exact List.prefix_append _ _
    | inbound supported => exact List.nil_prefix
  · rw [huntouched.owner] at hcalls
    exact absurd hcalls (Nat.lt_irrefl 0)

/-- Behind the exchange its owner gets what was put there. -/
theorem handed_over (h : End m side s o) {protocol : ProtocolId}
    (hready : (m.this s.1).outcome = .ready protocol) {exchange : Bytes}
    (hspan : exchangeSpan o.heard = .ok exchange.length) :
    o.got ++ (m.this s.1).appRxBuffer = (given s.2).drop exchange.length := by
  rcases h.stands with hstands | huntouched
  · obtain ⟨span, -, -, -, hspan', -, -, hrest, -⟩ :=
      Stands.of_negotiated hstands (isNegotiated_of_ready hready)
    rw [hspan, Except.ok.injEq] at hspan'
    rw [hrest, hspan']
  · cases huntouched.outcome.1.symm.trans hready

end End

section Pair

variable {τI τR : Type} {mI : Negotiator τI} {mR : Negotiator τR} {sI : τI × List InnerCall}
  {sR : τR × List InnerCall} {oI oR : Owner} {desired : ProtocolId} {supported : List ProtocolId}

/-- The outbound side sends the proposal first. -/
theorem End.proposes (hI : End mI (.outbound desired) sI oI) :
    stream sI <+: proposalOf desired ∧ oI.put = [] ∨ stream sI = proposalOf desired ++ oI.put.flatten := by
  have hopening : (Side.outbound desired).opening.flatten = proposalOf desired := List.append_nil _
  by_cases hpending : (mI.this sI.1).outcome = .pending
  · exact .inl ⟨hopening ▸ hI.stream_pending hpending, hI.put_pending hpending⟩
  · have hsaid : ((Side.outbound desired).said oI.heard).flatten = proposalOf desired := hopening
    rw [hI.stream_decided hpending, hsaid]
    exact .inr rfl

theorem End.stream_prefix (hI : End mI (.outbound desired) sI oI) :
    stream sI <+: proposalOf desired ++ oI.put.flatten := by
  rcases hI.proposes with ⟨hpart, -⟩ | hwhole
  · exact hpart.trans (List.prefix_append _ _)
  · exact hwhole ▸ List.prefix_rfl

theorem End.stream_whole (hI : End mI (.outbound desired) sI oI)
    (hsent : proposalOf desired <+: stream sI) : stream sI = proposalOf desired ++ oI.put.flatten := by
  rcases hI.proposes with ⟨hpart, hnothing⟩ | hwhole
  · have hsame : stream sI = proposalOf desired :=
      hpart.eq_of_length (Nat.le_antisymm hpart.length_le hsent.length_le)
    rw [hsame, hnothing, List.flatten_nil, List.append_nil]
  · exact hwhole

/-- What the inbound side has made of it. -/
theorem End.answers (hp : Proposable desired) (hI : End mI (.outbound desired) sI oI)
    (hR : End mR (.inbound supported) sR oR) (hforth : given sR.2 <+: stream sI) :
    (mR.this sR.1).outcome = .pending ∧ stream sR = [] ∨
      (mR.this sR.1).outcome = outcomeFor desired supported ∧
        stream sR = replyTo desired supported ++ oR.put.flatten ∧
        exchangeSpan oR.heard = .ok (proposalOf desired).length ∧ proposalOf desired <+: oR.heard := by
  obtain ⟨hverdict, hsaid, hspan⟩ := hp.inbound supported
  have hdecided : (Side.inbound supported).verdict (proposalOf desired) ≠ .pending := by
    rw [hverdict]
    exact outcomeFor_ne_pending supported
  have hheard : oR.heard <+: proposalOf desired ++ oI.put.flatten :=
    (hR.heard_prefix.trans hforth).trans hI.stream_prefix
  rcases Side.decides_prefix hdecided hspan hheard with hpending | ⟨hsame, hsaid', hspan', hwhole⟩
  · rw [← hR.outcome_eq] at hpending
    exact .inl ⟨hpending, List.prefix_nil.mp (hR.stream_pending hpending)⟩
  · rw [← hR.outcome_eq, hverdict] at hsame
    refine .inr ⟨hsame, ?_, hspan', hwhole⟩
    rw [hR.stream_decided (hsame ▸ outcomeFor_ne_pending supported), hsaid', hsaid,
      List.flatten_singleton]

/-- What the outbound side has made of the reply. -/
theorem End.concludes (hp : Proposable desired) (hI : End mI (.outbound desired) sI oI)
    (hR : End mR (.inbound supported) sR oR) (hforth : given sR.2 <+: stream sI)
    (hback : given sI.2 <+: stream sR) :
    (mI.this sI.1).outcome = .pending ∨
      (mI.this sI.1).outcome = outcomeFor desired supported ∧
        (mR.this sR.1).outcome = outcomeFor desired supported ∧
        exchangeSpan oI.heard = .ok (replyTo desired supported).length ∧
        replyTo desired supported <+: oI.heard := by
  obtain ⟨hverdict, hspan⟩ := hp.outbound supported
  have hdecided : (Side.outbound desired).verdict (replyTo desired supported) ≠ .pending := by
    rw [hverdict]
    exact outcomeFor_ne_pending supported
  have hheard := hI.heard_prefix.trans hback
  rw [hI.outcome_eq]
  rcases End.answers hp hI hR hforth with ⟨-, hnothing⟩ | ⟨houtcome, hstream, -⟩
  · rw [hnothing, List.prefix_nil] at hheard
    rw [hheard]
    exact .inl rfl
  · rw [hstream] at hheard
    refine (Side.decides_prefix hdecided hspan hheard).imp_right ?_
    rintro ⟨hsame, -, hspan', hwhole⟩
    exact ⟨hsame.trans hverdict, houtcome, hspan', hwhole⟩

/-- A side that has heard what decides its negotiation has ended. -/
theorem End.decided {τ : Type} {m : Negotiator τ} {side : Side} {s : τ × List InnerCall} {o : Owner}
    (h : End m side s o) {exchange : Bytes}
    (hverdict : side.verdict exchange = outcomeFor desired supported) (hheard : exchange <+: o.heard) :
    (m.this s.1).outcome ≠ .pending := by
  have hdecided : side.verdict exchange ≠ .pending := by
    rw [hverdict]
    exact outcomeFor_ne_pending supported
  rw [h.outcome_eq, Side.verdict_of_prefix hdecided hheard]
  exact hdecided

/-- What was sent behind the exchange has been received behind it, or is on its way. -/
theorem behind_exchange {exchange received sent stream : Bytes} (hstream : stream = exchange ++ sent)
    (hexchange : exchange <+: received) (hreceived : received <+: stream) :
    sent = received.drop exchange.length ++ stream.drop received.length := by
  obtain ⟨rest, rfl⟩ := hexchange
  obtain ⟨more, rfl⟩ := hreceived
  rw [List.drop_left, List.drop_left]
  rw [List.append_assoc] at hstream
  exact (List.append_cancel_left hstream).symm

end Pair

end Negotiator

open Negotiator in
/-- Two negotiations over one stream, however they are called and however far the bytes have
    come. Neither ends otherwise than the protocols say, and the outbound one only behind the
    inbound one; a side that hears all that was written for it has ended; and behind the
    exchange what an owner has got, what waits for it and what is on its way is what the other
    owner has put. -/
theorem negotiators_agree {τI τR : Type} {mI : Negotiator τI} {mR : Negotiator τR}
    {desired : ProtocolId} (hp : Proposable desired) {supported : List ProtocolId}
    {sI : τI × List InnerCall} {sR : τR × List InnerCall} {oI oR : Owner}
    (hI : End mI (.outbound desired) sI oI) (hR : End mR (.inbound supported) sR oR)
    (hforth : given sR.2 <+: stream sI) (hback : given sI.2 <+: stream sR) :
    let outcomeI := (mI.this sI.1).outcome
    let outcomeR := (mR.this sR.1).outcome
    ((outcomeI = .pending ∨ outcomeI = outcomeFor desired supported) ∧
        (outcomeR = .pending ∨ outcomeR = outcomeFor desired supported) ∧
        (outcomeI ≠ .pending → outcomeR ≠ .pending)) ∧
      ((0 < oI.calls → oR.heard = stream sI → outcomeR ≠ .pending) ∧
        (outcomeR ≠ .pending → oI.heard = stream sR → outcomeI ≠ .pending)) ∧
      (outcomeI = .ready desired → oR.put.flatten =
        oI.got ++ (mI.this sI.1).appRxBuffer ++ (stream sR).drop (given sI.2).length) ∧
      (outcomeR = .ready desired → oI.put.flatten =
        oR.got ++ (mR.this sR.1).appRxBuffer ++ (stream sI).drop (given sR.2).length) := by
  intro outcomeI outcomeR
  have hanswers := End.answers hp hI hR hforth
  have hconcludes := End.concludes hp hI hR hforth hback
  have hunpending : outcomeFor desired supported ≠ .pending := outcomeFor_ne_pending supported
  refine ⟨⟨hconcludes.imp_right And.left, hanswers.imp And.left And.left, ?_⟩, ⟨?_, ?_⟩, ?_, ?_⟩
  · intro hdecided
    rcases hconcludes with hpending | ⟨-, houtcome, -⟩
    · exact absurd hpending hdecided
    · exact fun hpending => hunpending (houtcome.symm.trans hpending)
  · intro hcalls hall
    obtain ⟨hverdict, -, -⟩ := hp.inbound supported
    have hproposed : proposalOf desired <+: oR.heard := by
      have hopening := hI.opening_sent hcalls
      rw [hall]
      exact (List.append_nil (proposalOf desired)) ▸ hopening
    exact hR.decided hverdict hproposed
  · intro hanswered hall
    rcases hanswers with ⟨hnone, -⟩ | ⟨-, hstream, -⟩
    · exact absurd hnone hanswered
    · obtain ⟨hverdict, -⟩ := hp.outbound supported
      have hreplied : replyTo desired supported <+: oI.heard := by
        rw [hall, hstream]
        exact List.prefix_append _ _
      exact hI.decided hverdict hreplied
  · intro hready
    rcases hconcludes with hpending | ⟨-, houtcome, hspan, hreplied⟩
    · cases hpending.symm.trans hready
    · rw [hI.handed_over hready hspan]
      rcases hanswers with ⟨hpending, -⟩ | ⟨-, hstream, -⟩
      · exact absurd (houtcome.symm.trans hpending) hunpending
      · exact behind_exchange hstream (hreplied.trans hI.heard_prefix) hback
  · intro hready
    rcases hanswers with ⟨hpending, -⟩ | ⟨-, -, hspan, hproposed⟩
    · cases hpending.symm.trans hready
    · rw [hR.handed_over hready hspan]
      have hheard := hproposed.trans hR.heard_prefix
      exact behind_exchange (hI.stream_whole (hheard.trans hforth)) hheard hforth

/-- The initiator of an upgrade, with a direct stream open. -/
def toyOpened : Connection.BasicConnectionSession :=
  Connection.step Noise.Sodium.toy
    (Connection.toyUpgrade (Connection.toyOutbound ⟨[]⟩ []) (Connection.toyInbound [])).1 (.openStream (ascii "/a"))

/-- The outbound end: it has proposed `/a`, and the reply has come with a byte of the other owner. -/
def proposerEnd : World × List InnerCall :=
  polledThen (negotiatingWorld (.outbound (ascii "/a")) toyOpened) (toyProposal ++ [7])

/-- The inbound end: it has agreed to `/a`. -/
def answererEnd : World × List InnerCall :=
  ((Negotiation.negotiator Noise.Sodium.toy 0).journaled.poll
    ((negotiatingWorld (.inbound [ascii "/a"]) Connection.toyServed).arrive toyProposal, [])).2

open Negotiator in
/-- The one reads the byte that the other has written: both have agreed on `/a`. -/
theorem negotiators_agree_toy :
    let m := Negotiation.negotiator Noise.Sodium.toy 0
    let rI := m.journaled.tryRead 16 proposerEnd
    let rR := m.journaled.tryWrite [7] answererEnd
    rI.1 = .ok [7] ∧ rR.1 = .ok 1 ∧ (m.this rI.2.1).outcome = .ready (ascii "/a") ∧
      (m.this rR.2.1).outcome ≠ .pending ∧
      [7] = [7] ++ (m.this rI.2.1).appRxBuffer ++ (stream rR.2).drop (given rI.2.2).length := by
  intro m rI rR
  let answerer := (negotiatingWorld (.inbound [ascii "/a"]) Connection.toyServed).arrive toyProposal
  have hstart : m.Drives answerer (answerer, []) {} := .start
  have hrunR : m.Drives answerer answererEnd (Owner.call {} m (answerer, [])) := hstart.poll
  have hI : End m (.outbound (ascii "/a")) rI.2 _ :=
    ⟨Negotiation.lawful, ⟨_, 1, .direct 0, rfl, (polledThen_drives _ _).tryRead 16⟩, by decide +kernel⟩
  have hR : End m (.inbound [ascii "/a"]) rR.2 _ :=
    ⟨Negotiation.lawful, ⟨answerer, 1, .direct 0, rfl, hrunR.tryWrite [7]⟩, by decide +kernel⟩
  have hp : Proposable (ascii "/a") := ⟨by unfold Fits; decide, by decide, by decide⟩
  have hread : rI.1 = .ok [7] := by decide +kernel
  have hwrote : rR.1 = .ok 1 := by decide +kernel
  have hready : (m.this rI.2.1).outcome = .ready (ascii "/a") := by decide +kernel
  obtain ⟨⟨-, -, hbehind⟩, -, hsent, -⟩ :=
    negotiators_agree hp hI hR (by decide +kernel) (by decide +kernel)
  refine ⟨hread, hwrote, hready, hbehind fun hpending => Outcome.noConfusion (hready.symm.trans hpending), ?_⟩
  have hbyte : ([] ++ accepted [7] rR.1).flatten = ([] ++ rI.1.toOption.getD []) ++
      (m.this rI.2.1).appRxBuffer ++ (stream rR.2).drop (given rI.2.2).length := hsent hready
  rw [hread, hwrote] at hbyte
  exact hbyte

end PeerCore
