import PeerCore.Connection.AtRest
import PeerCore.Connection.MuxerChoice

/-!
# No deadlock

Between two calls a session waits for bytes (`AtRest`). When each of two active sessions
has received all that the other one queued, neither can be waiting for the other:
the handshake is over on both sides, and so is the muxer exchange, when it is made at all
by both or by neither.

* `Arrived.taken`: then every message has been taken.
* `Arrived.upgraded`: by the phases of both sides. `exchange_over`: past the handshake.
* `no_deadlock`: for runs.
-/

namespace PeerCore.Connection

open BasicConnectionSession
open Noise (Entropy NoiseSession Honest)
open MultistreamSelect (encodeMessage header wireToken)

variable {S : Noise.Sodium}

/-! ## What has arrived -/

/-- All that `a` queued has arrived at `b`. -/
def Arrived (a b : Core) : Prop := b.io.socket.received = a.io.socket.queued

/-- Of two logs with the same bytes the messages are the same, when the reader has no
    frame left. -/
theorem framesOf_whole {messages others : List Bytes} {rest : Bytes}
    (hlen : ∀ m ∈ messages, m.length ≤ 65535) (hothers : ∀ m ∈ others, m.length ≤ 65535)
    (hnone : popWire rest = none) (hbytes : framesOf messages ++ rest = framesOf others) :
    messages = others := by
  obtain ⟨more, rfl⟩ := framesOf_prefix hlen hothers hbytes
  rw [framesOf_append, List.append_cancel_left_eq] at hbytes
  cases more with
  | nil => exact (List.append_nil _).symm
  | cons m more =>
    have hm := hothers m (List.mem_append_right _ List.mem_cons_self)
    rw [hbytes, framesOf, List.flatMap_cons, popWire_frameOf hm] at hnone
    cases hnone

section Arrived

variable {u v : Upgrade} {a b : Core}

/-- A receiver that waits for a frame has taken every message. -/
theorem Arrived.taken (h : Arrived a b) (ha : WireLog u a) (hb : WireLog v b)
    (hopen : b.io.socketOpen = true) (hnone : popWire b.io.wireRx = none)
    (hspan : MultistreamSelect.exchangeSpan v.heard = .ok v.heard.length)
    (hgreeting : u.greeting = noiseGreeting) :
    v.heard = noiseGreeting ∧ v.told ++ b.secure.taken = u.said ++ a.secure.framed := by
  have hbytes := (hb.received_open hopen).symm.trans (h.trans ha.queued)
  rw [hgreeting, List.append_assoc] at hbytes
  obtain ⟨hheard, hframes⟩ := exchange_unique hspan noiseGreeting_span hbytes
  refine ⟨hheard, framesOf_whole hb.takenShort (fun m hm => ?_) hnone hframes⟩
  rcases List.mem_append.mp hm with hm | hm
  · exact ha.saidShort m hm
  · exact a.secure.framed_short m hm

/-- A receiver does not wait for a greeting that was queued. -/
theorem Arrived.greeted (h : Arrived a b) (ha : WireLog u a) (hb : WireLog v b)
    (hopen : b.io.socketOpen = true) (hgreeting : u.greeting = noiseGreeting)
    (hheard : v.heard = []) (hnone : v.told ++ b.secure.taken = [])
    (hwait : Incomplete b.io.wireRx) : False := by
  have hbytes := (hb.received_open hopen).symm.trans (h.trans ha.queued)
  rw [hheard, hnone, hgreeting] at hbytes
  have hwire : b.io.wireRx = noiseGreeting ++ framesOf (u.said ++ a.secure.framed) := hbytes
  rw [hwire] at hwait
  exact hwait.not_span noiseGreeting_span

end Arrived

/-! ## The handshake -/

/-- What an active session waits for between two calls, and how many messages of the
    handshake it has said and was told by then. -/
inductive Waits (role : Bool) (u : Upgrade) (c : Core) : Prop
  | greeting (hwait : Incomplete c.io.wireRx) (hheard : u.heard = [])
    (hnone : u.told ++ c.secure.taken = [])
  | message (hpop : popWire c.io.wireRx = none)
    (hspan : MultistreamSelect.exchangeSpan u.heard = .ok u.heard.length)
    (hframed : c.secure.framed = []) (htaken : c.secure.taken = [])
    (hsaid : u.said.length = if role then u.told.length + 1 else u.told.length)
    (htold : u.told.length ≤ if role then 0 else 1)
  | data (hpop : popWire c.io.wireRx = none)
    (hspan : MultistreamSelect.exchangeSpan u.heard = .ok u.heard.length)
    (hsaid : u.said.length = if role then 2 else 1) (htold : u.told.length = if role then 1 else 2)
    (hstage : c.secure.stage = .muxerNegotiation ∨ c.secure.stage = .ready)

theorem Early.framed {role : Bool} {u : Upgrade} {channel : SecureChannelState} {c : Core}
    (h : Early role u channel c) : c.secure.framed = [] ∧ c.secure.taken = [] := by
  rw [h.secure, SecureChannelState.framed, SecureChannelState.taken, h.sealed, h.opened]
  exact ⟨rfl, rfl⟩

/-- Past the handshake a session at rest waits for data. -/
theorem Settled.waits {role : Bool} {u : Upgrade} {noise : NoiseSession} {c : Core}
    (h : Settled S role u noise c) (hrest : AtRest c)
    (hspan : MultistreamSelect.exchangeSpan u.heard = .ok u.heard.length)
    (hsaid : u.said.length = if role then 2 else 1) (htold : u.told.length = if role then 1 else 2) :
    Waits role u c := by
  rcases h.established.keyed.stage with ⟨hstage, -⟩ | ⟨hstage, -⟩
  · exact .data (hrest.exchange hstage).1 hspan hsaid htold (.inl hstage)
  · exact .data (hrest.data hstage) hspan hsaid htold (.inr hstage)

theorem initiator_waits {r : Entropy} {n : NoiseSession} {c : Core}
    (h : Onward S true (Dialing S r n) c) (hactive : c.Active) (hrest : AtRest c) :
    ∃ u, WireLog u c ∧ u.greeting = noiseGreeting ∧ Waits true u c := by
  rcases h with hover | ⟨u, channel, hphase, hearly, -⟩ | ⟨u, channel, hphase, hcomplete, hsettled⟩
  · exact absurd hactive hover.1
  · obtain ⟨hframed, htaken⟩ := hearly.framed
    refine ⟨u, hearly.log, ?_⟩
    have hsecure := hearly.secure
    cases hphase with
    | proposing _ hstage =>
      rw [← hsecure] at hstage
      exact ⟨rfl, .greeting (hrest.greeting hstage) rfl htaken⟩
    | waiting _ heard hspan hstage =>
      rw [← hsecure] at hstage
      exact ⟨rfl, .message (hrest.handshake hstage).1 hspan hframed htaken rfl le_rfl⟩
    | done _ heard msg2 msg3 hspan hstage hcomplete =>
      rw [← hsecure] at hstage hcomplete
      exact absurd hcomplete (hrest.handshake hstage).2
  · refine ⟨u, hsettled.established.log, ?_⟩
    cases hphase with
    | proposing _ _ hstate => rw [hcomplete] at hstate; cases hstate
    | waiting _ _ _ _ hwait => rw [hcomplete] at hwait; cases hwait
    | done _ heard msg2 msg3 hspan => exact ⟨rfl, hsettled.waits hrest hspan rfl rfl⟩

theorem responder_waits {r : Entropy} {n : NoiseSession} {c : Core}
    (h : Onward S false (Answering S r n) c) (hactive : c.Active) (hrest : AtRest c) :
    ∃ u, WireLog u c ∧ (u.heard = noiseGreeting → u.greeting = noiseGreeting) ∧ Waits false u c := by
  have hanswer : ∀ {heard negotiated},
      MultistreamSelect.negotiateInbound heard [noiseProtocol] = .ok negotiated →
      heard = noiseGreeting → negotiated.outbound = noiseGreeting := by
    rintro _ negotiated hnegotiate rfl
    rw [noiseGreeting_answer, Except.ok.injEq] at hnegotiate
    rw [← hnegotiate]
  rcases h with hover | ⟨u, channel, hphase, hearly, -⟩ | ⟨u, channel, hphase, hcomplete, hsettled⟩
  · exact absurd hactive hover.1
  · obtain ⟨hframed, htaken⟩ := hearly.framed
    refine ⟨u, hearly.log, ?_⟩
    have hsecure := hearly.secure
    cases hphase with
    | listening _ hstage =>
      rw [← hsecure] at hstage
      refine ⟨fun hheard => ?_, .greeting (hrest.greeting hstage) rfl htaken⟩
      have hspan := noiseGreeting_span
      rw [← hheard] at hspan
      cases hspan
    | accepted _ heard negotiated hspan hnegotiate _ hstage =>
      rw [← hsecure] at hstage
      exact ⟨hanswer hnegotiate,
        .message (hrest.handshake hstage).1 hspan hframed htaken rfl (Nat.zero_le 1)⟩
    | waiting _ heard msg1 msg2 negotiated hspan hnegotiate _ hstage =>
      rw [← hsecure] at hstage
      exact ⟨hanswer hnegotiate, .message (hrest.handshake hstage).1 hspan hframed htaken rfl le_rfl⟩
    | done _ heard msg1 msg2 msg3 noise negotiated _ _ _ hstage hcomplete =>
      rw [← hsecure] at hstage hcomplete
      exact absurd hcomplete (hrest.handshake hstage).2
  · refine ⟨u, hsettled.established.log, ?_⟩
    cases hphase with
    | listening _ _ hstate => rw [hcomplete] at hstate; cases hstate
    | accepted _ _ _ _ _ _ _ hwait => rw [hcomplete] at hwait; cases hwait
    | waiting _ _ _ _ _ _ _ _ _ hwait => rw [hcomplete] at hwait; cases hwait
    | done _ heard msg1 msg2 msg3 noise negotiated hspan hnegotiate =>
      exact ⟨hanswer hnegotiate, hsettled.waits hrest hspan rfl rfl⟩

/-- The handshake is over on both sides. -/
theorem handshake_over {u v : Upgrade} {a b : Core} (hforth : Arrived a b) (hback : Arrived b a)
    (hloga : WireLog u a) (hlogb : WireLog v b) (hopena : a.io.socketOpen = true)
    (hopenb : b.io.socketOpen = true) (hu : u.greeting = noiseGreeting)
    (hv : v.heard = noiseGreeting → v.greeting = noiseGreeting) (ha : Waits true u a)
    (hb : Waits false v b) :
    (a.secure.stage = .muxerNegotiation ∨ a.secure.stage = .ready) ∧
      (b.secure.stage = .muxerNegotiation ∨ b.secure.stage = .ready) ∧
      b.secure.taken.length = a.secure.framed.length ∧
      a.secure.taken.length = b.secure.framed.length := by
  have hheard : popWire b.io.wireRx = none →
      MultistreamSelect.exchangeSpan v.heard = .ok v.heard.length →
      v.greeting = noiseGreeting ∧
        v.told.length + b.secure.taken.length = u.said.length + a.secure.framed.length := by
    intro hpop hspan
    obtain ⟨hheard, htaken⟩ := hforth.taken hloga hlogb hopenb hpop hspan hu
    have hlength := congrArg List.length htaken
    rw [List.length_append, List.length_append] at hlength
    exact ⟨hv hheard, hlength⟩
  have htold : popWire a.io.wireRx = none →
      MultistreamSelect.exchangeSpan u.heard = .ok u.heard.length → v.greeting = noiseGreeting →
      u.told.length + a.secure.taken.length = v.said.length + b.secure.framed.length := by
    intro hpop hspan hgreeting
    have hlength := congrArg List.length (hback.taken hlogb hloga hopena hpop hspan hgreeting).2
    rwa [List.length_append, List.length_append] at hlength
  -- the greeting of the initiator is in the bytes, and with it that of the responder
  cases hb with
  | greeting hwait hnone hempty => exact (hforth.greeted hloga hlogb hopenb hu hnone hempty hwait).elim
  | message hpop hspan hframed htaken hsaid hfew =>
    obtain ⟨hgreeting, hlength⟩ := hheard hpop hspan
    simp only [Bool.false_eq_true, if_false] at hsaid hfew
    rw [htaken, List.length_nil] at hlength
    cases ha with
    | greeting hwait hnone hempty =>
      exact (hback.greeted hlogb hloga hopena hgreeting hnone hempty hwait).elim
    | message hpopA hspanA hframedA htakenA hsaidA hfewA =>
      have hlengthA := htold hpopA hspanA hgreeting
      simp only [if_true] at hsaidA hfewA
      rw [hframedA, List.length_nil] at hlength
      rw [htakenA, hframed, List.length_nil] at hlengthA
      omega
    | data hpopA hspanA hsaidA =>
      simp only [if_true] at hsaidA
      omega
  | data hpop hspan hsaid hmany hstage =>
    obtain ⟨hgreeting, hlength⟩ := hheard hpop hspan
    simp only [Bool.false_eq_true, if_false] at hsaid hmany
    cases ha with
    | greeting hwait hnone hempty =>
      exact (hback.greeted hlogb hloga hopena hgreeting hnone hempty hwait).elim
    | message _ _ hframedA _ hsaidA hfewA =>
      simp only [if_true] at hsaidA hfewA
      rw [hframedA, List.length_nil] at hlength
      omega
    | data hpopA hspanA hsaidA htoldA hstageA =>
      have hlengthA := htold hpopA hspanA hgreeting
      simp only [if_true] at hsaidA htoldA
      exact ⟨hstageA, hstage, by omega, by omega⟩

/-! ## The muxer exchange -/

section Heard

variable {u v : Upgrade} {noiseA noiseB noiseI noiseR : NoiseSession} {a b : Core}

/-- A receiver that has taken all frames has read what was said first. -/
theorem Heard.reads_first (hS : S.Correct) (h : Heard S u v noiseA noiseB a b)
    (hdone : Decrypted S b) {data : Bytes} (hbegins : a.secure.Begins data)
    (hlength : b.secure.taken.length = a.secure.framed.length) : data <+: b.secure.plain := by
  obtain ⟨sent, rest, hsealed, hdata, hlen⟩ := hbegins
  have hframed : a.secure.framed ≠ [] := by
    rw [SecureChannelState.framed, hsealed, List.map_cons,
      List.filter_cons_of_pos (by simpa using hlen)]
    exact List.cons_ne_nil _ _
  rw [SecureChannelState.taken, List.length_map] at hlength
  unfold SecureChannelState.plain
  cases hopened : b.secure.opened with
  | nil =>
    rw [hopened] at hlength
    exact absurd (List.length_eq_zero_iff.mp hlength.symm) hframed
  | cons r others =>
    have hfits : ∀ r ∈ a.secure.sealed.take (0 + 1), r.ciphertext.length ≤ 65535 := by
      rw [hsealed]
      intro r hr
      rw [List.mem_singleton.mp hr]
      exact hlen
    obtain ⟨sent', hsent', hplain⟩ := h.opens hS hdone hfits (r := r) (by rw [hopened]; rfl)
    rw [hsealed, List.getElem?_cons_zero, Option.some.injEq] at hsent'
    rw [← hsent', hdata] at hplain
    rw [List.filterMap_cons_some hplain, List.flatten_cons]
    exact List.prefix_append _ _

/-- A session at rest in the exchange has not read a whole one. -/
theorem AtRest.reads {noise : NoiseSession} {c : Core} (hrest : AtRest c)
    (h : Settling noise c) (hexchange : c.Exchanging) {data : Bytes}
    (hspan : MultistreamSelect.exchangeSpan data = .ok data.length)
    (hdata : data <+: c.secure.plain) : False := by
  obtain ⟨-, hwait⟩ := hrest.exchange hexchange.stage
  obtain ⟨-, -, -, hbuffer, -⟩ := h.of_active hexchange
  obtain ⟨more, hmore⟩ := hdata
  rw [hbuffer, ← hmore] at hwait
  exact hwait.not_span hspan

/-- The answer of a responder that read the proposal is a whole exchange. -/
theorem answer_span {proposal : ProtocolId} (hfits : MultistreamSelect.Fits proposal)
    {supported : List ProtocolId} {negotiated : MultistreamSelect.InboundNegotiation}
    (h : MultistreamSelect.negotiateInbound (encodeMessage header ++ encodeMessage proposal)
      supported = .ok negotiated) :
    MultistreamSelect.exchangeSpan negotiated.outbound = .ok negotiated.outbound.length := by
  rw [MultistreamSelect.negotiateInbound_proposal hfits] at h
  split_ifs at h <;> cases h
  · exact exchange_span (MultistreamSelect.wireToken_fits hfits)
  · exact exchange_span MultistreamSelect.na_fits

/-- Both sides are past the exchange, when both or neither make it. -/
theorem exchange_over (hS : S.Correct) (hforth : Heard S u v noiseI noiseR a b)
    (hback : Heard S v u noiseR noiseI b a) (hdoneA : Decrypted S a) (hdoneB : Decrypted S b)
    (hI : Settled S true u noiseI a) (hR : Settled S false v noiseR b)
    (ha : a.Active) (hb : b.Active) (hrestA : AtRest a) (hrestB : AtRest b)
    (hlengthB : b.secure.taken.length = a.secure.framed.length)
    (hlengthA : a.secure.taken.length = b.secure.framed.length)
    (hsame : branchOf noiseI = .exchange ↔ branchOf noiseR = .exchange) :
    a.secure.stage = .ready ∧ b.secure.stage = .ready := by
  rcases hI.established.keyed.stage with ⟨hstageA, hkeysA⟩ | ⟨hreadyA, -⟩
  · exfalso
    have hexchangeA : a.Exchanging := ⟨ha, hstageA, hkeysA⟩
    obtain ⟨hbranchA, -, -, -, hproposed⟩ := hI.settling.of_active hexchangeA
    rw [hI.role] at hproposed
    obtain ⟨said, hprepare, hsaid⟩ := hproposed
    obtain ⟨rfl, hfits⟩ := hforth.proposal hS hprepare hsaid
    have hread := hforth.reads_first hS hdoneB hsaid hlengthB
    rcases hR.established.keyed.stage with ⟨hstageB, hkeysB⟩ | ⟨hreadyB, -⟩
    -- the responder has the proposal, and the initiator the answer
    · exact hrestB.reads hR.settling ⟨hb, hstageB, hkeysB⟩ (exchange_span hfits) hread
    · rcases hR.settling.recorded hreadyB with ⟨hne, -⟩ |
        ⟨exchange, result, -, hspan, hheard, hdecided, -⟩
      · exact hne (hsame.mp hbranchA)
      · rw [hR.role] at hdecided
        cases hdecided with
        | responder negotiated hnegotiate hreplied =>
          rw [hforth.exchange hS hdoneB hsaid (exchange_span hfits) hspan hheard] at hnegotiate
          exact hrestA.reads hI.settling hexchangeA (answer_span hfits hnegotiate)
            (hback.reads_first hS hdoneA hreplied hlengthA)
  · refine ⟨hreadyA, ?_⟩
    rcases hR.established.keyed.stage with ⟨hstageB, hkeysB⟩ | ⟨hreadyB, -⟩
    · exfalso
      obtain ⟨hbranchB, -, -, -, hproposed⟩ := hR.settling.of_active ⟨hb, hstageB, hkeysB⟩
      rw [hR.role] at hproposed
      have hnone : b.secure.sealed = [] := by
        cases hproposed with
        | responder hnone => exact hnone
      -- the responder has said nothing, so the initiator has not heard an answer
      rw [SecureChannelState.framed, hnone, SecureChannelState.taken, List.length_map] at hlengthA
      have hopened : a.secure.opened = [] := List.length_eq_zero_iff.mp hlengthA
      rcases hI.settling.recorded hreadyA with ⟨hne, -⟩ | ⟨exchange, result, -, hspan, hheard, -⟩
      · exact hne (hsame.mpr hbranchB)
      · rw [SecureChannelState.plain, hopened] at hheard
        rw [List.prefix_nil.mp hheard] at hspan
        cases hspan
    · exact hreadyB

end Heard

/-! ## Runs -/

section Runs

variable {idI idR : ConnectionId} {fdI fdR : ℤ} {addrI addrR : Multiaddr}
  {identityI identityR : Option Identity} {streamMuxersI streamMuxersR : List ProtocolId}
  {randomI randomR : ℕ → Entropy} {a b : BasicConnectionSession}

/-- Nothing is under way from `a` to `b`: the send buffer of `a` is empty, and all it sent
    has been received. -/
def Delivered (a b : BasicConnectionSession) : Prop :=
  b.io.socket.received = a.io.socket.sent ∧ a.io.wireTx = []

theorem Delivered.arrived (h : Delivered a b) (hflows : Flows a.io)
    (hopen : a.io.socketOpen = true) : Arrived a.core b.core := by
  obtain ⟨hreceived, hempty⟩ := h
  have hpending := hflows.pending hopen
  rw [hempty, List.append_nil] at hpending
  exact hreceived.trans hpending.symm

/-- An honest initiator and responder that are connected to each other, after any runs of
    both in which no upgrade call is repeated. If both are active and nothing is under way
    between them, neither is stuck: both have completed the handshake, and both are past the
    muxer exchange if both or neither of them have to make it. -/
theorem no_deadlock (hS : S.Correct) (hI : Honest S (configuration identityI streamMuxersI))
    (hR : Honest S (configuration identityR streamMuxersR))
    (hrunI : Runs S NoRestart
      (step S (make idI fdI addrI true identityI streamMuxersI randomI) .beginOutbound) a)
    (hrunR : Runs S NoRestart
      (step S (make idR fdR addrR false identityR streamMuxersR randomR) .beginInbound) b)
    (ha : a.isActive = true) (hb : b.isActive = true)
    (hab : Delivered a b) (hba : Delivered b a) :
    a.Upgraded ∧ b.Upgraded ∧
      ((branch streamMuxersI (told identityR streamMuxersR) = .exchange ↔
          branch streamMuxersR (told identityI streamMuxersI) = .exchange) →
        a.secure.stage = .ready ∧ b.secure.stage = .ready) := by
  have hrestA := initiator_rests hrunI ha
  have hrestB := responder_rests hrunR hb
  rw [isActive_iff] at ha hb
  have hforth := hab.arrived (flows_of_run hrunI) ha.1
  have hback := hba.arrived (flows_of_run hrunR) hb.1
  obtain ⟨u, hlogA, hu, hwaitsA⟩ := initiator_waits (initiator_onward hrunI) ha hrestA
  obtain ⟨v, hlogB, hv, hwaitsB⟩ := responder_waits (responder_onward hrunR) hb hrestB
  obtain ⟨hstageA, hstageB, hlengthB, hlengthA⟩ :=
    handshake_over hforth hback hlogA hlogB ha.1 hb.1 hu hv hwaitsA hwaitsB
  refine ⟨hstageA, hstageB, fun hsame => ?_⟩
  obtain ⟨u', noiseI, hdialed, hsettledI⟩ := initiator_settled hrunI hstageA
  obtain ⟨v', noiseR, hanswered, hsettledR⟩ := responder_settled hrunR hstageB
  obtain ⟨hnoiseI, hnoiseR, hheardB, hheardA⟩ := upgrades_agree hS hI hR hdialed hanswered
    hsettledI.established hsettledR.established (by rw [hforth]) (by rw [hback])
  obtain ⟨hbranchI, hbranchR⟩ := branches_told hnoiseI hnoiseR
  rw [← hbranchI, ← hbranchR] at hsame
  exact exchange_over hS hheardB hheardA (decrypted_of_run hrunI) (decrypted_of_run hrunR) hsettledI
    hsettledR ha hb hrestA hrestB hlengthB hlengthA hsame

end Runs

/-- Two toy sessions that have read everything. -/
theorem no_deadlock_toy :
    let pair := toyRounds [ascii "/x"] [ascii "/y", ascii "/x"] 3
    pair.1.Upgraded ∧ pair.2.Upgraded ∧
      pair.1.secure.stage = .ready ∧ pair.2.secure.stage = .ready := by
  dsimp only
  obtain ⟨hrunI, hrunR⟩ := toyRounds_runs [ascii "/x"] [ascii "/y", ascii "/x"] 3
  obtain ⟨hupgradedI, hupgradedR, hready⟩ := no_deadlock Noise.toy_correct
    (toyConfiguration_honest (by decide)) (toyConfiguration_honest (by decide)) hrunI hrunR
    (by decide +kernel) (by decide +kernel) (by unfold Delivered; decide +kernel)
    (by unfold Delivered; decide +kernel)
  exact ⟨hupgradedI, hupgradedR, hready (by decide)⟩

end PeerCore.Connection
