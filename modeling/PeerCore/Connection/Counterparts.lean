import PeerCore.Connection.Progress

/-!
# Two sessions at any point of their upgrades

What one of two honest sessions has decrypted is the beginning of what the other one
encrypted, wherever each of them is: one may have finished the handshake while the other
still waits for its last message.

* `RolePhase`: the phases of either role.
* `ToMuxed`: sessions whose moves lead to a ready Yamux connection, and what is known of
  them on the way (`ToMuxed.early_or_serving`).
* `heard_prefix`: what is heard was said.
-/

namespace PeerCore.Connection

open BasicConnectionSession
open Noise (Entropy NoiseSession Honest)

variable {S : Noise.Sodium}

/-! ## Moves of a session that is not active -/

/-- A session that is not active stays where it is. -/
theorem Move.inactive {c c' : Core} (hmove : Move S c c') (hover : ¬ c.Active) :
    ¬ c'.Active ∧ c'.secure.stage = c.secure.stage := by
  cases hmove with
  | out hout => exact ⟨fun ha => hover (hout.frame.active_iff.mp ha), hout.frame.stage⟩
  | socket => exact ⟨hover, rfl⟩
  | close => exact ⟨not_active_shut c, rfl⟩
  | closeSocket => exact ⟨not_active_closeSocket hover, rfl⟩
  | recv _ hactive => exact absurd hactive hover
  | startNoise _ _ _ hactive => exact absurd hactive hover
  | acceptNoise _ _ _ hactive => exact absurd hactive hover
  | acceptNoiseFail _ _ hactive => exact absurd hactive hover
  | msg1 _ _ _ _ _ hwait => exact absurd hwait.active hover
  | msg2 _ _ _ _ _ hwait => exact absurd hwait.active hover
  | msg3 _ _ _ hwait => exact absurd hwait.active hover
  | fail _ _ hactive => exact absurd hactive hover
  | finishYamux hfinish => exact absurd hfinish.active hover
  | finishDirect hfinish => exact absurd hfinish.active hover
  | finishInbound hfinish => exact absurd hfinish.active hover
  | finishOutbound _ _ _ _ hfinish => exact absurd hfinish.active hover
  | finishFail _ _ hfinish => exact absurd hfinish.active hover
  | openMuxer _ _ _ _ hexchange => exact absurd hexchange.active hover
  | openData _ _ _ _ hactive => exact absurd hactive hover
  | openFail _ _ _ _ hactive => exact absurd hactive hover
  | muxerOutbound _ _ hexchange => exact absurd hexchange.active hover
  | muxerInbound _ _ _ _ _ _ hexchange => exact absurd hexchange.active hover
  | muxerInboundFail _ _ _ _ _ hexchange => exact absurd hexchange.active hover
  | muxerInboundLost _ _ _ hexchange => exact absurd hexchange.active hover

theorem Moves.inactive {c c' : Core} (hmoves : Moves S c c') (hover : ¬ c.Active) :
    ¬ c'.Active ∧ c'.secure.stage = c.secure.stage := by
  induction hmoves with
  | refl => exact ⟨hover, rfl⟩
  | tail _ hmove ih =>
    obtain ⟨hinactive, hstage⟩ := hmove.inactive ih.1
    exact ⟨hinactive, hstage.trans ih.2⟩

/-- A ready session stays ready. -/
theorem Moves.later {c c' : Core} (hmoves : Moves S c c') (hready : c.secure.stage = .ready) :
    Later c c' := by
  induction hmoves with
  | refl => exact .of_same rfl rfl rfl
  | tail _ hmove ih => exact ih.trans (hmove.later (ih.stage.trans hready))

/-! ## The phases of both roles -/

variable (S) in
/-- The phases of a session with the configuration `n` that draws `r`. -/
def RolePhase (role : Bool) (r : Entropy) (n : NoiseSession) : Upgrade → SecureChannelState → Prop :=
  if role then Dialing S r n else Answering S r n

theorem phase_followed (role : Bool) (r : Entropy) (n : NoiseSession) :
    Followed S role (RolePhase S role r n) := by
  cases role with
  | true => exact dialing_followed r n
  | false => exact answering_followed r n

theorem RolePhase.dialed {r : Entropy} {n : NoiseSession} {u : Upgrade} {channel : SecureChannelState}
    (h : RolePhase S true r n u channel) (hcomplete : channel.handshakeState = .complete) :
    Dialed S r n u channel.noise := by
  have hphase : Dialing S r n u channel := h
  cases hphase with
  | proposing _ _ hstate => rw [hcomplete] at hstate; cases hstate
  | waiting _ _ _ _ hwait => rw [hcomplete] at hwait; cases hwait
  | done _ heard msg2 msg3 hspan _ _ hprocess => exact ⟨heard, msg2, msg3, hspan, rfl, hprocess⟩

theorem RolePhase.answered {r : Entropy} {n : NoiseSession} {u : Upgrade}
    {channel : SecureChannelState} (h : RolePhase S false r n u channel)
    (hcomplete : channel.handshakeState = .complete) : Answered S r n u channel.noise := by
  have hphase : Answering S r n u channel := h
  cases hphase with
  | listening _ _ hstate => rw [hcomplete] at hstate; cases hstate
  | accepted _ _ _ _ _ _ _ hwait => rw [hcomplete] at hwait; cases hwait
  | waiting _ _ _ _ _ _ _ _ _ hwait => rw [hcomplete] at hwait; cases hwait
  | done _ heard msg1 msg2 msg3 before negotiated hspan hnegotiate hprotocol _ _ hprocess hfinish =>
    exact ⟨heard, msg1, msg2, msg3, before, negotiated, hspan, hnegotiate, hprotocol, rfl, hprocess,
      hfinish⟩

/-! ## On the way to Yamux -/

/-- A ready session with Yamux from the handshake: all its messages fit frames, and it has
    not run out of nonces. -/
structure Muxed (c : Core) : Prop where
  stage : c.secure.stage = .ready
  branch : branchOf c.secure.noise = .yamux
  fits : FitsFrames c.secure
  few : c.secure.sealed.length < 2 ^ 64 - 1

variable (S) in
/-- A session whose moves lead there. -/
def ToMuxed (c : Core) : Prop := ∃ c', Moves S c c' ∧ Muxed c'

theorem ToMuxed.of_moves {c c' : Core} (h : ToMuxed S c') (hmoves : Moves S c c') : ToMuxed S c := by
  obtain ⟨last, hlast, hmuxed⟩ := h
  exact ⟨last, hmoves.trans hlast, hmuxed⟩

theorem branchOf_congr {noise noise' : NoiseSession}
    (h : noise' = { noise with csSend := noise'.csSend, csRecv := noise'.csRecv }) :
    branchOf noise' = branchOf noise := by
  rw [h]
  rfl

section Onward

variable {role : Bool} {P : Upgrade → SecureChannelState → Prop} {c : Core}

/-- Such a session has not finished its handshake, or it is ready for Yamux. -/
theorem ToMuxed.early_or_serving (h : ToMuxed S c) (honward : Onward S role P c) :
    (∃ u channel, P u channel ∧ Early role u channel c) ∨
      ∃ u channel, P u channel ∧ channel.handshakeState = .complete ∧
        Settled S role u channel.noise c ∧ c.secure.stage = .ready ∧ c.hasYamux = true ∧
        branchOf c.secure.noise = .yamux := by
  obtain ⟨last, hlast, hmuxed⟩ := h
  rcases honward with hover | ⟨u, channel, hu, hearly, -⟩ | ⟨u, channel, hu, hcomplete, hsettled⟩
  · have hstage := hover.2
    rw [← (hlast.inactive hover.1).2, hmuxed.stage] at hstage
    simp at hstage
  · exact .inl ⟨u, channel, hu, hearly⟩
  · refine .inr ⟨u, channel, hu, hcomplete, hsettled, ?_⟩
    have hsettled' : Settled S role u channel.noise last :=
      hlast.invariant (P := Settled S role u channel.noise) (fun _ _ h hmove => h.move hmove) hsettled
    have hbranch : branchOf channel.noise = .yamux := by
      rw [← branchOf_congr hsettled'.established.noise]
      exact hmuxed.branch
    have hnoise := (branchOf_congr hsettled.established.noise).trans hbranch
    cases hsettled.settling with
    | stopped hover hstage =>
      rw [← (hlast.inactive hover).2, hmuxed.stage] at hstage
      cases hstage
    | yamux _ hstage hyamux => exact ⟨hstage, hyamux, hnoise⟩
    | single hne => rw [hbranch] at hne; cases hne
    | exchanging hne => rw [hbranch] at hne; cases hne
    | agreed _ _ hne => rw [hbranch] at hne; cases hne

/-- What it has encrypted so far fits frames, and there are nonces left. -/
theorem ToMuxed.fits (h : ToMuxed S c) (honward : Onward S role P c) :
    FitsFrames c.secure ∧ c.secure.sealed.length < 2 ^ 64 - 1 := by
  rcases h.early_or_serving honward with ⟨u, channel, -, hearly⟩ | ⟨-, -, -, -, -, hready, -⟩
  · have hnone : c.secure.sealed = [] := by rw [hearly.secure, hearly.sealed]
    refine ⟨fun r hr => ?_, by rw [hnone]; decide⟩
    rw [hnone] at hr
    cases hr
  · obtain ⟨last, hlast, hmuxed⟩ := h
    have hsealed := (hlast.later hready).sealed
    exact ⟨fun r hr => hmuxed.fits r (hsealed.mem hr), hsealed.length_le.trans_lt hmuxed.few⟩

end Onward

/-! ## What is heard was said -/

section Both

variable {rA rB : Entropy} {nA nB : NoiseSession} {a b : Core}

theorem Early.heard {role : Bool} {u : Upgrade} {channel : SecureChannelState} {c : Core}
    (h : Early role u channel c) : c.secure.heard = [] := by
  rw [SecureChannelState.heard, h.secure, h.opened]
  rfl

/-- A session that took no frame has heard nothing. -/
theorem heard_of_taken {c : Core} (h : c.secure.taken = []) : c.secure.heard = [] := by
  rw [SecureChannelState.heard, List.map_eq_nil_iff.mp h]
  rfl

/-- A responder has heard nothing from an initiator that has not finished its handshake. -/
theorem responder_hears_nothing {u v : Upgrade} {channel : SecureChannelState}
    {noise : NoiseSession} (hphase : Dialing S rA nA u channel) (ha : Early true u channel a)
    (hanswered : Answered S rB nB v noise) (hb : Established S v noise b)
    (hab : b.io.socket.received <+: a.io.socket.queued) : b.secure.heard = [] := by
  obtain ⟨heard, msg1, msg2, msg3, -, negotiated, hspan, -, -, rfl, -⟩ := hanswered
  obtain ⟨hgreeting, hsaid⟩ : u.greeting = noiseGreeting ∧ u.said.length ≤ 2 := by
    cases hphase with
    | proposing => exact ⟨rfl, by decide⟩
    | waiting => exact ⟨rfl, by simp⟩
    | done => exact ⟨rfl, by simp⟩
  obtain ⟨-, hframes⟩ := heard_of_queued ha.log hb.log hspan hgreeting hab
  have hlen := hframes.length_le
  rw [List.length_append, List.length_append, ha.framed.1] at hlen
  refine heard_of_taken (List.eq_nil_of_length_eq_zero ?_)
  simp only [List.length_cons, List.length_nil] at hlen
  omega

/-- Nor has an initiator from such a responder. -/
theorem initiator_hears_nothing {u v : Upgrade} {channel : SecureChannelState}
    {noise : NoiseSession} (hphase : Answering S rA nA u channel) (ha : Early false u channel a)
    (hdialed : Dialed S rB nB v noise) (hb : Established S v noise b)
    (hab : b.io.socket.received <+: a.io.socket.queued)
    (hba : a.io.socket.received <+: b.io.socket.queued) : b.secure.heard = [] := by
  obtain ⟨heard, msg2, msg3, hspan, rfl, -⟩ := hdialed
  have hsame : ∀ {heardA : Bytes} {negotiated : MultistreamSelect.InboundNegotiation},
      MultistreamSelect.exchangeSpan u.heard = .ok u.heard.length → u.heard = heardA →
      MultistreamSelect.negotiateInbound heardA [noiseProtocol] = .ok negotiated →
      u.greeting = negotiated.outbound → u.greeting = noiseGreeting := by
    rintro _ negotiated hspanA rfl hnegotiate hgreeting
    rw [(heard_of_queued hb.log ha.log hspanA rfl hba).1, noiseGreeting_answer, Except.ok.injEq]
      at hnegotiate
    rw [hgreeting, ← hnegotiate]
  have hnothing : u.greeting = noiseGreeting → u.said.length ≤ 1 → b.secure.heard = [] := by
    intro hgreeting hsaid
    obtain ⟨-, hframes⟩ := heard_of_queued ha.log hb.log hspan hgreeting hab
    have hlen := hframes.length_le
    rw [List.length_append, List.length_append, ha.framed.1] at hlen
    refine heard_of_taken (List.eq_nil_of_length_eq_zero ?_)
    simp only [List.length_cons, List.length_nil] at hlen
    omega
  cases hphase with
  | listening =>
    -- a responder that has not read the greeting has queued nothing
    exfalso
    have hqueued := ha.log.queued
    rw [ha.framed.1] at hqueued
    obtain ⟨more, hmore⟩ := (hb.log.taken.trans hab)
    rw [hqueued] at hmore
    have hheard : heard = [] :=
      (List.append_eq_nil_iff.mp (List.append_eq_nil_iff.mp hmore).1).1
    change MultistreamSelect.exchangeSpan heard = _ at hspan
    rw [hheard] at hspan
    cases hspan
  | accepted _ heardA negotiated hspanA hnegotiate =>
    exact hnothing (hsame hspanA rfl hnegotiate rfl) (by simp)
  | waiting _ heardA msg1 msg2 negotiated hspanA hnegotiate =>
    exact hnothing (hsame hspanA rfl hnegotiate rfl) (by simp)
  | done _ heardA msg1 msg2 msg3 before negotiated hspanA hnegotiate =>
    exact hnothing (hsame hspanA rfl hnegotiate rfl) (by simp)

/-- What one of two honest sessions on their way to Yamux has decrypted is the beginning of
    what the other one encrypted. -/
theorem heard_prefix (hS : S.Correct) {role : Bool} (hA : Honest S nA) (hB : Honest S nB)
    (ha : Onward S role (RolePhase S role rA nA) a)
    (hb : Onward S (!role) (RolePhase S (!role) rB nB) b)
    (htoA : ToMuxed S a) (htoB : ToMuxed S b) (hdone : Decrypted S b)
    (hab : b.io.socket.received <+: a.io.socket.queued)
    (hba : a.io.socket.received <+: b.io.socket.queued) : b.secure.heard <+: a.secure.said := by
  have hfits := (htoA.fits ha).1
  have hnothing : b.secure.heard = [] → b.secure.heard <+: a.secure.said := fun hnil => by
    rw [hnil]
    exact List.nil_prefix
  have hall : ∀ {u v noiseA noiseB}, Heard S u v noiseA noiseB a b →
      b.secure.heard <+: a.secure.said :=
    fun h => by
      rw [(h.in_order hS hdone hfits).1]
      exact List.take_prefix _ _
  rcases htoB.early_or_serving hb with ⟨v, channelB, -, hearlyB⟩ |
    ⟨v, channelB, hv, hcompleteB, hsettledB, -⟩
  · exact hnothing hearlyB.heard
  · rcases htoA.early_or_serving ha with ⟨u, channelA, hu, hearlyA⟩ |
      ⟨u, channelA, hu, hcompleteA, hsettledA, -⟩
    · cases role with
      | true =>
        exact hnothing (responder_hears_nothing hu hearlyA (RolePhase.answered hv hcompleteB)
          hsettledB.established hab)
      | false =>
        exact hnothing (initiator_hears_nothing hu hearlyA (RolePhase.dialed hv hcompleteB)
          hsettledB.established hab hba)
    · cases role with
      | true =>
        obtain ⟨-, -, hforth, -⟩ := upgrades_agree hS hA hB (RolePhase.dialed hu hcompleteA)
          (RolePhase.answered hv hcompleteB) hsettledA.established hsettledB.established hab hba
        exact hall hforth
      | false =>
        obtain ⟨-, -, -, hback⟩ := upgrades_agree hS hB hA (RolePhase.dialed hv hcompleteB)
          (RolePhase.answered hu hcompleteA) hsettledB.established hsettledA.established hba hab
        exact hall hback

end Both

end PeerCore.Connection
