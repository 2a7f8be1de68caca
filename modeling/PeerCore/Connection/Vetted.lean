import PeerCore.Connection.Authentication
import PeerCore.Connection.Told

/-!
# The peer of a dialled session, from `MultiplexerReady` on

`ready_authenticated` is about sessions in state `Ready`. The event is taken later, when
the session may be closed: `told_authenticated` says that a session whose
`MultiplexerReady` event waits still has the peer that its address names.
-/

namespace PeerCore.Connection

open BasicConnectionSession

variable {S : Noise.Sodium} {expected : PeerId} {c c' : Core}

/-- The channel becomes ready together with the session. -/
theorem Move.opens (h : Move S c c') (hbefore : c.secure.secureReady = false)
    (hafter : c'.secure.secureReady = true) : c'.state = .ready := by
  have hnot : ∀ {p : Prop}, c'.secure.secureReady = false → p := fun hf => by
    rw [hafter] at hf
    cases hf
  cases h with
  | finishYamux | finishDirect | muxerOutbound | muxerInbound => rfl
  | out hout => exact hnot (hout.frame.secureReady.trans hbefore)
  | acceptNoise _ _ _ _ _ _ _ _ _ hout => exact hnot (hout.frame.secureReady.trans hbefore)
  | acceptNoiseFail _ _ _ _ _ hout => exact hnot (hout.frame.secureReady.trans hbefore)
  | fail _ _ _ _ _ _ hready => exact hnot (hready.trans hbefore)
  | finishOutbound _ _ _ _ _ _ _ _ _ hseal =>
    obtain ⟨-, -, -, rfl⟩ := sealMessage_ok hseal
    exact hnot hbefore
  | finishFail _ _ _ hsecure =>
    rcases hsecure with rfl | ⟨ciphertext, hseal⟩
    · exact hnot hbefore
    · obtain ⟨-, -, -, rfl⟩ := sealMessage_ok hseal
      exact hnot hbefore
  | openMuxer _ _ _ _ _ _ hopen =>
    obtain ⟨-, -, -, rfl⟩ := openMessage_ok hopen
    exact hnot hbefore
  | openData _ _ _ _ _ _ _ hopen =>
    obtain ⟨-, -, -, rfl⟩ := openMessage_ok hopen
    exact hnot hbefore
  | openFail _ _ _ _ _ _ _ hopen =>
    obtain rfl := openMessage_error hopen
    exact hnot hbefore
  | muxerInboundFail _ _ _ _ _ _ _ hseal hout =>
    obtain ⟨-, -, -, rfl⟩ := sealMessage_ok hseal
    exact hnot (hout.frame.secureReady.trans hbefore)
  | muxerInboundLost _ _ _ _ _ hseal =>
    obtain ⟨-, -, -, rfl⟩ := sealMessage_ok hseal
    exact hnot hbefore
  | socket | recv | close | closeSocket | startNoise | msg1 | msg2 | msg3 | finishInbound =>
    exact hnot hbefore

variable (S) in
/-- `Checked` until the session closes. The peer of a channel that was ready stays. -/
structure Vetted (expected : PeerId) (c : Core) : Prop where
  checked : c.state = .closed ∨ Checked S expected c
  settled : c.secure.secureReady = true → c.Settled (some expected)

theorem Checked.settled (h : Checked S expected c) (hready : c.secure.secureReady = true) :
    c.Settled (some expected) :=
  ⟨hready, h.secureReady hready, (h.authenticated (.inr (h.secureReady hready))).1⟩

theorem Vetted.move (h : Vetted S expected c) (hmove : Move S c c') : Vetted S expected c' := by
  have hchecked : c'.state = .closed ∨ Checked S expected c' :=
    h.checked.elim (fun hclosed => .inl (hmove.closed hclosed)) fun hc => hc.move hmove
  refine ⟨hchecked, fun hready => ?_⟩
  cases hbefore : c.secure.secureReady with
  | true => exact (h.settled hbefore).move hmove
  | false =>
    have hstate := hmove.opens hbefore hready
    have hopen : c'.state ≠ .closed := by rw [hstate]; nofun
    exact (hchecked.resolve_left hopen).settled hready

theorem Vetted.begin (h : Vetted S expected c) (hbegin : Begin c c') : Vetted S expected c' := by
  have hopen : c.state ≠ .closed := hbegin.guard.1.2.1
  have hchecked := (h.checked.resolve_left hopen).begin hbegin
  exact ⟨.inr hchecked, hchecked.settled⟩

/-- The event is queued when the channel becomes ready. -/
theorem told_ready {s t : BasicConnectionSession} (hrun : Runs S (fun _ _ => True) s t)
    (hs : s.eventQueue = []) (htold : .multiplexerReady ∈ t.voice.events) :
    t.secure.secureReady = true := by
  refine hrun.invariant
    (P := fun s => .multiplexerReady ∈ s.voice.events → s.secure.secureReady = true) ?_ ?_ htold
  · intro hmem
    unfold BasicConnectionSession.voice at hmem
    rw [hs] at hmem
    cases hmem
  · intro s a ih _ hmem
    by_cases ha : a = .nextEvent
    · subst ha
      have hsame : (step S s .nextEvent).secure = s.secure :=
        congrArg Core.secure (nextEvent_core s)
      rw [hsame]
      refine ih ?_
      obtain ⟨e, he, htype⟩ := List.mem_map.mp hmem
      refine List.mem_map.mpr ⟨e, ?_, htype⟩
      change e ∈ (nextEvent s).2.eventQueue at he
      unfold nextEvent at he
      cases hqueue : s.eventQueue with
      | nil =>
        rw [hqueue] at he
        exact hqueue ▸ he
      | cons first rest =>
        rw [hqueue] at he
        exact List.mem_cons_of_mem _ he
    · obtain ⟨queued, hevents, hsame, -⟩ := (step_grows (S := S) s ha).events
      by_cases hready : (step S s a).secure.secureReady = s.secure.secureReady
      · rw [hready]
        rw [hevents] at hmem
        exact ih ((List.mem_append.mp hmem).resolve_right (hsame hready).2)
      · cases hbefore : s.secure.secureReady with
        | true => exact (step_grows (S := S) s ha).ready hbefore
        | false =>
          rw [hbefore, Bool.not_eq_false] at hready
          exact hready

/-- In every run of an outbound session that dials `expected`: while its `MultiplexerReady`
    event waits, its remote peer is `expected`, whatever became of it since. -/
theorem told_authenticated {addr : Multiaddr} (hdials : Dials addr expected) (id : ConnectionId)
    (fd : ℤ) (identity : Option Identity) (streamMuxers : List ProtocolId)
    (random : ℕ → Noise.Entropy) {t : BasicConnectionSession}
    (hrun : Runs S (fun _ _ => True) (make id fd addr true identity streamMuxers random) t)
    (htold : .multiplexerReady ∈ t.voice.events) : t.remotePeer = some expected := by
  have hvetted : Vetted S expected t.core :=
    hrun.core_invariant (fun _ _ h hmove => h.move hmove) (fun _ _ h hbegin => h.begin hbegin)
      ⟨.inr (make_checked hdials id fd identity streamMuxers random), nofun⟩
  exact (hvetted.settled (told_ready hrun rfl htold)).remotePeer

end PeerCore.Connection
