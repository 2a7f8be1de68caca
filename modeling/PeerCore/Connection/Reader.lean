import PeerCore.Connection.AtRest
import PeerCore.Connection.MuxerChoice

/-!
# The reader of a session

`on_socket_readable` reads the bytes of the peer as they come in, a piece at a time, with
calls of the user in between. `readSession` reads all of them at once: the greeting, the
handshake, the frames, and the exchange in them. A session that is still active has made
of the bytes what `readSession` makes of them.

* `readSession`, `Reading`, `Reading.Describes`.
* `initiator_reads`, `responder_reads`: by the phases of the upgrade.
* `reads_bytes`: for runs.
-/

namespace PeerCore.Connection

open BasicConnectionSession
open Noise (Entropy NoiseSession)

variable {S : Noise.Sodium}

/-! ## Reading at once -/

/-- What a session has read. -/
structure Reading where
  stage : SecurityStage
  noise : NoiseSession
  rest : Bytes
  messages : List Bytes := []
  muxer : Option ProtocolId := none
  hasYamux : Bool := false

/-- What the exchange ends with, if it does not fail. -/
def exchangeResult (isInitiator : Bool) (muxers : List ProtocolId) (exchange : Bytes) :
    Option (Option ProtocolId) :=
  if isInitiator then
    match MultistreamSelect.readOutboundResponse exchange (muxers.headD []) with
    | .ok muxer => some (some muxer)
    | .error error => if error = "protocol not supported" then some none else none
  else
    match MultistreamSelect.negotiateInbound exchange muxers with
    | .ok negotiated => some negotiated.protocol
    | .error _ => none

variable (S) in
/-- Past the handshake. -/
def readData (isInitiator : Bool) (noise : NoiseSession) (frames : List Bytes) (rest : Bytes) :
    Option Reading :=
  match openAll S noise.csRecv frames with
  | (_, none) => none
  | (messages, some csRecv) =>
    let noise' := { noise with csRecv }
    match branchOf noise with
    | .yamux => some ⟨.ready, noise', rest, messages, some yamuxProtocol, true⟩
    | .single => some ⟨.ready, noise', rest, messages, none, false⟩
    | .exchange =>
      match MultistreamSelect.exchangeSpan messages.flatten with
      | .error error =>
        if MultistreamSelect.isIncompleteError error
          then some ⟨.muxerNegotiation, noise', rest, messages, selectStreamMuxer noise, false⟩
          else none
      | .ok span =>
        (exchangeResult isInitiator noise.localExtensions.streamMuxers
            (messages.flatten.take span)).map fun result =>
          ⟨.ready, noise', rest, messages, result.or (selectStreamMuxer noise),
            decide (result = some yamuxProtocol)⟩

variable (S) in
/-- Behind the greeting of a responder. -/
def readInitiator (random : Entropy) (configured : NoiseSession) (frames : List Bytes)
    (rest : Bytes) : Option Reading :=
  let noise := (Noise.writeMsg1 S random configured).2
  match frames with
  | [] => some { stage := .noiseHandshake, noise, rest }
  | msg2 :: frames =>
    match Noise.processMsg2 S msg2 noise with
    | (.ok _, noise) => readData S true noise frames rest
    | (.error _, _) => none

variable (S) in
/-- Behind the greeting of an initiator. -/
def readResponder (random : Entropy) (configured : NoiseSession) (frames : List Bytes)
    (rest : Bytes) : Option Reading :=
  match frames with
  | [] => some { stage := .noiseHandshake, noise := configured, rest }
  | msg1 :: frames =>
    match Noise.processMsg1 S random msg1 configured with
    | (.error _, _) => none
    | (.ok _, noise) =>
      match frames with
      | [] => some { stage := .noiseHandshake, noise, rest }
      | msg3 :: frames =>
        match Noise.processMsg3 S msg3 noise with
        | (.ok _, noise) => readData S false noise frames rest
        | (.error _, _) => none

/-- Whether the greeting of an initiator is answered with Noise. -/
def acceptsGreeting (greeting : Bytes) : Bool :=
  match MultistreamSelect.negotiateInbound greeting [noiseProtocol] with
  | .ok negotiated => negotiated.protocol = some noiseProtocol
  | .error _ => false

variable (S) in
/-- All bytes received. -/
def readSession (isInitiator : Bool) (random : Entropy) (configured : NoiseSession)
    (received : Bytes) : Option Reading :=
  match MultistreamSelect.exchangeSpan received with
  | .error error =>
    if MultistreamSelect.isIncompleteError error
      then some { stage := .negotiatingProtocol, noise := configured, rest := received }
      else none
  | .ok span =>
    let (frames, rest) := readAll popWire (received.drop span)
    if isInitiator then readInitiator S random configured frames rest
    else if acceptsGreeting (received.take span) then readResponder S random configured frames rest
    else none

/-- A session has read this; the counter of what it encrypted itself aside. -/
structure Reading.Describes (reading : Reading) (c : Core) : Prop where
  stage : c.secure.stage = reading.stage
  noise : c.secure.noise = { reading.noise with csSend := c.secure.noise.csSend }
  sendKey : c.secure.noise.csSend.key = reading.noise.csSend.key
  rest : c.io.wireRx = reading.rest
  messages : c.secure.heard = reading.messages
  hasYamux : c.hasYamux = reading.hasYamux
  muxer : c.secure.stage = .muxerNegotiation ∨ c.secure.stage = .ready →
    c.secure.negotiatedStreamMuxer = reading.muxer

/-! ## The bytes -/

theorem readAll_frames {messages : List Bytes} {rest : Bytes}
    (hlen : ∀ m ∈ messages, m.length ≤ 65535) (hnone : popWire rest = none) :
    readAll popWire (framesOf messages ++ rest) = (messages, rest) := by
  induction messages with
  | nil => exact readAll_of_none hnone
  | cons m messages ih =>
    have hpop := popWire_frameOf (hlen m List.mem_cons_self) (framesOf messages ++ rest)
    rw [framesOf, List.flatMap_cons, ← framesOf, List.append_assoc,
      popWire_incremental.readAll_of_some hpop, ih fun m' hm' => hlen m' (List.mem_cons_of_mem _ hm')]

/-- Behind the greeting, what was received is cut where the session cut it. -/
theorem WireLog.cut {u : Upgrade} {c : Core} (h : WireLog u c) (hopen : c.io.socketOpen = true)
    (hspan : MultistreamSelect.exchangeSpan u.heard = .ok u.heard.length)
    (hnone : popWire c.io.wireRx = none) :
    MultistreamSelect.exchangeSpan c.io.socket.received = .ok u.heard.length ∧
      c.io.socket.received.take u.heard.length = u.heard ∧
      readAll popWire (c.io.socket.received.drop u.heard.length) =
        (u.told ++ c.secure.taken, c.io.wireRx) := by
  rw [h.received_open hopen, List.append_assoc]
  exact ⟨MultistreamSelect.exchangeSpan_append hspan _, List.take_left, by
    rw [List.drop_left, readAll_frames h.takenShort hnone]⟩

theorem readSession_initiator {r : Entropy} {n : NoiseSession} {u : Upgrade} {c : Core}
    (h : WireLog u c) (hopen : c.io.socketOpen = true)
    (hspan : MultistreamSelect.exchangeSpan u.heard = .ok u.heard.length)
    (hnone : popWire c.io.wireRx = none) :
    readSession S true r n c.io.socket.received =
      readInitiator S r n (u.told ++ c.secure.taken) c.io.wireRx := by
  obtain ⟨hcut, -, hframes⟩ := h.cut hopen hspan hnone
  rw [readSession, hcut]
  dsimp only
  rw [hframes, if_pos rfl]

theorem readSession_responder {r : Entropy} {n : NoiseSession} {u : Upgrade} {c : Core}
    {negotiated : MultistreamSelect.InboundNegotiation}
    (h : WireLog u c) (hopen : c.io.socketOpen = true)
    (hspan : MultistreamSelect.exchangeSpan u.heard = .ok u.heard.length)
    (hnone : popWire c.io.wireRx = none)
    (hnegotiate : MultistreamSelect.negotiateInbound u.heard [noiseProtocol] = .ok negotiated)
    (hprotocol : negotiated.protocol = some noiseProtocol) :
    readSession S false r n c.io.socket.received =
      readResponder S r n (u.told ++ c.secure.taken) c.io.wireRx := by
  obtain ⟨hcut, hheard, hframes⟩ := h.cut hopen hspan hnone
  have haccepts : acceptsGreeting u.heard = true := by
    rw [acceptsGreeting, hnegotiate]
    exact decide_eq_true hprotocol
  rw [readSession, hcut]
  dsimp only
  rw [hframes, hheard, if_neg Bool.false_ne_true, if_pos haccepts]

/-- Before its greeting a session keeps all bytes. -/
theorem readSession_greeting {isInitiator : Bool} {r : Entropy} {n : NoiseSession} {c : Core}
    (hbytes : c.io.socket.received = c.io.wireRx) (hwait : Incomplete c.io.wireRx) :
    readSession S isInitiator r n c.io.socket.received =
      some { stage := .negotiatingProtocol, noise := n, rest := c.io.wireRx } := by
  obtain ⟨error, hspan, hincomplete⟩ := hwait
  rw [hbytes, readSession, hspan]
  exact if_pos hincomplete

/-! ## The messages -/

/-- Successful decryptions in a row are what `openAll` does. -/
theorem openAll_opened (key : Bytes32) (records : List OpenRecord) :
    ∀ nonce : UInt64, (∀ r ∈ records, r.Done S ∧ r.key = key ∧ r.plaintext ≠ none) →
      (∀ i r, records[i]? = some r → r.nonce.toNat = nonce.toNat + i) →
      ∃ last : UInt64, last.toNat = nonce.toNat + records.length ∧
        openAll S ⟨key, nonce, true⟩ (records.map (·.ciphertext)) =
          (records.filterMap (·.plaintext), some ⟨key, last, true⟩) := by
  induction records with
  | nil => exact fun nonce _ _ => ⟨nonce, rfl, rfl⟩
  | cons r records ih =>
    intro nonce hdone hnonce
    obtain ⟨hr, hkey, hsome⟩ := hdone r List.mem_cons_self
    obtain ⟨p, hp⟩ := Option.ne_none_iff_exists'.mp hsome
    have hfirst : r.nonce = nonce := UInt64.toNat_inj.mp (hnonce 0 r rfl)
    have hopens := hr p hp
    rw [hkey, hfirst] at hopens
    obtain ⟨-, hlast, -, -⟩ := Noise.decrypt_ok hopens
    have hnext : (nonce + 1).toNat = nonce.toNat + 1 := toNat_succ hlast
    obtain ⟨last, hcount, hrest⟩ := ih (nonce + 1)
      (fun r' hr' => hdone r' (List.mem_cons_of_mem _ hr')) fun i r' hr' => by
        rw [hnonce (i + 1) r' hr', hnext]
        omega
    refine ⟨last, by rw [hcount, hnext, List.length_cons]; omega, ?_⟩
    rw [List.map_cons, openAll, hopens]
    dsimp only
    rw [hrest, List.filterMap_cons_some hp]

/-- An active session has decrypted its frames in a row. -/
theorem Established.opens {u : Upgrade} {noise : NoiseSession} {c : Core}
    (h : Established S u noise c) (hdone : Decrypted S c) (hactive : c.Active)
    (hfresh : noise.Fresh) :
    openAll S noise.csRecv c.secure.taken = (c.secure.heard, some c.secure.noise.csRecv) := by
  obtain ⟨hcount, hsome⟩ := h.keyed.recvNonce hactive.2.1
  have hfirst : noise.csRecv = ⟨noise.csRecv.key, 0, true⟩ := by
    rw [← hfresh.recvNonce, ← hfresh.recvKey]
  obtain ⟨last, hlast, hopens⟩ := openAll_opened (S := S) noise.csRecv.key
    c.secure.opened 0
    (fun r hr => ⟨hdone r hr, h.keyed.openedKey r hr, hsome r hr⟩) fun i r hr => by
      rw [UInt64.toNat_zero, Nat.zero_add]
      exact h.keyed.openedNonce i r hr
  rw [UInt64.toNat_zero, Nat.zero_add, ← hcount] at hlast
  rw [UInt64.toNat_inj.mp hlast] at hopens
  have hcs : c.secure.noise.csRecv =
      ⟨noise.csRecv.key, c.secure.noise.csRecv.nonce, true⟩ := by
    rw [← h.keyed.recvKey, ← h.recvKey]
  rw [hfirst, hcs]
  exact hopens

theorem Decided.read {noise : NoiseSession} {exchange : Bytes} {result : Option ProtocolId}
    {secure : SecureChannelState} {role : Bool} (h : Decided noise exchange result secure role) :
    exchangeResult role noise.localExtensions.streamMuxers exchange = some result := by
  unfold exchangeResult
  cases h with
  | initiator proposal hprepare hsaid hadopt =>
    rw [if_pos rfl]
    cases result with
    | some muxer =>
      have hok : MultistreamSelect.readOutboundResponse exchange
        (noise.localExtensions.streamMuxers.headD []) = .ok muxer := hadopt
      rw [hok]
    | none =>
      have herror : MultistreamSelect.readOutboundResponse exchange
        (noise.localExtensions.streamMuxers.headD []) = .error "protocol not supported" := hadopt
      rw [herror]
      exact if_pos rfl
  | responder negotiated hnegotiate hsaid hresult =>
    rw [if_neg Bool.false_ne_true, hnegotiate, ← hresult]

/-- Past its handshake an active session at rest has read its frames. -/
theorem Settled.reads {role : Bool} {u : Upgrade} {noise : NoiseSession} {c : Core}
    (h : Settled S role u noise c) (hfresh : noise.Fresh) (hdone : Decrypted S c)
    (hactive : c.Active) (hrest : AtRest c) :
    ∃ reading, readData S role noise c.secure.taken c.io.wireRx = some reading ∧
      reading.Describes c := by
  have hnoise : c.secure.noise = { { noise with csRecv := c.secure.noise.csRecv } with
    csSend := c.secure.noise.csSend } := h.established.noise
  have hsend : c.secure.noise.csSend.key = noise.csSend.key := h.established.keyed.sendKey
  rw [readData, h.established.opens hdone hactive hfresh]
  dsimp only
  have hrole := h.role
  cases h.settling with
  | stopped hover => exact absurd hactive hover
  | yamux hbranch hstage hyamux hmuxer =>
    rw [hbranch]
    exact ⟨_, rfl, hstage, hnoise, hsend, rfl, rfl, hyamux, fun _ => hmuxer⟩
  | single hbranch hstage hyamux hmuxer =>
    rw [hbranch]
    exact ⟨_, rfl, hstage, hnoise, hsend, rfl, rfl, hyamux, fun _ => hmuxer⟩
  | exchanging hbranch hstage hyamux hmuxer hbuffer =>
    obtain ⟨error, hspan, hincomplete⟩ := (hrest.exchange hstage).2
    rw [hbuffer] at hspan
    rw [hbranch]
    dsimp only
    rw [show c.secure.heard.flatten = c.secure.plain from rfl, hspan]
    exact ⟨_, if_pos hincomplete, hstage, hnoise, hsend, rfl, rfl, hyamux, fun _ => hmuxer⟩
  | agreed exchange result hbranch hstage hspan hheard hdecided hyamux hmuxer =>
    obtain ⟨more, hmore⟩ := hheard
    rw [hrole] at hdecided
    rw [hbranch]
    dsimp only
    rw [show c.secure.heard.flatten = exchange ++ more from hmore.symm,
      MultistreamSelect.exchangeSpan_append hspan]
    dsimp only
    rw [List.take_left, hdecided.read]
    exact ⟨_, rfl, hstage, hnoise, hsend, rfl, rfl, hyamux, fun _ => hmuxer⟩

/-! ## The phases of the upgrade -/

/-- A session before its transport keys are in use has decrypted nothing. -/
theorem Early.describes {role : Bool} {u : Upgrade} {channel : SecureChannelState} {c : Core}
    (h : Early role u channel c) {reading : Reading} (hstage : c.secure.stage = reading.stage)
    (hnoise : channel.noise = reading.noise) (hrest : c.io.wireRx = reading.rest)
    (hmessages : reading.messages = []) (hyamux : reading.hasYamux = false) :
    reading.Describes c := by
  refine ⟨hstage, ?_, ?_, hrest, ?_, h.hasYamux.trans hyamux.symm, fun hpast => ?_⟩
  · rw [h.secure, hnoise]
  · rw [h.secure, hnoise]
  · rw [hmessages, SecureChannelState.heard, h.secure, h.opened]
    rfl
  · rw [h.secure] at hpast
    rcases h.stage with ⟨hs, -⟩ | hs <;> rw [hs] at hpast <;> simp at hpast

theorem initiator_reads {r : Entropy} {n : NoiseSession} {c : Core}
    (h : Onward S true (Dialing S r n) c) (hdone : Decrypted S c) (hactive : c.Active)
    (hrest : AtRest c) :
    ∃ reading, readSession S true r n c.io.socket.received = some reading ∧
      reading.Describes c := by
  rcases h with hover | ⟨u, channel, hphase, hearly, -⟩ | ⟨u, channel, hphase, hcomplete, hsettled⟩
  · exact absurd hactive hover.1
  · have hsecure := hearly.secure
    have hlog := hearly.log
    have htaken : c.secure.taken = [] := by rw [hsecure, SecureChannelState.taken, hearly.opened]; rfl
    cases hphase with
    | proposing _ hstage _ hnoise =>
      have hbytes := hlog.received_open hactive.1
      rw [htaken] at hbytes
      rw [← hsecure] at hstage
      exact ⟨_, readSession_greeting hbytes (hrest.greeting hstage),
        hearly.describes hstage hnoise rfl rfl rfl⟩
    | waiting _ heard hspan hstage _ hnoise =>
      rw [← hsecure] at hstage
      rw [readSession_initiator hlog hactive.1 hspan (hrest.handshake hstage).1, htaken]
      exact ⟨_, rfl, hearly.describes hstage hnoise rfl rfl rfl⟩
    | done _ heard msg2 msg3 _ hstage hcomplete =>
      rw [← hsecure] at hstage hcomplete
      exact absurd hcomplete (hrest.handshake hstage).2
  · have hlog := hsettled.established.log
    cases hphase with
    | proposing _ _ hstate => rw [hcomplete] at hstate; cases hstate
    | waiting _ _ _ _ hwait => rw [hcomplete] at hwait; cases hwait
    | done _ heard msg2 msg3 hspan _ _ hprocess =>
      have hpop : popWire c.io.wireRx = none := by
        rcases hsettled.established.keyed.stage with ⟨hs, -⟩ | ⟨hs, -⟩
        · exact (hrest.exchange hs).1
        · exact hrest.data hs
      rw [readSession_initiator hlog hactive.1 hspan hpop, List.singleton_append, readInitiator,
        hprocess]
      exact hsettled.reads (Noise.processMsg2_fresh hprocess) hdone hactive hrest

theorem responder_reads {r : Entropy} {n : NoiseSession} {c : Core}
    (h : Onward S false (Answering S r n) c) (hdone : Decrypted S c) (hactive : c.Active)
    (hrest : AtRest c) :
    ∃ reading, readSession S false r n c.io.socket.received = some reading ∧
      reading.Describes c := by
  rcases h with hover | ⟨u, channel, hphase, hearly, -⟩ | ⟨u, channel, hphase, hcomplete, hsettled⟩
  · exact absurd hactive hover.1
  · have hsecure := hearly.secure
    have hlog := hearly.log
    have htaken : c.secure.taken = [] := by rw [hsecure, SecureChannelState.taken, hearly.opened]; rfl
    cases hphase with
    | listening _ hstage _ hnoise =>
      have hbytes := hlog.received_open hactive.1
      rw [htaken] at hbytes
      rw [← hsecure] at hstage
      exact ⟨_, readSession_greeting hbytes (hrest.greeting hstage),
        hearly.describes hstage hnoise rfl rfl rfl⟩
    | accepted _ heard negotiated hspan hnegotiate hprotocol hstage _ hnoise =>
      rw [← hsecure] at hstage
      rw [readSession_responder hlog hactive.1 hspan (hrest.handshake hstage).1 hnegotiate hprotocol,
        htaken]
      exact ⟨_, rfl, hearly.describes hstage hnoise rfl rfl rfl⟩
    | waiting _ heard msg1 msg2 negotiated hspan hnegotiate hprotocol hstage _ hprocess =>
      rw [← hsecure] at hstage
      rw [readSession_responder hlog hactive.1 hspan (hrest.handshake hstage).1 hnegotiate hprotocol,
        htaken, List.append_nil, readResponder]
      dsimp only
      rw [hprocess]
      exact ⟨_, rfl, hearly.describes hstage rfl rfl rfl rfl⟩
    | done _ heard msg1 msg2 msg3 noise negotiated _ _ _ hstage hcomplete =>
      rw [← hsecure] at hstage hcomplete
      exact absurd hcomplete (hrest.handshake hstage).2
  · have hlog := hsettled.established.log
    cases hphase with
    | listening _ _ hstate => rw [hcomplete] at hstate; cases hstate
    | accepted _ _ _ _ _ _ _ hwait => rw [hcomplete] at hwait; cases hwait
    | waiting _ _ _ _ _ _ _ _ _ hwait => rw [hcomplete] at hwait; cases hwait
    | done _ heard msg1 msg2 msg3 noise negotiated hspan hnegotiate hprotocol _ _ hprocess hfinish =>
      have hpop : popWire c.io.wireRx = none := by
        rcases hsettled.established.keyed.stage with ⟨hs, -⟩ | ⟨hs, -⟩
        · exact (hrest.exchange hs).1
        · exact hrest.data hs
      rw [readSession_responder hlog hactive.1 hspan hpop hnegotiate hprotocol, List.cons_append,
        List.singleton_append, readResponder]
      dsimp only
      rw [hprocess]
      dsimp only
      rw [hfinish]
      exact hsettled.reads (Noise.processMsg3_fresh hfinish) hdone hactive hrest

/-! ## Runs -/

/-- The call that begins the upgrade of an initiator (`true`) or a responder. -/
def upgradeCall (isInitiator : Bool) : Action :=
  if isInitiator then .beginOutbound else .beginInbound

/-- For every run of a session that began its upgrade once, with any peer, any boundaries
    between the reads, and any other calls in between: while the session is active, its stage,
    the keys and the peer it ended up with, what it decrypted, what it keeps for the next read,
    and the muxer are what reading all received bytes at once gives. -/
theorem reads_bytes {id : ConnectionId} {fd : ℤ} {addr : Multiaddr} {role : Bool}
    {identity : Option Identity} {streamMuxers : List ProtocolId} {random : ℕ → Entropy}
    {s : BasicConnectionSession}
    (hrun : Runs S NoRestart
      (step S (make id fd addr role identity streamMuxers random) (upgradeCall role)) s)
    (hactive : s.isActive = true) :
    ∃ reading, readSession S role (random 0) (configuration identity streamMuxers)
        s.io.socket.received = some reading ∧ reading.Describes s.core := by
  have hdone := decrypted_of_run hrun
  have hcore := (isActive_iff s).mp hactive
  cases role with
  | true => exact initiator_reads (initiator_onward hrun) hdone hcore (initiator_rests hrun hactive)
  | false => exact responder_reads (responder_onward hrun) hdone hcore (responder_rests hrun hactive)

/-- A toy dialer that is past the exchange. -/
theorem reads_bytes_toy :
    let s := (toyRounds [ascii "/x"] [ascii "/y", ascii "/x"] 3).1
    ∃ reading, readSession Noise.Sodium.toy true
        ⟨List.Vector.replicate 32 1, List.Vector.replicate 32 2⟩
        (configuration (some toyIdentity) [ascii "/x"]) s.io.socket.received = some reading ∧
      reading.Describes s.core := by
  have hrun : Runs Noise.Sodium.toy NoRestart
      (step Noise.Sodium.toy (make 1 3 ⟨[]⟩ true (some toyIdentity) [ascii "/x"] fun _ =>
        ⟨List.Vector.replicate 32 1, List.Vector.replicate 32 2⟩) (upgradeCall true))
      (toyRounds [ascii "/x"] [ascii "/y", ascii "/x"] 3).1 :=
    (toyRounds_runs [ascii "/x"] [ascii "/y", ascii "/x"] 3).1
  have hactive : (toyRounds [ascii "/x"] [ascii "/y", ascii "/x"] 3).1.isActive = true := by
    decide +kernel
  obtain ⟨reading, hreads, hdescribes⟩ := reads_bytes hrun hactive
  exact ⟨reading, hreads, hdescribes⟩

end PeerCore.Connection
