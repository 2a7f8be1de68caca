import PeerCore.Connection.Authenticity
import PeerCore.Connection.Frames

/-!
# The wire as a log of messages

Everything a session queues is what it said during the upgrade and the frames of the
messages it encrypted, those that `encode_frame` refused left out; everything it
receives is what it heard during the upgrade, the frames of the messages it decrypted,
and the receive buffer, or what `close_socket` cleared out of it.

* `WireLog`: this invariant. `Established.move`: past the handshake every move keeps it.
* `framesOf_prefix`: of two logs whose bytes begin alike the messages do.
-/

namespace PeerCore.Connection

open BasicConnectionSession

variable {S : Noise.Sodium}

/-! ## Frames in a row -/

/-- The frames of the messages, one behind the other. -/
def framesOf (messages : List Bytes) : Bytes := messages.flatMap frameOf

theorem framesOf_append (messages more : List Bytes) :
    framesOf (messages ++ more) = framesOf messages ++ framesOf more := List.flatMap_append

theorem framesOf_singleton (message : Bytes) : framesOf [message] = frameOf message :=
  List.append_nil _

/-- Frames can be read in one way only. -/
theorem framesOf_prefix {messages : List Bytes} : ∀ {others : List Bytes} {more : Bytes},
    (∀ m ∈ messages, m.length ≤ 65535) → (∀ m ∈ others, m.length ≤ 65535) →
    framesOf messages ++ more = framesOf others → messages <+: others := by
  induction messages with
  | nil => exact fun _ _ _ => List.nil_prefix
  | cons m messages ih =>
    intro others more hlen hothers hbytes
    have hm := hlen m List.mem_cons_self
    cases others with
    | nil => cases hbytes
    | cons o others =>
      -- both begin with one frame, which is read off
      have hread := congrArg popWire hbytes
      rw [framesOf, framesOf, List.flatMap_cons, List.flatMap_cons, List.append_assoc,
        popWire_frameOf hm, popWire_frameOf (hothers o List.mem_cons_self)] at hread
      simp only [Option.some.injEq, Prod.mk.injEq] at hread
      obtain ⟨rfl, hrest⟩ := hread
      rw [List.cons_prefix_cons]
      exact ⟨rfl, ih (fun m' h => hlen m' (List.mem_cons_of_mem _ h))
        (fun o' h => hothers o' (List.mem_cons_of_mem _ h)) hrest⟩

theorem encodeFrame_ok {message framed : Bytes} (h : Noise.encodeFrame message = .ok framed) :
    message.length ≤ 65535 ∧ framed = frameOf message := by
  by_cases hlen : message.length ≤ 65535
  · rw [encodeFrame_eq hlen] at h
    cases h
    exact ⟨hlen, rfl⟩
  · rw [Noise.encodeFrame, if_pos (not_le.mp hlen)] at h
    cases h

theorem encodeFrame_error {message : Bytes} {error : String}
    (h : Noise.encodeFrame message = .error error) : ¬ message.length ≤ 65535 := by
  intro hlen
  rw [encodeFrame_eq hlen] at h
  cases h

theorem popped_frame {buffer frame rest : Bytes}
    (h : tryPopWireFrame buffer = .ok (some (frame, rest))) :
    frame.length ≤ 65535 ∧ buffer = frameOf frame ++ rest := by
  rw [tryPopWireFrame_eq, Except.ok.injEq] at h
  obtain ⟨b0, b1, tail, rfl, hlen, rfl, rfl⟩ := popWire_eq_some h
  have hvalue : Noise.frameLength b0 b1 = b0.toNat * 256 + b1.toNat := by
    rw [Noise.frameLength, Nat.shiftLeft_eq, BigEndian.mul_pow_or b1.toNat_lt]
    norm_num
  have htake : (tail.take (Noise.frameLength b0 b1)).length = b0.toNat * 256 + b1.toNat := by
    rw [List.length_take_of_le hlen, hvalue]
  have h0 := b0.toNat_lt
  have h1 := b1.toNat_lt
  refine ⟨by omega, ?_⟩
  have hhigh : (b0.toNat * 256 + b1.toNat) >>> 8 &&& 0xFF = b0.toNat := by
    rw [BigEndian.shiftRight_and_ff]
    omega
  have hlow : b0.toNat * 256 + b1.toNat &&& 0xFF = b1.toNat := by
    have hmod := BigEndian.shiftRight_and_ff (b0.toNat * 256 + b1.toNat) 0
    rw [Nat.shiftRight_zero] at hmod
    rw [hmod]
    omega
  rw [frameOf, htake, hhigh, hlow, UInt8.ofNat_toNat, UInt8.ofNat_toNat, List.cons_append,
    List.cons_append, List.take_append_drop]

/-! ## The log -/

/-- The ciphertexts that `encode_frame` accepted. -/
def SecureChannelState.framed (secure : SecureChannelState) : List Bytes :=
  (secure.sealed.map (·.ciphertext)).filter (·.length ≤ 65535)

/-- The frames that were decrypted, the last one perhaps in vain. -/
def SecureChannelState.taken (secure : SecureChannelState) : List Bytes :=
  secure.opened.map (·.ciphertext)

/-- What an upgrade puts on the wire: the bytes of the multistream exchange and the
    handshake messages behind them, in both directions. -/
structure Upgrade where
  greeting : Bytes := []
  said : List Bytes := []
  heard : Bytes := []
  told : List Bytes := []

/-- The messages a session queued and those it took, behind the two greetings. -/
structure WireLog (u : Upgrade) (c : Core) : Prop where
  queued : c.io.socket.queued = u.greeting ++ framesOf (u.said ++ c.secure.framed)
  received : c.io.socket.received =
    u.heard ++ framesOf (u.told ++ c.secure.taken) ++ (c.io.socket.unread ++ c.io.wireRx)
  kept : c.io.socketOpen = true → c.io.socket.unread = []
  saidShort : ∀ m ∈ u.said, m.length ≤ 65535
  takenShort : ∀ m ∈ u.told ++ c.secure.taken, m.length ≤ 65535

theorem SecureChannelState.framed_short (secure : SecureChannelState) :
    ∀ m ∈ secure.framed, m.length ≤ 65535 := by
  intro m hm
  simpa using (List.mem_filter.mp hm).2

theorem framed_seal {secure secure' : SecureChannelState} {data ciphertext : Bytes}
    (hseal : sealMessage S data secure = (.ok ciphertext, secure')) :
    secure'.framed =
      if ciphertext.length ≤ 65535 then secure.framed ++ [ciphertext] else secure.framed := by
  obtain ⟨-, -, -, rfl⟩ := sealMessage_ok hseal
  unfold SecureChannelState.framed
  split_ifs with hlen <;> simp [hlen]

namespace WireLog

variable {u : Upgrade} {c c' : Core}

theorem received_open (h : WireLog u c) (hopen : c.io.socketOpen = true) :
    c.io.socket.received = u.heard ++ framesOf (u.told ++ c.secure.taken) ++ c.io.wireRx := by
  rw [h.received, h.kept hopen, List.nil_append]

theorem taken (h : WireLog u c) :
    u.heard ++ framesOf (u.told ++ c.secure.taken) <+: c.io.socket.received :=
  ⟨_, h.received.symm⟩

/-- Neither the history of the socket nor the logs of the channel are different. -/
theorem of_same (h : WireLog u c) (hqueued : c'.io.socket.queued = c.io.socket.queued)
    (hreceived : c'.io.socket.received = c.io.socket.received)
    (hrest : c'.io.socket.unread ++ c'.io.wireRx = c.io.socket.unread ++ c.io.wireRx)
    (hkept : c'.io.socketOpen = true → c'.io.socket.unread = [])
    (hsealed : c'.secure.sealed = c.secure.sealed) (hopened : c'.secure.opened = c.secure.opened) :
    WireLog u c' := by
  have hframed : c'.secure.framed = c.secure.framed := by
    rw [SecureChannelState.framed, hsealed, SecureChannelState.framed]
  have htaken : c'.secure.taken = c.secure.taken := by
    rw [SecureChannelState.taken, hopened, SecureChannelState.taken]
  constructor
  · rw [hqueued, hframed]
    exact h.queued
  · rw [hreceived, htaken, hrest]
    exact h.received
  · exact hkept
  · exact h.saidShort
  · rw [htaken]
    exact h.takenShort

theorem closeSocket (h : WireLog u c) : WireLog u { c with io := Connection.closeSocket c.io } := by
  unfold Connection.closeSocket
  split_ifs
  · exact h
  next husable =>
    rw [not_or, Bool.not_eq_false] at husable
    refine h.of_same rfl rfl ?_ nofun rfl rfl
    show c.io.wireRx ++ [] = _
    rw [h.kept husable.1, List.append_nil, List.nil_append]

theorem shut (h : WireLog u c) : WireLog u c.shut :=
  h.closeSocket.of_same rfl rfl rfl h.closeSocket.kept rfl rfl

theorem recv (h : WireLog u c) (bytes : Bytes) :
    WireLog u { c with io := c.io.recv bytes } := by
  refine ⟨h.queued, ?_, h.kept, h.saidShort, h.takenShort⟩
  show c.io.socket.received ++ bytes = _ ++ (c.io.socket.unread ++ (c.io.wireRx ++ bytes))
  rw [h.received]
  simp only [List.append_assoc]

/-- One message is encrypted and framed. -/
theorem sealFramed (h : WireLog u c) {data ciphertext framed : Bytes} {secure : SecureChannelState}
    (hseal : sealMessage S data c.secure = (.ok ciphertext, secure))
    (hframe : Noise.encodeFrame ciphertext = .ok framed) :
    WireLog u { c with secure, io := c.io.queue framed } := by
  obtain ⟨hlen, rfl⟩ := encodeFrame_ok hframe
  have hframed := framed_seal hseal
  rw [if_pos hlen] at hframed
  obtain ⟨-, -, -, rfl⟩ := sealMessage_ok hseal
  refine ⟨?_, h.received, h.kept, h.saidShort, h.takenShort⟩
  show c.io.socket.queued ++ frameOf ciphertext = _
  rw [h.queued, hframed, ← framesOf_singleton, List.append_assoc, ← framesOf_append,
    List.append_assoc]

/-- One message is encrypted and refused by `encode_frame`. -/
theorem sealLost (h : WireLog u c) {data ciphertext : Bytes} {secure : SecureChannelState}
    (hseal : sealMessage S data c.secure = (.ok ciphertext, secure))
    (hlost : ∃ error, Noise.encodeFrame ciphertext = .error error) :
    WireLog u { c with secure } := by
  obtain ⟨error, hframe⟩ := hlost
  have hframed := framed_seal hseal
  rw [if_neg (encodeFrame_error hframe)] at hframed
  obtain ⟨-, -, -, rfl⟩ := sealMessage_ok hseal
  refine ⟨?_, h.received, h.kept, h.saidShort, h.takenShort⟩
  rw [hframed]
  exact h.queued

theorem outMove (h : WireLog u c) (hmove : OutMove S c c') : WireLog u c' := by
  cases hmove with
  | answers => exact h.of_same rfl rfl rfl h.kept rfl rfl
  | accept => exact h.of_same rfl rfl rfl h.kept rfl rfl
  | shutdown => exact h.of_same rfl rfl rfl h.kept rfl rfl
  | sealFramed _ _ _ _ _ hseal hframe => exact h.sealFramed hseal hframe
  | sealLost _ _ _ _ _ hseal hframe => exact h.sealLost hseal ⟨_, hframe⟩

/-- One frame is taken off the receive buffer. -/
theorem opened (h : WireLog u c) (hopen : c.io.socketOpen = true) {frame rest : Bytes}
    {secure : SecureChannelState} (hpop : tryPopWireFrame c.io.wireRx = .ok (some (frame, rest)))
    (hsealed : secure.sealed = c.secure.sealed) {r : OpenRecord} (hframe : r.ciphertext = frame)
    (hopened : secure.opened = c.secure.opened ++ [r]) :
    WireLog u { c.setRx rest with secure } := by
  obtain ⟨hlen, hbuffer⟩ := popped_frame hpop
  have hframed : secure.framed = c.secure.framed := by
    rw [SecureChannelState.framed, hsealed, SecureChannelState.framed]
  have htaken : secure.taken = c.secure.taken ++ [frame] := by
    rw [SecureChannelState.taken, hopened, List.map_append, List.map_singleton, hframe,
      SecureChannelState.taken]
  have hbytes : c.io.socket.received =
      u.heard ++ framesOf (u.told ++ (c.secure.taken ++ [frame])) ++ rest := by
    rw [h.received_open hopen, hbuffer, ← List.append_assoc u.told, framesOf_append _ [frame],
      framesOf_singleton]
    simp only [List.append_assoc]
  refine ⟨?_, ?_, h.kept, h.saidShort, ?_⟩
  · rw [hframed]
    exact h.queued
  · show c.io.socket.received = _ ++ (c.io.socket.unread ++ rest)
    rw [htaken, h.kept hopen]
    exact hbytes
  · rw [htaken, ← List.append_assoc]
    intro m hm
    rcases List.mem_append.mp hm with hm | hm
    · exact h.takenShort m hm
    · rw [List.mem_singleton.mp hm]
      exact hlen

/-- A message of the upgrade is queued, before anything is encrypted. -/
theorem say (h : WireLog u c) (hnone : c.secure.sealed = []) {message framed : Bytes}
    (hframe : Noise.encodeFrame message = .ok framed) :
    WireLog { u with said := u.said ++ [message] } { c with io := c.io.queue framed } := by
  obtain ⟨hlen, rfl⟩ := encodeFrame_ok hframe
  have hframed : c.secure.framed = [] := by rw [SecureChannelState.framed, hnone]; rfl
  refine ⟨?_, h.received, h.kept, ?_, h.takenShort⟩
  · show c.io.socket.queued ++ frameOf message = _
    rw [h.queued, hframed, List.append_nil, List.append_nil, framesOf_append, framesOf_singleton,
      List.append_assoc]
  · intro m hm
    rcases List.mem_append.mp hm with hm | hm
    · exact h.saidShort m hm
    · rw [List.mem_singleton.mp hm]
      exact hlen

/-- A message of the upgrade is taken off the receive buffer, before anything is decrypted. -/
theorem hear (h : WireLog u c) (hnone : c.secure.opened = []) (hopen : c.io.socketOpen = true)
    {frame rest : Bytes} (hpop : tryPopWireFrame c.io.wireRx = .ok (some (frame, rest))) :
    WireLog { u with told := u.told ++ [frame] } (c.setRx rest) := by
  obtain ⟨hlen, hbuffer⟩ := popped_frame hpop
  have htaken : c.secure.taken = [] := by rw [SecureChannelState.taken, hnone]; rfl
  have hbytes : c.io.socket.received = u.heard ++ framesOf (u.told ++ [frame]) ++ rest := by
    rw [h.received_open hopen, hbuffer, htaken, List.append_nil, framesOf_append, framesOf_singleton]
    simp only [List.append_assoc]
  refine ⟨h.queued, ?_, h.kept, h.saidShort, ?_⟩
  · show c.io.socket.received =
      u.heard ++ framesOf (u.told ++ [frame] ++ c.secure.taken) ++ (c.io.socket.unread ++ rest)
    rw [htaken, List.append_nil, h.kept hopen]
    exact hbytes
  · show ∀ m ∈ u.told ++ [frame] ++ c.secure.taken, m.length ≤ 65535
    rw [htaken, List.append_nil]
    intro m hm
    rcases List.mem_append.mp hm with hm | hm
    · exact h.takenShort m (List.mem_append_left _ hm)
    · rw [List.mem_singleton.mp hm]
      exact hlen

end WireLog

/-! ## Past the handshake -/

variable (S) in
/-- An `encrypt` that succeeded. -/
def SealRecord.Made (r : SealRecord) : Prop :=
  r.nonce.toNat ≠ 2 ^ 64 - 1 ∧ Noise.encryptWithKey S r.key r.nonce r.plaintext [] = .ok r.ciphertext

variable (S) in
/-- A `decrypt` that failed did so with the key and the nonce of the record. -/
def OpenRecord.Tried (r : OpenRecord) : Prop :=
  r.plaintext = none → ∃ error cs, Noise.decrypt S r.ciphertext ⟨r.key, r.nonce, true⟩ = (.error error, cs)

variable (S) in
/-- A session past its handshake, which `noise` came out of. -/
structure Established (u : Upgrade) (noise : Noise.NoiseSession) (c : Core) : Prop where
  keyed : Keyed noise.csSend.key noise.csRecv.key c
  log : WireLog u c
  noise : c.secure.noise =
    { noise with csSend := c.secure.noise.csSend, csRecv := c.secure.noise.csRecv }
  recvKey : c.secure.noise.csRecv.hasKey = true
  made : ∀ r ∈ c.secure.sealed, r.Made S
  tried : ∀ r ∈ c.secure.opened, r.Tried S

theorem sealMessage_made {secure secure' : SecureChannelState} {data ciphertext : Bytes}
    (h : ∀ r ∈ secure.sealed, r.Made S)
    (hseal : sealMessage S data secure = (.ok ciphertext, secure')) :
    ∀ r ∈ secure'.sealed, r.Made S := by
  obtain ⟨-, hnonce, hencrypt, rfl⟩ := sealMessage_ok hseal
  intro r hr
  rcases List.mem_append.mp hr with hr | hr
  · exact h r hr
  · rw [List.mem_singleton.mp hr]
    exact ⟨hnonce, hencrypt⟩

theorem openMessage_tried {secure secure' : SecureChannelState} {frame : Bytes}
    {result : Result Bytes} (h : ∀ r ∈ secure.opened, r.Tried S)
    (hkey : secure.noise.csRecv.hasKey = true)
    (hopen : openMessage S frame secure = (result, secure')) :
    secure'.noise = { secure.noise with csRecv := secure'.noise.csRecv } ∧
      secure'.noise.csRecv.hasKey = true ∧ secure'.sealed = secure.sealed ∧
      (∃ plaintext, secure'.opened = secure.opened ++
        [⟨secure.noise.csRecv.key, secure.noise.csRecv.nonce, frame, plaintext⟩]) ∧
      ∀ r ∈ secure'.opened, r.Tried S := by
  have hadd : ∀ plaintext, (plaintext = none → ∃ error cs,
      Noise.decrypt S frame secure.noise.csRecv = (.error error, cs)) →
      ∀ r ∈ secure.opened ++ [(⟨secure.noise.csRecv.key, secure.noise.csRecv.nonce, frame,
        plaintext⟩ : OpenRecord)], r.Tried S := by
    intro plaintext hnew r hr
    rcases List.mem_append.mp hr with hr | hr
    · exact h r hr
    · rw [List.mem_singleton.mp hr]
      intro hnone
      obtain ⟨error, cs, hdecrypt⟩ := hnew hnone
      refine ⟨error, cs, ?_⟩
      rw [← hdecrypt, ← hkey]
  cases result with
  | ok plaintext =>
    obtain ⟨-, -, -, rfl⟩ := openMessage_ok hopen
    exact ⟨rfl, hkey, rfl, ⟨_, rfl⟩, hadd _ nofun⟩
  | error error =>
    have hdecrypt : ∃ error cs, Noise.decrypt S frame secure.noise.csRecv = (.error error, cs) := by
      unfold openMessage at hopen
      rcases hdec : Noise.decrypt S frame secure.noise.csRecv with ⟨e | plaintext, cs⟩
      · exact ⟨e, cs, rfl⟩
      · simp [hdec] at hopen
    rw [openMessage_error hopen]
    exact ⟨rfl, hkey, rfl, ⟨_, rfl⟩, hadd _ fun _ => hdecrypt⟩

namespace Established

variable {u : Upgrade} {noise : Noise.NoiseSession} {c c' : Core}

/-- The state, the stage and the socket are different, the keys and the logs are not. -/
theorem of_secure (h : Established S u noise c) (hkeyed : Keyed noise.csSend.key noise.csRecv.key c')
    (hlog : WireLog u c') (hnoise : c'.secure.noise = c.secure.noise)
    (hsealed : c'.secure.sealed = c.secure.sealed) (hopened : c'.secure.opened = c.secure.opened) :
    Established S u noise c' where
  keyed := hkeyed
  log := hlog
  noise := by rw [hnoise]; exact h.noise
  recvKey := by rw [hnoise]; exact h.recvKey
  made := by rw [hsealed]; exact h.made
  tried := by rw [hopened]; exact h.tried

theorem sealMessage (h : Established S u noise c) {io : SessionIoState} {data ciphertext : Bytes}
    {secure : SecureChannelState}
    (hseal : sealMessage S data c.secure = (.ok ciphertext, secure))
    (hlog : WireLog u { c with secure, io }) : Established S u noise { c with secure, io } where
  keyed := h.keyed.sealMessage hseal
  log := hlog
  noise := by
    obtain ⟨-, -, -, rfl⟩ := sealMessage_ok hseal
    show _ = _
    rw [h.noise]
  recvKey := by
    obtain ⟨-, -, -, rfl⟩ := sealMessage_ok hseal
    exact h.recvKey
  made := sealMessage_made h.made hseal
  tried := by
    obtain ⟨-, -, -, rfl⟩ := sealMessage_ok hseal
    exact h.tried

theorem outMove (h : Established S u noise c) (hmove : OutMove S c c') :
    Established S u noise c' := by
  have hlog := h.log.outMove hmove
  have hkeyed := h.keyed.outMove hmove
  cases hmove with
  | answers => exact h.of_secure hkeyed hlog rfl rfl rfl
  | accept => exact h.of_secure hkeyed hlog rfl rfl rfl
  | shutdown => exact h.of_secure hkeyed hlog rfl rfl rfl
  | sealFramed _ _ _ _ _ hseal => exact h.sealMessage hseal hlog
  | sealLost _ _ _ _ _ hseal => exact h.sealMessage hseal hlog

theorem outMoves (h : Established S u noise c) (hmoves : OutMoves S c c') :
    Established S u noise c' := by
  induction hmoves with
  | refl => exact h
  | tail _ hstep ih => exact ih.outMove hstep

theorem shut (h : Established S u noise c) : Established S u noise c.shut :=
  h.of_secure h.keyed.shut h.log.shut rfl rfl rfl

/-- The exchange ends. -/
theorem complete (h : Established S u noise c) (hactive : c.Active) (muxer : Option ProtocolId)
    (span : ℕ) : Established S u noise ((c.adopt muxer).dropExchange span).complete := by
  have hkeyed := h.keyed.complete hactive muxer span
  cases muxer with
  | none => exact h.of_secure hkeyed (h.log.of_same rfl rfl rfl h.log.kept rfl rfl) rfl rfl rfl
  | some muxer =>
    exact h.of_secure hkeyed (h.log.of_same rfl rfl rfl h.log.kept rfl rfl) rfl rfl rfl

/-- The log when a frame was decrypted, or failed to be. -/
theorem openedLog (h : Established S u noise c) (hopen : c.io.socketOpen = true)
    {frame rest : Bytes} {result : Result Bytes} {secure : SecureChannelState}
    (hpop : tryPopWireFrame c.io.wireRx = .ok (some (frame, rest)))
    (hrun : openMessage S frame c.secure = (result, secure)) :
    WireLog u { c.setRx rest with secure } := by
  obtain ⟨-, -, hsealed, ⟨plaintext, hopened⟩, -⟩ := openMessage_tried h.tried h.recvKey hrun
  exact h.log.opened hopen hpop hsealed rfl hopened

theorem opened (h : Established S u noise c) {frame : Bytes} {result : Result Bytes}
    {secure : SecureChannelState} (hrun : openMessage S frame c.secure = (result, secure))
    (hsecure : c'.secure = secure) (hlog : WireLog u c')
    (hkeyed : Keyed noise.csSend.key noise.csRecv.key c') : Established S u noise c' := by
  obtain ⟨hnoise, hkey, hsealed, -, htried⟩ := openMessage_tried h.tried h.recvKey hrun
  refine ⟨hkeyed, hlog, ?_, ?_, ?_, ?_⟩
  · rw [hsecure, hnoise, h.noise]
  · rw [hsecure]
    exact hkey
  · rw [hsecure, hsealed]
    exact h.made
  · rw [hsecure]
    exact htried

theorem move (h : Established S u noise c) (hmove : Move S c c') : Established S u noise c' := by
  have hstage := h.keyed.stage_ne
  have hkeyed := h.keyed.move hmove
  cases hmove with
  | out hout => exact h.outMove hout
  | socket =>
    exact h.of_secure hkeyed (h.log.of_same rfl rfl rfl h.log.kept rfl rfl) rfl rfl rfl
  | recv bytes => exact h.of_secure hkeyed (h.log.recv bytes) rfl rfl rfl
  | close => exact h.shut
  | closeSocket => exact h.of_secure hkeyed h.log.closeSocket rfl rfl rfl
  | startNoise _ _ _ _ hneg => exact absurd hneg hstage.1
  | acceptNoise _ _ _ _ hneg => exact absurd hneg hstage.1
  | acceptNoiseFail _ _ _ hneg => exact absurd hneg hstage.1
  | msg1 _ _ _ _ _ hwait => exact absurd hwait.stage hstage.2
  | msg2 _ _ _ _ _ hwait => exact absurd hwait.stage hstage.2
  | msg3 _ _ _ hwait => exact absurd hwait.stage hstage.2
  | fail _ _ _ hneg => exact absurd hneg (not_or.mpr hstage)
  | finishYamux hfinish => exact absurd hfinish.stage hstage.2
  | finishDirect hfinish => exact absurd hfinish.stage hstage.2
  | finishInbound hfinish => exact absurd hfinish.stage hstage.2
  | finishOutbound _ _ _ _ hfinish => exact absurd hfinish.stage hstage.2
  | finishFail _ _ hfinish => exact absurd hfinish.stage hstage.2
  | openMuxer _ _ _ _ hexchange hpop hopen =>
    have hlog := h.openedLog hexchange.active.1 hpop hopen
    exact h.opened hopen rfl (hlog.of_same rfl rfl rfl hlog.kept rfl rfl) hkeyed
  | openData _ _ _ _ hactive _ hpop hopen =>
    exact h.opened hopen rfl (h.openedLog hactive.1 hpop hopen) hkeyed
  | openFail _ _ _ _ hactive _ hpop hopen =>
    exact h.opened hopen rfl (h.openedLog hactive.1 hpop hopen).shut hkeyed
  | muxerOutbound _ _ hexchange => exact h.complete hexchange.active _ _
  | muxerInbound _ _ _ _ _ _ hexchange _ _ _ hseal hframe hout =>
    have hsealed := h.sealMessage hseal (h.log.sealFramed hseal hframe)
    exact (hsealed.outMoves hout).complete (hout.frame.active hexchange.active) _ _
  | muxerInboundFail _ _ _ _ _ _ _ hseal hout hframe =>
    exact ((h.sealMessage hseal (h.log.sealFramed hseal hframe)).outMoves hout).shut
  | muxerInboundLost _ _ _ _ _ hseal hlost =>
    exact (h.sealMessage hseal (h.log.sealLost hseal hlost)).shut

end Established

end PeerCore.Connection
