import PeerCore.Connection.Frames
import PeerCore.Connection.Lifecycle
import PeerCore.Yamux.Receive

/-!
# The messages a session delivers

The data loop decrypts the complete frames of the receive buffer in order and hands
each message to the streams, until one fails to decrypt.

* `delivered`: the messages that one call of `on_socket_readable` hands over.
* `batches_deliver`: over any number of calls they are those of the frames received.
* `Handed`, `batches_reach_streams`: they are what the buffer of the direct stream, or the
  Yamux session, gets.
* `eof_keeps_frames_iff`: when the end of the stream takes a frame with it that came
  before; `eof_drops_frame` is such a case.
-/

namespace PeerCore.Connection

open BasicConnectionSession

/-! ## Decryption in order -/

section Open

variable (S : Noise.Sodium)

/-- The messages of `frames`, until one fails to decrypt; the cipher state, if none does. -/
def openAll : Noise.CipherState → List Bytes → List Bytes × Option Noise.CipherState
  | cs, [] => ([], some cs)
  | cs, frame :: frames =>
    match Noise.decrypt S frame cs with
    | (.ok plaintext, cs) =>
      let (plaintexts, cs) := openAll cs frames
      (plaintext :: plaintexts, cs)
    | (.error _, _) => ([], none)

variable {S}

theorem openAll_append (frames more : List Bytes) : ∀ cs : Noise.CipherState,
    openAll S cs (frames ++ more) =
      match openAll S cs frames with
      | (plaintexts, some cs) => (plaintexts ++ (openAll S cs more).1, (openAll S cs more).2)
      | (plaintexts, none) => (plaintexts, none) := by
  induction frames with
  | nil => exact fun cs => rfl
  | cons frame frames ih =>
    intro cs
    rw [List.cons_append, openAll, openAll]
    rcases Noise.decrypt S frame cs with ⟨e | plaintext, cs'⟩
    · rfl
    · dsimp only
      rw [ih cs']
      rcases openAll S cs' frames with ⟨plaintexts, _ | cs''⟩ <;> rfl

/-- One more frame adds no message if and only if it or one before it fails. -/
theorem openAll_concat_iff (cs : Noise.CipherState) (frames : List Bytes) (frame : Bytes)
    (more : List Bytes) :
    (openAll S cs (frames ++ frame :: more)).1 = (openAll S cs frames).1 ↔
      (openAll S cs (frames ++ [frame])).2 = none := by
  rw [openAll_append, openAll_append]
  rcases openAll S cs frames with ⟨plaintexts, _ | cs'⟩
  · exact ⟨fun _ => rfl, fun _ => rfl⟩
  · simp only [openAll]
    rcases Noise.decrypt S frame cs' with ⟨e | plaintext, cs''⟩
    · simp
    · simp

end Open

/-! ## What is handed over -/

section Deliveries

variable (S : Noise.Sodium)

/-- `process_pending_input` before its data loop. -/
def upgradeInput : Method Unit := do
  let s ← Op.get
  if s.secure.stage = .negotiatingProtocol then processProtocolNegotiation S
  let s ← Op.get
  handshakeLoop S s.io.wireRx.length
  let s ← Op.get
  if s.secure.secureReady = false ∧ s.secure.stage = .muxerNegotiation then
    processMuxerNegotiation S

theorem processPendingInput_eq : processPendingInput S = (do
    upgradeInput S
    let s ← Op.get
    if s.secure.secureReady = false then pure ()
    else dataLoop S s.io.wireRx.length : Method Unit) := by
  funext s
  unfold processPendingInput upgradeInput
  simp only [Op.bind_apply, Op.get_apply]
  split_ifs with hstage
  · simp only [Op.bind_apply]
    rcases processProtocolNegotiation S s with ⟨e | _, s₁⟩
    · rfl
    · simp only [Op.get_apply]
      rcases handshakeLoop S s₁.io.wireRx.length s₁ with ⟨e | _, s₂⟩
      · rfl
      · simp only
        split_ifs <;> rfl
  · simp only [Op.bind_apply, Op.get_apply]
    rcases handshakeLoop S s.io.wireRx.length s with ⟨e | _, s₂⟩
    · rfl
    · simp only
      split_ifs <;> rfl

/-- The messages that `dataLoop` hands to the streams. -/
def dataDeliveries : ℕ → BasicConnectionSession → List Bytes
  | 0, _ => []
  | fuel + 1, s =>
    match popFrame s with
    | (.ok (some frame), s) =>
      match onSecure (openMessage S frame) s with
      | (.ok plaintext, s) =>
        plaintext ::
          match deliverPlaintext S plaintext s with
          | (.ok (), s) => dataDeliveries fuel s
          | (.error _, _) => []
      | (.error _, _) => []
    | _ => []

/-- The messages that `on_socket_readable` hands to the streams. -/
def delivered (answers : List RecvAnswer) (s : BasicConnectionSession) : List Bytes :=
  if s.isActive = false then []
  else
    match recvLoop answers s with
    | (false, _) => []
    | (true, s) =>
      match upgradeInput S s with
      | (.ok (), s) =>
        if s.secure.secureReady = false then [] else dataDeliveries S s.io.wireRx.length s
      | (.error _, _) => []

/-- Call after call of `on_socket_readable`: the messages handed over and the session. -/
def readAllBatches : List (List RecvAnswer) → BasicConnectionSession →
    List Bytes × BasicConnectionSession
  | [], s => ([], s)
  | answers :: batches, s =>
    let (messages, t) := readAllBatches batches (step S s (.readable answers))
    (delivered S answers s ++ messages, t)

variable {S}

/-! ## A ready session -/

/-- A session that reads data. -/
structure Core.Serving (c : Core) : Prop where
  active : c.Active
  stage : c.secure.stage = .ready
  secureReady : c.secure.secureReady = true

theorem upgradeInput_serving {s : BasicConnectionSession} (h : s.core.Serving) :
    upgradeInput S s = (.ok (), s) := by
  have hstage : s.secure.stage = .ready := h.stage
  have hready : s.secure.secureReady = true := h.secureReady
  have hloop : ∀ fuel, handshakeLoop S fuel s = (.ok (), s) := fun fuel => by
    cases fuel with
    | zero => rfl
    | succ fuel =>
      rw [handshakeLoop, Op.bind_apply, Op.get_apply]
      simp [hready]
  unfold upgradeInput
  simp [hstage, hready, hloop]

/-- Handing a message over never fails. -/
theorem deliverPlaintext_ok (plaintext : Bytes) (s : BasicConnectionSession) :
    (deliverPlaintext S plaintext s).1 = .ok () := by
  unfold deliverPlaintext
  split_ifs with hyamux
  · unfold onYamux
    cases hy : s.yamuxSession with
    | none =>
      rw [hy] at hyamux
      cases hyamux
    | some yamux => rfl
  · rfl

theorem deliverPlaintext_eq (plaintext : Bytes) (s : BasicConnectionSession) :
    deliverPlaintext S plaintext s = (.ok (), (deliverPlaintext S plaintext s).2) :=
  Prod.ext (deliverPlaintext_ok plaintext s) rfl

/-- One message of the data loop. -/
theorem dataLoop_message (fuel : ℕ) {s : BasicConnectionSession} {frame rest plaintext : Bytes}
    {secure : SecureChannelState} (hpop : tryPopWireFrame s.io.wireRx = .ok (some (frame, rest)))
    (hopen : openMessage S frame s.secure = (.ok plaintext, secure)) :
    dataLoop S (fuel + 1) s = dataLoop S fuel
      (deliverPlaintext S plaintext { s with io := { s.io with wireRx := rest }, secure }).2 := by
  rw [dataLoop, Op.bind_apply, popFrame_apply, hpop]
  simp only [Op.bind_apply, onSecure, Op.zoom, hopen]
  rw [deliverPlaintext_eq]

theorem dataDeliveries_message (fuel : ℕ) {s : BasicConnectionSession}
    {frame rest plaintext : Bytes} {secure : SecureChannelState}
    (hpop : tryPopWireFrame s.io.wireRx = .ok (some (frame, rest)))
    (hopen : openMessage S frame s.secure = (.ok plaintext, secure)) :
    dataDeliveries S (fuel + 1) s = plaintext :: dataDeliveries S fuel
      (deliverPlaintext S plaintext { s with io := { s.io with wireRx := rest }, secure }).2 := by
  rw [dataDeliveries, popFrame_apply, hpop]
  simp only [onSecure, Op.zoom, hopen]
  rw [deliverPlaintext_eq]

/-- Handing a message over changes neither the buffer nor the receiving counter. -/
theorem deliverPlaintext_serving (plaintext : Bytes) (s : BasicConnectionSession)
    (h : s.core.Serving) : ∃ t, deliverPlaintext S plaintext s = (.ok (), t) ∧ t.core.Serving ∧
      t.io.wireRx = s.io.wireRx ∧ t.secure.noise.csRecv = s.secure.noise.csRecv := by
  have hok := deliverPlaintext_ok (S := S) plaintext s
  have hframe := OutMoves.frame (deliverPlaintext_out (S := S) plaintext s)
  rcases hrun : deliverPlaintext S plaintext s with ⟨e | _, t⟩ <;> rw [hrun] at hok hframe
  · cases hok
  · exact ⟨t, rfl, ⟨hframe.active h.active, hframe.stage.trans h.stage,
      hframe.secureReady.trans h.secureReady⟩, hframe.wireRx, hframe.csRecv⟩

/-- The data loop hands over the messages of the buffered frames. It stops at a frame
    that fails to decrypt, and otherwise leaves the bytes behind the last frame. -/
theorem dataLoop_reads (fuel : ℕ) : ∀ s : BasicConnectionSession, s.core.Serving →
    s.io.wireRx.length ≤ fuel →
    dataDeliveries S fuel s =
        (openAll S s.secure.noise.csRecv (readAll popWire s.io.wireRx).1).1 ∧
      match (openAll S s.secure.noise.csRecv (readAll popWire s.io.wireRx).1).2 with
      | some cs => ∃ t, dataLoop S fuel s = (.ok (), t) ∧ t.core.Serving ∧
          t.io.wireRx = (readAll popWire s.io.wireRx).2 ∧ t.secure.noise.csRecv = cs
      | none => ∃ e t, dataLoop S fuel s = (.error e, t) := by
  induction fuel with
  | zero =>
    intro s hserving hfuel
    have hempty : s.io.wireRx = [] := List.eq_nil_of_length_eq_zero (by omega)
    rw [hempty]
    exact ⟨rfl, s, rfl, hserving, hempty, rfl⟩
  | succ fuel ih =>
    intro s hserving hfuel
    rw [dataDeliveries, dataLoop, Op.bind_apply, popFrame_apply, tryPopWireFrame_eq]
    cases hpop : popWire s.io.wireRx with
    | none =>
      rw [readAll_of_none hpop]
      exact ⟨rfl, s, rfl, hserving, rfl, rfl⟩
    | some popped =>
      obtain ⟨frame, rest⟩ := popped
      have hshort := popWire_incremental.shorter hpop
      rw [popWire_incremental.readAll_of_some hpop, openAll]
      simp only [Op.bind_apply, onSecure, Op.zoom]
      rcases hdec : Noise.decrypt S frame s.secure.noise.csRecv with ⟨e | plaintext, cs⟩
      · simp only [openMessage, hdec]
        exact ⟨trivial, e, _, rfl⟩
      · simp only [openMessage, hdec]
        have hdeliver := deliverPlaintext_serving (S := S) plaintext { s with
          io := { s.io with wireRx := rest }
          secure := { s.secure with
            noise := { s.secure.noise with csRecv := cs }
            opened := s.secure.opened ++ [⟨s.secure.noise.csRecv.key, s.secure.noise.csRecv.nonce,
              frame, some plaintext⟩] } } ⟨hserving.active, hserving.stage, hserving.secureReady⟩
        obtain ⟨t, hrun, hserving', hrest, hcs⟩ := hdeliver
        simp only [hrun]
        have hloop := ih t hserving' (by rw [hrest]; exact (Nat.lt_of_lt_of_le hshort hfuel).le_pred)
        rw [hrest, hcs] at hloop
        refine ⟨congrArg _ hloop.1, hloop.2⟩

/-! ## What the streams get -/

/-- `s` and `t` have the same streams. -/
structure StreamsKept (s t : BasicConnectionSession) : Prop where
  yamuxSession : t.yamuxSession = s.yamuxSession
  directStreams : t.directStreams = s.directStreams
  streamState : t.streamState = s.streamState

theorem StreamsKept.refl (s : BasicConnectionSession) : StreamsKept s s := ⟨rfl, rfl, rfl⟩

theorem StreamsKept.trans {s t u : BasicConnectionSession} (h : StreamsKept s t)
    (h' : StreamsKept t u) : StreamsKept s u :=
  ⟨h'.yamuxSession.trans h.yamuxSession, h'.directStreams.trans h.directStreams,
    h'.streamState.trans h.streamState⟩

variable (S) in
/-- `messages` are handed over one after the other, and nothing else is done to the
    streams. -/
inductive Handed : List Bytes → BasicConnectionSession → BasicConnectionSession → Prop
  | nothing {s t : BasicConnectionSession} (hkept : StreamsKept s t) : Handed [] s t
  | message {s s' t : BasicConnectionSession} {plaintext : Bytes} {messages : List Bytes}
      (hkept : StreamsKept s s') (hmore : Handed messages (deliverPlaintext S plaintext s').2 t) :
      Handed (plaintext :: messages) s t

theorem Handed.after {messages : List Bytes} {s s' t : BasicConnectionSession}
    (hkept : StreamsKept s s') (h : Handed S messages s' t) : Handed S messages s t := by
  cases h with
  | nothing hkept' => exact .nothing (hkept.trans hkept')
  | message hkept' hmore => exact .message (hkept.trans hkept') hmore

theorem Handed.append {messages more : List Bytes} {s t u : BasicConnectionSession}
    (h : Handed S messages s t) (h' : Handed S more t u) : Handed S (messages ++ more) s u := by
  induction h with
  | nothing hkept => exact h'.after hkept
  | message hkept _ ih => exact .message hkept (ih h')

/-- The data loop hands over its deliveries, also where it stops at a frame that fails. -/
theorem dataLoop_handed (fuel : ℕ) : ∀ s : BasicConnectionSession,
    Handed S (dataDeliveries S fuel s) s (dataLoop S fuel s).2 := by
  induction fuel with
  | zero => exact fun s => .nothing (StreamsKept.refl s)
  | succ fuel ih =>
    intro s
    rcases hpop : tryPopWireFrame s.io.wireRx with error | _ | ⟨frame, rest⟩
    · rw [tryPopWireFrame_eq] at hpop
      cases hpop
    · rw [dataDeliveries, dataLoop, Op.bind_apply, popFrame_apply, hpop]
      exact .nothing (StreamsKept.refl s)
    · rcases hopen : openMessage S frame s.secure with ⟨error | plaintext, secure⟩
      · rw [dataDeliveries, dataLoop, Op.bind_apply, popFrame_apply, hpop]
        simp only [Op.bind_apply, onSecure, Op.zoom, hopen]
        exact .nothing ⟨rfl, rfl, rfl⟩
      · rw [dataLoop_message fuel hpop hopen, dataDeliveries_message fuel hpop hopen]
        refine .message ?_ (ih _)
        exact ⟨rfl, rfl, rfl⟩

/-- The bytes that the next message of a direct session is put behind. -/
def directBuffer (s : BasicConnectionSession) : Bytes :=
  match s.streamState with
  | some stream => if (s.directStreams stream).isOpen then (s.directStreams stream).rxBuffer else []
  | none => []

theorem directBuffer_kept {s t : BasicConnectionSession} (h : StreamsKept s t) :
    directBuffer t = directBuffer s := by
  unfold directBuffer
  rw [h.streamState, h.directStreams]

theorem ensureInboundStream_buffer (s : BasicConnectionSession) :
    (ensureInboundStream s).2.yamuxSession = s.yamuxSession ∧
      (ensureInboundStream s).2.streamState = some (ensureInboundStream s).1 ∧
      ((ensureInboundStream s).2.directStreams (ensureInboundStream s).1).isOpen = true ∧
      ((ensureInboundStream s).2.directStreams (ensureInboundStream s).1).rxBuffer =
        directBuffer s := by
  have hnew : ∀ u, createStream none true s = u → u.2.yamuxSession = s.yamuxSession ∧
      u.2.streamState = some u.1 ∧ (u.2.directStreams u.1).isOpen = true ∧
      (u.2.directStreams u.1).rxBuffer = [] := by
    rintro _ rfl
    simp [createStream, pushEvent]
  unfold ensureInboundStream directBuffer
  cases hstream : s.streamState with
  | none => exact hnew _ rfl
  | some stream =>
    dsimp only
    split_ifs with hopen
    · exact ⟨rfl, hstream, hopen, rfl⟩
    · exact hnew _ rfl

/-- Without Yamux a message is put behind the bytes in the buffer of the stream. -/
theorem deliverPlaintext_direct (plaintext : Bytes) {s : BasicConnectionSession}
    (hdirect : s.yamuxSession = none) :
    (deliverPlaintext S plaintext s).2.yamuxSession = none ∧
      directBuffer (deliverPlaintext S plaintext s).2 = directBuffer s ++ plaintext := by
  obtain ⟨hyamux, hstream, hopen, hbuffer⟩ := ensureInboundStream_buffer s
  have hrun : (deliverPlaintext S plaintext s).2 =
      (ensureInboundStream s).2.setDirect (ensureInboundStream s).1
        fun st => { st with rxBuffer := st.rxBuffer ++ plaintext } := by
    rw [deliverPlaintext, if_neg (by rw [hdirect]; exact Bool.false_ne_true)]
  rw [hrun, ← hbuffer]
  refine ⟨hyamux.trans hdirect, ?_⟩
  unfold directBuffer setDirect
  dsimp only
  rw [hstream]
  simp [hopen]

/-- Without Yamux the buffer gets the messages in order and nothing else. -/
theorem Handed.buffered {messages : List Bytes} {s t : BasicConnectionSession}
    (h : Handed S messages s t) (hdirect : s.yamuxSession = none) :
    t.yamuxSession = none ∧
      directBuffer t = directBuffer s ++ messages.flatten := by
  induction h with
  | nothing hkept =>
    exact ⟨hkept.yamuxSession.trans hdirect, by rw [directBuffer_kept hkept]; simp⟩
  | @message s s' t plaintext messages hkept _ ih =>
    obtain ⟨hnone, hbuffer⟩ := deliverPlaintext_direct (S := S) plaintext
      (hkept.yamuxSession.trans hdirect)
    obtain ⟨hnone', hmore⟩ := ih hnone
    refine ⟨hnone', ?_⟩
    rw [hmore, hbuffer, directBuffer_kept hkept, List.flatten_cons, List.append_assoc]

variable (S) in
/-- `Yamux.receive` of `messages`, one after the other. -/
inductive Received : List Bytes → Yamux.YamuxSession → Yamux.YamuxSession → Prop
  | nothing {yamux : Yamux.YamuxSession} : Received [] yamux yamux
  | message {yamux yamux' : Yamux.YamuxSession} {plaintext : Bytes} {messages : List Bytes}
      (s : BasicConnectionSession)
      (hmore : Received messages
        (Yamux.receive (yamuxCallbacks S) plaintext (yamux, s)).2.1 yamux') :
      Received (plaintext :: messages) yamux yamux'

/-- With Yamux each message is handed to the Yamux session. -/
theorem deliverPlaintext_yamux (plaintext : Bytes) {s : BasicConnectionSession}
    {yamux : Yamux.YamuxSession} (hyamux : s.yamuxSession = some yamux) :
    (deliverPlaintext S plaintext s).2.yamuxSession =
      some (Yamux.receive (yamuxCallbacks S) plaintext (yamux, s)).2.1 := by
  rw [deliverPlaintext, if_pos (by rw [hyamux]; rfl), onYamux, hyamux]

theorem Handed.received {messages : List Bytes} {s t : BasicConnectionSession}
    (h : Handed S messages s t) : ∀ {yamux : Yamux.YamuxSession}, s.yamuxSession = some yamux →
      ∃ yamux', t.yamuxSession = some yamux' ∧ Received S messages yamux yamux' := by
  induction h with
  | nothing hkept => exact fun hyamux => ⟨_, hkept.yamuxSession.trans hyamux, .nothing⟩
  | message hkept _ ih =>
    intro yamux hyamux
    obtain ⟨yamux', hlast, hreceived⟩ :=
      ih (deliverPlaintext_yamux _ (hkept.yamuxSession.trans hyamux))
    exact ⟨yamux', hlast, .message _ hreceived⟩

/-- The Yamux session cuts its frames out of the messages one behind the other, and keeps
    what completes no frame. -/
theorem Received.recvBuf {messages : List Bytes} {yamux yamux' : Yamux.YamuxSession}
    (h : Received S messages yamux yamux') (hnone : Yamux.popFrame yamux.recvBuf = none) :
    yamux'.recvBuf = (readAll Yamux.popFrame (yamux.recvBuf ++ messages.flatten)).2 := by
  induction h with
  | nothing => rw [List.flatten_nil, List.append_nil, readAll_of_none hnone]
  | @message yamux yamux' plaintext messages s _ ih =>
    have hfirst : (Yamux.receive (yamuxCallbacks S) plaintext (yamux, s)).2.1.recvBuf =
        (readAll Yamux.popFrame (yamux.recvBuf ++ plaintext)).2 := by
      rw [Yamux.receive_eq, Yamux.rebuffer_recvBuf]
    rw [ih (by rw [hfirst]; exact Yamux.popFrame_incremental.pop_rest _), hfirst,
      List.flatten_cons, ← List.append_assoc,
      Yamux.popFrame_incremental.readAll_append (yamux.recvBuf ++ plaintext)]

/-! ## Batches -/

/-- `recv` returns these chunks, and then reports `EAGAIN`. -/
def batch (chunks : List Bytes) : List RecvAnswer := chunks.map .data

theorem recvLoop_batch (chunks : List Bytes) (rest : List RecvAnswer) :
    ∀ s : BasicConnectionSession, (∀ chunk ∈ chunks, chunk ≠ []) →
      ∃ t, recvLoop (batch chunks ++ rest) s = recvLoop rest t ∧
        t.io.wireRx = s.io.wireRx ++ chunks.flatten ∧ t.io.socketOpen = s.io.socketOpen ∧
        t = { s with io := t.io } := by
  induction chunks with
  | nil => exact fun s _ => ⟨s, rfl, by simp, rfl, rfl⟩
  | cons chunk chunks ih =>
    intro s hne
    obtain ⟨t, hrun, hrx, hopen, hsame⟩ := ih { s with io := s.io.recv chunk } fun c hc =>
      hne c (List.mem_cons_of_mem _ hc)
    refine ⟨t, ?_, ?_, hopen, hsame⟩
    · have hfirst : recvLoop (batch (chunk :: chunks) ++ rest) s =
          recvLoop (batch chunks ++ rest) { s with io := s.io.recv chunk } := by
        change recvLoop (.data chunk :: (batch chunks ++ rest)) s = _
        rw [recvLoop, if_neg (hne chunk List.mem_cons_self)]
      rw [hfirst, hrun]
    · rw [hrx]
      simp [SessionIoState.recv]

theorem isActive_of_closed {s : BasicConnectionSession} (h : s.state = .closed) :
    s.isActive = false := by simp [isActive, h]

theorem close_state (s : BasicConnectionSession) : (close s).state = .closed := by
  have hcore := congrArg Core.state (close_core s)
  by_cases hclosed : s.state = .closed
  · rw [if_pos hclosed] at hcore
    exact hcore.trans hclosed
  · rw [if_neg hclosed] at hcore
    exact hcore

/-- One call that ends with `EAGAIN` runs the data loop on what has arrived. -/
theorem batch_dataLoop (chunks : List Bytes) (hne : ∀ chunk ∈ chunks, chunk ≠ [])
    {s : BasicConnectionSession} (h : s.core.Serving) :
    ∃ t, t = { s with io := t.io } ∧ t.core.Serving ∧
      t.io.wireRx = s.io.wireRx ++ chunks.flatten ∧
      delivered S (batch chunks) s = dataDeliveries S t.io.wireRx.length t ∧
      step S s (.readable (batch chunks)) =
        match dataLoop S t.io.wireRx.length t with
        | (.ok (), u) => u
        | (.error e, u) => close (emitError (ascii e) u) := by
  have hactive : ¬ s.isActive = false := by
    rw [Bool.not_eq_false, isActive_iff]
    exact h.active
  obtain ⟨t, hrecv, hrx, hopen, hsame⟩ := recvLoop_batch chunks [] s hne
  rw [List.append_nil, recvLoop] at hrecv
  have hserving : t.core.Serving := by
    rw [hsame]
    exact ⟨⟨hopen.trans h.active.1, h.active.2⟩, h.stage, h.secureReady⟩
  have hready : t.secure.secureReady = true := hserving.secureReady
  refine ⟨t, hsame, hserving, hrx, ?_, ?_⟩
  · unfold delivered
    rw [if_neg hactive, hrecv]
    simp [upgradeInput_serving hserving, hready]
  · have hprocess : processPendingInput S t = dataLoop S t.io.wireRx.length t := by
      rw [processPendingInput_eq, Op.bind_of_ok (upgradeInput_serving hserving), Op.bind_apply,
        Op.get_apply]
      simp [hready]
    rw [step, onSocketReadable, if_neg hactive, hrecv]
    rcases hloop : dataLoop S t.io.wireRx.length t with ⟨e | _, u⟩ <;>
      simp only [hprocess, hloop]

/-- One call that ends with `EAGAIN`. -/
theorem batch_serving (chunks : List Bytes) (hne : ∀ chunk ∈ chunks, chunk ≠ [])
    {s : BasicConnectionSession} (h : s.core.Serving) :
    delivered S (batch chunks) s = (openAll S s.secure.noise.csRecv
        (readAll popWire (s.io.wireRx ++ chunks.flatten)).1).1 ∧
      match (openAll S s.secure.noise.csRecv
        (readAll popWire (s.io.wireRx ++ chunks.flatten)).1).2 with
      | some cs => (step S s (.readable (batch chunks))).core.Serving ∧
          (step S s (.readable (batch chunks))).io.wireRx =
            (readAll popWire (s.io.wireRx ++ chunks.flatten)).2 ∧
          (step S s (.readable (batch chunks))).secure.noise.csRecv = cs
      | none => (step S s (.readable (batch chunks))).isActive = false := by
  obtain ⟨t, hsame, hserving, hrx, hdelivered, hstep⟩ := batch_dataLoop (S := S) chunks hne h
  have hsecure : t.secure = s.secure := by rw [hsame]
  obtain ⟨hdeliveries, hend⟩ := dataLoop_reads (S := S) t.io.wireRx.length t hserving le_rfl
  rw [hdelivered, ← hrx, ← hsecure]
  refine ⟨hdeliveries, ?_⟩
  rcases hopened : (openAll S t.secure.noise.csRecv (readAll popWire t.io.wireRx).1).2 with _ | cs <;>
    rw [hopened] at hend
  · obtain ⟨e, u, hrun⟩ := hend
    rw [hstep, hrun]
    exact isActive_of_closed (close_state _)
  · obtain ⟨u, hrun, hserving', hrest, hcs⟩ := hend
    rw [hstep, hrun]
    exact ⟨hserving', hrest, hcs⟩

/-- Calls on a session that is not active do nothing. -/
theorem readAllBatches_inactive (batches : List (List RecvAnswer)) :
    ∀ s : BasicConnectionSession, s.isActive = false → readAllBatches S batches s = ([], s) := by
  induction batches with
  | nil => exact fun s _ => rfl
  | cons answers batches ih =>
    intro s hinactive
    have hstep : step S s (.readable answers) = s := by
      rw [step, onSocketReadable, if_pos hinactive]
    have hnone : delivered S answers s = [] := by rw [delivered, if_pos hinactive]
    rw [readAllBatches, hstep, ih s hinactive, hnone]
    rfl

theorem readAllBatches_append (batches more : List (List RecvAnswer)) :
    ∀ s : BasicConnectionSession, (readAllBatches S (batches ++ more) s).1 =
      (readAllBatches S batches s).1 ++ (readAllBatches S more (readAllBatches S batches s).2).1 := by
  induction batches with
  | nil => exact fun s => rfl
  | cons answers batches ih =>
    intro s
    rw [List.cons_append, readAllBatches, readAllBatches]
    dsimp only
    rw [ih, List.append_assoc]

/-- Call after call, the session hands over the messages of the frames received, whatever
    the boundaries between the calls. -/
theorem batches_deliver (batches : List (List Bytes)) : ∀ s : BasicConnectionSession,
    (∀ chunk ∈ batches.flatten, chunk ≠ []) → s.core.Serving → popWire s.io.wireRx = none →
    (readAllBatches S (batches.map batch) s).1 = (openAll S s.secure.noise.csRecv
      (readAll popWire (s.io.wireRx ++ batches.flatten.flatten)).1).1 := by
  induction batches with
  | nil =>
    intro s _ _ hnone
    rw [List.flatten_nil, List.flatten_nil, List.append_nil, readAll_of_none hnone]
    rfl
  | cons chunks batches ih =>
    intro s hne hserving hnone
    have hfirst := batch_serving (S := S) chunks
      (fun chunk hc => hne chunk (List.mem_append_left _ hc)) hserving
    rw [List.map_cons, readAllBatches, List.flatten_cons, List.flatten_append, ← List.append_assoc,
      popWire_incremental.readAll_append, openAll_append]
    dsimp only
    rw [hfirst.1]
    have hend := hfirst.2
    rcases hopened : openAll S s.secure.noise.csRecv
      (readAll popWire (s.io.wireRx ++ chunks.flatten)).1 with ⟨plaintexts, _ | cs⟩ <;>
      rw [hopened] at hend
    · rw [readAllBatches_inactive _ _ hend]
      exact List.append_nil _
    · obtain ⟨hserving', hrest, hcs⟩ := hend
      have hmore := ih _ (fun chunk hc => hne chunk (List.mem_append_right _ hc)) hserving'
        (by rw [hrest]; exact popWire_incremental.pop_rest _)
      rw [hmore, hrest, hcs]

/-- What one call delivers is what the streams get by it. -/
theorem batch_handed (chunks : List Bytes) (hne : ∀ chunk ∈ chunks, chunk ≠ [])
    {s : BasicConnectionSession} (h : s.core.Serving) :
    ∃ u, Handed S (delivered S (batch chunks) s) s u ∧
      ((step S s (.readable (batch chunks))).isActive = true →
        step S s (.readable (batch chunks)) = u) := by
  obtain ⟨t, hsame, -, -, hdelivered, hstep⟩ := batch_dataLoop (S := S) chunks hne h
  have hkept : StreamsKept s t := by
    rw [hsame]
    exact ⟨rfl, rfl, rfl⟩
  rw [hdelivered, hstep]
  refine ⟨_, (dataLoop_handed t.io.wireRx.length t).after hkept, ?_⟩
  rcases dataLoop S t.io.wireRx.length t with ⟨e | _, u⟩
  · intro hactive
    rw [isActive_of_closed (close_state _)] at hactive
    cases hactive
  · exact fun _ => rfl

/-- Over any number of calls, as long as the session stays open. -/
theorem batches_handed (batches : List (List Bytes)) : ∀ s : BasicConnectionSession,
    (∀ chunk ∈ batches.flatten, chunk ≠ []) → s.core.Serving →
    (readAllBatches S (batches.map batch) s).2.isActive = true →
    Handed S (readAllBatches S (batches.map batch) s).1 s
      (readAllBatches S (batches.map batch) s).2 := by
  induction batches with
  | nil => exact fun s _ _ _ => .nothing (StreamsKept.refl s)
  | cons chunks batches ih =>
    intro s hne hserving hactive
    rw [List.map_cons, readAllBatches] at hactive ⊢
    dsimp only at hactive ⊢
    have hfirst : ∀ chunk ∈ chunks, chunk ≠ [] :=
      fun chunk hc => hne chunk (List.mem_append_left _ hc)
    obtain ⟨u, hhanded, hlast⟩ := batch_handed (S := S) chunks hfirst hserving
    have hend := (batch_serving (S := S) chunks hfirst hserving).2
    rcases hopened : (openAll S s.secure.noise.csRecv
      (readAll popWire (s.io.wireRx ++ chunks.flatten)).1).2 with _ | cs <;> rw [hopened] at hend
    · rw [readAllBatches_inactive _ _ hend] at hactive
      rw [hend] at hactive
      cases hactive
    · obtain rfl := hlast ((isActive_iff _).mpr hend.1.active)
      exact hhanded.append (ih _ (fun chunk hc => hne chunk (List.mem_append_right _ hc)) hend.1
        hactive)

/-- The messages that a session delivers while it stays open are the bytes that the buffer
    of its direct stream gets, or what its Yamux session receives. -/
theorem batches_reach_streams (batches : List (List Bytes)) (s : BasicConnectionSession)
    (hne : ∀ chunk ∈ batches.flatten, chunk ≠ []) (hserving : s.core.Serving)
    (hactive : (readAllBatches S (batches.map batch) s).2.isActive = true) :
    (s.yamuxSession = none →
      directBuffer (readAllBatches S (batches.map batch) s).2 =
        directBuffer s ++ (readAllBatches S (batches.map batch) s).1.flatten) ∧
    ∀ yamux, s.yamuxSession = some yamux →
      ∃ yamux', (readAllBatches S (batches.map batch) s).2.yamuxSession = some yamux' ∧
        Received S (readAllBatches S (batches.map batch) s).1 yamux yamux' := by
  have hhanded := batches_handed batches s hne hserving hactive
  exact ⟨fun hdirect => (hhanded.buffered hdirect).2, fun yamux hyamux => hhanded.received hyamux⟩

/-- The call that sees the end of the stream hands nothing over. -/
theorem delivered_ending (chunks : List Bytes) (hne : ∀ chunk ∈ chunks, chunk ≠ [])
    {ending : RecvAnswer} (hending : ending = .data [] ∨ ending = .reset)
    (s : BasicConnectionSession) : delivered S (batch chunks ++ [ending]) s = [] := by
  unfold delivered
  split_ifs
  · rfl
  · obtain ⟨t, hrecv, -⟩ := recvLoop_batch chunks [ending] s hne
    rw [hrecv]
    rcases hending with rfl | rfl
    · rw [recvLoop, if_pos rfl]
    · rw [recvLoop]

/-! ## No frame is left behind -/

/-- A ready session has processed every complete frame it has received. -/
def Drained (s : BasicConnectionSession) : Prop :=
  s.isActive = true → s.secure.secureReady = true → popWire s.io.wireRx = none

theorem Drained.of_frame {s t : BasicConnectionSession} (h : Drained s)
    (hframe : OutFrame s.core t.core) : Drained t := by
  intro hactive hready
  have hwire : t.io.wireRx = s.io.wireRx := hframe.wireRx
  rw [hwire]
  refine h ?_ ?_
  · rw [isActive_iff] at hactive ⊢
    unfold Core.Active at hactive
    rw [hframe.socketOpen, hframe.state] at hactive
    exact hactive
  · exact hframe.secureReady.symm.trans hready

theorem drained_of_closed {s : BasicConnectionSession} (h : s.state = .closed) : Drained s := by
  intro hactive
  rw [isActive_of_closed h] at hactive
  cases hactive

/-- A `recv` loop that does not go on has closed the session. -/
theorem recvLoop_closed (answers : List RecvAnswer) : ∀ s : BasicConnectionSession,
    (recvLoop answers s).1 = false → (recvLoop answers s).2.state = .closed := by
  induction answers with
  | nil => exact fun s => nofun
  | cons answer rest ih =>
    intro s hstop
    cases answer with
    | data bytes =>
      rw [recvLoop] at hstop ⊢
      split_ifs at hstop ⊢
      · exact close_state s
      · exact ih _ hstop
    | reset => exact close_state s
    | again => cases hstop
    | failed error => exact close_state _

theorem upgradeInput_ends (s : BasicConnectionSession) (hactive : s.core.Active) :
    Ended S s.core (upgradeInput S s).1 (upgradeInput S s).2.core := by
  have hframes : ∀ s : BasicConnectionSession, s.core.Active →
      Ended S s.core
        ((do
          let s ← Op.get
          handshakeLoop S s.io.wireRx.length
          let s ← Op.get
          if s.secure.secureReady = false ∧ s.secure.stage = .muxerNegotiation then
            processMuxerNegotiation S : Method Unit) s).1
        ((do
          let s ← Op.get
          handshakeLoop S s.io.wireRx.length
          let s ← Op.get
          if s.secure.secureReady = false ∧ s.secure.stage = .muxerNegotiation then
            processMuxerNegotiation S : Method Unit) s).2.core := by
    intro s hactive
    rw [Op.bind_apply, Op.get_apply]
    refine (handshakeLoop_ends _ s hactive).bind fun s₁ _ hactive₁ => ?_
    rw [Op.bind_apply, Op.get_apply]
    dsimp only
    split_ifs with hmuxer
    · exact processMuxerNegotiation_ends s₁ ⟨hactive₁, hmuxer.2, hmuxer.1⟩
    · exact ⟨Moves.refl _, hactive₁⟩
  unfold upgradeInput
  rw [Op.bind_apply, Op.get_apply]
  dsimp only
  split_ifs with hstage
  · exact (processProtocolNegotiation_ends s hactive hstage).bind
      fun s₁ _ hactive₁ => hframes s₁ hactive₁
  · exact hframes s hactive

theorem onSocketReadable_drained (answers : List RecvAnswer) {s : BasicConnectionSession}
    (h : Drained s) (harmed : Armed s.core) : Drained (onSocketReadable S answers s) := by
  unfold onSocketReadable
  split_ifs with hactive
  · exact h
  · rw [Bool.not_eq_false, isActive_iff] at hactive
    have hrecv := recvLoop_moves (S := S) answers s hactive
    rcases hloop : recvLoop answers s with ⟨_ | _, s₁⟩ <;> rw [hloop] at hrecv
    · have hclosed := recvLoop_closed answers s (by rw [hloop])
      rw [hloop] at hclosed
      exact drained_of_closed hclosed
    · dsimp only at hrecv ⊢
      have hactive₁ := hrecv.2 rfl
      rw [processPendingInput_eq, Op.bind_apply]
      have hupgrade := upgradeInput_ends (S := S) s₁ hactive₁
      rcases hrun : upgradeInput S s₁ with ⟨e | _, s₂⟩ <;> rw [hrun] at hupgrade
      · exact drained_of_closed (close_state _)
      · have harmed₂ : Armed s₂.core :=
          (hrecv.1.trans hupgrade.1).invariant (fun _ _ hc hmove => hc.move hmove) harmed
        simp only [Op.bind_apply, Op.get_apply]
        split_ifs with hready
        · intro _ hready'
          rw [Op.pure_apply] at hready'
          rw [hready] at hready'
          cases hready'
        · rw [Bool.not_eq_false] at hready
          have hdata := (dataLoop_reads (S := S) s₂.io.wireRx.length s₂
            ⟨hupgrade.2, (harmed₂.secureReady hready).1, hready⟩ le_rfl).2
          rcases hopened : (openAll S s₂.secure.noise.csRecv (readAll popWire s₂.io.wireRx).1).2
            with _ | cs <;> rw [hopened] at hdata
          · obtain ⟨e, t, hrun⟩ := hdata
            rw [hrun]
            exact drained_of_closed (close_state _)
          · obtain ⟨t, hrun, -, hrest, -⟩ := hdata
            rw [hrun]
            intro _ _
            rw [hrest]
            exact popWire_incremental.pop_rest _

/-- What the other actions do to the receive buffer: nothing, as long as the session is
    active. -/
theorem step_drained {s : BasicConnectionSession} (h : Drained s) (harmed : Armed s.core)
    (a : Action) : Drained (step S s a) := by
  have hsame : ∀ {t : BasicConnectionSession}, t.core = s.core → Drained t := fun hcore => by
    refine h.of_frame ?_
    rw [hcore]
    exact OutFrame.refl _
  have hbegun : ∀ {t : BasicConnectionSession}, Begins s.voice t.voice →
      s.secure.secureReady = false → Drained t := fun {t} hbegins hsecure _ hready => by
    have hkept : t.secure.secureReady = s.secure.secureReady := by
      rcases hbegins with hsame | ⟨-, -, hbegun⟩
      · exact congrArg Voice.secureReady hsame
      · exact congrArg Voice.secureReady hbegun
    rw [hkept, hsecure] at hready
    cases hready
  cases a with
  | answers sends shutdownError => exact h
  | readable answers => exact onSocketReadable_drained answers h harmed
  | writable =>
    rw [step, onSocketWritable]
    split_ifs
    · exact h
    · have hframe := OutMoves.frame (flushPendingWrites_out (S := S) s)
      rcases hrun : flushPendingWrites s with ⟨e | _, t⟩ <;> rw [hrun] at hframe
      · exact drained_of_closed (close_state _)
      · exact h.of_frame hframe
  | timeout =>
    rw [step, onTimeout]
    split_ifs
    · exact h
    · exact h
    · exact drained_of_closed (close_state _)
  | beginOutbound =>
    rcases beginOutboundUpgrade_begin (S := S) s with hcore | ⟨c, hbegin, -⟩
    · exact hsame hcore
    · exact hbegun (beginOutboundUpgrade_begins S s) hbegin.guard.2
  | beginInbound =>
    rcases beginInboundUpgrade_begin s with hcore | hbegin
    · exact hsame hcore
    · exact hbegun (beginInboundUpgrade_begins s) hbegin.guard.2
  | openStream protocol => exact h.of_frame (OutMoves.frame (requestOpenStream_out protocol s))
  | acceptStream => exact hsame (acceptInboundStream_core s)
  | nextEvent => exact hsame (nextEvent_core s)
  | close => exact drained_of_closed (close_state s)
  | tryRead handle size => exact h.of_frame (OutMoves.frame (streamTryRead_out handle size s))
  | tryWrite handle data => exact h.of_frame (OutMoves.frame (streamTryWrite_out handle data s))
  | closeWrite handle => exact h.of_frame (OutMoves.frame (streamCloseWrite_out handle s))
  | reset handle =>
    cases handle with
    | yamux stream => exact h.of_frame (OutMoves.frame (streamReset_yamux_out stream s))
    | direct stream =>
      by_cases hclosed : s.io.socketOpen = false ∨ s.io.fd < 0
      · refine hsame ?_
        have hio : (streamReset S (.direct stream) s).2.core =
          { s.core with io := closeSocket s.io } := rfl
        rw [step, hio, closeSocket, if_pos hclosed]
        rfl
      · intro hactive
        have hopen := ((isActive_iff _).mp hactive).1
        have hio : (step S s (.reset (.direct stream))).core.io = closeSocket s.io := rfl
        rw [hio, closeSocket, if_neg hclosed] at hopen
        cases hopen

/-! ## The end of the stream -/

variable (S) in
/-- The data `late`, read by the call that sees the end of the stream, completes no frame;
    or a frame fails to decrypt, at the latest the first one that `late` completes. -/
def KeepsFrames (cs : Noise.CipherState) (early late : Bytes) : Prop :=
  (readAll popWire (early ++ late)).1 = (readAll popWire early).1 ∨
    (openAll S cs ((readAll popWire (early ++ late)).1.take
      ((readAll popWire early).1.length + 1))).2 = none

theorem keepsFrames_iff (cs : Noise.CipherState) (early late : Bytes) :
    (openAll S cs (readAll popWire early).1).1 =
        (openAll S cs (readAll popWire (early ++ late)).1).1 ↔ KeepsFrames S cs early late := by
  obtain ⟨new, hnew⟩ := popWire_incremental.readAll_isPrefix early late
  unfold KeepsFrames
  rw [← hnew]
  cases new with
  | nil => simp
  | cons frame more =>
    have htake : ((readAll popWire early).1 ++ frame :: more).take
        ((readAll popWire early).1.length + 1) = (readAll popWire early).1 ++ [frame] := by
      rw [List.take_length_add_append]
      rfl
    rw [htake, eq_comm, openAll_concat_iff]
    simp

/-- For every ready session, all data received from then on, and all boundaries between
    the calls of `on_socket_readable`, the last of which sees the end of the stream or a
    reset: the messages of all complete frames are handed over if and only if the last
    call loses none. -/
theorem eof_keeps_frames_iff (id : ConnectionId) (fd : ℤ) (remoteAddr : Multiaddr)
    (isInitiator : Bool) (identity : Option Identity) (streamMuxers : List ProtocolId)
    (random : ℕ → Noise.Entropy) {tr : Trace} {s : BasicConnectionSession}
    (hrun : Traced S (fun _ _ _ => True)
      (make id fd remoteAddr isInitiator identity streamMuxers random) tr s)
    (hready : s.state = .ready) (hopen : s.io.socketOpen = true) (batches : List (List Bytes))
    (last : List Bytes) (hchunks : ∀ chunk ∈ batches.flatten ++ last, chunk ≠ [])
    {ending : RecvAnswer} (hending : ending = .data [] ∨ ending = .reset) :
    (readAllBatches S (batches.map batch ++ [batch last ++ [ending]]) s).1 =
        (openAll S s.secure.noise.csRecv (readAll popWire
          (s.io.wireRx ++ batches.flatten.flatten ++ last.flatten)).1).1 ↔
      KeepsFrames S s.secure.noise.csRecv (s.io.wireRx ++ batches.flatten.flatten) last.flatten := by
  have hinvariant : Drained s ∧ Armed s.core :=
    hrun.runs.invariant (P := fun s => Drained s ∧ Armed s.core)
      ⟨nofun, make_armed id fd remoteAddr isInitiator identity streamMuxers random⟩
      fun _ a hs _ => ⟨step_drained hs.1 hs.2 a, hs.2.step a⟩
  have horderly := hrun.orderly
    (make_orderly id fd remoteAddr isInitiator identity streamMuxers random)
  have hactive : s.core.Active :=
    ⟨hopen, by change s.state ≠ .closed; rw [hready]; nofun, by change s.state ≠ .failed; rw [hready]; nofun⟩
  have hphase : (tr.voice s).Serving := horderly.serving hactive (.inr hready)
  have hserving : s.core.Serving := ⟨hactive, hphase.stage, hphase.secureReady⟩
  have hdeliver := batches_deliver (S := S) batches s
    (fun chunk hc => hchunks chunk (List.mem_append_left _ hc)) hserving
    (hinvariant.1 ((isActive_iff s).mpr hactive) hphase.secureReady)
  have hlast : ∀ t, (readAllBatches S [batch last ++ [ending]] t).1 = [] := fun t => by
    rw [readAllBatches, delivered_ending last (fun chunk hc =>
      hchunks chunk (List.mem_append_right _ hc)) hending]
    rfl
  rw [readAllBatches_append, hlast, List.append_nil, hdeliver]
  exact keepsFrames_iff _ _ _

end Deliveries

/-! ## A direct session of the toy primitives -/

/-- The initiator, ready. -/
def toyReady : BasicConnectionSession :=
  (play Noise.Sodium.toy (toyDial (toyOutbound ⟨[]⟩ []) (toyInbound [])) (toyOutbound ⟨[]⟩ [])).2

theorem toyReady_traced : Traced Noise.Sodium.toy (fun _ _ _ => True) (toyOutbound ⟨[]⟩ [])
    (play Noise.Sodium.toy (toyDial (toyOutbound ⟨[]⟩ []) (toyInbound [])) (toyOutbound ⟨[]⟩ [])).1
    toyReady := play_traced _ (fun _ _ _ _ => trivial) _

/-- A frame that `s` decrypts to `plaintext`. -/
def toyFrame (plaintext : Bytes) (s : BasicConnectionSession) : Bytes :=
  match Noise.encrypt Noise.Sodium.toy plaintext s.secure.noise.csRecv with
  | (.ok ciphertext, _) => (Noise.encodeFrame ciphertext).toOption.getD []
  | (.error _, _) => []

/-- A frame in two chunks, and the end of the stream in a later call: nothing is lost. -/
theorem eof_keeps_frames_toy :
    let frame := toyFrame [104, 105] toyReady
    let run := readAllBatches Noise.Sodium.toy
      ([[frame.take 3, frame.drop 3]].map batch ++ [batch [] ++ [.data []]]) toyReady
    run.1 = [[104, 105]] ∧
      (run.1 = (openAll Noise.Sodium.toy toyReady.secure.noise.csRecv (readAll popWire
          (toyReady.io.wireRx ++ [[frame.take 3, frame.drop 3]].flatten.flatten ++ [].flatten)).1).1 ↔
        KeepsFrames Noise.Sodium.toy toyReady.secure.noise.csRecv
          (toyReady.io.wireRx ++ [[frame.take 3, frame.drop 3]].flatten.flatten) [].flatten) := by
  intro frame run
  refine ⟨by decide +kernel, ?_⟩
  exact eof_keeps_frames_iff 1 3 ⟨[]⟩ true (some toyIdentity) [] _ toyReady_traced
    (by decide +kernel) (by decide +kernel) [[frame.take 3, frame.drop 3]] [] (by decide +kernel)
    (.inl rfl)

/-- The same frame in the call that sees the end of the stream is lost; with the end of
    the stream in a later call it is not. -/
theorem eof_drops_frame :
    let frame := toyFrame [104, 105] toyReady
    let received := (openAll Noise.Sodium.toy toyReady.secure.noise.csRecv
      (readAll popWire (toyReady.io.wireRx ++ frame)).1).1
    toyReady.state = .ready ∧ toyReady.io.socketOpen = true ∧
      (readAllBatches Noise.Sodium.toy [batch [frame] ++ [.data []]] toyReady).1 ≠ received ∧
      (readAllBatches Noise.Sodium.toy [batch [frame], [.data []]] toyReady).1 = received := by
  decide +kernel

end PeerCore.Connection
