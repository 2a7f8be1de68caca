import PeerCore.Lib.Incremental
import PeerCore.Yamux.Message

/-!
# Receiving bytes

* `handleFrame_rebuffer`: `handle_frame` neither reads nor changes `recv_buf_`.
* `receive_eq`: a call of `receive` handles the frames that `recv_buf_` then holds, in
  order, and keeps the bytes behind them.
* `receive_frames`: how the bytes are split over the calls makes no difference, and what
  `write_frame` wrote arrives frame by frame.
-/

namespace PeerCore.Yamux

open YamuxSession

/-- The next frame of a buffer, with its payload. -/
def popFrame (buf : Bytes) : Option ((YamuxHeader × Bytes) × Bytes) :=
  (tryParseFrame buf).map fun (hdr, payload, rest) => ((hdr, payload), rest)

theorem popFrame_of_parse {buf rest payload : Bytes} {hdr : YamuxHeader}
    (h : tryParseFrame buf = some (hdr, payload, rest)) : popFrame buf = some ((hdr, payload), rest) := by
  unfold popFrame
  rw [h]
  rfl

theorem popFrame_of_none {buf : Bytes} (h : tryParseFrame buf = none) : popFrame buf = none := by
  unfold popFrame
  rw [h]
  rfl

theorem popFrame_eq_some {buf rest : Bytes} {frame : YamuxHeader × Bytes}
    (h : popFrame buf = some (frame, rest)) : tryParseFrame buf = some (frame.1, frame.2, rest) := by
  unfold popFrame at h
  obtain ⟨⟨hdr, payload, rest'⟩, hparse, heq⟩ := Option.map_eq_some_iff.mp h
  simp only [Prod.mk.injEq] at heq
  obtain ⟨rfl, rfl⟩ := heq
  exact hparse

theorem popFrame_incremental : Incremental popFrame where
  shorter := fun h => tryParseFrame_length (popFrame_eq_some h)
  append := fun more h => popFrame_of_parse (tryParseFrame_append (popFrame_eq_some h) more)

/-- The bytes `write_frame` appends for a list of frames. -/
def encodeFrames (frames : List (YamuxHeader × Bytes)) : Bytes :=
  frames.flatMap fun f => encodeFrame f.1 f.2

/-- The payload has the length that the header says. -/
def Sized (f : YamuxHeader × Bytes) : Prop := f.2.length = f.1.payloadSize

instance : DecidablePred Sized := fun f => inferInstanceAs (Decidable (f.2.length = _))

section Receive

variable {E : Type}

/-- `recv_buf_` is replaced. -/
def rebuffer (buf : Bytes) (h : Host E) : Host E := ({ h.1 with recvBuf := buf }, h.2)

@[simp] theorem rebuffer_rebuffer (buf buf' : Bytes) (h : Host E) :
    rebuffer buf (rebuffer buf' h) = rebuffer buf h := rfl

@[simp] theorem rebuffer_recvBuf (buf : Bytes) (h : Host E) : (rebuffer buf h).1.recvBuf = buf := rfl

variable (cb : Callbacks E)

/-! ## `handle_frame` and `recv_buf_` -/

theorem runOutgoing_rebuffer (buf : Bytes) (h : Host E) :
    (runOutgoing cb (rebuffer buf h)).2 = rebuffer buf (runOutgoing cb h).2 := by
  unfold runOutgoing rebuffer
  cases cb.outgoing <;> rfl

theorem sendFrame_rebuffer (hdr : YamuxHeader) (payload buf : Bytes) (h : Host E) :
    (sendFrame cb hdr payload (rebuffer buf h)).2 = rebuffer buf (sendFrame cb hdr payload h).2 :=
  runOutgoing_rebuffer cb buf (h.1.writeFrame hdr payload, h.2)

theorem creditWindow_rebuffer (sid : StreamId) (delta : UInt32) (buf : Bytes) (s : YamuxSession) :
    { s with recvBuf := buf }.creditWindow sid delta = { s.creditWindow sid delta with recvBuf := buf } := by
  unfold creditWindow
  cases s.sendWindows sid <;> rfl

theorem runClose_rebuffer (sid : StreamId) (detail : String) (buf : Bytes) (h : Host E) :
    runClose cb sid detail (rebuffer buf h) = rebuffer buf (runClose cb sid detail h) := by
  unfold runClose
  cases cb.close <;> rfl

theorem acceptStream_rebuffer (stream : ℕ) (sid : StreamId) (buf : Bytes) (h : Host E) :
    acceptStream cb stream sid (rebuffer buf h) = rebuffer buf (acceptStream cb stream sid h) := by
  unfold acceptStream
  cases cb.accept with
  | none => exact sendFrame_rebuffer cb _ _ buf h
  | some accept => exact sendFrame_rebuffer cb _ _ buf (h.1, accept stream sid h.2)

/-! ### The stages of `applyFrame` -/

/-- The window of the stream is credited. -/
def creditStage (hdr : YamuxHeader) (h : Host E) : Host E :=
  if hdr.type = YamuxType.windowUpdate.value ∧ hdr.length > 0
  then (h.1.creditWindow hdr.streamId hdr.length, h.2) else h

/-- The payload is appended. -/
def dataStage (payload : Bytes) (stream : ℕ) (h : Host E) : Host E :=
  if payload ≠ [] then (h.1.setStream stream (·.receiveData payload), h.2) else h

/-- FIN. -/
def finStage (hdr : YamuxHeader) (stream : ℕ) (h : Host E) : Host E :=
  if hasFlag hdr.flags .fin then
    let h := (h.1.setStream stream YamuxStream.receiveFin, h.2)
    if (h.1.heap stream).isOpen then h else runClose cb hdr.streamId "yamux stream closed" h
  else h

/-- RST. -/
def rstStage (hdr : YamuxHeader) (stream : ℕ) (h : Host E) : Host E :=
  if hasFlag hdr.flags .rst then
    let h := (h.1.setStream stream YamuxStream.receiveRst, h.2)
    let h := runClose cb hdr.streamId "yamux stream reset by peer" h
    (h.1.eraseStream hdr.streamId, h.2)
  else h

theorem applyFrame_eq (hdr : YamuxHeader) (payload : Bytes) (stream : ℕ) (h : Host E) :
    applyFrame cb hdr payload stream h =
      rstStage cb hdr stream (finStage cb hdr stream (dataStage payload stream (creditStage hdr h))) := rfl

theorem creditStage_rebuffer (hdr : YamuxHeader) (buf : Bytes) (h : Host E) :
    creditStage hdr (rebuffer buf h) = rebuffer buf (creditStage hdr h) := by
  unfold creditStage
  split_ifs
  · exact congrArg (fun s => (s, h.2)) (creditWindow_rebuffer hdr.streamId hdr.length buf h.1)
  · rfl

theorem dataStage_rebuffer (payload : Bytes) (stream : ℕ) (buf : Bytes) (h : Host E) :
    dataStage payload stream (rebuffer buf h) = rebuffer buf (dataStage payload stream h) := by
  unfold dataStage
  split_ifs <;> rfl

theorem finStage_rebuffer (hdr : YamuxHeader) (stream : ℕ) (buf : Bytes) (h : Host E) :
    finStage cb hdr stream (rebuffer buf h) = rebuffer buf (finStage cb hdr stream h) := by
  have hclose := runClose_rebuffer cb hdr.streamId "yamux stream closed" buf
    (h.1.setStream stream YamuxStream.receiveFin, h.2)
  have hheap : ((rebuffer buf h).1.setStream stream YamuxStream.receiveFin).heap =
      (h.1.setStream stream YamuxStream.receiveFin).heap := rfl
  unfold finStage
  dsimp only
  rw [hheap]
  split_ifs
  · rfl
  · exact hclose
  · rfl

theorem rstStage_rebuffer (hdr : YamuxHeader) (stream : ℕ) (buf : Bytes) (h : Host E) :
    rstStage cb hdr stream (rebuffer buf h) = rebuffer buf (rstStage cb hdr stream h) := by
  have hclose := runClose_rebuffer cb hdr.streamId "yamux stream reset by peer" buf
    (h.1.setStream stream YamuxStream.receiveRst, h.2)
  unfold rstStage
  split_ifs
  · exact congrArg (fun h : Host E => (h.1.eraseStream hdr.streamId, h.2)) hclose
  · rfl

theorem applyFrame_rebuffer (hdr : YamuxHeader) (payload : Bytes) (stream : ℕ) (buf : Bytes) (h : Host E) :
    applyFrame cb hdr payload stream (rebuffer buf h) =
      rebuffer buf (applyFrame cb hdr payload stream h) := by
  rw [applyFrame_eq, applyFrame_eq, creditStage_rebuffer, dataStage_rebuffer, finStage_rebuffer,
    rstStage_rebuffer]

theorem getOrCreateStream_rebuffer (sid : StreamId) (openIfMissing : Bool) (buf : Bytes) (s : YamuxSession) :
    { s with recvBuf := buf }.getOrCreateStream sid openIfMissing =
      ((s.getOrCreateStream sid openIfMissing).1,
        { (s.getOrCreateStream sid openIfMissing).2 with recvBuf := buf }) := by
  unfold getOrCreateStream
  cases s.streams sid with
  | some stream => rfl
  | none => cases openIfMissing <;> rfl

/-- The stream part of `handle_frame`. -/
def streamStage (hdr : YamuxHeader) (payload : Bytes) (h : Host E) : Host E :=
  match h.1.getOrCreateStream hdr.streamId (hasFlag hdr.flags .syn) with
  | (none, s) => (s, h.2)
  | (some stream, s) =>
    applyFrame cb hdr payload stream
      (if hasFlag hdr.flags .syn && !(h.1.streams hdr.streamId).isSome
        then acceptStream cb stream hdr.streamId (s, h.2) else (s, h.2))

theorem streamStage_rebuffer (hdr : YamuxHeader) (payload buf : Bytes) (h : Host E) :
    streamStage cb hdr payload (rebuffer buf h) = rebuffer buf (streamStage cb hdr payload h) := by
  have hget : (rebuffer buf h).1.getOrCreateStream hdr.streamId (hasFlag hdr.flags .syn) =
      ((h.1.getOrCreateStream hdr.streamId (hasFlag hdr.flags .syn)).1,
        { (h.1.getOrCreateStream hdr.streamId (hasFlag hdr.flags .syn)).2 with recvBuf := buf }) :=
    getOrCreateStream_rebuffer _ _ buf h.1
  have hstreams : (rebuffer buf h).1.streams = h.1.streams := rfl
  unfold streamStage
  rw [hget, hstreams]
  rcases h.1.getOrCreateStream hdr.streamId (hasFlag hdr.flags .syn) with ⟨_ | stream, s⟩
  · rfl
  · have hnew : (({ s with recvBuf := buf }, (rebuffer buf h).2) : Host E) = rebuffer buf (s, h.2) := rfl
    dsimp only
    rw [hnew, acceptStream_rebuffer, ← applyFrame_rebuffer]
    split_ifs <;> rfl

theorem handleFrame_eq (hdr : YamuxHeader) (payload : Bytes) (h : Host E) :
    handleFrame cb hdr payload h =
      if hdr.version ≠ yamuxVersion then h
      else if hdr.type = YamuxType.ping.value then
        if hasFlag hdr.flags .ack then h else (sendPingAck cb hdr.length h).2
      else if hdr.type = YamuxType.goAway.value then ({ h.1 with remoteGoAway := true }, h.2)
      else if ¬ (hdr.type = YamuxType.data.value ∨ hdr.type = YamuxType.windowUpdate.value) ∨
          hdr.streamId = 0 then h
      else if hasFlag hdr.flags .syn && !h.1.isRemoteStreamId hdr.streamId then
        (sendGoAway cb .protocolError h).2
      else streamStage cb hdr payload h := rfl

/-- The frame is handled as it would be with any other buffer. -/
theorem handleFrame_rebuffer (hdr : YamuxHeader) (payload buf : Bytes) (h : Host E) :
    handleFrame cb hdr payload (rebuffer buf h) = rebuffer buf (handleFrame cb hdr payload h) := by
  have hremote : (rebuffer buf h).1.isRemoteStreamId hdr.streamId = h.1.isRemoteStreamId hdr.streamId := rfl
  rw [handleFrame_eq, handleFrame_eq, hremote, streamStage_rebuffer, sendGoAway, sendPingAck,
    sendFrame_rebuffer, sendFrame_rebuffer]
  split_ifs <;> rfl

/-! ## The loop -/

/-- The frames of a list are handled one after the other. -/
def handleFrames (frames : List (YamuxHeader × Bytes)) (h : Host E) : Host E :=
  frames.foldl (fun h f => handleFrame cb f.1 f.2 h) h

theorem handleFrames_rebuffer (frames : List (YamuxHeader × Bytes)) (buf : Bytes) (h : Host E) :
    handleFrames cb frames (rebuffer buf h) = rebuffer buf (handleFrames cb frames h) := by
  induction frames generalizing h with
  | nil => rfl
  | cons f frames ih =>
    show handleFrames cb frames (handleFrame cb f.1 f.2 (rebuffer buf h)) = _
    rw [handleFrame_rebuffer, ih]
    rfl

theorem processFramesLoop_eq (fuel : ℕ) (h : Host E) :
    processFramesLoop cb fuel h =
      rebuffer (readLoop popFrame fuel h.1.recvBuf).2
        (handleFrames cb (readLoop popFrame fuel h.1.recvBuf).1 h) := by
  induction fuel generalizing h with
  | zero => rfl
  | succ fuel ih =>
    rw [processFramesLoop, readLoop]
    cases hparse : tryParseFrame h.1.recvBuf with
    | none =>
      rw [popFrame_of_none hparse]
      rfl
    | some frame =>
      obtain ⟨hdr, payload, rest⟩ := frame
      rw [popFrame_of_parse hparse]
      dsimp only
      have hhandle : handleFrame cb hdr payload ({ h.1 with recvBuf := rest }, h.2) =
          rebuffer rest (handleFrame cb hdr payload h) := handleFrame_rebuffer cb hdr payload rest h
      rw [hhandle, ih, handleFrames_rebuffer]
      rfl

/-- The bytes are appended; what is then complete is handled, and the rest stays. -/
theorem receive_eq (data : Bytes) (h : Host E) :
    (receive cb data h).2 =
      rebuffer (readAll popFrame (h.1.recvBuf ++ data)).2
        (handleFrames cb (readAll popFrame (h.1.recvBuf ++ data)).1 h) := by
  show processFramesLoop cb (h.1.recvBuf ++ data).length (rebuffer (h.1.recvBuf ++ data) h) = _
  rw [processFramesLoop_eq, handleFrames_rebuffer]
  rfl

/-- Two calls do what one call with all the bytes does. -/
theorem receive_append (a b : Bytes) (h : Host E) :
    (receive cb b (receive cb a h).2).2 = (receive cb (a ++ b) h).2 := by
  rw [receive_eq cb a, receive_eq cb b, receive_eq cb (a ++ b), rebuffer_recvBuf, handleFrames_rebuffer,
    rebuffer_rebuffer, ← List.append_assoc, popFrame_incremental.readAll_append (h.1.recvBuf ++ a) b]
  unfold handleFrames
  rw [List.foldl_append]

/-- Any number of calls. -/
def receiveAll (chunks : List Bytes) (h : Host E) : Host E :=
  chunks.foldl (fun h chunk => (receive cb chunk h).2) h

theorem receiveAll_cons (chunk : Bytes) (chunks : List Bytes) (h : Host E) :
    receiveAll cb (chunk :: chunks) h = (receive cb (chunk ++ chunks.flatten) h).2 := by
  induction chunks generalizing chunk h with
  | nil =>
    rw [List.flatten_nil, List.append_nil]
    rfl
  | cons next chunks ih =>
    show receiveAll cb (next :: chunks) (receive cb chunk h).2 = _
    rw [ih, receive_append, List.flatten_cons]

theorem readAll_nil : readAll popFrame [] = ([], []) := rfl

/-- Calls on a session that waits for no rest of a frame. -/
theorem receiveAll_eq (chunks : List Bytes) (h : Host E) (hempty : h.1.recvBuf = []) :
    receiveAll cb chunks h = (receive cb chunks.flatten h).2 := by
  cases chunks with
  | nil =>
    rw [receive_eq, hempty, List.flatten_nil, List.append_nil, readAll_nil, ← hempty]
    rfl
  | cons chunk chunks => rw [receiveAll_cons, List.flatten_cons]

/-! ## What `write_frame` wrote -/

theorem encodeFrames_cons (f : YamuxHeader × Bytes) (frames : List (YamuxHeader × Bytes)) :
    encodeFrames (f :: frames) = encodeFrame f.1 f.2 ++ encodeFrames frames := rfl

/-- What is read of the front of written frames: some of them, and a part of the next one
    stays. -/
theorem readAll_front {frames : List (YamuxHeader × Bytes)} (hsized : ∀ f ∈ frames, Sized f)
    {buf more : Bytes} (hbuf : buf ++ more = encodeFrames frames) :
    ∃ handled waiting tail, frames = handled ++ waiting ∧ readAll popFrame buf = (handled, tail) ∧
      buf = encodeFrames handled ++ tail ∧ tail ++ more = encodeFrames waiting ∧
      ∀ f rest, waiting = f :: rest → tail.length < (encodeFrame f.1 f.2).length := by
  have hread : ∀ f ∈ frames, ∀ more, popFrame (encodeFrame f.1 f.2 ++ more) = some (f, more) :=
    fun f hf more => popFrame_of_parse (tryParseFrame_encodeFrame (hsized f hf) more)
  obtain ⟨handled, waiting, tail, hframes, hitems, hbytes, hleft, hpart⟩ :=
    popFrame_incremental.readAll_front hread hbuf
  rw [List.map_id'] at hitems
  exact ⟨handled, waiting, tail, hframes, hitems, hbytes, hleft, hpart⟩

/-- Bytes that come in two calls leave the session, what it sends and what its callbacks
    were given as if they had come in one. And when the bytes received so far are the
    front of frames that `write_frame` wrote, in whatever parts they came, exactly the
    complete ones were handed to `handle_frame`, in order, and `recv_buf_` holds the part
    of the next one that has arrived. -/
theorem receive_frames (h : Host E) :
    (∀ a b : Bytes, (receive cb b (receive cb a h).2).2 = (receive cb (a ++ b) h).2) ∧
    ∀ frames : List (YamuxHeader × Bytes), (∀ f ∈ frames, Sized f) → h.1.recvBuf = [] →
      ∀ (chunks : List Bytes) (more : Bytes), chunks.flatten ++ more = encodeFrames frames →
        ∃ handled waiting tail, frames = handled ++ waiting ∧
          receiveAll cb chunks h = rebuffer tail (handleFrames cb handled h) ∧
          chunks.flatten = encodeFrames handled ++ tail ∧
          (∀ f rest, waiting = f :: rest → tail.length < (encodeFrame f.1 f.2).length) ∧
          (more = [] → waiting = [] ∧ tail = []) := by
  refine ⟨fun a b => receive_append cb a b h, fun frames hsized hempty chunks more hbytes => ?_⟩
  obtain ⟨handled, waiting, tail, hframes, hread, hfront, hleft, hpart⟩ := readAll_front hsized hbytes
  refine ⟨handled, waiting, tail, hframes, ?_, hfront, hpart, ?_⟩
  · rw [receiveAll_eq cb chunks h hempty, receive_eq, hempty, List.nil_append, hread]
  · rintro rfl
    -- the rest of the frames is the rest of the bytes
    rw [List.append_nil] at hleft
    cases waiting with
    | nil => exact ⟨rfl, hleft⟩
    | cons f rest =>
      have hshort := hpart f rest rfl
      rw [hleft, encodeFrames_cons, List.length_append] at hshort
      omega

end Receive

/-- A SYN and a data frame in three parts, cut inside a header and inside a payload. -/
theorem receive_frames_split :
    let cb : Callbacks Unit := { accept := none, outgoing := none, close := none }
    let h : Host Unit := (YamuxSession.make 1 false, ())
    let frames := [((Message.syn 1).header, []), ((Message.data 1 [7, 8, 9]).header, [7, 8, 9])]
    receiveAll cb [(Message.syn 1).encode.take 5,
        (Message.syn 1).encode.drop 5 ++ (Message.data 1 [7, 8, 9]).encode.take 13,
        (Message.data 1 [7, 8, 9]).encode.drop 13] h = rebuffer [] (handleFrames cb frames h) := by
  intro cb h frames
  obtain ⟨handled, waiting, tail, hframes, hrun, -, -, hall⟩ := (receive_frames cb h).2 frames (by decide)
    rfl [(Message.syn 1).encode.take 5,
      (Message.syn 1).encode.drop 5 ++ (Message.data 1 [7, 8, 9]).encode.take 13,
      (Message.data 1 [7, 8, 9]).encode.drop 13] [] (by decide)
  obtain ⟨rfl, rfl⟩ := hall rfl
  rw [hrun, hframes, List.append_nil]

end PeerCore.Yamux
