import PeerCore.Yamux.Session

/-!
# The messages of an honest session

`Message` lists the frames a `YamuxSession` writes for its streams, with the
header and payload `write_frame` gets for each.

* `tryParseFrame_encode`, `tryParseFrame_append`: framing is unambiguous and a
  complete frame is parsed the same whatever follows it.
* `handleFrame_syn`, `handleFrame_data`, …: what `handle_frame` does with each
  message.
-/

namespace PeerCore.Yamux

/-! ## Framing -/

/-- The payload size `try_parse_frame` takes from the header. -/
def YamuxHeader.payloadSize (hdr : YamuxHeader) : ℕ :=
  if hdr.type = YamuxType.data.value then hdr.length.toNat else 0

theorem tryParseFrame_encodeFrame {hdr : YamuxHeader} {payload : Bytes}
    (h : payload.length = hdr.payloadSize) (rest : Bytes) :
    tryParseFrame (encodeFrame hdr payload ++ rest) = some (hdr, payload, rest) := by
  have hsize : ¬ (payload ++ rest).length < hdr.payloadSize := by simp; omega
  have hlt : ¬ (payload ++ rest).length <
      if hdr.type = YamuxType.data.value then hdr.length.toNat else 0 := hsize
  simp only [encodeFrame, BigEndian.encode16, BigEndian.encode32, List.cons_append,
    List.nil_append, tryParseFrame, BigEndian.decode16_encode16, BigEndian.decode32_encode32]
  rw [if_neg hlt]
  simp only [YamuxHeader.payloadSize] at h
  rw [← h, List.take_left, List.drop_left]

theorem tryParseFrame_append {buf payload rest : Bytes} {hdr : YamuxHeader}
    (h : tryParseFrame buf = some (hdr, payload, rest)) (ext : Bytes) :
    tryParseFrame (buf ++ ext) = some (hdr, payload, rest ++ ext) := by
  unfold tryParseFrame at h
  split at h
  · simp only [Option.ite_none_left_eq_some, Option.some.injEq, Prod.mk.injEq] at h
    obtain ⟨hlen, rfl, rfl, rfl⟩ := h
    simp only [List.cons_append, tryParseFrame]
    rw [if_neg (by rw [List.length_append]; omega),
      List.take_append_of_le_length (by omega), List.drop_append_of_le_length (by omega)]
  · cases h

theorem tryParseFrame_length {buf payload rest : Bytes} {hdr : YamuxHeader}
    (h : tryParseFrame buf = some (hdr, payload, rest)) : rest.length < buf.length := by
  unfold tryParseFrame at h
  split at h
  · simp only [Option.ite_none_left_eq_some, Option.some.injEq, Prod.mk.injEq] at h
    obtain ⟨-, -, -, rfl⟩ := h
    simp only [List.length_cons, List.length_drop]
    omega
  · cases h

@[simp] theorem hasFlag_value (f g : YamuxFlag) : hasFlag f.value g = decide (f = g) := by
  cases f <;> cases g <;> decide

@[simp] theorem hasFlag_zero (g : YamuxFlag) : hasFlag 0 g = false := by
  cases g <;> decide

/-! ## Messages -/

/-- A frame an honest session writes about one of its streams. -/
inductive Message
  | syn (sid : StreamId)
  | ack (sid : StreamId)
  | data (sid : StreamId) (payload : Bytes)
  | fin (sid : StreamId)
  | rst (sid : StreamId)
  | window (sid : StreamId) (delta : UInt32)
  deriving DecidableEq

namespace Message

/-- The stream that a message is about. -/
def sid : Message → StreamId
  | syn sid | ack sid | data sid _ | fin sid | rst sid | window sid _ => sid

/-- The header of its frame. -/
def header : Message → YamuxHeader
  | syn sid => Yamux.header .data YamuxFlag.syn.value sid 0
  | ack sid => Yamux.header .data YamuxFlag.ack.value sid 0
  | data sid payload => Yamux.header .data 0 sid (UInt32.ofNat payload.length)
  | fin sid => Yamux.header .data YamuxFlag.fin.value sid 0
  | rst sid => Yamux.header .data YamuxFlag.rst.value sid 0
  | window sid delta => Yamux.header .windowUpdate 0 sid delta

/-- The payload of its frame. -/
def payload : Message → Bytes
  | data _ payload => payload
  | _ => []

/-- Its frame. -/
def encode (m : Message) : Bytes := encodeFrame m.header m.payload

/-- The stream id is not 0; a data frame is not empty and its length fits the
    header; a window update is not 0. -/
def WellFormed (m : Message) : Prop :=
  m.sid ≠ 0 ∧ match m with
    | data _ payload => payload ≠ [] ∧ payload.length < 2 ^ 32
    | window _ delta => delta ≠ 0
    | _ => True

/-- The frames of a queue. -/
def encodeAll (ms : List Message) : Bytes := ms.flatMap encode

@[simp] theorem encodeAll_nil : encodeAll [] = [] := rfl

@[simp] theorem encodeAll_cons (m : Message) (ms : List Message) :
    encodeAll (m :: ms) = m.encode ++ encodeAll ms := rfl

@[simp] theorem encodeAll_append (ms ms' : List Message) :
    encodeAll (ms ++ ms') = encodeAll ms ++ encodeAll ms' := List.flatMap_append

theorem tryParseFrame_encode {m : Message} (h : m.WellFormed) (rest : Bytes) :
    tryParseFrame (m.encode ++ rest) = some (m.header, m.payload, rest) := by
  apply tryParseFrame_encodeFrame
  cases m with
  | data sid payload =>
    have hlt := h.2.2
    simp only [Message.payload, Message.header, Yamux.header, YamuxHeader.payloadSize, if_true,
      UInt32.toNat_ofNat']
    omega
  | _ => simp [Message.payload, Message.header, Yamux.header, YamuxHeader.payloadSize,
      YamuxType.value]

/-- When the buffered bytes are the front of a sequence of messages, the frame
    parsed from them is the first message. -/
theorem tryParseFrame_front {buf tail payload rest : Bytes} {hdr : YamuxHeader} {ms : List Message}
    (hms : ∀ m ∈ ms, m.WellFormed) (hbuf : buf ++ tail = encodeAll ms)
    (h : tryParseFrame buf = some (hdr, payload, rest)) :
    ∃ m ms', ms = m :: ms' ∧ hdr = m.header ∧ payload = m.payload ∧
      rest ++ tail = encodeAll ms' := by
  have happ := tryParseFrame_append h tail
  rw [hbuf] at happ
  cases ms with
  | nil => simp [tryParseFrame] at happ
  | cons m ms' =>
    rw [encodeAll_cons, tryParseFrame_encode (hms m (by simp))] at happ
    simp only [Option.some.injEq, Prod.mk.injEq] at happ
    obtain ⟨rfl, rfl, hrest⟩ := happ
    exact ⟨m, ms', rfl, rfl, rfl, hrest.symm⟩

end Message

/-! ## Receiving a message -/

section Handle

variable {E : Type} (cb : Callbacks E) (h : Host E)

/-- `handle_frame` on a stream frame without SYN. -/
theorem handleFrame_stream {hdr : YamuxHeader} {payload : Bytes}
    (hv : hdr.version = yamuxVersion)
    (ht : hdr.type = YamuxType.data.value ∨ hdr.type = YamuxType.windowUpdate.value)
    (hid : hdr.streamId ≠ 0) (hsyn : hasFlag hdr.flags .syn = false) :
    handleFrame cb hdr payload h = match h.1.streams hdr.streamId with
      | some stream => applyFrame cb hdr payload stream h
      | none => h := by
  have hping : hdr.type ≠ YamuxType.ping.value := by
    rcases ht with ht | ht <;> rw [ht] <;> decide
  have hgo : hdr.type ≠ YamuxType.goAway.value := by
    rcases ht with ht | ht <;> rw [ht] <;> decide
  unfold handleFrame YamuxSession.getOrCreateStream
  rw [if_neg (by simpa using hv), if_neg hping, if_neg hgo, if_neg (by tauto)]
  simp only [hsyn, Bool.false_and, Bool.false_eq_true, if_false]
  cases h.1.streams hdr.streamId <;> rfl

theorem handleFrame_ack {sid : StreamId} (hid : sid ≠ 0) :
    handleFrame cb (Message.ack sid).header (Message.ack sid).payload h = h := by
  rw [handleFrame_stream cb h (by rfl) (.inl rfl) hid (by simp [Message.header, header])]
  cases hs : h.1.streams (Message.ack sid).header.streamId with
  | none => rfl
  | some stream =>
    simp [applyFrame, Message.header, Message.payload, header, YamuxType.value]

theorem handleFrame_data {sid : StreamId} {payload : Bytes} (hid : sid ≠ 0) :
    handleFrame cb (Message.data sid payload).header (Message.data sid payload).payload h =
      match h.1.streams sid with
      | some stream => (h.1.setStream stream (·.receiveData payload), h.2)
      | none => h := by
  rw [handleFrame_stream cb h (by rfl) (.inl rfl) hid (by simp [Message.header, header])]
  have hsid : (Message.data sid payload).header.streamId = sid := rfl
  rw [hsid]
  cases hs : h.1.streams sid with
  | none => rfl
  | some stream =>
    by_cases hp : payload = []
    · subst hp
      simp [applyFrame, Message.header, Message.payload, header, YamuxType.value, YamuxSession.setStream, YamuxStream.receiveData]
    · simp [applyFrame, Message.header, Message.payload, header, YamuxType.value, hp]

theorem handleFrame_window {sid : StreamId} {delta : UInt32} (hid : sid ≠ 0) (hd : delta ≠ 0) :
    handleFrame cb (Message.window sid delta).header (Message.window sid delta).payload h =
      match h.1.streams sid with
      | some _ => (h.1.creditWindow sid delta, h.2)
      | none => h := by
  rw [handleFrame_stream cb h (by rfl) (.inr rfl) hid (by simp [Message.header, header])]
  have hsid : (Message.window sid delta).header.streamId = sid := rfl
  have hpos : 0 < delta := UInt32.pos_iff_ne_zero.mpr hd
  rw [hsid]
  cases hs : h.1.streams sid with
  | none => rfl
  | some stream =>
    simp [applyFrame, Message.header, Message.payload, header, YamuxType.value, hpos]

theorem handleFrame_fin {sid : StreamId} (hid : sid ≠ 0) (hclose : cb.close = none) :
    handleFrame cb (Message.fin sid).header (Message.fin sid).payload h =
      match h.1.streams sid with
      | some stream => (h.1.setStream stream YamuxStream.receiveFin, h.2)
      | none => h := by
  rw [handleFrame_stream cb h (by rfl) (.inl rfl) hid (by simp [Message.header, header])]
  have hsid : (Message.fin sid).header.streamId = sid := rfl
  rw [hsid]
  cases hs : h.1.streams sid with
  | none => rfl
  | some stream =>
    simp [applyFrame, Message.header, Message.payload, header, YamuxType.value, runClose, hclose]

theorem handleFrame_rst {sid : StreamId} (hid : sid ≠ 0) (hclose : cb.close = none) :
    handleFrame cb (Message.rst sid).header (Message.rst sid).payload h =
      match h.1.streams sid with
      | some stream => ((h.1.setStream stream YamuxStream.receiveRst).eraseStream sid, h.2)
      | none => h := by
  rw [handleFrame_stream cb h (by rfl) (.inl rfl) hid (by simp [Message.header, header])]
  have hsid : (Message.rst sid).header.streamId = sid := rfl
  rw [hsid]
  cases hs : h.1.streams sid with
  | none => rfl
  | some stream =>
    simp [applyFrame, Message.header, Message.payload, header, YamuxType.value, runClose, hclose]

/-- The SYN of a stream the session does not hold yet. -/
theorem handleFrame_syn {sid : StreamId} (hid : sid ≠ 0) (hremote : h.1.isRemoteStreamId sid = true)
    (hnone : h.1.streams sid = none) :
    handleFrame cb (Message.syn sid).header (Message.syn sid).payload h =
      acceptStream cb h.1.allocated sid (h.1.createStream sid, h.2) := by
  simp [handleFrame, Message.header, Message.payload, header, YamuxType.value, hid, hremote, hnone, YamuxSession.getOrCreateStream, applyFrame]

end Handle

end PeerCore.Yamux
