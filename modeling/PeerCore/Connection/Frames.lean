import PeerCore.Lib.Incremental
import PeerCore.Lib.BigEndian
import PeerCore.Connection.State

/-!
# The frames of the wire

Every handshake and transport message crosses the wire as `NoiseHandshake::encode_frame`
writes it, a big-endian 16-bit length and the message, and is cut out of the receive
buffer by `try_pop_wire_frame`, whatever chunks `recv` returned.

* `popWire`: `try_pop_wire_frame`, whose decode error is out of reach.
* `popWire_incremental`: what follows a frame does not change it.
* `frames_reassembled`: the messages written are the messages popped.
-/

namespace PeerCore.Connection

/-! ## Popping -/

/-- `try_pop_wire_frame`, which never fails. -/
def popWire (buffer : Bytes) : Option (Bytes × Bytes) :=
  match tryPopWireFrame buffer with
  | .ok popped => popped
  | .error _ => none

theorem tryPopWireFrame_cons (b0 b1 : UInt8) (tail : Bytes) :
    tryPopWireFrame (b0 :: b1 :: tail) =
      if tail.length < Noise.frameLength b0 b1 then .ok none
      else .ok (some (tail.take (Noise.frameLength b0 b1), tail.drop (Noise.frameLength b0 b1))) := by
  have hlong : (b0 :: b1 :: tail).length < Noise.frameLength b0 b1 + 2 ↔
      tail.length < Noise.frameLength b0 b1 := by
    simp only [List.length_cons]
    omega
  rw [tryPopWireFrame]
  simp only [hlong]
  split_ifs with hshort
  · rfl
  · have hframe : Noise.decodeFrame ((b0 :: b1 :: tail).take (Noise.frameLength b0 b1 + 2)) =
        .ok (tail.take (Noise.frameLength b0 b1)) := by
      simp only [List.take_succ_cons, Noise.decodeFrame]
      rw [if_neg]
      rw [List.length_take, ne_eq, Decidable.not_not]
      omega
    rw [hframe]
    rfl

theorem popWire_cons (b0 b1 : UInt8) (tail : Bytes) :
    popWire (b0 :: b1 :: tail) =
      if tail.length < Noise.frameLength b0 b1 then none
      else some (tail.take (Noise.frameLength b0 b1), tail.drop (Noise.frameLength b0 b1)) := by
  unfold popWire
  rw [tryPopWireFrame_cons]
  split_ifs <;> rfl

theorem tryPopWireFrame_eq (buffer : Bytes) : tryPopWireFrame buffer = .ok (popWire buffer) := by
  match buffer with
  | [] => rfl
  | [_] => rfl
  | b0 :: b1 :: tail =>
    rw [tryPopWireFrame_cons, popWire_cons]
    split_ifs <;> rfl

theorem popWire_eq_some {buffer frame rest : Bytes} (h : popWire buffer = some (frame, rest)) :
    ∃ b0 b1 tail, buffer = b0 :: b1 :: tail ∧ Noise.frameLength b0 b1 ≤ tail.length ∧
      frame = tail.take (Noise.frameLength b0 b1) ∧ rest = tail.drop (Noise.frameLength b0 b1) := by
  match buffer with
  | [] => cases h
  | [_] => cases h
  | b0 :: b1 :: tail =>
    rw [popWire_cons] at h
    split_ifs at h with hshort
    cases h
    exact ⟨b0, b1, tail, rfl, not_lt.mp hshort, rfl, rfl⟩

theorem popWire_incremental : Incremental popWire where
  shorter := fun {buf frame rest} hpop => by
    obtain ⟨b0, b1, tail, rfl, hlen, -, rfl⟩ := popWire_eq_some hpop
    simp only [List.length_cons, List.length_drop]
    omega
  append := fun {buf frame rest} more hpop => by
    obtain ⟨b0, b1, tail, rfl, hlen, rfl, rfl⟩ := popWire_eq_some hpop
    rw [List.cons_append, List.cons_append, popWire_cons, if_neg (by rw [List.length_append]; omega),
      List.take_append_of_le_length hlen, List.drop_append_of_le_length hlen]

/-! ## What `encode_frame` wrote -/

/-- The frame of a message that is not too long. -/
def frameOf (message : Bytes) : Bytes :=
  UInt8.ofNat (message.length >>> 8 &&& 0xFF) :: UInt8.ofNat (message.length &&& 0xFF) :: message

theorem frameLength_frameOf {message : Bytes} (hlen : message.length ≤ 65535) :
    Noise.frameLength (UInt8.ofNat (message.length >>> 8 &&& 0xFF))
      (UInt8.ofNat (message.length &&& 0xFF)) = message.length := by
  have hhigh : message.length >>> 8 &&& 0xFF = message.length / 256 := by
    rw [BigEndian.shiftRight_and_ff]
    omega
  have hlow : message.length &&& 0xFF = message.length % 256 := by
    simpa using BigEndian.shiftRight_and_ff message.length 0
  rw [Noise.frameLength, hhigh, hlow, UInt8.toNat_ofNat', UInt8.toNat_ofNat', Nat.shiftLeft_eq,
    BigEndian.mul_pow_or (Nat.mod_lt _ (by norm_num))]
  omega

theorem encodeFrame_eq {message : Bytes} (hlen : message.length ≤ 65535) :
    Noise.encodeFrame message = .ok (frameOf message) :=
  if_neg (not_lt.mpr hlen)

theorem encodeFrames_eq {messages : List Bytes} (hlen : ∀ m ∈ messages, m.length ≤ 65535) :
    messages.mapM Noise.encodeFrame = .ok (messages.map frameOf) := by
  induction messages with
  | nil => rfl
  | cons m messages ih =>
    rw [List.mapM_cons, encodeFrame_eq (hlen m List.mem_cons_self),
      ih fun m' hm' => hlen m' (List.mem_cons_of_mem _ hm')]
    rfl

theorem popWire_frameOf {message : Bytes} (hlen : message.length ≤ 65535) (more : Bytes) :
    popWire (frameOf message ++ more) = some (message, more) := by
  show popWire (_ :: _ :: (message ++ more)) = _
  rw [popWire_cons, frameLength_frameOf hlen, if_neg (by rw [List.length_append]; omega),
    List.take_left, List.drop_left]

/-- `try_pop_wire_frame` reports no error on any buffer. When the chunks appended so far
    are the front of the frames of `messages`, popping until it returns false after each
    has given the messages whose frames are complete, in order, and a part of the next
    frame is left; after all the bytes these are all the messages, and nothing is left. -/
theorem frames_reassembled :
    (∀ buffer error, tryPopWireFrame buffer ≠ .error error) ∧
    ∀ messages : List Bytes, (∀ m ∈ messages, m.length ≤ 65535) →
      ∃ frames, messages.mapM Noise.encodeFrame = .ok frames ∧
        ∀ (chunks : List Bytes) (more : Bytes), chunks.flatten ++ more = frames.flatten →
          ∃ handled waiting tail, messages = handled ++ waiting ∧
            readChunks popWire [] chunks = (handled, tail) ∧
            tryPopWireFrame tail = .ok none ∧
            (∀ m rest, waiting = m :: rest → ∃ frame, Noise.encodeFrame m = .ok frame ∧
              tail <+: frame ∧ tail.length < frame.length) ∧
            (more = [] → handled = messages ∧ tail = []) := by
  refine ⟨fun buffer error herror => ?_, fun messages hlen => ?_⟩
  · rw [tryPopWireFrame_eq] at herror
    cases herror
  refine ⟨messages.map frameOf, encodeFrames_eq hlen, fun chunks more hbytes => ?_⟩
  have hpop : ∀ m ∈ messages, ∀ more, popWire (frameOf m ++ more) = some (id m, more) :=
    fun m hm => popWire_frameOf (hlen m hm)
  rw [← List.flatMap_def] at hbytes
  obtain ⟨handled, waiting, tail, hmessages, hread, -, hleft, hpart⟩ :=
    popWire_incremental.readAll_front hpop hbytes
  rw [List.map_id] at hread
  refine ⟨handled, waiting, tail, hmessages, ?_, ?_, ?_, ?_⟩
  · rw [popWire_incremental.readChunks_eq chunks rfl, List.nil_append, hread]
  · have hrest := popWire_incremental.pop_rest chunks.flatten
    rw [hread] at hrest
    rw [tryPopWireFrame_eq, hrest]
  · rintro m rest rfl
    have hshort := hpart m rest rfl
    refine ⟨frameOf m, encodeFrame_eq (hlen m (by simp [hmessages])), ?_, hshort⟩
    rw [List.flatMap_cons] at hleft
    exact List.prefix_of_prefix_length_le ⟨more, hleft⟩ (List.prefix_append _ _) hshort.le
  · rintro rfl
    rw [List.append_nil] at hleft
    cases waiting with
    | nil => exact ⟨by rw [hmessages, List.append_nil], hleft⟩
    | cons m rest =>
      have hshort := hpart m rest rfl
      rw [hleft, List.flatMap_cons, List.length_append] at hshort
      omega

/-- Three messages, one of them empty, in chunks cut inside a length and inside a message. -/
theorem frames_reassembled_toy :
    readChunks popWire [] [[0], [2, 7], [8, 0], [0, 0, 1, 9]] = ([[7, 8], [], [9]], []) := by
  obtain ⟨frames, hframes, hchunks⟩ := frames_reassembled.2 [[7, 8], [], [9]] (by decide)
  obtain rfl : frames = [[0, 2, 7, 8], [0, 0], [0, 1, 9]] :=
    (Except.ok.inj hframes).symm
  obtain ⟨handled, waiting, tail, -, hread, -, -, hall⟩ :=
    hchunks [[0], [2, 7], [8, 0], [0, 0, 1, 9]] [] (by decide)
  obtain ⟨rfl, rfl⟩ := hall rfl
  exact hread

end PeerCore.Connection
