import PeerCore.Lib.Protobuf
import PeerCore.Noise.Payload

/-!
# Length prefixes

Every length in the system is read by one of four copies of one loop
(`multistream_select.cpp:20-39`, `noise.cpp:28-45`, `connection_session.cpp:161-178`,
`swarm.cpp:22-39`). The loop guards the shift and not the value: the tenth byte is
shifted by 63, and the bits it has above its lowest are lost.

* `DecodesExactly`: the decoder returns the value of the base-128 sequence it consumes,
  and rejects the sequences whose value does not fit 64 bits.
* `decodes_exactly_iff`: it does so on the buffers whose tenth byte does not end a
  sequence with more than one bit.
* `tenth_byte_truncates`: a ten-byte sequence of value 2^64 is read as 0.
-/

namespace PeerCore

open Protobuf (Groups)

/-! ## Values -/

/-- Bytes with the continuation bit, and a last one without. -/
def Terminated (bytes : Bytes) : Prop :=
  ∃ init b, bytes = init ++ [b] ∧ (∀ c ∈ init, 128 ≤ c.toNat) ∧ b.toNat < 128

/-- The sum the bytes stand for, without wrap. -/
def uvarintValue (bytes : Bytes) : ℕ :=
  ∑ i : Fin bytes.length, (bytes.get i).toNat % 128 * 2 ^ (7 * i.val)

theorem uvarintValue_cons (b : UInt8) (bytes : Bytes) :
    uvarintValue (b :: bytes) = b.toNat % 128 + 128 * uvarintValue bytes := by
  have hshift : ∀ i : Fin bytes.length,
      ((b :: bytes).get i.succ).toNat % 128 * 2 ^ (7 * i.succ.val) =
        128 * ((bytes.get i).toNat % 128 * 2 ^ (7 * i.val)) := by
    intro i
    have hget : (b :: bytes).get i.succ = bytes.get i := rfl
    rw [hget, Fin.val_succ, Nat.mul_add, pow_add]
    ring
  show ∑ i : Fin (bytes.length + 1), _ = _
  rw [Fin.sum_univ_succ, Finset.sum_congr rfl fun i _ => hshift i, ← Finset.mul_sum]
  simp [uvarintValue]

theorem groups_value {bytes : Bytes} {v : ℕ} (h : Groups bytes v) : v = uvarintValue bytes := by
  induction h with
  | @last b hb =>
    rw [uvarintValue_cons, Nat.mod_eq_of_lt hb]
    simp [uvarintValue]
  | @more b bytes v hb hg ih =>
    have hlt := b.toNat_lt
    rw [uvarintValue_cons, ← ih]
    omega

theorem groups_terminated {bytes : Bytes} {v : ℕ} (h : Groups bytes v) : Terminated bytes := by
  induction h with
  | @last b hb => exact ⟨[], b, rfl, by simp, hb⟩
  | @more c bytes v hc hg ih =>
    obtain ⟨init, b, rfl, hinit, hb⟩ := ih
    refine ⟨c :: init, b, rfl, ?_, hb⟩
    intro d hd
    rcases List.mem_cons.mp hd with rfl | hd
    · exact hc
    · exact hinit d hd

theorem terminated_groups {bytes : Bytes} (h : Terminated bytes) :
    Groups bytes (uvarintValue bytes) := by
  obtain ⟨init, b, rfl, hinit, hb⟩ := h
  induction init with
  | nil =>
    have hone : Groups [b] b.toNat := .last hb
    rwa [groups_value hone] at hone
  | cons c init ih =>
    have hrest := ih fun d hd => hinit d (List.mem_cons_of_mem _ hd)
    have hmore : Groups (c :: (init ++ [b])) _ := .more (hinit c List.mem_cons_self) hrest
    rwa [groups_value hmore] at hmore

/-- The group reader accepts the terminated sequences, at their value. -/
theorem groups_iff {bytes : Bytes} {v : ℕ} :
    Groups bytes v ↔ Terminated bytes ∧ v = uvarintValue bytes := by
  constructor
  · intro h
    exact ⟨groups_terminated h, groups_value h⟩
  · rintro ⟨h, rfl⟩
    exact terminated_groups h

theorem shift_succ (n : ℕ) : 2 ^ (7 * (n + 1)) = 128 * 2 ^ (7 * n) := by
  rw [Nat.mul_add, pow_add]
  ring

/-- The last byte of a sequence over what the others can hold. -/
theorem uvarintValue_split (init : Bytes) (b : UInt8) (hb : b.toNat < 128) :
    ∃ low, uvarintValue (init ++ [b]) = low + b.toNat * 2 ^ (7 * init.length) ∧
      low < 2 ^ (7 * init.length) := by
  induction init with
  | nil =>
    refine ⟨0, ?_, by simp⟩
    rw [List.nil_append, uvarintValue_cons, Nat.mod_eq_of_lt hb]
    simp [uvarintValue]
  | cons c init ih =>
    obtain ⟨low, hvalue, hlow⟩ := ih
    have hshift := shift_succ init.length
    refine ⟨c.toNat % 128 + 128 * low, ?_, ?_⟩
    · rw [List.cons_append, uvarintValue_cons, hvalue, List.length_cons, hshift]
      ring
    · rw [List.length_cons, hshift]
      omega

/-- Ten bytes with the continuation bit are rejected whatever follows. -/
theorem decodeLoop_overlong {more : Bytes} :
    ∀ (init : Bytes) (value shift : ℕ), init ≠ [] → (∀ c ∈ init, 128 ≤ c.toNat) →
      64 ≤ shift + 7 * init.length →
      Varint.decodeLoop value shift (init ++ more) = .error .invalid := by
  intro init
  induction init with
  | nil => intro _ _ hne; exact absurd rfl hne
  | cons c init ih =>
    intro value shift _ hinit hlen
    have hc := hinit c List.mem_cons_self
    have hlt := c.toNat_lt
    rw [List.cons_append, Varint.decodeLoop]
    rw [if_neg (by rw [Varint.and_80 (by omega)]; omega)]
    by_cases hend : shift + 7 ≥ 64
    · rw [if_pos hend]
    · rw [if_neg hend]
      rw [List.length_cons] at hlen
      refine ih _ _ ?_ (fun d hd => hinit d (List.mem_cons_of_mem _ hd)) (by omega)
      rintro rfl
      simp at hlen
      omega

/-! ## The decoders -/

/-- A decoder is right about `buf`: what it returns is the value of the terminated sequence
    it consumed, which fits 64 bits, and a sequence of a larger value is invalid. -/
structure DecodesExactly (decode : Bytes → Result (ℕ × Bytes)) (invalid : String) (buf : Bytes) :
    Prop where
  sound : ∀ v rest, decode buf = .ok (v, rest) →
    ∃ taken, buf = taken ++ rest ∧ Terminated taken ∧ v = uvarintValue taken ∧ v < 2 ^ 64
  rejects : ∀ taken rest, buf = taken ++ rest → Terminated taken → 2 ^ 64 ≤ uvarintValue taken →
    decode buf = .error invalid

/-- Nine bytes go on, and the tenth ends the sequence and is more than 1. -/
def WideTenth (buf : Bytes) : Prop :=
  ∃ nine b rest, buf = nine ++ b :: rest ∧ nine.length = 9 ∧ (∀ c ∈ nine, 128 ≤ c.toNat) ∧
    1 < b.toNat ∧ b.toNat < 128

/-- A sequence that fits ten bytes fits 64 bits, unless its tenth byte is wide. -/
theorem value_fits {taken rest : Bytes} (h : Terminated taken) (hlen : taken.length ≤ 10)
    (hwide : ¬WideTenth (taken ++ rest)) : uvarintValue taken < 2 ^ 64 := by
  obtain ⟨init, b, rfl, hinit, hb⟩ := h
  obtain ⟨low, hvalue, hlow⟩ := uvarintValue_split init b hb
  rw [List.length_append, List.length_singleton] at hlen
  rw [hvalue]
  rcases Nat.lt_or_ge init.length 9 with hshort | hlong
  · calc low + b.toNat * 2 ^ (7 * init.length)
        < 2 ^ (7 * init.length) + b.toNat * 2 ^ (7 * init.length) := by omega
      _ = (b.toNat + 1) * 2 ^ (7 * init.length) := by ring
      _ ≤ 128 * 2 ^ (7 * init.length) := Nat.mul_le_mul_right _ hb
      _ = 2 ^ (7 * init.length + 7) := by rw [pow_add]; ring
      _ ≤ 2 ^ 64 := Nat.pow_le_pow_right (by norm_num) (by omega)
  · have hnine : init.length = 9 := by omega
    have hsmall : b.toNat ≤ 1 := by
      by_contra hbig
      exact hwide ⟨init, b, rest, by simp, hnine, hinit, by omega, hb⟩
    rw [hnine] at hlow ⊢
    calc low + b.toNat * 2 ^ (7 * 9) < 2 ^ (7 * 9) + b.toNat * 2 ^ (7 * 9) := by omega
      _ ≤ 2 ^ (7 * 9) + 1 * 2 ^ (7 * 9) := by
        have := Nat.mul_le_mul_right (2 ^ (7 * 9)) hsmall
        omega
      _ = 2 ^ 64 := by norm_num

theorem decodeVarint_eq_ok {invalid incomplete : String} {buf rest : Bytes} {v : ℕ} :
    decodeVarint invalid incomplete buf = .ok (v, rest) ↔
      ∃ wide, Protobuf.read buf = some (wide, rest) ∧ v = wide % 2 ^ 64 := by
  have hread := Protobuf.decode_read buf
  unfold decodeVarint
  cases hd : Varint.decode buf with
  | error e =>
    rw [hd] at hread
    have hnone : Protobuf.read buf = none := by simpa [Except.toOption] using hread.symm
    cases e <;> simp [hnone]
  | ok r =>
    rw [hd] at hread
    obtain ⟨⟨wide, rest'⟩, hsome, hr⟩ := Option.map_eq_some_iff.mp hread.symm
    rw [hsome]
    constructor
    · intro h
      cases h
      cases hr
      exact ⟨wide, rfl, rfl⟩
    · rintro ⟨wide', hw, rfl⟩
      cases hw
      rw [← hr]

/-- Every copy of the loop is right about exactly the buffers without a wide tenth byte. -/
theorem decodeVarint_exactly_iff (invalid incomplete : String) (buf : Bytes) :
    DecodesExactly (decodeVarint invalid incomplete) invalid buf ↔ ¬WideTenth buf := by
  constructor
  · rintro h ⟨nine, b, rest, rfl, hnine, hinit, hbig, hb⟩
    obtain ⟨low, hvalue, -⟩ := uvarintValue_split nine b hb
    have hsplit : nine ++ b :: rest = (nine ++ [b]) ++ rest := by simp
    have hterminated : Terminated (nine ++ [b]) := ⟨nine, b, rfl, hinit, hb⟩
    have hover : 2 ^ 64 ≤ uvarintValue (nine ++ [b]) := by
      have := Nat.mul_le_mul_right (2 ^ (7 * 9)) hbig
      rw [hvalue, hnine]
      omega
    have hread : Protobuf.read (nine ++ b :: rest) = some (uvarintValue (nine ++ [b]), rest) :=
      Protobuf.read_iff.mpr ⟨nine ++ [b], terminated_groups hterminated, by simp [hnine], hsplit⟩
    have hok : decodeVarint invalid incomplete (nine ++ b :: rest) =
        .ok (uvarintValue (nine ++ [b]) % 2 ^ 64, rest) :=
      decodeVarint_eq_ok.mpr ⟨_, hread, rfl⟩
    rw [h.rejects (nine ++ [b]) rest hsplit hterminated hover] at hok
    cases hok
  · intro hwide
    constructor
    · intro v rest h
      obtain ⟨wide, hread, rfl⟩ := decodeVarint_eq_ok.mp h
      obtain ⟨taken, hg, hlen, rfl⟩ := Protobuf.read_iff.mp hread
      obtain ⟨hterminated, rfl⟩ := groups_iff.mp hg
      have hfits := value_fits hterminated hlen hwide
      rw [Nat.mod_eq_of_lt hfits]
      exact ⟨taken, rfl, hterminated, rfl, hfits⟩
    · rintro taken rest rfl hterminated hover
      have hlen : 10 < taken.length := by
        by_contra hshort
        have := value_fits hterminated (by omega) hwide
        omega
      obtain ⟨init, b, rfl, hinit, -⟩ := hterminated
      rw [List.length_append, List.length_singleton] at hlen
      have hloop : Varint.decodeLoop 0 0 (init ++ ([b] ++ rest)) = .error .invalid :=
        decodeLoop_overlong init 0 0 (by rintro rfl; simp at hlen) hinit (by omega)
      rw [decodeVarint, Varint.decode, List.append_assoc, hloop]

/-- The length decoders of multistream-select, of Noise, and of the session and the swarm
    are right about a buffer exactly when it has no wide tenth byte. -/
theorem decodes_exactly_iff (buf : Bytes) :
    (DecodesExactly MultistreamSelect.decodeUvarint "invalid multistream length" buf ↔
      ¬WideTenth buf) ∧
    (DecodesExactly Noise.decodeUvarint "invalid protobuf varint" buf ↔ ¬WideTenth buf) ∧
    (DecodesExactly MultistreamSelect.decodeMultistreamLength "invalid multistream length" buf ↔
      ¬WideTenth buf) :=
  ⟨decodeVarint_exactly_iff _ _ buf, decodeVarint_exactly_iff _ _ buf,
    decodeVarint_exactly_iff _ _ buf⟩

/-- Nine bytes `0x80` and a tenth byte 2 are 2^64, and every decoder returns 0. -/
theorem tenth_byte_truncates :
    Terminated (List.replicate 9 0x80 ++ [2]) ∧
      uvarintValue (List.replicate 9 0x80 ++ [2]) = 2 ^ 64 ∧
      MultistreamSelect.decodeUvarint (List.replicate 9 0x80 ++ [2]) = .ok (0, []) ∧
      Noise.decodeUvarint (List.replicate 9 0x80 ++ [2]) = .ok (0, []) ∧
      MultistreamSelect.decodeMultistreamLength (List.replicate 9 0x80 ++ [2]) = .ok (0, []) := by
  have hread : Protobuf.read (List.replicate 9 0x80 ++ [2]) = some (2 ^ 64, []) := by
    decide +kernel
  obtain ⟨taken, hg, -, hsplit⟩ := Protobuf.read_iff.mp hread
  rw [List.append_nil] at hsplit
  obtain ⟨hterminated, hvalue⟩ := groups_iff.mp (hsplit ▸ hg)
  refine ⟨hterminated, hvalue.symm, ?_, ?_, ?_⟩ <;>
    exact decodeVarint_eq_ok.mpr ⟨2 ^ 64, hread, by norm_num⟩

end PeerCore
