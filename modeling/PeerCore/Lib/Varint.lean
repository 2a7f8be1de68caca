import Mathlib

/-!
# Base-128 varints

The unsigned LEB128 codec of 64-bit values that protobuf and multistream-select
share: seven payload bits a byte, least significant group first, bit `0x80` set
on every byte but the last.

* `decode_encode`: the decoder reads back what the encoder wrote, and leaves
  the rest of the buffer.
* `decode_append`: a successful decode depends only on the bytes it consumed.
* `decode_invalid_append`: an overlong prefix stays invalid however the buffer
  is extended.
-/

namespace Varint

/-- The encoder loop, for at most `fuel` bytes. -/
def encodeLoop : ℕ → ℕ → List UInt8
  | 0, _ => []
  | fuel + 1, value =>
    let byte := value &&& 0x7F
    let value := value >>> 7
    if value ≠ 0 then UInt8.ofNat (byte ||| 0x80) :: encodeLoop fuel value else [UInt8.ofNat byte]

/-- The encoding of a 64-bit value: ten bytes always suffice. -/
def encode (value : UInt64) : List UInt8 := encodeLoop 10 value.toNat

/-- The two ways a decode fails. -/
inductive Error
  | invalid
  | incomplete
  deriving DecidableEq

/-- The decoder loop: the value read so far, the shift of the next group and the
    unread bytes. `uint64_t << shift` drops the bits from 2^64 on. -/
def decodeLoop : ℕ → ℕ → List UInt8 → Except Error (ℕ × List UInt8)
  | _, _, [] => .error .incomplete
  | value, shift, byte :: rest =>
    let value := value ||| ((byte.toNat &&& 0x7F) <<< shift) % 2 ^ 64
    if byte.toNat &&& 0x80 = 0 then .ok (value, rest)
    else if shift + 7 ≥ 64 then .error .invalid
    else decodeLoop value (shift + 7) rest

/-- The value at the head of `buf` and the bytes behind it. -/
def decode (buf : List UInt8) : Except Error (ℕ × List UInt8) := decodeLoop 0 0 buf

/-! ## Bits as arithmetic -/

theorem and_7f (n : ℕ) : n &&& 0x7F = n % 128 := Nat.and_two_pow_sub_one_eq_mod n 7

theorem shiftRight_7 (n : ℕ) : n >>> 7 = n / 128 := Nat.shiftRight_eq_div_pow n 7

theorem or_80 {n : ℕ} (h : n < 128) : n ||| 0x80 = n + 128 := by
  have := Nat.two_pow_add_eq_or_of_lt (i := 7) h 1
  rw [Nat.or_comm, show (0x80 : ℕ) = 2 ^ 7 * 1 from rfl, ← this]
  omega

theorem and_80 {n : ℕ} (h : n < 256) : n &&& 0x80 = n / 128 * 128 :=
  (by decide +kernel : ∀ i : Fin 256, i.val &&& 0x80 = i.val / 128 * 128) ⟨n, h⟩

/-- A group or-ed in above the value read so far is added to it. -/
theorem or_shift {value shift group : ℕ} (hv : value < 2 ^ shift) :
    value ||| (group * 2 ^ shift) = value + group * 2 ^ shift := by
  rw [← Nat.shiftLeft_eq, Nat.or_comm, ← Nat.shiftLeft_add_eq_or_of_lt hv, Nat.shiftLeft_eq,
    Nat.add_comm]

/-! ## Round trip -/

theorem encodeLoop_succ (fuel value : ℕ) :
    encodeLoop (fuel + 1) value =
      if value / 128 ≠ 0 then UInt8.ofNat (value % 128 + 128) :: encodeLoop fuel (value / 128)
      else [UInt8.ofNat (value % 128)] := by
  rw [encodeLoop]
  simp only [and_7f, shiftRight_7, or_80 (Nat.mod_lt value (by norm_num : 0 < 128))]

theorem encodeLoop_ne_nil (fuel value : ℕ) : encodeLoop (fuel + 1) value ≠ [] := by
  rw [encodeLoop_succ]
  split_ifs <;> simp

theorem encode_ne_nil (value : UInt64) : encode value ≠ [] := encodeLoop_ne_nil 9 value.toNat

/-- The decoder, started at `shift` on the encoding of the groups of `v` from
    there on, adds them to the value read so far. -/
theorem decodeLoop_encodeLoop (rest : List UInt8) :
    ∀ fuel value shift v, value < 2 ^ shift → v * 2 ^ shift < 2 ^ 64 → 0 < fuel →
      v < 128 ^ fuel → shift + 7 * fuel ≤ 70 →
      decodeLoop value shift (encodeLoop fuel v ++ rest) = .ok (value + v * 2 ^ shift, rest) := by
  intro fuel
  induction fuel with
  | zero => intro _ _ _ _ _ h0; omega
  | succ fuel ih =>
    intro value shift v hvalue hv _ hfuel hshift
    have hpow : 0 < 2 ^ shift := Nat.two_pow_pos shift
    have hgroup : ∀ g, g ≤ v → (g <<< shift) % 2 ^ 64 = g * 2 ^ shift := fun g hg => by
      rw [Nat.shiftLeft_eq]
      exact Nat.mod_eq_of_lt (lt_of_le_of_lt (Nat.mul_le_mul_right _ hg) hv)
    rw [encodeLoop_succ]
    split_ifs with hmore
    · have hb : (UInt8.ofNat (v % 128 + 128)).toNat = v % 128 + 128 := by
        rw [UInt8.toNat_ofNat']; omega
      have hmod : (v % 128 + 128) % 128 = v % 128 := by omega
      have hcont : (v % 128 + 128) &&& 0x80 ≠ 0 := by rw [and_80 (by omega)]; omega
      have hlast : shift + 7 < 64 := by
        by_contra hcon
        have h64 : 2 ^ 64 ≤ 128 * 2 ^ shift := by
          calc (2 : ℕ) ^ 64 ≤ 2 ^ (shift + 7) := Nat.pow_le_pow_right (by norm_num) (by omega)
            _ = 128 * 2 ^ shift := by rw [pow_add]; ring
        have h128 : 128 ≤ v := by omega
        have := Nat.mul_le_mul_right (2 ^ shift) h128
        omega
      have hfuel' : 0 < fuel := by
        rcases Nat.eq_zero_or_pos fuel with rfl | h
        · simp at hfuel; omega
        · exact h
      rw [List.cons_append, decodeLoop]
      simp only [hb, and_7f, hmod, if_neg hcont, if_neg (by omega : ¬ shift + 7 ≥ 64)]
      rw [hgroup (v % 128) (by omega), or_shift hvalue]
      have hsplit : v * 2 ^ shift = v % 128 * 2 ^ shift + v / 128 * 2 ^ (shift + 7) := by
        conv_lhs => rw [← Nat.div_add_mod v 128]
        rw [pow_add]; ring
      rw [ih _ _ _ ?_ ?_ hfuel' ?_ (by omega)]
      · rw [hsplit]; congr 2; ring
      · have : v % 128 < 128 := Nat.mod_lt _ (by norm_num)
        rw [pow_add]
        nlinarith
      · omega
      · rw [pow_succ] at hfuel
        omega
    · have hlt : v < 128 := by omega
      rw [Nat.mod_eq_of_lt hlt]
      have hb : (UInt8.ofNat v).toNat = v := by rw [UInt8.toNat_ofNat']; omega
      have hstop : v &&& 0x80 = 0 := by rw [and_80 (by omega)]; omega
      rw [List.cons_append, decodeLoop]
      simp only [hb, and_7f, if_pos hstop, Nat.mod_eq_of_lt hlt, List.nil_append]
      rw [hgroup v le_rfl, or_shift hvalue]

theorem decode_encode (value : UInt64) (rest : List UInt8) :
    decode (encode value ++ rest) = .ok (value.toNat, rest) := by
  have hlt := value.toNat_lt
  have := decodeLoop_encodeLoop rest 10 0 0 value.toNat (by norm_num) (by omega) (by norm_num)
    (by omega) (by norm_num)
  simpa [decode, encode] using this

/-! ## What a decode depends on -/

/-- A successful decode consumes a non-empty prefix of the buffer and does not
    look behind it. -/
theorem decodeLoop_ok {value shift : ℕ} {buf rest : List UInt8} {v : ℕ}
    (h : decodeLoop value shift buf = .ok (v, rest)) :
    ∃ pre, pre ≠ [] ∧ buf = pre ++ rest ∧
      ∀ rest', decodeLoop value shift (pre ++ rest') = .ok (v, rest') := by
  induction buf generalizing value shift with
  | nil => simp [decodeLoop] at h
  | cons byte tail ih =>
    rw [decodeLoop] at h
    split_ifs at h with hstop hmore
    · cases h
      refine ⟨[byte], by simp, by simp, fun rest' => ?_⟩
      rw [List.cons_append, decodeLoop]
      simp [hstop]
    · obtain ⟨pre, -, hbuf, hpre⟩ := ih h
      refine ⟨byte :: pre, by simp, by simp [hbuf], fun rest' => ?_⟩
      rw [List.cons_append, decodeLoop]
      simp only [if_neg hstop, if_neg hmore]
      exact hpre rest'

theorem decode_ok {buf rest : List UInt8} {v : ℕ} (h : decode buf = .ok (v, rest)) :
    ∃ pre, pre ≠ [] ∧ buf = pre ++ rest ∧ ∀ rest', decode (pre ++ rest') = .ok (v, rest') :=
  decodeLoop_ok h

theorem decode_append {buf rest : List UInt8} {v : ℕ} (h : decode buf = .ok (v, rest))
    (ext : List UInt8) : decode (buf ++ ext) = .ok (v, rest ++ ext) := by
  obtain ⟨pre, -, rfl, hpre⟩ := decode_ok h
  rw [List.append_assoc]
  exact hpre (rest ++ ext)

theorem decode_length_lt {buf rest : List UInt8} {v : ℕ} (h : decode buf = .ok (v, rest)) :
    rest.length < buf.length := by
  obtain ⟨pre, hne, rfl, -⟩ := decode_ok h
  have := List.length_pos_iff.mpr hne
  simp; omega

theorem decodeLoop_invalid_append {value shift : ℕ} {buf : List UInt8}
    (h : decodeLoop value shift buf = .error .invalid) (ext : List UInt8) :
    decodeLoop value shift (buf ++ ext) = .error .invalid := by
  induction buf generalizing value shift with
  | nil => simp [decodeLoop] at h
  | cons byte tail ih =>
    rw [decodeLoop] at h
    rw [List.cons_append, decodeLoop]
    split_ifs at h ⊢
    · rfl
    · exact ih h

theorem decode_invalid_append {buf : List UInt8} (h : decode buf = .error .invalid)
    (ext : List UInt8) : decode (buf ++ ext) = .error .invalid := decodeLoop_invalid_append h ext

end Varint
