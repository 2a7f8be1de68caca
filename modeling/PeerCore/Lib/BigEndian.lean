import Mathlib

/-!
# Big-endian integers

Two- and four-byte big-endian codecs, written with the shifts and masks of the
usual C code.

* `decode16_encode16`, `decode32_encode32`: the round trips.
-/

namespace BigEndian

/-- Append a 16-bit value. -/
def encode16 (value : UInt16) : List UInt8 :=
  [((value >>> 8) &&& 0xFF).toUInt8, (value &&& 0xFF).toUInt8]

/-- Append a 32-bit value. -/
def encode32 (value : UInt32) : List UInt8 :=
  [((value >>> 24) &&& 0xFF).toUInt8, ((value >>> 16) &&& 0xFF).toUInt8,
    ((value >>> 8) &&& 0xFF).toUInt8, (value &&& 0xFF).toUInt8]

/-- Two bytes as a number, the high byte first. -/
def decode16 (b0 b1 : UInt8) : UInt16 := (b0.toUInt16 <<< 8) ||| b1.toUInt16

/-- Four bytes as a number, the highest byte first. -/
def decode32 (b0 b1 b2 b3 : UInt8) : UInt32 :=
  (b0.toUInt32 <<< 24) ||| (b1.toUInt32 <<< 16) ||| (b2.toUInt32 <<< 8) ||| b3.toUInt32

/-- The low byte of a shifted value. -/
theorem shiftRight_and_ff (v k : ℕ) : v >>> k &&& 255 = v / 2 ^ k % 256 := by
  rw [Nat.shiftRight_eq_div_pow, show 255 = 2 ^ 8 - 1 by norm_num, Nat.and_two_pow_sub_one_eq_mod]

/-- Joining a multiple of `2 ^ k` with a value that fits below it. -/
theorem mul_pow_or {a b k : ℕ} (h : b < 2 ^ k) : a * 2 ^ k ||| b = a * 2 ^ k + b := by
  rw [← Nat.shiftLeft_eq, Nat.shiftLeft_add_eq_or_of_lt h]

@[simp] theorem encode16_length (value : UInt16) : (encode16 value).length = 2 := rfl

@[simp] theorem encode32_length (value : UInt32) : (encode32 value).length = 4 := rfl

theorem decode16_encode16 (value : UInt16) :
    decode16 ((value >>> 8) &&& 0xFF).toUInt8 (value &&& 0xFF).toUInt8 = value := by
  have hlt := value.toNat_lt
  apply UInt16.toNat_inj.mp
  have h0 : value.toNat &&& 255 = value.toNat % 256 := by
    simpa using shiftRight_and_ff value.toNat 0
  simp only [decode16, UInt16.toNat_or, UInt16.toNat_shiftLeft, UInt8.toNat_toUInt16,
    UInt16.toNat_toUInt8, UInt16.toNat_and, UInt16.toNat_shiftRight, UInt16.reduceToNat,
    shiftRight_and_ff, h0]
  norm_num [Nat.shiftLeft_eq]
  rw [Nat.mod_eq_of_lt (by omega), Nat.mod_eq_of_lt (by omega)]
  have hjoin := mul_pow_or (a := value.toNat / 256) (b := value.toNat % 256) (k := 8) (by omega)
  norm_num at hjoin
  omega

theorem decode32_encode32 (value : UInt32) :
    decode32 ((value >>> 24) &&& 0xFF).toUInt8 ((value >>> 16) &&& 0xFF).toUInt8
      ((value >>> 8) &&& 0xFF).toUInt8 (value &&& 0xFF).toUInt8 = value := by
  have hlt := value.toNat_lt
  apply UInt32.toNat_inj.mp
  have h0 : value.toNat &&& 255 = value.toNat % 256 := by
    simpa using shiftRight_and_ff value.toNat 0
  simp only [decode32, UInt32.toNat_or, UInt32.toNat_shiftLeft, UInt8.toNat_toUInt32,
    UInt32.toNat_toUInt8, UInt32.toNat_and, UInt32.toNat_shiftRight, UInt32.reduceToNat,
    shiftRight_and_ff, h0]
  norm_num [Nat.shiftLeft_eq]
  obtain ⟨a, ha⟩ : ∃ a, a = value.toNat / 16777216 % 256 := ⟨_, rfl⟩
  obtain ⟨b, hb⟩ : ∃ b, b = value.toNat / 65536 % 256 := ⟨_, rfl⟩
  obtain ⟨c, hc⟩ : ∃ c, c = value.toNat / 256 % 256 := ⟨_, rfl⟩
  obtain ⟨d, hd⟩ : ∃ d, d = value.toNat % 256 := ⟨_, rfl⟩
  have hvalue : value.toNat = a * 2 ^ 24 + b * 2 ^ 16 + c * 2 ^ 8 + d := by omega
  have hab : a * 16777216 ||| b * 65536 = (a * 256 + b) * 65536 := by
    have := mul_pow_or (a := a) (b := b * 65536) (k := 24) (by omega)
    simp only [Nat.reducePow] at this
    rw [this]
    ring
  have habc : (a * 256 + b) * 65536 ||| c * 256 = ((a * 256 + b) * 256 + c) * 256 := by
    have := mul_pow_or (a := a * 256 + b) (b := c * 256) (k := 16) (by omega)
    simp only [Nat.reducePow] at this
    rw [this]
    ring
  have habcd : ((a * 256 + b) * 256 + c) * 256 ||| d = value.toNat := by
    have := mul_pow_or (a := (a * 256 + b) * 256 + c) (b := d) (k := 8) (by omega)
    simp only [Nat.reducePow] at this
    rw [this, hvalue]
    ring
  rw [← ha, ← hb, ← hc, ← hd, Nat.mod_eq_of_lt (by omega), Nat.mod_eq_of_lt (by omega),
    Nat.mod_eq_of_lt (by omega), hab, habc, habcd]

end BigEndian
