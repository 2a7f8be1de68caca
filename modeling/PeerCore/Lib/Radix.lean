import Mathlib.Data.Nat.Digits.Lemmas
import Mathlib.Tactic.Ring

/-!
# Digit strings and their conversion between bases

A digit string is a list of numbers below its base, most significant digit
first. Leading zeros count: a string is determined by how many it has together
with the number it denotes (`leadingZeros_value`), so rewriting that number in
another base behind the same zeros loses nothing (`convert_convert`).

`mulAdd` is the loop by which such a conversion is made in place: multiply a
little-endian digit array by the old base and add the next digit. On the
canonical digits of `n` it gives the canonical digits of `carry + inBase * n`
(`mulAdd_digits`), whatever the two bases are.
-/

namespace Radix

variable {a b : ℕ}

/-! ## Digit strings -/

/-- The number a digit string denotes. -/
def value (b : ℕ) (ds : List ℕ) : ℕ := Nat.ofDigits b ds.reverse

/-- How many zeros the string starts with. -/
def leadingZeros (ds : List ℕ) : ℕ := (ds.takeWhile (· = 0)).length

/-- The string with `zeros` leading zeros that denotes `n`. -/
def write (b zeros n : ℕ) : List ℕ := List.replicate zeros 0 ++ (Nat.digits b n).reverse

/-- The string of base `a` rewritten in base `b`. -/
def convert (a b : ℕ) (ds : List ℕ) : List ℕ := write b (leadingZeros ds) (value a ds)

@[simp] theorem value_nil : value b [] = 0 := rfl

/-- Reading the digits from the front, as a loop does. -/
theorem value_eq_foldl (ds : List ℕ) : value b ds = ds.foldl (fun n d => d + b * n) 0 := by
  rw [value, Nat.ofDigits_eq_foldr, List.foldr_reverse]
  rfl

@[simp] theorem value_zero_cons (ds : List ℕ) : value b (0 :: ds) = value b ds := by
  simp [value]

@[simp] theorem leadingZeros_zero_cons (ds : List ℕ) :
    leadingZeros (0 :: ds) = leadingZeros ds + 1 := by
  simp [leadingZeros]

theorem leadingZeros_of_ne_zero {d : ℕ} (hd : d ≠ 0) (ds : List ℕ) :
    leadingZeros (d :: ds) = 0 := by
  simp [leadingZeros, hd]

@[simp] theorem write_succ (zeros n : ℕ) : write b (zeros + 1) n = 0 :: write b zeros n := by
  simp [write, List.replicate_succ]

theorem write_lt (hb : 1 < b) {zeros n d : ℕ} (hd : d ∈ write b zeros n) : d < b := by
  rw [write, List.mem_append] at hd
  rcases hd with hd | hd
  · have := List.eq_of_mem_replicate hd
    omega
  · exact Nat.digits_lt_base hb (List.mem_reverse.mp hd)

theorem value_write (zeros n : ℕ) : value b (write b zeros n) = n := by
  induction zeros with
  | zero =>
    show value b ([] ++ (Nat.digits b n).reverse) = n
    rw [List.nil_append, value, List.reverse_reverse, Nat.ofDigits_digits]
  | succ zeros ih => rw [write_succ, value_zero_cons, ih]

/-- The canonical digits of a number do not start with a zero. -/
theorem leadingZeros_digits (n : ℕ) : leadingZeros (Nat.digits b n).reverse = 0 := by
  by_cases hn : n = 0
  · subst hn
    simp [leadingZeros]
  · have hne : Nat.digits b n ≠ [] := Nat.digits_ne_nil_iff_ne_zero.mpr hn
    have hlast := Nat.getLast_digit_ne_zero b hn
    rw [← List.dropLast_append_getLast hne, List.reverse_append, List.reverse_singleton,
      List.singleton_append]
    exact leadingZeros_of_ne_zero hlast _

theorem leadingZeros_write (zeros n : ℕ) : leadingZeros (write b zeros n) = zeros := by
  induction zeros with
  | zero =>
    show leadingZeros ([] ++ (Nat.digits b n).reverse) = 0
    rw [List.nil_append, leadingZeros_digits]
  | succ zeros ih => rw [write_succ, leadingZeros_zero_cons, ih]

/-- A digit string is given by its leading zeros and its value. -/
theorem write_value (hb : 1 < b) (ds : List ℕ) (hds : ∀ d ∈ ds, d < b) :
    write b (leadingZeros ds) (value b ds) = ds := by
  induction ds with
  | nil => simp [write, leadingZeros]
  | cons d ds ih =>
    by_cases hd : d = 0
    · subst hd
      rw [leadingZeros_zero_cons, value_zero_cons, write_succ,
        ih fun e he => hds e (List.mem_cons_of_mem _ he)]
    · rw [leadingZeros_of_ne_zero hd]
      show [] ++ (Nat.digits b (value b (d :: ds))).reverse = d :: ds
      rw [List.nil_append, value, Nat.digits_ofDigits b hb _ (fun e he => hds e (List.mem_reverse.mp he)),
        List.reverse_reverse]
      intro hne
      simpa using hd

/-! ## Bytes as digits -/

/-- A byte string as digits of base 256. -/
def octets (data : List UInt8) : List ℕ := data.map UInt8.toNat

@[simp] theorem octets_nil : octets [] = [] := rfl

@[simp] theorem octets_cons (b : UInt8) (data : List UInt8) :
    octets (b :: data) = b.toNat :: octets data := rfl

@[simp] theorem octets_length (data : List UInt8) : (octets data).length = data.length := by
  simp [octets]

theorem octets_lt (data : List UInt8) : ∀ d ∈ octets data, d < 256 := by
  intro d hd
  obtain ⟨b, -, rfl⟩ := List.mem_map.mp hd
  exact b.toNat_lt

theorem ofNat_octets (data : List UInt8) : (octets data).map UInt8.ofNat = data := by
  rw [octets, List.map_map]
  exact List.map_id'' (fun b => UInt8.ofNat_toNat) data

theorem octets_ofNat (ds : List ℕ) (hds : ∀ d ∈ ds, d < 256) :
    octets (ds.map UInt8.ofNat) = ds := by
  rw [octets, List.map_map]
  calc ds.map (UInt8.toNat ∘ UInt8.ofNat) = ds.map id :=
        List.map_congr_left fun d hd => UInt8.toNat_ofNat_of_lt' (hds d hd)
    _ = ds := List.map_id ds

/-! ## Conversion -/

theorem convert_lt (hb : 1 < b) {ds : List ℕ} {d : ℕ} (hd : d ∈ convert a b ds) : d < b :=
  write_lt hb hd

/-- Converting a string and converting it back gives the string. -/
theorem convert_convert (ha : 1 < a) (ds : List ℕ) (hds : ∀ d ∈ ds, d < a) :
    convert b a (convert a b ds) = ds := by
  unfold convert
  rw [leadingZeros_write, value_write]
  exact write_value ha ds hds

/-! ## Comparing strings of one length -/

theorem value_cons (d : ℕ) (ds : List ℕ) : value b (d :: ds) = value b ds + b ^ ds.length * d := by
  rw [value, List.reverse_cons, Nat.ofDigits_append, List.length_reverse, Nat.ofDigits_singleton]
  rfl

theorem value_lt (hb : 1 < b) {ds : List ℕ} (hds : ∀ d ∈ ds, d < b) :
    value b ds < b ^ ds.length := by
  have h := Nat.ofDigits_lt_base_pow_length hb (l := ds.reverse) (fun d hd =>
    hds d (List.mem_reverse.mp hd))
  rwa [List.length_reverse] at h

/-- The first digit decides, and then the rest. -/
theorem value_cons_lt_iff (hb : 1 < b) {d e : ℕ} {ds es : List ℕ} (hlen : ds.length = es.length)
    (hds : ∀ x ∈ ds, x < b) (hes : ∀ x ∈ es, x < b) :
    value b (d :: ds) < value b (e :: es) ↔ d < e ∨ d = e ∧ value b ds < value b es := by
  have hlt := value_lt hb hds
  have hlt' := value_lt hb hes
  rw [value_cons, value_cons, hlen]
  rw [hlen] at hlt
  rcases lt_trichotomy d e with h | rfl | h
  · have hstep : b ^ es.length * (d + 1) ≤ b ^ es.length * e := Nat.mul_le_mul_left _ h
    rw [Nat.mul_succ] at hstep
    exact ⟨fun _ => .inl h, fun _ => by omega⟩
  · simp
  · have hstep : b ^ es.length * (e + 1) ≤ b ^ es.length * d := Nat.mul_le_mul_left _ h
    rw [Nat.mul_succ] at hstep
    exact ⟨fun hv => by omega, fun hor => by omega⟩

theorem value_inj (hb : 1 < b) {ds es : List ℕ} (hlen : ds.length = es.length)
    (hds : ∀ x ∈ ds, x < b) (hes : ∀ x ∈ es, x < b) (h : value b ds = value b es) : ds = es := by
  apply List.reverse_injective
  exact Nat.ofDigits_inj_of_len_eq hb (by simpa using hlen)
    (fun x hx => hds x (List.mem_reverse.mp hx)) (fun x hx => hes x (List.mem_reverse.mp hx)) h

/-! ## The conversion loop -/

/-- Multiply the little-endian `digits` of base `outBase` by `inBase` and add
    `carry`, then write out what is left of the carry. -/
def mulAdd (inBase outBase : ℕ) : ℕ → List ℕ → List ℕ
  | carry, [] => Nat.digits outBase carry
  | carry, d :: ds =>
    (carry + d * inBase) % outBase :: mulAdd inBase outBase ((carry + d * inBase) / outBase) ds

/-- The carry stays below `inBase` between two digits. -/
theorem carry_lt {inBase outBase carry d : ℕ} (hcarry : carry < inBase) (hd : d < outBase) :
    carry + d * inBase < inBase * outBase := by
  calc carry + d * inBase < inBase + d * inBase := by omega
    _ = inBase * (d + 1) := by ring
    _ ≤ inBase * outBase := Nat.mul_le_mul_left _ hd

theorem next_carry_lt {inBase outBase carry d : ℕ} (hcarry : carry < inBase) (hd : d < outBase) :
    (carry + d * inBase) / outBase < inBase := by
  apply Nat.div_lt_of_lt_mul
  rw [Nat.mul_comm outBase]
  exact carry_lt hcarry hd

/-- The loop on canonical digits is the multiplication and the addition. -/
theorem mulAdd_digits {inBase outBase : ℕ} (hin : 0 < inBase) (hout : 1 < outBase) (carry n : ℕ) :
    mulAdd inBase outBase carry (Nat.digits outBase n) =
      Nat.digits outBase (carry + inBase * n) := by
  induction n using Nat.strong_induction_on generalizing carry with
  | _ n ih =>
    by_cases hn : n = 0
    · subst hn
      rw [Nat.digits_zero, mulAdd, Nat.mul_zero, Nat.add_zero]
    · have hpos : 0 < inBase * n := Nat.mul_pos hin (Nat.pos_of_ne_zero hn)
      -- one digit of `n` split off: the sum, and the rest one place up
      have hsplit : carry + inBase * n =
          carry + n % outBase * inBase + outBase * (inBase * (n / outBase)) := by
        conv_lhs => rw [← Nat.mod_add_div n outBase]
        ring
      rw [Nat.digits_eq_cons_digits_div hout hn, mulAdd,
        ih _ (Nat.div_lt_self (Nat.pos_of_ne_zero hn) hout),
        Nat.digits_eq_cons_digits_div hout (n := carry + inBase * n) (by omega), hsplit,
        Nat.add_mul_mod_self_left, Nat.add_mul_div_left _ _ (by omega)]

end Radix
