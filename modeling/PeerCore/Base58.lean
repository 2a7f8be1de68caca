import PeerCore.Types
import PeerCore.Lib.Radix
import PeerCore.Lib.Result

/-!
# The text form of a peer id

`encode_base58` and `decode_base58` (`types.cpp`) are the same loop run in two
directions: the digits of one base are read one by one and the number they
denote is kept as an array of digits of the other base.

* `encodeBase58_eq`, `decodeBase58_eq`: each is `Radix.convert` between base
  256 and base 58, with the alphabet as the digits of base 58.
* `encodeCarries_lt`, `decodeCarries_lt`: the `uint32_t` carry of either loop
  never wraps.
* `text_bijection`: `PeerId::from_string` accepts exactly the texts that
  `PeerId::to_string` writes, and each for its own peer id.
-/

namespace PeerCore.Base58

open Radix

/-! ## The conversion loop -/

/-- What the loop asks of its two bases: digits of the outgoing base fit a
    `uint8_t`, and a digit with its carry fits a `uint32_t`. -/
structure Bases (inBase outBase : ℕ) : Prop where
  in_pos : 0 < inBase
  out_gt : 1 < outBase
  out_le : outBase ≤ 256
  fits : inBase * outBase ≤ 2 ^ 32

theorem encodeBases : Bases 256 58 := ⟨by omega, by omega, by omega, by omega⟩

theorem decodeBases : Bases 58 256 := ⟨by omega, by omega, by omega, by omega⟩

/-- Every value given to the `carry` of one pass, as a number, before it is
    stored in 32 bits. The closing `while` loop only divides the last one. -/
def carries (inBase outBase : ℕ) : ℕ → Bytes → List ℕ
  | carry, [] => [carry]
  | carry, d :: ds =>
    carry :: (carry + d.toNat * inBase) ::
      carries inBase outBase ((carry + d.toNat * inBase) % 2 ^ 32 / outBase) ds

/-- The bytes that hold the little-endian digits of `n`. -/
def digitBytes (base n : ℕ) : Bytes := (Nat.digits base n).map UInt8.ofNat

variable {inBase outBase : ℕ}

theorem toNat_ofNat_digit {base d : ℕ} (hle : base ≤ 256) (hd : d < base) :
    (UInt8.ofNat d).toNat = d := by
  rw [UInt8.toNat_ofNat']
  apply Nat.mod_eq_of_lt
  omega

theorem digitBytes_lt (h : Bases inBase outBase) {n : ℕ} :
    ∀ d ∈ digitBytes outBase n, d.toNat < outBase := by
  intro d hd
  obtain ⟨e, he, rfl⟩ := List.mem_map.mp hd
  have hlt : e < outBase := Nat.digits_lt_base h.out_gt he
  rw [toNat_ofNat_digit h.out_le hlt]
  exact hlt

theorem carries_lt (h : Bases inBase outBase) (ds : Bytes) (hds : ∀ d ∈ ds, d.toNat < outBase)
    (carry : ℕ) (hcarry : carry < inBase) :
    ∀ c ∈ carries inBase outBase carry ds, c < 2 ^ 32 := by
  have hfits := h.fits
  have hin : inBase ≤ inBase * outBase := Nat.le_mul_of_pos_right _ (by have := h.out_gt; omega)
  induction ds generalizing carry with
  | nil =>
    intro c hc
    rw [carries, List.mem_singleton] at hc
    omega
  | cons d ds ih =>
    intro c hc
    have hd : d.toNat < outBase := hds d List.mem_cons_self
    have hsum : carry + d.toNat * inBase < 2 ^ 32 := by
      have := carry_lt hcarry hd
      omega
    rw [carries, Nat.mod_eq_of_lt hsum, List.mem_cons, List.mem_cons] at hc
    rcases hc with rfl | rfl | hc
    · omega
    · exact hsum
    · exact ih (fun e he => hds e (List.mem_cons_of_mem _ he)) _ (next_carry_lt hcarry hd) c hc

/-- On digits that are in range the pass of the source is `Radix.mulAdd`: its
    carry never wraps. -/
theorem mulAddDigits_map (h : Bases inBase outBase) (ds : List ℕ) (hds : ∀ d ∈ ds, d < outBase)
    (carry : ℕ) (hcarry : carry < inBase) :
    mulAddDigits inBase outBase carry (ds.map UInt8.ofNat) =
      (mulAdd inBase outBase carry ds).map UInt8.ofNat := by
  induction ds generalizing carry with
  | nil => rfl
  | cons d ds ih =>
    have hd : d < outBase := hds d List.mem_cons_self
    have hsum : (carry + d * inBase) % 2 ^ 32 = carry + d * inBase := by
      apply Nat.mod_eq_of_lt
      exact (carry_lt hcarry hd).trans_le h.fits
    rw [List.map_cons, mulAddDigits, mulAdd, List.map_cons, toNat_ofNat_digit h.out_le hd]
    rw [hsum, ih (fun e he => hds e (List.mem_cons_of_mem _ he)) _ (next_carry_lt hcarry hd)]

theorem mulAddDigits_digitBytes (h : Bases inBase outBase) {carry : ℕ} (hcarry : carry < inBase)
    (n : ℕ) :
    mulAddDigits inBase outBase carry (digitBytes outBase n) =
      digitBytes outBase (carry + inBase * n) := by
  rw [digitBytes, mulAddDigits_map h _ (fun d hd => Nat.digits_lt_base h.out_gt hd) carry hcarry,
    mulAdd_digits h.in_pos h.out_gt]
  rfl

theorem digitBytes_zero (base : ℕ) : digitBytes base 0 = [] := by
  rw [digitBytes, Nat.digits_zero, List.map_nil]

/-! ## Digits as characters -/

/-- The character of a digit. -/
def character (d : ℕ) : UInt8 := base58Alphabet.getD d 0

theorem alphabet_length : base58Alphabet.length = 58 := by decide

theorem alphabet_nodup : base58Alphabet.Nodup := by decide

theorem character_eq {d : ℕ} (hd : d < base58Alphabet.length) : character d = base58Alphabet[d] := by
  rw [character, List.getD_eq_getElem]

theorem base58Value_character {d : ℕ} (hd : d < 58) :
    base58Value (character d) = some (UInt8.ofNat d) := by
  have hlt : d < base58Alphabet.length := by rwa [alphabet_length]
  rw [character_eq hlt, base58Value, alphabet_nodup.idxOf_getElem, if_pos hlt]

theorem base58Value_eq_some {c v : UInt8} (h : base58Value c = some v) :
    v.toNat < 58 ∧ character v.toNat = c := by
  unfold base58Value at h
  split at h
  next hlt =>
    obtain rfl := Option.some.inj h
    have hidx : base58Alphabet.idxOf c < 58 := by rwa [alphabet_length] at hlt
    rw [toNat_ofNat_digit (by omega) hidx]
    refine ⟨hidx, ?_⟩
    rw [character_eq hlt]
    exact List.getElem_idxOf hlt
  next => simp at h

theorem character_eq_one_iff {d : ℕ} (hd : d < 58) : character d = 49 ↔ d = 0 := by
  constructor
  · intro h
    have hvalue := base58Value_character hd
    rw [h, show base58Value 49 = some 0 by decide] at hvalue
    have := congrArg UInt8.toNat (Option.some.inj hvalue)
    rw [toNat_ofNat_digit (by omega) hd] at this
    exact this.symm
  · rintro rfl
    decide

/-! ## Both functions as base conversions -/

theorem leadingZeros_octets (data : Bytes) :
    (data.takeWhile (· = 0)).length = leadingZeros (octets data) := by
  rw [leadingZeros, octets, List.takeWhile_map, List.length_map]
  congr 2
  funext b
  simp only [Function.comp_apply, decide_eq_decide]
  exact UInt8.toNat_inj.symm

theorem leadingZeros_characters (ds : List ℕ) (hds : ∀ d ∈ ds, d < 58) :
    ((ds.map character).takeWhile (· = 49)).length = leadingZeros ds := by
  induction ds with
  | nil => rfl
  | cons d ds ih =>
    have hiff := character_eq_one_iff (hds d List.mem_cons_self)
    by_cases hd : d = 0
    · rw [List.map_cons, List.takeWhile_cons_of_pos (by simpa using hiff.mpr hd), List.length_cons,
        ih fun e he => hds e (List.mem_cons_of_mem _ he), hd, leadingZeros_zero_cons]
    · rw [List.map_cons, List.takeWhile_cons_of_neg (by simpa using mt hiff.mp hd),
        leadingZeros_of_ne_zero hd]
      rfl

/-- The loop of `encode_base58`, from any array that holds the digits of a number. -/
theorem encodeLoop_eq (data : Bytes) (n : ℕ) :
    data.foldl (fun ds b => mulAddDigits 256 58 b.toNat ds) (digitBytes 58 n) =
      digitBytes 58 ((octets data).foldl (fun n d => d + 256 * n) n) := by
  induction data generalizing n with
  | nil => rfl
  | cons b data ih =>
    rw [List.foldl_cons, mulAddDigits_digitBytes encodeBases b.toNat_lt, ih]
    rfl

/-- `encode_base58` writes its input in base 58, except that the empty input
    becomes a single `1`. -/
theorem encodeBase58_eq {data : Bytes} (hdata : data ≠ []) :
    encodeBase58 data = (convert 256 58 (octets data)).map character := by
  have hloop := encodeLoop_eq data 0
  rw [digitBytes_zero, ← value_eq_foldl] at hloop
  have hout : List.replicate (data.takeWhile (· = 0)).length 49 ++
      (digitBytes 58 (value 256 (octets data))).reverse.map
        (fun d => base58Alphabet.getD d.toNat 0) =
      (convert 256 58 (octets data)).map character := by
    rw [leadingZeros_octets, convert, write, List.map_append, List.map_replicate, digitBytes,
      ← List.map_reverse, List.map_map]
    congr 1
    apply List.map_congr_left
    intro d hd
    have hlt : d < 58 := Nat.digits_lt_base (by omega) (List.mem_reverse.mp hd)
    rw [Function.comp_apply, toNat_ofNat_digit (by omega) hlt]
    rfl
  have hne : (convert 256 58 (octets data)).map character ≠ [] := by
    intro hnil
    have hback := convert_convert (b := 58) (by omega : 1 < 256) (octets data) (octets_lt data)
    rw [List.map_eq_nil_iff.mp hnil] at hback
    exact hdata (List.map_eq_nil_iff.mp hback.symm)
  unfold encodeBase58
  dsimp only
  rw [hloop, hout, List.isEmpty_eq_false_iff.mpr hne]
  rfl

/-- The loop of `decode_base58` on base-58 digits. -/
theorem decodeLoop_eq (ds : List ℕ) (hds : ∀ d ∈ ds, d < 58) (n : ℕ) :
    decodeBase58Digits (digitBytes 256 n) (ds.map character) =
      .ok (digitBytes 256 (ds.foldl (fun n d => d + 58 * n) n)) := by
  induction ds generalizing n with
  | nil => rfl
  | cons d ds ih =>
    have hd : d < 58 := hds d List.mem_cons_self
    rw [List.map_cons, decodeBase58Digits, base58Value_character hd]
    dsimp only
    rw [toNat_ofNat_digit (by omega) hd, mulAddDigits_digitBytes decodeBases hd,
      ih fun e he => hds e (List.mem_cons_of_mem _ he)]
    rfl

/-- What the loop of `decode_base58` gets through consists of base-58 digits. -/
theorem decodeLoop_ok {text bytes out : Bytes} (h : decodeBase58Digits bytes text = .ok out) :
    ∃ ds : List ℕ, (∀ d ∈ ds, d < 58) ∧ ds.map character = text := by
  induction text generalizing bytes with
  | nil => exact ⟨[], by simp, rfl⟩
  | cons c text ih =>
    rw [decodeBase58Digits] at h
    cases hvalue : base58Value c with
    | none =>
      rw [hvalue] at h
      simp at h
    | some v =>
      rw [hvalue] at h
      obtain ⟨ds, hds, rfl⟩ := ih h
      obtain ⟨hlt, hc⟩ := base58Value_eq_some hvalue
      refine ⟨v.toNat :: ds, ?_, ?_⟩
      · intro d hd
        rcases List.mem_cons.mp hd with rfl | hd
        · exact hlt
        · exact hds d hd
      · rw [List.map_cons, hc]

/-- `decode_base58` reads base-58 digits and writes their bytes. -/
theorem decodeBase58_eq (ds : List ℕ) (hds : ∀ d ∈ ds, d < 58) :
    decodeBase58 (ds.map character) = .ok ((convert 58 256 ds).map UInt8.ofNat) := by
  have hloop := decodeLoop_eq ds hds 0
  rw [digitBytes_zero, ← value_eq_foldl] at hloop
  unfold decodeBase58
  dsimp only
  rw [hloop, leadingZeros_characters ds hds, Except.ok_bind, convert, write, List.map_append,
    List.map_replicate, List.map_reverse]
  rfl

/-- Encoding and decoding are inverse to each other, the empty input apart. -/
theorem decodeBase58_eq_ok_iff {text data : Bytes} (hdata : data ≠ []) :
    decodeBase58 text = .ok data ↔ text = encodeBase58 data := by
  constructor
  · intro h
    obtain ⟨bytes, hbytes, -⟩ := Except.bind_eq_ok_iff.mp h
    obtain ⟨ds, hds, rfl⟩ := decodeLoop_ok hbytes
    rw [decodeBase58_eq ds hds] at h
    obtain rfl := Except.ok.inj h
    have hlt : ∀ d ∈ convert 58 256 ds, d < 256 := fun d hd => convert_lt (by omega) hd
    rw [encodeBase58_eq hdata, octets_ofNat _ hlt, convert_convert (by omega) ds hds]
  · rintro rfl
    have hlt : ∀ d ∈ convert 256 58 (octets data), d < 58 := fun d hd => convert_lt (by omega) hd
    rw [encodeBase58_eq hdata, decodeBase58_eq _ hlt,
      convert_convert (by omega) _ (octets_lt data), ofNat_octets]

/-! ## The carries of a whole call -/

/-- The carries of `encode_base58`, from the array `digits` on. -/
def encodeCarries (digits : Bytes) : Bytes → List ℕ
  | [] => []
  | b :: data =>
    carries 256 58 b.toNat digits ++ encodeCarries (mulAddDigits 256 58 b.toNat digits) data

/-- The carries of `decode_base58`, which stops at the first foreign character. -/
def decodeCarries (bytes : Bytes) : Bytes → List ℕ
  | [] => []
  | ch :: text =>
    match base58Value ch with
    | none => []
    | some value =>
      carries 58 256 value.toNat bytes ++ decodeCarries (mulAddDigits 58 256 value.toNat bytes) text

theorem encodeCarries_lt (data : Bytes) (n : ℕ) :
    ∀ c ∈ encodeCarries (digitBytes 58 n) data, c < 2 ^ 32 := by
  induction data generalizing n with
  | nil => simp [encodeCarries]
  | cons b data ih =>
    intro c hc
    rw [encodeCarries, mulAddDigits_digitBytes encodeBases b.toNat_lt, List.mem_append] at hc
    rcases hc with hc | hc
    · exact carries_lt encodeBases _ (digitBytes_lt encodeBases) _ b.toNat_lt c hc
    · exact ih _ c hc

theorem decodeCarries_lt (text : Bytes) (n : ℕ) :
    ∀ c ∈ decodeCarries (digitBytes 256 n) text, c < 2 ^ 32 := by
  induction text generalizing n with
  | nil => simp [decodeCarries]
  | cons ch text ih =>
    intro c hc
    rw [decodeCarries] at hc
    cases hvalue : base58Value ch with
    | none =>
      rw [hvalue] at hc
      simp at hc
    | some v =>
      have hv := (base58Value_eq_some hvalue).1
      rw [hvalue] at hc
      dsimp only at hc
      rw [mulAddDigits_digitBytes decodeBases hv, List.mem_append] at hc
      rcases hc with hc | hc
      · exact carries_lt decodeBases _ (digitBytes_lt decodeBases) _ hv c hc
      · exact ih _ c hc

/-! ## Peer ids -/

/-- The multihash around the public key of a peer id. -/
def payload (p : PeerId) : Bytes := [0x00, 36] ++ ed25519PublicKeyPrefix ++ p.bytes.toList

theorem payload_length (p : PeerId) : (payload p).length = 38 := by
  simp [payload, ed25519PublicKeyPrefix]

theorem payload_ne_nil (p : PeerId) : payload p ≠ [] := by simp [payload]

/-- The checks of `from_string` behind the decoder. -/
def readPayload (bytes : Bytes) : Result PeerId :=
  if bytes.length ≠ 38 then .error "invalid peer id payload"
  else if bytes.getD 0 0 ≠ 0x00 ∨ bytes.getD 1 0 ≠ 36 then .error "unsupported peer id multihash"
  else if (bytes.drop 2).take 4 ≠ ed25519PublicKeyPrefix then
    .error "unsupported peer id key type"
  else .ok ⟨copyN 32 (bytes.drop 6)⟩

theorem fromString_eq (text : Bytes) :
    PeerId.fromString text = decodeBase58 text >>= readPayload := rfl

theorem readPayload_payload (p : PeerId) : readPayload (payload p) = .ok p := by
  have htag : ((payload p).drop 2).take 4 = ed25519PublicKeyPrefix := rfl
  have hkey : (payload p).drop 6 = p.bytes.toList := rfl
  unfold readPayload
  rw [if_neg (by simp [payload_length]), if_neg (by simp [payload]), if_neg (by simp [htag]),
    hkey, copyN_self]

theorem eq_payload_of_readPayload {bytes : Bytes} {p : PeerId} (h : readPayload bytes = .ok p) :
    bytes = payload p := by
  unfold readPayload at h
  split_ifs at h with hlen hhead htag
  push Not at hlen hhead htag
  obtain ⟨b₀, b₁, rest, rfl⟩ : ∃ b₀ b₁ rest, bytes = b₀ :: b₁ :: rest := by
    rcases bytes with _ | ⟨b₀, _ | ⟨b₁, rest⟩⟩
    · simp at hlen
    · simp at hlen
    · exact ⟨b₀, b₁, rest, rfl⟩
  obtain ⟨h₀, h₁⟩ : b₀ = 0x00 ∧ b₁ = 36 := by simpa using hhead
  have htake : rest.take 4 = ed25519PublicKeyPrefix := by simpa using htag
  have hdrop : (rest.drop 4).length = 32 := by
    rw [List.length_drop]
    rw [List.length_cons, List.length_cons] at hlen
    omega
  have hbytes : p.bytes.toList = rest.drop 4 := by
    obtain rfl := Except.ok.inj h
    show (copyN 32 (rest.drop 4)).toList = rest.drop 4
    rw [copyN_toList hdrop.ge, List.take_of_length_le hdrop.le]
  rw [payload, hbytes, ← htake, h₀, h₁, List.append_assoc, List.take_append_drop]
  rfl

theorem fromString_eq_ok_iff (text : Bytes) (p : PeerId) :
    PeerId.fromString text = .ok p ↔ text = p.toString := by
  show PeerId.fromString text = .ok p ↔ text = encodeBase58 (payload p)
  rw [fromString_eq, Except.bind_eq_ok_iff, ← decodeBase58_eq_ok_iff (payload_ne_nil p)]
  constructor
  · rintro ⟨bytes, hdecode, hread⟩
    rwa [eq_payload_of_readPayload hread] at hdecode
  · intro hdecode
    exact ⟨payload p, hdecode, readPayload_payload p⟩

/-- `from_string` and `to_string` are a bijection between the peer ids and the
    texts of peer ids, and no carry of the two conversions leaves 32 bits. -/
theorem text_bijection :
    (∀ p : PeerId, PeerId.fromString p.toString = .ok p) ∧
    (∀ (t : Bytes) (p : PeerId), PeerId.fromString t = .ok p → p.toString = t) ∧
    (∀ data : Bytes, ∀ c ∈ encodeCarries [] data, c < 2 ^ 32) ∧
    ∀ text : Bytes, ∀ c ∈ decodeCarries [] text, c < 2 ^ 32 := by
  refine ⟨fun p => ?_, fun t p h => ?_, fun data => ?_, fun text => ?_⟩
  · exact (fromString_eq_ok_iff _ p).mpr rfl
  · exact ((fromString_eq_ok_iff t p).mp h).symm
  · rw [← digitBytes_zero 58]
    exact encodeCarries_lt data 0
  · rw [← digitBytes_zero 256]
    exact decodeCarries_lt text 0

/-- The peer id of 32 zero bytes. -/
theorem text_bijection_zero :
    PeerId.toString ⟨copyN 32 []⟩ =
        ascii "12D3KooW9pNAk8aiBuGVQtWRdbkLmo5qVL3e2h5UxbN2Nz9ttwiw" ∧
      256 < 2 ^ 32 := by
  obtain ⟨-, hback, hencode, -⟩ := text_bijection
  refine ⟨hback _ ⟨copyN 32 []⟩ (by decide +kernel), hencode [1, 0] 256 (by decide)⟩

end PeerCore.Base58
