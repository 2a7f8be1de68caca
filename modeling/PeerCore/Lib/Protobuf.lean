import PeerCore.Lib.Varint

/-!
# Length-delimited protobuf fields

The wire format as a grammar over unbounded numbers, and readers for it. The numbers
of a field are kept whole: a decoder that keeps fewer bits is compared with these.

* `Groups`, `Word64`: base-128 numbers, and those that fit 64 bits.
* `Fields`: a byte string that is a sequence of length-delimited fields.
* `Split`: the same for a reader that cuts fields off by the low 64 bits of their
  length. `fields_iff` relates the two.
* `read_iff`, `split_iff`: the readers recognise the grammar.
* `decode_read`: `Varint.decode` reads the same groups and keeps the value
  modulo 2^64.
-/

namespace Protobuf

/-! ## Grammar -/

/-- `Groups bytes v`: base-128 groups, least significant first, bit `0x80` set on
    every byte but the last, of value `v`. -/
inductive Groups : List UInt8 → ℕ → Prop
  | last {b : UInt8} : b.toNat < 128 → Groups [b] b.toNat
  | more {b : UInt8} {bytes : List UInt8} {v : ℕ} :
      128 ≤ b.toNat → Groups bytes v → Groups (b :: bytes) (b.toNat - 128 + 128 * v)

/-- A well-formed 64-bit varint: at most ten groups and a value that fits. -/
structure Word64 (bytes : List UInt8) (v : ℕ) : Prop where
  groups : Groups bytes v
  short : bytes.length ≤ 10
  fits : v < 2 ^ 64

/-- A length-delimited field. Its number is not bounded. -/
structure Field where
  number : ℕ
  content : List UInt8
  deriving DecidableEq

/-- `Fields bytes fs`: `bytes` is the sequence of the length-delimited fields
    `fs`, each a key of wire type 2, a length and that many bytes. -/
inductive Fields : List UInt8 → List Field → Prop
  | nil : Fields [] []
  | cons {keyBytes lenBytes content rest : List UInt8} {key : ℕ} {fs : List Field} :
      Word64 keyBytes key → key % 8 = 2 → Word64 lenBytes content.length → Fields rest fs →
      Fields (keyBytes ++ (lenBytes ++ (content ++ rest))) (⟨key / 8, content⟩ :: fs)

/-- The content of the last field numbered `n`. -/
def last (n : ℕ) : List Field → Option (List UInt8)
  | [] => none
  | f :: fs => (last n fs).or (if f.number = n then some f.content else none)

/-- The contents of the fields numbered `n`, in order. -/
def contents (n : ℕ) (fs : List Field) : List (List UInt8) :=
  (fs.filter (fun f => f.number = n)).map Field.content

@[simp] theorem last_nil (n : ℕ) : last n [] = none := rfl

@[simp] theorem last_cons (n : ℕ) (f : Field) (fs : List Field) :
    last n (f :: fs) = (last n fs).or (if f.number = n then some f.content else none) := rfl

theorem exists_of_last {n : ℕ} {fs : List Field} {content : List UInt8}
    (h : last n fs = some content) : ∃ f ∈ fs, f.number = n ∧ f.content = content := by
  induction fs with
  | nil => simp at h
  | cons f fs ih =>
    rw [last_cons, Option.or_eq_some_iff] at h
    rcases h with hlast | ⟨-, hfirst⟩
    · obtain ⟨g, hg, hsame⟩ := ih hlast
      exact ⟨g, List.mem_cons_of_mem _ hg, hsame⟩
    · split_ifs at hfirst with hn
      exact ⟨f, List.mem_cons_self, hn, Option.some.inj hfirst⟩

@[simp] theorem contents_nil (n : ℕ) : contents n [] = [] := rfl

theorem contents_cons (n : ℕ) (f : Field) (fs : List Field) :
    contents n (f :: fs) = (if f.number = n then [f.content] else []) ++ contents n fs := by
  by_cases h : f.number = n
  · simp [contents, h]
  · simp [contents, h]

/-! ## Reading numbers -/

/-- At most `fuel` groups at the head of a buffer: their value and the bytes
    behind them. -/
def readGroups : ℕ → List UInt8 → Option (ℕ × List UInt8)
  | 0, _ => none
  | _, [] => none
  | fuel + 1, b :: rest =>
    if b.toNat < 128 then some (b.toNat, rest)
    else (readGroups fuel rest).map fun r => (b.toNat - 128 + 128 * r.1, r.2)

/-- A varint of at most ten groups, of any value. -/
def read (bytes : List UInt8) : Option (ℕ × List UInt8) := readGroups 10 bytes

theorem readGroups_iff {fuel v : ℕ} {bytes rest : List UInt8} :
    readGroups fuel bytes = some (v, rest) ↔
      ∃ pre, Groups pre v ∧ pre.length ≤ fuel ∧ bytes = pre ++ rest := by
  constructor
  · intro h
    induction fuel generalizing bytes v with
    | zero => simp [readGroups] at h
    | succ fuel ih =>
      cases bytes with
      | nil => simp [readGroups] at h
      | cons b tail =>
        rw [readGroups] at h
        split_ifs at h with hb
        · simp only [Option.some.injEq, Prod.mk.injEq] at h
          obtain ⟨rfl, rfl⟩ := h
          exact ⟨[b], .last hb, by simp, rfl⟩
        · obtain ⟨⟨u, r⟩, hr, he⟩ := Option.map_eq_some_iff.mp h
          simp only [Prod.mk.injEq] at he
          obtain ⟨rfl, rfl⟩ := he
          obtain ⟨pre, hg, hlen, rfl⟩ := ih hr
          exact ⟨b :: pre, .more (by omega) hg, by simpa using hlen, rfl⟩
  · rintro ⟨pre, hg, hlen, rfl⟩
    induction hg generalizing fuel with
    | @last b hb =>
      obtain ⟨fuel, rfl⟩ : ∃ f, fuel = f + 1 := ⟨fuel - 1, by simp at hlen; omega⟩
      simp [readGroups, hb]
    | @more b pre v hb hg ih =>
      obtain ⟨fuel, rfl⟩ : ∃ f, fuel = f + 1 := ⟨fuel - 1, by simp at hlen; omega⟩
      simp only [List.length_cons] at hlen
      rw [List.cons_append, readGroups, if_neg (by omega), ih (by omega)]
      rfl

theorem read_iff {v : ℕ} {bytes rest : List UInt8} :
    read bytes = some (v, rest) ↔ ∃ pre, Groups pre v ∧ pre.length ≤ 10 ∧ bytes = pre ++ rest :=
  readGroups_iff

theorem Groups.ne_nil {bytes : List UInt8} {v : ℕ} (h : Groups bytes v) : bytes ≠ [] := by
  cases h <;> simp

theorem read_length {v : ℕ} {bytes rest : List UInt8} (h : read bytes = some (v, rest)) :
    rest.length < bytes.length := by
  obtain ⟨pre, hg, -, rfl⟩ := read_iff.mp h
  have := List.length_pos_iff.mpr hg.ne_nil
  rw [List.length_append]
  omega

/-! ## The decoder that keeps 64 bits -/

/-- The decoder, started at group `10 - left`, adds the groups it reads to the
    value so far, modulo 2^64. -/
theorem decodeLoop_readGroups :
    ∀ (left : ℕ) (buf : List UInt8) (value shift : ℕ), 0 < left → shift + 7 * left = 70 →
      value < 2 ^ shift →
      (Varint.decodeLoop value shift buf).toOption =
        (readGroups left buf).map fun r => ((value + r.1 * 2 ^ shift) % 2 ^ 64, r.2) := by
  intro left
  induction left with
  | zero => intro _ _ _ h0; omega
  | succ left ih =>
    intro buf value shift _ hshift hvalue
    cases buf with
    | nil => rfl
    | cons b rest =>
      have hb := b.toNat_lt
      -- one group or-ed in is the sum modulo 2^64
      have hor : value ||| ((b.toNat &&& 0x7F) <<< shift) % 2 ^ 64 =
          (value + b.toNat % 128 * 2 ^ shift) % 2 ^ 64 := by
        obtain ⟨high, hhigh⟩ : ∃ high, high + shift = 64 := ⟨64 - shift, by omega⟩
        have hpow : (2 : ℕ) ^ 64 = 2 ^ high * 2 ^ shift := by rw [← pow_add, hhigh]
        have hmod : (b.toNat % 128 * 2 ^ shift) % 2 ^ 64 = b.toNat % 128 % 2 ^ high * 2 ^ shift := by
          rw [hpow, Nat.mul_mod_mul_right]
        have hsum : value + b.toNat % 128 % 2 ^ high * 2 ^ shift < 2 ^ 64 := by
          have hlt : b.toNat % 128 % 2 ^ high < 2 ^ high := Nat.mod_lt _ (Nat.two_pow_pos high)
          calc value + b.toNat % 128 % 2 ^ high * 2 ^ shift
              < 2 ^ shift + b.toNat % 128 % 2 ^ high * 2 ^ shift := by omega
            _ = (b.toNat % 128 % 2 ^ high + 1) * 2 ^ shift := by ring
            _ ≤ 2 ^ high * 2 ^ shift := Nat.mul_le_mul_right _ hlt
            _ = 2 ^ 64 := hpow.symm
        rw [Varint.and_7f, Nat.shiftLeft_eq, hmod, Varint.or_shift hvalue, Nat.add_mod, hmod,
          ← Nat.add_mod_mod, Nat.mod_eq_of_lt (b := 2 ^ 64) (a := value) (by omega)]
        rw [Nat.add_mod_mod, Nat.mod_eq_of_lt hsum]
      rw [Varint.decodeLoop, readGroups]
      simp only [hor]
      by_cases hlast : b.toNat < 128
      · rw [if_pos (by rw [Varint.and_80 (by omega)]; omega), if_pos hlast,
          Nat.mod_eq_of_lt hlast]
        rfl
      · rw [if_neg (by rw [Varint.and_80 (by omega)]; omega), if_neg hlast]
        by_cases hend : shift + 7 ≥ 64
        · obtain rfl : left = 0 := by omega
          rw [if_pos hend]
          rfl
        · have hsmall : value + b.toNat % 128 * 2 ^ shift < 2 ^ (shift + 7) := by
            have h128 : b.toNat % 128 * 2 ^ shift ≤ 127 * 2 ^ shift :=
              Nat.mul_le_mul_right _ (by omega)
            rw [pow_add]
            omega
          have hfits : value + b.toNat % 128 * 2 ^ shift < 2 ^ 64 :=
            lt_of_lt_of_le hsmall (Nat.pow_le_pow_right (by norm_num) (by omega))
          rw [if_neg hend, Nat.mod_eq_of_lt hfits, ih rest _ _ (by omega) (by omega) hsmall,
            Option.map_map]
          congr 1
          funext r
          have hsplit : b.toNat % 128 = b.toNat - 128 := by omega
          simp only [Function.comp_apply, hsplit, Prod.mk.injEq, and_true]
          congr 1
          rw [pow_add]
          ring

/-- `Varint.decode` accepts what the unbounded reader accepts and drops the bits
    from 2^64 on. -/
theorem decode_read (bytes : List UInt8) :
    (Varint.decode bytes).toOption = (read bytes).map fun r => (r.1 % 2 ^ 64, r.2) := by
  rw [Varint.decode, read, decodeLoop_readGroups 10 bytes 0 0 (by norm_num) (by norm_num)
    (by norm_num)]
  simp

/-! ## Splitting into fields -/

/-- A field as a reader meets it: key and length of any size, and the content. -/
structure Header where
  key : ℕ
  len : ℕ
  content : List UInt8
  deriving DecidableEq

/-- The key and the length fit 64 bits. -/
structure Header.Fits (h : Header) : Prop where
  key : h.key < 2 ^ 64
  len : h.len < 2 ^ 64

/-- The field of a header, by its whole number. -/
def Header.field (h : Header) : Field := ⟨h.key / 8, h.content⟩

/-- `Split bytes hs`: `bytes` is the sequence of the fields `hs`, each cut off by the low
    64 bits of its length. -/
inductive Split : List UInt8 → List Header → Prop
  | nil : Split [] []
  | cons {keyBytes lenBytes content rest : List UInt8} {key len : ℕ} {hs : List Header} :
      Groups keyBytes key → keyBytes.length ≤ 10 → key % 8 = 2 →
      Groups lenBytes len → lenBytes.length ≤ 10 → content.length = len % 2 ^ 64 → Split rest hs →
      Split (keyBytes ++ (lenBytes ++ (content ++ rest))) (⟨key, len, content⟩ :: hs)

/-- The first field of a buffer and the bytes behind it. -/
def next (bytes : List UInt8) : Option (Header × List UInt8) :=
  match read bytes with
  | none => none
  | some (key, afterKey) =>
    if key % 8 ≠ 2 then none
    else
      match read afterKey with
      | none => none
      | some (len, afterLen) =>
        if afterLen.length < len % 2 ^ 64 then none
        else some (⟨key, len, afterLen.take (len % 2 ^ 64)⟩, afterLen.drop (len % 2 ^ 64))

theorem next_iff {bytes rest : List UInt8} {h : Header} :
    next bytes = some (h, rest) ↔ ∃ afterKey afterLen, read bytes = some (h.key, afterKey) ∧
      h.key % 8 = 2 ∧ read afterKey = some (h.len, afterLen) ∧
      h.len % 2 ^ 64 ≤ afterLen.length ∧ h.content = afterLen.take (h.len % 2 ^ 64) ∧
      rest = afterLen.drop (h.len % 2 ^ 64) := by
  unfold next
  constructor
  · intro hnext
    cases hkey : read bytes with
    | none => simp [hkey] at hnext
    | some kr =>
      obtain ⟨key, afterKey⟩ := kr
      rw [hkey] at hnext
      dsimp only at hnext
      split_ifs at hnext with htype
      cases hlen : read afterKey with
      | none => simp [hlen] at hnext
      | some lr =>
        obtain ⟨len, afterLen⟩ := lr
        rw [hlen] at hnext
        dsimp only at hnext
        split_ifs at hnext with hshort
        simp only [Option.some.injEq, Prod.mk.injEq] at hnext
        obtain ⟨rfl, rfl⟩ := hnext
        exact ⟨afterKey, afterLen, rfl, by simpa using htype, hlen, not_lt.mp hshort, rfl, rfl⟩
  · rintro ⟨afterKey, afterLen, hkey, htype, hlen, hle, hcontent, rfl⟩
    obtain ⟨key, len, content⟩ := h
    dsimp only at *
    rw [hkey]
    dsimp only
    rw [if_neg (by omega), hlen]
    dsimp only
    rw [if_neg (by omega), hcontent]

theorem next_length {bytes rest : List UInt8} {h : Header} (hnext : next bytes = some (h, rest)) :
    rest.length < bytes.length := by
  obtain ⟨afterKey, afterLen, hkey, -, hlen, -, -, rfl⟩ := next_iff.mp hnext
  have hkeyLt := read_length hkey
  have hlenLt := read_length hlen
  rw [List.length_drop]
  omega

theorem split_nil_iff {hs : List Header} : Split [] hs ↔ hs = [] := by
  constructor
  · intro h
    generalize hb : ([] : List UInt8) = bytes at h
    cases h with
    | nil => rfl
    | cons hkey =>
      have := hkey.ne_nil
      simp_all
  · rintro rfl
    exact .nil

theorem next_cons {keyBytes lenBytes content rest : List UInt8} {key len : ℕ}
    (hkey : Groups keyBytes key) (hkeyShort : keyBytes.length ≤ 10) (htype : key % 8 = 2)
    (hlen : Groups lenBytes len) (hlenShort : lenBytes.length ≤ 10)
    (hcontent : content.length = len % 2 ^ 64) :
    next (keyBytes ++ (lenBytes ++ (content ++ rest))) = some (⟨key, len, content⟩, rest) := by
  refine next_iff.mpr ⟨lenBytes ++ (content ++ rest), content ++ rest,
    read_iff.mpr ⟨keyBytes, hkey, hkeyShort, rfl⟩, htype,
    read_iff.mpr ⟨lenBytes, hlen, hlenShort, rfl⟩, ?_, ?_, ?_⟩
  · dsimp only
    rw [← hcontent, List.length_append]
    exact Nat.le_add_right _ _
  · dsimp only
    rw [← hcontent, List.take_left]
  · dsimp only
    rw [← hcontent, List.drop_left]

/-- The first field of a byte string is read off its front. -/
theorem split_iff {bytes : List UInt8} {hs : List Header} (hne : bytes ≠ []) :
    Split bytes hs ↔ ∃ h rest hs', next bytes = some (h, rest) ∧ Split rest hs' ∧ hs = h :: hs' := by
  constructor
  · intro h
    cases h with
    | nil => exact absurd rfl hne
    | cons hkey hkeyShort htype hlen hlenShort hcontent hrest =>
      exact ⟨_, _, _, next_cons hkey hkeyShort htype hlen hlenShort hcontent, hrest, rfl⟩
  · rintro ⟨⟨key, len, content⟩, rest, hs', hnext, hrest, rfl⟩
    obtain ⟨afterKey, afterLen, hkey, htype, hlen, hle, hcontent, rfl⟩ := next_iff.mp hnext
    dsimp only at hkey htype hlen hle hcontent hrest
    obtain ⟨keyBytes, hkeyGroups, hkeyShort, rfl⟩ := read_iff.mp hkey
    obtain ⟨lenBytes, hlenGroups, hlenShort, rfl⟩ := read_iff.mp hlen
    have hlength : content.length = len % 2 ^ 64 := by
      rw [hcontent, List.length_take]
      omega
    have hsplit := Split.cons hkeyGroups hkeyShort htype hlenGroups hlenShort hlength hrest
    rwa [hcontent, List.take_append_drop, ← hcontent] at hsplit

/-- Fields are cut off in one way only. -/
theorem Split.unique {bytes : List UInt8} {hs hs' : List Header} (h : Split bytes hs)
    (h' : Split bytes hs') : hs = hs' := by
  induction h generalizing hs' with
  | nil => exact (split_nil_iff.mp h').symm
  | cons hkey hkeyShort htype hlen hlenShort hcontent _ ih =>
    obtain ⟨_, _, _, hnext, hrest', rfl⟩ :=
      (split_iff (List.append_ne_nil_of_left_ne_nil hkey.ne_nil _)).mp h'
    rw [next_cons hkey hkeyShort htype hlen hlenShort hcontent, Option.some.injEq,
      Prod.mk.injEq] at hnext
    obtain ⟨rfl, rfl⟩ := hnext
    rw [ih hrest']

/-- The grammar of fields is that of a 64-bit reader whose numbers all fit. -/
theorem fields_iff {bytes : List UInt8} {fs : List Field} :
    Fields bytes fs ↔ ∃ hs, Split bytes hs ∧ (∀ h ∈ hs, h.Fits) ∧ fs = hs.map Header.field := by
  constructor
  · intro h
    induction h with
    | nil => exact ⟨[], .nil, nofun, rfl⟩
    | @cons keyBytes lenBytes content rest key fs hkey htype hlen hrest ih =>
      obtain ⟨hs, hsplit, hfits, rfl⟩ := ih
      refine ⟨⟨key, content.length, content⟩ :: hs, .cons hkey.groups hkey.short htype hlen.groups
        hlen.short (Nat.mod_eq_of_lt hlen.fits).symm hsplit, ?_, rfl⟩
      intro h hh
      rcases List.mem_cons.mp hh with rfl | hh
      · exact ⟨hkey.fits, hlen.fits⟩
      · exact hfits h hh
  · rintro ⟨hs, hsplit, hfits, rfl⟩
    induction hsplit with
    | nil => exact .nil
    | @cons keyBytes lenBytes content rest key len hs hkey hkeyShort htype hlen hlenShort hcontent hrest ih =>
      have hfirst := hfits _ List.mem_cons_self
      have hlength : content.length = len := hcontent.trans (Nat.mod_eq_of_lt hfirst.len)
      refine Fields.cons ⟨hkey, hkeyShort, hfirst.key⟩ htype ⟨?_, hlenShort, ?_⟩
        (ih fun h hh => hfits h (List.mem_cons_of_mem _ hh))
      · rwa [hlength]
      · rw [hlength]
        exact hfirst.len

end Protobuf
