import PeerCore.Transport.Tcp

/-!
# Addresses

`parse_ip4_tcp_text` (`types.cpp:21-60`) cuts a text at `/`, fills at most seven slots
with the non-empty parts and accepts four or six of them. The port is what `strtol` makes
of the fourth part as a C string, so a NUL ends it.

* `parse_ok_iff`: what the parser accepts, by its components.
* `strtol_iff`: the C strings that `strtol` reads to their end.
* `addresses_exact_iff`: what `from_ip4_tcp` builds is read back, and what is accepted has
  the shape, unless something is hidden behind a NUL.
* `hidden_tail`: such an address.
-/

namespace PeerCore

/-- `Multiaddr::from_ip4_tcp` with a peer id (`types.cpp:195-201`). -/
def Multiaddr.fromIp4TcpPeer (ip : Bytes) (port : UInt16) (peerId : Bytes) : Multiaddr :=
  ⟨ascii "/ip4/" ++ ip ++ ascii "/tcp/" ++ ascii (toString port.toNat) ++ ascii "/p2p/" ++ peerId⟩

/-! ## Numerals -/

/-- The value of decimal digits. -/
def decimal (digits : Bytes) : ℤ :=
  digits.foldl (fun acc d => acc * 10 + (d.toNat - 48 : ℕ)) 0

/-- A numeral in the C sense: white space, a sign, and digits. -/
def Denotes (n : Bytes) (v : ℤ) : Prop :=
  ∃ space sign digits, n = space ++ (sign ++ digits) ∧ (∀ c ∈ space, isSpace c = true) ∧
    (sign = [] ∨ sign = [43] ∨ sign = [45]) ∧ digits ≠ [] ∧ (∀ d ∈ digits, isDigit d = true) ∧
    v = if sign = [45] then -decimal digits else decimal digits

/-- The text up to the first NUL. -/
def cString (s : Bytes) : Bytes := s.takeWhile (· ≠ 0)

/-- The text behind the sign. -/
def unsigned (t : Bytes) : Bytes :=
  if t.head? == some 45 ∨ t.head? == some 43 then t.tail else t

theorem strtol_eq (s : Bytes) :
    strtol s =
      let t := (cString s).dropWhile isSpace
      let digits := (unsigned t).takeWhile isDigit
      if digits.isEmpty then (0, cString s)
      else if t.head? == some 45 then
        (max (-decimal digits) (-2 ^ 63), (unsigned t).drop digits.length)
      else (min (decimal digits) (2 ^ 63 - 1), (unsigned t).drop digits.length) := rfl

theorem isDigit_toNat {d : UInt8} (h : isDigit d = true) : 48 ≤ d.toNat ∧ d.toNat ≤ 57 := by
  simp only [isDigit, Bool.and_eq_true, decide_eq_true_eq] at h
  exact ⟨UInt8.le_iff_toNat_le.mp h.1, UInt8.le_iff_toNat_le.mp h.2⟩

theorem isSpace_toNat {c : UInt8} (h : isSpace c = true) : c.toNat ≤ 32 ∧ c.toNat ≠ 0 := by
  simp only [isSpace, Bool.or_eq_true, beq_iff_eq, Bool.and_eq_true, decide_eq_true_eq] at h
  rcases h with rfl | ⟨hlow, hhigh⟩
  · decide
  · have hlow : 9 ≤ c.toNat := UInt8.le_iff_toNat_le.mp hlow
    have hhigh : c.toNat ≤ 13 := UInt8.le_iff_toNat_le.mp hhigh
    omega

/-- A numeral has no NUL in it. -/
theorem Denotes.no_nul {n : Bytes} {v : ℤ} (h : Denotes n v) : (0 : UInt8) ∉ n := by
  obtain ⟨space, sign, digits, rfl, hspace, hsign, -, hdigits, -⟩ := h
  intro hzero
  rcases List.mem_append.mp hzero with hzero | hzero
  · exact (isSpace_toNat (hspace 0 hzero)).2 rfl
  · rcases List.mem_append.mp hzero with hzero | hzero
    · rcases hsign with rfl | rfl | rfl <;> simp at hzero
    · exact absurd (isDigit_toNat (hdigits 0 hzero)).1 (by decide)

theorem unsigned_sign {sign digits : Bytes} (hsign : sign = [] ∨ sign = [43] ∨ sign = [45])
    (hne : digits ≠ []) (hdigits : ∀ d ∈ digits, isDigit d = true) :
    unsigned (sign ++ digits) = digits ∧
      ((sign ++ digits).head? == some 45) = decide (sign = [45]) ∧
      (sign ++ digits).dropWhile isSpace = sign ++ digits := by
  obtain ⟨d, ds, rfl⟩ := List.exists_cons_of_ne_nil hne
  have hd := isDigit_toNat (hdigits d List.mem_cons_self)
  rcases hsign with rfl | rfl | rfl
  · have hminus : d ≠ 45 := by
      rintro rfl
      exact absurd hd.1 (by decide)
    have hplus : d ≠ 43 := by
      rintro rfl
      exact absurd hd.1 (by decide)
    have hspace : isSpace d = false := by
      rw [← Bool.not_eq_true]
      intro h
      have := (isSpace_toNat h).1
      omega
    refine ⟨?_, ?_, ?_⟩
    · simp [unsigned, hminus, hplus]
    · simp [hminus]
    · rw [List.nil_append, List.dropWhile_cons_of_neg (by simp [hspace])]
  · exact ⟨by simp [unsigned], by simp, List.dropWhile_cons_of_neg (by decide)⟩
  · exact ⟨by simp [unsigned], by simp, List.dropWhile_cons_of_neg (by decide)⟩

/-- What `strtol` makes of a numeral that a `long` can hold. -/
theorem strtol_of_denotes {s : Bytes} {v : ℤ} (h : Denotes (cString s) v)
    (hlow : -2 ^ 63 ≤ v) (hhigh : v ≤ 2 ^ 63 - 1) : strtol s = (v, []) := by
  obtain ⟨space, sign, digits, hsplit, hspace, hsign, hne, hdigits, hv⟩ := h
  obtain ⟨hunsigned, hminus, hdrop⟩ := unsigned_sign hsign hne hdigits
  have htext : (cString s).dropWhile isSpace = sign ++ digits := by
    rw [hsplit, List.dropWhile_append_of_pos hspace, hdrop]
  have htake : digits.takeWhile isDigit = digits := List.takeWhile_eq_self_iff.mpr hdigits
  have hempty : digits.isEmpty = false := by simp [hne]
  rw [strtol_eq, htext]
  simp only [hunsigned, htake, hempty, hminus, Bool.false_eq_true, if_false, decide_eq_true_eq,
    List.drop_length]
  by_cases hneg : sign = [45]
  · rw [if_pos hneg] at hv ⊢
    rw [← hv, max_eq_left hlow]
  · rw [if_neg hneg] at hv ⊢
    rw [← hv, min_eq_left hhigh]

/-- What `strtol` read to the end is a numeral, or nothing. -/
theorem denotes_of_strtol {s : Bytes} {v : ℤ} (h : strtol s = (v, [])) (hlow : 0 ≤ v)
    (hhigh : v ≤ 65535) : cString s = [] ∧ v = 0 ∨ Denotes (cString s) v := by
  rw [strtol_eq] at h
  have hspace : ∀ c ∈ (cString s).takeWhile isSpace, isSpace c = true :=
    fun c hc => List.mem_takeWhile_imp hc
  have hsplit : (cString s).takeWhile isSpace ++ (cString s).dropWhile isSpace = cString s :=
    List.takeWhile_append_dropWhile
  generalize (cString s).takeWhile isSpace = space at hspace hsplit
  generalize (cString s).dropWhile isSpace = t at h hsplit
  simp only at h
  have hdigits : ∀ d ∈ (unsigned t).takeWhile isDigit, isDigit d = true :=
    fun d hd => List.mem_takeWhile_imp hd
  have hrest : (unsigned t).takeWhile isDigit ++
      (unsigned t).drop ((unsigned t).takeWhile isDigit).length = unsigned t := by
    exact List.prefix_iff_eq_append.mp (List.takeWhile_prefix isDigit)
  generalize (unsigned t).takeWhile isDigit = digits at h hdigits hrest
  by_cases hnone : digits = []
  · rw [hnone] at h
    simp only [List.isEmpty_nil, if_true, Prod.mk.injEq] at h
    exact .inl ⟨h.2, h.1.symm⟩
  · have hempty : digits.isEmpty = false := by simp [hnone]
    rw [hempty] at h
    simp only [Bool.false_eq_true, if_false] at h
    have hall : unsigned t = digits := by
      rw [← hrest]
      have hleft : (unsigned t).drop digits.length = [] := by
        split_ifs at h
        · exact (Prod.mk.inj h).2
        · exact (Prod.mk.inj h).2
      rw [hleft, List.append_nil]
    right
    by_cases hminus : t.head? = some 45
    · have ht : t = [45] ++ digits := by
        rw [← hall, unsigned, if_pos (by simp [hminus])]
        exact (List.cons_head?_tail hminus).symm
      rw [if_pos (by simp [hminus])] at h
      refine ⟨space, [45], digits, by rw [← hsplit, ht], hspace, by simp, hnone, hdigits, ?_⟩
      rw [if_pos rfl]
      have hvalue := (Prod.mk.inj h).1
      omega
    · rw [if_neg (by simp [hminus])] at h
      have hvalue := (Prod.mk.inj h).1
      by_cases hplus : t.head? = some 43
      · have ht : t = [43] ++ digits := by
          rw [← hall, unsigned, if_pos (by simp [hplus])]
          exact (List.cons_head?_tail hplus).symm
        refine ⟨space, [43], digits, by rw [← hsplit, ht], hspace, by simp, hnone, hdigits, ?_⟩
        rw [if_neg (by decide)]
        omega
      · have ht : t = digits := by
          rw [← hall, unsigned, if_neg (by simp [hminus, hplus])]
        refine ⟨space, [], digits, by rw [← hsplit, ht, List.nil_append], hspace, by simp, hnone,
          hdigits, ?_⟩
        rw [if_neg (by decide)]
        omega

/-! ## Components -/

/-- The non-empty components of a text. -/
def components (text : Bytes) : List Bytes := (text.splitOn 47).filter (· ≠ [])

/-- The components that carry the peer id. -/
def peerSuffix : Option Bytes → List Bytes
  | none => []
  | some id => [ascii "p2p", id]

theorem components_ne_nil {text part : Bytes} (h : part ∈ components text) : part ≠ [] := by
  simpa using (List.mem_filter.mp h).2

/-- The port as `parse_ip4_tcp_text` checks it. -/
theorem port_ok_iff {n : Bytes} {port : UInt16} :
    ¬((strtol n).2 ≠ [] ∨ (strtol n).1 < 0 ∨ (strtol n).1 > 65535) ∧
        UInt16.ofNat (strtol n).1.toNat = port ↔
      strtol n = ((port.toNat : ℤ), []) := by
  constructor
  · rintro ⟨hchecked, rfl⟩
    have hempty : (strtol n).2 = [] := by
      by_contra hne
      exact hchecked (.inl hne)
    have hrange : 0 ≤ (strtol n).1 ∧ (strtol n).1 ≤ 65535 := by omega
    apply Prod.ext
    · show (strtol n).1 = _
      rw [UInt16.toNat_ofNat', Nat.mod_eq_of_lt (by omega)]
      omega
    · exact hempty
  · intro h
    have hlt := port.toNat_lt
    rw [h]
    refine ⟨?_, by simp⟩
    simp only [ne_eq, not_true_eq_false, false_or, not_or]
    omega

/-- An address of the right shape fails only on its port. -/
theorem parse_shape {text ip n : Bytes} {peerId : Option Bytes}
    (h : components text = [ascii "ip4", ip, ascii "tcp", n] ++ peerSuffix peerId) :
    parseIp4TcpText text =
      if (strtol n).2 ≠ [] ∨ (strtol n).1 < 0 ∨ (strtol n).1 > 65535 then .error "invalid tcp port"
      else .ok ⟨ip, UInt16.ofNat (strtol n).1.toNat, peerId⟩ := by
  unfold parseIp4TcpText addressParts
  rw [← components]
  cases peerId with
  | none =>
    rw [h]
    simp [peerSuffix]
  | some id =>
    have hmem : id ∈ components text := by simp [h, peerSuffix]
    have hid : id ≠ [] := components_ne_nil hmem
    rw [h]
    simp [peerSuffix, hid]

/-- The checks that an accepted address has passed. -/
theorem checks_of_parse {text : Bytes} {e : Ip4TcpEndpoint} (h : parseIp4TcpText text = .ok e) :
    let parts := addressParts text
    (parts.length = 4 ∨ parts.length = 6 ∧ parts.getD 4 [] = ascii "p2p") ∧
      parts.getD 0 [] = ascii "ip4" ∧ parts.getD 2 [] = ascii "tcp" := by
  intro parts
  rw [parseIp4TcpText] at h
  simp only at h
  split_ifs at h with hshape hport hsix hsuffix
  · simp only [not_or, not_and_or, ne_eq, not_not] at hshape hsuffix
    exact ⟨.inr ⟨hsix, hsuffix.1⟩, hshape.2⟩
  · simp only [not_or, not_and_or, ne_eq, not_not] at hshape
    exact ⟨.inl (hshape.1.resolve_right hsix), hshape.2⟩

/-- Seven slots are one more than an accepted address has parts: none is dropped. -/
theorem shape_of_parse {text : Bytes} {e : Ip4TcpEndpoint} (h : parseIp4TcpText text = .ok e) :
    ∃ ip n peerId, components text = [ascii "ip4", ip, ascii "tcp", n] ++ peerSuffix peerId := by
  obtain ⟨hlen, hip4, htcp⟩ := checks_of_parse h
  have hwhole : addressParts text = components text := by
    show (components text).take 7 = components text
    have htake : (addressParts text).length = min 7 (components text).length := List.length_take
    rw [List.take_of_length_le (by omega)]
  rw [hwhole] at hlen hip4 htcp
  match hparts : components text with
  | [_, ip, _, n] =>
    rw [hparts] at hip4 htcp
    obtain rfl := hip4
    obtain rfl := htcp
    exact ⟨ip, n, none, rfl⟩
  | [_, ip, _, n, _, id] =>
    rw [hparts] at hip4 htcp hlen
    have hp2p := (hlen.resolve_left (by simp)).2
    obtain rfl := hip4
    obtain rfl := htcp
    obtain rfl := hp2p
    exact ⟨ip, n, some id, rfl⟩
  | [] | [_] | [_, _] | [_, _, _] | [_, _, _, _, _] =>
    rw [hparts] at hlen
    simp at hlen
  | _ :: _ :: _ :: _ :: _ :: _ :: _ :: _ =>
    rw [hparts] at hlen
    simp at hlen

theorem parse_ok_iff {text : Bytes} {e : Ip4TcpEndpoint} :
    parseIp4TcpText text = .ok e ↔
      ∃ n, components text = [ascii "ip4", e.ip, ascii "tcp", n] ++ peerSuffix e.peerId ∧
        strtol n = ((e.port.toNat : ℤ), []) := by
  constructor
  · intro h
    obtain ⟨ip, n, peerId, hshape⟩ := shape_of_parse h
    rw [parse_shape hshape] at h
    split_ifs at h with hbad
    cases h
    exact ⟨n, hshape, port_ok_iff.mp ⟨hbad, rfl⟩⟩
  · rintro ⟨n, hshape, hport⟩
    obtain ⟨hgood, hvalue⟩ := port_ok_iff.mpr hport
    rw [parse_shape hshape, if_neg hgood, hvalue]

/-! ## Built addresses -/

/-- `std::to_string` of a port. -/
theorem ascii_toString (n : ℕ) :
    ascii (toString n) = (Nat.toDigits 10 n).map fun c => UInt8.ofNat c.toNat := by
  rw [ascii, Nat.toString_eq_repr, Nat.toList_repr]

theorem toNat_digit {c : Char} (h : c.isDigit = true) :
    48 ≤ c.toNat ∧ c.toNat ≤ 57 ∧ (UInt8.ofNat c.toNat).toNat = c.toNat := by
  have hrange : 48 ≤ c.toNat ∧ c.toNat ≤ 57 := Char.isDigit_iff_toNat.mp h
  refine ⟨hrange.1, hrange.2, ?_⟩
  rw [UInt8.toNat_ofNat', Nat.mod_eq_of_lt (by omega)]

theorem decimal_digits {cs : List Char} (hdigits : ∀ c ∈ cs, c.isDigit = true) (acc : ℕ) :
    (cs.map fun c => UInt8.ofNat c.toNat).foldl
        (fun (acc : ℤ) d => acc * 10 + (d.toNat - 48 : ℕ)) acc =
      (Nat.ofDigitChars 10 cs acc : ℕ) := by
  induction cs generalizing acc with
  | nil => simp
  | cons c cs ih =>
    have hc := (toNat_digit (hdigits c List.mem_cons_self)).2.2
    have hnext : (acc : ℤ) * 10 + (c.toNat - 48 : ℕ) = (10 * acc + (c.toNat - 48) : ℕ) := by
      push_cast
      ring
    rw [List.map_cons, List.foldl_cons, hc, hnext,
      ih fun c' hc' => hdigits c' (List.mem_cons_of_mem _ hc'), Nat.ofDigitChars_cons]
    rfl

theorem toDigits_isDigit (n : ℕ) : ∀ c ∈ Nat.toDigits 10 n, c.isDigit = true :=
  fun _ hc => Nat.isDigit_of_mem_toDigits (by norm_num) (by norm_num) hc

theorem ascii_toString_isDigit (n : ℕ) : ∀ d ∈ ascii (toString n), isDigit d = true := by
  rw [ascii_toString]
  intro d hd
  obtain ⟨c, hc, rfl⟩ := List.mem_map.mp hd
  obtain ⟨hlow, hhigh, hvalue⟩ := toNat_digit (toDigits_isDigit n c hc)
  simp only [isDigit, Bool.and_eq_true, decide_eq_true_eq]
  constructor
  · rw [UInt8.le_iff_toNat_le, hvalue]
    exact hlow
  · rw [UInt8.le_iff_toNat_le, hvalue]
    exact hhigh

theorem ascii_toString_ne_nil (n : ℕ) : ascii (toString n) ≠ [] := by
  rw [ascii_toString]
  simp [Nat.toDigits_ne_nil]

theorem ascii_toString_denotes (n : ℕ) : Denotes (ascii (toString n)) n := by
  refine ⟨[], [], ascii (toString n), rfl, nofun, .inl rfl, ascii_toString_ne_nil n,
    ascii_toString_isDigit n, ?_⟩
  rw [if_neg (by decide), ascii_toString, decimal]
  have hvalue := decimal_digits (toDigits_isDigit n) 0
  rw [Nat.ofDigitChars_ten_toDigits] at hvalue
  exact hvalue.symm

/-- The components of a text are those it was joined from. -/
theorem components_join {parts : List Bytes} (hne : ∀ part ∈ parts, part ≠ [])
    (hslash : ∀ part ∈ parts, (47 : UInt8) ∉ part) (hparts : parts ≠ []) :
    components (47 :: [47].intercalate parts) = parts := by
  have hsplit : (47 :: [47].intercalate parts).splitOn 47 = [] :: parts := by
    have hjoin : (47 :: [47].intercalate parts : Bytes) = [47].intercalate ([] :: parts) := by
      obtain ⟨part, parts, rfl⟩ := List.exists_cons_of_ne_nil hparts
      rfl
    rw [hjoin]
    exact List.splitOn_intercalate 47 (by simpa using hslash) (by simp)
  rw [components, hsplit, List.filter_cons_of_neg (by simp), List.filter_eq_self]
  intro part hpart
  simpa using hne part hpart

/-! ## Exact addresses -/

/-- What is accepted as an address is one: its components have the shape, and the fourth
    is a numeral of the port. -/
def ExactAddress (text : Bytes) : Prop :=
  ∀ e, parseIp4TcpText text = .ok e →
    ∃ n, components text = [ascii "ip4", e.ip, ascii "tcp", n] ++ peerSuffix e.peerId ∧
      Denotes n e.port.toNat

/-- The port component goes on behind a NUL, before which stands a port or nothing. -/
def HiddenTail (text : Bytes) : Prop :=
  ∃ ip n peerId, components text = [ascii "ip4", ip, ascii "tcp", n] ++ peerSuffix peerId ∧
    (0 : UInt8) ∈ n ∧ (cString n = [] ∨ ∃ v : ℕ, v ≤ 65535 ∧ Denotes (cString n) v)

/-- A text without NUL is its own C string. -/
theorem cString_eq {n : Bytes} (h : (0 : UInt8) ∉ n) : cString n = n := by
  rw [cString, List.takeWhile_eq_self_iff]
  intro c hc
  have hne : c ≠ 0 := by
    rintro rfl
    exact h hc
  simpa using hne

theorem exactAddress_iff (text : Bytes) : ExactAddress text ↔ ¬HiddenTail text := by
  constructor
  · rintro hexact ⟨ip, n, peerId, hshape, hnul, hport⟩
    obtain ⟨v, hv, hread⟩ : ∃ v : ℕ, v ≤ 65535 ∧ strtol n = ((v : ℤ), []) := by
      rcases hport with hempty | ⟨v, hv, hdenotes⟩
      · refine ⟨0, by norm_num, ?_⟩
        rw [strtol_eq, hempty]
        rfl
      · exact ⟨v, hv, strtol_of_denotes hdenotes (by omega) (by omega)⟩
    have hport : ((UInt16.ofNat v).toNat : ℤ) = v := by
      rw [UInt16.toNat_ofNat', Nat.mod_eq_of_lt (by omega)]
    have hok : parseIp4TcpText text = .ok ⟨ip, UInt16.ofNat v, peerId⟩ := by
      refine parse_ok_iff.mpr ⟨n, hshape, ?_⟩
      rw [hport]
      exact hread
    obtain ⟨n', hshape', hdenotes⟩ := hexact _ hok
    rw [hshape] at hshape'
    simp only [List.cons_append, List.nil_append, List.cons.injEq, true_and] at hshape'
    rw [← hshape'.1] at hdenotes
    exact hdenotes.no_nul hnul
  · intro hnone e hok
    obtain ⟨n, hshape, hread⟩ := parse_ok_iff.mp hok
    have hlt := e.port.toNat_lt
    have hcases := denotes_of_strtol hread (by omega) (by omega)
    have hnul : (0 : UInt8) ∉ n := by
      intro hnul
      refine hnone ⟨e.ip, n, e.peerId, hshape, hnul, ?_⟩
      rcases hcases with ⟨hempty, -⟩ | hdenotes
      · exact .inl hempty
      · exact .inr ⟨e.port.toNat, by omega, hdenotes⟩
    rw [cString_eq hnul] at hcases
    refine ⟨n, hshape, hcases.resolve_left ?_⟩
    rintro ⟨rfl, -⟩
    have hmem : [] ∈ components text := by simp [hshape]
    exact components_ne_nil hmem rfl

theorem strtol_port (port : UInt16) :
    strtol (ascii (toString port.toNat)) = ((port.toNat : ℤ), []) := by
  have hlt := port.toNat_lt
  have hdenotes := ascii_toString_denotes port.toNat
  refine strtol_of_denotes ?_ (by omega) (by omega)
  rw [cString_eq hdenotes.no_nul]
  exact hdenotes

/-- A text joined from parts of the right shape is parsed to them. -/
theorem parse_join {text ip : Bytes} {port : UInt16} {peerId : Option Bytes} (hip : ip ≠ [])
    (hipSlash : (47 : UInt8) ∉ ip) (hid : ∀ id ∈ peerId, id ≠ [] ∧ (47 : UInt8) ∉ id)
    (htext : text = 47 :: [47].intercalate
      ([ascii "ip4", ip, ascii "tcp", ascii (toString port.toNat)] ++ peerSuffix peerId)) :
    parseIp4TcpText text = .ok ⟨ip, port, peerId⟩ := by
  have hport : (47 : UInt8) ∉ ascii (toString port.toNat) := by
    intro hslash
    have := (isDigit_toNat (ascii_toString_isDigit _ _ hslash)).1
    exact absurd this (by decide)
  have hgood : ∀ part ∈ [ascii "ip4", ip, ascii "tcp", ascii (toString port.toNat)] ++
      peerSuffix peerId, part ≠ [] ∧ (47 : UInt8) ∉ part := by
    intro part hpart
    rcases List.mem_append.mp hpart with hpart | hpart
    · simp only [List.mem_cons, List.not_mem_nil, or_false] at hpart
      rcases hpart with rfl | rfl | rfl | rfl
      · decide
      · exact ⟨hip, hipSlash⟩
      · decide
      · exact ⟨ascii_toString_ne_nil _, hport⟩
    · cases peerId with
      | none => cases hpart
      | some id =>
        simp only [peerSuffix, List.mem_cons, List.not_mem_nil, or_false] at hpart
        rcases hpart with rfl | rfl
        · decide
        · exact hid _ rfl
  refine parse_ok_iff.mpr ⟨ascii (toString port.toNat), ?_, strtol_port port⟩
  rw [htext, components_join (fun part hpart => (hgood part hpart).1)
    (fun part hpart => (hgood part hpart).2) (by simp)]

/-- What `from_ip4_tcp` builds of parts without `/`, with a peer id or without, is parsed to
    these parts. -/
theorem parse_fromIp4Tcp {ip : Bytes} (hip : ip ≠ []) (hslash : (47 : UInt8) ∉ ip) (port : UInt16) :
    (Multiaddr.fromIp4Tcp ip port).parseIp4Tcp = .ok ⟨ip, port, none⟩ ∧
      ∀ peerId : Bytes, peerId ≠ [] → (47 : UInt8) ∉ peerId →
        (Multiaddr.fromIp4TcpPeer ip port peerId).parseIp4Tcp = .ok ⟨ip, port, some peerId⟩ := by
  refine ⟨?_, fun peerId hid hidSlash => ?_⟩
  · refine parse_join hip hslash nofun ?_
    show ascii "/ip4/" ++ ip ++ ascii "/tcp/" ++ ascii (toString port.toNat) = _
    simp [ascii, peerSuffix, List.intercalate]
  · refine parse_join hip hslash ?_ ?_
    · rintro id ⟨⟩
      exact ⟨hid, hidSlash⟩
    · show ascii "/ip4/" ++ ip ++ ascii "/tcp/" ++ ascii (toString port.toNat) ++ ascii "/p2p/" ++
        peerId = _
      simp [ascii, peerSuffix, List.intercalate]

/-- The parts that an address is built of are read back, and `text` is accepted only if it
    has the shape, with a numeral of the returned port, if and only if nothing is hidden
    behind a NUL in the port of `text`. -/
theorem addresses_exact_iff (text : Bytes) :
    ((∀ ip : Bytes, ip ≠ [] → (47 : UInt8) ∉ ip → ∀ port : UInt16,
      (Multiaddr.fromIp4Tcp ip port).parseIp4Tcp = .ok ⟨ip, port, none⟩ ∧
      ∀ peerId : Bytes, peerId ≠ [] → (47 : UInt8) ∉ peerId →
        (Multiaddr.fromIp4TcpPeer ip port peerId).parseIp4Tcp = .ok ⟨ip, port, some peerId⟩) ∧
      ExactAddress text) ↔ ¬HiddenTail text := by
  rw [← exactAddress_iff text]
  exact and_iff_right fun ip hip hslash port => parse_fromIp4Tcp hip hslash port

/-- The port component of this address is `80`, a NUL and `zz`. -/
def hiddenAddress : Bytes := ascii "/ip4/1.2.3.4/tcp/80" ++ 0 :: ascii "zz"

/-- It is accepted, and `zz` is dropped. -/
theorem hidden_tail :
    parseIp4TcpText hiddenAddress = .ok ⟨ascii "1.2.3.4", 80, none⟩ ∧
      components hiddenAddress =
        [ascii "ip4", ascii "1.2.3.4", ascii "tcp", ascii "80" ++ 0 :: ascii "zz"] ∧
      ¬ExactAddress hiddenAddress := by
  have hparts : components hiddenAddress =
      [ascii "ip4", ascii "1.2.3.4", ascii "tcp", ascii "80" ++ 0 :: ascii "zz"] := by
    decide +kernel
  refine ⟨by decide +kernel, hparts, ?_⟩
  rw [exactAddress_iff, not_not]
  refine ⟨ascii "1.2.3.4", ascii "80" ++ 0 :: ascii "zz", none, hparts, by simp,
    .inr ⟨80, by norm_num, ?_⟩⟩
  exact ⟨[], [], ascii "80", by decide, nofun, .inl rfl, by decide, by decide +kernel, by decide +kernel⟩

end PeerCore
