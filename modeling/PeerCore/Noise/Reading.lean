import PeerCore.Lib.Protobuf
import PeerCore.Noise.Payload

/-!
# The handshake payload as protobuf

`parse_handshake_payload` and `parse_extensions` keep the low 32 bits of a field
number and the low 64 bits of a varint. Here they are compared with a reading
that keeps every bit.

* `ReadsExtensions`, `ReadsPayload`: the reference reading, over the grammar of
  `Protobuf.Fields`.
* `ParsesExtensions`, `ParsesPayload`: the same over `Protobuf.Split`, with numbers
  narrowed to 32 bits. `parseHandshakePayload_iff`: this is what the parser does.
* `Harmless`: narrowing decides nothing. `reads_payload_iff`: the parser is the
  reference exactly on these payloads.
* `Clean.harmless`: it decides nothing where no number changes its meaning.
* `aliased_identity_key`: field 2^32 + 1 is taken for the identity key.
-/

namespace PeerCore.Noise

open Protobuf (Field Fields Header Split)

/-! ## The reference -/

/-- The fields `fs` make up the payload `out`, where `Extends` reads extensions: every
    field numbered 4 holds extensions, the last fields numbered 1 and 2 are there and
    non-empty, the last one numbered 4 gives the extensions, and the others are ignored. -/
structure ReadsFields (Extends : Bytes → NoiseExtensions → Prop) (fs : List Field)
    (out : NoiseHandshakePayload) : Prop where
  parsed : ∀ f ∈ fs, f.number = 4 → ∃ ext, Extends f.content ext
  identityKey : Protobuf.last 1 fs = some out.identityKey
  identityKey_ne : out.identityKey ≠ []
  identitySig : Protobuf.last 2 fs = some out.identitySig
  identitySig_ne : out.identitySig ≠ []
  extensions : (Protobuf.last 4 fs).elim (out.extensions = {}) (Extends · out.extensions)

/-- `bytes` are extensions: a sequence of fields of which those numbered 2 are the
    stream muxers, in order. -/
def ReadsExtensions (bytes : Bytes) (ext : NoiseExtensions) : Prop :=
  ∃ fs, Fields bytes fs ∧ ext.streamMuxers = Protobuf.contents 2 fs

/-- The reference reading of a payload. -/
def ReadsPayload (bytes : Bytes) (out : NoiseHandshakePayload) : Prop :=
  ∃ fs, Fields bytes fs ∧ ReadsFields ReadsExtensions fs out

/-! ## The reading of the code -/

/-- The field of a header, by the low 32 bits of its number. -/
def narrowed (h : Header) : Field := ⟨h.key / 8 % 2 ^ 32, h.content⟩

/-- Extensions as the code reads them. -/
def ParsesExtensions (bytes : Bytes) (ext : NoiseExtensions) : Prop :=
  ∃ hs, Split bytes hs ∧ ext.streamMuxers = Protobuf.contents 2 (hs.map narrowed)

/-- A payload as the code reads it. -/
def ParsesPayload (bytes : Bytes) (out : NoiseHandshakePayload) : Prop :=
  ∃ hs, Split bytes hs ∧ ReadsFields ParsesExtensions (hs.map narrowed) out

/-! ## One field -/

theorem decodeUvarint_some {bytes rest : Bytes} {v : ℕ} (h : Protobuf.read bytes = some (v, rest)) :
    decodeUvarint bytes = .ok (v % 2 ^ 64, rest) := by
  have hread := Protobuf.decode_read bytes
  rw [h] at hread
  rw [decodeUvarint, decodeVarint]
  cases hd : Varint.decode bytes with
  | error e => simp [hd, Except.toOption] at hread
  | ok r =>
    simp only [hd, Except.toOption, Option.map_some, Option.some.injEq] at hread
    rw [hread]

theorem decodeUvarint_none {bytes : Bytes} (h : Protobuf.read bytes = none) :
    ∃ e, decodeUvarint bytes = .error e := by
  have hread := Protobuf.decode_read bytes
  rw [h] at hread
  rw [decodeUvarint, decodeVarint]
  cases hd : Varint.decode bytes with
  | ok r => simp [hd, Except.toOption] at hread
  | error e => cases e <;> exact ⟨_, rfl⟩

theorem fieldNumber_eq (key : ℕ) : fieldNumber key = key / 8 % 2 ^ 32 := by
  rw [fieldNumber, Nat.shiftRight_eq_div_pow]

theorem wireType_eq (key : ℕ) : wireType key = key % 8 := Nat.and_two_pow_sub_one_eq_mod key 3

/-- What an iteration of either field loop does first: the key, the content and
    the bytes behind it. -/
def nextField (badType badLength : String) (bytes : Bytes) : Result (ℕ × Bytes × Bytes) := do
  let (key, bytes) ← decodeUvarint bytes
  if wireType key ≠ 2 then throw badType
  let (len, bytes) ← decodeUvarint bytes
  if bytes.length < len then throw badLength
  pure (key, bytes.take len, bytes.drop len)

theorem parseExtensionsLoop_next (fuel : ℕ) {bytes : Bytes} (hne : bytes ≠ [])
    (muxers : List ProtocolId) :
    parseExtensionsLoop (fuel + 1) bytes muxers =
      (nextField "unsupported noise extension" "invalid noise extension" bytes >>= fun r =>
        parseExtensionsLoop fuel r.2.2
          (if fieldNumber r.1 = 2 then muxers ++ [r.2.1] else muxers)) := by
  rw [parseExtensionsLoop, if_neg hne, nextField]
  cases decodeUvarint bytes with
  | error e => rfl
  | ok kr =>
    obtain ⟨key, afterKey⟩ := kr
    simp only [Except.ok_bind]
    by_cases htype : wireType key = 2
    · simp only [htype, ne_eq, not_true_eq_false, if_false]
      cases decodeUvarint afterKey with
      | error e => rfl
      | ok lr =>
        obtain ⟨len, afterLen⟩ := lr
        simp only [Except.ok_bind]
        by_cases hlen : afterLen.length < len
        · simp only [hlen, if_true]
          rfl
        · simp only [hlen, if_false]
          rfl
    · simp only [htype, ne_eq, not_false_eq_true, if_true]
      rfl

theorem parsePayloadLoop_next (fuel : ℕ) {bytes : Bytes} (hne : bytes ≠ [])
    (out : NoiseHandshakePayload) :
    parsePayloadLoop (fuel + 1) bytes out =
      (nextField "invalid noise handshake payload" "invalid noise handshake payload" bytes >>= fun r =>
        if fieldNumber r.1 = 1 then parsePayloadLoop fuel r.2.2 { out with identityKey := r.2.1 }
        else if fieldNumber r.1 = 2 then parsePayloadLoop fuel r.2.2 { out with identitySig := r.2.1 }
        else if fieldNumber r.1 = 4 then do
          let extensions ← parseExtensions r.2.1
          parsePayloadLoop fuel r.2.2 { out with extensions := extensions }
        else parsePayloadLoop fuel r.2.2 out) := by
  rw [parsePayloadLoop, if_neg hne, nextField]
  cases decodeUvarint bytes with
  | error e => rfl
  | ok kr =>
    obtain ⟨key, afterKey⟩ := kr
    simp only [Except.ok_bind]
    by_cases htype : wireType key = 2
    · simp only [htype, ne_eq, not_true_eq_false, if_false]
      cases decodeUvarint afterKey with
      | error e => rfl
      | ok lr =>
        obtain ⟨len, afterLen⟩ := lr
        simp only [Except.ok_bind]
        by_cases hlen : afterLen.length < len
        · simp only [hlen, if_true]
          rfl
        · simp only [hlen, if_false]
          rfl
    · simp only [htype, ne_eq, not_false_eq_true, if_true]
      rfl

/-- What an iteration reads is the next field, with its key modulo 2^64. -/
theorem nextField_iff (badType badLength : String) {bytes content rest : Bytes} {key : ℕ} :
    nextField badType badLength bytes = .ok (key, content, rest) ↔
      ∃ h, Protobuf.next bytes = some (h, rest) ∧ key = h.key % 2 ^ 64 ∧ content = h.content := by
  simp only [Protobuf.next_iff]
  unfold nextField
  constructor
  · intro h
    cases hkey : Protobuf.read bytes with
    | none =>
      obtain ⟨e, he⟩ := decodeUvarint_none hkey
      rw [he] at h
      cases h
    | some kr =>
      obtain ⟨wide, afterKey⟩ := kr
      rw [decodeUvarint_some hkey] at h
      simp only [Except.ok_bind, wireType_eq] at h
      split_ifs at h with htype
      · cases h
      cases hlen : Protobuf.read afterKey with
      | none =>
        obtain ⟨e, he⟩ := decodeUvarint_none hlen
        rw [he] at h
        cases h
      | some lr =>
        obtain ⟨len, afterLen⟩ := lr
        rw [decodeUvarint_some hlen] at h
        simp only [Except.ok_bind] at h
        split_ifs at h with hshort
        · cases h
        cases h
        exact ⟨⟨wide, len, _⟩, ⟨afterKey, afterLen, rfl, by dsimp only; omega, hlen,
          not_lt.mp hshort, rfl, rfl⟩, rfl, rfl⟩
  · rintro ⟨⟨wide, len, content'⟩, ⟨afterKey, afterLen, hkey, htype, hlen, hle, hcontent, rfl⟩, rfl,
      rfl⟩
    dsimp only at *
    rw [decodeUvarint_some hkey]
    simp only [Except.ok_bind, wireType_eq]
    rw [if_neg (by omega), decodeUvarint_some hlen]
    simp only [Except.ok_bind]
    rw [if_neg (by omega), hcontent]
    rfl

theorem fieldNumber_narrowed (h : Header) : fieldNumber (h.key % 2 ^ 64) = (narrowed h).number := by
  rw [fieldNumber_eq, narrowed]
  dsimp only
  omega

/-! ## Extensions -/

/-- The extension loop, from any muxers read so far. -/
theorem parseExtensionsLoop_iff :
    ∀ (fuel : ℕ) (bytes : Bytes) (muxers out : List ProtocolId), bytes.length ≤ fuel →
      (parseExtensionsLoop fuel bytes muxers = .ok out ↔
        ∃ hs, Split bytes hs ∧ out = muxers ++ Protobuf.contents 2 (hs.map narrowed)) := by
  intro fuel
  induction fuel with
  | zero =>
    intro bytes muxers out hfuel
    obtain rfl : bytes = [] := List.eq_nil_of_length_eq_zero (by omega)
    simp [parseExtensionsLoop, Protobuf.split_nil_iff, eq_comm]
  | succ fuel ih =>
    intro bytes muxers out hfuel
    by_cases hne : bytes = []
    · subst hne
      simp [parseExtensionsLoop, Protobuf.split_nil_iff, eq_comm]
    · rw [parseExtensionsLoop_next fuel hne, Except.bind_eq_ok_iff]
      have hmuxers : ∀ (h : Header) (hs : List Header),
          (if (narrowed h).number = 2 then muxers ++ [h.content] else muxers) ++
            Protobuf.contents 2 (hs.map narrowed) =
          muxers ++ Protobuf.contents 2 ((h :: hs).map narrowed) := by
        intro h hs
        rw [List.map_cons, Protobuf.contents_cons, narrowed]
        split_ifs <;> simp
      constructor
      · rintro ⟨⟨key, content, rest⟩, hnext, hloop⟩
        obtain ⟨h, hread, rfl, rfl⟩ := (nextField_iff _ _).mp hnext
        have hlt := Protobuf.next_length hread
        obtain ⟨hs, hsplit, rfl⟩ := (ih rest _ out (by omega)).mp hloop
        refine ⟨h :: hs, (Protobuf.split_iff hne).mpr ⟨h, rest, hs, hread, hsplit, rfl⟩, ?_⟩
        rw [fieldNumber_narrowed]
        exact hmuxers h hs
      · rintro ⟨hs, hsplit, rfl⟩
        obtain ⟨h, rest, hs', hread, hrest, rfl⟩ := (Protobuf.split_iff hne).mp hsplit
        have hlt := Protobuf.next_length hread
        refine ⟨(h.key % 2 ^ 64, h.content, rest), (nextField_iff _ _).mpr ⟨h, hread, rfl, rfl⟩, ?_⟩
        rw [ih rest _ _ (by omega), fieldNumber_narrowed]
        exact ⟨hs', hrest, (hmuxers h hs').symm⟩

theorem parseExtensions_iff {bytes : Bytes} {ext : NoiseExtensions} :
    parseExtensions bytes = .ok ext ↔ ParsesExtensions bytes ext := by
  have hloop := parseExtensionsLoop_iff bytes.length bytes [] ext.streamMuxers le_rfl
  rw [parseExtensions, Except.bind_eq_ok_iff, ParsesExtensions]
  simp only [List.nil_append] at hloop
  rw [← hloop]
  constructor
  · rintro ⟨muxers, h, he⟩
    cases he
    exact h
  · intro h
    exact ⟨_, h, rfl⟩

/-! ## The payload -/

/-- `ReadsFields`, started from `out₀` instead of an empty payload. -/
structure TakesFields (fs : List Field) (out₀ out : NoiseHandshakePayload) : Prop where
  parsed : ∀ f ∈ fs, f.number = 4 → ∃ ext, ParsesExtensions f.content ext
  identityKey : out.identityKey = (Protobuf.last 1 fs).getD out₀.identityKey
  identitySig : out.identitySig = (Protobuf.last 2 fs).getD out₀.identitySig
  extensions : (Protobuf.last 4 fs).elim (out.extensions = out₀.extensions)
    (ParsesExtensions · out.extensions)

theorem takesFields_nil {out₀ out : NoiseHandshakePayload} : TakesFields [] out₀ out ↔ out = out₀ := by
  constructor
  · rintro ⟨-, hkey, hsig, hext⟩
    cases out
    cases out₀
    simp_all
  · rintro rfl
    exact ⟨by simp, rfl, rfl, rfl⟩

/-- A field numbered 4 takes part as extensions. -/
theorem takesFields_extensions {f : Field} {fs : List Field} {out₀ out : NoiseHandshakePayload}
    (h4 : f.number = 4) :
    TakesFields (f :: fs) out₀ out ↔
      ∃ ext, parseExtensions f.content = .ok ext ∧ TakesFields fs { out₀ with extensions := ext } out := by
  have hlast1 : Protobuf.last 1 (f :: fs) = Protobuf.last 1 fs := by simp [h4]
  have hlast2 : Protobuf.last 2 (f :: fs) = Protobuf.last 2 fs := by simp [h4]
  have hlast4 : Protobuf.last 4 (f :: fs) = (Protobuf.last 4 fs).or (some f.content) := by simp [h4]
  constructor
  · rintro ⟨hparsed, hkey, hsig, hext⟩
    obtain ⟨ext, hreads⟩ := hparsed f List.mem_cons_self h4
    refine ⟨ext, parseExtensions_iff.mpr hreads, fun g hg => hparsed g (List.mem_cons_of_mem _ hg),
      by rw [hkey, hlast1], by rw [hsig, hlast2], ?_⟩
    rw [hlast4] at hext
    cases hl : Protobuf.last 4 fs with
    | some c => simpa [hl] using hext
    | none =>
      -- both are what the parser returns
      have hout : parseExtensions f.content = .ok out.extensions :=
        parseExtensions_iff.mpr (by simpa [hl] using hext)
      rw [parseExtensions_iff.mpr hreads] at hout
      cases hout
      rfl
  · rintro ⟨ext, hp, hparsed, hkey, hsig, hext⟩
    have hreads := parseExtensions_iff.mp hp
    refine ⟨?_, by rw [hkey, hlast1], by rw [hsig, hlast2], ?_⟩
    · intro g hg hg4
      rcases List.mem_cons.mp hg with rfl | hg
      · exact ⟨ext, hreads⟩
      · exact hparsed g hg hg4
    · rw [hlast4]
      cases hl : Protobuf.last 4 fs with
      | some c => simpa [hl] using hext
      | none =>
        have hout : out.extensions = ext := by simpa [hl] using hext
        simpa [hout] using hreads

/-- Any other field replaces what its number names. -/
theorem takesFields_plain {f : Field} {fs : List Field} {out₀ out : NoiseHandshakePayload}
    (h4 : f.number ≠ 4) :
    TakesFields (f :: fs) out₀ out ↔
      TakesFields fs ⟨if f.number = 1 then f.content else out₀.identityKey,
        if f.number = 2 then f.content else out₀.identitySig, out₀.extensions⟩ out := by
  have hparsed : (∀ g ∈ f :: fs, g.number = 4 → ∃ ext, ParsesExtensions g.content ext) ↔
      ∀ g ∈ fs, g.number = 4 → ∃ ext, ParsesExtensions g.content ext := by
    simp [h4]
  have hlast : ∀ n d, (Protobuf.last n (f :: fs)).getD d =
      (Protobuf.last n fs).getD (if f.number = n then f.content else d) := by
    intro n d
    rw [Protobuf.last_cons]
    cases Protobuf.last n fs with
    | some c => rfl
    | none => by_cases hn : f.number = n <;> simp [hn]
  have hlast4 : Protobuf.last 4 (f :: fs) = Protobuf.last 4 fs := by simp [h4]
  constructor
  · rintro ⟨h, hkey, hsig, hext⟩
    exact ⟨hparsed.mp h, by rw [hkey, hlast], by rw [hsig, hlast], by rwa [hlast4] at hext⟩
  · rintro ⟨h, hkey, hsig, hext⟩
    exact ⟨hparsed.mpr h, by rw [hkey, hlast], by rw [hsig, hlast], by rwa [hlast4]⟩

/-- The payload loop, from any payload read so far. -/
theorem parsePayloadLoop_iff :
    ∀ (fuel : ℕ) (bytes : Bytes) (out₀ out : NoiseHandshakePayload), bytes.length ≤ fuel →
      (parsePayloadLoop fuel bytes out₀ = .ok out ↔
        ∃ hs, Split bytes hs ∧ TakesFields (hs.map narrowed) out₀ out) := by
  intro fuel
  induction fuel with
  | zero =>
    intro bytes out₀ out hfuel
    obtain rfl : bytes = [] := List.eq_nil_of_length_eq_zero (by omega)
    simp [parsePayloadLoop, Protobuf.split_nil_iff, takesFields_nil, eq_comm]
  | succ fuel ih =>
    intro bytes out₀ out hfuel
    by_cases hne : bytes = []
    · subst hne
      simp [parsePayloadLoop, Protobuf.split_nil_iff, takesFields_nil, eq_comm]
    · -- what is left to show once a field has been read
      have hstep : ∀ h rest, Protobuf.next bytes = some (h, rest) →
          (parsePayloadLoop (fuel + 1) bytes out₀ = .ok out ↔
            ∃ hs, Split rest hs ∧ TakesFields (narrowed h :: hs.map narrowed) out₀ out) := by
        intro h rest hread
        have hlt := Protobuf.next_length hread
        have hih := fun out₁ => ih rest out₁ out (by omega)
        have hnext := (nextField_iff "invalid noise handshake payload"
          "invalid noise handshake payload").mpr ⟨h, hread, rfl, rfl⟩
        rw [parsePayloadLoop_next fuel hne, hnext]
        simp only [Except.ok_bind, fieldNumber_narrowed]
        by_cases hn4 : (narrowed h).number = 4
        · simp only [hn4, Nat.reduceEqDiff, if_false, if_true, Except.bind_eq_ok_iff, hih,
            takesFields_extensions hn4]
          constructor
          · rintro ⟨ext, hp, hs, hsplit, ht⟩
            exact ⟨hs, hsplit, ext, hp, ht⟩
          · rintro ⟨hs, hsplit, ext, hp, ht⟩
            exact ⟨ext, hp, hs, hsplit, ht⟩
        · have hcontent : (narrowed h).content = h.content := rfl
          simp only [takesFields_plain hn4, hn4, if_false, hcontent]
          by_cases hn1 : (narrowed h).number = 1
          · simp [hn1, hih]
          · by_cases hn2 : (narrowed h).number = 2
            · simp [hn2, hih]
            · simp [hn1, hn2, hih]
      constructor
      · intro h
        have hloop := h
        rw [parsePayloadLoop_next fuel hne, Except.bind_eq_ok_iff] at hloop
        obtain ⟨⟨key, content, rest⟩, hnext, -⟩ := hloop
        obtain ⟨header, hread, -, -⟩ := (nextField_iff _ _).mp hnext
        obtain ⟨hs, hsplit, ht⟩ := (hstep header rest hread).mp h
        exact ⟨header :: hs, (Protobuf.split_iff hne).mpr ⟨header, rest, hs, hread, hsplit, rfl⟩, ht⟩
      · rintro ⟨hs, hsplit, ht⟩
        obtain ⟨header, rest, hs', hread, hrest, rfl⟩ := (Protobuf.split_iff hne).mp hsplit
        exact (hstep header rest hread).mpr ⟨hs', hrest, ht⟩

/-- From an empty payload the loop's result, with its identity fields present, is
    what the fields make up. -/
theorem readsFields_iff {fs : List Field} {out : NoiseHandshakePayload} :
    ReadsFields ParsesExtensions fs out ↔
      TakesFields fs {} out ∧ out.identityKey ≠ [] ∧ out.identitySig ≠ [] := by
  have hsome : ∀ (o : Option Bytes) (v : Bytes), v ≠ [] → (v = o.getD [] ↔ o = some v) := by
    intro o v hv
    cases o with
    | none => simp [hv]
    | some c => simp [eq_comm]
  constructor
  · rintro ⟨hparsed, hkey, hk, hsig, hs, hext⟩
    exact ⟨⟨hparsed, (hsome _ _ hk).mpr hkey, (hsome _ _ hs).mpr hsig, hext⟩, hk, hs⟩
  · rintro ⟨⟨hparsed, hkey, hsig, hext⟩, hk, hs⟩
    exact ⟨hparsed, (hsome _ _ hk).mp hkey, hk, (hsome _ _ hs).mp hsig, hs, hext⟩

/-- What `parse_handshake_payload` accepts and returns, for every byte string. -/
theorem parseHandshakePayload_iff {payload : Bytes} {out : NoiseHandshakePayload} :
    parseHandshakePayload payload = .ok out ↔ ParsesPayload payload out := by
  have hloop := fun out => parsePayloadLoop_iff payload.length payload {} out le_rfl
  rw [parseHandshakePayload, Except.bind_eq_ok_iff, ParsesPayload]
  simp only [readsFields_iff, hloop]
  constructor
  · rintro ⟨out₁, ⟨hs, hsplit, ht⟩, h⟩
    split_ifs at h with hmissing
    · cases h
    · cases h
      push Not at hmissing
      exact ⟨hs, hsplit, ht, hmissing⟩
  · rintro ⟨hs, hsplit, ht, hk, hs'⟩
    refine ⟨out, ⟨hs, hsplit, ht⟩, ?_⟩
    rw [if_neg (by simp [hk, hs'])]
    rfl

/-! ## What is accepted -/

/-- The fields of a payload are accepted: those numbered 4 hold extensions, and the last
    ones numbered 1 and 2 are there and non-empty. -/
structure Accepted (IsExtensions : Bytes → Prop) (fs : List Field) : Prop where
  extensions : ∀ f ∈ fs, f.number = 4 → IsExtensions f.content
  identityKey : (Protobuf.last 1 fs).getD [] ≠ []
  identitySig : (Protobuf.last 2 fs).getD [] ≠ []

theorem exists_parsesExtensions {bytes : Bytes} :
    (∃ ext, ParsesExtensions bytes ext) ↔ ∃ es, Split bytes es :=
  ⟨fun ⟨_, es, hsplit, _⟩ => ⟨es, hsplit⟩, fun ⟨es, hsplit⟩ => ⟨⟨_⟩, es, hsplit, rfl⟩⟩

theorem exists_readsExtensions {bytes : Bytes} :
    (∃ ext, ReadsExtensions bytes ext) ↔ ∃ fs, Fields bytes fs :=
  ⟨fun ⟨_, fs, hfields, _⟩ => ⟨fs, hfields⟩, fun ⟨fs, hfields⟩ => ⟨⟨_⟩, fs, hfields, rfl⟩⟩

theorem ReadsFields.accepted {Extends : Bytes → NoiseExtensions → Prop} {fs : List Field}
    {out : NoiseHandshakePayload} (h : ReadsFields Extends fs out) :
    Accepted (fun b => ∃ ext, Extends b ext) fs where
  extensions := h.parsed
  identityKey := by
    rw [h.identityKey]
    exact h.identityKey_ne
  identitySig := by
    rw [h.identitySig]
    exact h.identitySig_ne

/-- Fields that are accepted make up a payload. -/
theorem Accepted.exists_reads {Extends : Bytes → NoiseExtensions → Prop} {fs : List Field}
    (h : Accepted (fun b => ∃ ext, Extends b ext) fs) : ∃ out, ReadsFields Extends fs out := by
  obtain ⟨key, hkey⟩ : ∃ key, Protobuf.last 1 fs = some key := by
    rw [← Option.ne_none_iff_exists']
    intro hnone
    exact h.identityKey (by rw [hnone]; rfl)
  obtain ⟨sig, hsig⟩ : ∃ sig, Protobuf.last 2 fs = some sig := by
    rw [← Option.ne_none_iff_exists']
    intro hnone
    exact h.identitySig (by rw [hnone]; rfl)
  have hkey_ne := h.identityKey
  have hsig_ne := h.identitySig
  rw [hkey] at hkey_ne
  rw [hsig] at hsig_ne
  cases hlast : Protobuf.last 4 fs with
  | none => exact ⟨⟨key, sig, {}⟩, h.extensions, hkey, hkey_ne, hsig, hsig_ne, by rw [hlast]; rfl⟩
  | some content =>
    obtain ⟨f, hf, h4, rfl⟩ := Protobuf.exists_of_last hlast
    obtain ⟨ext, hext⟩ := h.extensions f hf h4
    exact ⟨⟨key, sig, ext⟩, h.extensions, hkey, hkey_ne, hsig, hsig_ne, by rw [hlast]; exact hext⟩

/-- An accepted sequence of fields is parsed, and its last fields numbered 1 and 2 are
    returned. -/
theorem Accepted.exists_parse {payload key sig : Bytes} {hs : List Header}
    (h : Accepted (fun b => ∃ es, Split b es) (hs.map narrowed)) (hsplit : Split payload hs)
    (hkey : Protobuf.last 1 (hs.map narrowed) = some key)
    (hsig : Protobuf.last 2 (hs.map narrowed) = some sig) :
    ∃ out, parseHandshakePayload payload = .ok out ∧ out.identityKey = key ∧
      out.identitySig = sig := by
  obtain ⟨out, hreads⟩ : ∃ out, ReadsFields ParsesExtensions (hs.map narrowed) out :=
    Accepted.exists_reads (by simpa only [exists_parsesExtensions] using h)
  refine ⟨out, parseHandshakePayload_iff.mpr ⟨hs, hsplit, hreads⟩, ?_, ?_⟩
  · exact Option.some.inj (hreads.identityKey.symm.trans hkey)
  · exact Option.some.inj (hreads.identitySig.symm.trans hsig)

/-! ## When narrowing decides nothing -/

/-- The last of the fields numbered 4 holds the extensions `es`, none if there is no
    such field. -/
def LastExtensions (fs : List Field) (es : List Header) : Prop :=
  (Protobuf.last 4 fs).elim (es = []) (Split · es)

/-- Narrowing leaves the fields `hs` of a payload as they are: keys and lengths have 64
    bits, also in the extensions, and the last fields of a narrowed number have what the
    last fields of the whole number have. -/
structure Unchanged (hs : List Header) : Prop where
  fits : ∀ h ∈ hs, h.Fits
  inner : ∀ h ∈ hs, h.key / 8 = 4 → ∀ es, Split h.content es → ∀ e ∈ es, e.Fits
  identityKey : Protobuf.last 1 (hs.map narrowed) = Protobuf.last 1 (hs.map Header.field)
  identitySig : Protobuf.last 2 (hs.map narrowed) = Protobuf.last 2 (hs.map Header.field)
  muxers : ∀ es es', LastExtensions (hs.map narrowed) es → LastExtensions (hs.map Header.field) es' →
    Protobuf.contents 2 (es.map narrowed) = Protobuf.contents 2 (es'.map Header.field)

/-- Narrowing decides nothing about a payload with the fields `hs`: if it is accepted by
    its narrowed numbers, these change nothing, and if it is refused by them, it is refused
    as it stands. -/
structure Harmless (hs : List Header) : Prop where
  accepted : Accepted (fun b => ∃ es, Split b es) (hs.map narrowed) → Unchanged hs
  refused : (∀ h ∈ hs, h.Fits) → Accepted (fun b => ∃ fs, Fields b fs) (hs.map Header.field) →
    Accepted (fun b => ∃ es, Split b es) (hs.map narrowed)

theorem readsExtensions_iff {bytes : Bytes} {ext : NoiseExtensions} :
    ReadsExtensions bytes ext ↔ ∃ es, Split bytes es ∧ (∀ e ∈ es, e.Fits) ∧
      ext.streamMuxers = Protobuf.contents 2 (es.map Header.field) := by
  simp only [ReadsExtensions, Protobuf.fields_iff]
  constructor
  · rintro ⟨_, ⟨es, hsplit, hfits, rfl⟩, hmuxers⟩
    exact ⟨es, hsplit, hfits, hmuxers⟩
  · rintro ⟨es, hsplit, hfits, hmuxers⟩
    exact ⟨_, ⟨es, hsplit, hfits, rfl⟩, hmuxers⟩

/-- The extensions the code takes from its last field of them. -/
theorem parses_last_iff {fs : List Field} {ext : NoiseExtensions} :
    (Protobuf.last 4 fs).elim (ext = {}) (ParsesExtensions · ext) ↔
      ∃ es, LastExtensions fs es ∧ ext.streamMuxers = Protobuf.contents 2 (es.map narrowed) := by
  unfold LastExtensions
  cases Protobuf.last 4 fs with
  | some content => rfl
  | none =>
    cases ext
    simp

/-- The extensions the reference takes from its last field of them. -/
theorem reads_last_iff {fs : List Field} {ext : NoiseExtensions} :
    (Protobuf.last 4 fs).elim (ext = {}) (ReadsExtensions · ext) ↔
      ∃ es, LastExtensions fs es ∧ (∀ e ∈ es, e.Fits) ∧
        ext.streamMuxers = Protobuf.contents 2 (es.map Header.field) := by
  unfold LastExtensions
  cases Protobuf.last 4 fs with
  | some content => exact readsExtensions_iff
  | none =>
    cases ext
    simp

theorem LastExtensions.unique {fs : List Field} {es es' : List Header} (h : LastExtensions fs es)
    (h' : LastExtensions fs es') : es = es' := by
  rw [LastExtensions] at h h'
  cases hlast : Protobuf.last 4 fs with
  | none =>
    rw [hlast] at h h'
    exact Eq.trans h h'.symm
  | some content =>
    rw [hlast] at h h'
    exact Split.unique h h'

/-- Where every field numbered 4 holds extensions, so does the last of them. -/
theorem exists_lastExtensions {fs : List Field}
    (h : ∀ f ∈ fs, f.number = 4 → ∃ es, Split f.content es) : ∃ es, LastExtensions fs es := by
  simp only [LastExtensions]
  cases hlast : Protobuf.last 4 fs with
  | none => exact ⟨[], rfl⟩
  | some content =>
    obtain ⟨f, hf, h4, rfl⟩ := Protobuf.exists_of_last hlast
    exact h f hf h4

theorem readsPayload_iff {payload : Bytes} {out : NoiseHandshakePayload} :
    ReadsPayload payload out ↔ ∃ hs, Split payload hs ∧ (∀ h ∈ hs, h.Fits) ∧
      ReadsFields ReadsExtensions (hs.map Header.field) out := by
  simp only [ReadsPayload, Protobuf.fields_iff]
  constructor
  · rintro ⟨_, ⟨hs, hsplit, hfits, rfl⟩, hreads⟩
    exact ⟨hs, hsplit, hfits, hreads⟩
  · rintro ⟨hs, hsplit, hfits, hreads⟩
    exact ⟨_, ⟨hs, hsplit, hfits, rfl⟩, hreads⟩

/-- A field numbered 4 is one also by its low 32 bits. -/
theorem narrowed_number_four {h : Header} (h4 : h.key / 8 = 4) : (narrowed h).number = 4 := by
  simp [narrowed, h4]

/-- The two readings of the last extensions agree where narrowing leaves them as they are. -/
theorem Unchanged.extensions_iff {hs : List Header} (h : Unchanged hs)
    (haccepted : Accepted (fun b => ∃ es, Split b es) (hs.map narrowed)) {ext : NoiseExtensions} :
    (Protobuf.last 4 (hs.map narrowed)).elim (ext = {}) (ParsesExtensions · ext) ↔
      (Protobuf.last 4 (hs.map Header.field)).elim (ext = {}) (ReadsExtensions · ext) := by
  rw [parses_last_iff, reads_last_iff]
  obtain ⟨es, hes⟩ := exists_lastExtensions haccepted.extensions
  obtain ⟨es', hes'⟩ : ∃ es', LastExtensions (hs.map Header.field) es' := by
    refine exists_lastExtensions fun f hf h4 => ?_
    obtain ⟨header, hmem, rfl⟩ := List.mem_map.mp hf
    exact haccepted.extensions (narrowed header) (List.mem_map_of_mem hmem)
      (narrowed_number_four h4)
  have hmuxers := h.muxers es es' hes hes'
  have hfits : ∀ e ∈ es', e.Fits := by
    have hlast := hes'
    rw [LastExtensions] at hlast
    cases hcase : Protobuf.last 4 (hs.map Header.field) with
    | none =>
      rw [hcase] at hlast
      obtain rfl : es' = [] := hlast
      simp
    | some content =>
      rw [hcase] at hlast
      obtain ⟨f, hf, h4, rfl⟩ := Protobuf.exists_of_last hcase
      obtain ⟨header, hmem, rfl⟩ := List.mem_map.mp hf
      exact h.inner header hmem h4 es' hlast
  constructor
  · rintro ⟨es₁, hes₁, hext⟩
    rw [hes₁.unique hes, hmuxers] at hext
    exact ⟨es', hes', hfits, hext⟩
  · rintro ⟨es₁, hes₁, -, hext⟩
    rw [hes₁.unique hes', ← hmuxers] at hext
    exact ⟨es, hes, hext⟩

/-- The two readings of a sequence of fields agree exactly when narrowing decides nothing. -/
theorem harmless_iff {hs : List Header} :
    (∀ out, ReadsFields ParsesExtensions (hs.map narrowed) out ↔
      (∀ h ∈ hs, h.Fits) ∧ ReadsFields ReadsExtensions (hs.map Header.field) out) ↔ Harmless hs := by
  have hnarrow : ∀ {out}, ReadsFields ParsesExtensions (hs.map narrowed) out →
      Accepted (fun b => ∃ es, Split b es) (hs.map narrowed) := fun h => by
    simpa only [exists_parsesExtensions] using h.accepted
  constructor
  · intro hall
    refine ⟨fun haccepted => ?_, fun hfits haccepted => ?_⟩
    · obtain ⟨out, hreads⟩ : ∃ out, ReadsFields ParsesExtensions (hs.map narrowed) out :=
        Accepted.exists_reads (by simpa only [exists_parsesExtensions] using haccepted)
      obtain ⟨hfits, hwhole⟩ := (hall out).mp hreads
      refine ⟨hfits, ?_, ?_, ?_, ?_⟩
      · intro header hmem h4 es hes
        obtain ⟨ext, hext⟩ := hwhole.parsed header.field (List.mem_map_of_mem hmem) h4
        obtain ⟨es', hes', hfits', -⟩ := readsExtensions_iff.mp hext
        rw [hes.unique hes']
        exact hfits'
      · rw [hreads.identityKey, hwhole.identityKey]
      · rw [hreads.identitySig, hwhole.identitySig]
      · -- the payload with the muxers the code finds is read by the reference too
        intro es es' hes hes'
        obtain ⟨-, hwhole'⟩ :=
          (hall { out with extensions := ⟨Protobuf.contents 2 (es.map narrowed)⟩ }).mp
            { hreads with extensions := parses_last_iff.mpr ⟨es, hes, rfl⟩ }
        obtain ⟨es₁, hes₁, -, hext⟩ := reads_last_iff.mp hwhole'.extensions
        rw [hes₁.unique hes'] at hext
        exact hext
    · obtain ⟨out, hreads⟩ : ∃ out, ReadsFields ReadsExtensions (hs.map Header.field) out :=
        Accepted.exists_reads (by simpa only [exists_readsExtensions] using haccepted)
      exact hnarrow ((hall out).mpr ⟨hfits, hreads⟩)
  · intro h out
    constructor
    · intro hreads
      have haccepted := hnarrow hreads
      have hsame := h.accepted haccepted
      refine ⟨hsame.fits, ?_, ?_, hreads.identityKey_ne, ?_, hreads.identitySig_ne, ?_⟩
      · intro f hf h4
        obtain ⟨header, hmem, rfl⟩ := List.mem_map.mp hf
        obtain ⟨es, hes⟩ :=
          haccepted.extensions _ (List.mem_map_of_mem hmem) (narrowed_number_four h4)
        exact ⟨⟨_⟩, readsExtensions_iff.mpr ⟨es, hes, hsame.inner header hmem h4 es hes, rfl⟩⟩
      · rw [← hsame.identityKey, hreads.identityKey]
      · rw [← hsame.identitySig, hreads.identitySig]
      · exact (hsame.extensions_iff haccepted).mp hreads.extensions
    · rintro ⟨hfits, hreads⟩
      have haccepted := h.refused hfits (by simpa only [exists_readsExtensions] using hreads.accepted)
      have hsame := h.accepted haccepted
      refine ⟨?_, ?_, hreads.identityKey_ne, ?_, hreads.identitySig_ne, ?_⟩
      · intro f hf h4
        exact exists_parsesExtensions.mpr (haccepted.extensions f hf h4)
      · rw [hsame.identityKey, hreads.identityKey]
      · rw [hsame.identitySig, hreads.identitySig]
      · exact (hsame.extensions_iff haccepted).mpr hreads.extensions

/-- `parse_handshake_payload` agrees with the reference exactly on the payloads about which
    narrowing decides nothing. -/
theorem reads_payload_iff (payload : Bytes) :
    (∀ out, parseHandshakePayload payload = .ok out ↔ ReadsPayload payload out) ↔
      ∀ hs, Split payload hs → Harmless hs := by
  simp only [parseHandshakePayload_iff, readsPayload_iff, ParsesPayload]
  constructor
  · intro hall hs hsplit
    rw [← harmless_iff]
    intro out
    constructor
    · intro hreads
      obtain ⟨hs', hsplit', hwhole⟩ := (hall out).mp ⟨hs, hsplit, hreads⟩
      rwa [hsplit.unique hsplit']
    · intro hwhole
      obtain ⟨hs', hsplit', hreads⟩ := (hall out).mpr ⟨hs, hsplit, hwhole⟩
      rwa [hsplit.unique hsplit']
  · intro h out
    constructor
    · rintro ⟨hs, hsplit, hreads⟩
      exact ⟨hs, hsplit, (harmless_iff.mpr (h hs hsplit) out).mp hreads⟩
    · rintro ⟨hs, hsplit, hwhole⟩
      exact ⟨hs, hsplit, (harmless_iff.mpr (h hs hsplit) out).mpr hwhole⟩

/-! ## Clean payloads -/

/-- A header that means the same after narrowing: the key and the length fit 64 bits, and
    the low 32 bits of the field number are one of the `known` numbers only where the
    whole number is. -/
structure Unaliased (known : List ℕ) (h : Header) : Prop where
  fits : h.Fits
  number : h.key / 8 % 2 ^ 32 ∈ known → h.key / 8 < 2 ^ 32

theorem Unaliased.number_iff {known : List ℕ} {h : Header} (hh : Unaliased known h) {n : ℕ}
    (hn : n ∈ known) (hsmall : n < 2 ^ 32) : (narrowed h).number = n ↔ h.field.number = n := by
  show h.key / 8 % 2 ^ 32 = n ↔ h.key / 8 = n
  constructor
  · intro heq
    have := hh.number (heq ▸ hn)
    omega
  · intro heq
    omega

/-- No field of the payload is aliased, nor any of the extensions in it. -/
def Clean (hs : List Header) : Prop :=
  ∀ h ∈ hs, Unaliased [1, 2, 4] h ∧
    (h.key / 8 = 4 → ∀ es, Split h.content es → ∀ e ∈ es, Unaliased [2] e)

theorem last_narrowed {known : List ℕ} {hs : List Header} (hclean : ∀ h ∈ hs, Unaliased known h)
    {n : ℕ} (hn : n ∈ known) (hsmall : n < 2 ^ 32) :
    Protobuf.last n (hs.map narrowed) = Protobuf.last n (hs.map Header.field) := by
  induction hs with
  | nil => rfl
  | cons h hs ih =>
    have hnumber := (hclean h List.mem_cons_self).number_iff hn hsmall
    have hcontent : (narrowed h).content = h.field.content := rfl
    rw [List.map_cons, List.map_cons, Protobuf.last_cons, Protobuf.last_cons, hcontent,
      ih fun h' hh => hclean h' (List.mem_cons_of_mem _ hh)]
    simp only [hnumber]

theorem contents_narrowed {known : List ℕ} {hs : List Header} (hclean : ∀ h ∈ hs, Unaliased known h)
    {n : ℕ} (hn : n ∈ known) (hsmall : n < 2 ^ 32) :
    Protobuf.contents n (hs.map narrowed) = Protobuf.contents n (hs.map Header.field) := by
  induction hs with
  | nil => rfl
  | cons h hs ih =>
    have hnumber := (hclean h List.mem_cons_self).number_iff hn hsmall
    have hcontent : (narrowed h).content = h.field.content := rfl
    rw [List.map_cons, List.map_cons, Protobuf.contents_cons, Protobuf.contents_cons, hcontent,
      ih fun h' hh => hclean h' (List.mem_cons_of_mem _ hh)]
    simp only [hnumber]

/-- About a clean payload narrowing decides nothing. -/
theorem Clean.harmless {hs : List Header} (h : Clean hs) : Harmless hs := by
  have hun : ∀ header ∈ hs, Unaliased [1, 2, 4] header := fun header hmem => (h header hmem).1
  have hlast1 := last_narrowed hun (List.mem_cons_self : 1 ∈ [1, 2, 4]) (by norm_num)
  have hlast2 := last_narrowed hun (by simp : 2 ∈ [1, 2, 4]) (by norm_num)
  have hlast4 := last_narrowed hun (by simp : 4 ∈ [1, 2, 4]) (by norm_num)
  refine ⟨fun _ => ⟨fun header hmem => (hun header hmem).fits, ?_, hlast1, hlast2, ?_⟩, ?_⟩
  · intro header hmem h4 es hes e he
    exact ((h header hmem).2 h4 es hes e he).fits
  · intro es es' hes hes'
    rw [LastExtensions, hlast4] at hes
    obtain rfl : es = es' := LastExtensions.unique hes hes'
    rw [LastExtensions] at hes'
    cases hcase : Protobuf.last 4 (hs.map Header.field) with
    | none =>
      rw [hcase] at hes'
      obtain rfl : es = [] := hes'
      rfl
    | some content =>
      rw [hcase] at hes'
      obtain ⟨f, hf, h4, rfl⟩ := Protobuf.exists_of_last hcase
      obtain ⟨header, hmem, rfl⟩ := List.mem_map.mp hf
      exact contents_narrowed ((h header hmem).2 h4 es hes') (by simp) (by norm_num)
  · intro _ haccepted
    refine ⟨?_, ?_, ?_⟩
    · intro f hf h4
      obtain ⟨header, hmem, rfl⟩ := List.mem_map.mp hf
      rw [(hun header hmem).number_iff (by simp) (by norm_num)] at h4
      obtain ⟨fs, hfields⟩ := haccepted.extensions _ (List.mem_map_of_mem hmem) h4
      obtain ⟨es, hes, -⟩ := Protobuf.fields_iff.mp hfields
      exact ⟨es, hes⟩
    · rw [hlast1]
      exact haccepted.identityKey
    · rw [hlast2]
      exact haccepted.identitySig

/-! ## Two payloads -/

/-- A byte string splits into fields as a reader finds them. -/
theorem split_of_next {bytes : Bytes} {h : Header} {hs : List Header} (rest : Bytes)
    (hnext : Protobuf.next bytes = some (h, rest)) (hrest : Split rest hs) : Split bytes (h :: hs) := by
  have hne : bytes ≠ [] := by
    rintro rfl
    cases hnext
  exact (Protobuf.split_iff hne).mpr ⟨h, rest, hs, hnext, hrest, rfl⟩

theorem unaliased_small {known : List ℕ} {h : Header} (hkey : h.key < 64) (hlen : h.len < 64) :
    Unaliased known h :=
  ⟨⟨by omega, by omega⟩, fun _ => by omega⟩

/-- A payload with an identity key, a signature and one muxer is clean and read. -/
theorem reads_payload_small :
    ReadsPayload [0x0A, 1, 7, 0x12, 1, 9, 0x22, 3, 0x12, 1, 5] ⟨[7], [9], ⟨[[5]]⟩⟩ := by
  have hsplit : Split [0x0A, 1, 7, 0x12, 1, 9, 0x22, 3, 0x12, 1, 5]
      [⟨10, 1, [7]⟩, ⟨18, 1, [9]⟩, ⟨34, 3, [0x12, 1, 5]⟩] :=
    split_of_next [0x12, 1, 9, 0x22, 3, 0x12, 1, 5] (by decide +kernel)
      (split_of_next [0x22, 3, 0x12, 1, 5] (by decide +kernel)
        (split_of_next [] (by decide +kernel) .nil))
  have hmuxer : Split [0x12, 1, 5] [⟨18, 1, [5]⟩] :=
    split_of_next [] (by decide +kernel) .nil
  have hclean : Clean [⟨10, 1, [7]⟩, ⟨18, 1, [9]⟩, ⟨34, 3, [0x12, 1, 5]⟩] := by
    intro h hh
    simp only [List.mem_cons, List.not_mem_nil, or_false] at hh
    rcases hh with rfl | rfl | rfl
    · exact ⟨unaliased_small (by norm_num) (by norm_num), by norm_num⟩
    · exact ⟨unaliased_small (by norm_num) (by norm_num), by norm_num⟩
    · refine ⟨unaliased_small (by norm_num) (by norm_num), fun _ es hes e he => ?_⟩
      rw [hes.unique hmuxer, List.mem_singleton] at he
      subst he
      exact unaliased_small (by norm_num) (by norm_num)
  have hharmless : ∀ hs, Split _ hs → Harmless hs := fun hs hother => by
    rw [hother.unique hsplit]
    exact hclean.harmless
  exact ((reads_payload_iff _).mpr hharmless _).mp (by decide +kernel)

/-- A field numbered 2^32 + 1 and a signature: the code takes the first for the
    identity key, the reference finds none. -/
theorem aliased_identity_key :
    parseHandshakePayload [0x8A, 0x80, 0x80, 0x80, 0x80, 0x01, 1, 7, 0x12, 1, 9] = .ok ⟨[7], [9], {}⟩ ∧
      ∀ out, ¬ ReadsPayload [0x8A, 0x80, 0x80, 0x80, 0x80, 0x01, 1, 7, 0x12, 1, 9] out := by
  refine ⟨by decide +kernel, fun out hout => ?_⟩
  obtain ⟨hs, hsplit, -, hreads⟩ := readsPayload_iff.mp hout
  have hfields : Split [0x8A, 0x80, 0x80, 0x80, 0x80, 0x01, 1, 7, 0x12, 1, 9]
      [⟨2 ^ 35 + 10, 1, [7]⟩, ⟨18, 1, [9]⟩] :=
    split_of_next [0x12, 1, 9] (by decide +kernel)
      (split_of_next [] (by decide +kernel) .nil)
  rw [hsplit.unique hfields] at hreads
  have := hreads.identityKey
  simp [Header.field] at this

end PeerCore.Noise
