import PeerCore.Types
import PeerCore.Lib.Result
import PeerCore.Lib.Varint

/-!
# multistream-select

Model of `protocol/multistream_select.cpp` and of the message pre-scan that
`connection_session.cpp` and `swarm.cpp` run before parsing.

A message is a varint length and a payload that ends in a newline. Both sides
open with the header message; the initiator proposes one protocol, the
responder echoes it or answers `na`.

* `decodeNext_encodeMessage`: what a reader gets for a written message. A
  protocol name that already ends in a newline loses it on the way.
* `messageSpan_encodeMessage`, `exchangeSpan_exchange`: the pre-scan finds the
  end of a written message, whatever follows it.
* `agreed_iff`: the proposals on which the two sides agree.
-/

namespace PeerCore

/-- A varint decoder with the two error texts of its copy. -/
def decodeVarint (invalid incomplete : String) (buf : Bytes) : Result (ℕ × Bytes) :=
  match Varint.decode buf with
  | .ok r => .ok r
  | .error .invalid => .error invalid
  | .error .incomplete => .error incomplete

namespace MultistreamSelect

/-- `kHeader`. -/
def header : Bytes := ascii "/multistream/1.0.0"

/-- `decode_uvarint` (`multistream_select.cpp:20-38`). -/
def decodeUvarint : Bytes → Result (ℕ × Bytes) :=
  decodeVarint "invalid multistream length" "incomplete multistream length"

/-- `ensure_newline` (`multistream_select.cpp:41-44`). -/
def ensureNewline (msg : Bytes) : Bytes := if msg.getLast? = some 10 then msg else msg ++ [10]

/-- `MultistreamSelect::encode_message` (`multistream_select.cpp:112-117`). -/
def encodeMessage (msg : Bytes) : Bytes :=
  let payload := ensureNewline msg
  Varint.encode (UInt64.ofNat payload.length) ++ payload

/-- `MultistreamSelect::decode_next` (`multistream_select.cpp:119-135`): the
    token and the bytes behind its message. -/
def decodeNext (buf : Bytes) : Result (Bytes × Bytes) := do
  let (len, buf) ← decodeUvarint buf
  if buf.length < len then throw "incomplete multistream message"
  let token := buf.take len
  if token.getLast? ≠ some 10 then throw "invalid multistream message"
  pure (token.dropLast, buf.drop len)

/-- `MultistreamSelect::prepare_outbound` (`multistream_select.cpp:48-63`). -/
def prepareOutbound (proposals : List ProtocolId) : Result Bytes :=
  match proposals with
  | [] => .error "no protocols proposed"
  | front :: _ => .ok (encodeMessage header ++ encodeMessage front)

/-- `MultistreamSelect::read_outbound_response` (`multistream_select.cpp:64-81`). -/
def readOutboundResponse (incoming : Bytes) (proposal : ProtocolId) : Result ProtocolId := do
  let (first, incoming) ← decodeNext incoming
  if first ≠ header then throw "unexpected multistream header"
  let (token, _) ← decodeNext incoming
  if token = proposal then pure token
  else if token = ascii "na" then throw "protocol not supported"
  else throw "unexpected multistream response"

/-- `InboundNegotiation` (`multistream_select.hpp:13-16`). -/
structure InboundNegotiation where
  outbound : Bytes
  protocol : Option ProtocolId
  deriving DecidableEq

/-- `MultistreamSelect::negotiate_inbound` (`multistream_select.cpp:83-110`). -/
def negotiateInbound (incoming : Bytes) (supported : List ProtocolId) :
    Result InboundNegotiation := do
  let (first, incoming) ← decodeNext incoming
  if first ≠ header then throw "unexpected multistream header"
  let (proposal, _) ← decodeNext incoming
  match supported.find? (· = proposal) with
  | some proto => pure ⟨encodeMessage header ++ encodeMessage proto, some proto⟩
  | none => pure ⟨encodeMessage header ++ encodeMessage (ascii "na"), none⟩

/-! ## The pre-scan -/

/-- `decode_multistream_length` (`connection_session.cpp:161-178`,
    `swarm.cpp:22-39`). -/
def decodeMultistreamLength : Bytes → Result (ℕ × Bytes) :=
  decodeVarint "invalid multistream length" "incomplete multistream length"

/-- `is_incomplete_multistream_error`. -/
def isIncompleteError (error : String) : Bool :=
  error == "incomplete multistream length" || error == "incomplete multistream message"

/-- `multistream_message_span` (`connection_session.cpp:185-193`). -/
def messageSpan (buf : Bytes) : Result ℕ := do
  let (len, remaining) ← decodeMultistreamLength buf
  if remaining.length < len then throw "incomplete multistream message"
  pure (buf.length - remaining.length + len)

/-- `multistream_exchange_span` (`connection_session.cpp:195-203`). -/
def exchangeSpan (buf : Bytes) : Result ℕ := do
  let first ← messageSpan buf
  let second ← messageSpan (buf.drop first)
  pure (first + second)

/-! ## Messages as they are read back -/

/-- The token a reader gets for `msg`: one trailing newline is lost. -/
def wireToken (msg : Bytes) : Bytes := if msg.getLast? = some 10 then msg.dropLast else msg

theorem ensureNewline_getLast? (msg : Bytes) : (ensureNewline msg).getLast? = some 10 := by
  unfold ensureNewline
  split_ifs with h
  · exact h
  · simp

theorem ensureNewline_dropLast (msg : Bytes) : (ensureNewline msg).dropLast = wireToken msg := by
  unfold ensureNewline wireToken
  split_ifs <;> simp

/-- The payload length of a message fits `size_t`. -/
def Fits (msg : Bytes) : Prop := (ensureNewline msg).length < 2 ^ 64

theorem decodeVarint_encode (invalid incomplete : String) {payload : Bytes}
    (h : payload.length < 2 ^ 64) (rest : Bytes) :
    decodeVarint invalid incomplete
      (Varint.encode (UInt64.ofNat payload.length) ++ (payload ++ rest)) =
        .ok (payload.length, payload ++ rest) := by
  rw [decodeVarint, Varint.decode_encode, UInt64.toNat_ofNat', Nat.mod_eq_of_lt h]

theorem decodeNext_encodeMessage {msg : Bytes} (h : Fits msg) (rest : Bytes) :
    decodeNext (encodeMessage msg ++ rest) = .ok (wireToken msg, rest) := by
  have hlen := decodeVarint_encode "invalid multistream length" "incomplete multistream length" h rest
  unfold decodeNext decodeUvarint encodeMessage
  simp [hlen, ensureNewline_getLast?, ensureNewline_dropLast]

theorem messageSpan_encodeMessage {msg : Bytes} (h : Fits msg) (rest : Bytes) :
    messageSpan (encodeMessage msg ++ rest) = .ok (encodeMessage msg).length := by
  have hlen := decodeVarint_encode "invalid multistream length" "incomplete multistream length" h rest
  unfold messageSpan decodeMultistreamLength encodeMessage
  simp [hlen]

theorem exchangeSpan_exchange {a b : Bytes} (ha : Fits a) (hb : Fits b) (rest : Bytes) :
    exchangeSpan (encodeMessage a ++ encodeMessage b ++ rest) =
      .ok (encodeMessage a ++ encodeMessage b).length := by
  unfold exchangeSpan
  rw [List.append_assoc, messageSpan_encodeMessage ha]
  simp [messageSpan_encodeMessage hb]

/-! ## What the pre-scan depends on -/

theorem decodeVarint_append {invalid incomplete : String} {buf rest : Bytes} {v : ℕ}
    (h : decodeVarint invalid incomplete buf = .ok (v, rest)) (ext : Bytes) :
    decodeVarint invalid incomplete (buf ++ ext) = .ok (v, rest ++ ext) := by
  unfold decodeVarint at h ⊢
  cases hd : Varint.decode buf with
  | error e => cases e <;> simp [hd] at h
  | ok r =>
    simp only [hd, Except.ok.injEq] at h
    subst h
    rw [Varint.decode_append hd]

theorem decodeVarint_length_lt {invalid incomplete : String} {buf rest : Bytes} {v : ℕ}
    (h : decodeVarint invalid incomplete buf = .ok (v, rest)) : rest.length < buf.length := by
  unfold decodeVarint at h
  cases hd : Varint.decode buf with
  | error e => cases e <;> simp [hd] at h
  | ok r =>
    simp only [hd, Except.ok.injEq] at h
    subst h
    exact Varint.decode_length_lt hd

theorem messageSpan_eq_ok {buf : Bytes} {n : ℕ} :
    messageSpan buf = .ok n ↔ ∃ len remaining, decodeMultistreamLength buf = .ok (len, remaining) ∧
      len ≤ remaining.length ∧ n = buf.length - remaining.length + len := by
  unfold messageSpan
  rw [Except.bind_eq_ok_iff]
  constructor
  · rintro ⟨⟨len, remaining⟩, hd, h⟩
    by_cases hlt : remaining.length < len
    · simp [hlt] at h
    · simp [hlt] at h
      exact ⟨len, remaining, hd, by omega, h.symm⟩
  · rintro ⟨len, remaining, hd, hle, rfl⟩
    exact ⟨(len, remaining), hd, by simp [show ¬ remaining.length < len by omega]⟩

theorem messageSpan_le {buf : Bytes} {n : ℕ} (h : messageSpan buf = .ok n) : n ≤ buf.length := by
  obtain ⟨len, remaining, hd, hle, rfl⟩ := messageSpan_eq_ok.mp h
  have := decodeVarint_length_lt hd
  omega

/-- The pre-scan of a message is decided by the bytes up to its end. -/
theorem messageSpan_append {buf : Bytes} {n : ℕ} (h : messageSpan buf = .ok n) (ext : Bytes) :
    messageSpan (buf ++ ext) = .ok n := by
  obtain ⟨len, remaining, hd, hle, rfl⟩ := messageSpan_eq_ok.mp h
  have := decodeVarint_length_lt hd
  refine messageSpan_eq_ok.mpr ⟨len, remaining ++ ext, decodeVarint_append hd ext, ?_, ?_⟩
  · simp; omega
  · simp; omega

theorem exchangeSpan_eq_ok {buf : Bytes} {n : ℕ} :
    exchangeSpan buf = .ok n ↔
      ∃ first second, messageSpan buf = .ok first ∧ messageSpan (buf.drop first) = .ok second ∧
        n = first + second := by
  unfold exchangeSpan
  simp only [Except.bind_eq_ok_iff, Except.pure_eq_ok, Except.ok.injEq]
  constructor
  · rintro ⟨first, h1, second, h2, rfl⟩
    exact ⟨first, second, h1, h2, rfl⟩
  · rintro ⟨first, second, h1, h2, rfl⟩
    exact ⟨first, h1, second, h2, rfl⟩

theorem exchangeSpan_le {buf : Bytes} {n : ℕ} (h : exchangeSpan buf = .ok n) : n ≤ buf.length := by
  obtain ⟨first, second, h1, h2, rfl⟩ := exchangeSpan_eq_ok.mp h
  have hfirst := messageSpan_le h1
  have hsecond := messageSpan_le h2
  rw [List.length_drop] at hsecond
  omega

theorem exchangeSpan_append {buf : Bytes} {n : ℕ} (h : exchangeSpan buf = .ok n) (ext : Bytes) :
    exchangeSpan (buf ++ ext) = .ok n := by
  obtain ⟨first, second, h1, h2, rfl⟩ := exchangeSpan_eq_ok.mp h
  refine exchangeSpan_eq_ok.mpr ⟨first, second, messageSpan_append h1 ext, ?_, rfl⟩
  rw [List.drop_append_of_le_length (messageSpan_le h1)]
  exact messageSpan_append h2 ext

theorem messageSpan_error_append {buf : Bytes} {e : String} (h : messageSpan buf = .error e)
    (he : isIncompleteError e = false) (ext : Bytes) : messageSpan (buf ++ ext) = .error e := by
  unfold messageSpan decodeMultistreamLength decodeVarint at h ⊢
  cases hd : Varint.decode buf with
  | ok r =>
    simp only [hd, Except.ok_bind] at h
    split_ifs at h
    · simp only [Except.throw_eq_error, Except.error_bind, Except.error.injEq] at h
      subst h
      cases he
    · cases h
  | error d =>
    simp only [hd] at h
    cases d with
    | invalid =>
      rw [Varint.decode_invalid_append hd ext]
      exact h
    | incomplete =>
      simp only [Except.error_bind, Except.error.injEq] at h
      subst h
      cases he

/-- A buffer that is found malformed stays so. -/
theorem exchangeSpan_error_append {buf : Bytes} {e : String} (h : exchangeSpan buf = .error e)
    (he : isIncompleteError e = false) (ext : Bytes) : exchangeSpan (buf ++ ext) = .error e := by
  unfold exchangeSpan at h ⊢
  cases hfirst : messageSpan buf with
  | error e' =>
    simp only [hfirst, Except.error_bind, Except.error.injEq] at h
    subst h
    rw [messageSpan_error_append hfirst he]
    rfl
  | ok first =>
    simp only [hfirst, Except.ok_bind] at h
    rw [messageSpan_append hfirst, Except.ok_bind, List.drop_append_of_le_length (messageSpan_le hfirst)]
    cases hsecond : messageSpan (buf.drop first) with
    | error e' =>
      simp only [hsecond, Except.error_bind, Except.error.injEq] at h
      subst h
      rw [messageSpan_error_append hsecond he]
      rfl
    | ok second => simp [hsecond] at h

/-! ## The two sides of an exchange -/

theorem header_fits : Fits header := by
  unfold Fits
  decide

theorem na_fits : Fits (ascii "na") := by
  unfold Fits
  decide

theorem wireToken_header : wireToken header = header := by decide

theorem wireToken_na : wireToken (ascii "na") = ascii "na" := by decide

/-- The responder looks for the proposal without its newline. -/
theorem negotiateInbound_proposal {p : ProtocolId} (hp : Fits p) (supported : List ProtocolId) :
    negotiateInbound (encodeMessage header ++ encodeMessage p) supported =
      if wireToken p ∈ supported
        then .ok ⟨encodeMessage header ++ encodeMessage (wireToken p), some (wireToken p)⟩
        else .ok ⟨encodeMessage header ++ encodeMessage (ascii "na"), none⟩ := by
  have hproposal : decodeNext (encodeMessage p) = .ok (wireToken p, []) := by
    have hdecode := decodeNext_encodeMessage hp []
    rwa [List.append_nil] at hdecode
  unfold negotiateInbound
  rw [decodeNext_encodeMessage header_fits, wireToken_header]
  simp only [Except.ok_bind, ne_eq, not_true_eq_false, if_false, hproposal]
  cases hfind : supported.find? (· = wireToken p) with
  | some proto =>
    obtain rfl : proto = wireToken p := by simpa using List.find?_some hfind
    rw [if_pos (List.mem_of_find?_eq_some hfind)]
    rfl
  | none =>
    rw [if_neg fun hmem => List.find?_eq_none.mp hfind _ hmem (decide_eq_true rfl)]
    rfl

/-- What the initiator makes of a reply that carries `reply`. -/
theorem readOutboundResponse_reply {reply : Bytes} (hreply : Fits reply) (p : ProtocolId) :
    readOutboundResponse (encodeMessage header ++ encodeMessage reply) p =
      if wireToken reply = p then .ok p
      else if wireToken reply = ascii "na" then .error "protocol not supported"
      else .error "unexpected multistream response" := by
  have hdecode : decodeNext (encodeMessage reply) = .ok (wireToken reply, []) := by
    have hdecode := decodeNext_encodeMessage hreply []
    rwa [List.append_nil] at hdecode
  unfold readOutboundResponse
  rw [decodeNext_encodeMessage header_fits, wireToken_header]
  simp only [Except.ok_bind, ne_eq, not_true_eq_false, if_false, hdecode]
  split_ifs with hsame
  · rw [hsame]
    rfl
  · rfl
  · rfl

/-- Both sides come to the same outcome: `p` when it is supported, and otherwise that it
    is not. -/
def Agreed (proposals supported : List ProtocolId) (p : ProtocolId) : Prop :=
  ∃ proposal reply, prepareOutbound proposals = .ok proposal ∧
    negotiateInbound proposal supported = .ok reply ∧
    (p ∈ supported → reply.protocol = some p) ∧ (p ∉ supported → reply.protocol = none) ∧
    (readOutboundResponse reply.outbound p = .ok p ↔ reply.protocol = some p) ∧
    (reply.protocol ≠ some p → readOutboundResponse reply.outbound p = .error "protocol not supported")

/-- A proposal that ends in a newline is unsupported with and without it; `na` is
    supported when it is proposed. -/
def Distinct (supported : List ProtocolId) (p : ProtocolId) : Prop :=
  if p.getLast? = some 10 then p ∉ supported ∧ p.dropLast ∉ supported
  else p = ascii "na" → p ∈ supported

theorem wireToken_fits {p : ProtocolId} (hp : Fits p) : Fits (wireToken p) := by
  have hlen : (ensureNewline (wireToken p)).length ≤ (ensureNewline p).length := by
    unfold wireToken
    by_cases hline : p.getLast? = some 10
    · rw [if_pos hline]
      unfold ensureNewline
      rw [if_pos hline]
      have hne : p ≠ [] := by
        rintro rfl
        cases hline
      have hpos := List.length_pos_iff.mpr hne
      split_ifs
      · rw [List.length_dropLast]
        omega
      · rw [List.length_append, List.length_dropLast, List.length_singleton]
        omega
    · rw [if_neg hline]
  exact lt_of_le_of_lt hlen hp

theorem wireToken_ne {p : ProtocolId} (hline : p.getLast? = some 10) : wireToken p ≠ p := by
  intro hsame
  have hlen := congrArg List.length hsame
  rw [wireToken, if_pos hline, List.length_dropLast] at hlen
  have hempty : p = [] := List.eq_nil_of_length_eq_zero (by omega)
  rw [hempty] at hline
  cases hline

/-- The two sides, when the responder has the token it reads. -/
theorem agreed_of_mem {rest supported : List ProtocolId} {p : ProtocolId} (hp : Fits p)
    (hmem : wireToken p ∈ supported) :
    Agreed (p :: rest) supported p ↔ p.getLast? ≠ some 10 := by
  have hreply := negotiateInbound_proposal hp supported
  rw [if_pos hmem] at hreply
  constructor
  · rintro ⟨proposal, reply, hproposal, hnegotiate, htaken, hrefused, -⟩ hline
    obtain rfl : encodeMessage header ++ encodeMessage p = proposal := Except.ok.inj hproposal
    rw [hreply] at hnegotiate
    obtain rfl := Except.ok.inj hnegotiate
    by_cases hsupported : p ∈ supported
    · exact wireToken_ne hline (Option.some.inj (htaken hsupported))
    · cases hrefused hsupported
  · intro hline
    have htoken : wireToken p = p := if_neg hline
    rw [htoken] at hreply hmem
    have hread := readOutboundResponse_reply hp p
    rw [htoken, if_pos rfl] at hread
    refine ⟨_, _, rfl, hreply, fun _ => rfl, fun hnot => absurd hmem hnot, ?_, ?_⟩
    · exact ⟨fun _ => rfl, fun _ => hread⟩
    · exact fun hne => absurd rfl hne

/-- The two sides, when the responder refuses. -/
theorem agreed_of_not_mem {rest supported : List ProtocolId} {p : ProtocolId} (hp : Fits p)
    (hmem : wireToken p ∉ supported) :
    Agreed (p :: rest) supported p ↔ p ∉ supported ∧ p ≠ ascii "na" := by
  have hreply := negotiateInbound_proposal hp supported
  rw [if_neg hmem] at hreply
  have hread := readOutboundResponse_reply na_fits p
  rw [wireToken_na, if_pos rfl] at hread
  constructor
  · rintro ⟨proposal, reply, hproposal, hnegotiate, htaken, -, hagree, -⟩
    obtain rfl : encodeMessage header ++ encodeMessage p = proposal := Except.ok.inj hproposal
    rw [hreply] at hnegotiate
    obtain rfl := Except.ok.inj hnegotiate
    refine ⟨fun hsupported => ?_, ?_⟩
    · cases htaken hsupported
    · rintro rfl
      rw [if_pos rfl] at hread
      cases hagree.mp hread
  · rintro ⟨hunsupported, hna⟩
    rw [if_neg (Ne.symm hna)] at hread
    refine ⟨_, _, rfl, hreply, fun hsupported => absurd hsupported hunsupported, fun _ => rfl, ?_,
      fun _ => hread⟩
    dsimp only
    rw [hread]
    exact ⟨fun h => (by cases h), fun h => (by cases h)⟩

/-- The two sides agree on a proposal exactly when it is read back as it was written and is
    not taken for a refusal. -/
theorem agreed_iff {rest supported : List ProtocolId} {p : ProtocolId} (hp : Fits p) :
    Agreed (p :: rest) supported p ↔ Distinct supported p := by
  unfold Distinct
  by_cases hline : p.getLast? = some 10
  · have htoken : wireToken p = p.dropLast := if_pos hline
    have hna : p ≠ ascii "na" := by
      rintro rfl
      revert hline
      decide
    rw [if_pos hline]
    by_cases hmem : wireToken p ∈ supported
    · rw [agreed_of_mem hp hmem, ← htoken]
      exact ⟨fun h => absurd hline h, fun h => absurd hmem h.2⟩
    · rw [agreed_of_not_mem hp hmem, ← htoken]
      exact ⟨fun h => ⟨h.1, hmem⟩, fun h => ⟨h.1, hna⟩⟩
  · have htoken : wireToken p = p := if_neg hline
    rw [if_neg hline]
    by_cases hmem : wireToken p ∈ supported
    · rw [agreed_of_mem hp hmem]
      exact ⟨fun _ _ => htoken ▸ hmem, fun _ => hline⟩
    · rw [agreed_of_not_mem hp hmem]
      rw [htoken] at hmem
      exact ⟨fun h hna => absurd hna h.2, fun h => ⟨hmem, fun hna => hmem (h hna)⟩⟩

theorem agreed_iff_noise :
    Agreed [ascii "/noise"] [ascii "/noise"] (ascii "/noise") ↔ Distinct [ascii "/noise"] (ascii "/noise") :=
  agreed_iff (show (ensureNewline (ascii "/noise")).length < 2 ^ 64 by decide)

/-- The initiator takes the refusal of a protocol `na` for its acceptance. -/
theorem refusal_taken : ¬ ∀ (rest supported : List ProtocolId) (p : ProtocolId), Fits p →
    Agreed (p :: rest) supported p := by
  intro h
  obtain ⟨proposal, reply, hproposal, hreply, -, -, hagree, -⟩ := h [] [] (ascii "na") na_fits
  obtain rfl : encodeMessage header ++ encodeMessage (ascii "na") = proposal := Except.ok.inj hproposal
  rw [negotiateInbound_proposal na_fits, wireToken_na, if_neg List.not_mem_nil] at hreply
  obtain rfl := Except.ok.inj hreply
  rw [readOutboundResponse_reply na_fits, wireToken_na, if_pos rfl] at hagree
  cases hagree.mp rfl

end MultistreamSelect

end PeerCore
