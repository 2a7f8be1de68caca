import PeerCore.MultistreamSelect

/-!
# The pre-scan and the parsers

The session and the swarm wait for a whole exchange with `multistream_exchange_span`, cut
that many bytes off their buffer and only then parse them (`connection_session.cpp:185-203`,
`swarm.cpp:44-62`). The parsers find the two messages again with their own loop.

* `decodeNext_message`, `decodeNext_error`: the parser of one message agrees with its scan.
* `prescan_agrees`: both parsers of an exchange agree with the scan of the exchange.
-/

namespace PeerCore.MultistreamSelect

/-! ## What the parsers share -/

/-- What both parsers read: the header, and the token of the second message. -/
def secondToken (incoming : Bytes) : Result Bytes := do
  let (first, incoming) ← decodeNext incoming
  if first ≠ header then throw "unexpected multistream header"
  let (token, _) ← decodeNext incoming
  pure token

/-- The answer to a proposal. -/
def answer (supported : List ProtocolId) (proposal : ProtocolId) : Result InboundNegotiation :=
  match supported.find? (· = proposal) with
  | some proto => pure ⟨encodeMessage header ++ encodeMessage proto, some proto⟩
  | none => pure ⟨encodeMessage header ++ encodeMessage (ascii "na"), none⟩

/-- What a proposer makes of the token that answers it. -/
def accept (proposal token : ProtocolId) : Result ProtocolId :=
  if token = proposal then pure token
  else if token = ascii "na" then throw "protocol not supported"
  else throw "unexpected multistream response"

theorem negotiateInbound_eq (incoming : Bytes) (supported : List ProtocolId) :
    negotiateInbound incoming supported = secondToken incoming >>= answer supported := by
  unfold negotiateInbound secondToken
  rcases decodeNext incoming with e | ⟨first, rest⟩
  · rfl
  · simp only [Except.ok_bind]
    split_ifs
    · rfl
    · rcases decodeNext rest with e | ⟨token, _⟩ <;> rfl

theorem readOutboundResponse_eq (incoming : Bytes) (proposal : ProtocolId) :
    readOutboundResponse incoming proposal = secondToken incoming >>= accept proposal := by
  unfold readOutboundResponse secondToken
  rcases decodeNext incoming with e | ⟨first, rest⟩
  · rfl
  · simp only [Except.ok_bind]
    split_ifs
    · rfl
    · rcases decodeNext rest with e | ⟨token, _⟩ <;> rfl

/-- A failure that more bytes cannot mend. -/
def Final {α : Type} (r : Result α) : Prop := ∀ e, r = .error e → isIncompleteError e = false

theorem Final.bind {α β : Type} {r : Result α} {k : α → Result β} (hr : Final r)
    (hk : ∀ a, Final (k a)) : Final (r >>= k) := by
  intro e he
  cases r with
  | error e' =>
    cases he
    exact hr e rfl
  | ok a => exact hk a e he

theorem answer_final (supported : List ProtocolId) (proposal : ProtocolId) :
    Final (answer supported proposal) := by
  intro e he
  unfold answer at he
  split at he <;> cases he

theorem accept_final (proposal token : ProtocolId) : Final (accept proposal token) := by
  intro e he
  unfold accept at he
  split_ifs at he
  · cases he
  · cases he
    rfl
  · cases he
    rfl

/-! ## One message -/

/-- What a decode took off the buffer decides it. -/
theorem decodeVarint_taken {invalid incomplete : String} {buf rest : Bytes} {v : ℕ}
    (h : decodeVarint invalid incomplete buf = .ok (v, rest)) :
    ∃ taken, buf = taken ++ rest ∧
      ∀ more, decodeVarint invalid incomplete (taken ++ more) = .ok (v, more) := by
  unfold decodeVarint at h
  cases hd : Varint.decode buf with
  | error e => cases e <;> simp [hd] at h
  | ok r =>
    simp only [hd, Except.ok.injEq] at h
    subst h
    obtain ⟨taken, hne, rfl, hmore⟩ := Varint.decode_ok hd
    refine ⟨taken, rfl, fun more => ?_⟩
    rw [decodeVarint, hmore]

/-- A message is found by itself. -/
theorem messageSpan_take {buf : Bytes} {n : ℕ} (h : messageSpan buf = .ok n) :
    messageSpan (buf.take n) = .ok n := by
  obtain ⟨len, remaining, hd, hle, rfl⟩ := messageSpan_eq_ok.mp h
  obtain ⟨taken, rfl, hdecode⟩ := decodeVarint_taken hd
  have htaken : (taken ++ remaining).length - remaining.length + len = taken.length + len := by
    rw [List.length_append]
    omega
  rw [htaken, List.take_length_add_append]
  have hlen : (remaining.take len).length = len := List.length_take_of_le hle
  refine messageSpan_eq_ok.mpr ⟨len, remaining.take len, hdecode _, hlen.ge, ?_⟩
  rw [List.length_append, hlen]
  omega

theorem exchangeSpan_take {buf : Bytes} {n : ℕ} (h : exchangeSpan buf = .ok n) :
    exchangeSpan (buf.take n) = .ok n := by
  obtain ⟨first, second, hfirst, hsecond, rfl⟩ := exchangeSpan_eq_ok.mp h
  have hle := messageSpan_le hfirst
  have hhead : (buf.take first).length = first := List.length_take_of_le hle
  have hsplit : buf.take (first + second) = buf.take first ++ (buf.drop first).take second :=
    List.take_add
  refine exchangeSpan_eq_ok.mpr ⟨first, second, ?_, ?_, rfl⟩
  · rw [hsplit]
    exact messageSpan_append (messageSpan_take hfirst) _
  · rw [hsplit, List.drop_left' hhead]
    exact messageSpan_take hsecond

/-- The parser reads a message the pre-scan found, or rejects it, whatever is behind it. -/
theorem decodeNext_message {buf : Bytes} {n : ℕ} (h : messageSpan buf = .ok n) :
    (∃ token, ∀ rest, decodeNext (buf.take n ++ rest) = .ok (token, rest)) ∨
      ∀ rest, decodeNext (buf.take n ++ rest) = .error "invalid multistream message" := by
  obtain ⟨len, remaining, hd, hle, rfl⟩ := messageSpan_eq_ok.mp h
  obtain ⟨taken, rfl, hdecode⟩ := decodeVarint_taken hd
  have htaken : (taken ++ remaining).length - remaining.length + len = taken.length + len := by
    rw [List.length_append]
    omega
  have hread : ∀ rest, decodeNext ((taken ++ remaining).take (taken.length + len) ++ rest) =
      if (remaining.take len).getLast? ≠ some 10 then .error "invalid multistream message"
      else .ok ((remaining.take len).dropLast, rest) := by
    intro rest
    have hlen : (remaining.take len).length = len := List.length_take_of_le hle
    have hshort : ¬(remaining.take len ++ rest).length < len := by
      rw [List.length_append, hlen]
      omega
    have htake : (remaining.take len ++ rest).take len = remaining.take len :=
      List.take_left' hlen
    have hdrop : (remaining.take len ++ rest).drop len = rest := List.drop_left' hlen
    rw [List.take_length_add_append, List.append_assoc, decodeNext, decodeUvarint, hdecode]
    simp only [Except.ok_bind, hshort, if_false, htake, hdrop]
    split_ifs <;> rfl
  rw [htaken]
  by_cases hline : (remaining.take len).getLast? ≠ some 10
  · right
    intro rest
    rw [hread, if_pos hline]
  · left
    refine ⟨(remaining.take len).dropLast, fun rest => ?_⟩
    rw [hread, if_neg hline]

/-- Where the pre-scan of a message fails the parser fails in the same way. -/
theorem decodeNext_error {buf : Bytes} {e : String} (h : messageSpan buf = .error e) :
    decodeNext buf = .error e := by
  unfold messageSpan decodeMultistreamLength at h
  unfold decodeNext decodeUvarint
  cases hd : decodeVarint "invalid multistream length" "incomplete multistream length" buf with
  | error e' =>
    rw [hd] at h
    cases h
    rfl
  | ok r =>
    rw [hd, Except.ok_bind] at h
    rw [Except.ok_bind]
    by_cases hshort : r.2.length < r.1
    · simp only [hshort, if_true] at h ⊢
      cases h
      rfl
    · simp [hshort] at h

theorem messageSpan_errors {buf : Bytes} {e : String} (h : messageSpan buf = .error e) :
    isIncompleteError e = true ∨ e = "invalid multistream length" := by
  unfold messageSpan decodeMultistreamLength decodeVarint at h
  cases hd : Varint.decode buf with
  | error e' =>
    rw [hd] at h
    cases e' with
    | invalid =>
      cases h
      exact .inr rfl
    | incomplete =>
      cases h
      exact .inl rfl
  | ok r =>
    rw [hd] at h
    simp only [Except.ok_bind] at h
    by_cases hshort : r.2.length < r.1
    · simp only [hshort, if_true] at h
      cases h
      exact .inl rfl
    · simp [hshort] at h

/-! ## Two messages -/

theorem exchangeSpan_errors {buf : Bytes} {e : String} (h : exchangeSpan buf = .error e) :
    isIncompleteError e = true ∨ e = "invalid multistream length" := by
  unfold exchangeSpan at h
  cases hfirst : messageSpan buf with
  | error e' =>
    rw [hfirst] at h
    cases h
    exact messageSpan_errors hfirst
  | ok first =>
    rw [hfirst, Except.ok_bind] at h
    cases hsecond : messageSpan (buf.drop first) with
    | error e' =>
      rw [hsecond] at h
      cases h
      exact messageSpan_errors hsecond
    | ok second =>
      rw [hsecond] at h
      cases h

theorem secondToken_of_ok {incoming first rest : Bytes}
    (h : decodeNext incoming = .ok (first, rest)) :
    secondToken incoming =
      if first = header then (decodeNext rest).map Prod.fst
      else .error "unexpected multistream header" := by
  unfold secondToken
  rw [h, Except.ok_bind]
  by_cases hheader : first = header
  · rw [if_pos hheader]
    simp only [hheader, ne_eq, not_true_eq_false, if_false]
    rcases decodeNext rest with e | ⟨token, _⟩ <;> rfl
  · rw [if_neg hheader]
    simp [hheader]

theorem secondToken_of_error {incoming : Bytes} {e : String} (h : decodeNext incoming = .error e) :
    secondToken incoming = .error e := by
  unfold secondToken
  rw [h]
  rfl

theorem final_error {α : Type} {e : String} (he : isIncompleteError e = false) :
    Final (.error e : Result α) := by
  rintro _ ⟨⟩
  exact he

/-- A complete exchange is read to an end that no byte behind it changes. -/
theorem secondToken_exchange {buf : Bytes} {n : ℕ} (h : exchangeSpan buf = .ok n) :
    ∃ r, Final r ∧ ∀ rest, secondToken (buf.take n ++ rest) = r := by
  obtain ⟨first, second, h1, h2, rfl⟩ := exchangeSpan_eq_ok.mp h
  have hsplit : buf.take (first + second) = buf.take first ++ (buf.drop first).take second :=
    List.take_add
  rw [hsplit]
  rcases decodeNext_message h1 with ⟨token, hfirst⟩ | hfirst
  · by_cases hheader : token = header
    · rcases decodeNext_message h2 with ⟨token', hsecond⟩ | hsecond
      · refine ⟨.ok token', nofun, fun rest => ?_⟩
        rw [List.append_assoc, secondToken_of_ok (hfirst _), if_pos hheader, hsecond]
        rfl
      · refine ⟨.error "invalid multistream message", final_error rfl, fun rest => ?_⟩
        rw [List.append_assoc, secondToken_of_ok (hfirst _), if_pos hheader, hsecond]
        rfl
    · refine ⟨.error "unexpected multistream header", final_error rfl, fun rest => ?_⟩
      rw [List.append_assoc, secondToken_of_ok (hfirst _), if_neg hheader]
  · refine ⟨.error "invalid multistream message", final_error rfl, fun rest => ?_⟩
    rw [List.append_assoc, secondToken_of_error (hfirst _)]

theorem secondToken_error {buf : Bytes} {e : String} (h : exchangeSpan buf = .error e) :
    ∃ e', secondToken buf = .error e' := by
  unfold exchangeSpan at h
  cases hfirst : messageSpan buf with
  | error e' => exact ⟨e', secondToken_of_error (decodeNext_error hfirst)⟩
  | ok first =>
    rw [hfirst, Except.ok_bind] at h
    have hsecond : ∃ e', decodeNext (buf.drop first) = .error e' := by
      cases hsecond : messageSpan (buf.drop first) with
      | error e' => exact ⟨e', decodeNext_error hsecond⟩
      | ok second =>
        rw [hsecond] at h
        cases h
    obtain ⟨e', hsecond⟩ := hsecond
    rcases decodeNext_message hfirst with ⟨token, hread⟩ | hread
    · have htoken := hread (buf.drop first)
      rw [List.take_append_drop] at htoken
      rw [secondToken_of_ok htoken, hsecond]
      by_cases hheader : token = header
      · exact ⟨e', if_pos hheader⟩
      · exact ⟨_, if_neg hheader⟩
    · have hinvalid := hread (buf.drop first)
      rw [List.take_append_drop] at hinvalid
      exact ⟨_, secondToken_of_error hinvalid⟩

/-- A parser of an exchange agrees with the pre-scan on `buf`. -/
structure Agrees {α : Type} (parse : Bytes → Result α) (buf : Bytes) : Prop where
  complete : ∀ n, exchangeSpan buf = .ok n → parse (buf.take n) = parse buf ∧ Final (parse buf)
  fails : ∀ e, exchangeSpan buf = .error e → ∃ e', parse buf = .error e'

theorem agrees_of_secondToken {α : Type} {k : Bytes → Result α} (hk : ∀ token, Final (k token))
    (buf : Bytes) : Agrees (fun incoming => secondToken incoming >>= k) buf := by
  constructor
  · intro n h
    obtain ⟨r, hfinal, hread⟩ := secondToken_exchange h
    have hspan := hread []
    have hwhole := hread (buf.drop n)
    rw [List.append_nil] at hspan
    rw [List.take_append_drop] at hwhole
    show (secondToken (buf.take n) >>= k) = (secondToken buf >>= k) ∧ Final (secondToken buf >>= k)
    rw [hspan, hwhole]
    exact ⟨rfl, hfinal.bind hk⟩
  · intro e h
    obtain ⟨e', he⟩ := secondToken_error h
    refine ⟨e', ?_⟩
    show (secondToken buf >>= k) = _
    rw [he]
    rfl

/-- The pre-scan finds an exchange inside the buffer and whatever is appended; both
    parsers read it there as they read the whole buffer, and do not ask for more. Where it
    finds none both parsers fail, and where the buffer is malformed it stays so. -/
theorem prescan_agrees (buf : Bytes) :
    (∀ n, exchangeSpan buf = .ok n →
      n ≤ buf.length ∧ ∀ ext, exchangeSpan (buf ++ ext) = .ok n) ∧
    (∀ e, exchangeSpan buf = .error e →
      (isIncompleteError e = true ∨ e = "invalid multistream length") ∧
        (isIncompleteError e = false → ∀ ext, exchangeSpan (buf ++ ext) = .error e)) ∧
    (∀ supported, Agrees (fun incoming => negotiateInbound incoming supported) buf) ∧
    ∀ proposal, Agrees (fun incoming => readOutboundResponse incoming proposal) buf := by
  refine ⟨fun n h => ⟨exchangeSpan_le h, exchangeSpan_append h⟩,
    fun e h => ⟨exchangeSpan_errors h, exchangeSpan_error_append h⟩, fun supported => ?_,
    fun proposal => ?_⟩
  · simp only [negotiateInbound_eq]
    exact agrees_of_secondToken (answer_final supported) buf
  · simp only [readOutboundResponse_eq]
    exact agrees_of_secondToken (accept_final proposal) buf

end PeerCore.MultistreamSelect
