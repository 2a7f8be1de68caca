import PeerCore.Yamux.Opening

/-!
# Where the streams of a session come from

`Ledger` is a session next to the births of its streams: the call that made each, and
the session before it. Its callbacks keep a record of the streams that were announced and
the bytes that were sent.

* `Speaks`: what a call writes and announces.
* `streams_accounted`: the entries of local parity come from `open_stream`, those of
  remote parity from SYN frames, and each stream of a SYN frame is announced once and
  acknowledged once.
-/

namespace PeerCore.Yamux

open YamuxSession

/-! ## The record of the callbacks -/

/-- The callbacks of an owner with an accept callback. The outgoing callback says whether
    it drains `send_buf_`. -/
structure Owner (E : Type) where
  accept : ℕ → StreamId → E → E
  outgoing : Option (Bytes → E → Result Unit × Bool × E)
  close : Option (StreamId → String → E → E)

/-- The streams given to the accept callback, and the bytes drained. -/
structure Record where
  accepted : List (ℕ × StreamId) := []
  sent : Bytes := []

/-- The callbacks of an owner, with the record. -/
def Owner.callbacks {E : Type} (o : Owner E) : Callbacks (E × Record) where
  accept := some fun stream sid e =>
    (o.accept stream sid e.1, { e.2 with accepted := e.2.accepted ++ [(stream, sid)] })
  outgoing := o.outgoing.map fun outgoing sendBuf e =>
    let (r, drains, env) := outgoing sendBuf e.1
    if drains then (r, [], env, { e.2 with sent := e.2.sent ++ sendBuf }) else (r, sendBuf, env, e.2)
  close := o.close.map fun close sid detail e => (close sid detail e.1, e.2)

section Speaks

variable {E : Type}

/-- The bytes `write_frame` has appended. -/
def written (h : Host (E × Record)) : Bytes := h.2.2.sent ++ h.1.sendBuf

/-- The frames written and the streams announced from one state to another. -/
structure Speaks (h h' : Host (E × Record)) (frames : List (YamuxHeader × Bytes))
    (accepted : List (ℕ × StreamId)) : Prop where
  sized : ∀ f ∈ frames, Sized f
  written : written h' = written h ++ encodeFrames frames
  accepted : h'.2.2.accepted = h.2.2.accepted ++ accepted

theorem Speaks.silent {h h' : Host (E × Record)} (hwritten : Yamux.written h' = Yamux.written h)
    (haccepted : h'.2.2.accepted = h.2.2.accepted) : Speaks h h' [] [] where
  sized := fun f hf => by cases hf
  written := hwritten.trans (List.append_nil _).symm
  accepted := haccepted.trans (List.append_nil _).symm

theorem Speaks.trans {h h' h'' : Host (E × Record)} {frames frames' : List (YamuxHeader × Bytes)}
    {accepted accepted' : List (ℕ × StreamId)} (hfirst : Speaks h h' frames accepted)
    (hsecond : Speaks h' h'' frames' accepted') :
    Speaks h h'' (frames ++ frames') (accepted ++ accepted') where
  sized := fun f hf => (List.mem_append.mp hf).elim (hfirst.sized f) (hsecond.sized f)
  written := by
    rw [hsecond.written, hfirst.written, List.append_assoc]
    exact congrArg _ List.flatMap_append.symm
  accepted := by rw [hsecond.accepted, hfirst.accepted, List.append_assoc]

/-- Nothing more is written or announced. -/
theorem Speaks.after {h h' h'' : Host (E × Record)} {frames : List (YamuxHeader × Bytes)}
    {accepted : List (ℕ × StreamId)} (hsecond : Speaks h' h'' [] []) (hfirst : Speaks h h' frames accepted) :
    Speaks h h'' frames accepted := by
  have hboth := hfirst.trans hsecond
  rwa [List.append_nil, List.append_nil] at hboth

variable (o : Owner E)

theorem runOutgoing_silent (h : Host (E × Record)) :
    Speaks h (runOutgoing o.callbacks h).2 [] [] := by
  unfold runOutgoing Owner.callbacks
  cases o.outgoing with
  | none => exact .silent rfl rfl
  | some outgoing =>
    simp only [Option.map_some]
    rcases outgoing h.1.sendBuf h.2.1 with ⟨r, drains, env⟩
    cases drains
    · exact .silent rfl rfl
    · exact .silent (List.append_nil _) rfl

theorem runOutgoing_bind_silent {α : Type} (a : α) (h : Host (E × Record)) :
    Speaks h ((runOutgoing o.callbacks >>= fun _ => (pure a : Op (Host (E × Record)) α)) h).2 [] [] := by
  have hout := runOutgoing_silent o h
  rw [Op.bind_apply]
  generalize runOutgoing o.callbacks h = result at hout
  rcases result with ⟨_ | _, _⟩
  · exact hout
  · exact hout

theorem Speaks.frame {h h' : Host (E × Record)} {hdr : YamuxHeader} {payload : Bytes}
    (hsized : Sized (hdr, payload)) (hbuf : h'.1.sendBuf = h.1.sendBuf ++ encodeFrame hdr payload)
    (henv : h'.2 = h.2) : Speaks h h' [(hdr, payload)] [] where
  sized := fun f hf => List.mem_singleton.mp hf ▸ hsized
  written := by
    rw [encodeFrames, List.flatMap_singleton, Yamux.written, Yamux.written, henv, hbuf, List.append_assoc]
  accepted := by rw [henv, List.append_nil]

/-- A frame without payload. -/
theorem header_sized (type : YamuxType) (flags : UInt16) (sid : StreamId) (length : UInt32)
    (h : type = .data → length = 0) : Sized (header type flags sid length, []) := by
  unfold Sized YamuxHeader.payloadSize header
  cases type with
  | data => rw [h rfl]; rfl
  | windowUpdate | ping | goAway => rfl

theorem sendFrame_speaks {hdr : YamuxHeader} (hsized : Sized (hdr, [])) (h : Host (E × Record)) :
    Speaks h (sendFrame o.callbacks hdr [] h).2 [(hdr, [])] [] :=
  (runOutgoing_silent o (h.1.writeFrame hdr [], h.2)).after (.frame hsized rfl rfl)

end Speaks

/-! ## Calls and frames -/

/-- The ids of the ACK frames for streams. -/
def acks (frames : List (YamuxHeader × Bytes)) : List StreamId :=
  (frames.filter fun f => f.1.type = YamuxType.data.value ∧ hasFlag f.1.flags .ack).map (·.1.streamId)

theorem acks_of_flags (type : YamuxType) {flags : UInt16} (sid : StreamId) (length : UInt32) (payload : Bytes)
    (h : hasFlag flags .ack = false) : acks [(header type flags sid length, payload)] = [] := by
  simp [acks, header, h]

section Calls

variable {E : Type} (o : Owner E) (h : Host (E × Record))

/-- One frame at most, which acknowledges nothing. -/
def Brief (h h' : Host (E × Record)) : Prop := ∃ frames, Speaks h h' frames [] ∧ acks frames = []

theorem Brief.silent {h h' : Host (E × Record)} (hspeaks : Speaks h h' [] []) : Brief h h' :=
  ⟨[], hspeaks, rfl⟩

theorem openStream_brief : Brief h (Yamux.openStream o.callbacks h).2 := by
  unfold openStream
  rw [Op.bind_apply, Op.get_apply]
  dsimp only
  split_ifs
  · exact .silent (.silent rfl rfl)
  · have hsyn : Sized (header .data YamuxFlag.syn.value h.1.nextStreamId 0, []) := header_sized _ _ _ _ fun _ => rfl
    refine ⟨[(_, [])], ?_, acks_of_flags .data h.1.nextStreamId 0 [] (hasFlag_value .syn .ack)⟩
    cases hs : h.1.streams h.1.nextStreamId with
    | some stream =>
      simp only [getOrCreateStream, hs]
      exact (runOutgoing_bind_silent o stream _).after (.frame hsyn rfl rfl)
    | none =>
      simp only [getOrCreateStream, hs, if_true]
      exact (runOutgoing_bind_silent o h.1.allocated _).after (.frame hsyn rfl rfl)

theorem tryRead_brief (stream size : ℕ) : Brief h (Yamux.tryRead o.callbacks stream size h).2 := by
  unfold tryRead
  rw [Op.bind_apply, Op.get_apply]
  dsimp only
  split_ifs
  · exact .silent (.silent rfl rfl)
  · exact .silent (.silent rfl rfl)
  · show Brief h (updateReceiveWindow o.callbacks _ _ _).2
    unfold updateReceiveWindow
    split_ifs
    · exact .silent (.silent rfl rfl)
    · have hwindow := header_sized .windowUpdate 0 (h.1.heap stream).id
        (UInt32.ofNat ((h.1.heap stream).recvBuf.take size).length) fun hdata => by cases hdata
      exact ⟨[(_, [])], (runOutgoing_silent o _).after (.frame hwindow rfl rfl),
        acks_of_flags .windowUpdate _ _ [] (hasFlag_zero .ack)⟩

theorem tryWrite_brief (stream : ℕ) (data : Bytes) : Brief h (Yamux.tryWrite o.callbacks stream data h).2 := by
  unfold tryWrite
  rw [Op.bind_apply, Op.get_apply]
  dsimp only
  split_ifs
  · exact .silent (.silent rfl rfl)
  · unfold writeStreamData
    rw [Op.bind_apply, Op.get_apply]
    dsimp only
    cases h.1.sendWindows _ with
    | none => exact .silent (.silent rfl rfl)
    | some window =>
      dsimp only
      split_ifs
      · exact .silent (.silent rfl rfl)
      · -- the length of the frame fits into its field, as the window does
        have hdata : Sized (header .data 0 (h.1.heap stream).id
            (UInt32.ofNat (min data.length window.toNat)), data.take (min data.length window.toNat)) := by
          have hlt := window.toNat_lt
          unfold Sized YamuxHeader.payloadSize header
          simp only [List.length_take, if_true, UInt32.toNat_ofNat']
          omega
        exact ⟨[_], (runOutgoing_bind_silent o _ _).after (.frame hdata rfl rfl),
          acks_of_flags .data _ _ _ (hasFlag_zero .ack)⟩

theorem closeWrite_brief (stream : ℕ) : Brief h (Yamux.closeWrite o.callbacks stream h).2 := by
  unfold closeWrite
  rw [Op.bind_apply, Op.get_apply]
  dsimp only
  split_ifs
  · exact .silent (.silent rfl rfl)
  · unfold closeStreamWrite
    have hfin : Sized (header .data YamuxFlag.fin.value (h.1.heap stream).id 0, []) :=
      header_sized _ _ _ _ fun _ => rfl
    refine ⟨[(_, [])], ?_, acks_of_flags .data (h.1.heap stream).id 0 [] (hasFlag_value .fin .ack)⟩
    refine (runOutgoing_silent o _).after ?_
    have hentry : (h.1.setStream stream YamuxStream.closeLocalWrite).streams = h.1.streams := rfl
    cases hs : h.1.streams (h.1.heap stream).id with
    | none =>
      simp only [hentry, writeFrame, hs]
      exact .frame hfin rfl rfl
    | some stream' =>
      simp only [hentry, writeFrame, hs]
      exact .frame hfin rfl rfl

theorem reset_brief (stream : ℕ) : Brief h (Yamux.reset o.callbacks stream h).2 := by
  have hrst : Sized (header .data YamuxFlag.rst.value (h.1.heap stream).id 0, []) :=
    header_sized _ _ _ _ fun _ => rfl
  exact ⟨[(_, [])], (runOutgoing_silent o _).after (.frame hrst rfl rfl),
    acks_of_flags .data _ 0 [] (hasFlag_value .rst .ack)⟩

/-! ### A frame -/

theorem runClose_silent (sid : StreamId) (detail : String) : Speaks h (runClose o.callbacks sid detail h) [] [] := by
  unfold runClose Owner.callbacks
  cases o.close <;> exact .silent rfl rfl

theorem applyFrame_silent (hdr : YamuxHeader) (payload : Bytes) (stream : ℕ) :
    Speaks h (applyFrame o.callbacks hdr payload stream h) [] [] := by
  rw [applyFrame_eq]
  have hcredit : Speaks h (creditStage hdr h) [] [] := by
    unfold creditStage
    split_ifs
    · unfold creditWindow
      cases h.1.sendWindows hdr.streamId <;> exact .silent rfl rfl
    · exact .silent rfl rfl
  have hdata : ∀ h : Host (E × Record), Speaks h (dataStage payload stream h) [] [] := by
    intro h
    unfold dataStage
    split_ifs <;> exact .silent rfl rfl
  have hfin : ∀ h : Host (E × Record), Speaks h (finStage o.callbacks hdr stream h) [] [] := by
    intro h
    unfold finStage
    dsimp only
    split_ifs
    · exact .silent rfl rfl
    · exact (runClose_silent o _ _ _).after (.silent rfl rfl)
    · exact .silent rfl rfl
  have hrst : ∀ h : Host (E × Record), Speaks h (rstStage o.callbacks hdr stream h) [] [] := by
    intro h
    unfold rstStage
    dsimp only
    split_ifs
    · have hclose := runClose_silent o (h.1.setStream stream YamuxStream.receiveRst, h.2) hdr.streamId
        "yamux stream reset by peer"
      exact .silent (hclose.written.trans (List.append_nil _)) (hclose.accepted.trans (List.append_nil _))
    · exact .silent rfl rfl
  exact (hrst _).after ((hfin _).after ((hdata _).after hcredit))

/-- A stream made by a SYN is announced and acknowledged. -/
theorem acceptStream_speaks (stream : ℕ) (sid : StreamId) :
    Speaks h (acceptStream o.callbacks stream sid h) [(header .data YamuxFlag.ack.value sid 0, [])]
      [(stream, sid)] := by
  have hannounce : Speaks h (h.1, o.accept stream sid h.2.1,
      { h.2.2 with accepted := h.2.2.accepted ++ [(stream, sid)] }) [] [(stream, sid)] :=
    ⟨fun f hf => (by cases hf), (List.append_nil _).symm, rfl⟩
  exact hannounce.trans (sendFrame_speaks o (header_sized .data _ sid 0 fun _ => rfl) _)

theorem handleFrame_brief (hdr : YamuxHeader) (payload : Bytes) (hother : ¬ ForStream h.1 hdr) :
    Brief h (handleFrame o.callbacks hdr payload h) := by
  rw [handleFrame_eq]
  split_ifs with hversion hping hack hgo hkind hlocal
  · exact .silent (.silent rfl rfl)
  · exact .silent (.silent rfl rfl)
  · have hsized := header_sized .ping YamuxFlag.ack.value 0 hdr.length fun hdata => by cases hdata
    exact ⟨[(_, [])], sendFrame_speaks o hsized h, rfl⟩
  · exact .silent (.silent rfl rfl)
  · exact .silent (.silent rfl rfl)
  · have hsized := header_sized .goAway 0 0 (YamuxGoAwayCode.protocolError.value) fun hdata => by cases hdata
    exact ⟨[(_, [])], sendFrame_speaks o hsized h, rfl⟩
  · refine absurd ⟨not_not.mp hversion, ?_, ?_, fun hsyn => ?_⟩ hother
    · exact not_not.mp fun h => hkind (.inl h)
    · exact fun h => hkind (.inr h)
    · simpa [hsyn] using hlocal

end Calls

/-! ## Births -/

/-- A stream that was made, the call that made it, and the session before that call. -/
structure Birth where
  stream : ℕ
  call : Call
  session : YamuxSession

namespace Birth

/-- Made by `open_stream`, under the next id. -/
def Opened (b : Birth) (sid : StreamId) : Prop :=
  b.call = .on .openStream ∧ b.session.nextStreamId = sid

/-- Made by a received SYN frame on an id of remote parity that was not in the table. -/
def Synned (b : Birth) (sid : StreamId) : Prop :=
  b.call = .on .frame ∧ sid ≠ 0 ∧ b.session.isRemoteStreamId sid = true ∧ b.session.streams sid = none ∧
    ∃ f ∈ tryParseFrame b.session.recvBuf, f.1.streamId = sid ∧ hasFlag f.1.flags .syn = true

/-- The stream and the id of the frame that made it. -/
def announced (b : Birth) : Option (ℕ × StreamId) :=
  match b.call with
  | .on .frame => (tryParseFrame b.session.recvBuf).map fun f => (b.stream, f.1.streamId)
  | _ => none

end Birth

/-- A session with a record of its callbacks and the births of its streams. -/
structure Ledger (E : Type) where
  host : Host (E × Record)
  births : List Birth := []

namespace Ledger

variable {E : Type} (o : Owner E)

/-- The effect of a call; what `drain_outgoing` returns is sent. -/
def act (h : Host (E × Record)) : Call → Host (E × Record)
  | .on a => Watch.act o.callbacks a h
  | .drainOutgoing =>
    let (bytes, s) := Yamux.drainOutgoing h.1
    (s, h.2.1, { h.2.2 with sent := h.2.2.sent ++ bytes })

/-- The births of a call. -/
def newborn (h : Host (E × Record)) (call : Call) : List Birth :=
  if (act o h call).1.allocated = h.1.allocated then [] else [⟨h.1.allocated, call, h.1⟩]

/-- A call, with the births it makes. -/
def step (l : Ledger E) (call : Call) : Ledger E where
  host := act o l.host call
  births := l.births ++ newborn o l.host call

theorem act_books (h : Host (E × Record)) (call : Call) : Change h.1 call (act o h call).1.books := by
  cases call with
  | on a => exact Yamux.act_books o.callbacks a h
  | drainOutgoing => exact .drain

/-- The SYN frame that makes a stream. -/
theorem act_speaks_new {h : Host (E × Record)} {hdr : YamuxHeader} {payload rest : Bytes}
    (hparse : tryParseFrame h.1.recvBuf = some (hdr, payload, rest)) (hfor : ForStream h.1 hdr)
    (hs : h.1.streams hdr.streamId = none) (hsyn : hasFlag hdr.flags .syn = true) : ∃ frames,
    Speaks h (act o h (.on .frame)) frames ((newborn o h (.on .frame)).filterMap Birth.announced) ∧
      acks frames = ((newborn o h (.on .frame)).filterMap Birth.announced).map Prod.snd := by
  have hact : act o h (.on .frame) = rebuffer rest (handleFrame o.callbacks hdr payload h) :=
    act_frame o.callbacks hparse
  rw [handleFrame_new_eq o.callbacks hdr payload h hfor hs hsyn] at hact
  have halloc : (act o h (.on .frame)).1.allocated = h.1.allocated + 1 := by
    rw [hact]
    refine (congrArg (fun b : Books => b.table.allocated) (applyFrame_books o.callbacks _ _ _ _)).trans ?_
    rw [Books.afterFrame_table, Table.afterFrame_allocated, acceptStream_books]
    rfl
  have hborn : (newborn o h (.on .frame)).filterMap Birth.announced = [(h.1.allocated, hdr.streamId)] := by
    rw [newborn, if_neg (by omega), List.filterMap_cons, Birth.announced]
    dsimp only
    rw [hparse]
    rfl
  have hspeaks := (applyFrame_silent o _ hdr payload h.1.allocated).after
    (acceptStream_speaks o (h.1.createStream hdr.streamId, h.2) h.1.allocated hdr.streamId)
  rw [hborn, hact]
  refine ⟨_, ⟨hspeaks.sized, hspeaks.written, hspeaks.accepted⟩, ?_⟩
  simp [acks, header]

/-- A call announces and acknowledges the streams it makes for SYN frames. -/
theorem act_speaks (h : Host (E × Record)) (call : Call) : ∃ frames,
    Speaks h (act o h call) frames ((newborn o h call).filterMap Birth.announced) ∧
      acks frames = ((newborn o h call).filterMap Birth.announced).map Prod.snd := by
  have hbrief : Brief h (act o h call) → (newborn o h call).filterMap Birth.announced = [] → ∃ frames,
      Speaks h (act o h call) frames ((newborn o h call).filterMap Birth.announced) ∧
        acks frames = ((newborn o h call).filterMap Birth.announced).map Prod.snd := by
    rintro ⟨frames, hspeaks, hacks⟩ hnone
    rw [hnone]
    exact ⟨frames, hspeaks, hacks⟩
  have hold : (act o h call).1.allocated = h.1.allocated →
      (newborn o h call).filterMap Birth.announced = [] := by
    intro hsame
    rw [newborn, if_pos hsame]
    rfl
  cases call with
  | drainOutgoing => exact hbrief (.silent (.silent (List.append_nil _) rfl)) (hold rfl)
  | on a =>
    cases a with
    | arrive data => exact hbrief (.silent (.silent rfl rfl)) (hold rfl)
    | openStream =>
      refine hbrief (openStream_brief o h) ?_
      unfold newborn
      split_ifs <;> rfl
    | tryRead stream size =>
      exact hbrief (tryRead_brief o h stream size)
        (hold (congrArg (fun b : Books => b.table.allocated) (tryRead_books o.callbacks stream size h)))
    | tryWrite stream data =>
      refine hbrief (tryWrite_brief o h stream data) (hold ?_)
      rcases tryWrite_books o.callbacks stream data h with hsame | ⟨window, n, -, -, -, hdebit⟩
      · exact congrArg (fun b : Books => b.table.allocated) hsame
      · exact congrArg (fun b : Books => b.table.allocated) hdebit
    | closeWrite stream =>
      refine hbrief (closeWrite_brief o h stream) (hold ?_)
      refine (congrArg (fun b : Books => b.table.allocated) (closeWrite_books o.callbacks stream h)).trans ?_
      split_ifs <;> rfl
    | reset stream =>
      exact hbrief (reset_brief o h stream)
        (hold (congrArg (fun b : Books => b.table.allocated) (reset_books o.callbacks stream h)))
    | frame =>
      cases hparse : tryParseFrame h.1.recvBuf with
      | none =>
        have hstay : act o h (.on .frame) = h := by
          unfold act Watch.act
          rw [hparse]
        refine hbrief (.silent ?_) (hold (by rw [hstay]))
        rw [hstay]
        exact .silent rfl rfl
      | some frame =>
        obtain ⟨hdr, payload, rest⟩ := frame
        have hact : act o h (.on .frame) = rebuffer rest (handleFrame o.callbacks hdr payload h) :=
          act_frame o.callbacks hparse
        by_cases hfor : ForStream h.1 hdr
        · cases hs : h.1.streams hdr.streamId with
          | some stream =>
            rw [handleFrame_held_eq o.callbacks hdr payload h hfor hs] at hact
            have hsilent := applyFrame_silent o h hdr payload stream
            have hbooks := applyFrame_books o.callbacks hdr payload stream h
            refine hbrief (hact ▸ .silent (.silent ?_ ?_)) (hold ?_)
            · exact hsilent.written.trans (List.append_nil _)
            · exact hsilent.accepted.trans (List.append_nil _)
            · rw [hact]
              refine (congrArg (fun b : Books => b.table.allocated) hbooks).trans ?_
              rw [Books.afterFrame_table, Table.afterFrame_allocated]
              rfl
          | none =>
            cases hsyn : hasFlag hdr.flags .syn with
            | false =>
              rw [handleFrame_unknown_eq o.callbacks hdr payload h hfor hs hsyn] at hact
              exact hbrief (hact ▸ .silent (.silent rfl rfl)) (hold (by rw [hact]; rfl))
            | true => exact act_speaks_new o hparse hfor hs hsyn
        · have hbooks := handleFrame_other_books o.callbacks hdr payload h hfor
          obtain ⟨frames, hspeaks, hacks⟩ := handleFrame_brief o h hdr payload hfor
          refine hbrief ⟨frames, ⟨hspeaks.sized, ?_, ?_⟩, hacks⟩ (hold ?_)
          · rw [hact]
            exact hspeaks.written
          · rw [hact]
            exact hspeaks.accepted
          · rw [hact]
            exact congrArg (fun b : Books => b.table.allocated) hbooks

/-- Every stream was born once, every entry of the table by the side that its id belongs
    to, and the streams of SYN frames were announced and acknowledged once each. -/
structure Accounted (l : Ledger E) : Prop where
  born : l.births.map Birth.stream = List.range l.host.1.allocated
  lawful : ∀ b ∈ l.births, ∃ sid, b.Opened sid ∨ b.Synned sid
  entries : ∀ sid stream, l.host.1.streams sid = some stream → ∃ b ∈ l.births, b.stream = stream ∧
    if l.host.1.isRemoteStreamId sid then b.Synned sid else b.Opened sid
  accepted : l.host.2.2.accepted = l.births.filterMap Birth.announced
  acked : ∃ frames, (∀ f ∈ frames, Sized f) ∧ written l.host = encodeFrames frames ∧
    acks frames = (l.births.filterMap Birth.announced).map Prod.snd

/-- A SYN on an id that is not of remote parity changes no table. -/
def IgnoresLocal (l : Ledger E) : Call → Prop
  | .on .frame => ∀ f ∈ tryParseFrame l.host.1.recvBuf, hasFlag f.1.flags .syn = true →
      l.host.1.isRemoteStreamId f.1.streamId = false → (act o l.host (.on .frame)).1.books = l.host.1.books
  | _ => True

theorem ignoresLocal (l : Ledger E) (call : Call) : l.IgnoresLocal o call := by
  unfold IgnoresLocal
  split
  · rintro ⟨hdr, payload, rest⟩ hparse hsyn hlocal
    have hact : act o l.host (.on .frame) = rebuffer rest (handleFrame o.callbacks hdr payload l.host) :=
      act_frame o.callbacks hparse
    rw [hact]
    refine handleFrame_other_books o.callbacks hdr payload l.host fun hfor => ?_
    exact absurd ((hfor.2.2.2 hsyn).symm.trans hlocal) Bool.false_ne_true.symm
  · trivial

variable {o} {l : Ledger E} {call : Call}

/-- The next id is one of the local role. -/
structure InRole (l : Ledger E) : Prop extends Accounted l where
  next : Opens.Local l.host.1.isClient l.host.1.nextStreamId

theorem isRemoteStreamId_of_local {s : YamuxSession} {sid : StreamId} (h : Opens.Local s.isClient sid) :
    s.isRemoteStreamId sid = false := by
  unfold Opens.Local at h
  have hmod : (sid % 2).toNat = sid.toNat % 2 := UInt32.toNat_mod sid 2
  have hone : (1 : UInt32).toNat = 1 := rfl
  have hzero : (0 : UInt32).toNat = 0 := rfl
  unfold isRemoteStreamId
  split_ifs with hsid hclient
  · rfl
  · rw [hclient] at h
    simp only [if_true] at h
    refine decide_eq_false fun heven => ?_
    rw [← UInt32.toNat_inj] at heven
    omega
  · rw [Bool.eq_false_iff.mpr hclient] at h
    simp only [Bool.false_eq_true, if_false] at h
    refine decide_eq_false fun hodd => ?_
    rw [← UInt32.toNat_inj] at hodd
    omega

theorem isRemoteStreamId_congr {s s' : YamuxSession} (h : s.isClient = s'.isClient) (sid : StreamId) :
    s.isRemoteStreamId sid = s'.isRemoteStreamId sid := by
  unfold isRemoteStreamId
  rw [h]

theorem local_add_two {isClient : Bool} {sid : StreamId} (h : Opens.Local isClient sid) :
    Opens.Local isClient (sid + 2) := by
  unfold Opens.Local at h ⊢
  rw [UInt32.toNat_add]
  have htwo : (2 : UInt32).toNat = 2 := rfl
  omega

theorem change_isClient {s : YamuxSession} {b : Books} (hchange : Change s call b) : b.isClient = s.isClient := by
  cases hchange with
  | frame hdr payload rest stream => exact (Books.afterFrame_fixed _ hdr payload stream).1
  | frameNew hdr payload rest => exact (Books.afterFrame_fixed _ hdr payload s.allocated).1
  | drain | arrive | openRefused | openReused | openNew | tryRead | writeNothing | write | closedAlready
  | closeWrite | reset | noFrame => rfl

theorem change_next {s : YamuxSession} {b : Books} (h : Opens.Local s.isClient s.nextStreamId)
    (hchange : Change s call b) : Opens.Local b.isClient b.nextStreamId := by
  rw [change_isClient hchange, Opens.change_nextStreamId hchange]
  split_ifs
  · exact local_add_two h
  · exact h

/-- One stream at most is made, by `open_stream` or for a SYN frame. -/
theorem change_allocated {s : YamuxSession} {b : Books} (hchange : Change s call b)
    (hnew : b.table.allocated ≠ s.allocated) : b.table.allocated = s.allocated + 1 ∧
      ∃ sid, Birth.Opened ⟨s.allocated, call, s⟩ sid ∨ Birth.Synned ⟨s.allocated, call, s⟩ sid := by
  cases hchange with
  | drain | arrive | openRefused | openReused | tryRead | writeNothing | write | closedAlready | closeWrite
  | reset | noFrame => exact absurd rfl hnew
  | frame hdr payload rest stream =>
    rw [Books.afterFrame_table, Table.afterFrame_allocated] at hnew
    exact absurd rfl hnew
  | openNew => exact ⟨rfl, s.nextStreamId, .inl ⟨rfl, rfl⟩⟩
  | frameNew hdr payload rest hparse hfor hsyn hs =>
    rw [Books.afterFrame_table, Table.afterFrame_allocated]
    exact ⟨rfl, hdr.streamId, .inr ⟨rfl, hfor.2.2.1, hfor.2.2.2 hsyn, hs, _, hparse, rfl, hsyn⟩⟩

/-- An entry was there before, or its stream is the new one. -/
theorem change_entries {s : YamuxSession} {b : Books} (hchange : Change s call b) {sid : StreamId}
    {stream : ℕ} (hentry : b.table.streams sid = some stream) : s.streams sid = some stream ∨
      stream = s.allocated ∧ b.table.allocated = s.allocated + 1 ∧
        (Birth.Opened ⟨stream, call, s⟩ sid ∨ Birth.Synned ⟨stream, call, s⟩ sid) := by
  cases hchange with
  | drain | arrive | openRefused | openReused | tryRead | writeNothing | write | closedAlready | closeWrite
  | noFrame => exact .inl hentry
  | reset stream' =>
    change ((s.table.set stream' _).erase _).streams sid = some stream at hentry
    rw [Table.erase_streams] at hentry
    split_ifs at hentry
    exact .inl hentry
  | frame hdr payload rest stream' =>
    rw [Books.afterFrame_table] at hentry
    exact .inl (Table.afterFrame_streams hentry).1
  | openNew hgo hs =>
    change (s.table.create s.connId s.nextStreamId).streams sid = some stream at hentry
    rw [Table.create_streams] at hentry
    split_ifs at hentry with hsid
    · exact .inr ⟨(Option.some.inj hentry).symm, rfl, .inl ⟨rfl, hsid.symm⟩⟩
    · exact .inl hentry
  | frameNew hdr payload rest hparse hfor hsyn hs =>
    rw [Books.afterFrame_table] at hentry ⊢
    rw [Table.afterFrame_allocated]
    have hcreate : (s.table.create s.connId hdr.streamId).streams sid = some stream :=
      (Table.afterFrame_streams hentry).1
    rw [Table.create_streams] at hcreate
    split_ifs at hcreate with hsid
    · subst hsid
      refine .inr ⟨(Option.some.inj hcreate).symm, rfl, .inr ⟨rfl, hfor.2.2.1, hfor.2.2.2 hsyn, hs, ?_⟩⟩
      exact ⟨_, hparse, rfl, hsyn⟩
    · exact .inl hcreate

theorem InRole.step (h : l.InRole) (call : Call) : (step o l call).InRole := by
  have hchange := act_books o l.host call
  have hclient : (act o l.host call).1.isClient = l.host.1.isClient := change_isClient hchange
  obtain ⟨frames, hspeaks, hacks⟩ := act_speaks o l.host call
  refine ⟨⟨?_, ?_, ?_, ?_, ?_⟩, change_next h.next hchange⟩
  · show (l.births ++ newborn o l.host call).map Birth.stream = List.range (act o l.host call).1.allocated
    rw [List.map_append, h.born, newborn]
    split_ifs with hsame
    · rw [hsame]
      exact List.append_nil _
    · have hsucc : (act o l.host call).1.allocated = l.host.1.allocated + 1 := (change_allocated hchange hsame).1
      rw [hsucc, List.range_succ]
      rfl
  · intro b hb
    rcases List.mem_append.mp hb with hold | hnew
    · exact h.lawful b hold
    · unfold newborn at hnew
      split_ifs at hnew with hsame
      · cases hnew
      · rw [List.mem_singleton.mp hnew]
        exact (change_allocated hchange hsame).2
  · intro sid stream hentry
    show ∃ b ∈ l.births ++ newborn o l.host call, b.stream = stream ∧
      if (act o l.host call).1.isRemoteStreamId sid then b.Synned sid else b.Opened sid
    rw [isRemoteStreamId_congr hclient]
    rcases change_entries hchange hentry with hold | ⟨rfl, hsucc, hborn⟩
    · obtain ⟨b, hb, hstream, hside⟩ := h.entries sid stream hold
      exact ⟨b, List.mem_append_left _ hb, hstream, hside⟩
    · have hnewborn : newborn o l.host call = [⟨l.host.1.allocated, call, l.host.1⟩] := by
        have hne : (act o l.host call).1.allocated ≠ l.host.1.allocated := by
          have hsame : (act o l.host call).1.allocated = l.host.1.allocated + 1 := hsucc
          omega
        rw [newborn, if_neg hne]
      refine ⟨_, List.mem_append_right _ (hnewborn ▸ List.mem_singleton_self _), rfl, ?_⟩
      rcases hborn with hopened | hsynned
      · have hlocal : l.host.1.isRemoteStreamId sid = false := by
          rw [← hopened.2]
          exact isRemoteStreamId_of_local h.next
        rw [hlocal]
        exact hopened
      · rw [if_pos hsynned.2.2.1]
        exact hsynned
  · show (act o l.host call).2.2.accepted = (l.births ++ newborn o l.host call).filterMap Birth.announced
    rw [hspeaks.accepted, h.accepted, List.filterMap_append]
  · obtain ⟨before, hsized, hwritten, hbefore⟩ := h.acked
    refine ⟨before ++ frames, fun f hf => (List.mem_append.mp hf).elim (hsized f) (hspeaks.sized f), ?_, ?_⟩
    · show written (act o l.host call) = encodeFrames (before ++ frames)
      rw [hspeaks.written, hwritten]
      exact List.flatMap_append.symm
    · show acks (before ++ frames) = ((l.births ++ newborn o l.host call).filterMap Birth.announced).map Prod.snd
      rw [List.filterMap_append, List.map_append, ← hbefore, ← hacks]
      unfold acks
      rw [List.filter_append, List.map_append]

end Ledger

/-- In every run, every entry of local parity was made by `open_stream` and every entry of
    remote parity by a SYN frame for an id not in the table, each such stream was announced
    and acknowledged once, and a SYN for another id changed nothing. -/
theorem streams_accounted {E : Type} (o : Owner E) (connId : ConnectionId) (isClient : Bool) (env : E)
    (calls : List Call) :
    let first : Ledger E := { host := (.make connId isClient, env, {}) }
    Runs.States (Ledger.step o) Ledger.Accounted first calls ∧
      Runs.Steps (Ledger.step o) (Ledger.IgnoresLocal o) first calls := by
  intro first
  have hfirst : first.InRole := by
    refine ⟨⟨rfl, fun b hb => ?_, fun sid stream hentry => ?_, rfl, [], fun f hf => ?_, rfl, rfl⟩, ?_⟩
    · cases hb
    · cases hentry
    · cases hf
    · show Opens.Local isClient (if isClient then 1 else 2)
      cases isClient <;> rfl
  refine ⟨?_, Runs.Steps.of_mem fun call _ l => Ledger.ignoresLocal o l call⟩
  refine (Runs.Steps.invariant (C := fun _ _ => True) (fun l call h _ => h.step call) hfirst
    (Runs.Steps.of_mem fun _ _ _ => trivial)).mono fun l h => h.toAccounted

end PeerCore.Yamux
