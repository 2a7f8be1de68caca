import PeerCore.Yamux.Accepting
import PeerCore.Yamux.Pair

/-!
# What a session sends is what it was granted

`Meter` is a session next to the ids of the streams it made, the frames it took off its
receive buffer and the bytes its users read. The peer may send anything.

* `change_windows`: no call but `try_write` adds to a send window more than the peer grants.
* `act_meters`: what one call writes, against the windows before and after it.
* `grants_respected`: the session sends no data that it was not granted, and grants the
  peer the bytes that were read.
* `pings_answered`: its pings and go-aways are the answers to the frames of the peer.
-/

namespace PeerCore.Yamux

open YamuxSession

/-! ## The send windows -/

/-- `send_windows_` at `sid`, or zero. -/
def Books.windowAt (b : Books) (sid : StreamId) : ℕ := (b.windows sid).elim 0 UInt32.toNat

/-- The ids of the streams that a call made. -/
def bornIds (s : YamuxSession) (b : Books) : List StreamId :=
  if b.table.allocated = s.allocated then [] else [(b.table.heap s.allocated).id]

/-- The frame that a call takes off the receive buffer. -/
def heardFrames (s : YamuxSession) : Call → List (YamuxHeader × Bytes)
  | .on .frame => (tryParseFrame s.recvBuf).toList.map fun f => (f.1, f.2.1)
  | _ => []

theorem bornIds_of_succ {s : YamuxSession} {b : Books}
    (h : b.table.allocated = s.allocated + 1) : bornIds s b = [(b.table.heap s.allocated).id] := by
  unfold bornIds
  rw [if_neg (by omega)]

section Windows

variable {b : Books} {sid : StreamId}

theorem Books.windowAt_update (id : StreamId) (window : Option UInt32) :
    ({ b with windows := Function.update b.windows id window } : Books).windowAt sid =
      if sid = id then window.elim 0 UInt32.toNat else b.windowAt sid := by
  unfold windowAt
  dsimp only
  rw [Function.update_apply]
  split_ifs <;> rfl

theorem Books.windowAt_credit_le (id : StreamId) (delta : UInt32) (sid : StreamId) :
    (b.credit id delta).windowAt sid ≤ b.windowAt sid + if id = sid then delta.toNat else 0 := by
  unfold credit
  cases hwindow : b.windows id with
  | none => exact Nat.le_add_right _ _
  | some window =>
    dsimp only
    rw [windowAt_update]
    by_cases hid : sid = id
    · subst hid
      have hbefore : b.windowAt sid = window.toNat := by
        unfold windowAt
        rw [hwindow]
        rfl
      rw [if_pos rfl, if_pos rfl, hbefore]
      show (UInt32.ofNat _).toNat ≤ _
      rw [UInt32.toNat_ofNat']
      omega
    · rw [if_neg hid]
      exact Nat.le_add_right _ _

theorem Books.windowAt_debit {id : StreamId} {window n : UInt32} (hwindow : b.windows id = some window)
    (hle : n ≤ window) (sid : StreamId) :
    (if id = sid then n.toNat else 0) +
      ({ b with windows := Function.update b.windows id (some (window - n)) } : Books).windowAt sid =
        b.windowAt sid := by
  rw [windowAt_update]
  by_cases hid : sid = id
  · subst hid
    have hbefore : b.windowAt sid = window.toNat := by
      unfold windowAt
      rw [hwindow]
      rfl
    rw [if_pos rfl, if_pos rfl, hbefore]
    show _ + (window - n).toNat = _
    rw [UInt32.toNat_sub_of_le _ _ hle]
    rw [UInt32.le_iff_toNat_le] at hle
    omega
  · rw [if_neg (Ne.symm hid), if_neg hid]
    exact Nat.zero_add _

theorem Books.windowAt_create_le (connId : ConnectionId) (id sid : StreamId) :
    (b.create connId id).windowAt sid ≤
      b.windowAt sid + initialStreamWindow.toNat * [id].count sid := by
  show ({ b with windows := Function.update b.windows id (some initialStreamWindow) } : Books).windowAt
    sid ≤ _
  rw [windowAt_update]
  by_cases hid : sid = id
  · subst hid
    rw [if_pos rfl, List.count_singleton_self, Nat.mul_one]
    exact Nat.le_add_left _ _
  · rw [if_neg hid]
    exact Nat.le_add_right _ _

theorem Books.windowAt_erase_le (id : StreamId) : (b.erase id).windowAt sid ≤ b.windowAt sid := by
  show ({ b with windows := Function.update b.windows id none } : Books).windowAt sid ≤ _
  rw [windowAt_update]
  split_ifs
  · exact Nat.zero_le _
  · exact Nat.le_refl _

theorem Books.windowAt_afterFrame_le (hdr : YamuxHeader) (payload : Bytes) (stream : ℕ)
    (sid : StreamId) :
    (b.afterFrame hdr payload stream).windowAt sid ≤
      b.windowAt sid + creditBytes sid [(hdr, payload)] := by
  have hcredit : (if hdr.type = YamuxType.windowUpdate.value ∧ hdr.length > 0
      then b.credit hdr.streamId hdr.length else b).windowAt sid ≤
        b.windowAt sid + creditBytes sid [(hdr, payload)] := by
    unfold creditBytes
    rw [List.map_singleton, List.sum_singleton]
    split_ifs with hupdate hboth hboth
    · have hle := windowAt_credit_le (b := b) hdr.streamId hdr.length sid
      rwa [if_pos hboth.2] at hle
    · have hle := windowAt_credit_le (b := b) hdr.streamId hdr.length sid
      rwa [if_neg fun hid => hboth ⟨hupdate.1, hid⟩] at hle
    · exact Nat.le_add_right _ _
    · exact Nat.le_refl _
  unfold afterFrame
  dsimp only
  generalize (if hdr.type = YamuxType.windowUpdate.value ∧ hdr.length > 0
    then b.credit hdr.streamId hdr.length else b) = credited at hcredit ⊢
  split_ifs
  · exact (windowAt_erase_le _).trans hcredit
  · exact hcredit

/-- What a call adds to a window was granted: at first, or by a window update. -/
theorem change_windows {s : YamuxSession} {call : Call} (hchange : Change s call b)
    (hwrite : ∀ stream data, call ≠ .on (.tryWrite stream data)) (sid : StreamId) :
    b.windowAt sid ≤ s.books.windowAt sid +
      (initialStreamWindow.toNat * (bornIds s b).count sid + creditBytes sid (heardFrames s call)) := by
  cases hchange with
  | drain | arrive | openRefused | openReused | tryRead | closedAlready | closeWrite | noFrame =>
    exact Nat.le_add_right _ _
  | writeNothing stream data => exact absurd rfl (hwrite stream data)
  | write stream data => exact absurd rfl (hwrite stream data)
  | reset stream =>
    exact (Books.windowAt_erase_le (b := s.books.set stream YamuxStream.receiveRst) _).trans
      (Nat.le_add_right _ _)
  | openNew hgo hs =>
    have hborn : bornIds s (s.books.create s.connId s.nextStreamId).take = [s.nextStreamId] := by
      rw [bornIds_of_succ rfl]
      show [((s.table.create s.connId s.nextStreamId).heap s.allocated).id] = _
      rw [Table.create_heap]
      exact congrArg (fun st : YamuxStream => [st.id]) (if_pos rfl)
    have hle := Books.windowAt_create_le (b := s.books) s.connId s.nextStreamId sid
    rw [hborn]
    exact hle.trans (Nat.add_le_add_left (Nat.le_add_right _ _) _)
  | frame hdr payload rest stream hparse hfor hs =>
    have hheard : heardFrames s (.on .frame) = [(hdr, payload)] := by
      unfold heardFrames
      rw [hparse]
      rfl
    have hle := Books.windowAt_afterFrame_le (b := s.books) hdr payload stream sid
    rw [hheard]
    exact hle.trans (Nat.add_le_add_left (Nat.le_add_left _ _) _)
  | frameNew hdr payload rest hparse hfor hsyn hs =>
    have hheard : heardFrames s (.on .frame) = [(hdr, payload)] := by
      unfold heardFrames
      rw [hparse]
      rfl
    have hborn : bornIds s ((s.books.create s.connId hdr.streamId).afterFrame hdr payload s.allocated) =
        [hdr.streamId] := by
      rw [bornIds_of_succ (by rw [Books.afterFrame_table, Table.afterFrame_allocated]; rfl),
        Books.afterFrame_table, Table.afterFrame_heap, Function.update_self,
        (afterFrame_keeps hdr payload _).1]
      show [((s.table.create s.connId hdr.streamId).heap s.allocated).id] = _
      rw [Table.create_heap]
      exact congrArg (fun st : YamuxStream => [st.id]) (if_pos rfl)
    have hframe := Books.windowAt_afterFrame_le (b := s.books.create s.connId hdr.streamId)
      hdr payload s.allocated sid
    have hcreate := Books.windowAt_create_le (b := s.books) s.connId hdr.streamId sid
    rw [hheard, hborn]
    omega

end Windows

/-! ## What a call writes -/

theorem dataBytes_append (sid : StreamId) (frames more : List (YamuxHeader × Bytes)) :
    dataBytes sid (frames ++ more) = dataBytes sid frames + dataBytes sid more := by
  unfold dataBytes
  rw [List.map_append, List.sum_append]

theorem creditBytes_append (sid : StreamId) (frames more : List (YamuxHeader × Bytes)) :
    creditBytes sid (frames ++ more) = creditBytes sid frames + creditBytes sid more := by
  unfold creditBytes
  rw [List.map_append, List.sum_append]

/-- A frame without data that grants nothing. -/
def PlainFrame (f : YamuxHeader × Bytes) : Prop :=
  f.2 = [] ∧ f.1.type ≠ YamuxType.windowUpdate.value

theorem dataBytes_of_empty {frames : List (YamuxHeader × Bytes)} (h : ∀ f ∈ frames, f.2 = [])
    (sid : StreamId) : dataBytes sid frames = 0 := by
  unfold dataBytes
  apply List.sum_eq_zero
  intro n hn
  obtain ⟨f, hf, rfl⟩ := List.mem_map.mp hn
  simp [h f hf]

theorem creditBytes_of_plain {frames : List (YamuxHeader × Bytes)} (h : ∀ f ∈ frames, PlainFrame f)
    (sid : StreamId) : creditBytes sid frames = 0 := by
  unfold creditBytes
  apply List.sum_eq_zero
  intro n hn
  obtain ⟨f, hf, rfl⟩ := List.mem_map.mp hn
  simp [(h f hf).2]

/-- The pings and go-aways in a list of frames. -/
def controls (frames : List (YamuxHeader × Bytes)) : List (YamuxHeader × Bytes) :=
  frames.filter fun f => f.1.type = YamuxType.ping.value ∨ f.1.type = YamuxType.goAway.value

theorem controls_append (frames more : List (YamuxHeader × Bytes)) :
    controls (frames ++ more) = controls frames ++ controls more := List.filter_append ..

/-- Whether an id is one of the other role. -/
def remoteId (isClient : Bool) (sid : StreamId) : Bool :=
  if sid = 0 then false else if isClient then sid % 2 = 0 else sid % 2 = 1

/-- The ping or go-away that answers a frame. -/
def answerTo (isClient : Bool) (f : YamuxHeader × Bytes) : Option (YamuxHeader × Bytes) :=
  if f.1.version ≠ yamuxVersion then none
  else if f.1.type = YamuxType.ping.value then
    if hasFlag f.1.flags .ack then none
    else some (header .ping YamuxFlag.ack.value 0 f.1.length, [])
  else if f.1.type = YamuxType.goAway.value then none
  else if ¬(f.1.type = YamuxType.data.value ∨ f.1.type = YamuxType.windowUpdate.value) ∨
      f.1.streamId = 0 then none
  else if hasFlag f.1.flags .syn && !remoteId isClient f.1.streamId then
    some (header .goAway 0 0 YamuxGoAwayCode.protocolError.value, [])
  else none

/-- A frame for a stream is answered by no ping or go-away. -/
theorem answerTo_of_forStream {s : YamuxSession} {hdr : YamuxHeader} (payload : Bytes)
    (hfor : ForStream s hdr) : answerTo s.isClient (hdr, payload) = none := by
  obtain ⟨hversion, hkind, hid, hremote⟩ := hfor
  have hping : hdr.type ≠ YamuxType.ping.value := by
    rcases hkind with hkind | hkind <;> rw [hkind] <;> decide
  have hlocal : ¬(hasFlag hdr.flags .syn && !remoteId s.isClient hdr.streamId) = true := by
    cases hsyn : hasFlag hdr.flags .syn with
    | false => simp
    | true =>
      have hother : remoteId s.isClient hdr.streamId = true := hremote hsyn
      simp [hother]
  unfold answerTo
  dsimp only
  rw [if_neg (not_not.mpr hversion), if_neg hping]
  split_ifs
  · rfl
  · rfl
  · rfl

section Calls

variable {E : Type} (o : Owner E) (h : Host (E × Record))

/-- Frames without data that grant nothing, with the pings and go-aways among them. -/
def Plain (h h' : Host (E × Record)) (answers : List (YamuxHeader × Bytes)) : Prop :=
  ∃ frames accepted, Speaks h h' frames accepted ∧ (∀ f ∈ frames, PlainFrame f) ∧
    controls frames = answers

theorem Plain.silent {h h' : Host (E × Record)} (hspeaks : Speaks h h' [] []) : Plain h h' [] :=
  ⟨[], [], hspeaks, nofun, rfl⟩

theorem plainFrame_data (flags : UInt16) (sid : StreamId) :
    PlainFrame (header .data flags sid 0, []) :=
  ⟨rfl, by show YamuxType.data.value ≠ YamuxType.windowUpdate.value; decide⟩

theorem Plain.data {h h' : Host (E × Record)} {flags : UInt16} {sid : StreamId}
    {accepted : List (ℕ × StreamId)}
    (hspeaks : Speaks h h' [(header .data flags sid 0, [])] accepted) : Plain h h' [] :=
  ⟨_, _, hspeaks, List.forall_mem_singleton.mpr (plainFrame_data flags sid), rfl⟩

theorem data_sized (flags : UInt16) (sid : StreamId) : Sized (header .data flags sid 0, []) :=
  header_sized .data flags sid 0 fun _ => rfl

theorem openStream_plain : Plain h (Yamux.openStream o.callbacks h).2 [] := by
  unfold openStream
  rw [Op.bind_apply, Op.get_apply]
  dsimp only
  split_ifs
  · exact .silent (.silent rfl rfl)
  · cases hs : h.1.streams h.1.nextStreamId with
    | some stream =>
      simp only [getOrCreateStream, hs]
      exact .data ((runOutgoing_bind_silent o stream _).after (.frame (data_sized _ _) rfl rfl))
    | none =>
      simp only [getOrCreateStream, hs, if_true]
      exact .data ((runOutgoing_bind_silent o h.1.allocated _).after (.frame (data_sized _ _) rfl rfl))

theorem closeWrite_plain (stream : ℕ) : Plain h (Yamux.closeWrite o.callbacks stream h).2 [] := by
  unfold closeWrite
  rw [Op.bind_apply, Op.get_apply]
  dsimp only
  split_ifs
  · exact .silent (.silent rfl rfl)
  · unfold closeStreamWrite
    refine ⟨[(_, [])], [], (runOutgoing_silent o _).after ?_, List.forall_mem_singleton.mpr
      (plainFrame_data YamuxFlag.fin.value (h.1.heap stream).id), rfl⟩
    have hentry : (h.1.setStream stream YamuxStream.closeLocalWrite).streams = h.1.streams := rfl
    cases hs : h.1.streams (h.1.heap stream).id with
    | none =>
      simp only [hentry, writeFrame, hs]
      exact .frame (data_sized _ _) rfl rfl
    | some stream' =>
      simp only [hentry, writeFrame, hs]
      exact .frame (data_sized _ _) rfl rfl

theorem reset_plain (stream : ℕ) : Plain h (Yamux.reset o.callbacks stream h).2 [] :=
  .data ((runOutgoing_silent o _).after (.frame (data_sized YamuxFlag.rst.value _) rfl rfl))

theorem handleFrame_other_plain (hdr : YamuxHeader) (payload : Bytes) (hother : ¬ForStream h.1 hdr) :
    Plain h (handleFrame o.callbacks hdr payload h)
      (answerTo h.1.isClient (hdr, payload)).toList := by
  rw [handleFrame_eq]
  unfold answerTo
  dsimp only
  split_ifs with hversion hping hack hgo hkind hlocal hlocal' hlocal'
  · exact .silent (.silent rfl rfl)
  · exact .silent (.silent rfl rfl)
  · have hsized := header_sized .ping YamuxFlag.ack.value 0 hdr.length fun hdata => by cases hdata
    exact ⟨_, _, sendFrame_speaks o hsized h, List.forall_mem_singleton.mpr
      ⟨rfl, by show YamuxType.ping.value ≠ YamuxType.windowUpdate.value; decide⟩, rfl⟩
  · exact .silent (.silent rfl rfl)
  · exact .silent (.silent rfl rfl)
  · have hsized := header_sized .goAway 0 0 (YamuxGoAwayCode.protocolError.value)
      fun hdata => by cases hdata
    exact ⟨_, _, sendFrame_speaks o hsized h, List.forall_mem_singleton.mpr
      ⟨rfl, by show YamuxType.goAway.value ≠ YamuxType.windowUpdate.value; decide⟩, rfl⟩
  · exact absurd hlocal hlocal'
  · exact absurd hlocal' hlocal
  · refine absurd ⟨not_not.mp hversion, ?_, ?_, fun hsyn => ?_⟩ hother
    · exact not_not.mp fun h => hkind (.inl h)
    · exact fun h => hkind (.inr h)
    · simpa [hsyn] using hlocal

theorem handleFrame_plain (hdr : YamuxHeader) (payload : Bytes) :
    Plain h (handleFrame o.callbacks hdr payload h)
      (answerTo h.1.isClient (hdr, payload)).toList := by
  by_cases hfor : ForStream h.1 hdr
  · rw [answerTo_of_forStream payload hfor]
    cases hs : h.1.streams hdr.streamId with
    | some stream =>
      rw [handleFrame_held_eq o.callbacks hdr payload h hfor hs]
      exact .silent (applyFrame_silent o h hdr payload stream)
    | none =>
      cases hsyn : hasFlag hdr.flags .syn with
      | false =>
        rw [handleFrame_unknown_eq o.callbacks hdr payload h hfor hs hsyn]
        exact .silent (.silent rfl rfl)
      | true =>
        rw [handleFrame_new_eq o.callbacks hdr payload h hfor hs hsyn]
        have hspeaks := (applyFrame_silent o _ hdr payload h.1.allocated).after
          (acceptStream_speaks o (h.1.createStream hdr.streamId, h.2) h.1.allocated hdr.streamId)
        exact .data ⟨hspeaks.sized, hspeaks.written, hspeaks.accepted⟩
  · exact handleFrame_other_plain o h hdr payload hfor

/-- The id of the stream and the number of bytes, for a `try_read` that returned. -/
def readBy (sid : StreamId) : Result Bytes → List (StreamId × ℕ)
  | .ok out => [(sid, out.length)]
  | .error _ => []

/-- What a call read. -/
def readsOf (o : Owner E) (h : Host (E × Record)) : Call → List (StreamId × ℕ)
  | .on (.tryRead stream size) =>
    readBy (h.1.heap stream).id (Yamux.tryRead o.callbacks stream size h).1
  | _ => []

/-- The bytes read under `sid`. A window update holds the length of a read in 32 bits. -/
def readBytes (sid : StreamId) (reads : List (StreamId × ℕ)) : ℕ :=
  (reads.map fun r => if r.1 = sid then r.2 % 2 ^ 32 else 0).sum

theorem readBytes_append (sid : StreamId) (reads more : List (StreamId × ℕ)) :
    readBytes sid (reads ++ more) = readBytes sid reads + readBytes sid more := by
  unfold readBytes
  rw [List.map_append, List.sum_append]

/-- A read grants the bytes it returned. -/
theorem tryRead_meters (stream size : ℕ) : ∃ frames,
    Speaks h (Yamux.tryRead o.callbacks stream size h).2 frames [] ∧ (∀ f ∈ frames, f.2 = []) ∧
      controls frames = [] ∧ ∀ sid, creditBytes sid frames =
        readBytes sid (readBy (h.1.heap stream).id (Yamux.tryRead o.callbacks stream size h).1) := by
  unfold tryRead
  rw [Op.bind_apply, Op.get_apply]
  dsimp only
  split_ifs
  · exact ⟨[], .silent rfl rfl, nofun, rfl, fun sid => by simp [creditBytes, readBytes, readBy]⟩
  · exact ⟨[], .silent rfl rfl, nofun, rfl, fun sid => by simp [creditBytes, readBytes, readBy]⟩
  · show ∃ frames, Speaks h (updateReceiveWindow o.callbacks _ _ _).2 frames [] ∧ _ ∧ _ ∧ ∀ sid,
      creditBytes sid frames = readBytes sid [((h.1.heap stream).id, ((h.1.heap stream).recvBuf.take
        size).length)]
    unfold updateReceiveWindow
    split_ifs with hzero
    · exact ⟨[], .silent rfl rfl, nofun, rfl, fun sid => by simp [creditBytes, readBytes, hzero]⟩
    · have hsized := header_sized .windowUpdate 0 (h.1.heap stream).id
        (UInt32.ofNat ((h.1.heap stream).recvBuf.take size).length) fun hdata => by cases hdata
      refine ⟨[(_, [])], (runOutgoing_silent o _).after (.frame hsized rfl rfl),
        List.forall_mem_singleton.mpr rfl, rfl, fun sid => ?_⟩
      unfold creditBytes readBytes
      rw [List.map_singleton, List.map_singleton, List.sum_singleton, List.sum_singleton]
      simp only [header, true_and, UInt32.toNat_ofNat']

/-- A write takes from the window of its stream the bytes that it frames. -/
theorem tryWrite_meters (stream : ℕ) (data : Bytes) : ∃ frames,
    Speaks h (Yamux.tryWrite o.callbacks stream data h).2 frames [] ∧ controls frames = [] ∧ ∀ sid,
      dataBytes sid frames + (Yamux.tryWrite o.callbacks stream data h).2.1.books.windowAt sid =
        h.1.books.windowAt sid ∧ creditBytes sid frames = 0 := by
  have hnothing : ∀ sid, dataBytes sid [] + h.1.books.windowAt sid = h.1.books.windowAt sid ∧
      creditBytes sid [] = 0 := fun sid => ⟨Nat.zero_add _, rfl⟩
  unfold tryWrite
  rw [Op.bind_apply, Op.get_apply]
  dsimp only
  split_ifs
  · exact ⟨[], .silent rfl rfl, rfl, hnothing⟩
  · unfold writeStreamData
    rw [Op.bind_apply, Op.get_apply]
    dsimp only
    cases hwindow : h.1.sendWindows (h.1.heap stream).id with
    | none => exact ⟨[], .silent rfl rfl, rfl, hnothing⟩
    | some window =>
      dsimp only
      split_ifs
      · exact ⟨[], .silent rfl rfl, rfl, hnothing⟩
      · have hlt := window.toNat_lt
        have hlen : (data.take (min data.length window.toNat)).length =
            min data.length window.toNat := by
          rw [List.length_take]
          omega
        have hwritable : (UInt32.ofNat (min data.length window.toNat)).toNat =
            min data.length window.toNat := by
          rw [UInt32.toNat_ofNat']
          omega
        have hdata : Sized (header .data 0 (h.1.heap stream).id
            (UInt32.ofNat (min data.length window.toNat)),
            data.take (min data.length window.toNat)) := by
          unfold Sized YamuxHeader.payloadSize header
          simp only [hlen, if_true, hwritable]
        refine ⟨[_], (runOutgoing_bind_silent o _ _).after (.frame hdata rfl rfl), rfl, fun sid => ?_⟩
        refine ⟨?_, by simp [creditBytes, header, YamuxType.value]⟩
        refine (congrArg (_ + Books.windowAt · sid) (runOutgoing_bind_books o.callbacks _ _)).trans ?_
        have hle : UInt32.ofNat (min data.length window.toNat) ≤ window := by
          rw [UInt32.le_iff_toNat_le, hwritable]
          omega
        have hdebit := Books.windowAt_debit (b := h.1.books) hwindow hle sid
        rw [hwritable] at hdebit
        unfold dataBytes
        rw [List.map_singleton, List.sum_singleton]
        show (if (h.1.heap stream).id = sid then _ else 0) + _ = _
        rw [hlen]
        exact hdebit

/-- What one call writes: no more data than its windows lose and the peer grants, the grants for
    the bytes that it read, and the answer to the frame that it heard. -/
theorem act_meters (call : Call) : ∃ frames accepted,
    Speaks h (Ledger.act o h call) frames accepted ∧
      controls frames = (heardFrames h.1 call).filterMap (answerTo h.1.isClient) ∧
      ∀ sid,
        dataBytes sid frames + (Ledger.act o h call).1.books.windowAt sid ≤ h.1.books.windowAt sid +
          (initialStreamWindow.toNat *
            (bornIds h.1 (Ledger.act o h call).1.books).count sid +
              creditBytes sid (heardFrames h.1 call)) ∧
        creditBytes sid frames = readBytes sid (readsOf o h call) := by
  have hchange := Ledger.act_books o h call
  -- all calls but `try_read` and `try_write`
  have hplain : ∀ answers, Plain h (Ledger.act o h call) answers →
      (∀ stream data, call ≠ .on (.tryWrite stream data)) → readsOf o h call = [] →
      answers = (heardFrames h.1 call).filterMap (answerTo h.1.isClient) → ∃ frames accepted,
        Speaks h (Ledger.act o h call) frames accepted ∧
          controls frames = (heardFrames h.1 call).filterMap (answerTo h.1.isClient) ∧ ∀ sid,
            dataBytes sid frames + (Ledger.act o h call).1.books.windowAt sid ≤
              h.1.books.windowAt sid + (initialStreamWindow.toNat *
                (bornIds h.1 (Ledger.act o h call).1.books).count sid +
                  creditBytes sid (heardFrames h.1 call)) ∧
            creditBytes sid frames = readBytes sid (readsOf o h call) := by
    rintro answers ⟨frames, accepted, hspeaks, hframes, hcontrols⟩ hwrite hreads hanswers
    refine ⟨frames, accepted, hspeaks, hcontrols.trans hanswers, fun sid => ⟨?_, ?_⟩⟩
    · rw [dataBytes_of_empty (fun f hf => (hframes f hf).1) sid, Nat.zero_add]
      exact change_windows hchange hwrite sid
    · rw [creditBytes_of_plain hframes sid, hreads]
      rfl
  rcases call with ⟨a⟩ | _
  rotate_left
  · exact hplain [] (.silent (.silent (List.append_nil _) rfl)) (fun _ _ => nofun) rfl rfl
  cases a with
  | arrive data => exact hplain [] (.silent (.silent rfl rfl)) (fun _ _ => nofun) rfl rfl
  | openStream => exact hplain [] (openStream_plain o h) (fun _ _ => nofun) rfl rfl
  | closeWrite stream => exact hplain [] (closeWrite_plain o h stream) (fun _ _ => nofun) rfl rfl
  | reset stream => exact hplain [] (reset_plain o h stream) (fun _ _ => nofun) rfl rfl
  | frame =>
    cases hparse : tryParseFrame h.1.recvBuf with
    | none =>
      have hstay : Ledger.act o h (.on .frame) = h := by
        unfold Ledger.act Watch.act
        rw [hparse]
      have hheard : heardFrames h.1 (.on .frame) = [] := by
        unfold heardFrames
        rw [hparse]
        rfl
      refine hplain [] ?_ (fun _ _ => nofun) rfl (by rw [hheard]; rfl)
      rw [hstay]
      exact .silent (.silent rfl rfl)
    | some frame =>
      obtain ⟨hdr, payload, rest⟩ := frame
      have hact : Ledger.act o h (.on .frame) = rebuffer rest (handleFrame o.callbacks hdr payload h) :=
        act_frame o.callbacks hparse
      have hheard : heardFrames h.1 (.on .frame) = [(hdr, payload)] := by
        unfold heardFrames
        rw [hparse]
        rfl
      have hanswers : (answerTo h.1.isClient (hdr, payload)).toList =
          (heardFrames h.1 (.on .frame)).filterMap (answerTo h.1.isClient) := by
        rw [hheard]
        cases hanswer : answerTo h.1.isClient (hdr, payload) <;> simp [hanswer]
      obtain ⟨frames, accepted, hspeaks, hframes⟩ := handleFrame_plain o h hdr payload
      refine hplain _ ?_ (fun _ _ => nofun) rfl hanswers
      rw [hact]
      exact ⟨frames, accepted, ⟨hspeaks.sized, hspeaks.written, hspeaks.accepted⟩, hframes⟩
  | tryRead stream size =>
    obtain ⟨frames, hspeaks, hframes, hcontrols, hcredit⟩ := tryRead_meters o h stream size
    refine ⟨frames, [], hspeaks, hcontrols, fun sid => ⟨?_, hcredit sid⟩⟩
    rw [dataBytes_of_empty hframes sid, Nat.zero_add]
    exact change_windows hchange (fun _ _ => nofun) sid
  | tryWrite stream data =>
    obtain ⟨frames, hspeaks, hcontrols, hmeters⟩ := tryWrite_meters o h stream data
    refine ⟨frames, [], hspeaks, hcontrols, fun sid => ⟨?_, (hmeters sid).2⟩⟩
    exact (hmeters sid).1.le.trans (Nat.le_add_right _ _)

end Calls

/-! ## Whole runs -/

/-- The frames written so far, and then those of one call. -/
theorem Speaks.extend {E : Type} {h h' : Host (E × Record)}
    {before frames : List (YamuxHeader × Bytes)} {accepted : List (ℕ × StreamId)}
    (hspeaks : Speaks h h' frames accepted) (hsized : ∀ f ∈ before, Sized f)
    (hwritten : Yamux.written h = encodeFrames before) :
    (∀ f ∈ before ++ frames, Sized f) ∧ Yamux.written h' = encodeFrames (before ++ frames) := by
  constructor
  · intro f hf
    exact (List.mem_append.mp hf).elim (hsized f) (hspeaks.sized f)
  · rw [hspeaks.written, hwritten]
    exact List.flatMap_append.symm

/-- A session, the ids of the streams it made, the frames it took off its receive buffer, and
    the reads of its users. -/
structure Meter (E : Type) where
  host : Host (E × Record)
  born : List StreamId := []
  heard : List (YamuxHeader × Bytes) := []
  reads : List (StreamId × ℕ) := []

namespace Meter

variable {E : Type} (o : Owner E)

/-- A call, with the streams it makes, the frames it hears and the bytes it reads. -/
def step (m : Meter E) (call : Call) : Meter E where
  host := Ledger.act o m.host call
  born := m.born ++ bornIds m.host.1 (Ledger.act o m.host call).1.books
  heard := m.heard ++ heardFrames m.host.1 call
  reads := m.reads ++ readsOf o m.host call

/-- The data written under an id and the window that is left are not more than the peer granted:
    the initial window of each stream with the id, and its window updates. The window
    updates written are for the bytes that were read. -/
def Balanced (m : Meter E) : Prop :=
  ∃ frames, (∀ f ∈ frames, Sized f) ∧ written m.host = encodeFrames frames ∧ ∀ sid,
    dataBytes sid frames + m.host.1.books.windowAt sid ≤
      initialStreamWindow.toNat * m.born.count sid + creditBytes sid m.heard ∧
    creditBytes sid frames = readBytes sid m.reads

variable {o}

theorem Balanced.step {m : Meter E} (h : m.Balanced) (call : Call) : (m.step o call).Balanced := by
  obtain ⟨before, hsized, hwritten, hbefore⟩ := h
  obtain ⟨frames, accepted, hspeaks, -, hcall⟩ := act_meters o m.host call
  obtain ⟨hsized', hwritten'⟩ := hspeaks.extend hsized hwritten
  refine ⟨before ++ frames, hsized', hwritten', fun sid => ?_⟩
  obtain ⟨hdata, hcredit⟩ := hbefore sid
  obtain ⟨hmore, hread⟩ := hcall sid
  rw [dataBytes_append, creditBytes_append]
  show _ + (Ledger.act o m.host call).1.books.windowAt sid ≤
      _ * (m.born ++ bornIds m.host.1 (Ledger.act o m.host call).1.books).count sid +
        creditBytes sid (m.heard ++ heardFrames m.host.1 call) ∧
    _ = readBytes sid (m.reads ++ readsOf o m.host call)
  rw [List.count_append, creditBytes_append, readBytes_append, Nat.mul_add]
  omega

/-- The pings and go-aways written are the answers to the frames heard, in order. -/
def Answered (m : Meter E) : Prop :=
  ∃ frames, (∀ f ∈ frames, Sized f) ∧ written m.host = encodeFrames frames ∧
    controls frames = m.heard.filterMap (answerTo m.host.1.isClient)

theorem Answered.step {m : Meter E} (h : m.Answered) (call : Call) : (m.step o call).Answered := by
  obtain ⟨before, hsized, hwritten, hbefore⟩ := h
  obtain ⟨frames, accepted, hspeaks, hcall, -⟩ := act_meters o m.host call
  have hclient : (Ledger.act o m.host call).1.isClient = m.host.1.isClient :=
    Ledger.change_isClient (Ledger.act_books o m.host call)
  obtain ⟨hsized', hwritten'⟩ := hspeaks.extend hsized hwritten
  refine ⟨before ++ frames, hsized', hwritten', ?_⟩
  show _ = (m.heard ++ heardFrames m.host.1 call).filterMap
    (answerTo (Ledger.act o m.host call).1.isClient)
  rw [hclient, controls_append, List.filterMap_append, hbefore, hcall]

end Meter

/-- Flow control, in every run, against any peer: the data written under a stream id, with the
    window that is left, is at most what the peer granted, and the credit written under it is
    what was read. -/
theorem grants_respected {E : Type} (o : Owner E) (connId : ConnectionId) (isClient : Bool) (env : E)
    (calls : List Call) :
    Runs.States (Meter.step o) Meter.Balanced
      ({ host := (.make connId isClient, env, {}) } : Meter E) calls := by
  have hfirst : ({ host := (.make connId isClient, env, {}) } : Meter E).Balanced :=
    ⟨[], nofun, rfl, fun sid => ⟨Nat.le_refl _, rfl⟩⟩
  exact Runs.Steps.invariant (C := fun _ _ => True) (fun m call h _ => h.step call) hfirst
    (Runs.Steps.of_mem fun _ _ _ => trivial)

/-- In every run, against any peer, each ping without ACK is answered once, in order and with its
    own value, each SYN on an id of the local role by a go-away with a protocol error, and the
    session writes no other ping or go-away. -/
theorem pings_answered {E : Type} (o : Owner E) (connId : ConnectionId) (isClient : Bool) (env : E)
    (calls : List Call) :
    Runs.States (Meter.step o) Meter.Answered
      ({ host := (.make connId isClient, env, {}) } : Meter E) calls := by
  have hfirst : ({ host := (.make connId isClient, env, {}) } : Meter E).Answered :=
    ⟨[], nofun, rfl, rfl⟩
  exact Runs.Steps.invariant (C := fun _ _ => True) (fun m call h _ => h.step call) hfirst
    (Runs.Steps.of_mem fun _ _ _ => trivial)

end PeerCore.Yamux
