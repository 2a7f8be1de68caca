import PeerCore.Yamux.Books

/-!
# The entries of the stream table

* `Booked`: an entry of the table is a stream of the session with the id it is under.
  Every call keeps it (`Booked.step`).
* `entries_open_iff`: the runs in which no stream in the table is terminal are those in
  which no stream finishes gracefully. The keys of `send_windows_` are those of
  `streams_` in all of them.
* `others_untouched_iff`: the runs in which no call on a handle removes, resets or debits
  the entry of another stream are those that `reset` no handle whose id has become the
  id of another stream.
* `end_of_stream_iff`: the runs in which the end of a stream stays its end are those in
  which no data arrives for a stream whose end was read.
-/

namespace PeerCore.Yamux

open YamuxSession

/-- Every entry is a stream with the id it is under. -/
def Booked (b : Books) : Prop :=
  ∀ sid stream, b.table.streams sid = some stream →
    stream < b.table.allocated ∧ (b.table.heap stream).id = sid

theorem Books.set_heap (b : Books) (stream other : ℕ) (f : YamuxStream → YamuxStream) :
    (b.set stream f).table.heap other =
      if other = stream then f (b.table.heap stream) else b.table.heap other :=
  Function.update_apply ..

section Table

variable {t : Table} {sid : StreamId} {stream other : ℕ}

theorem Table.set_heap (f : YamuxStream → YamuxStream) :
    (t.set stream f).heap other = if other = stream then f (t.heap stream) else t.heap other :=
  Function.update_apply ..

theorem Table.create_heap (connId : ConnectionId) :
    (t.create connId sid).heap other =
      if other = t.allocated then { id := sid, connId } else t.heap other :=
  Function.update_apply ..

theorem Table.create_streams (connId : ConnectionId) (sid' : StreamId) :
    (t.create connId sid).streams sid' = if sid' = sid then some t.allocated else t.streams sid' :=
  Function.update_apply ..

theorem Table.erase_streams (sid' : StreamId) :
    (t.erase sid).streams sid' = if sid' = sid then none else t.streams sid' :=
  Function.update_apply ..

end Table

theorem afterFrame_keeps (hdr : YamuxHeader) (payload : Bytes) (st : YamuxStream) :
    (st.afterFrame hdr payload).id = st.id ∧
      (st.reset = true → (st.afterFrame hdr payload).reset = true) ∧
      (st.writeClosed = true → (st.afterFrame hdr payload).writeClosed = true) := by
  unfold YamuxStream.afterFrame YamuxStream.afterFin
  split_ifs
  · exact ⟨rfl, fun _ => rfl, fun _ => rfl⟩
  · exact ⟨rfl, fun _ => rfl, fun _ => rfl⟩
  · exact ⟨rfl, id, id⟩
  · exact ⟨rfl, id, id⟩

section Books

variable {b : Books}

/-- One stream changes, and no entry is new. -/
theorem Booked.touch (h : Booked b) (stream : ℕ) {b' : Books} {f : YamuxStream → YamuxStream}
    (hf : ∀ st, (f st).id = st.id) (hheap : b'.table.heap = (b.table.set stream f).heap)
    (halloc : b'.table.allocated = b.table.allocated)
    (hstreams : ∀ sid other, b'.table.streams sid = some other → b.table.streams sid = some other) :
    Booked b' := by
  intro sid other hother
  obtain ⟨hlt, hid⟩ := h sid other (hstreams sid other hother)
  refine ⟨halloc ▸ hlt, ?_⟩
  rw [hheap, Table.set_heap]
  split_ifs with hsame
  · subst hsame
    rw [hf, hid]
  · exact hid

theorem Booked.of_table (h : Booked b) {b' : Books} (htable : b'.table = b.table) : Booked b' := by
  unfold Booked
  rw [htable]
  exact h

theorem Booked.create (h : Booked b) (connId : ConnectionId) (sid : StreamId) :
    Booked (b.create connId sid) := by
  intro sid' other hother
  change (b.table.create connId sid).streams sid' = some other at hother
  show other < b.table.allocated + 1 ∧ ((b.table.create connId sid).heap other).id = sid'
  rw [Table.create_streams] at hother
  rw [Table.create_heap]
  split_ifs at hother with hsid
  · obtain rfl := Option.some.inj hother
    exact ⟨Nat.lt_succ_self _, by rw [if_pos rfl, hsid]⟩
  · obtain ⟨hlt, hid⟩ := h sid' other hother
    exact ⟨Nat.lt_succ_of_lt hlt, by rw [if_neg (by omega), hid]⟩

theorem Booked.closeWrite (h : Booked b) (stream : ℕ) :
    Booked { b with table := b.table.closeWrite stream } := by
  intro sid other hother
  obtain ⟨hlt, hid⟩ := h sid other hother
  refine ⟨hlt, ?_⟩
  show (if _ then _ else _ : YamuxStream).id = sid
  split_ifs
  · exact hid
  · exact hid

theorem Booked.afterFrame (h : Booked b) (hdr : YamuxHeader) (payload : Bytes) (stream : ℕ) :
    Booked (b.afterFrame hdr payload stream) := by
  refine h.touch stream (f := (·.afterFrame hdr payload)) (fun st => (afterFrame_keeps hdr payload st).1) ?_ ?_ ?_
  · rw [Books.afterFrame_table, Table.afterFrame_heap]
    rfl
  · rw [Books.afterFrame_table, Table.afterFrame_allocated]
  · rw [Books.afterFrame_table]
    exact fun _ _ hother => (Table.afterFrame_streams hother).1

theorem Booked.change {s : YamuxSession} {call : Call} (h : Booked s.books) (hchange : Change s call b) :
    Booked b := by
  cases hchange with
  | drain | arrive | openRefused | writeNothing | closedAlready | noFrame => exact h
  | openReused => exact h.of_table rfl
  | openNew => exact (h.create _ _).of_table rfl
  | tryRead stream size => exact h.touch stream (by intro; rfl) rfl rfl fun _ _ h => h
  | write => exact h.of_table rfl
  | closeWrite stream => exact h.closeWrite stream
  | reset stream =>
    refine h.touch stream (f := YamuxStream.receiveRst) (by intro; rfl) rfl rfl ?_
    intro sid other hother
    change ((s.table.set stream _).erase _).streams sid = some other at hother
    rw [Table.erase_streams] at hother
    split_ifs at hother
    exact hother
  | frame hdr payload rest stream => exact h.afterFrame hdr payload stream
  | frameNew hdr payload rest => exact (h.create _ _).afterFrame hdr payload _

end Books

theorem Booked.step {E : Type} {cb : Callbacks E} {h : Host E} (hbooked : Booked h.1.books) (call : Call) :
    Booked (call.step cb h).1.books :=
  hbooked.change (step_books cb h call)

theorem make_booked (connId : ConnectionId) (isClient : Bool) :
    Booked (YamuxSession.make connId isClient).books := by
  intro sid stream h
  cases h

/-! ## The keys of the two maps -/

/-- `streams_` and `send_windows_` have the same keys. -/
def Paired (b : Books) : Prop := ∀ sid, (b.windows sid).isSome = (b.table.streams sid).isSome

section Paired

variable {b : Books}

theorem Paired.set (h : Paired b) (stream : ℕ) (f : YamuxStream → YamuxStream) : Paired (b.set stream f) := h

theorem Paired.update {w : Option UInt32} {e : Option ℕ} (h : Paired b) (sid : StreamId)
    (hkey : w.isSome = e.isSome) (sid' : StreamId) :
    (Function.update b.windows sid w sid').isSome = (Function.update b.table.streams sid e sid').isSome := by
  by_cases hsid : sid' = sid
  · subst hsid
    rw [Function.update_self, Function.update_self, hkey]
  · rw [Function.update_of_ne hsid, Function.update_of_ne hsid]
    exact h sid'

theorem Paired.create (h : Paired b) (connId : ConnectionId) (sid : StreamId) :
    Paired (b.create connId sid) := h.update sid rfl

theorem Paired.erase (h : Paired b) (sid : StreamId) : Paired (b.erase sid) := h.update sid rfl

/-- A window changes that the map has. -/
theorem Paired.debit (h : Paired b) {sid : StreamId} {window : UInt32} (hwindow : b.windows sid = some window)
    (next : UInt32) : Paired { b with windows := Function.update b.windows sid (some next) } := by
  intro sid'
  show (Function.update b.windows sid (some next) sid').isSome = (b.table.streams sid').isSome
  rw [← h sid']
  by_cases hsid : sid' = sid
  · subst hsid
    rw [Function.update_self, hwindow]
    rfl
  · rw [Function.update_of_ne hsid]

theorem Paired.credit (h : Paired b) (sid : StreamId) (delta : UInt32) : Paired (b.credit sid delta) := by
  unfold Books.credit
  cases hwindow : b.windows sid with
  | none => exact h
  | some window => exact h.debit hwindow _

theorem Paired.afterFrame (h : Paired b) (hdr : YamuxHeader) (payload : Bytes) (stream : ℕ) :
    Paired (b.afterFrame hdr payload stream) := by
  have hcredit := h.credit hdr.streamId hdr.length
  unfold Books.afterFrame
  dsimp only
  split_ifs
  · exact (hcredit.set stream _).erase hdr.streamId
  · exact (h.set stream _).erase hdr.streamId
  · exact hcredit.set stream _
  · exact h.set stream _

theorem Paired.change {s : YamuxSession} {call : Call} (h : Paired s.books) (hchange : Change s call b) :
    Paired b := by
  cases hchange with
  | drain | arrive | openRefused | openReused | writeNothing | closedAlready | noFrame => exact h
  | openNew => exact h.create _ _
  | tryRead stream size => exact h.set stream _
  | write stream data window n hclosed hreset hwindow => exact h.debit hwindow _
  | closeWrite stream => exact h
  | reset stream => exact (h.set stream _).erase _
  | frame hdr payload rest stream => exact h.afterFrame hdr payload stream
  | frameNew hdr payload rest => exact (h.create _ _).afterFrame hdr payload _

end Paired

/-! ## Streams that finish -/

/-- No entry is a terminal stream. -/
def Live (b : Books) : Prop :=
  ∀ sid stream, b.table.streams sid = some stream → (b.table.heap stream).isOpen = true

/-- The two maps have the same keys, and no entry is a terminal stream. -/
def Tidy (b : Books) : Prop := Paired b ∧ Live b

/-- A stream of the table closes in the direction that was still open, or its last bytes
    are read. -/
def Call.Graceful (s : YamuxSession) : Call → Prop
  | .on .frame => ∃ f ∈ tryParseFrame s.recvBuf, ForStream s f.1 ∧ hasFlag f.1.flags .rst = false ∧
      ∃ stream ∈ s.streams f.1.streamId, Watch.FinCloses f.1 f.2.1 (s.heap stream)
  | .on (.tryRead stream size) =>
    let st := s.heap stream
    s.streams st.id = some stream ∧ st.readClosed = true ∧ st.writeClosed = true ∧ st.recvBuf ≠ [] ∧
      st.recvBuf.length ≤ size
  | .on (.closeWrite stream) => (s.heap stream).writeClosed = false ∧
      ∃ other ∈ s.streams (s.heap stream).id,
        (s.heap other).readClosed = true ∧ (s.heap other).recvBuf = []
  | .on (.arrive _) | .on .openStream | .on (.tryWrite _ _) | .on (.reset _) | .drainOutgoing => False

section Live

variable {b : Books}

theorem YamuxStream.isOpen_iff (st : YamuxStream) : st.isOpen = true ↔
    st.reset = false ∧ ¬ (st.readClosed = true ∧ st.writeClosed = true ∧ st.recvBuf = []) := by
  rw [← Bool.not_eq_false, YamuxStream.isOpen_eq_false_iff, not_or, Bool.not_eq_true]

/-- A frame without RST ends an open stream only by a FIN that closes it. -/
theorem afterFrame_open {hdr : YamuxHeader} {payload : Bytes} {st : YamuxStream} (hopen : st.isOpen = true)
    (hrst : hasFlag hdr.flags .rst = false) :
    (st.afterFrame hdr payload).isOpen = true ↔ ¬ Watch.FinCloses hdr payload st := by
  rw [YamuxStream.isOpen_iff] at hopen ⊢
  unfold YamuxStream.afterFrame YamuxStream.afterFin Watch.FinCloses
  cases hfin : hasFlag hdr.flags .fin
  · simp only [hrst, Bool.false_eq_true, if_false, false_and, not_false_eq_true, iff_true]
    refine ⟨hopen.1, fun hclosed => hopen.2 ⟨hclosed.1, hclosed.2.1, ?_⟩⟩
    exact (List.append_eq_nil_iff.mp hclosed.2.2).1
  · simp only [hrst, Bool.false_eq_true, if_false, if_true, true_and]
    simp [YamuxStream.receiveFin, YamuxStream.receiveData, hopen.1]

theorem Live.create (h : Live b) (hbooked : Booked b) (connId : ConnectionId) (sid : StreamId) :
    Live (b.create connId sid) := by
  intro sid' stream hstream
  change (b.table.create connId sid).streams sid' = some stream at hstream
  show ((b.table.create connId sid).heap stream).isOpen = true
  rw [Table.create_streams] at hstream
  rw [Table.create_heap]
  split_ifs at hstream with hsid
  · rw [if_pos (Option.some.inj hstream).symm]
    rfl
  · rw [if_neg (hbooked sid' stream hstream).1.ne]
    exact h sid' stream hstream

theorem Live.afterFrame (h : Live b) (hbooked : Booked b) {hdr : YamuxHeader} {payload : Bytes} {stream : ℕ}
    (hs : b.table.streams hdr.streamId = some stream)
    (hfin : hasFlag hdr.flags .rst = false → ¬ Watch.FinCloses hdr payload (b.table.heap stream)) :
    Live (b.afterFrame hdr payload stream) := by
  intro sid other hother
  rw [Books.afterFrame_table] at hother ⊢
  obtain ⟨hbefore, hrst⟩ := Table.afterFrame_streams hother
  rw [Table.afterFrame_heap]
  by_cases hsame : other = stream
  · subst hsame
    have hsid : sid = hdr.streamId :=
      (hbooked sid other hbefore).2.symm.trans (hbooked hdr.streamId other hs).2
    have hflag : hasFlag hdr.flags .rst = false := Bool.eq_false_iff.mpr fun hflag => hrst hflag hsid
    rw [Function.update_self, afterFrame_open (h sid other hbefore) hflag]
    exact hfin hflag
  · rw [Function.update_of_ne hsame]
    exact h sid other hbefore

/-- A call that finishes no stream gracefully leaves no terminal stream in the table. -/
theorem Live.change {s : YamuxSession} {call : Call} (h : Live s.books) (hbooked : Booked s.books)
    (hchange : Change s call b) (hgood : ¬ call.Graceful s) : Live b := by
  cases hchange with
  | drain | arrive | openRefused | openReused | writeNothing | write | closedAlready | noFrame => exact h
  | openNew => exact h.create hbooked _ _
  | tryRead stream size =>
    intro sid other hother
    have hopen := h sid other hother
    rw [Books.set_heap]
    split_ifs with hsame
    · subst hsame
      rw [YamuxStream.isOpen_iff] at hopen ⊢
      refine ⟨hopen.1, fun ⟨hread, hwrite, hempty⟩ => hgood ⟨?_, hread, hwrite, ?_, ?_⟩⟩
      · have hid := (hbooked sid other hother).2
        exact (congrArg s.streams hid).trans hother
      · exact fun hnil => hopen.2 ⟨hread, hwrite, hnil⟩
      · exact List.drop_eq_nil_iff.mp hempty
    · exact hopen
  | closeWrite stream hwrite =>
    intro sid other hother
    have hopen := h sid other hother
    have hid := (hbooked sid other hother).2
    show (if other = stream ∨ s.streams (s.heap stream).id = some other
      then (s.heap other).closeLocalWrite else s.heap other).isOpen = true
    split_ifs with hcloses
    · have hentry : s.streams (s.heap stream).id = some other := by
        rcases hcloses with rfl | hentry
        · exact (congrArg s.streams hid).trans hother
        · exact hentry
      rw [YamuxStream.isOpen_iff] at hopen ⊢
      exact ⟨hopen.1, fun ⟨hread, _, hempty⟩ => hgood ⟨hwrite, other, hentry, hread, hempty⟩⟩
    · exact hopen
  | reset stream =>
    intro sid other hother
    change ((s.table.set stream _).erase _).streams sid = some other at hother
    rw [Table.erase_streams] at hother
    split_ifs at hother with hsid
    show ((s.table.set stream YamuxStream.receiveRst).heap other).isOpen = true
    rw [Table.set_heap, if_neg]
    · exact h sid other hother
    · rintro rfl
      exact hsid (hbooked sid other hother).2.symm
  | frame hdr payload rest stream hparse hfor hs =>
    refine h.afterFrame hbooked hs fun hrst hfin => ?_
    exact hgood ⟨(hdr, payload, rest), hparse, hfor, hrst, stream, hs, hfin⟩
  | frameNew hdr payload rest hparse hfor hsyn hs =>
    refine (h.create hbooked _ _).afterFrame (hbooked.create _ _) ?_ fun _ hfin => ?_
    · exact Function.update_self ..
    · have hnew : (s.books.create s.connId hdr.streamId).table.heap s.allocated =
        { id := hdr.streamId, connId := s.connId } := Function.update_self ..
      rw [hnew] at hfin
      exact absurd hfin.2.1 Bool.false_ne_true

/-- A stream that finishes gracefully stays in the table. -/
theorem Live.graceful {s : YamuxSession} {call : Call} (h : Live s.books) (hchange : Change s call b)
    (hgraceful : call.Graceful s) : ¬ Live b := by
  intro hlive
  cases hchange with
  | drain | arrive | openRefused | openReused | openNew | writeNothing | write | reset => exact hgraceful
  | tryRead stream size =>
    obtain ⟨hentry, hread, hwrite, -, hlen⟩ := hgraceful
    have hopen := hlive _ stream hentry
    rw [Books.set_heap, if_pos rfl, YamuxStream.isOpen_iff] at hopen
    exact hopen.2 ⟨hread, hwrite, List.drop_eq_nil_iff.mpr hlen⟩
  | closedAlready stream hclosed => exact absurd (hgraceful.1.symm.trans hclosed) Bool.false_ne_true
  | closeWrite stream =>
    obtain ⟨-, other, hentry, hread, hempty⟩ := hgraceful
    have hopen : (if other = stream ∨ s.streams (s.heap stream).id = some other
        then (s.heap other).closeLocalWrite else s.heap other).isOpen = true := hlive _ other hentry
    rw [if_pos (.inr hentry), YamuxStream.isOpen_iff] at hopen
    exact hopen.2 ⟨hread, rfl, hempty⟩
  | noFrame hnone =>
    obtain ⟨f, hf, hfor, -, stream, hs, -⟩ := hgraceful
    rw [hnone f hf hfor] at hs
    cases hs
  | frame hdr payload rest stream hparse hfor hs =>
    obtain ⟨f, hf, -, hrst, stream', hs', hfin⟩ := hgraceful
    obtain rfl : (hdr, payload, rest) = f := Option.some.inj (hparse.symm.trans hf)
    obtain rfl : stream = stream' := Option.some.inj (hs.symm.trans hs')
    have hentry : (s.books.afterFrame hdr payload stream).table.streams hdr.streamId = some stream := by
      rw [Books.afterFrame_table, Table.afterFrame, if_neg (Bool.eq_false_iff.mp hrst)]
      exact hs
    have hopen := hlive _ stream hentry
    rw [Books.afterFrame_table, Table.afterFrame_heap, Function.update_self,
      afterFrame_open (h _ stream hs) hrst] at hopen
    exact hopen hfin
  | frameNew hdr payload rest hparse hfor hsyn hs =>
    obtain ⟨f, hf, -, -, stream', hs', -⟩ := hgraceful
    obtain rfl : (hdr, payload, rest) = f := Option.some.inj (hparse.symm.trans hf)
    rw [hs] at hs'
    cases hs'

end Live

/-- The runs in which the maps have the same keys and no entry is a terminal stream are
    those in which no stream of the table finishes gracefully. -/
theorem entries_open_iff {E : Type} (cb : Callbacks E) (connId : ConnectionId) (isClient : Bool) (env : E)
    (calls : List Call) :
    Runs.Steps (Call.step cb) (fun h call => ¬ call.Graceful h.1) (.make connId isClient, env) calls ↔
      Runs.States (Call.step cb) (fun h => Tidy h.1.books) (.make connId isClient, env) calls := by
  refine Runs.steps_iff_states (I := fun h => Booked h.1.books ∧ Tidy h.1.books) (E := fun _ _ => True)
    (fun _ hinv => hinv.2) ?_ ?_ ?_ ?_
  · rintro h call ⟨hbooked, hpaired, hlive⟩ - hgood
    exact ⟨hbooked.step call, hpaired.change (step_books cb h call),
      hlive.change hbooked (step_books cb h call) hgood⟩
  · rintro h call ⟨-, -, hlive⟩ - htidy hgraceful
    exact hlive.graceful (step_books cb h call) hgraceful htidy.2
  · exact ⟨make_booked connId isClient, fun _ => rfl, fun _ _ hstream => by cases hstream⟩
  · exact Runs.Steps.of_mem fun _ _ _ => trivial

/-- Without that condition the keys are the same still. -/
theorem keys_paired {E : Type} (cb : Callbacks E) (connId : ConnectionId) (isClient : Bool) (env : E)
    (calls : List Call) :
    Runs.States (Call.step cb) (fun h => Paired h.1.books) (.make connId isClient, env) calls :=
  Runs.Steps.invariant (fun h call hpaired _ => hpaired.change (step_books cb h call)) (fun _ => rfl)
    (Runs.Steps.of_mem (C := fun _ _ => True) fun _ _ _ => trivial)

/-- The FIN of the peer and then a local `close_write` leave the entry of the stream. -/
theorem closed_entry_stays : ¬ ∀ calls : List Call,
    Runs.States (Call.step idleCallbacks) (fun h => Tidy h.1.books) (.make 7 true, ()) calls := by
  intro h
  have hlive := (h [.on .openStream, .on (.arrive finOfFirst), .on .frame, .on (.closeWrite 0)]).final.2 1 0
  revert hlive
  decide +kernel

/-! ## Stale handles -/

/-- The handle of a call. -/
def Call.handle : Call → Option ℕ
  | .on (.tryRead stream _) | .on (.tryWrite stream _) | .on (.closeWrite stream) | .on (.reset stream) =>
    some stream
  | .on (.arrive _) | .on .frame | .on .openStream | .drainOutgoing => none

/-- A call on a handle leaves the entries of the other streams, these streams and their
    windows as they are. -/
def Call.Inert {E : Type} (cb : Callbacks E) (h : Host E) (call : Call) : Prop :=
  ∀ stream ∈ call.handle, ∀ sid other, h.1.streams sid = some other → other ≠ stream →
    (call.step cb h).1.streams sid = some other ∧ (call.step cb h).1.heap other = h.1.heap other ∧
      (call.step cb h).1.sendWindows sid = h.1.sendWindows sid

/-- A handle that is reset has the entry of its id, or there is none. -/
def Call.ResetsOwn (s : YamuxSession) : Call → Prop
  | .on (.reset stream) => ∀ other ∈ s.streams (s.heap stream).id, other = stream
  | .on (.arrive _) | .on .frame | .on .openStream | .on (.tryRead _ _) | .on (.tryWrite _ _)
  | .on (.closeWrite _) | .drainOutgoing => True

instance (s : YamuxSession) : ∀ call : Call, Decidable (call.ResetsOwn s)
  | .on (.reset _) => inferInstanceAs (Decidable (∀ _ ∈ _, _))
  | .on (.arrive _) | .on .frame | .on .openStream | .on (.tryRead _ _) | .on (.tryWrite _ _)
  | .on (.closeWrite _) | .drainOutgoing => inferInstanceAs (Decidable True)

/-- A stream that is no entry was reset. -/
def Stale (b : Books) : Prop :=
  ∀ stream < b.table.allocated, b.table.streams (b.table.heap stream).id = some stream ∨
    (b.table.heap stream).reset = true ∧ (b.table.heap stream).writeClosed = true

section Stale

variable {b : Books}

theorem Stale.create (h : Stale b) {sid : StreamId} (hs : b.table.streams sid = none)
    (connId : ConnectionId) : Stale (b.create connId sid) := by
  intro stream hlt
  change stream < b.table.allocated + 1 at hlt
  show (b.table.create connId sid).streams ((b.table.create connId sid).heap stream).id = some stream ∨
    ((b.table.create connId sid).heap stream).reset = true ∧
      ((b.table.create connId sid).heap stream).writeClosed = true
  rw [Table.create_heap]
  split_ifs with hnew
  · left
    rw [hnew, Table.create_streams, if_pos rfl]
  · refine (h stream (by omega)).imp (fun hentry => ?_) id
    rw [Table.create_streams, if_neg]
    · exact hentry
    · intro hid
      rw [hid, hs] at hentry
      cases hentry

/-- One stream changes, keeps its id and is not revived; a stream that loses its entry
    is reset. -/
theorem Stale.touch (h : Stale b) (stream : ℕ) {b' : Books} {f : YamuxStream → YamuxStream}
    (hf : ∀ st, (f st).id = st.id ∧ (st.reset = true → (f st).reset = true) ∧
      (st.writeClosed = true → (f st).writeClosed = true))
    (hheap : b'.table.heap = (b.table.set stream f).heap) (halloc : b'.table.allocated = b.table.allocated)
    (hstreams : ∀ sid other, b.table.streams sid = some other → b'.table.streams sid = some other ∨
      other = stream ∧ ∀ st, (f st).reset = true ∧ (f st).writeClosed = true) : Stale b' := by
  intro other hlt
  rw [halloc] at hlt
  rw [hheap, Table.set_heap]
  split_ifs with hsame
  · subst hsame
    obtain ⟨hid, hreset, hwrite⟩ := hf (b.table.heap other)
    rw [hid]
    rcases h other hlt with hentry | hstale
    · exact (hstreams _ _ hentry).imp_right fun hends => hends.2 _
    · exact .inr ⟨hreset hstale.1, hwrite hstale.2⟩
  · refine (h other hlt).imp_left fun hentry => ?_
    rcases hstreams _ _ hentry with hkept | hends
    · exact hkept
    · exact absurd hends.1 hsame

theorem Stale.afterFrame (h : Stale b) {hdr : YamuxHeader} {payload : Bytes} {stream : ℕ}
    (hs : b.table.streams hdr.streamId = some stream) : Stale (b.afterFrame hdr payload stream) := by
  refine h.touch stream (f := (·.afterFrame hdr payload)) (afterFrame_keeps hdr payload) ?_ ?_ ?_
  · rw [Books.afterFrame_table, Table.afterFrame_heap]
    rfl
  · rw [Books.afterFrame_table, Table.afterFrame_allocated]
  · intro sid other hother
    rw [Books.afterFrame_table, Table.afterFrame]
    split_ifs with hrst
    · by_cases hsid : sid = hdr.streamId
      · subst hsid
        refine .inr ⟨Option.some.inj (hother.symm.trans hs), fun st => ?_⟩
        rw [YamuxStream.afterFrame, if_pos hrst]
        exact ⟨rfl, rfl⟩
      · exact .inl ((Table.erase_streams sid).trans ((if_neg hsid).trans hother))
    · exact .inl hother

theorem Stale.closeWrite {s : YamuxSession} (h : Stale s.books) (stream : ℕ) :
    Stale { s.books with table := s.table.closeWrite stream } := by
  intro other hlt
  show s.streams (if _ then _ else _ : YamuxStream).id = some other ∨
    (if _ then _ else _ : YamuxStream).reset = true ∧ (if _ then _ else _ : YamuxStream).writeClosed = true
  split_ifs
  · exact (h other hlt).imp_right fun hstale => ⟨hstale.1, rfl⟩
  · exact h other hlt

theorem Stale.change {s : YamuxSession} {call : Call} (h : Stale s.books) (hchange : Change s call b)
    (hown : call.ResetsOwn s) : Stale b := by
  cases hchange with
  | drain | arrive | openRefused | openReused | writeNothing | write | closedAlready | noFrame => exact h
  | openNew _ hs => exact h.create hs _
  | tryRead stream size =>
    exact h.touch stream (f := fun st => { st with recvBuf := st.recvBuf.drop size })
      (fun _ => ⟨rfl, id, id⟩) rfl rfl fun _ _ hother => .inl hother
  | closeWrite stream => exact h.closeWrite stream
  | reset stream =>
    refine h.touch stream (f := YamuxStream.receiveRst) (fun _ => ⟨rfl, fun _ => rfl, fun _ => rfl⟩)
      rfl rfl fun sid other hother => ?_
    by_cases hsid : sid = (s.heap stream).id
    · subst hsid
      exact .inr ⟨hown other hother, fun _ => ⟨rfl, rfl⟩⟩
    · exact .inl ((Table.erase_streams sid).trans ((if_neg hsid).trans hother))
  | frame hdr payload rest stream hparse hfor hs => exact h.afterFrame hs
  | frameNew hdr payload rest hparse hfor hsyn hs =>
    exact (h.create hs _).afterFrame (Function.update_self ..)

/-- Where the entry of a stream is under another id, or the stream is reset, a call on it
    reaches no other entry. -/
theorem Stale.inert {E : Type} {cb : Callbacks E} {h : Host E} {call : Call} (hstale : Stale h.1.books)
    (hbooked : Booked h.1.books) (howned : call.Owned h) (hown : call.ResetsOwn h.1) :
    call.Inert cb h := by
  intro stream hhandle sid other hentry hne
  have hchange := step_books cb h call
  have hid : (h.1.heap other).id = sid := (hbooked sid other hentry).2
  generalize hb : (call.step cb h).1.books = b at hchange
  have hstreams : (call.step cb h).1.streams = b.table.streams := by rw [← hb]; rfl
  have hheap : (call.step cb h).1.heap = b.table.heap := by rw [← hb]; rfl
  have hwindows : (call.step cb h).1.sendWindows = b.windows := by rw [← hb]; rfl
  rw [hstreams, hheap, hwindows]
  -- another entry has another id, when the stream is an entry
  have hothers : h.1.streams (h.1.heap stream).id = some stream → sid ≠ (h.1.heap stream).id := by
    rintro hmine rfl
    exact hne (Option.some.inj (hentry.symm.trans hmine))
  cases hchange with
  | drain | arrive | openRefused | openReused | openNew | noFrame | frame | frameNew => cases hhandle
  | writeNothing | closedAlready => exact ⟨hentry, rfl, rfl⟩
  | tryRead stream' size =>
    obtain rfl := Option.some.inj hhandle
    refine ⟨hentry, ?_, rfl⟩
    rw [Books.set_heap, if_neg hne]
    rfl
  | write stream' data window n hclosed hreset =>
    obtain rfl := Option.some.inj hhandle
    have hmine := (hstale stream' howned).resolve_right fun hends =>
      absurd (hreset.symm.trans hends.1) Bool.false_ne_true
    exact ⟨hentry, rfl, Function.update_of_ne (hothers hmine) ..⟩
  | closeWrite stream' hopen =>
    obtain rfl := Option.some.inj hhandle
    have hmine := (hstale stream' howned).resolve_right fun hends =>
      absurd (hopen.symm.trans hends.2) Bool.false_ne_true
    refine ⟨hentry, if_neg ?_, rfl⟩
    rintro (hsame | hother)
    · exact hne hsame
    · exact hne (Option.some.inj (hother.symm.trans hmine))
  | reset stream' =>
    obtain rfl := Option.some.inj hhandle
    have hsid : sid ≠ (h.1.heap stream').id := by
      rintro rfl
      exact hne (hown other hentry)
    refine ⟨(Table.erase_streams sid).trans ((if_neg hsid).trans hentry), ?_, Function.update_of_ne hsid ..⟩
    exact (Table.set_heap _).trans (if_neg hne)

/-- A reset erases the entry of the id, whichever stream that is. -/
theorem Call.Inert.resetsOwn {E : Type} {cb : Callbacks E} {h : Host E} {call : Call}
    (hinert : call.Inert cb h) : call.ResetsOwn h.1 := by
  unfold ResetsOwn
  split
  · rename_i stream
    intro other hentry
    by_contra hne
    obtain ⟨hkept, -⟩ := hinert stream rfl _ other hentry hne
    have hbooks : (step cb h (.on (.reset stream))).1.books = _ := reset_books cb stream h
    have hstreams : (step cb h (.on (.reset stream))).1.streams =
        Function.update h.1.streams (h.1.heap stream).id none :=
      congrArg (fun b : Books => b.table.streams) hbooks
    rw [hstreams, Function.update_self] at hkept
    cases hkept
  all_goals trivial

end Stale

/-- The runs in which no call on a handle touches the entry of another stream are those
    that reset no handle whose id has become the id of another stream. -/
theorem others_untouched_iff {E : Type} (cb : Callbacks E) (connId : ConnectionId) (isClient : Bool) (env : E)
    (calls : List Call)
    (howned : Runs.Steps (Call.step cb) Call.Owned (.make connId isClient, env) calls) :
    Runs.Steps (Call.step cb) (fun h call => call.ResetsOwn h.1) (.make connId isClient, env) calls ↔
      Runs.Steps (Call.step cb) (Call.Inert cb) (.make connId isClient, env) calls := by
  refine Runs.steps_iff_steps (I := fun h => Booked h.1.books ∧ Stale h.1.books) ?_ ?_
    ⟨make_booked connId isClient, fun _ hlt => absurd hlt (Nat.not_lt_zero _)⟩ howned
  · rintro h call ⟨hbooked, hstale⟩ - hown
    exact ⟨hbooked.step call, hstale.change (step_books cb h call) hown⟩
  · rintro h call ⟨hbooked, hstale⟩ henabled
    exact ⟨hstale.inert hbooked henabled, Call.Inert.resetsOwn⟩

/-- The frames of a peer that resets stream 1 and opens another under the same id. -/
def synAgain : Bytes := (Message.syn 1).encode ++ (Message.rst 1).encode ++ (Message.syn 1).encode

theorem others_untouched_iff_second :
    let calls : List Call :=
      [.on (.arrive synAgain), .on .frame, .on .frame, .on .frame, .on (.closeWrite 0), .on (.reset 1)]
    Runs.Steps (Call.step idleCallbacks) (fun h call => call.ResetsOwn h.1) (.make 7 false, ()) calls ↔
      Runs.Steps (Call.step idleCallbacks) (Call.Inert idleCallbacks) (.make 7 false, ()) calls :=
  others_untouched_iff idleCallbacks 7 false () _ (by decide +kernel)

/-- The `reset` of the old handle erases the entry of the new stream. -/
theorem old_handle_erases : ¬ ∀ calls : List Call,
    Runs.Steps (Call.step idleCallbacks) Call.Owned (.make 7 false, ()) calls →
    Runs.Steps (Call.step idleCallbacks) (Call.Inert idleCallbacks) (.make 7 false, ()) calls := by
  intro h
  have hrun := h [.on (.arrive synAgain), .on .frame, .on .frame, .on .frame, .on (.reset 0)]
    (by decide +kernel)
  have hkept := (hrun.2.2.2.2.1 0 rfl 1 1 (by decide +kernel) (by decide)).1
  revert hkept
  decide +kernel

/-! ## The end of a stream -/

/-- A session, and the streams for which a `try_read` into a buffer has returned 0. -/
structure Reading (E : Type) where
  host : Host E
  ended : List ℕ := []

namespace Reading

variable {E : Type} (cb : Callbacks E)

/-- A call; a `try_read` that returns 0 is noted. -/
def step (r : Reading E) (call : Call) : Reading E where
  host := call.step cb r.host
  ended := match call with
    | .on (.tryRead stream size) =>
      match (Yamux.tryRead cb stream size r.host).1 with
      | .ok [] => if 0 < size then stream :: r.ended else r.ended
      | _ => r.ended
    | _ => r.ended

/-- Every further `try_read` of such a stream returns 0. -/
def Final (r : Reading E) : Prop :=
  ∀ stream ∈ r.ended, ∀ size, (Yamux.tryRead cb stream size r.host).1 = .ok []

/-- The next frame has data, and no RST, for a stream whose end was read. -/
def Late (r : Reading E) : Call → Prop
  | .on .frame => ∃ f ∈ tryParseFrame r.host.1.recvBuf, ForStream r.host.1 f.1 ∧
      hasFlag f.1.flags .rst = false ∧ f.2.1 ≠ [] ∧ ∃ stream ∈ r.host.1.streams f.1.streamId, stream ∈ r.ended
  | .on (.arrive _) | .on .openStream | .on (.tryRead _ _) | .on (.tryWrite _ _) | .on (.closeWrite _)
  | .on (.reset _) | .drainOutgoing => False

/-- A stream with nothing to read, now or later. -/
def AtEnd (st : YamuxStream) : Prop := st.recvBuf = [] ∧ (st.readClosed = true ∨ st.reset = true)

variable {cb} {r : Reading E} {call : Call}

theorem tryRead_result (stream size : ℕ) (h : Host E) :
    (Yamux.tryRead cb stream size h).1 =
      if (h.1.heap stream).recvBuf = [] then
        if (h.1.heap stream).readClosed ∨ (h.1.heap stream).reset then .ok [] else .error "EAGAIN"
      else .ok ((h.1.heap stream).recvBuf.take size) := by
  unfold tryRead
  rw [Op.bind_apply, Op.get_apply]
  dsimp only
  split_ifs <;> rfl

theorem tryRead_ended_iff {stream size : ℕ} {h : Host E} (hsize : 0 < size) :
    (Yamux.tryRead cb stream size h).1 = .ok [] ↔ AtEnd (h.1.heap stream) := by
  rw [tryRead_result]
  unfold AtEnd
  split_ifs with hempty hclosed
  · exact ⟨fun _ => ⟨hempty, hclosed⟩, fun _ => rfl⟩
  · exact ⟨fun hres => (by cases hres), fun hend => absurd hend.2 hclosed⟩
  · refine ⟨fun hres => ?_, fun hend => absurd hend.1 hempty⟩
    rcases List.take_eq_nil_iff.mp (Except.ok.inj hres) with hzero | hnil
    · omega
    · exact absurd hnil hempty

theorem AtEnd.result {stream : ℕ} {h : Host E} (hend : AtEnd (h.1.heap stream)) (size : ℕ) :
    (Yamux.tryRead cb stream size h).1 = .ok [] := by
  rw [tryRead_result, if_pos hend.1, if_pos hend.2]

theorem mem_ended {stream : ℕ} (hended : stream ∈ (step cb r call).ended) :
    stream ∈ r.ended ∨ AtEnd (r.host.1.heap stream) ∧ ∃ size, call = .on (.tryRead stream size) := by
  unfold step at hended
  dsimp only at hended
  split at hended
  · rename_i stream' size
    split at hended
    · rename_i hres
      split_ifs at hended with hsize
      · rcases List.mem_cons.mp hended with rfl | hold
        · exact .inr ⟨(tryRead_ended_iff hsize).mp hres, size, rfl⟩
        · exact .inl hold
      · exact .inl hended
    · exact .inl hended
  · exact .inl hended

/-- The streams for which 0 was returned are at their end. -/
structure Finished (r : Reading E) : Prop where
  booked : Booked r.host.1.books
  ended : ∀ stream ∈ r.ended, stream < r.host.1.allocated ∧ AtEnd (r.host.1.heap stream)

/-- No byte is appended to a stream at its end but by data for its entry. -/
theorem AtEnd.afterFrame {hdr : YamuxHeader} {payload : Bytes} {st : YamuxStream} (hend : AtEnd st)
    (hdata : hasFlag hdr.flags .rst = false → payload = []) : AtEnd (st.afterFrame hdr payload) := by
  obtain ⟨hempty, hclosed⟩ := hend
  unfold YamuxStream.afterFrame YamuxStream.afterFin
  split_ifs with hrst hfin hfin
  · exact ⟨rfl, .inl rfl⟩
  · exact ⟨rfl, .inl rfl⟩
  · have hnil := hdata (Bool.eq_false_iff.mpr hrst)
    exact ⟨List.append_eq_nil_iff.mpr ⟨hempty, hnil⟩, .inl rfl⟩
  · have hnil := hdata (Bool.eq_false_iff.mpr hrst)
    exact ⟨List.append_eq_nil_iff.mpr ⟨hempty, hnil⟩, hclosed⟩

theorem Finished.change {b : Books} (h : r.Finished) (hchange : Change r.host.1 call b) (hlate : ¬ r.Late call)
    {stream : ℕ} (hended : stream ∈ r.ended) : stream < b.table.allocated ∧ AtEnd (b.table.heap stream) := by
  obtain ⟨hlt, hend⟩ := h.ended stream hended
  have hcreate : ∀ connId sid, AtEnd ((r.host.1.table.create connId sid).heap stream) := by
    intro connId sid
    have hold : (r.host.1.table.create connId sid).heap stream = r.host.1.heap stream :=
      (Table.create_heap connId).trans (if_neg hlt.ne)
    rw [hold]
    exact hend
  cases hchange with
  | drain | arrive | openRefused | openReused | writeNothing | write | closedAlready | noFrame =>
    exact ⟨hlt, hend⟩
  | openNew =>
    refine ⟨Nat.lt_succ_of_lt hlt, ?_⟩
    exact hcreate _ _
  | tryRead stream' size =>
    refine ⟨hlt, ?_⟩
    rw [Books.set_heap]
    split_ifs with hsame
    · subst hsame
      exact ⟨List.drop_eq_nil_iff.mpr (hend.1 ▸ Nat.zero_le size), hend.2⟩
    · exact hend
  | closeWrite stream' =>
    refine ⟨hlt, ?_⟩
    show AtEnd (if _ then _ else _)
    split_ifs
    · exact hend
    · exact hend
  | reset stream' =>
    refine ⟨hlt, ?_⟩
    show AtEnd ((r.host.1.table.set stream' YamuxStream.receiveRst).heap stream)
    rw [Table.set_heap]
    split_ifs
    · exact ⟨rfl, .inl rfl⟩
    · exact hend
  | frame hdr payload rest stream' hparse hfor hs =>
    rw [Books.afterFrame_table, Table.afterFrame_allocated, Table.afterFrame_heap]
    refine ⟨hlt, ?_⟩
    by_cases hsame : stream = stream'
    · subst hsame
      rw [Function.update_self]
      refine hend.afterFrame fun hrst => ?_
      by_contra hdata
      exact hlate ⟨(hdr, payload, rest), hparse, hfor, hrst, hdata, stream, hs, hended⟩
    · rw [Function.update_of_ne hsame]
      exact hend
  | frameNew hdr payload rest =>
    rw [Books.afterFrame_table, Table.afterFrame_allocated, Table.afterFrame_heap,
      Function.update_of_ne hlt.ne]
    refine ⟨Nat.lt_succ_of_lt hlt, ?_⟩
    exact hcreate _ _

theorem step_finished (h : r.Finished) (howned : call.Owned r.host) (hlate : ¬ r.Late call) :
    (step cb r call).Finished := by
  have hchange := step_books cb r.host call
  refine ⟨h.booked.change hchange, fun stream hended => ?_⟩
  rcases mem_ended hended with hold | ⟨hend, size, rfl⟩
  · exact h.change hchange hlate hold
  · -- the read that returned 0 took nothing
    have hkept : Finished { r with ended := [stream] } :=
      ⟨h.booked, fun other hother => by
        obtain rfl := List.mem_singleton.mp hother
        exact ⟨howned, hend⟩⟩
    exact hkept.change hchange id (List.mem_singleton_self stream)

theorem Finished.final (h : r.Finished) : r.Final cb := fun stream hended size => (h.ended stream hended).2.result size

/-- Data for a stream whose end was read can be read. -/
theorem Late.not_final (hlate : r.Late call) : ¬ (step cb r call).Final cb := by
  unfold Late at hlate
  split at hlate
  · obtain ⟨⟨hdr, payload, rest⟩, hparse, hfor, hrst, hdata, stream, hs, hended⟩ := hlate
    intro hfinal
    have hread := hfinal stream hended 1
    rw [tryRead_ended_iff Nat.one_pos] at hread
    have hframe : (step cb r (.on .frame)).host.1.heap =
        (r.host.1.books.afterFrame hdr payload stream).table.heap := by
      show (Watch.act cb .frame r.host).1.heap = _
      rw [act_frame cb hparse, handleFrame_held_eq cb hdr payload r.host hfor hs, ← applyFrame_books cb]
      rfl
    rw [hframe, Books.afterFrame_table, Table.afterFrame_heap, Function.update_self] at hread
    unfold YamuxStream.afterFrame YamuxStream.afterFin at hread
    rw [if_neg (Bool.eq_false_iff.mp hrst)] at hread
    split_ifs at hread
    · exact hdata (List.append_eq_nil_iff.mp hread.1).2
    · exact hdata (List.append_eq_nil_iff.mp hread.1).2
  all_goals exact hlate.elim

end Reading

/-- The runs in which the end of a stream, once read, stays its end are those in which no
    data without RST arrives for an entry whose end was read. -/
theorem end_of_stream_iff {E : Type} (cb : Callbacks E) (connId : ConnectionId) (isClient : Bool) (env : E)
    (calls : List Call)
    (howned : Runs.Steps (Reading.step cb) (fun r call => call.Owned r.host)
      { host := (.make connId isClient, env) } calls) :
    Runs.Steps (Reading.step cb) (fun r call => ¬ r.Late call)
        { host := (.make connId isClient, env) } calls ↔
      Runs.States (Reading.step cb) (Reading.Final cb) { host := (.make connId isClient, env) } calls := by
  refine Runs.steps_iff_states (I := Reading.Finished) (fun _ h => h.final) ?_ ?_ ?_ howned
  · exact fun r call h henabled hgood => Reading.step_finished h henabled hgood
  · exact fun _ _ _ _ hfinal hlate => hlate.not_final hfinal
  · exact ⟨make_booked connId isClient, fun stream hended => by cases hended⟩

/-- The FIN of stream 1, and the data after it. -/
def dataAfterFin : Bytes := finOfFirst ++ (Message.data 1 [7]).encode

theorem end_of_stream_iff_fin :
    let calls : List Call := [.on .openStream, .on (.arrive finOfFirst), .on .frame, .on (.tryRead 0 16)]
    let first : Reading Unit := { host := (.make 7 true, ()) }
    Runs.Steps (Reading.step idleCallbacks) (fun r call => ¬ r.Late call) first calls ↔
      Runs.States (Reading.step idleCallbacks) (Reading.Final idleCallbacks) first calls :=
  end_of_stream_iff idleCallbacks 7 true () _ (by decide +kernel)

theorem data_after_end : ¬ ∀ calls : List Call,
    Runs.Steps (Reading.step idleCallbacks) (fun r call => call.Owned r.host)
      { host := (.make 7 true, ()) } calls →
    Runs.States (Reading.step idleCallbacks) (Reading.Final idleCallbacks)
      { host := (.make 7 true, ()) } calls := by
  intro h
  have hfinal := (h [.on .openStream, .on (.arrive dataAfterFin), .on .frame, .on (.tryRead 0 16), .on .frame]
    (by decide +kernel)).final 0 (by decide +kernel) 1
  rw [Reading.tryRead_ended_iff Nat.one_pos] at hfinal
  have hempty := hfinal.1
  revert hempty
  decide +kernel

end PeerCore.Yamux
