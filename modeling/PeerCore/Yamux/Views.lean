import PeerCore.Yamux.Ends

/-!
# How the views of an end change

The four kinds of change to the tables of a session: a stream is created, its
object is changed, its window is changed, it is erased. Each keeps `Tables` and
changes the views of that stream only.
-/

namespace PeerCore.Yamux

variable {e e' : End} {sid : StreamId} {stream : ℕ}

/-! ## A stream is created -/

/-- `e'` has a new stream `sid` and is otherwise `e`. -/
structure Creates (e e' : End) (sid : StreamId) : Prop where
  allocated : e'.session.allocated = e.session.allocated + 1
  heap : e'.session.heap =
    Function.update e.session.heap e.session.allocated { id := sid, connId := e.session.connId }
  streams : e'.session.streams =
    Function.update e.session.streams sid (some e.session.allocated)
  sendWindows : e'.session.sendWindows =
    Function.update e.session.sendWindows sid (some initialStreamWindow)
  known : ∀ id, e'.known id ↔ id = sid ∨ e.known id
  wrote : e'.wrote = e.wrote
  read : e'.read = e.read
  closedWrite : e'.closedWrite = e.closedWrite
  didReset : e'.didReset = e.didReset

namespace Creates

theorem heap_of_lt (hc : Creates e e' sid) (hs : stream < e.session.allocated) :
    e'.session.heap stream = e.session.heap stream := by
  rw [hc.heap, Function.update_of_ne (by omega)]

theorem tables (hc : Creates e e' sid) (h : Tables e) (hunknown : ¬ e.known sid) : Tables e' where
  entry := fun id stream hs => by
    rw [hc.streams] at hs
    by_cases hid : id = sid
    · subst hid
      rw [Function.update_self] at hs
      cases hs
      refine ⟨by rw [hc.allocated]; omega, ?_, ?_, ?_⟩
      · simp [End.idOf, hc.heap]
      · simp [hc.heap]
      · exact ⟨_, by rw [hc.sendWindows, Function.update_self]⟩
    · rw [Function.update_of_ne hid] at hs
      obtain ⟨hlt, hidOf, hreset, hwindow⟩ := h.entry id stream hs
      rw [End.idOf, hc.heap_of_lt hlt, hc.sendWindows, Function.update_of_ne hid, hc.allocated]
      exact ⟨by omega, hidOf, hreset, hwindow⟩
  noEntry := fun id hs => by
    rw [hc.streams] at hs
    by_cases hid : id = sid
    · subst hid
      rw [Function.update_self] at hs
      cases hs
    · rw [Function.update_of_ne hid] at hs
      rw [hc.sendWindows, Function.update_of_ne hid]
      exact h.noEntry id hs
  object := fun stream hs => by
    rw [hc.allocated] at hs
    rcases Nat.lt_succ_iff_lt_or_eq.mp hs with hlt | rfl
    · obtain ⟨hknown, hobj⟩ := h.object stream hlt
      have hid : e'.idOf stream = e.idOf stream := by rw [End.idOf, hc.heap_of_lt hlt]; rfl
      have hne : e.idOf stream ≠ sid := fun heq => hunknown (heq ▸ hknown)
      rw [hid, hc.streams, Function.update_of_ne hne, hc.heap_of_lt hlt]
      exact ⟨(hc.known _).mpr (.inr hknown), hobj⟩
    · have hid : e'.idOf e.session.allocated = sid := by simp [End.idOf, hc.heap]
      rw [hid, hc.streams, Function.update_self]
      exact ⟨(hc.known _).mpr (.inl rfl), .inl rfl⟩

theorem dead_iff (hc : Creates e e' sid) (hunknown : ¬ e.known sid) (id : StreamId) :
    (e'.known id ∧ e'.session.streams id = none) = (e.known id ∧ e.session.streams id = none) := by
  rw [hc.streams, propext (hc.known id)]
  by_cases hid : id = sid
  · subst hid
    simp [hunknown]
  · simp [hid]

theorem sender (hc : Creates e e' sid) (h : Tables e) (hunknown : ¬ e.known sid) (id : StreamId) :
    e'.sender id = e.sender id := by
  unfold End.sender
  rw [hc.dead_iff hunknown id, hc.wrote, hc.closedWrite, hc.didReset, hc.streams, hc.sendWindows]
  by_cases hid : id = sid
  · subst hid
    have hnone := h.entry_none hunknown
    simp [hnone, h.noEntry _ hnone, hc.heap, initialStreamWindow]
  · rw [Function.update_of_ne hid, Function.update_of_ne hid]
    cases hs : e.session.streams id with
    | none => rfl
    | some stream => simp only [hc.heap_of_lt (h.entry id stream hs).1]

theorem receiver (hc : Creates e e' sid) (h : Tables e) (hunknown : ¬ e.known sid)
    (id : StreamId) : e'.receiver id = e.receiver id := by
  unfold End.receiver
  rw [hc.dead_iff hunknown id, hc.read, hc.didReset, hc.streams]
  by_cases hid : id = sid
  · subst hid
    simp [h.entry_none hunknown, hc.heap]
  · rw [Function.update_of_ne hid]
    cases hs : e.session.streams id with
    | none => rfl
    | some stream => simp only [hc.heap_of_lt (h.entry id stream hs).1]

end Creates

/-! ## A stream object is changed -/

/-- `e` with the object behind a handle changed. -/
def End.change (e : End) (stream : ℕ) (f : YamuxStream → YamuxStream) : End :=
  { e with session := e.session.setStream stream f }

section Change

variable {f : YamuxStream → YamuxStream}

theorem change_heap_self : (e.change stream f).session.heap stream = f (e.session.heap stream) := by
  simp [End.change, YamuxSession.setStream]

theorem change_heap_ne {stream' : ℕ} (hne : stream' ≠ stream) :
    (e.change stream f).session.heap stream' = e.session.heap stream' := by
  simp [End.change, YamuxSession.setStream, hne]

/-- A change that keeps the id and the reset flag of a live stream. -/
theorem Tables.change (h : Tables e) (hs : e.session.streams sid = some stream)
    (hid : ∀ st, (f st).id = st.id) (hreset : ∀ st, (f st).reset = st.reset) :
    Tables (e.change stream f) where
  entry := fun id stream' hs' => by
    obtain ⟨hlt, hidOf, hr, hwindow⟩ := h.entry id stream' hs'
    refine ⟨hlt, ?_, ?_, hwindow⟩
    all_goals
      by_cases hne : stream' = stream
      · subst hne
        simp only [End.idOf, change_heap_self, hid, hreset]
        assumption
      · simp only [End.idOf, change_heap_ne hne]
        assumption
  noEntry := h.noEntry
  object := fun stream' hlt => by
    by_cases hne : stream' = stream
    · subst hne
      have hidOf : (e.change stream' f).idOf stream' = e.idOf stream' := by
        simp only [End.idOf, change_heap_self, hid]
      rw [hidOf]
      refine ⟨(h.object stream' hlt).1, .inl ?_⟩
      have := (h.entry _ _ hs).2.1
      rw [this]
      exact hs
    · have hidOf : (e.change stream f).idOf stream' = e.idOf stream' := by
        simp only [End.idOf, change_heap_ne hne]
      rw [hidOf, change_heap_ne hne]
      exact h.object stream' hlt

theorem change_sender (h : Tables e) (hs : e.session.streams sid = some stream) (id : StreamId) :
    (e.change stream f).sender id =
      if id = sid then { e.sender sid with writeClosed := (f (e.session.heap stream)).writeClosed }
      else e.sender id := by
  split_ifs with hid
  · subst hid
    have hs' : (e.change stream f).session.streams id = some stream := hs
    unfold End.sender
    simp only [hs, hs', change_heap_self]
    rfl
  · unfold End.sender
    cases hst : e.session.streams id with
    | none =>
      have hst' : (e.change stream f).session.streams id = none := hst
      simp only [hst']
      rfl
    | some stream' =>
      have hst' : (e.change stream f).session.streams id = some stream' := hst
      simp only [hst', change_heap_ne (h.entry_ne hs hst hid)]
      rfl

theorem change_receiver (h : Tables e) (hs : e.session.streams sid = some stream) (id : StreamId) :
    (e.change stream f).receiver id =
      if id = sid then
        { e.receiver sid with
          buf := (f (e.session.heap stream)).recvBuf
          readClosed := (f (e.session.heap stream)).readClosed }
      else e.receiver id := by
  split_ifs with hid
  · subst hid
    have hs' : (e.change stream f).session.streams id = some stream := hs
    unfold End.receiver
    simp only [hs, hs', change_heap_self]
    rfl
  · unfold End.receiver
    cases hst : e.session.streams id with
    | none =>
      have hst' : (e.change stream f).session.streams id = none := hst
      simp only [hst']
      rfl
    | some stream' =>
      have hst' : (e.change stream f).session.streams id = some stream' := hst
      simp only [hst', change_heap_ne (h.entry_ne hs hst hid)]
      rfl

end Change

/-! ## A window is changed -/

/-- `e` with another window for `sid`. -/
def End.setWindow (e : End) (sid : StreamId) (window : UInt32) : End :=
  { e with
    session := { e.session with
      sendWindows := Function.update e.session.sendWindows sid (some window) } }

theorem Tables.setWindow (h : Tables e) (hs : e.session.streams sid = some stream)
    (window : UInt32) : Tables (e.setWindow sid window) where
  entry := fun id stream' hs' => by
    obtain ⟨hlt, hidOf, hr, hwindow⟩ := h.entry id stream' hs'
    refine ⟨hlt, hidOf, hr, ?_⟩
    by_cases hid : id = sid
    · subst hid
      exact ⟨window, by simp [End.setWindow]⟩
    · simpa [End.setWindow, hid] using hwindow
  noEntry := fun id hs' => by
    have hs'' : e.session.streams id = none := hs'
    have hid : id ≠ sid := by
      rintro rfl
      rw [hs] at hs''
      cases hs''
    simpa [End.setWindow, hid] using h.noEntry id hs''
  object := h.object

theorem setWindow_sender (window : UInt32) (id : StreamId) :
    (e.setWindow sid window).sender id =
      if id = sid then { e.sender sid with window := window.toNat } else e.sender id := by
  split_ifs with hid
  · subst hid
    simp [End.sender, End.setWindow, End.known]
  · simp [End.sender, End.setWindow, End.known, hid]

/-! ## A stream is erased -/

/-- `e` with the stream behind a handle reset and erased. -/
def End.erase (e : End) (stream : ℕ) : End :=
  { e with
    session := (e.session.setStream stream YamuxStream.receiveRst).eraseStream (e.idOf stream) }

theorem erase_streams (id : StreamId) :
    (e.erase stream).session.streams id =
      if id = e.idOf stream then none else e.session.streams id := by
  by_cases hid : id = e.idOf stream
  · simp [End.erase, YamuxSession.eraseStream, hid]
  · simp [End.erase, YamuxSession.eraseStream, YamuxSession.setStream, hid]

theorem erase_heap (stream' : ℕ) :
    (e.erase stream).session.heap stream' =
      if stream' = stream then (e.session.heap stream).receiveRst else e.session.heap stream' := by
  by_cases hs : stream' = stream
  · simp [End.erase, YamuxSession.eraseStream, YamuxSession.setStream, hs]
  · simp [End.erase, YamuxSession.eraseStream, YamuxSession.setStream, hs]

theorem erase_idOf (stream' : ℕ) : (e.erase stream).idOf stream' = e.idOf stream' := by
  unfold End.idOf
  rw [erase_heap]
  split_ifs with hs
  · rw [hs]; rfl
  · rfl

theorem Tables.erase (h : Tables e) (hlt : stream < e.session.allocated) :
    Tables (e.erase stream) where
  entry := fun id stream' hs' => by
    rw [erase_streams] at hs'
    split_ifs at hs' with hid
    have hne : stream' ≠ stream := by
      rintro rfl
      exact hid (h.entry _ _ hs').2.1.symm
    obtain ⟨hlt', hidOf, hr, window, hwindow⟩ := h.entry id stream' hs'
    rw [erase_idOf, erase_heap, if_neg hne]
    refine ⟨hlt', hidOf, hr, window, ?_⟩
    simpa [End.erase, YamuxSession.eraseStream, YamuxSession.setStream, hid] using hwindow
  noEntry := fun id hs' => by
    rw [erase_streams] at hs'
    by_cases hid : id = e.idOf stream
    · simp [End.erase, YamuxSession.eraseStream, hid]
    · rw [if_neg hid] at hs'
      simpa [End.erase, YamuxSession.eraseStream, YamuxSession.setStream, hid] using h.noEntry id hs'
  object := fun stream' hlt' => by
    have hlt'' : stream' < e.session.allocated := hlt'
    obtain ⟨hknown, hobj⟩ := h.object stream' hlt''
    rw [erase_idOf, erase_streams, erase_heap]
    refine ⟨hknown, ?_⟩
    by_cases hs : stream' = stream
    · subst hs
      rw [if_pos rfl, if_pos rfl]
      exact .inr ⟨rfl, rfl, rfl, rfl⟩
    · rw [if_neg hs]
      rcases hobj with hobj | ⟨hnone, hdead⟩
      · by_cases hid : e.idOf stream' = e.idOf stream
        · obtain ⟨-, hobj' | ⟨hnone', -⟩⟩ := h.object stream hlt
          · rw [← hid, hobj] at hobj'
            cases hobj'
            exact absurd rfl hs
          · rw [← hid, hobj] at hnone'
            cases hnone'
        · exact .inl (by rw [if_neg hid]; exact hobj)
      · refine .inr ⟨?_, hdead⟩
        split_ifs
        · rfl
        · exact hnone

theorem erase_sender_self (h : Tables e) (hlt : stream < e.session.allocated) :
    ((e.erase stream).sender (e.idOf stream)).dead :=
  ⟨(h.object stream hlt).1, by rw [erase_streams, if_pos rfl]⟩

theorem erase_sender_ne (h : Tables e) (hlt : stream < e.session.allocated) {id : StreamId}
    (hid : id ≠ e.idOf stream) : (e.erase stream).sender id = e.sender id := by
  have hwin : (e.erase stream).session.sendWindows id = e.session.sendWindows id := by
    simp [End.erase, YamuxSession.eraseStream, YamuxSession.setStream, hid]
  have hstr : (e.erase stream).session.streams id = e.session.streams id := by
    rw [erase_streams, if_neg hid]
  unfold End.sender
  simp only [hwin, hstr]
  cases hs : e.session.streams id with
  | none => rfl
  | some stream' =>
    have hne : stream' ≠ stream := by
      rintro rfl
      exact hid (h.entry _ _ hs).2.1.symm
    simp only [erase_heap, if_neg hne]
    rfl

theorem erase_receiver_ne (h : Tables e) {id : StreamId} (hid : id ≠ e.idOf stream) :
    (e.erase stream).receiver id = e.receiver id := by
  have hstr : (e.erase stream).session.streams id = e.session.streams id := by
    rw [erase_streams, if_neg hid]
  unfold End.receiver
  simp only [hstr]
  cases hs : e.session.streams id with
  | none => rfl
  | some stream' =>
    have hne : stream' ≠ stream := by
      rintro rfl
      exact hid (h.entry _ _ hs).2.1.symm
    simp only [erase_heap, if_neg hne]
    rfl

end PeerCore.Yamux
