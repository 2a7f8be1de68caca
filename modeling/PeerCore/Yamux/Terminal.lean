import PeerCore.Yamux.Session

/-!
# Streams that are no longer open

* `YamuxStream.isOpen_eq_false_iff`: the flags of a stream that is no longer open.
* `Fades`: the methods of a stream handle never open a stream again.
* `tryWrite_refused`: such a stream accepts no data.
-/

namespace PeerCore.Yamux

theorem YamuxStream.isOpen_eq_false_iff {s : YamuxStream} :
    s.isOpen = false ↔ s.reset = true ∨ s.readClosed = true ∧ s.writeClosed = true ∧ s.recvBuf = [] := by
  unfold isOpen
  split_ifs with hreset
  · simp [hreset]
  · simp [hreset, and_assoc]

@[simp] theorem YamuxStream.isOpen_receiveRst (s : YamuxStream) : s.receiveRst.isOpen = false := rfl

theorem YamuxStream.isOpen_closeLocalWrite {s : YamuxStream} (h : s.isOpen = false) :
    s.closeLocalWrite.isOpen = false := by
  rw [isOpen_eq_false_iff] at h ⊢
  exact h.imp_right fun ⟨hread, _, hbuf⟩ => ⟨hread, rfl, hbuf⟩

section Fades

variable {E : Type} {α : Type}

/-- Streams that are not open stay so. -/
def Fades (x : Op (Host E) α) : Prop :=
  Op.Preserves (fun h h' => ∀ stream, (h.1.heap stream).isOpen = false →
    (h'.1.heap stream).isOpen = false) x

variable {β : Type} {cb : Callbacks E}

theorem Fades.bind {x : Op (Host E) α} {f : α → Op (Host E) β} (hx : Fades x) (hf : ∀ a, Fades (f a)) :
    Fades (x >>= f) :=
  Op.Preserves.bind (fun _ _ _ h h' stream hs => h' stream (h stream hs)) hx hf

theorem Fades.pure (a : α) : Fades (Pure.pure a : Op (Host E) α) := fun _ _ hs => hs

theorem Fades.fail (e : String) : Fades (Op.fail e : Op (Host E) α) := fun _ _ hs => hs

theorem Fades.get : Fades (Op.get : Op (Host E) (Host E)) := fun _ _ hs => hs

/-- A change that leaves the stream objects alone. -/
theorem Fades.outside {f : Host E → Host E} (hf : ∀ h, (f h).1.heap = h.1.heap) :
    Fades (Op.modify f) := fun h stream hs => by
  change ((f h).1.heap stream).isOpen = false
  rw [hf]
  exact hs

/-- A change of one stream object. -/
theorem Fades.setStream (stream : ℕ) {f : YamuxStream → YamuxStream}
    (hf : ∀ s : YamuxStream, s.isOpen = false → (f s).isOpen = false) :
    Fades (Op.modify fun h : Host E => (h.1.setStream stream f, h.2)) := fun h stream' hs => by
  change (Function.update h.1.heap stream (f (h.1.heap stream)) stream').isOpen = false
  by_cases hsame : stream' = stream
  · subst hsame
    rw [Function.update_self]
    exact hf _ hs
  · rw [Function.update_of_ne hsame]
    exact hs

theorem Fades.runOutgoing : Fades (runOutgoing cb) := fun h stream hs => by
  unfold Yamux.runOutgoing
  cases cb.outgoing <;> exact hs

theorem Fades.sendFrame (hdr : YamuxHeader) (payload : Bytes) : Fades (sendFrame cb hdr payload) :=
  (Fades.outside (by intro; rfl)).bind fun _ => Fades.runOutgoing

theorem tryRead_fades (stream size : ℕ) : Fades (tryRead cb stream size) := by
  refine Fades.get.bind fun h => ?_
  dsimp only
  split_ifs
  · exact Fades.pure _
  · exact Fades.fail _
  · refine (Fades.setStream stream fun s hs => ?_).bind fun _ h => ?_
    · rw [YamuxStream.isOpen_eq_false_iff] at hs ⊢
      exact hs.imp_right fun ⟨hread, hwrite, hbuf⟩ => ⟨hread, hwrite, by simp [hbuf]⟩
    · have hupdate : ∀ sid delta, Fades (updateReceiveWindow cb sid delta) := fun sid delta => by
        unfold updateReceiveWindow
        split_ifs
        · exact Fades.pure _
        · exact Fades.sendFrame _ _
      exact hupdate _ _ h

theorem tryWrite_fades (stream : ℕ) (data : Bytes) : Fades (tryWrite cb stream data) := by
  refine Fades.get.bind fun h => ?_
  dsimp only
  split_ifs
  · exact Fades.fail _
  · refine Fades.get.bind fun h => ?_
    cases h.1.sendWindows _ with
    | none => exact Fades.fail _
    | some window =>
      dsimp only
      split_ifs
      · exact Fades.fail _
      · exact (Fades.outside (by intro; rfl)).bind fun _ => (Fades.outside (by intro; rfl)).bind fun _ =>
          Fades.runOutgoing.bind fun _ => Fades.pure _

theorem closeWrite_fades (stream : ℕ) : Fades (closeWrite cb stream) := by
  refine Fades.get.bind fun h => ?_
  dsimp only
  split_ifs
  · exact Fades.pure _
  · refine (Fades.setStream stream fun s => YamuxStream.isOpen_closeLocalWrite).bind fun _ => ?_
    refine (Fades.outside (by intro; rfl)).bind fun _ => Fades.bind (fun h => ?_) fun _ => Fades.runOutgoing
    rw [Op.modify_apply]
    dsimp only
    cases h.1.streams _ with
    | none => exact fun _ hs => hs
    | some stream' => exact Fades.setStream stream' (fun s => YamuxStream.isOpen_closeLocalWrite) h

theorem reset_fades (stream : ℕ) : Fades (reset cb stream) :=
  Fades.get.bind fun _ => (Fades.setStream stream fun _ _ => rfl).bind fun _ =>
    (Fades.outside (by intro; rfl)).bind fun _ => (Fades.outside (by intro; rfl)).bind fun _ =>
      Fades.runOutgoing

end Fades

/-- A stream that is not open accepts no data. -/
theorem tryWrite_refused {E : Type} (cb : Callbacks E) {stream : ℕ} {h : Host E}
    (hclosed : (h.1.heap stream).isOpen = false) (data : Bytes) :
    tryWrite cb stream data h = (.error "stream is closed for writing", h) := by
  have hshut : (h.1.heap stream).writeClosed = true ∨ (h.1.heap stream).reset = true := by
    rcases YamuxStream.isOpen_eq_false_iff.mp hclosed with hreset | ⟨-, hwrite, -⟩
    · exact .inr hreset
    · exact .inl hwrite
  unfold tryWrite
  rw [Op.bind_apply, Op.get_apply]
  simp only [if_pos hshut, Op.fail_apply]

end PeerCore.Yamux
