import PeerCore.Yamux.Entries

/-!
# The ids of opened streams

`Opens` is a session with the streams its `open_stream` calls returned. The id of a call
is fixed by its number: `next_stream_id_` is a 32-bit counter advanced by 2.

* `opened_fresh_iff`: the runs in which every stream returned has a fresh id of the local
  role are those in which the counter has not come round to 0 or to an id returned
  before.
-/

namespace PeerCore.Yamux

open YamuxSession

section Open

variable {E : Type} (cb : Callbacks E)

/-- The result of the outgoing callback after a frame is written. -/
def flush (hdr : YamuxHeader) (h : Host E) : Result Unit :=
  match cb.outgoing with
  | none => .ok ()
  | some outgoing => (outgoing (h.1.sendBuf ++ encodeFrame hdr []) h.2).1

theorem sendFrame_bind_result {α : Type} (hdr : YamuxHeader) (a : α) (h : Host E) :
    ((sendFrame cb hdr [] >>= fun _ => (pure a : Op (Host E) α)) h).1 = (flush cb hdr h).map fun _ => a := by
  have hsend : (sendFrame cb hdr [] h).1 = flush cb hdr h := by
    show (runOutgoing cb (h.1.writeFrame hdr [], h.2)).1 = flush cb hdr h
    unfold runOutgoing flush
    cases cb.outgoing <;> rfl
  rw [← hsend, Op.bind_apply]
  rcases sendFrame cb hdr [] h with ⟨_ | _, _⟩ <;> rfl

/-- The result of the outgoing callback for the SYN frame of `open_stream`. -/
def flushed (h : Host E) : Result Unit := flush cb (header .data YamuxFlag.syn.value h.1.nextStreamId 0) h

theorem openStream_result {h : Host E} (hgo : h.1.remoteGoAway = false) :
    (Yamux.openStream cb h).1 =
      (flushed cb h).map fun _ => (h.1.streams h.1.nextStreamId).getD h.1.allocated := by
  unfold openStream
  rw [Op.bind_apply, Op.get_apply]
  cases hs : h.1.streams h.1.nextStreamId with
  | some stream =>
    simp only [hgo, getOrCreateStream, hs]
    exact sendFrame_bind_result cb _ stream _
  | none =>
    simp only [hgo, getOrCreateStream, hs, if_true]
    exact sendFrame_bind_result cb _ h.1.allocated _

/-- A successful `open_stream` returns the stream that the table has for the next id. -/
theorem openStream_ok {h : Host E} {stream : ℕ} :
    (Yamux.openStream cb h).1 = .ok stream ↔ h.1.remoteGoAway = false ∧ flushed cb h = .ok () ∧
      stream = (h.1.streams h.1.nextStreamId).getD h.1.allocated := by
  cases hgo : h.1.remoteGoAway with
  | true =>
    rw [openStream_refused cb hgo]
    exact ⟨fun h => (by cases h), fun h => absurd h.1.symm Bool.false_ne_true⟩
  | false =>
    rw [openStream_result cb hgo]
    cases flushed cb h with
    | error e => exact ⟨fun h => (by cases h), fun h => (by cases h.2.1)⟩
    | ok u => exact ⟨fun h => ⟨rfl, rfl, (Except.ok.inj h).symm⟩, fun h => congrArg Except.ok h.2.2.symm⟩

theorem openStream_id {h : Host E} (hbooked : Booked h.1.books) (hgo : h.1.remoteGoAway = false) :
    ((Yamux.openStream cb h).2.1.heap ((h.1.streams h.1.nextStreamId).getD h.1.allocated)).id =
      h.1.nextStreamId := by
  cases hs : h.1.streams h.1.nextStreamId with
  | some stream =>
    have hheap : (Yamux.openStream cb h).2.1.heap = h.1.heap :=
      congrArg (fun b : Books => b.table.heap) (openStream_reused cb hgo hs)
    rw [hheap]
    exact (hbooked _ _ hs).2
  | none =>
    have hheap : (Yamux.openStream cb h).2.1.heap =
        (h.1.table.create h.1.connId h.1.nextStreamId).heap :=
      congrArg (fun b : Books => b.table.heap) (openStream_new cb hgo hs)
    rw [hheap, Table.create_heap]
    exact congrArg YamuxStream.id (if_pos rfl)

end Open

/-- A session; the number of its `open_stream` calls that got past the check of
    `remote_go_away_`; and the calls among them that succeeded, by their number, with the
    id of the stream returned. -/
structure Opens (E : Type) where
  host : Host E
  taken : ℕ := 0
  opened : List (ℕ × StreamId) := []

namespace Opens

variable {E : Type} (cb : Callbacks E)

/-- A call; an `open_stream` is counted and its id noted. -/
def step (o : Opens E) (call : Call) : Opens E where
  host := call.step cb o.host
  taken := if call = .on .openStream ∧ o.host.1.remoteGoAway = false then o.taken + 1 else o.taken
  opened := match call with
    | .on .openStream =>
      match Yamux.openStream cb o.host with
      | (.ok stream, h) => (o.taken, (h.1.heap stream).id) :: o.opened
      | (.error _, _) => o.opened
    | _ => o.opened

/-- The parity of the ids of a role. -/
def Local (isClient : Bool) (sid : StreamId) : Prop := sid.toNat % 2 = if isClient then 1 else 0

/-- The stream that `open_stream` returns has an id that is not 0, of the local role, and
    new. -/
def Fresh (isClient : Bool) (o : Opens E) : Call → Prop
  | .on .openStream => ∀ stream, (Yamux.openStream cb o.host).1 = .ok stream →
      let sid := ((Yamux.openStream cb o.host).2.1.heap stream).id
      sid ≠ 0 ∧ Local isClient sid ∧ ∀ p ∈ o.opened, p.2 ≠ sid
  | _ => True

/-- A successful `open_stream` is not a multiple of 2^31 calls after another, and at a
    server its own number, from 1 on, is no such multiple. -/
def Unwrapped (isClient : Bool) (o : Opens E) : Call → Prop
  | .on .openStream => o.host.1.remoteGoAway = false → flushed cb o.host = .ok () →
      (isClient = false → (o.taken + 1) % 2 ^ 31 ≠ 0) ∧
        ∀ p ∈ o.opened, p.1 % 2 ^ 31 ≠ o.taken % 2 ^ 31
  | _ => True

/-- The id of the stream of a call. -/
def idOf (isClient : Bool) (number : ℕ) : StreamId :=
  UInt32.ofNat ((if isClient then 1 else 2) + 2 * number)

theorem idOf_succ (isClient : Bool) (number : ℕ) : idOf isClient (number + 1) = idOf isClient number + 2 := by
  apply UInt32.toNat_inj.mp
  rw [UInt32.toNat_add]
  simp only [idOf, UInt32.toNat_ofNat']
  have htwo : (2 : UInt32).toNat = 2 := rfl
  omega

theorem idOf_eq_zero_iff (isClient : Bool) (number : ℕ) :
    idOf isClient number = 0 ↔ isClient = false ∧ (number + 1) % 2 ^ 31 = 0 := by
  rw [← UInt32.toNat_inj]
  simp only [idOf, UInt32.toNat_ofNat', UInt32.toNat_zero]
  cases isClient
  · simp only [Bool.false_eq_true, if_false, true_and]
    omega
  · simp only [if_true, Bool.true_eq_false, false_and, iff_false]
    omega

theorem idOf_inj_iff (isClient : Bool) (m n : ℕ) :
    idOf isClient m = idOf isClient n ↔ m % 2 ^ 31 = n % 2 ^ 31 := by
  rw [← UInt32.toNat_inj]
  simp only [idOf, UInt32.toNat_ofNat']
  cases isClient
  · simp only [Bool.false_eq_true, if_false]
    omega
  · simp only [if_true]
    omega

theorem idOf_local (isClient : Bool) (number : ℕ) : Local isClient (idOf isClient number) := by
  simp only [Local, idOf, UInt32.toNat_ofNat']
  cases isClient
  · simp only [Bool.false_eq_true, if_false]
    omega
  · simp only [if_true]
    omega

/-- The ids returned, and the next one, are those of the numbers of the calls. -/
structure WellNumbered (isClient : Bool) (o : Opens E) : Prop where
  booked : Booked o.host.1.books
  next : o.host.1.nextStreamId = idOf isClient o.taken
  opened : ∀ p ∈ o.opened, p.2 = idOf isClient p.1

variable {cb} {o : Opens E} {isClient : Bool} {call : Call}

theorem WellNumbered.unwrapped_iff (h : o.WellNumbered isClient) : o.Unwrapped cb isClient call ↔ o.Fresh cb isClient call := by
  unfold Unwrapped Fresh
  split
  · have hsid : o.host.1.remoteGoAway = false → ∀ stream,
        stream = (o.host.1.streams o.host.1.nextStreamId).getD o.host.1.allocated →
          ((Yamux.openStream cb o.host).2.1.heap stream).id = idOf isClient o.taken := by
      rintro hgo _ rfl
      rw [openStream_id cb h.booked hgo, h.next]
    have hnew : (∀ p ∈ o.opened, p.2 ≠ idOf isClient o.taken) ↔
        ∀ p ∈ o.opened, p.1 % 2 ^ 31 ≠ o.taken % 2 ^ 31 := by
      refine forall₂_congr fun p hp => ?_
      rw [h.opened p hp, ne_eq, idOf_inj_iff]
    constructor
    · intro hgood stream hok
      obtain ⟨hgo, hflushed, hstream⟩ := (openStream_ok cb).mp hok
      obtain ⟨hzero, hother⟩ := hgood hgo hflushed
      dsimp only
      rw [hsid hgo stream hstream, ne_eq, idOf_eq_zero_iff, not_and]
      exact ⟨hzero, idOf_local isClient o.taken, hnew.mpr hother⟩
    · intro hfresh hgo hflushed
      have hok := hfresh _ ((openStream_ok cb).mpr ⟨hgo, hflushed, rfl⟩)
      dsimp only at hok
      rw [hsid hgo _ rfl, ne_eq, idOf_eq_zero_iff, not_and] at hok
      exact ⟨hok.1, hnew.mp hok.2.2⟩
  · rfl

theorem change_nextStreamId {s : YamuxSession} {b : Books} (hchange : Change s call b) :
    b.nextStreamId =
      if call = .on .openStream ∧ s.remoteGoAway = false then s.nextStreamId + 2 else s.nextStreamId := by
  cases hchange with
  | openRefused hgo => rw [if_neg (by simp [hgo])]; rfl
  | openReused stream hgo => rw [if_pos ⟨rfl, hgo⟩]; rfl
  | openNew hgo => rw [if_pos ⟨rfl, hgo⟩]; rfl
  | frame hdr payload rest stream =>
    rw [if_neg (by simp), (Books.afterFrame_fixed _ hdr payload stream).2]
    rfl
  | frameNew hdr payload rest =>
    rw [if_neg (by simp), (Books.afterFrame_fixed _ hdr payload s.allocated).2]
    rfl
  | drain | arrive | tryRead | writeNothing | write | closedAlready | closeWrite | reset | noFrame =>
    rw [if_neg (by simp)]
    rfl

theorem WellNumbered.step (h : o.WellNumbered isClient) (call : Call) : (step cb o call).WellNumbered isClient := by
  have hchange := step_books cb o.host call
  refine ⟨h.booked.change hchange, ?_, fun p hp => ?_⟩
  · have hnext : (call.step cb o.host).1.nextStreamId = _ := change_nextStreamId hchange
    unfold Opens.step
    dsimp only
    rw [hnext, h.next]
    split_ifs
    · exact (idOf_succ isClient o.taken).symm
    · rfl
  · unfold Opens.step at hp
    dsimp only at hp
    split at hp
    · split at hp
      · rename_i stream h' hopen
        rcases List.mem_cons.mp hp with rfl | hold
        · have hok : (Yamux.openStream cb o.host).1 = .ok stream := by rw [hopen]
          obtain ⟨hgo, -, hstream⟩ := (openStream_ok cb).mp hok
          have hid := openStream_id cb h.booked hgo
          rw [← hstream, hopen, h.next] at hid
          exact hid
        · exact h.opened p hold
      · exact h.opened p hp
    · exact h.opened p hp

end Opens

/-- The runs in which every `open_stream` that succeeds returns a new id of the local role
    are those in which the counter has not come round. -/
theorem opened_fresh_iff {E : Type} (cb : Callbacks E) (connId : ConnectionId) (isClient : Bool) (env : E)
    (calls : List Call) :
    Runs.Steps (Opens.step cb) (Opens.Unwrapped cb isClient) { host := (.make connId isClient, env) } calls ↔
      Runs.Steps (Opens.step cb) (Opens.Fresh cb isClient) { host := (.make connId isClient, env) } calls := by
  refine Runs.steps_iff_steps (I := Opens.WellNumbered isClient) (E := fun _ _ => True) ?_ ?_ ?_ ?_
  · exact fun o call h _ _ => h.step call
  · exact fun o call h _ => h.unwrapped_iff
  · refine ⟨make_booked connId isClient, ?_, fun p hp => by cases hp⟩
    cases isClient <;> rfl
  · exact Runs.Steps.of_mem fun _ _ _ => trivial

/-! ## A server that opens 2^31 streams -/

theorem openStream_remoteGoAway {E : Type} (cb : Callbacks E) (h : Host E) :
    (Yamux.openStream cb h).2.1.remoteGoAway = h.1.remoteGoAway := by
  have hsend : ∀ (hdr : YamuxHeader) (stream : ℕ) (h : Host E),
      ((sendFrame cb hdr [] >>= fun _ => (pure stream : Op (Host E) ℕ)) h).2.1.remoteGoAway =
        h.1.remoteGoAway := by
    intro hdr stream h
    have hout : (sendFrame cb hdr [] h).2.1.remoteGoAway = h.1.remoteGoAway := by
      show (runOutgoing cb (h.1.writeFrame hdr [], h.2)).2.1.remoteGoAway = h.1.remoteGoAway
      unfold runOutgoing
      cases cb.outgoing <;> rfl
    rw [← hout, Op.bind_apply]
    rcases sendFrame cb hdr [] h with ⟨_ | _, _⟩ <;> rfl
  cases hgo : h.1.remoteGoAway with
  | true => rw [openStream_refused cb hgo, hgo]
  | false =>
    unfold openStream
    rw [Op.bind_apply, Op.get_apply]
    cases hs : h.1.streams h.1.nextStreamId with
    | some stream =>
      simp only [hgo, getOrCreateStream, hs]
      exact hsend _ _ _
    | none =>
      simp only [hgo, getOrCreateStream, hs, if_true]
      exact hsend _ _ _

/-- A session that did nothing but open `n` streams. -/
theorem only_opens (connId : ConnectionId) (isClient : Bool) (n : ℕ) :
    let o := Runs.final (Opens.step idleCallbacks) { host := (.make connId isClient, ()) }
      (List.replicate n (.on .openStream))
    o.WellNumbered isClient ∧ o.taken = n ∧ o.host.1.remoteGoAway = false := by
  induction n with
  | zero =>
    refine ⟨⟨make_booked connId isClient, ?_, fun p hp => by cases hp⟩, rfl, rfl⟩
    cases isClient <;> rfl
  | succ n ih =>
    obtain ⟨hinv, htaken, hgo⟩ := ih
    rw [List.replicate_succ', Runs.final_append]
    refine ⟨hinv.step _, ?_, ?_⟩
    · exact (if_pos ⟨rfl, hgo⟩).trans (congrArg (· + 1) htaken)
    · exact (openStream_remoteGoAway idleCallbacks _).trans hgo

/-- The last of 2^31 streams opened by a server has id 0. -/
theorem server_opens_zero : ¬ ∀ calls : List Call,
    Runs.Steps (Opens.step idleCallbacks) (Opens.Fresh idleCallbacks false)
      { host := (.make 7 false, ()) } calls := by
  intro h
  have hid : ∀ n, Opens.idOf false n ≠ 0 := by
    intro n
    obtain ⟨hinv, htaken, hgo⟩ := only_opens 7 false n
    have hfresh := (Runs.Steps.snoc.mp (h (List.replicate n (.on .openStream) ++ [.on .openStream]))).2
    have hsid := (hfresh _ ((openStream_ok idleCallbacks).mpr ⟨hgo, rfl, rfl⟩)).1
    rwa [openStream_id idleCallbacks hinv.booked hgo, hinv.next, htaken] at hsid
  exact hid (2 ^ 31 - 1) ((Opens.idOf_eq_zero_iff false _).mpr ⟨rfl, rfl⟩)

end PeerCore.Yamux
