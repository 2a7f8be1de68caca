import PeerCore.Types
import PeerCore.Lib.Radix
import PeerCore.Lib.Nearest

/-!
# The routing table

Model of `routing_table.cpp`: a flat list of peers and the `closest_peers`
query, a sort by XOR distance cut off at `k`.

* `run_known`: after any history the list holds, without repetition, the peers
  inserted and not removed since, the local one excepted.
* `lexLt_iff`: the byte order in which `closest_peers` compares two distances
  is the order of the 256-bit numbers they denote.
* `closest_peers_nearest`: the answer is the list of the `k` nearest known
  peers, whatever history made them known.
-/

namespace PeerCore

open Radix

/-! ## Model -/

/-- `RoutingTable`. The bucket size `k_` is never read. -/
structure RoutingTable where
  localId : PeerId
  peers : List PeerId := []

namespace RoutingTable

/-- `RoutingTable::insert` (`routing_table.cpp:11-17`). -/
def insert (t : RoutingTable) (peer : PeerId) : RoutingTable :=
  if peer = t.localId then t
  else if t.peers.any fun p => p = peer then t
  else { t with peers := t.peers ++ [peer] }

/-- `RoutingTable::remove` (`routing_table.cpp:19-21`). -/
def remove (t : RoutingTable) (peer : PeerId) : RoutingTable :=
  { t with peers := t.peers.filter fun p => p ≠ peer }

/-- `xor_dist`. -/
def xorDist (a b : PeerId) : Bytes32 := List.Vector.zipWith (· ^^^ ·) a.bytes b.bytes

/-- `operator<` of two `std::array<uint8_t, n>`. -/
def lexLt : Bytes → Bytes → Bool
  | [], [] => false
  | [], _ :: _ => true
  | _ :: _, [] => false
  | a :: as, b :: bs => if a < b then true else if b < a then false else lexLt as bs

/-- The comparison `closest_peers` sorts by. -/
def closer (target a b : PeerId) : Bool :=
  lexLt (xorDist a target).toList (xorDist b target).toList

/-- `RoutingTable::closest_peers` (`routing_table.cpp:23-38`). -/
def closestPeers (t : RoutingTable) (target : PeerId) (k : ℕ) : List PeerId :=
  let sorted := Nearest.sortBy (closer target) t.peers
  if sorted.length > k then sorted.take k else sorted

/-- A call that changes the table. -/
inductive Call where
  | insert (peer : PeerId)
  | remove (peer : PeerId)
  deriving DecidableEq

/-- One call. -/
def call (t : RoutingTable) : Call → RoutingTable
  | .insert peer => t.insert peer
  | .remove peer => t.remove peer

/-- A table made for `localId`, after `calls`. -/
def run (localId : PeerId) (calls : List Call) : RoutingTable :=
  calls.foldl call { localId }

/-! ## What a history makes known -/

/-- `peer` was inserted and not removed since. -/
def Standing (calls : List Call) (peer : PeerId) : Prop :=
  ∃ before after, calls = before ++ .insert peer :: after ∧ .remove peer ∉ after

/-- The peers known to the table of `localId`. -/
def known (localId : PeerId) (calls : List Call) : Set PeerId :=
  {peer | peer ≠ localId ∧ Standing calls peer}

variable {calls : List Call} {p q localId target : PeerId}

theorem standing_insert_self : Standing (calls ++ [.insert p]) p :=
  ⟨calls, [], rfl, by simp⟩

theorem Standing.concat (h : Standing calls p) {c : Call} (hc : c ≠ .remove p) :
    Standing (calls ++ [c]) p := by
  obtain ⟨before, after, rfl, hafter⟩ := h
  refine ⟨before, after ++ [c], by simp, ?_⟩
  intro hmem
  rcases List.mem_append.mp hmem with hmem | hmem
  · exact hafter hmem
  · exact hc (List.mem_singleton.mp hmem).symm

theorem Standing.of_concat {c : Call} (h : Standing (calls ++ [c]) p) :
    c = .insert p ∨ Standing calls p ∧ c ≠ .remove p := by
  obtain ⟨before, after, heq, hafter⟩ := h
  rcases List.eq_nil_or_concat after with rfl | ⟨after, c', rfl⟩
  · exact .inl (List.append_inj_right' heq rfl |> List.singleton_inj.mp)
  · rw [List.concat_eq_append, ← List.cons_append, ← List.append_assoc] at heq
    obtain ⟨hcalls, hc⟩ := List.append_inj' heq rfl
    obtain rfl := List.singleton_inj.mp hc
    rw [List.concat_eq_append, List.mem_append, not_or] at hafter
    refine .inr ⟨⟨before, after, hcalls, hafter.1⟩, ?_⟩
    intro hremove
    exact hafter.2 (by simp [hremove])

theorem standing_insert_iff : Standing (calls ++ [.insert q]) p ↔ Standing calls p ∨ p = q := by
  constructor
  · intro h
    rcases h.of_concat with heq | ⟨hstanding, -⟩
    · exact .inr (Call.insert.inj heq).symm
    · exact .inl hstanding
  · rintro (h | rfl)
    · exact h.concat (by simp)
    · exact standing_insert_self

theorem standing_remove_iff : Standing (calls ++ [.remove q]) p ↔ Standing calls p ∧ p ≠ q := by
  constructor
  · intro h
    rcases h.of_concat with heq | ⟨hstanding, hne⟩
    · simp at heq
    · exact ⟨hstanding, fun hpq => hne (hpq ▸ rfl)⟩
  · rintro ⟨h, hne⟩
    exact h.concat fun heq => hne (Call.remove.inj heq).symm

/-! ## The invariant of the list -/

/-- The list holds each peer of `S` once. -/
structure Holds (t : RoutingTable) (localId : PeerId) (S : Set PeerId) : Prop where
  owner : t.localId = localId
  nodup : t.peers.Nodup
  mem : ∀ p, p ∈ t.peers ↔ p ∈ S

theorem Holds.insert {t : RoutingTable} (h : Holds t localId (known localId calls)) :
    Holds (t.insert q) localId (known localId (calls ++ [.insert q])) := by
  have hknown : ∀ p, p ∈ known localId (calls ++ [.insert q]) ↔
      p ∈ known localId calls ∨ p ≠ localId ∧ p = q := by
    intro p
    simp only [known, Set.mem_ofPred_eq, standing_insert_iff]
    tauto
  unfold RoutingTable.insert
  split_ifs with hself hany
  · refine ⟨h.owner, h.nodup, fun p => ?_⟩
    rw [h.mem, hknown]
    refine ⟨.inl, fun hor => hor.resolve_right ?_⟩
    rintro ⟨hne, rfl⟩
    exact hne (hself.trans h.owner)
  · have hq : q ∈ known localId calls := by
      rw [← h.mem]
      simpa using hany
    refine ⟨h.owner, h.nodup, fun p => ?_⟩
    rw [h.mem, hknown]
    refine ⟨.inl, fun hor => hor.elim id ?_⟩
    rintro ⟨-, rfl⟩
    exact hq
  · have hq : q ∉ t.peers := by simpa using hany
    refine ⟨h.owner, ?_, fun p => ?_⟩
    · show (t.peers ++ [q]).Nodup
      rw [List.nodup_append]
      refine ⟨h.nodup, List.nodup_singleton q, ?_⟩
      rintro a ha b hb rfl
      exact hq (List.mem_singleton.mp hb ▸ ha)
    · show p ∈ t.peers ++ [q] ↔ _
      rw [List.mem_append, List.mem_singleton, h.mem, hknown]
      have hne : q ≠ localId := h.owner ▸ hself
      constructor
      · rintro (hp | rfl)
        · exact .inl hp
        · exact .inr ⟨hne, rfl⟩
      · rintro (hp | ⟨-, rfl⟩)
        · exact .inl hp
        · exact .inr rfl

theorem Holds.remove {t : RoutingTable} (h : Holds t localId (known localId calls)) :
    Holds (t.remove q) localId (known localId (calls ++ [.remove q])) := by
  refine ⟨h.owner, h.nodup.filter _, fun p => ?_⟩
  show p ∈ t.peers.filter (fun p => p ≠ q) ↔ _
  rw [List.mem_filter, h.mem]
  simp only [known, Set.mem_ofPred_eq, standing_remove_iff, decide_eq_true_eq]
  tauto

theorem run_known (localId : PeerId) (calls : List Call) :
    Holds (run localId calls) localId (known localId calls) := by
  induction calls using List.reverseRecOn with
  | nil =>
    refine ⟨rfl, List.nodup_nil, fun p => ?_⟩
    simp [run, known, Standing]
  | append_singleton calls c ih =>
    rw [run, List.foldl_concat]
    cases c with
    | insert q => exact ih.insert
    | remove q => exact ih.remove

/-! ## Distances -/

/-- The big-endian value of `p XOR target`. -/
def distance (target p : PeerId) : ℕ := value 256 (octets (xorDist p target).toList)

/-- Byte order is the order of the numbers. -/
theorem lexLt_iff (as bs : Bytes) (hlen : as.length = bs.length) :
    lexLt as bs = true ↔ value 256 (octets as) < value 256 (octets bs) := by
  induction as generalizing bs with
  | nil =>
    obtain rfl := List.length_eq_zero_iff.mp hlen.symm
    simp [lexLt]
  | cons a as ih =>
    cases bs with
    | nil => simp at hlen
    | cons b bs =>
      have hlen' : as.length = bs.length := by simpa using hlen
      rw [lexLt, octets_cons, octets_cons,
        value_cons_lt_iff (by omega) (by simpa using hlen') (octets_lt as) (octets_lt bs),
        ← UInt8.lt_iff_toNat_lt, UInt8.toNat_inj]
      split_ifs with hab hba
      · simp [hab]
      · have hne : a ≠ b := fun heq => UInt8.lt_irrefl b (heq ▸ hba)
        simp [hab, hne]
      · have heq : a = b := UInt8.le_antisymm (UInt8.not_lt.mp hba) (UInt8.not_lt.mp hab)
        rw [ih bs hlen']
        simp [heq]

theorem closer_iff (target a b : PeerId) :
    closer target a b = true ↔ distance target a < distance target b := by
  apply lexLt_iff
  rw [List.Vector.toList_length, List.Vector.toList_length]

/-- Two peers are never at the same distance. -/
theorem distance_injective (target : PeerId) : (distance target).Injective := by
  intro a b h
  have hlen : (octets (xorDist a target).toList).length =
      (octets (xorDist b target).toList).length := by
    simp
  have hoctets := value_inj (by omega) hlen (octets_lt _) (octets_lt _) h
  have hlist : (xorDist a target).toList = (xorDist b target).toList := by
    rw [← ofNat_octets (xorDist a target).toList, hoctets, ofNat_octets]
  have hxor : xorDist a target = xorDist b target := List.Vector.toList_injective hlist
  have hbytes : a.bytes = b.bytes := by
    apply List.Vector.ext
    intro i
    have hi := congrArg (fun v => v.get i) hxor
    simp only [xorDist, List.Vector.zipWith_get, UInt8.xor_left_inj] at hi
    exact hi
  cases a
  cases b
  exact congrArg PeerId.mk hbytes

/-! ## The query -/

theorem closestPeers_eq (t : RoutingTable) (target : PeerId) (k : ℕ) :
    closestPeers t target k = (Nearest.sortBy (closer target) t.peers).take k := by
  unfold closestPeers
  dsimp only
  split_ifs with hk
  · rfl
  · exact (List.take_of_length_le (not_lt.mp hk)).symm

theorem closestPeers_nearest (localId : PeerId) (calls : List Call) (target : PeerId) (k : ℕ) :
    Nearest (distance target) (known localId calls) k
      (closestPeers (run localId calls) target k) := by
  have h := run_known localId calls
  rw [closestPeers_eq]
  exact Nearest.nearest_sortBy (closer_iff target) (distance_injective target) h.nodup h.mem k

theorem known_finite (localId : PeerId) (calls : List Call) : (known localId calls).Finite := by
  have h := run_known localId calls
  apply (run localId calls).peers.finite_toSet.subset
  intro p hp
  exact (h.mem p).mpr hp

/-- `closest_peers` after any history: the `k` known peers nearest to the
    target, nearest first. Any other history that leaves the same peers known
    gives the same answer. -/
theorem closest_known_peers (localId : PeerId) (calls : List Call) (target : PeerId) (k : ℕ) :
    (known localId calls).Finite ∧
      (closestPeers (run localId calls) target k).length = min k (known localId calls).ncard ∧
      (closestPeers (run localId calls) target k).Nodup ∧
      (∀ p ∈ closestPeers (run localId calls) target k, p ∈ known localId calls) ∧
      localId ∉ closestPeers (run localId calls) target k ∧
      (closestPeers (run localId calls) target k).Pairwise
        (fun a b => distance target a < distance target b) ∧
      (∀ p ∈ known localId calls, p ∉ closestPeers (run localId calls) target k →
        ∀ q ∈ closestPeers (run localId calls) target k, distance target q < distance target p) ∧
      ∀ (localId' : PeerId) (calls' : List Call), known localId' calls' = known localId calls →
        closestPeers (run localId' calls') target k = closestPeers (run localId calls) target k := by
  have h := closestPeers_nearest localId calls target k
  refine ⟨known_finite localId calls, h.length, h.nodup, h.members, ?_, h.ascending, h.closer, ?_⟩
  · intro hmem
    exact (h.members _ hmem).1 rfl
  · intro localId' calls' hknown
    have h' := closestPeers_nearest localId' calls' target k
    rw [hknown] at h'
    exact h'.unique h

/-- Of two peers the query for one returns the nearer one and leaves the other out. -/
theorem closest_known_peers_two :
    distance ⟨copyN 32 []⟩ ⟨copyN 32 [0, 2, 3, 4]⟩ < distance ⟨copyN 32 []⟩ ⟨copyN 32 [1]⟩ := by
  obtain ⟨-, -, -, -, -, -, hcloser, -⟩ := closest_known_peers ⟨copyN 32 []⟩
    [.insert ⟨copyN 32 [1]⟩, .insert ⟨copyN 32 [0, 2, 3, 4]⟩] ⟨copyN 32 []⟩ 1
  refine hcloser _ ?_ (by decide +kernel) _ (by decide +kernel)
  exact ⟨by decide, [], [.insert ⟨copyN 32 [0, 2, 3, 4]⟩], rfl, by decide⟩

end RoutingTable

end PeerCore
