import Rill.SessionNonce

/-!
# The path of a data frame

`pick_path` chooses among the paths to a destination that have not expired and have a key. It takes
the healthy ones if there are any, and there is always one to take. A data frame is signed with the
key of its path, or with the key of the destination where it has none.
-/

namespace Rill
namespace MeshData
variable {σ : Type} {d : MeshData σ} {dest : UInt32} {flowHash nowUnix : UInt64} {p : PathEntry}

/-- The path has not expired, and its key is installed. -/
def Open (d : MeshData σ) (nowUnix : UInt64) (p : PathEntry) : Prop :=
  p.expired nowUnix = false ∧ (d.keyPathTable[p.pathId]?).isSome

def Healthy (d : MeshData σ) (p : PathEntry) : Prop := d.missOf p < pathHealthMissLimit

def pathsTo (d : MeshData σ) (dest : UInt32) : List PathEntry := (d.pathTable[dest]?).getD []

theorem mem_livePaths : p ∈ d.livePaths dest nowUnix ↔ p ∈ d.pathsTo dest ∧ d.Open nowUnix p := by
  simp [livePaths, pathsTo, Open]

theorem mem_sortByKey {α : Type} {key : α → UInt32} {l : List α} {a : α} :
    a ∈ sortByKey key l ↔ a ∈ l := (List.perm_insertionSort _ l).mem_iff

/-- The pool has the healthy live paths, or all of them if none is healthy. -/
theorem pathPool_cases (d : MeshData σ) (dest : UInt32) (nowUnix : UInt64) :
    (d.pathPool dest nowUnix ≠ [] ∧
        ∀ p, p ∈ d.pathPool dest nowUnix ↔ p ∈ d.livePaths dest nowUnix ∧ d.Healthy p) ∨
      (∀ p ∈ d.livePaths dest nowUnix, ¬ d.Healthy p) ∧
        ∀ p, p ∈ d.pathPool dest nowUnix ↔ p ∈ d.livePaths dest nowUnix := by
  have hhealthy : ∀ p, p ∈ sortByKey (d.lossOf dest) ((d.livePaths dest nowUnix).filter fun p =>
      d.missOf p < pathHealthMissLimit) ↔ p ∈ d.livePaths dest nowUnix ∧ d.Healthy p := by
    intro p
    rw [mem_sortByKey, List.mem_filter, decide_eq_true_iff]
    rfl
  rw [pathPool]
  split_ifs with hempty
  · refine .inr ⟨fun p hp hgood => ?_, fun p => mem_sortByKey⟩
    have hmem := (hhealthy p).mpr ⟨hp, hgood⟩
    rw [List.isEmpty_iff.mp hempty] at hmem
    nomatch hmem
  · exact .inl ⟨fun hnil => hempty (List.isEmpty_iff.mpr hnil), hhealthy⟩

theorem pathPool_eq_nil_iff :
    d.pathPool dest nowUnix = [] ↔ d.livePaths dest nowUnix = [] := by
  rcases d.pathPool_cases dest nowUnix with ⟨hne, hpool⟩ | ⟨-, hpool⟩
  · obtain ⟨p, hp⟩ := List.exists_mem_of_ne_nil _ hne
    exact iff_of_false hne (List.ne_nil_of_mem ((hpool p).mp hp).1)
  · rw [List.eq_nil_iff_forall_not_mem, List.eq_nil_iff_forall_not_mem]
    exact forall_congr' fun p => not_congr (hpool p)

theorem pickPath_eq_getElem? : (d.pickPath dest flowHash nowUnix).1 =
    (d.pathPool dest nowUnix)[flowHash.toNat % (d.pathPool dest nowUnix).length]? := by
  rw [pickPath]
  split
  · next h => exact h.symm
  · next h => exact h.symm

theorem pickPath_eq_none_iff : (d.pickPath dest flowHash nowUnix).1 = none ↔
    ∀ p ∈ d.pathsTo dest, ¬ d.Open nowUnix p := by
  have hlive : d.livePaths dest nowUnix = [] ↔ ∀ p ∈ d.pathsTo dest, ¬ d.Open nowUnix p := by
    rw [List.eq_nil_iff_forall_not_mem]
    exact forall_congr' fun p => by rw [mem_livePaths, not_and]
  rw [pickPath_eq_getElem?, ← hlive, ← pathPool_eq_nil_iff, List.getElem?_eq_none_iff]
  constructor
  · intro hle
    by_contra hne
    exact absurd (Nat.mod_lt flowHash.toNat (List.length_pos_iff.mpr hne)) (not_lt.mpr hle)
  · intro hnil
    rw [hnil]
    exact Nat.zero_le _

theorem pickPath_spec (h : (d.pickPath dest flowHash nowUnix).1 = some p) :
    p ∈ d.pathsTo dest ∧ d.Open nowUnix p ∧
      ((∃ q ∈ d.pathsTo dest, d.Open nowUnix q ∧ d.Healthy q) → d.Healthy p) := by
  rw [pickPath_eq_getElem?] at h
  have hmem := List.mem_of_getElem? h
  rcases d.pathPool_cases dest nowUnix with ⟨-, hpool⟩ | ⟨hsick, hpool⟩
  · obtain ⟨hlive, hgood⟩ := (hpool p).mp hmem
    obtain ⟨hin, hopen⟩ := mem_livePaths.mp hlive
    exact ⟨hin, hopen, fun _ => hgood⟩
  · obtain ⟨hin, hopen⟩ := mem_livePaths.mp ((hpool p).mp hmem)
    refine ⟨hin, hopen, ?_⟩
    rintro ⟨q, hq, hqopen, hgood⟩
    exact absurd hgood (hsick q (mem_livePaths.mpr ⟨hq, hqopen⟩))

theorem routeKey_pickPath {keyDst : Bytes} (hkey : d.keyDstTable[dest]? = some keyDst) :
    (d.routeKey dest (((d.pickPath dest flowHash nowUnix).1.map PathEntry.pathId).getD
      pathIdDefault)).isSome := by
  rw [routeKey]
  split_ifs with hpath
  · cases hpick : (d.pickPath dest flowHash nowUnix).1 with
    | none =>
      rw [hpick] at hpath
      exact absurd rfl hpath
    | some p => exact (pickPath_spec hpick).2.1.2
  · rw [hkey]
    rfl

theorem buildTypedFrame_ne_noKeyDst {C : Crypto} {pathId : UInt64} {session : Session}
    (hsession : d.sessions[dest]? = some session) (hkey : (d.routeKey dest pathId).isSome)
    (packetType : UInt8) (payload : Bytes) :
    (d.buildTypedFrame C dest pathId packetType payload).1 ≠ .error .noKeyDst := by
  obtain ⟨k, hk⟩ := Option.isSome_iff_exists.mp hkey
  rw [buildTypedFrame_of_session hsession hk]
  dsimp only
  cases C.buildFrame _ k session.keys.txKey session.keys.salt payload with
  | error e => exact fun h => nomatch h
  | ok f => exact fun h => nomatch h

/-- A path is chosen exactly if one has not expired and has a key; the chosen one is such a path,
and healthy if any of them is. A data frame over it does not fail for want of a key. -/
theorem path_choice (C : Crypto) (d : MeshData σ) (dest : UInt32) (flowHash nowUnix : UInt64) :
    ((d.pickPath dest flowHash nowUnix).1 = none ↔ ∀ p ∈ d.pathsTo dest, ¬ d.Open nowUnix p) ∧
    (∀ p, (d.pickPath dest flowHash nowUnix).1 = some p → p ∈ d.pathsTo dest ∧ d.Open nowUnix p ∧
      ((∃ q ∈ d.pathsTo dest, d.Open nowUnix q ∧ d.Healthy q) → d.Healthy p)) ∧
    ∀ payload, (d.sessions[dest]?).isSome → (d.keyDstTable[dest]?).isSome →
      (d.buildDataFrame C dest payload flowHash nowUnix).1 ≠ .error .noKeyDst := by
  refine ⟨pickPath_eq_none_iff, fun p => pickPath_spec, fun payload hsession hkey => ?_⟩
  obtain ⟨session, hsession⟩ := Option.isSome_iff_exists.mp hsession
  obtain ⟨keyDst, hkey⟩ := Option.isSome_iff_exists.mp hkey
  have hroute : (d.routeKey dest (((d.pickPath dest flowHash nowUnix).1.map PathEntry.pathId).getD
      pathIdDefault)).isSome := routeKey_pickPath hkey
  rw [← pickPath_routeKey d dest flowHash nowUnix] at hroute
  have hbuilt := buildTypedFrame_ne_noKeyDst (C := C)
    ((congrArg (·[dest]?) (pickPath_sessions d dest flowHash nowUnix)).trans hsession) hroute
    PacketType.unicast payload
  intro herror
  refine hbuilt ?_
  rw [buildDataFrame] at herror
  dsimp only at herror
  cases hframe : ((d.pickPath dest flowHash nowUnix).2.buildTypedFrame C dest
      (((d.pickPath dest flowHash nowUnix).1.map PathEntry.pathId).getD pathIdDefault)
      PacketType.unicast payload).1 with
  | error e =>
    rw [hframe] at herror
    exact congrArg Except.error (Except.error.inj herror)
  | ok f =>
    rw [hframe] at herror
    nomatch herror

/-- The node has two paths to node 2, and the first is missed too often. -/
def labChooser : MeshData Unit where
  selfNodeId := 1
  keyPathTable := ((∅ : Table UInt64 Bytes).insert 7 [1]).insert 8 [2]
  pathTable := (∅ : Table UInt32 (List PathEntry)).insert 2
    [⟨7, 1, [2], 0⟩, ⟨8, 1, [3, 2], 0⟩]
  pathHealth := (∅ : Table UInt64 UInt32).insert 7 3

theorem path_choice_lab :
    (labChooser.pickPath 2 6 1000).1 = some ⟨8, 1, [3, 2], 0⟩ ∧
      labChooser.Healthy ⟨8, 1, [3, 2], 0⟩ := by
  have hpick : (labChooser.pickPath 2 6 1000).1 = some ⟨8, 1, [3, 2], 0⟩ := by decide
  obtain ⟨hmem, hopen, hhealthy⟩ := (path_choice (Crypto.clear 100) labChooser 2 6 1000).2.1 _ hpick
  have hgood : labChooser.missOf ⟨8, 1, [3, 2], 0⟩ < pathHealthMissLimit := by decide
  exact ⟨hpick, hhealthy ⟨_, hmem, hopen, hgood⟩⟩

end MeshData

end Rill
