import Rill.Framing
import Rill.PrefixText
import Rill.RevocationFinal
import Rill.TsFrames

/-!
# Snapshots on the raft transport

`full_snapshot` sends the saved state of a coordinator to a lagging replica as one request. The
state is written as JSON, and its bytes are then an array of numbers in the JSON of the request.
`write_frame` takes a body of up to 2^32 - 1 bytes, `read_frame` refuses one above 1 MiB.
-/

namespace Rill
open Ts2021 (Json labWriter labItems labFields)

/-- What is used of `serde_json::to_vec`: it writes whole numbers in decimal, a word of letters as
it is between quotes, no text shorter than it is, and no blanks. -/
structure CompactJson (toVec : Json → Bytes) : Prop where
  num : ∀ n : ℕ, (toVec (.num n)).length = (Text.ofNat n).length
  word : ∀ s : Text, (∀ b ∈ s, 65 ≤ b ∧ b ≤ 90 ∨ 97 ≤ b ∧ b ≤ 122) →
    (toVec (.str s)).length = s.length + 2
  str : ∀ s, s.length ≤ (toVec (.str s)).length
  arr : ∀ items ≠ [],
    (toVec (.arr items)).length = (items.map fun x => (toVec x).length + 1).sum + 1
  obj : ∀ fields ≠ [], (toVec (.obj fields)).length =
    (fields.map fun e => (toVec (.str e.1)).length + (toVec e.2).length + 2).sum + 1

def numJson (n : ℕ) : Json := .num n

def bytesJson (b : Bytes) : Json := .arr (b.map fun x => numJson x.toNat)

def NodeEntry.json (e : NodeEntry) : Json :=
  .obj [
    (ascii "node_id", numJson e.nodeId.toNat),
    (ascii "network_id", numJson e.networkId.toNat),
    (ascii "static_pubkey", bytesJson e.staticPubkey.toList),
    (ascii "capabilities", numJson e.capabilities.toNat),
    (ascii "routes", Json.texts e.routes),
    (ascii "identity_binding", bytesJson e.identityBinding),
    (ascii "binding_log_id",
      .arr [numJson e.bindingLogId.1.toNat, numJson e.bindingLogId.2.toNat])]

def PathCandidate.json (c : PathCandidate) : Json :=
  .obj [
    (ascii "path_id", numJson c.pathId.toNat),
    (ascii "path_epoch", numJson c.pathEpoch.toNat),
    (ascii "hops", .arr (c.hops.map fun h => numJson h.toNat)),
    (ascii "expires_at", numJson c.expiresAt.toNat)]

def PathSet.json (set : PathSet) : Json :=
  .obj [
    (ascii "version", numJson set.version.toNat),
    (ascii "candidates", .arr (set.candidates.map PathCandidate.json)),
    (ascii "max", numJson set.max.toNat)]

def CoordState.json (s : CoordState) : Json :=
  .obj [
    (ascii "schema", numJson s.schema.toNat),
    (ascii "next_node_id", numJson s.nextNodeId.toNat),
    (ascii "nodes", .arr (s.nodes.map NodeEntry.json)),
    (ascii "consumed_one_time_keys", Json.texts s.consumedOneTimeKeys),
    (ascii "netmap_version", numJson s.netmapVersion.toNat),
    (ascii "key_versions", .arr (s.keyVersions.map fun e =>
      .arr [numJson e.1.toNat, numJson e.2.toNat])),
    (ascii "endpoints", .arr (s.endpoints.map fun e =>
      .arr [numJson e.1.toNat, Json.texts e.2.1, Json.texts e.2.2])),
    (ascii "path_maps", .arr (s.pathMaps.map fun m =>
      .arr [numJson m.1.toNat,
        .arr (m.2.1.map fun e => .arr [numJson e.1.toNat, numJson e.2.1.toNat, e.2.2.json]),
        numJson m.2.2.toNat])),
    (ascii "relay_rosters", .arr (s.relayRosters.map fun e =>
      .arr [numJson e.1.toNat, .arr (e.2.map fun id => numJson id.toNat)])),
    (ascii "pending_revoke_rotations", .arr (s.pendingRevokeRotations.map fun e =>
      .arr [numJson e.1.toNat, numJson e.2.toNat])),
    (ascii "revoked_nodes", .arr (s.revokedNodes.map fun e =>
      .arr [numJson e.1.toNat, numJson e.2.1.toNat, numJson e.2.2.toNat]))]

/-- The data of `build_snapshot`. -/
def CoordState.data (toVec : Json → Bytes) (s : CoordState) : Bytes := toVec s.json

/-- The body of an `InstallSnapshot` request; the vote and the meta data are openraft's. -/
def installSnapshot (toVec : Json → Bytes) (vote snapshotMeta : Json) (data : Bytes) : Bytes :=
  toVec (.obj [(ascii "InstallSnapshot", .obj [
    (ascii "vote", vote), (ascii "meta", snapshotMeta), (ascii "data", bytesJson data)])])

def Carried (body : Bytes) : Prop :=
  ∃ f, writeFrame body = some f ∧ ∀ rest, readFrame (f ++ rest) = .frame body rest

/-- The decimal digits of the bytes, with a comma after each. -/
def decimals (data : Bytes) : ℕ := (data.map fun b => (Text.ofNat b.toNat).length + 1).sum

theorem carried_iff (body : Bytes) : Carried body ↔ body.length ≤ maxMessageLen := by
  constructor
  · rintro ⟨f, hf, hread⟩
    have hback := hread []
    rw [readFrame_append hf] at hback
    split_ifs at hback with hlong
    omega
  · intro hlen
    have hshort : ¬ 4294967295 < body.length := by
      rw [maxMessageLen] at hlen
      omega
    refine ⟨_, if_neg hshort, fun rest => ?_⟩
    rw [readFrame_append (if_neg hshort), if_neg (by omega)]

section Lengths
variable {toVec : Json → Bytes} (hvec : CompactJson toVec)

include hvec

theorem CompactJson.length_le_arr {items : List Json} {x : Json} (h : x ∈ items) :
    (toVec x).length ≤ (toVec (.arr items)).length := by
  have hle : (toVec x).length + 1 ≤ (items.map fun x => (toVec x).length + 1).sum :=
    List.le_sum_of_mem (List.mem_map_of_mem h)
  rw [hvec.arr items (List.ne_nil_of_mem h)]
  omega

theorem CompactJson.length_le_obj {fields : List (Text × Json)} {k : Text} {v : Json}
    (h : (k, v) ∈ fields) : (toVec v).length ≤ (toVec (.obj fields)).length := by
  have hle : (toVec (.str k)).length + (toVec v).length + 2 ≤
      (fields.map fun e => (toVec (.str e.1)).length + (toVec e.2).length + 2).sum :=
    List.le_sum_of_mem (List.mem_map.mpr ⟨(k, v), h, rfl⟩)
  rw [hvec.obj fields (List.ne_nil_of_mem h)]
  omega

theorem length_bytesJson {data : Bytes} (h : data ≠ []) :
    (toVec (bytesJson data)).length = decimals data + 1 := by
  rw [bytesJson, hvec.arr _ (by simpa using h), List.map_map, decimals]
  simp only [Function.comp_def, numJson, hvec.num]

theorem data_ne_nil (s : CoordState) : s.data toVec ≠ [] := by
  rw [CoordState.data, CoordState.json, ← List.length_pos_iff, hvec.obj _ (List.cons_ne_nil _ _)]
  exact Nat.succ_pos _

theorem length_installSnapshot (vote snapshotMeta : Json) {data : Bytes} (h : data ≠ []) :
    (installSnapshot toVec vote snapshotMeta data).length =
      46 + (toVec vote).length + (toVec snapshotMeta).length + decimals data := by
  have hinstall := hvec.word (ascii "InstallSnapshot") (by decide +kernel)
  have hvote := hvec.word (ascii "vote") (by decide +kernel)
  have hmeta := hvec.word (ascii "meta") (by decide +kernel)
  have hdata := hvec.word (ascii "data") (by decide +kernel)
  rw [installSnapshot, hvec.obj _ (List.cons_ne_nil _ _), List.map_singleton, List.sum_singleton,
    hvec.obj _ (List.cons_ne_nil _ _), hinstall]
  simp only [List.map_cons, List.map_nil, List.sum_cons, List.sum_nil, length_bytesJson hvec h,
    hvote, hmeta, hdata]
  change 15 + 2 + (4 + 2 + _ + 2 + (4 + 2 + _ + 2 + (4 + 2 + _ + 2 + 0)) + 1) + 2 + 1 = _
  omega

end Lengths

/-- A body that `write_frame` takes is read on the other end if and only if it has at most 1 MiB,
and a snapshot is carried if and only if its bytes, in decimal, leave it in that bound. -/
theorem snapshot_carried_iff {toVec : Json → Bytes} (hvec : CompactJson toVec) (c : Coordinator)
    (o : IterOrder) (vote snapshotMeta : Json) :
    (∀ body f, writeFrame body = some f →
      ((∀ rest, readFrame (f ++ rest) = .frame body rest) ↔ body.length ≤ maxMessageLen)) ∧
    (Carried (installSnapshot toVec vote snapshotMeta ((c.snapshot o).data toVec)) ↔
      46 + (toVec vote).length + (toVec snapshotMeta).length +
        decimals ((c.snapshot o).data toVec) ≤ maxMessageLen) := by
  refine ⟨fun body f hf => ⟨fun hread => ?_, fun hlen rest => ?_⟩, ?_⟩
  · exact (carried_iff body).mp ⟨f, hf, hread⟩
  · rw [readFrame_append hf, if_neg (by omega)]
  · rw [carried_iff, length_installSnapshot hvec _ _ (data_ne_nil hvec _)]

/-! ## A state that is sent -/

theorem length_labItems (x : Json) (items : List Json) : (labItems (x :: items)).length + 1 =
    ((x :: items).map fun x => (labWriter x).length + 1).sum := by
  induction items generalizing x with
  | nil => simp [labItems]
  | cons y rest ih =>
    rw [labItems, List.map_cons, List.sum_cons, ← ih, List.length_append, List.length_cons]
    omega

theorem length_labFields (e : Text × Json) (fields : List (Text × Json)) :
    (labFields (e :: fields)).length + 1 = ((e :: fields).map fun e =>
      (labWriter (.str e.1)).length + (labWriter e.2).length + 2).sum := by
  induction fields generalizing e with
  | nil =>
    obtain ⟨k, v⟩ := e
    simp [labFields]
    omega
  | cons y rest ih =>
    rw [labFields, List.map_cons, List.sum_cons, ← ih, List.length_append, List.length_append,
      List.length_cons, List.length_cons]
    omega

theorem compactJson_labWriter : CompactJson labWriter where
  num n := by simp [labWriter]
  word s _ := by simp [labWriter]
  str s := by
    simp only [labWriter, List.cons_append, List.length_cons, List.length_append]
    omega
  arr items h := by
    obtain ⟨x, items, rfl⟩ := List.exists_cons_of_ne_nil h
    rw [← length_labItems]
    simp [labWriter]
  obj fields h := by
    obtain ⟨e, fields, rfl⟩ := List.exists_cons_of_ne_nil h
    rw [← length_labFields]
    simp [labWriter]

/-- Three nodes register, and the saved state is sent to a replica. -/
theorem lab_snapshot_carried : ∃ c, Transition.run (Coordinator.perform clearCrates)
      (freshCoordinator labConfig.machineConfig) labRegistrations = some c ∧
    Carried (installSnapshot labWriter (.num 1) .null
      ((c.snapshot (.ofPaths .ascending)).data labWriter)) := by
  have hcheck : ((Transition.run (Coordinator.perform clearCrates)
      (freshCoordinator labConfig.machineConfig) labRegistrations).any fun c =>
        46 + (labWriter (.num 1)).length + (labWriter .null).length +
          decimals ((c.snapshot (.ofPaths .ascending)).data labWriter) ≤ maxMessageLen) = true := by
    decide +kernel
  obtain ⟨c, hrun, hlen⟩ := (Option.any_eq_true _ _).mp hcheck
  have hcarried := snapshot_carried_iff compactJson_labWriter c (.ofPaths .ascending) (.num 1) .null
  exact ⟨c, hrun, hcarried.2.mpr (of_decide_eq_true hlen)⟩

/-! ## A state that cannot be sent -/

theorem two_mul_length_le_decimals (data : Bytes) : 2 * data.length ≤ decimals data := by
  induction data with
  | nil => exact le_rfl
  | cons b data ih =>
    have hdigit : 0 < (Text.ofNat b.toNat).length := List.length_pos_of_ne_nil (Text.ofNat_ne_nil _)
    rw [decimals] at ih ⊢
    rw [List.map_cons, List.sum_cons, List.length_cons]
    omega

theorem length_endpoints_le {toVec : Json → Bytes} (hvec : CompactJson toVec) {c : Coordinator}
    {o : IterOrder} {id : UInt32} {e : NodeEndpoints} (h : c.directory.endpoints[id]? = some e) :
    (toVec (Json.texts e.localAddrs)).length ≤ ((c.snapshot o).data toVec).length := by
  have hmem : (id, e.localAddrs, e.seen) ∈ (c.snapshot o).endpoints := by
    refine (StableSort.perm_sortByKey _).mem_iff.mpr (List.mem_map.mpr ⟨(id, e), ?_, rfl⟩)
    exact HashOrder.mem_entries.mpr h
  let row (e : UInt32 × List Text × List Text) : Json :=
    .arr [numJson e.1.toNat, Json.texts e.2.1, Json.texts e.2.2]
  calc (toVec (Json.texts e.localAddrs)).length
      ≤ (toVec (row (id, e.localAddrs, e.seen))).length := hvec.length_le_arr (by simp)
    _ ≤ (toVec (.arr ((c.snapshot o).endpoints.map row))).length :=
      hvec.length_le_arr (List.mem_map_of_mem hmem)
    _ ≤ ((c.snapshot o).data toVec).length := by
      rw [CoordState.data, CoordState.json]
      exact hvec.length_le_obj (k := ascii "endpoints") (by simp [row])

theorem length_texts_replicate {toVec : Json → Bytes} (hvec : CompactJson toVec) (n : ℕ)
    (s : Text) : n * s.length ≤ (toVec (Json.texts (List.replicate n s))).length := by
  cases n with
  | zero => simp
  | succ n =>
    rw [Json.texts, List.map_replicate, hvec.arr _ (by simp), List.map_replicate,
      List.sum_replicate, smul_eq_mul]
    have hmul : (n + 1) * s.length ≤ (n + 1) * ((toVec (.str s)).length + 1) :=
      Nat.mul_le_mul_left _ (Nat.le_succ_of_le (hvec.str s))
    omega

section Lab

/-- A node reports its address 40000 times in one message. -/
def labAddresses : List Text := List.replicate 40000 (ascii "192.0.2.1:51820")

/-- Three nodes register and one of them reports its addresses: its report is shorter than the
1 MiB of a control message, and the saved state is no longer sent to a replica. -/
theorem lab_snapshot_not_carried :
    ∃ c, Transition.run (Coordinator.perform clearCrates)
        (freshCoordinator labConfig.machineConfig)
        (labRegistrations ++ [labCommand 4 (.setEndpoints 1 labAddresses [])]) = some c ∧
      ∀ (toVec : Json → Bytes) (o : IterOrder) (vote snapshotMeta : Json), CompactJson toVec →
        ¬ Carried (installSnapshot toVec vote snapshotMeta ((c.snapshot o).data toVec)) := by
  have hcheck : (Transition.run (Coordinator.perform clearCrates)
      (freshCoordinator labConfig.machineConfig) labRegistrations).isSome = true := by
    decide +kernel
  obtain ⟨c₁, hc₁⟩ := Option.isSome_iff_exists.mp hcheck
  refine ⟨c₁.setEndpoints 1 labAddresses [], ?_, fun toVec o vote snapshotMeta hvec => ?_⟩
  · rw [Transition.run_append, hc₁]
    rfl
  · rw [carried_iff, length_installSnapshot hvec _ _ (data_ne_nil hvec _)]
    have hstored : (c₁.setEndpoints 1 labAddresses []).directory.endpoints[(1 : UInt32)]? =
        some { localAddrs := labAddresses, seen := [] } := Table.getElem?_insert_self _ _ _
    have hstate := length_endpoints_le hvec (o := o) hstored
    have hrow : 40000 * 15 ≤ (toVec (Json.texts labAddresses)).length :=
      length_texts_replicate hvec 40000 (ascii "192.0.2.1:51820")
    have hdecimals := two_mul_length_le_decimals
      (((c₁.setEndpoints 1 labAddresses []).snapshot o).data toVec)
    rw [maxMessageLen]
    dsimp only at hstate
    omega

end Lab

end Rill
