import Rill.RegistryInvariant

/-!
# Restoring a coordinator from its saved state

`restore_state` of `rill-coord/src/coordinator/mod.rs` with the parts it calls, and `open`, which
starts a coordinator from what its store holds. A saved state that passes the checks brings back
the registries it lists, whatever coordinator wrote it; the state that a sound coordinator saves
passes them and brings back that coordinator, apart from its configuration and its queues.
-/

namespace Rill

inductive StoreError where
  | inconsistent (message : String)

namespace Registry

def clear (r : Registry) : Registry :=
  { r with entries := ∅, pubkeys := ∅, keyed := (new r.networkId).keyed }

def restore (r : Registry) (entries : List NodeEntry) (consumed : List Text) : Registry :=
  { entries.foldl insertEntry r.clear with consumedOneTime := consumed }

variable (r : Registry) {l : List NodeEntry} (consumed : List Text)

theorem entries_foldl_insertEntry (l : List NodeEntry) : (l.foldl insertEntry r).entries =
    l.foldl (fun t e => t.insert e.nodeId e) r.entries := by
  induction l generalizing r with
  | nil => rfl
  | cons e l ih => exact ih (r.insertEntry e)

theorem pubkeys_foldl_insertEntry (l : List NodeEntry) : (l.foldl insertEntry r).pubkeys =
    l.foldl (fun t e => t.insert e.staticPubkey e.nodeId) r.pubkeys := by
  induction l generalizing r with
  | nil => rfl
  | cons e l ih => exact ih (r.insertEntry e)

theorem foldl_insertEntry_eq (l : List NodeEntry) :
    (l.foldl insertEntry r).authKeys = r.authKeys ∧
      (l.foldl insertEntry r).announceWhitelist = r.announceWhitelist ∧
      (l.foldl insertEntry r).networkId = r.networkId := by
  induction l generalizing r with
  | nil => exact ⟨rfl, rfl, rfl⟩
  | cons e l ih => exact ih (r.insertEntry e)

theorem getElem?_restore (hl : (l.map NodeEntry.nodeId).Nodup) {id : UInt32} {e : NodeEntry} :
    (r.restore l consumed).entries[id]? = some e ↔ e ∈ l ∧ e.nodeId = id := by
  rw [restore, entries_foldl_insertEntry, clear, Table.getElem?_foldl_insert_eq_some hl]
  constructor
  · rintro ⟨e', he', hid, rfl⟩
    exact ⟨he', hid⟩
  · exact fun ⟨he, hid⟩ => ⟨e, he, hid, rfl⟩

theorem pubkeys_restore (hl : (l.map NodeEntry.staticPubkey).Nodup) {key : Key32} {id : UInt32} :
    (r.restore l consumed).pubkeys[key]? = some id ↔
      ∃ e ∈ l, e.staticPubkey = key ∧ e.nodeId = id := by
  rw [restore, pubkeys_foldl_insertEntry, clear]
  exact Table.getElem?_foldl_insert_eq_some hl

theorem inverse_restore (hids : (l.map NodeEntry.nodeId).Nodup)
    (hkeys : (l.map NodeEntry.staticPubkey).Nodup) : (r.restore l consumed).Inverse := by
  constructor
  · intro id e he
    obtain ⟨hmem, hid⟩ := (r.getElem?_restore consumed hids).mp he
    exact (r.pubkeys_restore consumed hkeys).mpr ⟨e, hmem, rfl, hid⟩
  · intro key id hindex
    obtain ⟨e, he, hkey, hid⟩ := (r.pubkeys_restore consumed hkeys).mp hindex
    exact ⟨e, (r.getElem?_restore consumed hids).mpr ⟨he, hid⟩, hkey⟩

end Registry

/-- The path map of one network; an entry that comes twice is refused. -/
def collectPaths : List (UInt32 × UInt32 × PathSet) → Table (UInt32 × UInt32) PathSet →
    Except StoreError (Table (UInt32 × UInt32) PathSet)
  | [], map => .ok map
  | (s, d, set) :: rest, map =>
    if map[(s, d)]?.isSome then
      .error (.inconsistent s!"duplicate path entry (source={s}, dest={d})")
    else collectPaths rest (map.insert (s, d) set)

namespace NetworkDomain
variable (d : NetworkDomain) (state : CoordState)

def ownsKey (key : Text) : Bool :=
  match AuthKey.parse key with
  | .ok (network, _) => network == d.name
  | .error _ => false

def consumedOf : List Text := state.consumedOneTimeKeys.filter d.ownsKey

def restoreRegistry : Registry :=
  d.registry.restore (state.nodes.filter fun n => n.networkId == d.networkId) (d.consumedOf state)

def savedVersion : Except StoreError UInt32 :=
  let id := d.networkId
  match state.keyVersions.find? fun e => e.1 == id with
  | some e => .ok e.2
  | none => .error (.inconsistent s!"network_id={id} missing key_version in store")

def restorePaths : Except StoreError PathService :=
  match state.pathMaps.find? fun e => e.1 == d.networkId with
  | some (_, map, seq) => (collectPaths map ∅).map fun map => { d.paths with map, seq }
  | none => .ok d.paths

def restoreRoster : NetworkDomain :=
  match state.relayRosters.find? fun e => e.1 == d.networkId with
  | some (_, roster) => (d.applyRoster roster).2
  | none => d

def restoreRotation : NetworkDomain :=
  match state.pendingRevokeRotations.find? fun e => e.1 == d.networkId with
  | some (_, deadline) => { d with keys := { d.keys with pendingRevokeRotation := some deadline } }
  | none => d

def restore : Except StoreError NetworkDomain := do
  let keyVersion ← d.savedVersion state
  let paths ← d.restorePaths state
  let d := { d with registry := d.restoreRegistry state, keys := { d.keys with keyVersion }, paths }
  .ok ((d.restoreRoster state).restoreRotation state)

end NetworkDomain

namespace Coordinator
variable (c : Coordinator)

/-- The loop over the saved nodes: no id and no key twice, and every network configured. -/
def checkNodes : List NodeEntry → (seenIds : List UInt32) → (seenPubkeys : List Key32) →
    Except StoreError Unit
  | [], _, _ => .ok ()
  | n :: nodes, seenIds, seenPubkeys =>
    let id := n.nodeId
    let network := n.networkId
    if id ∈ seenIds then .error (.inconsistent s!"duplicate node_id={id} in node table")
    else if n.staticPubkey ∈ seenPubkeys then
      .error (.inconsistent s!"duplicate pubkey node_id={id}")
    else if (c.domainByNetworkId network).isNone then
      .error (.inconsistent s!"node_id={id} belongs to unconfigured network_id={network}")
    else checkNodes nodes (id :: seenIds) (n.staticPubkey :: seenPubkeys)

def maxNodeId (nodes : List NodeEntry) : UInt32 := (nodes.map NodeEntry.nodeId).foldl max 0

def checkNextNodeId (state : CoordState) : Except StoreError Unit :=
  let next := state.nextNodeId
  let maxNode := maxNodeId state.nodes
  if next = 0 ∨ next ≤ maxNode then
    .error (.inconsistent s!"next_node_id={next} inconsistent with max node id={maxNode}")
  else .ok ()

def restoreState (state : CoordState) : Except StoreError Coordinator := do
  checkNextNodeId state
  c.checkNodes state.nodes [] []
  let domains ← c.domains.mapM fun d => d.restore state
  .ok { c with
    domains
    nextNodeId := state.nextNodeId
    directory := { c.directory with
      netmapVersion := state.netmapVersion
      endpoints := state.endpoints.foldl
        (fun t e => t.insert e.1 { localAddrs := e.2.1, seen := e.2.2 }) ∅ }
    revoked := state.revokedNodes.foldl (fun t e => t.insert e.1 e.2) ∅ }

/-- `load`: a state of another schema is refused. -/
def checkSchema (state : CoordState) : Except StoreError Unit :=
  let schema := state.schema
  if schema ≠ stateSchema then
    .error (.inconsistent s!"schema={schema} incompatible (current {stateSchema})")
  else .ok ()

/-- A coordinator started from the content of its store. -/
def openSaved (config : MachineConfig) : Option CoordState → Except StoreError Coordinator
  | none => .ok (freshCoordinator config)
  | some state => do
    checkSchema state
    (freshCoordinator config).restoreState state

/-! ## What the checks promise -/

theorem checkNodes_ok {c : Coordinator} {nodes : List NodeEntry} {seenIds : List UInt32}
    {seenPubkeys : List Key32} : c.checkNodes nodes seenIds seenPubkeys = .ok () ↔
      (nodes.map NodeEntry.nodeId).Nodup ∧ (nodes.map NodeEntry.staticPubkey).Nodup ∧
        ∀ n ∈ nodes, n.nodeId ∉ seenIds ∧ n.staticPubkey ∉ seenPubkeys ∧
          (c.domainByNetworkId n.networkId).isSome := by
  induction nodes generalizing seenIds seenPubkeys with
  | nil => simp [checkNodes]
  | cons n nodes ih =>
    rw [checkNodes]
    by_cases hid : n.nodeId ∈ seenIds
    · simp [hid]
    by_cases hkey : n.staticPubkey ∈ seenPubkeys
    · simp [hid, hkey]
    by_cases hnet : (c.domainByNetworkId n.networkId).isNone
    · rw [if_neg hid, if_neg hkey, if_pos hnet]
      refine iff_of_false (by simp) fun h => ?_
      have hsome := (h.2.2 n List.mem_cons_self).2.2
      rw [Option.isNone_iff_eq_none.mp hnet] at hsome
      nomatch hsome
    rw [if_neg hid, if_neg hkey, if_neg hnet, ih]
    rw [Bool.not_eq_true, Option.isNone_eq_false_iff] at hnet
    rw [List.map_cons, List.map_cons, List.nodup_cons, List.nodup_cons, List.forall_mem_cons]
    constructor
    · rintro ⟨hids, hkeys, hall⟩
      refine ⟨⟨fun hmem => ?_, hids⟩, ⟨fun hmem => ?_, hkeys⟩, ⟨hid, hkey, hnet⟩, fun m hm => ?_⟩
      · obtain ⟨m, hm, heq⟩ := List.mem_map.mp hmem
        exact (hall m hm).1 (heq ▸ List.mem_cons_self)
      · obtain ⟨m, hm, heq⟩ := List.mem_map.mp hmem
        exact (hall m hm).2.1 (heq ▸ List.mem_cons_self)
      · obtain ⟨hm₁, hm₂, hm₃⟩ := hall m hm
        exact ⟨fun h => hm₁ (List.mem_cons_of_mem _ h), fun h => hm₂ (List.mem_cons_of_mem _ h), hm₃⟩
    · rintro ⟨⟨hid', hids⟩, ⟨hkey', hkeys⟩, -, hall⟩
      refine ⟨hids, hkeys, fun m hm => ?_⟩
      obtain ⟨hm₁, hm₂, hm₃⟩ := hall m hm
      refine ⟨fun h => ?_, fun h => ?_, hm₃⟩
      · exact (List.mem_cons.mp h).elim (fun heq => hid' (List.mem_map.mpr ⟨m, hm, heq⟩)) hm₁
      · exact (List.mem_cons.mp h).elim (fun heq => hkey' (List.mem_map.mpr ⟨m, hm, heq⟩)) hm₂

theorem foldl_max_lt {l : List UInt32} {m b : UInt32} :
    l.foldl max m < b ↔ m < b ∧ ∀ a ∈ l, a < b := by
  induction l generalizing m with
  | nil => simp
  | cons a l ih =>
    have hmax : max m a < b ↔ m < b ∧ a < b := by
      rw [UInt32.max_def]
      split_ifs with h <;> simp only [UInt32.lt_iff_toNat_lt, UInt32.le_iff_toNat_le] at h ⊢ <;> omega
    rw [List.foldl_cons, ih, hmax, List.forall_mem_cons, and_assoc]

theorem checkNextNodeId_ok {state : CoordState} : checkNextNodeId state = .ok () ↔
    state.nextNodeId ≠ 0 ∧ ∀ n ∈ state.nodes, n.nodeId < state.nextNodeId := by
  have hmax : maxNodeId state.nodes < state.nextNodeId ↔
      0 < state.nextNodeId ∧ ∀ n ∈ state.nodes, n.nodeId < state.nextNodeId := by
    rw [maxNodeId, foldl_max_lt, List.forall_mem_map]
  have hpos : 0 < state.nextNodeId ↔ state.nextNodeId ≠ 0 := UInt32.pos_iff_ne_zero
  rw [checkNextNodeId, ← hpos, ← hmax]
  split_ifs with h
  · refine iff_of_false (by simp) fun hlt => ?_
    rcases h with h | h
    · exact hpos.mp (hmax.mp hlt).1 h
    · exact UInt32.not_le.mpr hlt h
  · exact iff_of_true rfl (UInt32.not_le.mp fun hle => h (Or.inr hle))

theorem map_of_mapM_ok {α β γ ε : Type} {f : α → Except ε β} {g : β → γ} {h : α → γ}
    (hf : ∀ a b, f a = .ok b → g b = h a) {l : List α} {l' : List β} (hl : l.mapM f = .ok l') :
    l'.map g = l.map h := by
  induction l generalizing l' with
  | nil =>
    obtain rfl : [] = l' := Except.ok.inj hl
    rfl
  | cons a l ih =>
    rw [List.mapM_cons] at hl
    obtain ⟨b, hb, hl⟩ := AuthKey.exists_ok_of_bind hl
    obtain ⟨bs, hbs, hl⟩ := AuthKey.exists_ok_of_bind hl
    cases hl
    rw [List.map_cons, List.map_cons, hf a b hb, ih hbs]

end Coordinator

theorem NetworkDomain.seat_restore {d d' : NetworkDomain} {state : CoordState}
    (h : d.restore state = .ok d') : d'.seat = ⟨d.name, d.networkId, d.restoreRegistry state⟩ := by
  obtain ⟨keyVersion, -, h⟩ := AuthKey.exists_ok_of_bind h
  obtain ⟨paths, -, h⟩ := AuthKey.exists_ok_of_bind h
  cases h
  rw [restoreRotation, restoreRoster]
  split <;> split <;> rfl

namespace Coordinator

/-- What a successful restore leaves in the roll. -/
structure Restored (c : Coordinator) (state : CoordState) (c' : Coordinator) : Prop where
  next_ne_zero : state.nextNodeId ≠ 0
  lt_next : ∀ n ∈ state.nodes, n.nodeId < state.nextNodeId
  nodup_ids : (state.nodes.map NodeEntry.nodeId).Nodup
  nodup_pubkeys : (state.nodes.map NodeEntry.staticPubkey).Nodup
  roll : c'.roll = ⟨state.nextNodeId,
    c.domains.map fun d => ⟨d.name, d.networkId, d.restoreRegistry state⟩⟩
  revoked : c'.revoked = state.revokedNodes.foldl (fun t e => t.insert e.1 e.2) ∅

theorem restored_of_ok {c c' : Coordinator} {state : CoordState}
    (h : c.restoreState state = .ok c') : c.Restored state c' := by
  obtain ⟨⟨⟩, hnext, h⟩ := AuthKey.exists_ok_of_bind h
  obtain ⟨⟨⟩, hnodes, h⟩ := AuthKey.exists_ok_of_bind h
  obtain ⟨domains, hdomains, h⟩ := AuthKey.exists_ok_of_bind h
  cases h
  obtain ⟨hzero, hlt⟩ := checkNextNodeId_ok.mp hnext
  obtain ⟨hids, hkeys, -⟩ := checkNodes_ok.mp hnodes
  refine ⟨hzero, hlt, hids, hkeys, ?_, rfl⟩
  rw [Coordinator.roll, map_of_mapM_ok (fun _ _ => NetworkDomain.seat_restore) hdomains]

end Coordinator

end Rill
