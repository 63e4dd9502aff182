import Rill.Coordinator
import Rill.PathOrder
import Rill.Transition

/-!
# The replicated coordinator

`rill-coord/src/raft/machine.rs`: commands, their dispatch to the coordinator, and the state machine
the log is applied to. A replica starts from its configuration and applies log entries; each step
also carries the orders in which the hash maps of that process are read. A step that has no result
is one in which the source panics. The content of a membership entry stays a parameter.

`CoordState` and `snapshot` are the saved state of `rill-coord/src/store/mod.rs`. `erase` drops what
the coordinator keeps for itself; the snapshot depends on the rest alone.
-/

namespace Rill

/-! ## The saved state of a coordinator -/

def stateSchema : UInt32 := 4

structure CoordState where
  schema : UInt32
  nextNodeId : UInt32
  nodes : List NodeEntry
  consumedOneTimeKeys : List Text
  netmapVersion : UInt64
  keyVersions : List (UInt32 × UInt32)
  endpoints : List (UInt32 × List Text × List Text)
  pathMaps : List (UInt32 × List (UInt32 × UInt32 × PathSet) × UInt64)
  relayRosters : List (UInt32 × List UInt32)
  pendingRevokeRotations : List (UInt32 × UInt64)
  revokedNodes : List (UInt32 × UInt64 × UInt64)
  deriving DecidableEq

namespace Coordinator
open StableSort

def snapshot (c : Coordinator) (o : IterOrder) : CoordState where
  schema := stateSchema
  nextNodeId := c.nextNodeId
  nodes := sortByKey (fun e => e.nodeId.toNat) (c.allEntries o)
  consumedOneTimeKeys := sortByKey Text.rank (c.domains.flatMap fun d => d.registry.consumedOneTime)
  netmapVersion := c.directory.netmapVersion
  keyVersions := sortByKey (fun e => e.1.toNat)
    (c.domains.map fun d => (d.networkId, d.keys.keyVersion))
  endpoints := sortByKey (fun e => e.1.toNat)
    ((o.endpoints.entries c.directory.endpoints).map fun e => (e.1, e.2.localAddrs, e.2.seen))
  pathMaps := sortByKey (fun e => e.1.toNat)
    (c.domains.map fun d => (d.networkId, d.paths.persistent (o.paths d.networkId)))
  relayRosters := sortByKey (fun e => e.1.toNat) (c.domains.map fun d => (d.networkId, d.roster))
  pendingRevokeRotations := sortByKey (fun e => e.1.toNat) (c.domains.filterMap fun d =>
    d.keys.pendingRevokeRotation.map fun deadline => (d.networkId, deadline))
  revokedNodes := sortByKey (fun e => toLex (e.1.toNat, toLex (e.2.1.toNat, e.2.2.toNat)))
    ((o.revoked.entries c.revoked).map fun e => (e.1, e.2))

end Coordinator

/-- The saved part of a network. -/
def NetworkDomain.erase (d : NetworkDomain) : NetworkDomain :=
  { d with
    paths := d.paths.erase, relayRtt := ∅, relayMiss := ∅, routeMap := {}, routeMapPushed := ∅ }

theorem NetworkDomain.erase_eq_iff {d d' : NetworkDomain} :
    d.erase = d'.erase ↔ d.networkId = d'.networkId ∧ d.name = d'.name ∧
      d.registry = d'.registry ∧ d.keys = d'.keys ∧ d.paths.erase = d'.paths.erase ∧
      d.roster = d'.roster ∧ d.relayCfg = d'.relayCfg ∧ d.exitAllow = d'.exitAllow ∧
      d.acl = d'.acl := by
  simp [NetworkDomain.erase]

namespace Coordinator
open StableSort

/-- The saved part of a coordinator, with its configuration. -/
def erase (c : Coordinator) : Coordinator :=
  { c with
    domains := c.domains.map NetworkDomain.erase
    liveness := {}
    directory := { netmapVersion := c.directory.netmapVersion, endpoints := c.directory.endpoints }
    telemetry := ∅
    registerRejects := 0 }

variable {c c' : Coordinator}

theorem erase_eq_iff : c.erase = c'.erase ↔
    c.domains.map NetworkDomain.erase = c'.domains.map NetworkDomain.erase ∧
      c.signingSeed = c'.signingSeed ∧
      (c.directory.netmapVersion = c'.directory.netmapVersion ∧
        c.directory.endpoints = c'.directory.endpoints) ∧
      c.nextNodeId = c'.nextNodeId ∧ c.revoked = c'.revoked := by
  simp [erase]

theorem map_domains_congr {β : Type} (h : c.erase = c'.erase) {f : NetworkDomain → β}
    (hf : ∀ d, f d.erase = f d) : c.domains.map f = c'.domains.map f := by
  have hmap : ∀ ds : List NetworkDomain, ds.map f = (ds.map NetworkDomain.erase).map f := by
    intro ds
    rw [List.map_map]
    exact List.map_congr_left fun d _ => (hf d).symm
  rw [hmap c.domains, (erase_eq_iff.mp h).1, ← hmap]

theorem flatMap_domains_congr {β : Type} (h : c.erase = c'.erase) {f : NetworkDomain → List β}
    (hf : ∀ d, f d.erase = f d) : c.domains.flatMap f = c'.domains.flatMap f := by
  rw [List.flatMap_def, List.flatMap_def, map_domains_congr h hf]

theorem filterMap_domains_congr {β : Type} (h : c.erase = c'.erase) {f : NetworkDomain → Option β}
    (hf : ∀ d, f d.erase = f d) : c.domains.filterMap f = c'.domains.filterMap f := by
  have hmap := congrArg (List.filterMap id) (map_domains_congr h hf)
  rwa [List.filterMap_map, List.filterMap_map] at hmap

theorem values_injOn (r : Registry) (o : HashOrder UInt32) :
    ∀ e ∈ o.values r.entries, ∀ e' ∈ o.values r.entries, e.nodeId.toNat = e'.nodeId.toNat → e = e' := by
  intro e he e' he' hid
  obtain ⟨id, hentry⟩ := HashOrder.mem_values.mp he
  obtain ⟨id', hentry'⟩ := HashOrder.mem_values.mp he'
  have hsame : id = id' := by
    rw [← r.keyed id e hentry, ← r.keyed id' e' hentry', UInt32.toNat_inj.mp hid]
  rw [hsame] at hentry
  exact Option.some.inj (hentry.symm.trans hentry')

theorem sorted_allEntries_congr (h : c.erase = c'.erase) (o o' : IterOrder) :
    sortByKey (fun e => e.nodeId.toNat) (c.allEntries o) =
      sortByKey (fun e => e.nodeId.toNat) (c'.allEntries o') := by
  have hsame : c'.allEntries o' =
      c.domains.flatMap fun d => (o'.registry d.networkId).values d.registry.entries :=
    flatMap_domains_congr h.symm fun _ => rfl
  rw [hsame]
  refine sortByKey_congr fun k => ?_
  simp only [keyClass, allEntries, List.filter_flatMap]
  refine congrArg (c.domains.flatMap ·) (funext fun d => ?_)
  exact keyClass_eq_of_perm (HashOrder.values_perm _ _ _) (values_injOn d.registry _) k

theorem sorted_entries_congr {V β K : Type} [LinearOrder K] {key : β → K} {f : UInt32 × V → β}
    (hkey : ∀ e e', key (f e) = key (f e') → e.1 = e'.1) (t : Table UInt32 V)
    (o o' : HashOrder UInt32) :
    sortByKey key ((o.entries t).map f) = sortByKey key ((o'.entries t).map f) := by
  refine sortByKey_eq_of_perm ((HashOrder.entries_perm o o' t).map f) ?_
  intro b hb b' hb' hk
  obtain ⟨⟨id, v⟩, hin, rfl⟩ := List.mem_map.mp hb
  obtain ⟨⟨id', v'⟩, hin', rfl⟩ := List.mem_map.mp hb'
  obtain rfl : id = id' := hkey _ _ hk
  rw [HashOrder.mem_entries] at hin hin'
  rw [Option.some.inj (hin.symm.trans hin')]

theorem snapshot_congr (h : c.erase = c'.erase) (o o' : IterOrder) : c.snapshot o = c'.snapshot o' := by
  obtain ⟨-, -, ⟨hversion, hendpoints⟩, hnext, hrevoked⟩ := erase_eq_iff.mp h
  have hpersistent : ∀ d : NetworkDomain,
      d.paths.persistent (o.paths d.networkId) = d.paths.persistent (o'.paths d.networkId) :=
    fun d => PathService.persistent_congr rfl _ _
  have hpaths : (c.domains.map fun d => (d.networkId, d.paths.persistent (o'.paths d.networkId))) =
      c'.domains.map fun d => (d.networkId, d.paths.persistent (o'.paths d.networkId)) :=
    map_domains_congr h fun d => congrArg (d.networkId, ·) (PathService.persistent_congr rfl _ _)
  simp only [snapshot, hversion, hendpoints, hnext, hrevoked, hpersistent, hpaths, CoordState.mk.injEq,
    true_and]
  refine ⟨sorted_allEntries_congr h o o', ?_, ?_, ?_, ?_, ?_, ?_⟩
  · rw [flatMap_domains_congr h fun _ => rfl]
  · rw [map_domains_congr h fun _ => rfl]
  · refine sorted_entries_congr (fun e e' hk => ?_) _ _ _
    exact UInt32.toNat_inj.mp hk
  · rw [map_domains_congr h fun _ => rfl]
  · rw [filterMap_domains_congr h fun _ => rfl]
  · refine sorted_entries_congr (fun e e' hk => ?_) _ _ _
    exact UInt32.toNat_inj.mp (Prod.mk.inj (toLex.injective hk)).1

end Coordinator

inductive CoordCommand where
  | register (authKey : Text) (staticPubkey : Key32) (capabilities : UInt32) (routes : List Text)
      (now : UInt64)
  | revoke (nodeId : UInt32) (now : UInt64)
  | setEndpoints (nodeId : UInt32) (localAddrs seen : List Text)
  | requestPaths (source dest max : UInt32) (now : UInt64)
  | setRelayRoster (networkId : UInt32) (roster : List UInt32) (now : UInt64)
  | rotateMasterKey (network : Text) (newMasterKey : Key32)
  | flushRevokeRotations (now : UInt64)
  deriving DecidableEq

inductive CoordCommandResult where
  | noop
  | register (result : Except RegisterError RegisterData)
  | revoke (known : Bool)
  | setEndpoints
  | requestPaths (candidates : List (PathCandidate × Bytes))
  | setRelayRoster (changed : Bool)
  | rotateMasterKey
  | flushRevokeRotations (rotated : Bool)
  deriving DecidableEq

structure LogId where
  index : UInt64
  term : UInt64
  deriving DecidableEq

inductive EntryPayload (M : Type) where
  | blank
  | normal (cmd : CoordCommand)
  | membership (m : M)

structure Entry (M : Type) where
  logId : LogId
  payload : EntryPayload M

def Coordinator.applyCommand (c : Coordinator) (L : Crates) (o : IterOrder) (cmd : CoordCommand)
    (logId : LogId) : Option (CoordCommandResult × Coordinator) :=
  let issuance := (logId.index, logId.term)
  match cmd with
  | .register authKey staticPubkey capabilities routes now =>
    (c.register L authKey staticPubkey capabilities routes now issuance).map fun (r, c) =>
      (.register r, c)
  | .revoke nodeId now =>
    some (.revoke (c.staticPubkeyOf nodeId).isSome, c.revoke o nodeId now issuance)
  | .setEndpoints nodeId localAddrs seen => some (.setEndpoints, c.setEndpoints nodeId localAddrs seen)
  | .requestPaths source dest max now =>
    let (candidates, c) := c.requestPaths L source dest max now
    some (.requestPaths candidates, c)
  | .setRelayRoster networkId roster now =>
    let (changed, c) := c.applyRelayRoster o networkId roster now
    some (.setRelayRoster changed, c)
  | .rotateMasterKey network newMasterKey =>
    some (.rotateMasterKey, c.rotateMasterKey network newMasterKey)
  | .flushRevokeRotations now =>
    let (rotated, c) := c.flushRevokeRotations now
    some (.flushRevokeRotations rotated, c)

structure MachineConfig where
  signingSeed : Key32
  networks : List (Text × Key32)

def freshCoordinator (config : MachineConfig) : Coordinator :=
  config.networks.foldl (fun c n => c.addNetwork n.1 n.2) (Coordinator.new config.signingSeed)

structure CoordStateMachine (M : Type) where
  coordinator : Coordinator
  lastApplied : Option LogId := none
  lastMembership : Option (LogId × M) := none

namespace CoordStateMachine
variable {M : Type}

/-- One entry of `apply`. -/
def applyEntry (L : Crates) (o : IterOrder) (m : CoordStateMachine M) (e : Entry M) :
    Option (CoordCommandResult × CoordStateMachine M) :=
  let m := { m with lastApplied := some e.logId }
  match e.payload with
  | .blank => some (.noop, m)
  | .normal cmd =>
    (m.coordinator.applyCommand L o cmd e.logId).map fun (r, c) => (r, { m with coordinator := c })
  | .membership ms => some (.noop, { m with lastMembership := some (e.logId, ms) })

def stateSnapshot (m : CoordStateMachine M) (o : IterOrder) : CoordState := m.coordinator.snapshot o

end CoordStateMachine

structure AuthKeyConfig where
  key : Text
  policy : Text
  tag : Option Text := none

structure NetworkConfig where
  name : Text
  masterKey : Key32
  authKeys : List AuthKeyConfig := []
  announceWhitelist : List Prefix := []
  acl : AclPolicy := {}
  relay : RelayRosterConfig := {}
  exits : List UInt32 := []

structure CoordConfig where
  signingSeed : Key32
  networks : List NetworkConfig

def AuthKeyConfig.spec (ak : AuthKeyConfig) : AuthKeySpec where
  policy := if ak.policy = ascii "onetime" then .oneTime else .reusable
  tag := ak.tag

namespace NetworkConfig
variable (net : NetworkConfig)

/-- The keys of the network that the configuration no longer lists go. -/
def pruneAuthKeys (o : IterOrder) (c : Coordinator) : Coordinator :=
  (c.authKeyListFor o net.name).foldl
    (fun c key => if net.authKeys.any (fun ak => ak.key == key) then c else c.removeAuthKey key) c

/-- One network of `apply_to`. -/
def applyTo (o : IterOrder) (c : Coordinator) : Coordinator :=
  let c := net.authKeys.foldl (fun c ak => c.addAuthKeySpec ak.key ak.spec) c
  let c := net.pruneAuthKeys o c
  let c := c.setAnnounceWhitelist net.name net.announceWhitelist
  let c := c.setAclPolicy net.name net.acl
  let c := c.setRelayConstraints net.name net.relay
  c.setExitAllow net.name net.exits

end NetworkConfig

namespace CoordConfig
variable (cfg : CoordConfig)

def machineConfig : MachineConfig where
  signingSeed := cfg.signingSeed
  networks := cfg.networks.map fun n => (n.name, n.masterKey)

def applyTo (o : IterOrder) (c : Coordinator) : Coordinator :=
  cfg.networks.foldl (fun c net => net.applyTo o c) c

/-- The machine of a replica at the start: fresh networks, then the configuration. -/
def machine (M : Type) (o : IterOrder) : CoordStateMachine M :=
  { coordinator := cfg.applyTo o (freshCoordinator cfg.machineConfig) }

end CoordConfig

end Rill
