import Rill.AuthKey
import Rill.Domain

/-!
# The coordinator

`rill-coord/src/coordinator/mod.rs`: the operations across networks, and the snapshot that is
saved and compared between replicas. `Crates` collects what the coordinator takes from other
crates and the standard library. `IterOrder` gives each hash map of one process the order in which
it hands out its keys. The write-through to a store file is left out: a replica of the cluster
runs without one.
-/

namespace Rill

structure Crates where
  crypto : Crypto
  sign : (seed : Key32) → (msg : Bytes) → Bytes
  parseIp : Text → Option IpAddr
  showIp : IpAddr → Text

structure IterOrder where
  registry : UInt32 → HashOrder UInt32
  authKeys : UInt32 → HashOrder Text
  paths : UInt32 → HashOrder (UInt32 × UInt32)
  routes : UInt32 → HashOrder (Prefix × UInt32)
  endpoints : HashOrder UInt32
  revoked : HashOrder UInt32
  lastSeen : HashOrder UInt32

/-- The orders of a process in which only the path maps are out of order. -/
def IterOrder.ofPaths (o : HashOrder (UInt32 × UInt32)) : IterOrder where
  registry _ := .ascending
  authKeys _ := .ascending
  paths _ := o
  routes _ := .ascending
  endpoints := .ascending
  revoked := .ascending
  lastSeen := .ascending

def capabilityRelay : UInt32 := 0x01

def capabilityExit : UInt32 := 0x08

def capabilityBroadcast : UInt32 := 0x20

def capabilityAcl : UInt32 := 0x40

structure RegisterData where
  nodeId : UInt32
  networkId : UInt32
  identityBinding : Bytes
  bindingLogId : UInt64 × UInt64
  deriving DecidableEq

structure TelemetryView where
  dropGlobal : UInt64 := 0
  updatedAt : UInt64 := 0
  deriving DecidableEq

structure Coordinator where
  domains : List NetworkDomain := []
  signingSeed : Key32
  liveness : Liveness := {}
  directory : Directory := {}
  nextNodeId : UInt32 := 1
  telemetry : Table UInt32 TelemetryView := ∅
  registerRejects : UInt64 := 0
  revoked : Table UInt32 (UInt64 × UInt64) := ∅

/-- Changes the first element that satisfies `p`. -/
def updateFirst {α : Type} (p : α → Bool) (f : α → α) : List α → List α
  | [] => []
  | a :: l => if p a then f a :: l else a :: updateFirst p f l

namespace Coordinator

def new (signingSeed : Key32) : Coordinator := { signingSeed }

variable (c : Coordinator)

def addNetwork (name : Text) (masterKey : Key32) : Coordinator :=
  { c with domains := c.domains ++ [NetworkDomain.new name (networkIdFor name) masterKey] }

def domainByName (name : Text) : Option NetworkDomain := c.domains.find? fun d => d.name == name

def domainByNetworkId (networkId : UInt32) : Option NetworkDomain :=
  c.domains.find? fun d => d.networkId == networkId

/-- The network a registered node belongs to by its entry. -/
def networkOfNode (nodeId : UInt32) : Option UInt32 :=
  (c.domains.findSome? fun d => d.registry.entries[nodeId]?).map NodeEntry.networkId

def domainOfNode (nodeId : UInt32) : Option NetworkDomain :=
  (c.networkOfNode nodeId).bind c.domainByNetworkId

def nodeEntry (nodeId : UInt32) : Option NodeEntry :=
  (c.domainOfNode nodeId).bind fun d => d.registry.entries[nodeId]?

def staticPubkeyOf (nodeId : UInt32) : Option Key32 :=
  (c.nodeEntry nodeId).map NodeEntry.staticPubkey

def updateNamed (name : Text) (f : NetworkDomain → NetworkDomain) : Coordinator :=
  { c with domains := updateFirst (fun d => d.name == name) f c.domains }

def updateNetwork (networkId : UInt32) (f : NetworkDomain → NetworkDomain) : Coordinator :=
  { c with domains := updateFirst (fun d => d.networkId == networkId) f c.domains }

def updateDomainOf (nodeId : UInt32) (f : NetworkDomain → NetworkDomain) : Coordinator :=
  (c.networkOfNode nodeId).elim c fun networkId => c.updateNetwork networkId f

def bumpNetmap : Coordinator := { c with directory := c.directory.bumpNetmap }

/-! ## Configuration -/

def addAuthKeySpec (key : Text) (spec : AuthKeySpec) : Coordinator :=
  match AuthKey.parse key with
  | .error _ => c
  | .ok (network, _) =>
    c.updateNamed network fun d => { d with registry := d.registry.addAuthKeySpec key spec }

def removeAuthKey (key : Text) : Coordinator :=
  match AuthKey.parse key with
  | .error _ => c
  | .ok (network, _) =>
    c.updateNamed network fun d => { d with registry := d.registry.removeAuthKey key }

def authKeyListFor (o : IterOrder) (network : Text) : List Text :=
  (c.domainByName network).elim [] fun d => (o.authKeys d.networkId).keys d.registry.authKeys

def setAnnounceWhitelist (network : Text) (whitelist : List Prefix) : Coordinator :=
  c.updateNamed network fun d => { d with registry := d.registry.setAnnounceWhitelist whitelist }

def setAclPolicy (network : Text) (policy : AclPolicy) : Coordinator :=
  if (c.domainByName network).isSome then
    (c.updateNamed network fun d => { d with acl := policy }).bumpNetmap
  else c

def setRelayConstraints (network : Text) (cfg : RelayRosterConfig) : Coordinator :=
  c.updateNamed network fun d => { d with relayCfg := cfg }

/-- The exits in force: nodes with the capability that the configuration admits. -/
def effectiveExits (d : NetworkDomain) (allow : Finset UInt32) : Finset UInt32 :=
  ((d.registry.entries.toList.filter fun e => e.2.capabilities &&& capabilityExit != 0).map
    fun e => e.2.nodeId).toFinset ∩ allow

def setExitAllow (network : Text) (allow : List UInt32) : Coordinator :=
  (c.domainByName network).elim c fun d =>
    let next := c.updateNamed network fun d => { d with exitAllow := allow.toFinset }
    if effectiveExits d d.exitAllow ≠ effectiveExits d allow.toFinset then next.bumpNetmap else next

/-! ## Logged operations -/

/-- The answer to an admitted registration; `none` is the panic of the source when the node is not
found where its entry says. -/
def registered (nodeId : UInt32) : Option (Except RegisterError RegisterData × Coordinator) :=
  (c.nodeEntry nodeId).map fun e =>
    (.ok { nodeId := e.nodeId, networkId := e.networkId, identityBinding := e.identityBinding
           bindingLogId := e.bindingLogId }, c)

/-- What a registration in the registry of `network` leads to: the registry is put back, and a new
node moves the id counter and the netmap version. -/
def settleOutcome (network : Text) (outcome : Except RegisterError RegisterOutcome)
    (registry : Registry) : Option (Except RegisterError RegisterData × Coordinator) :=
  let next := c.updateNamed network fun d => { d with registry }
  match outcome with
  | .error e => some (.error e, next)
  | .ok (.existing id) => next.registered id
  | .ok (.newNode id) => { next with nextNodeId := next.nextNodeId + 1 }.bumpNetmap.registered id

def registerInner (L : Crates) (authKey : Text) (staticPubkey : Key32) (capabilities : UInt32)
    (routes : List Text) (now : UInt64) (issuance : UInt64 × UInt64) :
    Option (Except RegisterError RegisterData × Coordinator) :=
  match AuthKey.parse authKey with
  | .error _ => some (.error .invalidAuthKey, c)
  | .ok (network, expiry, _) =>
    if expiry ≠ 0 ∧ expiry < now then some (.error .invalidAuthKey, c)
    else
      match c.domainByName network with
      | none => some (.error .invalidAuthKey, c)
      | some d =>
        if d.acl.enabled && capabilities &&& capabilityAcl == 0 then
          some (.error .aclCapabilityRequired, c)
        else
          (d.registry.register L.parseIp (L.sign c.signingSeed) authKey staticPubkey capabilities
              routes c.nextNodeId issuance).bind fun out => c.settleOutcome network out.1 out.2

def register (L : Crates) (authKey : Text) (staticPubkey : Key32) (capabilities : UInt32)
    (routes : List Text) (now : UInt64) (issuance : UInt64 × UInt64) :
    Option (Except RegisterError RegisterData × Coordinator) :=
  (c.registerInner L authKey staticPubkey capabilities routes now issuance).map fun (r, next) =>
    match r with
    | .error e =>
      (.error e, { next with registerRejects := saturatingSucc64 next.registerRejects })
    | .ok data => (.ok data, next)

def setEndpoints (nodeId : UInt32) (localAddrs seen : List Text) : Coordinator :=
  { c with directory := c.directory.setEndpoints nodeId localAddrs seen }

def requestPaths (L : Crates) (source dest max : UInt32) (now : UInt64) :
    List (PathCandidate × Bytes) × Coordinator :=
  match c.domainOfNode source, c.domainOfNode dest with
  | some sd, some dd =>
    if sd.networkId ≠ dd.networkId then ([], c)
    else
      (((sd.paths.request source dest max now).1.map fun p =>
          (p, sd.keys.keyPathFor L.crypto p.pathId p.pathEpoch)),
        c.updateNetwork sd.networkId fun d =>
          { d with paths := (d.paths.request source dest max now).2 })
  | _, _ => ([], c)

def applyRelayRoster (o : IterOrder) (networkId : UInt32) (roster : List UInt32) (now : UInt64) :
    Bool × Coordinator :=
  match c.domainByNetworkId networkId with
  | none => (false, c)
  | some d =>
    let changed := (d.applyRoster roster).1
    let next := c.updateNetwork networkId fun d =>
      (d.applyRelayRoster (o.paths networkId) roster now).2
    (changed, if changed then next.bumpNetmap else next)

def flushRevokeRotations (now : UInt64) : Bool × Coordinator :=
  (c.domains.any fun d => d.keys.rotationDue now,
    { c with domains := c.domains.map fun d => d.flushRevokeRotation now })

def revoke (o : IterOrder) (nodeId : UInt32) (now : UInt64) (logId : UInt64 × UInt64) :
    Coordinator :=
  let c := (c.flushRevokeRotations now).2
  if c.domains.any fun d => d.registry.entries[nodeId]?.isSome then
    { c with
      domains := updateFirst (fun d => d.registry.entries[nodeId]?.isSome)
        (fun d => d.revoke (o.paths d.networkId) nodeId now) c.domains
      liveness := c.liveness.remove nodeId
      directory := (c.directory.removeNode nodeId).bumpNetmap
      telemetry := c.telemetry.erase nodeId
      revoked := c.revoked.insert nodeId logId }
  else c

def rotateMasterKey (network : Text) (newMasterKey : Key32) : Coordinator :=
  c.updateNamed network fun d =>
    { d with keys := (d.keys.rotate newMasterKey).clearRevokeRotation }

/-! ## Operations outside the log -/

def heartbeat (o : IterOrder) (nodeId : UInt32) (now : UInt64) : Bool × Coordinator :=
  let c := (c.flushRevokeRotations now).2
  let wasOffline := c.liveness.isOffline nodeId
  let (newlyOffline, liveness) := (c.liveness.heartbeat nodeId now).2.sweep o.lastSeen now
  let next := newlyOffline.foldl (fun c id => c.updateDomainOf id fun d => d.withdrawRoutes id)
    { c with liveness }
  (wasOffline, if wasOffline || !newlyOffline.isEmpty then next.bumpNetmap else next)

def markOffline (nodeId : UInt32) : Coordinator :=
  if (c.domains.any fun d => d.registry.entries[nodeId]?.isSome) && !c.liveness.isOffline nodeId then
    ({ c with liveness := (c.liveness.markOffline nodeId).2 }.updateDomainOf nodeId
      fun d => d.withdrawRoutes nodeId).bumpNetmap
  else c

def storeTelemetry (nodeId : UInt32) (view : TelemetryView) (clock : UInt64) : Coordinator :=
  { c with telemetry := c.telemetry.insert nodeId { view with updatedAt := clock } }

def takePathEvents (source : UInt32) : List PathEvent × Coordinator :=
  ((c.domainOfNode source).elim [] fun d => (d.paths.takeEvents source).1,
    c.updateDomainOf source fun d => { d with paths := (d.paths.takeEvents source).2 })

/-- The prefixes a node registered, which bound what it may report. -/
def coverage (L : Crates) (d : NetworkDomain) (nodeId : UInt32) : List Prefix :=
  (d.registry.entries[nodeId]?).elim [] fun e => e.routes.filterMap (Prefix.parse L.parseIp)

def applyRouteSync (L : Crates) (nodeId : UInt32) (announced : List (Prefix × Text))
    (withdrawn : List Prefix) (clock : UInt64) : Option RouteSyncOutcome × Coordinator :=
  let sync (d : NetworkDomain) := d.routeMap.applySync nodeId announced withdrawn
    (coverage L d nodeId) routeMapMaxPerNode clock
  ((c.domainOfNode nodeId).map fun d => (sync d).1,
    c.updateDomainOf nodeId fun d => { d with routeMap := (sync d).2 })

def takeRouteMapPush (L : Crates) (o : IterOrder) (nodeId : UInt32) :
    Option (UInt64 × List RouteMapSnapshotEntry) × Coordinator :=
  match c.domainOfNode nodeId with
  | none => (none, c)
  | some d =>
    if d.routeMapPushed[nodeId]? = some d.routeMap.version then (none, c)
    else
      (some (d.routeMap.version, d.routeMap.snapshot L.showIp (o.routes d.networkId)),
        c.updateDomainOf nodeId fun d =>
          { d with routeMapPushed := d.routeMapPushed.insert nodeId d.routeMap.version })

def setProtocolVersion (nodeId version : UInt32) : Coordinator :=
  { c with directory := c.directory.setProtocolVersion nodeId version }

def setBuildVersion (nodeId : UInt32) (version : Text) : Coordinator :=
  { c with directory := c.directory.setBuildVersion nodeId version }

def recordRelayRttRound (networkId : UInt32) (results : List (UInt32 × Option UInt64)) :
    Coordinator :=
  c.updateNetwork networkId fun d => results.foldl (fun d r => d.recordRtt r.1 r.2) d

def allEntries (o : IterOrder) : List NodeEntry :=
  c.domains.flatMap fun d => (o.registry d.networkId).values d.registry.entries

def resetLivenessOnTakeover (o : IterOrder) (now : UInt64) : Coordinator :=
  { c with
    liveness := (c.allEntries o).foldl (fun l (e : NodeEntry) => (l.heartbeat e.nodeId now).2)
      c.liveness }.bumpNetmap

end Coordinator

end Rill
