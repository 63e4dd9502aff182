import Rill.Registry
import Rill.PathService
import Rill.RouteMap

/-!
# The parts of a coordinator

One network of a coordinator (`rill-coord/src/domain.rs`) with its keys (`keys.rs`), and the two
tables all networks share: liveness of nodes (`liveness.rs`) and the node directory
(`directory.rs`).
-/

namespace Rill

structure KeyManager where
  masterKey : Key32
  keyVersion : UInt32 := 1
  pendingRevokeRotation : Option UInt64 := none

namespace KeyManager
variable (k : KeyManager)

def keyFor (C : Crypto) (nodeId : UInt32) : Bytes := C.deriveKeyDst k.masterKey.toList nodeId

def broadcastKey (C : Crypto) : Bytes := C.deriveKeyDst k.masterKey.toList 0xFFFFFFFF

def keyPathFor (C : Crypto) (pathId : UInt64) (pathEpoch : UInt32) : Bytes :=
  C.deriveKeyPath k.masterKey.toList pathId pathEpoch

def rotate (newMasterKey : Key32) : KeyManager :=
  { k with masterKey := newMasterKey, keyVersion := k.keyVersion + 1 }

def armRevokeRotation (deadline : UInt64) : KeyManager :=
  if k.pendingRevokeRotation.isNone then { k with pendingRevokeRotation := some deadline } else k

def rotationDue (now : UInt64) : Bool := k.pendingRevokeRotation.any fun d => d ≤ now

def takeRevokeRotation (now : UInt64) : Bool × KeyManager :=
  if k.rotationDue now then
    (true, { k with pendingRevokeRotation := none, keyVersion := k.keyVersion + 1 })
  else (false, k)

def clearRevokeRotation : KeyManager := { k with pendingRevokeRotation := none }

end KeyManager

def leaseExpirySecs : UInt64 := 60

structure Liveness where
  lastSeen : Table UInt32 UInt64 := ∅
  offline : List UInt32 := []

namespace Liveness
variable (l : Liveness)

def isOffline (nodeId : UInt32) : Bool := l.offline.contains nodeId

def heartbeat (nodeId : UInt32) (now : UInt64) : Bool × Liveness :=
  (l.isOffline nodeId, { lastSeen := l.lastSeen.insert nodeId now
                         offline := l.offline.filter fun id => id != nodeId })

/-- The nodes whose lease has run out and that are not marked yet, in the order of the table. -/
def expired (o : HashOrder UInt32) (now : UInt64) : List UInt32 :=
  ((o.entries l.lastSeen).filter fun e => leaseExpirySecs < saturatingSub64 now e.2).map Prod.fst
    |>.filter fun id => !l.isOffline id

def sweep (o : HashOrder UInt32) (now : UInt64) : List UInt32 × Liveness :=
  (l.expired o now, { l with offline := l.offline ++ l.expired o now })

def markOffline (nodeId : UInt32) : Bool × Liveness :=
  if l.isOffline nodeId then (false, l) else (true, { l with offline := l.offline ++ [nodeId] })

def remove (nodeId : UInt32) : Liveness where
  lastSeen := l.lastSeen.erase nodeId
  offline := l.offline.filter fun id => id != nodeId

end Liveness

structure NodeEndpoints where
  localAddrs : List Text := []
  seen : List Text := []
  deriving DecidableEq

structure Directory where
  netmapVersion : UInt64 := 0
  endpoints : Table UInt32 NodeEndpoints := ∅
  protocolVersions : Table UInt32 UInt32 := ∅
  buildVersions : Table UInt32 Text := ∅

namespace Directory
variable (d : Directory)

def bumpNetmap : Directory := { d with netmapVersion := d.netmapVersion + 1 }

def setEndpoints (nodeId : UInt32) (localAddrs seen : List Text) : Directory :=
  { d with endpoints := d.endpoints.insert nodeId { localAddrs, seen } }.bumpNetmap

def setProtocolVersion (nodeId version : UInt32) : Directory :=
  { d with protocolVersions := d.protocolVersions.insert nodeId version }

def setBuildVersion (nodeId : UInt32) (version : Text) : Directory :=
  { d with buildVersions := d.buildVersions.insert nodeId version }

def removeNode (nodeId : UInt32) : Directory :=
  { d with
    endpoints := d.endpoints.erase nodeId
    protocolVersions := d.protocolVersions.erase nodeId
    buildVersions := d.buildVersions.erase nodeId }

end Directory

inductive AclSubject where
  | any
  | node (id : UInt32)
  | group (name : Text)
  deriving DecidableEq

inductive AclAction where
  | allow
  | deny
  deriving DecidableEq

structure AclRule where
  subjects : List AclSubject
  route : Prefix
  action : AclAction
  deriving DecidableEq

structure AclPolicy where
  enabled : Bool := false
  rules : List AclRule := []
  groups : Table Text (List UInt32) := ∅

structure RelayRosterConfig where
  incl : List UInt32 := []
  excl : List UInt32 := []
  maxSize : ℕ := 8
  deriving DecidableEq

/-- `network_id_for`: FNV-1a of the name, with zero moved to one. -/
def networkIdFor (name : Text) : UInt32 :=
  let hash := name.foldl (fun (hash : UInt32) b => (hash ^^^ b.toUInt32) * 0x01000193) 0x811c9dc5
  if hash = 0 then 1 else hash

structure NetworkDomain where
  networkId : UInt32
  name : Text
  registry : Registry
  keys : KeyManager
  paths : PathService := {}
  roster : List UInt32 := []
  relayCfg : RelayRosterConfig := {}
  exitAllow : Finset UInt32 := ∅
  relayRtt : Table UInt32 UInt64 := ∅
  relayMiss : Table UInt32 UInt32 := ∅
  acl : AclPolicy := {}
  routeMap : RouteMapService := {}
  routeMapPushed : Table UInt32 UInt64 := ∅

namespace NetworkDomain

def new (name : Text) (networkId : UInt32) (masterKey : Key32) : NetworkDomain :=
  { networkId, name, registry := Registry.new networkId, keys := { masterKey } }

variable (d : NetworkDomain)

/-- Puts a roster in place; true when it differs from the old one in more than the order. -/
def applyRoster (roster : List UInt32) : Bool × NetworkDomain :=
  (StableSort.sortByKey UInt32.toNat d.roster != StableSort.sortByKey UInt32.toNat roster,
    { d with roster, paths := d.paths.setRelays roster })

def dropped (roster : List UInt32) : List UInt32 := d.roster.filter fun r => !roster.contains r

/-- The part of `apply_relay_roster` inside the network: dropped relays leave the path sets, and
the sets gain candidates over the relays that came in. -/
def applyRelayRoster (o : HashOrder (UInt32 × UInt32)) (roster : List UInt32) (now : UInt64) :
    Bool × NetworkDomain :=
  let (changed, next) := d.applyRoster roster
  let paths := (d.dropped roster).foldl (fun paths node => paths.withdrawRelay o node) next.paths
  (changed, { next with paths := paths.expandRelayCandidates o now })

def revokeRotationWindowSecs : UInt64 := 60

/-- The part of `revoke` inside the network of the node. -/
def revoke (o : HashOrder (UInt32 × UInt32)) (nodeId : UInt32) (now : UInt64) : NetworkDomain :=
  let paths := d.paths.withdrawNode o nodeId
  let roster := d.roster.filter fun r => r != nodeId
  { d with
    registry := d.registry.revoke nodeId
    paths := if d.roster.contains nodeId then paths.setRelays roster else paths
    routeMap := (d.routeMap.withdrawNode nodeId).2
    routeMapPushed := ∅
    roster := if d.roster.contains nodeId then roster else d.roster
    keys := d.keys.armRevokeRotation (now + revokeRotationWindowSecs) }

def flushRevokeRotation (now : UInt64) : NetworkDomain :=
  { d with keys := (d.keys.takeRevokeRotation now).2 }

def withdrawRoutes (nodeId : UInt32) : NetworkDomain :=
  { d with
    routeMap := (d.routeMap.withdrawNode nodeId).2
    routeMapPushed := d.routeMapPushed.erase nodeId }

def recordRtt (node : UInt32) : Option UInt64 → NetworkDomain
  | some ms => { d with relayRtt := d.relayRtt.insert node ms, relayMiss := d.relayMiss.insert node 0 }
  | none => { d with relayMiss := d.relayMiss.insert node ((d.relayMiss[node]?).getD 0 + 1) }

theorem foldl_recordRtt_eq (results : List (UInt32 × Option UInt64)) : ∃ relayRtt relayMiss,
    results.foldl (fun d r => d.recordRtt r.1 r.2) d = { d with relayRtt, relayMiss } := by
  induction results generalizing d with
  | nil => exact ⟨d.relayRtt, d.relayMiss, rfl⟩
  | cons r results ih =>
    obtain ⟨node, rtt⟩ := r
    obtain ⟨relayRtt, relayMiss, heq⟩ := ih (d.recordRtt node rtt)
    refine ⟨relayRtt, relayMiss, heq.trans ?_⟩
    cases rtt with
    | none => rfl
    | some ms => rfl

end NetworkDomain

end Rill
