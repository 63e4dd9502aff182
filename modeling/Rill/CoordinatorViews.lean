import Rill.Coordinator

/-!
# What a coordinator answers

The reads of `rill-coord/src/coordinator/mod.rs` that other parts of the control plane use: the keys
it hands out, the netmap of a network with the exits in force, and what it knows of a node.
-/

namespace Rill

structure KeyDistData where
  toNodeId : UInt32
  key : Bytes
  keyVersion : UInt32
  broadcastKey : Option Bytes
  deriving DecidableEq

structure NodeInfo where
  nodeId : UInt32
  networkId : UInt32
  staticPubkey : Key32
  capabilities : UInt32
  routes : List Text
  endpoints : List Text
  offline : Bool
  protocolVersion : UInt32
  identityBinding : Bytes
  bindingLogId : UInt64 × UInt64
  exit : Bool
  deriving DecidableEq

/-- The addresses a node reported, then those it was seen from and did not report. -/
def NodeEndpoints.merged (e : NodeEndpoints) : List Text :=
  e.seen.foldl (fun out s => if out.contains s then out else out ++ [s]) e.localAddrs

namespace Directory
variable (d : Directory)

def mergedEndpointsOf (nodeId : UInt32) : List Text :=
  (d.endpoints[nodeId]?.map NodeEndpoints.merged).getD []

def protocolVersion (nodeId : UInt32) : UInt32 := d.protocolVersions[nodeId]?.getD 1

end Directory

/-- A node that can be an exit and that the configuration admits as one. -/
def NetworkDomain.isExit (d : NetworkDomain) (e : NodeEntry) : Bool :=
  e.capabilities &&& capabilityExit != 0 && decide (e.nodeId ∈ d.exitAllow)

def zeroKey : Bytes := List.replicate 32 0

inductive AuditVerdict where
  | verified
  | conflict
  | behind
  | unknown
  deriving DecidableEq

namespace Coordinator
variable (c : Coordinator)

def networkIdOf (nodeId : UInt32) : Option UInt32 :=
  (c.domainOfNode nodeId).map NetworkDomain.networkId

def keyDist (C : Crypto) (nodeId : UInt32) : Option KeyDistData :=
  (c.domainOfNode nodeId).bind fun d => (d.registry.entries[nodeId]?).map fun e =>
    { toNodeId := nodeId
      key := d.keys.keyFor C nodeId
      keyVersion := d.keys.keyVersion
      broadcastKey :=
        if e.capabilities &&& capabilityBroadcast != 0 then some (d.keys.broadcastKey C) else none }

def keyPathFor (C : Crypto) (source : UInt32) (pathId : UInt64) (pathEpoch : UInt32) : Bytes :=
  ((c.domainOfNode source).map fun d => d.keys.keyPathFor C pathId pathEpoch).getD zeroKey

def aclPolicyOf (networkId : UInt32) : AclPolicy :=
  ((c.domainByNetworkId networkId).map NetworkDomain.acl).getD {}

def relayRosterFor (networkId : UInt32) : List UInt32 :=
  ((c.domainByNetworkId networkId).map NetworkDomain.roster).getD []

def nodeInfo (d : NetworkDomain) (e : NodeEntry) : NodeInfo where
  nodeId := e.nodeId
  networkId := e.networkId
  staticPubkey := e.staticPubkey
  capabilities := e.capabilities
  routes := e.routes
  endpoints := c.directory.mergedEndpointsOf e.nodeId
  offline := c.liveness.isOffline e.nodeId
  protocolVersion := c.directory.protocolVersion e.nodeId
  identityBinding := e.identityBinding
  bindingLogId := e.bindingLogId
  exit := d.isExit e

def netmapSnapshot (o : IterOrder) (networkId : UInt32) : List NodeInfo :=
  (c.domains.filter fun d => d.networkId == networkId).flatMap fun d =>
    ((o.registry d.networkId).values d.registry.entries).map (c.nodeInfo d)

def nodeIdByPubkey (staticPubkey : Key32) : Option UInt32 :=
  c.domains.findSome? fun d => d.registry.pubkeys[staticPubkey]?

def revocationOf (nodeId : UInt32) : Option (UInt64 × UInt64) := c.revoked[nodeId]?

/-- The key is well formed, in date and configured; nothing is consumed. -/
def authKeyAdmissible (authKey : Text) (clock : UInt64) : Bool :=
  match AuthKey.parse authKey with
  | .error _ => false
  | .ok (network, expiry, _) =>
    if expiry ≠ 0 ∧ expiry < clock then false
    else c.domains.any fun d => d.name == network && (d.registry.authKeys[authKey]?).isSome

def netmapVersion : UInt64 := c.directory.netmapVersion

/-- The binding a node was given, with the place in the log it was given at. -/
def bindingOf (nodeId : UInt32) : Option (Bytes × (UInt64 × UInt64)) :=
  (c.nodeEntry nodeId).map fun e => (e.identityBinding, e.bindingLogId)

/-- The verdict of `audit_binding` on a replica that has applied the log up to `applied`;
`verify seed msg sig` checks a signature made with the seed. -/
def auditBinding (verify : Key32 → Bytes → Bytes → Bool) (nodeId : UInt32) (staticPubkey : Key32)
    (binding : Bytes) (anchor : UInt64 × UInt64) (applied : UInt64) : AuditVerdict :=
  if !verify c.signingSeed (bindingMessage nodeId staticPubkey anchor) binding then .unknown
  else if (c.revocationOf nodeId).isSome then .unknown
  else if applied < anchor.1 then .behind
  else if (c.nodeEntry nodeId).any fun e => e.bindingLogId == anchor &&
      e.staticPubkey == staticPubkey && e.identityBinding == binding then .verified
  else .conflict

def resumeMatches (nodeId capabilities : UInt32) (routes : List Text) : Bool :=
  (c.nodeEntry nodeId).any fun e => e.capabilities == capabilities && e.routes == routes

end Coordinator

end Rill
