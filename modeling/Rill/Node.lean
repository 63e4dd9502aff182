import Rill.MeshCalls
import Rill.RouteEngine

/-!
# A node: what the control plane tells it

The runtime of a node (`rill-node/src/runtime`) around its data plane: the peers of the last
netmap, the access policy, the routes and the keys. `handleControlEvent` follows `control.rs`.
The control connection itself, endpoints, relays, audits and the route reports are not part of it.
-/

namespace Rill

def pathRequestPendingMax : ℕ := 256

structure NetmapNode where
  nodeId : UInt32
  staticPubkey : Bytes
  routes : List Text := []
  protocolVersion : UInt32 := 0
  offline : Bool := false
  exit : Bool := false
  deriving DecidableEq

structure NetmapData where
  entries : List NetmapNode
  acl : Option AclPolicy := none

structure PathCandidateMsg where
  pathId : UInt64
  pathEpoch : UInt32
  hops : List UInt32
  expiresAt : UInt64
  keyPath : Bytes
  deriving DecidableEq

def PathCandidateMsg.entry (c : PathCandidateMsg) : PathEntry where
  pathId := c.pathId
  pathEpoch := c.pathEpoch
  hops := c.hops
  expiresAt := c.expiresAt

/-- The events of the control connection. Leases, challenges and redirects concern the connection
alone. -/
inductive ControlEvent where
  | registered (nodeId networkId : UInt32) (identityBinding : Bytes) (bindingLogId : UInt64 × UInt64)
  | netmap (netmap : NetmapData)
  | keyDist (toNodeId : UInt32) (key : Bytes) (keyVersion : UInt32) (broadcastKey : Bytes)
  | lease
  | challenge
  | revoked (nodeId : UInt32)
  | paths (destination : UInt32) (candidates : List PathCandidateMsg) (source : UInt32)
  | pathWithdrawn (destination : UInt32) (pathId : UInt64)
  | leaderRedirect
  | routeMap (entries : List (Text × UInt32))

/-- What a node is started with: its key, the parser of addresses and the check of bindings,
which is absent if the public key of the coordinator is malformed. -/
structure NodeConfig where
  staticKeySeed : Bytes
  parseIp : Text → Option IpAddr
  verifyBinding : Option BindingVerifier

structure Node (σ : Type) where
  cfg : NodeConfig
  mesh : MeshData σ
  tun : Option UInt16 := none
  nodeId : Option UInt32 := none
  networkId : UInt32 := 0
  netmapPeers : Table UInt32 Unit := ∅
  keyVersions : Table UInt32 UInt32 := ∅
  broadcastKey : Option Bytes := none
  acl : AclPolicy := {}
  engine : RouteEngine := {}
  defaultRoute : DefaultRouteResolver := {}
  peerHeartbeats : Table UInt32 UInt32 := ∅
  pendingPathRequests : List UInt32 := []
  recentMulticastWrites : List ((IpAddr × IpAddr × ℕ) × ℕ) := []

namespace Node

def new {σ : Type} (cfg : NodeConfig) (tun : Option UInt16) : Node σ where
  cfg := cfg
  mesh := { selfNodeId := 0 }
  tun := tun

variable {σ : Type} (n : Node σ)

def onRegistered (nodeId networkId : UInt32) (identityBinding : Bytes)
    (bindingLogId : UInt64 × UInt64) : Node σ :=
  let ctx : HandshakeContext :=
    { networkId, version := Rill.version, localStatic := n.cfg.staticKeySeed, identityBinding,
      bindingIssuance := bindingLogId }
  let mesh := (n.mesh.setSelfNodeId nodeId).setHandshakeContext ctx
  { n with
    nodeId := some nodeId
    networkId
    mesh := n.cfg.verifyBinding.elim mesh mesh.setBindingVerifier }

def requestPathsFor (dest : UInt32) : Node σ :=
  if !n.pendingPathRequests.contains dest && n.pendingPathRequests.length < pathRequestPendingMax then
    { n with pendingPathRequests := n.pendingPathRequests ++ [dest] }
  else n

def insertRoute (source : RouteSource) (nodeId : UInt32) (cidr : Text) : Node σ :=
  match Prefix.parse n.cfg.parseIp cidr with
  | none => n
  | some route => { n with engine := n.engine.insert { route, source, via := .mesh nodeId } }

def applyEntry (entry : NetmapNode) : Node σ :=
  let n := { n with mesh := n.mesh.setPeerStatic entry.nodeId entry.staticPubkey }
  let n := if entry.offline then { n with engine := n.engine.removeDynDn42Node entry.nodeId }
    else entry.routes.foldl (fun n route => n.insertRoute .mesh entry.nodeId route) n
  if 2 ≤ entry.protocolVersion then n.requestPathsFor entry.nodeId else n

def removeStale (peer : UInt32) : Node σ :=
  { n with
    mesh := ((n.mesh.removePeerStatic peer).dropSession peer).removePathsFor peer
    engine := (n.engine.removeMeshNode peer).removeDynDn42Node peer }

def otherEntries (netmap : NetmapData) : List NetmapNode :=
  netmap.entries.filter fun e => some e.nodeId != n.nodeId

def freshPeers (netmap : NetmapData) : Table UInt32 Unit :=
  (n.otherEntries netmap).foldl (fun t e => t.insert e.nodeId ()) ∅

/-- Whether the netmap marks the node itself as an exit; a later entry overrides an earlier one. -/
def selfExit (netmap : NetmapData) : Bool :=
  ((netmap.entries.filter fun e => some e.nodeId == n.nodeId).getLast?.map NetmapNode.exit).getD false

/-- The policy, the peers with their routes, and the exits of a netmap. -/
def applyEntries (netmap : NetmapData) : Node σ :=
  let meshExits := ((n.otherEntries netmap).filter fun e => e.exit && !e.offline).map NetmapNode.nodeId
  let next := (n.otherEntries netmap).foldl applyEntry
    { n with engine := n.engine.resetMeshRoutes, acl := netmap.acl.getD {} }
  { next with defaultRoute := next.defaultRoute.setMeshExits meshExits (n.selfExit netmap) }

def stalePeers (fresh : Table UInt32 Unit) : List UInt32 :=
  (n.netmapPeers.filter fun peer _ => !fresh.contains peer).toList.map Prod.fst

def applyNetmap (netmap : NetmapData) : Node σ :=
  let fresh := n.freshPeers netmap
  { (n.stalePeers fresh).foldl removeStale (n.applyEntries netmap) with netmapPeers := fresh }

def onKeyDist (toNodeId : UInt32) (key : Bytes) (keyVersion : UInt32) (broadcastKey : Bytes) :
    Node σ :=
  let n := if key.length = 32 then
      { n with
        mesh := n.mesh.setKeyDst toNodeId key
        keyVersions := n.keyVersions.insert toNodeId keyVersion }
    else n
  if broadcastKey.length = 32 then
    { n with mesh := n.mesh.setBroadcastKey broadcastKey, broadcastKey := some broadcastKey }
  else n

def onRevoked (peer : UInt32) : Node σ :=
  { n with
    mesh := (((n.mesh.dropSession peer).removePeerStatic peer).removeKeyDst peer).removePathsFor peer
    engine := (n.engine.removeMeshNode peer).removeDynDn42Node peer
    netmapPeers := n.netmapPeers.erase peer
    peerHeartbeats := n.peerHeartbeats.erase peer }

/-- Every candidate brings its key. Only the paths from this node enter the send table; of the
others those are kept on which this node relays. -/
def onPaths (destination : UInt32) (candidates : List PathCandidateMsg) (source : UInt32) : Node σ :=
  let mesh := candidates.foldl
    (fun mesh c => if c.keyPath.length = 32 then mesh.setKeyPath c.pathId c.keyPath else mesh) n.mesh
  if source = n.nodeId.getD 0xFFFFFFFF then
    { n with
      mesh := mesh.setPaths destination (candidates.map PathCandidateMsg.entry)
      pendingPathRequests := n.pendingPathRequests.filter fun d => d != destination }
  else
    match n.nodeId with
    | none => { n with mesh }
    | some me =>
      let relayed := candidates.filter fun c => c.hops.contains me
      { n with mesh := relayed.foldl (fun mesh c => mesh.setForwardPath c.entry) mesh }

/-- The node's own contribution to the route map is skipped. -/
def onRouteMap (entries : List (Text × UInt32)) : Node σ :=
  (entries.filter fun e => e.2 != n.nodeId.getD 0xFFFFFFFF).foldl
    (fun n e => n.insertRoute .dynDn42 e.2 e.1)
    { n with engine := n.engine.resetDynDn42Routes }

def handleControlEvent : ControlEvent → Node σ
  | .registered nodeId networkId binding logId => n.onRegistered nodeId networkId binding logId
  | .netmap netmap => n.applyNetmap netmap
  | .keyDist toNodeId key keyVersion broadcastKey => n.onKeyDist toNodeId key keyVersion broadcastKey
  | .revoked nodeId => n.onRevoked nodeId
  | .paths destination candidates source => n.onPaths destination candidates source
  | .pathWithdrawn destination pathId => { n with mesh := n.mesh.withdrawPath destination pathId }
  | .routeMap entries => n.onRouteMap entries
  | .lease => n
  | .challenge => n
  | .leaderRedirect => n

end Node

end Rill
