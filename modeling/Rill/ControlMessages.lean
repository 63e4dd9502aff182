import Rill.CoordinatorViews
import Rill.Machine

/-!
# Messages of the control plane

What a node and the control server send each other (`rill-proto/proto/control.proto`), as far as
the server reads or fills it. A body that does not parse is `none`. Policies, prefixes and hops
stand for their wire forms. The reads a server makes of its coordinator, one at a time, are the
constructors of `CoordQuery`.
-/

namespace Rill

def protocolVersion : UInt32 := 2

structure RegisterRequest where
  authKey : Text
  staticPubkey : Bytes
  capabilities : UInt32 := 0
  protocolVersion : UInt32 := protocolVersion
  hostname : Text := []
  routes : List Text := []
  version : Text := []

/-- The announced prefixes; an old client lists them in place of its host name. -/
def RegisterRequest.announced (req : RegisterRequest) : List Text :=
  if req.routes.isEmpty then (req.hostname.splitOn 44).filter fun s => !s.isEmpty else req.routes

structure AuditRequest where
  nodeId : UInt32
  staticPubkey : Bytes
  binding : Bytes
  raftLogIndex : UInt64
  raftTerm : UInt64

inductive ClientMessage where
  | register (req : Option RegisterRequest)
  | challengeAck (tag : Option Bytes)
  | heartbeat (telemetry : Option (Option TelemetryView))
  | auditRequest (req : Option AuditRequest)
  | pathRequest (req : Option (UInt32 × UInt32))
  | endpointReport (report : Option (List Text × List Text))
  | routeSync (sync : Option (List (Text × Text) × List Text))
  | other

structure Challenge where
  ephPub : Key32
  nonce : Vector UInt8 16
  issuedAt : UInt64
  nodeId : UInt32
  deriving DecidableEq

structure NetmapPush where
  version : UInt64
  entries : List NodeInfo
  relayRoster : List UInt32
  acl : AclPolicy
  replicaEndpoints : List Text

structure KeyDist where
  toNodeId : UInt32
  key : Bytes
  keyVersion : UInt32
  broadcastKey : Bytes
  deriving DecidableEq

structure CandidatePath where
  pathId : UInt64
  pathEpoch : UInt32
  hops : List UInt32
  expiresAt : UInt64
  keyPath : Bytes
  deriving DecidableEq

structure PathUpdate where
  destinationNodeId : UInt32
  candidates : List CandidatePath
  pathVersion : UInt64
  sourceNodeId : UInt32
  deriving DecidableEq

inductive ServerMessage where
  | challenge (msg : Challenge)
  | registerResponse (data : RegisterData)
  | leaderRedirect (leaderEndpoint : Text) (raftTerm : UInt64)
  | netmapPush (push : NetmapPush)
  | keyDist (msg : KeyDist)
  | lease (granted : Bool) (expiresAt : UInt64)
  | pathUpdate (msg : PathUpdate)
  | pathWithdraw (destinationNodeId : UInt32) (pathId : UInt64) (pathVersion : UInt64)
  | routeMap (version : UInt64) (entries : List RouteMapSnapshotEntry)
  | auditResponse (verdict : AuditVerdict) (appliedIndex : UInt64)

/-- An absent broadcast key is sent as no bytes. -/
def KeyDistData.message (data : KeyDistData) : KeyDist where
  toNodeId := data.toNodeId
  key := data.key
  keyVersion := data.keyVersion
  broadcastKey := data.broadcastKey.getD []

/-- What the control server takes from other crates on top of what the coordinator does: X25519,
HMAC-SHA256 and the check of a binding signature against the key of a seed. -/
structure ServerCrates extends Crates where
  x25519 : (priv pub : Key32) → Key32
  x25519Public : Key32 → Key32
  hmac : (key msg : Bytes) → Bytes
  verifyStrict : (seed : Key32) → (msg sig : Bytes) → Bool

/-- `verify_tag` of `rill-core/src/control/challenge.rs`. -/
def verifyTag (L : ServerCrates) (nodeStaticPub ephPriv : Key32) (nonce : Vector UInt8 16)
    (nodeId : UInt32) (tag : Bytes) : Bool :=
  let macKey := L.crypto.hkdf (some nonce.toList) (L.x25519 ephPriv nodeStaticPub).toList [] 32
  L.hmac macKey (u32be nodeId ++ nonce.toList ++ (L.x25519Public ephPriv).toList) == tag

/-- The end of the window saturates. -/
def withinWindow (issuedAt now window : UInt64) : Bool :=
  now.toNat ≤ min (issuedAt.toNat + window.toNat) (2 ^ 64 - 1)

inductive CoordQuery where
  | nodeIdByPubkey (staticPubkey : Key32)
  | authKeyAdmissible (authKey : Text)
  | staticPubkeyOf (nodeId : UInt32)
  | resumeMatches (nodeId capabilities : UInt32) (routes : List Text)
  | networkIdOf (nodeId : UInt32)
  | bindingOf (nodeId : UInt32)
  | netmapPush (networkId : UInt32) (replicas : List Text)
  | netmapIds (networkId : UInt32)
  | keyDist (nodeId : UInt32)
  | keyPathFor (source : UInt32) (pathId : UInt64) (pathEpoch : UInt32)
  | auditBinding (nodeId : UInt32) (staticPubkey : Key32) (binding : Bytes)
      (anchor : UInt64 × UInt64) (applied : UInt64)

@[reducible] def CoordQuery.Answer : CoordQuery → Type
  | .nodeIdByPubkey _ => Option UInt32
  | .authKeyAdmissible _ => Bool
  | .staticPubkeyOf _ => Option Key32
  | .resumeMatches _ _ _ => Bool
  | .networkIdOf _ => Option UInt32
  | .bindingOf _ => Option (Bytes × (UInt64 × UInt64))
  | .netmapPush _ _ => NetmapPush
  | .netmapIds _ => List UInt32
  | .keyDist _ => Option KeyDistData
  | .keyPathFor _ _ _ => Bytes
  | .auditBinding _ _ _ _ _ => AuditVerdict

namespace Coordinator
variable (c : Coordinator)

/-- `netmap_push_message`: the nodes, the relays and the policy of one network. -/
def netmapPushMessage (o : IterOrder) (networkId : UInt32) (replicas : List Text) : NetmapPush where
  version := c.netmapVersion
  entries := c.netmapSnapshot o networkId
  relayRoster := c.relayRosterFor networkId
  acl := c.aclPolicyOf networkId
  replicaEndpoints := replicas

def answer (L : ServerCrates) (o : IterOrder) (clock : UInt64) : (q : CoordQuery) → q.Answer
  | .nodeIdByPubkey staticPubkey => c.nodeIdByPubkey staticPubkey
  | .authKeyAdmissible authKey => c.authKeyAdmissible authKey clock
  | .staticPubkeyOf nodeId => c.staticPubkeyOf nodeId
  | .resumeMatches nodeId capabilities routes => c.resumeMatches nodeId capabilities routes
  | .networkIdOf nodeId => c.networkIdOf nodeId
  | .bindingOf nodeId => c.bindingOf nodeId
  | .netmapPush networkId replicas => c.netmapPushMessage o networkId replicas
  | .netmapIds networkId => (c.netmapSnapshot o networkId).map NodeInfo.nodeId
  | .keyDist nodeId => c.keyDist L.crypto nodeId
  | .keyPathFor source pathId pathEpoch => c.keyPathFor L.crypto source pathId pathEpoch
  | .auditBinding nodeId staticPubkey binding anchor applied =>
    c.auditBinding L.verifyStrict nodeId staticPubkey binding anchor applied

end Coordinator

end Rill
