import Rill.MeshDispatch
import Rill.SessionNonce

/-!
# The calls of the data plane

Everything the runtime does to the data plane of a node is a `MeshCall`: it hands over a received
frame, starts or gives up handshakes, builds frames, rekeys, probes paths, and writes what the
control plane has told it into the tables. Only a received frame reports an event.
-/

namespace Rill

def pathProbeMaxPending : ℕ := 64

def pathProbeTimeout : ℕ := 35000000000

inductive TableUpdate where
  | setSelfNodeId (id : UInt32)
  | setHandshakeContext (ctx : HandshakeContext)
  | setBindingVerifier (verify : BindingVerifier)
  | setPeerStatic (peer : UInt32) (staticPubkey : Bytes)
  | removePeerStatic (peer : UInt32)
  | setKeyDst (node : UInt32) (key : Bytes)
  | removeKeyDst (node : UInt32)
  | setBroadcastKey (key : Bytes)
  | setKeyPath (pathId : UInt64) (key : Bytes)
  | setPaths (dest : UInt32) (paths : List PathEntry)
  | setForwardPath (path : PathEntry)
  | withdrawPath (dest : UInt32) (pathId : UInt64)
  | removePathsFor (dest : UInt32)

inductive MeshCall where
  | frame (bytes : Bytes)
  | initiateHandshake (peer : UInt32)
  | dropInitiator (peer : UInt32)
  | dropSession (peer : UInt32)
  | rekeySessions
  | buildDataFrame (dest : UInt32) (payload : Bytes) (flowHash : UInt64)
  | buildHeartbeatFrame (dest : UInt32)
  | buildBroadcastFrame (payload : Bytes)
  | sendToNode (dest : UInt32)
  | pathMissPeer (dest : UInt32)
  | sendPathProbe (dest : UInt32) (pathId : UInt64) (nonce : UInt32)
  | pollPathProbeTimeouts
  | update (u : TableUpdate)

namespace MeshData
variable {σ : Type}

def setSelfNodeId (d : MeshData σ) (id : UInt32) : MeshData σ := { d with selfNodeId := id }

def setHandshakeContext (d : MeshData σ) (ctx : HandshakeContext) : MeshData σ :=
  { d with ctx := some ctx }

def setBindingVerifier (d : MeshData σ) (verify : BindingVerifier) : MeshData σ :=
  { d with bindingVerifier := some verify }

def setPeerStatic (d : MeshData σ) (peer : UInt32) (staticPubkey : Bytes) : MeshData σ :=
  { d with peerStatics := d.peerStatics.insert peer staticPubkey }

def removePeerStatic (d : MeshData σ) (peer : UInt32) : MeshData σ :=
  { d with peerStatics := d.peerStatics.erase peer }

def setKeyDst (d : MeshData σ) (node : UInt32) (key : Bytes) : MeshData σ :=
  { d with keyDstTable := d.keyDstTable.insert node key }

def removeKeyDst (d : MeshData σ) (node : UInt32) : MeshData σ :=
  { d with keyDstTable := d.keyDstTable.erase node }

def setKeyPath (d : MeshData σ) (pathId : UInt64) (key : Bytes) : MeshData σ :=
  { d with keyPathTable := d.keyPathTable.insert pathId key }

def removeKeyPath (d : MeshData σ) (pathId : UInt64) : MeshData σ :=
  { d with
    keyPathTable := d.keyPathTable.erase pathId
    pathHealth := d.pathHealth.erase pathId }

def setPaths (d : MeshData σ) (dest : UInt32) (paths : List PathEntry) : MeshData σ :=
  { d with pathTable := d.pathTable.insert dest paths }

def setForwardPath (d : MeshData σ) (path : PathEntry) : MeshData σ :=
  { d with forwardPaths := d.forwardPaths.insert path.pathId path }

def withdrawPath (d : MeshData σ) (dest : UInt32) (pathId : UInt64) : MeshData σ :=
  let d := d.removeKeyPath pathId
  let d := { d with forwardPaths := d.forwardPaths.erase pathId }
  match d.pathTable[dest]? with
  | none => d
  | some paths =>
    let kept := paths.filter fun p => p.pathId != pathId
    { d with pathTable :=
      if kept.isEmpty then d.pathTable.erase dest else d.pathTable.insert dest kept }

def removePathsFor (d : MeshData σ) (dest : UInt32) : MeshData σ :=
  match d.pathTable[dest]? with
  | none => d
  | some paths =>
    paths.foldl (fun d p => d.removeKeyPath p.pathId)
      { d with pathTable := d.pathTable.erase dest }

def applyUpdate (d : MeshData σ) : TableUpdate → MeshData σ
  | .setSelfNodeId id => d.setSelfNodeId id
  | .setHandshakeContext ctx => d.setHandshakeContext ctx
  | .setBindingVerifier verify => d.setBindingVerifier verify
  | .setPeerStatic peer staticPubkey => d.setPeerStatic peer staticPubkey
  | .removePeerStatic peer => d.removePeerStatic peer
  | .setKeyDst node key => d.setKeyDst node key
  | .removeKeyDst node => d.removeKeyDst node
  | .setBroadcastKey key => d.setBroadcastKey key
  | .setKeyPath pathId key => d.setKeyPath pathId key
  | .setPaths dest paths => d.setPaths dest paths
  | .setForwardPath path => d.setForwardPath path
  | .withdrawPath dest pathId => d.withdrawPath dest pathId
  | .removePathsFor dest => d.removePathsFor dest

/-- A probe that is sent is remembered until it is answered or given up. -/
def sendPathProbe (d : MeshData σ) (dest : UInt32) (pathId : UInt64) (nonce : UInt32)
    (env : CallEnv) : MeshData σ :=
  if pathProbeMaxPending ≤ d.pathProbePending.size then d
  else if (d.keyPathTable[pathId]?).isSome ∧ env.outcome = .sent then
    { d with pathProbePending := d.pathProbePending.insert nonce (dest, pathId, env.now) }
  else d

def pollPathProbeTimeouts (d : MeshData σ) (now : ℕ) : MeshData σ :=
  let expired := d.pathProbePending.filter fun _ p => pathProbeTimeout < now - p.2.2
  expired.toList.foldl (fun d p => d.pathMiss p.2.2.1)
    { d with pathProbePending :=
      d.pathProbePending.filter fun _ p => ¬ pathProbeTimeout < now - p.2.2 }

variable (N : Snow σ) (C : Crypto)

def rekeySessions (d : MeshData σ) (now : ℕ) : MeshData σ :=
  { d with sessions := d.sessions.map fun _ s => s.rekey C now }

def perform (d : MeshData σ) (env : CallEnv) : MeshCall → Option IncomingEvent × MeshData σ
  | .frame bytes =>
    let r := d.handleFrame N C bytes env
    (some r.event, r.node)
  | .initiateHandshake peer => (none, (d.initiateHandshake N C peer env).2)
  | .dropInitiator peer => (none, d.dropInitiator peer)
  | .dropSession peer => (none, d.dropSession peer)
  | .rekeySessions => (none, d.rekeySessions C env.now)
  | .buildDataFrame dest payload flowHash =>
    (none, (d.buildDataFrame C dest payload flowHash env.nowUnix).2)
  | .buildHeartbeatFrame dest => (none, (d.buildHeartbeatFrame C dest).2)
  | .buildBroadcastFrame payload => (none, (d.buildBroadcastFrame C payload).2)
  | .sendToNode dest => (none, (d.sendFrame dest env).2)
  | .pathMissPeer dest => (none, d.pathMissPeer dest)
  | .sendPathProbe dest pathId nonce => (none, d.sendPathProbe dest pathId nonce env)
  | .pollPathProbeTimeouts => (none, d.pollPathProbeTimeouts env.now)
  | .update u => (none, d.applyUpdate u)

end MeshData

end Rill
