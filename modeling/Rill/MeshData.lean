import Rill.Handshake
import Rill.Table

/-!
# The data plane of a node: state, path choice and frame building

`MeshData` keeps the tables of `rill-mesh/src/data/mod.rs` that decide which frames a node
builds, accepts and answers. Sockets, endpoint tables and telemetry counters are not part of it;
what they contribute to a call enters as an argument: the outcome of a send, the neighbour a
datagram came from, the clock, and the random bytes the call draws.
-/

namespace Rill

structure PathEntry where
  pathId : UInt64
  pathEpoch : UInt32
  hops : List UInt32
  expiresAt : UInt64
  deriving DecidableEq

def PathEntry.expired (p : PathEntry) (nowUnix : UInt64) : Bool :=
  p.expiresAt != 0 && p.expiresAt < nowUnix

structure PathStat where
  frames : UInt64 := 0
  gapMissing : UInt64 := 0
  reorder : UInt64 := 0
  lossEwmaPermille : UInt32 := 0
  rttMs : UInt32 := 0
  lastSeq : Option UInt32 := none
  deriving DecidableEq

structure BindingClaim where
  staticPubkey : Bytes
  binding : Bytes
  anchor : UInt64 × UInt64
  deriving DecidableEq

abbrev BindingVerifier := UInt32 → Bytes → Bytes → UInt64 → UInt64 → Bool

structure MeshData (σ : Type) where
  selfNodeId : UInt32
  keyDstTable : Table UInt32 Bytes := ∅
  keyPathTable : Table UInt64 Bytes := ∅
  pathTable : Table UInt32 (List PathEntry) := ∅
  forwardPaths : Table UInt64 PathEntry := ∅
  pathHealth : Table UInt64 UInt32 := ∅
  pathStats : Table (UInt32 × UInt64) PathStat := ∅
  pathProbePending : Table UInt32 (UInt32 × UInt64 × ℕ) := ∅
  ingressHop : Table UInt32 UInt32 := ∅
  lastSentPath : Table UInt32 UInt64 := ∅
  ctx : Option HandshakeContext := none
  peerStatics : Table UInt32 Bytes := ∅
  bindingVerifier : Option BindingVerifier := none
  bindingClaims : Table UInt32 BindingClaim := ∅
  initiators : Table UInt32 (HandshakeInitiator σ) := ∅
  responders : Table UInt32 (HandshakeResponder σ) := ∅
  sessions : Table UInt32 Session := ∅
  broadcastKey : Option Bytes := none
  broadcastSeq : UInt32 := 0
  broadcastReplay : Table UInt32 ReplayWindow := ∅
  floodSeen : Table (UInt32 × UInt32) ℕ := ∅

inductive DropReason where
  | badVersion
  | badRouteMac
  | ttlExpired
  | noEndpoint
  | noKeyDst
  | short
  | noSession
  | aead
  | replay
  | unsupportedType
  | duplicate
  | rateLimited
  deriving DecidableEq

inductive SendError where
  | noSession
  | noKeyDst
  | noContext
  | noPeerBinding
  | handshake (e : HandshakeError)
  | aead
  deriving DecidableEq

/-- How an attempt to send to the endpoints of a hop ends. -/
inductive SendOutcome where
  | sent
  | failed
  | noEndpoint
  deriving DecidableEq

def pathHealthMissLimit : UInt32 := 3

def saturatingSucc32 (x : UInt32) : UInt32 := if x = 0xFFFFFFFF then x else x + 1

def saturatingAdd64 (x y : UInt64) : UInt64 := if x + y < x then 0xFFFFFFFFFFFFFFFF else x + y

namespace MeshData
variable {σ : Type}

/-- A stable sort by a numeric key. -/
def sortByKey {α : Type} (key : α → UInt32) (l : List α) : List α :=
  l.insertionSort fun a b => key a ≤ key b

def setBroadcastKey (d : MeshData σ) (key : Bytes) : MeshData σ :=
  { d with broadcastKey := some key, broadcastReplay := ∅, floodSeen := ∅ }

def dropSession (d : MeshData σ) (peer : UInt32) : MeshData σ :=
  { d with sessions := d.sessions.erase peer }

def dropInitiator (d : MeshData σ) (peer : UInt32) : MeshData σ :=
  { d with initiators := d.initiators.erase peer }

def missOf (d : MeshData σ) (p : PathEntry) : UInt32 := d.pathHealth[p.pathId]?.getD 0

def lossOf (d : MeshData σ) (dest : UInt32) (p : PathEntry) : UInt32 :=
  (d.pathStats[(dest, p.pathId)]?.map PathStat.lossEwmaPermille).getD 0

def livePaths (d : MeshData σ) (dest : UInt32) (nowUnix : UInt64) : List PathEntry :=
  (d.pathTable[dest]?.getD []).filter fun p =>
    !p.expired nowUnix && (d.keyPathTable[p.pathId]?).isSome

def pathPool (d : MeshData σ) (dest : UInt32) (nowUnix : UInt64) : List PathEntry :=
  let live := d.livePaths dest nowUnix
  let healthy := sortByKey (d.lossOf dest) (live.filter fun p => d.missOf p < pathHealthMissLimit)
  if healthy.isEmpty then sortByKey d.missOf live else healthy

def pickPath (d : MeshData σ) (dest : UInt32) (flowHash nowUnix : UInt64) :
    Option PathEntry × MeshData σ :=
  let pool := d.pathPool dest nowUnix
  match pool[flowHash.toNat % pool.length]? with
  | none => (none, d)
  | some chosen => (some chosen, { d with lastSentPath := d.lastSentPath.insert dest chosen.pathId })

def pathMiss (d : MeshData σ) (pathId : UInt64) : MeshData σ :=
  { d with pathHealth :=
    d.pathHealth.insert pathId (saturatingSucc32 (d.pathHealth[pathId]?.getD 0)) }

def pathOk (d : MeshData σ) (pathId : UInt64) : MeshData σ :=
  { d with pathHealth := d.pathHealth.insert pathId 0 }

def pathMissOf (d : MeshData σ) : Option UInt64 → MeshData σ
  | some pathId => d.pathMiss pathId
  | none => d

def pathMissPeer (d : MeshData σ) (dest : UInt32) : MeshData σ :=
  (d.pathMissOf ((d.pathTable[dest]?.getD []).head?.map PathEntry.pathId)).pathMissOf
    d.lastSentPath[dest]?

def applyIngressHealth (d : MeshData σ) (source : UInt32) : MeshData σ :=
  match d.ingressHop[source]? with
  | none => d
  | some ingress =>
    (d.pathTable[source]?.getD []).foldl (fun d p =>
      if p.hops.head?.getD source = ingress then d.pathOk p.pathId else d.pathMiss p.pathId) d

def notePathFrame (d : MeshData σ) (peer : UInt32) (pathId : UInt64) (seq : UInt32) : MeshData σ :=
  let st := d.pathStats[(peer, pathId)]?.getD {}
  let st := match st.lastSeq with
    | none => st
    | some last =>
      let diff := seq - last
      if 1 < diff ∧ diff < 0x80000000 then
        { st with gapMissing := saturatingAdd64 st.gapMissing (diff - 1).toUInt64 }
      else if 0x80000000 ≤ diff then { st with reorder := saturatingAdd64 st.reorder 1 }
      else st
  let st := { st with lastSeq := some seq, frames := saturatingAdd64 st.frames 1 }
  { d with pathStats := d.pathStats.insert (peer, pathId) st }

/-- `send_to_node_hop`: a failed send counts against the paths to the destination. -/
def sendToNodeHop (d : MeshData σ) (dest : UInt32) (outcome : SendOutcome) : Bool × MeshData σ :=
  match outcome with
  | .sent => (true, d)
  | .failed => (false, d.pathMissPeer dest)
  | .noEndpoint => (false, d)

def routeKey (d : MeshData σ) (dest : UInt32) (pathId : UInt64) : Option Bytes :=
  if pathId ≠ pathIdDefault then d.keyPathTable[pathId]? else d.keyDstTable[dest]?

variable (C : Crypto)

def buildTypedFrame (d : MeshData σ) (dest : UInt32) (pathId : UInt64) (packetType : UInt8)
    (payload : Bytes) : Except SendError Bytes × MeshData σ :=
  match d.sessions[dest]? with
  | none => (.error .noSession, d)
  | some session =>
    match d.routeKey dest pathId with
    | none => (.error .noKeyDst, d)
    | some routeKey =>
      let (seq, session) := session.nextSeq
      let header : MeshFrameHeader :=
        { packetType := packetType, toNodeId := dest, fromNodeId := d.selfNodeId, seq := seq,
          pathId := pathId }
      let frame := C.buildFrame header routeKey session.keys.txKey session.keys.salt payload
      (frame.mapError fun _ => .aead, { d with sessions := d.sessions.insert dest session })

def buildDataFrame (d : MeshData σ) (dest : UInt32) (payload : Bytes) (flowHash nowUnix : UInt64) :
    Except SendError (Bytes × Option UInt32) × MeshData σ :=
  let (path, d) := d.pickPath dest flowHash nowUnix
  let pathId := (path.map PathEntry.pathId).getD pathIdDefault
  let (frame, d) := d.buildTypedFrame C dest pathId PacketType.unicast payload
  (frame.map fun f => (f, path.bind fun p => p.hops.head?), d)

def buildHeartbeatFrame (d : MeshData σ) (dest : UInt32) : Except SendError Bytes × MeshData σ :=
  d.buildTypedFrame C dest pathIdDefault PacketType.heartbeat []

def buildBroadcastFrame (d : MeshData σ) (payload : Bytes) : Except SendError Bytes × MeshData σ :=
  match d.broadcastKey with
  | none => (.error .noKeyDst, d)
  | some bkey =>
    let seq := d.broadcastSeq
    let header : MeshFrameHeader :=
      { packetType := PacketType.broadcast, toNodeId := broadcastNodeId, fromNodeId := d.selfNodeId,
        seq := seq }
    ((C.buildFrame header bkey bkey 0 payload).mapError fun _ => .aead,
      { d with broadcastSeq := seq + 1 })

def buildHandshakeFrame (d : MeshData σ) (dest : UInt32) (payload : Bytes) : Except SendError Bytes :=
  match d.keyDstTable[dest]? with
  | none => .error .noKeyDst
  | some keyDst =>
    .ok (C.buildHandshakeFrame { toNodeId := dest, fromNodeId := d.selfNodeId } keyDst payload)

variable {C}

theorem isOk_mapError {ε ε' α : Type} (f : ε → ε') (r : Except ε α) : (r.mapError f).isOk = r.isOk := by
  cases r <;> rfl

theorem isOk_map {ε α β : Type} (f : α → β) (r : Except ε α) : (r.map f).isOk = r.isOk := by
  cases r <;> rfl

theorem isOk_buildFrame {maxLen : ℕ} (hC : C.Lawful maxLen) (h : MeshFrameHeader)
    (keyDst key : Bytes) (salt : UInt32) (payload : Bytes) :
    (C.buildFrame h keyDst key salt payload).isOk = decide (payload.length ≤ maxLen) := by
  have hiff := Crypto.buildFrame_isOk_iff hC h keyDst key salt payload
  cases hb : C.buildFrame h keyDst key salt payload with
  | error e => simpa [Except.isOk, Except.toBool, hb] using hiff
  | ok f => simpa [Except.isOk, Except.toBool, hb] using hiff

end MeshData

end Rill
