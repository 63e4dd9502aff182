import Rill.ControlMessages
import Rill.Interaction
import Rill.RegistryEffects

/-!
# The control server

`rill-mesh/src/control/server.rs`. The handling of one message is a program over `ServerCall`: a
call is one access to the coordinator, to the state of the connection or of the server, one message
written, or one look at the surroundings. `handleMessage` runs under the lock of the server, but
commands of the cluster and revocations through the status endpoint reach the coordinator between
any two calls. Counters for log lines and the texts of errors are left out.
-/

namespace Rill

open Interaction (Program)
open Interaction.Program (ensure)

structure PendingRegister where
  authKey : Text
  capabilities : UInt32
  routes : List Text
  protocolVersion : UInt32
  version : Text
  resume : Bool := false

structure ChallengeState where
  ephPriv : Key32
  nonce : Vector UInt8 16
  issuedAt : UInt64
  nodeId : UInt32
  pubkey : Key32
  pending : PendingRegister

def ChallengeState.message (L : ServerCrates) (ch : ChallengeState) : Challenge where
  ephPub := L.x25519Public ch.ephPriv
  nonce := ch.nonce
  issuedAt := ch.issuedAt
  nodeId := ch.nodeId

structure ConnectionState where
  registered : Option UInt32 := none
  challenge : Option ChallengeState := none
  lastHeartbeat : Option ℕ := none

/-- Durations and instants in nanoseconds. -/
def seconds (n : ℕ) : ℕ := n * 1000000000

def registerLockoutFails : UInt32 := 5

def registerLockoutBase : ℕ := seconds 30

def registerLockoutMax : ℕ := seconds 3600

structure CoordinatorServer where
  coordinator : Coordinator
  registerLockout : List (IpAddr × (UInt32 × ℕ)) := []
  heartbeatMinInterval : ℕ := seconds 5
  dropFirstRegisterResponse : Bool := false

namespace CoordinatorServer
variable (s : CoordinatorServer)

def registerLocked (ip : IpAddr) (now : ℕ) : Bool :=
  (s.registerLockout.lookup ip).any fun e => now < e.2

def clearLockout (ip : IpAddr) : CoordinatorServer :=
  { s with registerLockout := s.registerLockout.filter fun e => e.1 != ip }

def noteRegisterFailure (ip : IpAddr) (now : ℕ) : CoordinatorServer :=
  let fails : UInt32 :=
    (s.registerLockout.lookup ip).elim 1 fun e => if e.1 = 0xFFFFFFFF then e.1 else e.1 + 1
  let till :=
    if registerLockoutFails ≤ fails then
      let shift := min (fails - registerLockoutFails).toNat 7
      now + min (registerLockoutBase * 2 ^ shift) registerLockoutMax
    else now
  { s.clearLockout ip with
    registerLockout := (ip, (fails, till)) :: (s.clearLockout ip).registerLockout }

end CoordinatorServer

structure ControlState where
  server : CoordinatorServer
  connections : Table ℕ ConnectionState := ∅
  accepted : ℕ := 0

namespace ControlState
variable (s : ControlState)

def coordinator : Coordinator := s.server.coordinator

def connection (k : ℕ) : ConnectionState := (s.connections[k]?).getD {}

def registered (k : ℕ) : Option UInt32 := (s.connection k).registered

def withCoordinator (c : Coordinator) : ControlState :=
  { s with server := { s.server with coordinator := c } }

def updateConnection (k : ℕ) (f : ConnectionState → ConnectionState) : ControlState :=
  { s with connections := s.connections.insert k (f (s.connection k)) }

end ControlState

inductive Leadership where
  | leader
  | follower (leaderEndpoint : Option Text) (term : UInt64)

/-- Why a proposal is not applied as far as its proposer knows. -/
inductive WriteFault where
  | forward
  | raft

inductive ServerError where
  | rateExceeded
  | registerLocked
  | registerRateLimited
  | malformed
  | protocolMismatch
  | pubkeyLength
  | invalidAuthKey
  | unexpectedChallengeAck
  | unknownNode
  | challengePubkeyMismatch
  | challengeFailed
  | registrationChanged
  | bindingMissing
  | registration (e : RegisterError)
  | raftUnavailable
  | responseDropped
  | unregistered
  | badRoutePrefix
  | closed

inductive ServerCall where
  | takeToken
  | peerIp
  | registerLocked (ip : IpAddr)
  | allowRegister (ip : IpAddr)
  | noteRegisterFailure (ip : IpAddr)
  | clearLockout (ip : IpAddr)
  | takeDropFlag
  | connection
  | setChallenge (ch : Option ChallengeState)
  | setRegistered (nodeId : UInt32)
  | acceptHeartbeat
  | write (msg : ServerMessage)
  | unixSeconds
  | random
  | leadership
  | appliedIndex
  | replicaEndpoints
  | read (q : CoordQuery)
  | heartbeat (nodeId : UInt32)
  | setProtocolVersion (nodeId version : UInt32)
  | setBuildVersion (nodeId : UInt32) (version : Text)
  | storeTelemetry (nodeId : UInt32) (view : TelemetryView)
  | applyRouteSync (nodeId : UInt32) (announced : List (Prefix × Text)) (withdrawn : List Prefix)
  | takePathEvents (source : UInt32)
  | takeRouteMapPush (nodeId : UInt32)
  | propose (cmd : CoordCommand)

@[reducible] def ServerCall.Reply : ServerCall → Type
  | .takeToken => Bool
  | .peerIp => Option IpAddr
  | .registerLocked _ => Bool
  | .allowRegister _ => Bool
  | .noteRegisterFailure _ => Unit
  | .clearLockout _ => Unit
  | .takeDropFlag => Bool
  | .connection => ConnectionState
  | .setChallenge _ => Unit
  | .setRegistered _ => Unit
  | .acceptHeartbeat => Bool
  | .write _ => Bool
  | .unixSeconds => UInt64
  | .random => Key32 × Vector UInt8 16
  | .leadership => Leadership
  | .appliedIndex => UInt64
  | .replicaEndpoints => List Text
  | .read q => q.Answer
  | .heartbeat _ => Unit
  | .setProtocolVersion _ _ => Unit
  | .setBuildVersion _ _ => Unit
  | .storeTelemetry _ _ => Unit
  | .applyRouteSync _ _ _ => Unit
  | .takePathEvents _ => List PathEvent
  | .takeRouteMapPush _ => Option (UInt64 × List RouteMapSnapshotEntry)
  | .propose _ => Except WriteFault CoordCommandResult

abbrev Handler (α : Type) := Program ServerCall ServerCall.Reply ServerError α

/-! ## Handling a message -/

namespace Handler

abbrev ask (call : ServerCall) : Handler call.Reply := Program.perform call

def writeMsg (msg : ServerMessage) : Handler Unit := do
  let ok ← ask (.write msg)
  ensure ok .closed

def writeLeaderRedirect : Leadership → Handler Unit
  | .leader => pure ()
  | .follower leaderEndpoint term => writeMsg (.leaderRedirect (leaderEndpoint.getD []) term)

/-- The redirect after a proposal that has to go to another replica. -/
def redirect : Handler Unit := do
  let leadership ← ask .leadership
  writeLeaderRedirect leadership

def pushKeyDist (nodeId : UInt32) : Handler Unit := do
  let data ← ask (.read (.keyDist nodeId))
  match data with
  | some data => writeMsg (.keyDist data.message)
  | none => pure ()

def pushSnapshot (networkId : UInt32) : Handler Unit := do
  let replicas ← ask .replicaEndpoints
  let push ← ask (.read (.netmapPush networkId replicas))
  writeMsg (.netmapPush push)
  let nodeIds ← ask (.read (.netmapIds networkId))
  Program.each pushKeyDist nodeIds

def candidatePath (source : UInt32) (p : PathCandidate) : Handler CandidatePath := do
  let keyPath ← ask (.read (.keyPathFor source p.pathId p.pathEpoch))
  pure { pathId := p.pathId, pathEpoch := p.pathEpoch, hops := p.hops, expiresAt := p.expiresAt
         keyPath }

def pushPathEvent : PathEvent → Handler Unit
  | .update source dest set => do
    let candidates ← Program.collect (candidatePath source) set.candidates
    writeMsg (.pathUpdate
      { destinationNodeId := dest, candidates, pathVersion := set.version, sourceNodeId := source })
  | .withdraw dest pathId => writeMsg (.pathWithdraw dest pathId 0)

def pushPathEvents (source : UInt32) : Handler Unit := do
  let events ← ask (.takePathEvents source)
  Program.each pushPathEvent events

def pushRouteMap (node : UInt32) : Handler Unit := do
  let push ← ask (.takeRouteMapPush node)
  match push with
  | some (version, entries) => writeMsg (.routeMap version entries)
  | none => pure ()

def noteFailure : Option IpAddr → Handler Unit
  | some ip => ask (.noteRegisterFailure ip)
  | none => pure ()

def clearFailures : Option IpAddr → Handler Unit
  | some ip => ask (.clearLockout ip)
  | none => pure ()

/-- The gates a registration passes before it is read. -/
def admitRegister : Option IpAddr → Handler Unit
  | some ip => do
    let locked ← ask (.registerLocked ip)
    ensure (!locked) .registerLocked
    let allowed ← ask (.allowRegister ip)
    ensure allowed .registerRateLimited
  | none => pure ()

def issueChallenge (L : ServerCrates) (nodeId : UInt32) (pubkey : Key32)
    (pending : PendingRegister) : Handler Unit := do
  let (ephPriv, nonce) ← ask .random
  let issuedAt ← ask .unixSeconds
  let ch : ChallengeState := { ephPriv, nonce, issuedAt, nodeId, pubkey, pending }
  writeMsg (.challenge (ch.message L))
  ask (.setChallenge (some ch))

def toKey32 (b : Bytes) : Option Key32 :=
  if h : b.toArray.size = 32 then some ⟨b.toArray, h⟩ else none

/-- The key is known: the node resumes. It is not: its auth key is checked, and nothing of it
consumed, before the challenge. -/
def classify (L : ServerCrates) (ip : Option IpAddr) (pubkey : Key32) (pending : PendingRegister) :
    Handler Unit := do
  let known ← ask (.read (.nodeIdByPubkey pubkey))
  match known with
  | some nodeId => issueChallenge L nodeId pubkey { pending with resume := true }
  | none => do
    let admissible ← ask (.read (.authKeyAdmissible pending.authKey))
    if admissible then issueChallenge L 0 pubkey pending
    else do
      noteFailure ip
      throw .invalidAuthKey

def readRegister (L : ServerCrates) (ip : Option IpAddr) : Option RegisterRequest → Handler Unit
  | none => throw .malformed
  | some req => do
    ensure (req.protocolVersion == protocolVersion) .protocolMismatch
    match toKey32 req.staticPubkey with
    | none => throw .pubkeyLength
    | some pubkey =>
      classify L ip pubkey
        { authKey := req.authKey, capabilities := req.capabilities, routes := req.announced
          protocolVersion := req.protocolVersion, version := req.version }

def handleRegister (L : ServerCrates) (ip : Option IpAddr) (req : Option RegisterRequest) :
    Handler Unit := do
  let leadership ← ask .leadership
  match leadership with
  | .follower leaderEndpoint term => writeLeaderRedirect (.follower leaderEndpoint term)
  | .leader => do
    admitRegister ip
    readRegister L ip req

/-- A node that resumes must still be there with the key of the challenge. -/
def checkResumed (ch : ChallengeState) : Handler Unit :=
  if ch.pending.resume then do
    let entryPub ← ask (.read (.staticPubkeyOf ch.nodeId))
    match entryPub with
    | none => throw .unknownNode
    | some entryPub => ensure (entryPub == ch.pubkey) .challengePubkeyMismatch
  else pure ()

/-- The clock is read only for a tag that is right. -/
def verifyChallenge (L : ServerCrates) (ch : ChallengeState) (tag : Bytes) : Handler Unit := do
  ensure (verifyTag L ch.pubkey ch.ephPriv ch.nonce ch.nodeId tag) .challengeFailed
  let now ← ask .unixSeconds
  ensure (withinWindow ch.issuedAt now 30) .challengeFailed

def setVersions (nodeId protocolVersion : UInt32) (version : Text) : Handler Unit := do
  ask (.setProtocolVersion nodeId protocolVersion)
  if version.isEmpty then pure () else ask (.setBuildVersion nodeId version)

def completeResume (ch : ChallengeState) : Handler Unit := do
  let same ← ask (.read (.resumeMatches ch.nodeId ch.pending.capabilities ch.pending.routes))
  ensure same .registrationChanged
  ask (.setRegistered ch.nodeId)
  ask (.heartbeat ch.nodeId)
  setVersions ch.nodeId ch.pending.protocolVersion ch.pending.version
  let networkId ← ask (.read (.networkIdOf ch.nodeId))
  let binding ← ask (.read (.bindingOf ch.nodeId))
  match binding with
  | none => throw .bindingMissing
  | some (identityBinding, bindingLogId) => do
    writeMsg (.registerResponse
      { nodeId := ch.nodeId, networkId := networkId.getD 0, identityBinding, bindingLogId })
    pushSnapshot (networkId.getD 0)

def completeAdmitted (ip : Option IpAddr) (ch : ChallengeState) (data : RegisterData) :
    Handler Unit := do
  clearFailures ip
  setVersions data.nodeId ch.pending.protocolVersion ch.pending.version
  let drop ← ask .takeDropFlag
  ensure (!drop) .responseDropped
  ask (.setRegistered data.nodeId)
  ask (.heartbeat data.nodeId)
  writeMsg (.registerResponse data)
  let networkId ← ask (.read (.networkIdOf data.nodeId))
  pushSnapshot (networkId.getD 0)

def completeRegister (ip : Option IpAddr) (ch : ChallengeState) : Handler Unit := do
  let now ← ask .unixSeconds
  let result ← ask (.propose
    (.register ch.pending.authKey ch.pubkey ch.pending.capabilities ch.pending.routes now))
  match result with
  | .ok (.register (.ok data)) => completeAdmitted ip ch data
  | .ok (.register (.error e)) => do
    noteFailure ip
    throw (.registration e)
  | .error .forward => redirect
  | _ => do
    noteFailure ip
    throw .raftUnavailable

def handleChallengeAck (L : ServerCrates) (ip : Option IpAddr) : Option Bytes → Handler Unit
  | none => throw .malformed
  | some tag => do
    let connection ← ask .connection
    match connection.challenge with
    | none => throw .unexpectedChallengeAck
    | some ch => do
      checkResumed ch
      verifyChallenge L ch tag
      ask (.setChallenge none)
      if ch.pending.resume then completeResume ch else completeRegister ip ch

/-- What follows a heartbeat that is not too early. -/
def heartbeatExchange (nodeId : UInt32) : Handler Unit := do
  ask (.heartbeat nodeId)
  let networkId ← ask (.read (.networkIdOf nodeId))
  pushSnapshot (networkId.getD 0)
  pushPathEvents nodeId
  pushRouteMap nodeId
  let now ← ask .unixSeconds
  writeMsg (.lease true (now + 60))

def storeTelemetry (nodeId : UInt32) : Option TelemetryView → Handler Unit
  | some view => ask (.storeTelemetry nodeId view)
  | none => pure ()

def handleHeartbeat : Option (Option TelemetryView) → Handler Unit
  | none => throw .malformed
  | some telemetry => do
    let connection ← ask .connection
    match connection.registered with
    | none => pure ()
    | some nodeId => do
      let leadership ← ask .leadership
      match leadership with
      | .follower leaderEndpoint term => writeLeaderRedirect (.follower leaderEndpoint term)
      | .leader => do
        storeTelemetry nodeId telemetry
        let accepted ← ask .acceptHeartbeat
        if accepted then heartbeatExchange nodeId else pure ()

def handleAuditRequest : Option AuditRequest → Handler Unit
  | none => throw .malformed
  | some req => do
    let applied ← ask .appliedIndex
    match toKey32 req.staticPubkey, req.binding.length == 64 with
    | some pubkey, true => do
      let verdict ← ask (.read (.auditBinding req.nodeId pubkey req.binding
        (req.raftLogIndex, req.raftTerm) applied))
      writeMsg (.auditResponse verdict applied)
    | _, _ => writeMsg (.auditResponse .unknown applied)

/-- A proposal whose outcome is not reported, except that it has to go elsewhere. -/
def proposeOrRedirect (cmd : CoordCommand) : Handler Unit := do
  let result ← ask (.propose cmd)
  match result with
  | .error .forward => redirect
  | _ => pure ()

def handlePathRequest : Option (UInt32 × UInt32) → Handler Unit
  | none => throw .malformed
  | some (dest, max) => do
    let connection ← ask .connection
    match connection.registered with
    | none => throw .unregistered
    | some source => do
      let now ← ask .unixSeconds
      proposeOrRedirect (.requestPaths source dest max now)

def handleEndpointReport : Option (List Text × List Text) → Handler Unit
  | none => throw .malformed
  | some (localAddrs, seen) => do
    let connection ← ask .connection
    match connection.registered with
    | none => pure ()
    | some nodeId =>
      if localAddrs.isEmpty && seen.isEmpty then pure ()
      else proposeOrRedirect (.setEndpoints nodeId localAddrs seen)

def handleRouteSync (L : ServerCrates) : Option (List (Text × Text) × List Text) → Handler Unit
  | none => throw .malformed
  | some (announced, withdrawn) => do
    let connection ← ask .connection
    match connection.registered with
    | none => throw .unregistered
    | some nodeId => do
      let leadership ← ask .leadership
      match leadership with
      | .follower leaderEndpoint term => writeLeaderRedirect (.follower leaderEndpoint term)
      | .leader =>
        match announced.mapM fun a => (Prefix.parse L.parseIp a.1).map fun p => (p, a.2),
            withdrawn.mapM (Prefix.parse L.parseIp) with
        | some announced, some withdrawn => ask (.applyRouteSync nodeId announced withdrawn)
        | _, _ => throw .badRoutePrefix

def handleMessage (L : ServerCrates) (msg : ClientMessage) : Handler Unit := do
  let token ← ask .takeToken
  ensure token .rateExceeded
  let ip ← ask .peerIp
  match msg with
  | .register req => handleRegister L ip req
  | .challengeAck tag => handleChallengeAck L ip tag
  | .heartbeat telemetry => handleHeartbeat telemetry
  | .auditRequest req => handleAuditRequest req
  | .pathRequest req => handlePathRequest req
  | .endpointReport report => handleEndpointReport report
  | .routeSync sync => handleRouteSync L sync
  | .other => pure ()

end Handler

/-! ## What a call does -/

/-- What the surroundings of a call add to it. -/
structure Surroundings where
  order : IterOrder
  clock : UInt64 := 0
  instant : ℕ := 0
  allows : Bool := true
  peer : Option IpAddr := none
  ephPriv : Key32 := .replicate 32 0
  nonce : Vector UInt8 16 := .replicate 16 0
  delivers : Bool := true
  leadership : Leadership := .leader
  applied : UInt64 := 0
  replicas : List Text := []
  fault : Option WriteFault := none
  logId : LogId := ⟨0, 0⟩

namespace ControlState
variable (s : ControlState) (L : ServerCrates) (env : Surroundings)

def updateServer (f : CoordinatorServer → CoordinatorServer) : ControlState :=
  { s with server := f s.server }

def runLocal (op : LocalOp) : ControlState :=
  s.withCoordinator (s.coordinator.runLocal L.toCrates env.order op)

/-- A heartbeat that comes too soon after the last one is ignored. -/
def acceptHeartbeat (k : ℕ) : Bool × ControlState :=
  if (s.connection k).lastHeartbeat.any fun last =>
      env.instant - last < s.server.heartbeatMinInterval then (false, s)
  else (true, s.updateConnection k fun c => { c with lastHeartbeat := some env.instant })

/-- A proposal is applied here, or fails; one that fails may still be applied later, as a command
of others. -/
def propose (cmd : CoordCommand) :
    Option (Except WriteFault CoordCommandResult × ControlState) :=
  match env.fault with
  | some fault => some (.error fault, s)
  | none =>
    (s.coordinator.applyCommand L.toCrates env.order cmd env.logId).map fun (r, c) =>
      (.ok r, s.withCoordinator c)

def exec (k : ℕ) : (call : ServerCall) → Option (call.Reply × ControlState)
  | .takeToken => some (env.allows, s)
  | .peerIp => some (env.peer, s)
  | .registerLocked ip => some (s.server.registerLocked ip env.instant, s)
  | .allowRegister _ => some (env.allows, s)
  | .noteRegisterFailure ip => some ((), s.updateServer (·.noteRegisterFailure ip env.instant))
  | .clearLockout ip => some ((), s.updateServer (·.clearLockout ip))
  | .takeDropFlag =>
    some (s.server.dropFirstRegisterResponse,
      s.updateServer ({ · with dropFirstRegisterResponse := false }))
  | .connection => some (s.connection k, s)
  | .setChallenge ch => some ((), s.updateConnection k ({ · with challenge := ch }))
  | .setRegistered nodeId => some ((), s.updateConnection k ({ · with registered := some nodeId }))
  | .acceptHeartbeat => some (s.acceptHeartbeat env k)
  | .write _ => some (env.delivers, s)
  | .unixSeconds => some (env.clock, s)
  | .random => some ((env.ephPriv, env.nonce), s)
  | .leadership => some (env.leadership, s)
  | .appliedIndex => some (env.applied, s)
  | .replicaEndpoints => some (env.replicas, s)
  | .read q => some (s.coordinator.answer L env.order env.clock q, s)
  | .heartbeat nodeId => some ((), s.runLocal L env (.heartbeat nodeId env.clock))
  | .setProtocolVersion nodeId version =>
    some ((), s.runLocal L env (.setProtocolVersion nodeId version))
  | .setBuildVersion nodeId version => some ((), s.runLocal L env (.setBuildVersion nodeId version))
  | .storeTelemetry nodeId view =>
    some ((), s.runLocal L env (.storeTelemetry nodeId view env.clock))
  | .applyRouteSync nodeId announced withdrawn =>
    some ((), s.runLocal L env (.applyRouteSync nodeId announced withdrawn env.clock))
  | .takePathEvents source =>
    some ((s.coordinator.takePathEvents source).1, s.runLocal L env (.takePathEvents source))
  | .takeRouteMapPush nodeId =>
    some ((s.coordinator.takeRouteMapPush L.toCrates env.order nodeId).1,
      s.runLocal L env (.takeRouteMapPush nodeId))
  | .propose cmd => s.propose L env cmd

end ControlState

/-- What happens besides the handling of messages: a connection is accepted, or somebody else
operates on the coordinator. -/
inductive OutsideStep where
  | accept
  | operate (o : IterOrder) (op : CoordOp)

/-- The operations that reach the coordinator from elsewhere. Configuration changes and relay
measurements take the lock of the server first. -/
def CoordOp.byOthers (locked : Bool) : CoordOp → Bool
  | .command _ _ => true
  | .unlogged (.resetLivenessOnTakeover _) => true
  | .unlogged (.recordRelayRttRound _ _) => !locked
  | .unlogged _ => false
  | .configure _ => !locked

abbrev ControlService := Interaction.Service ServerCall ServerCall.Reply ServerError ControlState ℕ
  Surroundings ClientMessage OutsideStep

abbrev ControlWorld := Interaction.World ServerCall ServerCall.Reply ControlState ℕ ClientMessage
  OutsideStep

abbrev ControlSystem := Interaction.State ServerCall ServerCall.Reply ServerError ControlState ℕ
  ClientMessage OutsideStep

abbrev ControlAct := Interaction.Act ℕ Surroundings ClientMessage OutsideStep

/-- The connections of a coordinator server. A handler that fails ends its connection. -/
def controlService (L : ServerCrates) : ControlService where
  exec k env s call := s.exec L env k call
  ready k s := (s.connections[k]?).isSome
  handler := Handler.handleMessage L
  finish k e s := if e.isSome then { s with connections := s.connections.erase k } else s
  outside locked s
    | .accept =>
      some { s with
        connections := s.connections.insert s.accepted {}
        accepted := s.accepted + 1 }
    | .operate o op =>
      if op.byOthers locked then (s.coordinator.perform L.toCrates (o, op)).map s.withCoordinator
      else none

def ControlSystem.init (c : Coordinator) : ControlSystem :=
  { world := { store := { server := { coordinator := c } } } }

end Rill
