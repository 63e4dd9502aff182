import Rill.Node

/-!
# A node: what it does with the frames it receives

The event of a received frame passes `handleMeshEvent`; a payload that comes out is forwarded to
another leg by `forwardTransit` or else written to the LAN by `writeLan` (`runtime/mod.rs` and
`runtime/lan.rs`). The legs run in tasks of their own, so their state is part of the surroundings.
A panic is `none`.
-/

namespace Rill

structure Dn42Leg where
  name : Text
  established : Bool
  deriving DecidableEq

/-- The peers of the tailnet leg, and the sources they take packets from. -/
structure TailnetLeg where
  peers : List Text
  sources : List Prefix
  deriving DecidableEq

structure NodeEnv extends CallEnv where
  dn42Peers : List Dn42Leg := []
  ts2021 : Option TailnetLeg := none
  legAccepts : Bool := true

inductive TransitFrom where
  | mesh
  | dn42
  | tailnet
  deriving DecidableEq

inductive NodeOutput where
  | lan (packet : Bytes)
  | dn42 (peer : Text) (packet : Bytes)
  | tailnet (peer : Text) (packet : Bytes)
  | mesh (peer : UInt32) (frame : Bytes)
  deriving DecidableEq

def multicastRewriteGuard : ℕ := 2000000000

def TailnetLeg.anySource (checks : Bool) (addr : IpAddr) : List Prefix → Option Bool
  | [] => some false
  | p :: ps => do if ← p.matchesAddr checks addr then some true else anySource checks addr ps

def TailnetLeg.acceptsSource (checks : Bool) (leg : TailnetLeg) (src : IpAddr) : Option Bool :=
  anySource checks src leg.sources

/-- The predicate of the route lookups, on what a route leads over. -/
def NodeEnv.reachable (checks : Bool) (env : NodeEnv) (src : IpAddr) : RouteVia → Option Bool
  | .mesh _ => some true
  | .dn42 name => some ((env.dn42Peers.find? fun l => l.name == name).any Dn42Leg.established)
  | .tailnet id =>
    match env.ts2021 with
    | none => some false
    | some leg => if leg.peers.contains id then leg.acceptsSource checks src else some false
  | .direct _ => some true

def addrBytes : IpAddr → Bytes
  | .v4 octets => beBytes 4 octets.toNat
  | .v6 octets => beBytes 16 octets.toNat

def TransportProto.number : TransportProto → UInt64
  | .tcp => 6
  | .udp => 17
  | .icmp => 1
  | .icmpv6 => 58
  | .other v => v.toUInt64

def flowHash (info : PacketInfo) : UInt64 :=
  (addrBytes info.src ++ addrBytes info.dst).foldl
    (fun h b => (h ^^^ b.toUInt64) * 0x00000100000001b3) 0xcbf29ce484222325 ^^^ info.proto.number

namespace Node
variable {σ : Type} (N : Snow σ) (C : Crypto) (checks : Bool) (n : Node σ) (env : NodeEnv)

/-- From another leg into the mesh, over a session that exists. -/
def transitToMesh (peer : UInt32) (info : PacketInfo) (packet : Bytes) :
    Bool × List NodeOutput × Node σ :=
  if (n.mesh.sessions[peer]?).isNone then (false, [], n)
  else
    match n.mesh.buildDataFrame C peer packet (flowHash info) env.nowUnix with
    | (.error _, mesh) => (false, [], { n with mesh })
    | (.ok (frame, _), mesh) =>
      let r := mesh.sendToNodeHop peer env.outcome
      (r.1, if r.1 then [.mesh peer frame] else [], { n with mesh := r.2 })

/-- No edge leads out on the leg the packet came in on; the candidates are looked up once more for
the log. -/
def refuseTransit (info : PacketInfo) : Option (Bool × List NodeOutput × Node σ) :=
  (n.engine.matchesTable checks info.dst).map fun _ => (false, [], n)

/-- Whether the packet has been taken, what has left the node, and the node after the call. -/
def transitVia (via : RouteVia) (origin : TransitFrom) (info : PacketInfo) (packet : Bytes) :
    Option (Bool × List NodeOutput × Node σ) :=
  match via, origin with
  | .dn42 _, .dn42 => n.refuseTransit checks info
  | .dn42 name, _ =>
    match env.dn42Peers.find? fun l => l.name == name with
    | none => some (false, [], n)
    | some leg =>
      some (if env.legAccepts then (true, [.dn42 leg.name packet], n) else (false, [], n))
  | .mesh _, .mesh => n.refuseTransit checks info
  | .mesh peer, _ => some (n.transitToMesh C env peer info packet)
  | .tailnet id, .mesh =>
    match env.ts2021 with
    | none => some (false, [], n)
    | some _ => some (if env.legAccepts then (true, [.tailnet id packet], n) else (false, [], n))
  -- What came from the tailnet does not go back there.
  | .tailnet _, .tailnet => some (true, [], n)
  | .tailnet _, .dn42 => some (false, [], n)
  | .direct _, _ => some (false, [], n)

def forwardTransit (packet : Bytes) (origin : TransitFrom) :
    Option (Bool × List NodeOutput × Node σ) := do
  match ← parsePacket packet with
  | .error _ => some (false, [], n)
  | .ok info =>
    if info.dst.isMulticast then some (false, [], n)
    else
      match ← n.engine.lookupBest checks info.dst fun e => env.reachable checks info.src e.via with
      | none => some (false, [], n)
      | some entry => n.transitVia C checks env entry.via origin info packet

/-- The packet as it goes to the LAN: the segment size of a SYN is lowered. -/
def clampForLan (mtu : UInt16) (payload : Bytes) : Option Bytes := do
  if ← isTcpSyn payload then
    let (clamped, buf) ← clampMss payload (min mtu tunConservativeMtu)
    some (if clamped then buf else payload)
  else some payload

/-- Remembers a multicast packet that has been written, since the kernel sends it back. -/
def noteMulticastWrite (info : PacketInfo) : Node σ :=
  if info.dst.isMulticast then
    let key := (info.src, info.dst, info.totalLen)
    let kept := n.recentMulticastWrites.filter fun e =>
      e.1 != key && env.now - e.2 < multicastRewriteGuard
    { n with recentMulticastWrites := kept ++ [(key, env.now)] }
  else n

/-- `TunDevice::write_packet`: a packet that is too long for the device is not written. -/
def tunWrite (mtu : UInt16) (packet : Bytes) : List NodeOutput :=
  if mtu.toNat < packet.length then [] else [.lan packet]

def writeLan (payload : Bytes) : Option (List NodeOutput × Node σ) :=
  match n.tun with
  | none => some ([], n)
  | some mtu => do
    let payload ← clampForLan mtu payload
    match ← parsePacket payload with
    | .ok info => some (tunWrite mtu payload, n.noteMulticastWrite env info)
    | .error _ => some (tunWrite mtu payload, n)

def aclDeliver (source : UInt32) (payload : Bytes) : Option (Option Bytes) :=
  (n.acl.allowsPacket checks source payload).map fun allowed => if allowed then some payload else none

def heard (peer : UInt32) : Node σ := { n with peerHeartbeats := n.peerHeartbeats.insert peer 0 }

/-- The payload that goes on to the other legs and the LAN, if any. -/
def handleMeshEvent : IncomingEvent → Option (Option Bytes × Node σ)
  | .established peer => some (none, n.heard peer)
  | .data source payload => (n.aclDeliver checks source payload).map fun p => (p, n.heard source)
  | .broadcast source payload => some (some payload, n.heard source)
  | .heartbeat source => some (none, n.heard source)
  | .responded _ => some (none, n)
  | .rejected _ _ => some (none, n)
  | .relayed _ => some (none, n)
  | .pathProbeRtt _ _ _ => some (none, n)
  | .pathProbeServed _ => some (none, n)
  | .dropped _ => some (none, n)

/-- A payload from the mesh goes to another leg or else to the LAN. -/
def passOn (payload : Bytes) : Option (List NodeOutput × Node σ) := do
  let (taken, outputs, n) ← n.forwardTransit C checks env payload .mesh
  if taken then some (outputs, n)
  else
    let (written, n) ← n.writeLan env payload
    some (outputs ++ written, n)

def deliver (ev : IncomingEvent) : Option (List NodeOutput × Node σ) := do
  let (payload, n) ← n.handleMeshEvent checks ev
  match payload with
  | none => some ([], n)
  | some payload => n.passOn C checks env payload

def receiveFrame (frame : Bytes) : Option (List NodeOutput × Node σ) :=
  let r := n.mesh.handleFrame N C frame env.toCallEnv
  { n with mesh := r.node }.deliver C checks env r.event

/-- A node hears from the coordinator, or its runtime calls the data plane. -/
inductive Event where
  | control (ev : ControlEvent)
  | call (call : MeshCall)

def step : Event → Option (List NodeOutput × Node σ)
  | .control ev => some ([], n.handleControlEvent ev)
  | .call (.frame bytes) => n.receiveFrame N C checks env bytes
  | .call c => some ([], { n with mesh := (n.mesh.perform N C env.toCallEnv c).2 })

def next (n : Node σ) (e : NodeEnv × Event) : Option (Node σ) :=
  (n.step N C checks e.1 e.2).map Prod.snd

end Node

end Rill
