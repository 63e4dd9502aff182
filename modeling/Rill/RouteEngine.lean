import Rill.Packet
import Rill.StableSort
import Rill.Domain

/-!
# Routes and policies of a node

The routing table (`rill-core/src/route/mod.rs`), the default route (`route/default.rs`) and the
decisions of an access policy (`rill-core/src/control/acl.rs`). `checks` says whether the build
checks its arithmetic; `none` is a panic.
-/

namespace Rill

inductive RouteSource where
  | lan
  | mesh
  | dynDn42
  | dn42
  | tailnet
  deriving DecidableEq

def RouteSource.priority : RouteSource → ℕ
  | .lan => 0
  | .mesh => 1
  | .dn42 => 2
  | .dynDn42 => 3
  | .tailnet => 4

inductive RouteVia where
  | mesh (nodeId : UInt32)
  | dn42 (peer : Text)
  | tailnet (peer : Text)
  | direct (device : Text)
  deriving DecidableEq

structure RouteEntry where
  route : Prefix
  source : RouteSource
  via : RouteVia
  metric : Option UInt32 := none
  deriving DecidableEq

/-- The table of a `RouteEngine`, in the order of insertion. -/
structure RouteEngine where
  table : List RouteEntry := []
  deriving DecidableEq

namespace RouteEngine
variable (engine : RouteEngine)

def insert (entry : RouteEntry) : RouteEngine := ⟨engine.table ++ [entry]⟩

def removeWhere (pred : RouteEntry → Bool) : RouteEngine := ⟨engine.table.filter fun e => !pred e⟩

def removeMeshNode (nodeId : UInt32) : RouteEngine :=
  engine.removeWhere fun e => e.source == .mesh && e.via == .mesh nodeId

def removeDn42Route (route : Prefix) (peer : Text) : RouteEngine :=
  engine.removeWhere fun e => e.route == route && e.source == .dn42 && e.via == .dn42 peer

def removeDn42Peer (peer : Text) : RouteEngine :=
  engine.removeWhere fun e => e.source == .dn42 && e.via == .dn42 peer

def removeTailnetPeer (peer : Text) : RouteEngine :=
  engine.removeWhere fun e => e.source == .tailnet && e.via == .tailnet peer

def resetMeshRoutes : RouteEngine := engine.removeWhere fun e => e.source == .mesh

def resetDynDn42Routes : RouteEngine := engine.removeWhere fun e => e.source == .dynDn42

def removeDynDn42Node (nodeId : UInt32) : RouteEngine :=
  engine.removeWhere fun e => e.source == .dynDn42 && e.via == .mesh nodeId

def matching (checks : Bool) (addr : IpAddr) : List RouteEntry → Option (List RouteEntry)
  | [] => some []
  | e :: es => do
    let hit ← e.route.matchesAddr checks addr
    let rest ← matching checks addr es
    some (if hit then e :: rest else rest)

/-- `LpmTable::matches`: the entries that match, by length. -/
def matchesTable (checks : Bool) (addr : IpAddr) : Option (List RouteEntry) :=
  (matching checks addr engine.table).map (StableSort.sortByKey fun e => e.route.len.toNat)

def lookup (checks : Bool) (addr : IpAddr) : Option (List RouteEntry) :=
  (engine.matchesTable checks addr).map (StableSort.sortByKey fun e =>
    toLex (OrderDual.toDual e.route.len.toNat, e.source.priority))

def firstReachable (reachable : RouteEntry → Option Bool) :
    List RouteEntry → Option (Option RouteEntry)
  | [] => some none
  | e :: es => do if ← reachable e then some (some e) else firstReachable reachable es

def lookupBest (checks : Bool) (addr : IpAddr) (reachable : RouteEntry → Option Bool) :
    Option (Option RouteEntry) := do
  let entries ← engine.lookup checks addr
  firstReachable reachable entries

end RouteEngine

inductive ExitSource where
  | tailnet
  | mesh
  deriving DecidableEq

structure DefaultRouteResolver where
  preference : List ExitSource := []
  meshExits : List UInt32 := []
  tailnetExits : List Text := []
  selfExit : Bool := false
  deriving DecidableEq

def DefaultRouteResolver.setMeshExits (r : DefaultRouteResolver) (exits : List UInt32)
    (selfExit : Bool) : DefaultRouteResolver := { r with meshExits := exits, selfExit }

namespace AclPolicy
variable (policy : AclPolicy)

def subjectMatches (source : UInt32) : AclSubject → Bool
  | .any => true
  | .node id => id == source
  | .group name => (policy.groups[name]?).any fun members => members.contains source

/-- The first rule that matches decides; without one the answer is no. -/
def decideRules (checks : Bool) (source : UInt32) (dst : IpAddr) : List AclRule → Option Bool
  | [] => some false
  | rule :: rules => do
    let hit ← rule.route.matchesAddr checks dst
    if hit && rule.subjects.any (policy.subjectMatches source) then some (rule.action == .allow)
    else decideRules checks source dst rules

def allows (checks : Bool) (source : UInt32) (dst : IpAddr) : Option Bool :=
  if !policy.enabled then some true else policy.decideRules checks source dst policy.rules

/-- `packet_dst`: where the header is cut short there is no destination. -/
def packetDst (payload : Bytes) : Option IpAddr := do
  let first ← payload.head?
  if ipVersion first = 4 then (slice 16 4 payload).map addrV4
  else if ipVersion first = 6 then (slice 24 16 payload).map addrV6
  else none

def allowsPacket (checks : Bool) (source : UInt32) (payload : Bytes) : Option Bool :=
  if !policy.enabled then some true
  else
    match packetDst payload with
    | some dst => policy.allows checks source dst
    | none => some false

end AclPolicy

end Rill
