import Rill.Prefix
import Rill.HashOrder
import Rill.StableSort

/-!
# Dynamic routes of a network

`rill-coord/src/route_map.rs`: the table from prefix and external node to next hop that nodes
report, with a limit per node and damping of prefixes that come and go.
-/

namespace Rill

def saturatingSub64 (a b : UInt64) : UInt64 := if b ≤ a then a - b else 0

def saturatingSucc64 (a : UInt64) : UInt64 := if a + 1 = 0 then a else a + 1

def routeMapMaxPerNode : ℕ := 2000

def flapWindowSecs : UInt64 := 600

def flapLimit : ℕ := 3

structure RouteSyncOutcome where
  accepted : ℕ := 0
  rejectedCoverage : ℕ := 0
  rejectedCap : ℕ := 0
  damped : ℕ := 0
  changed : Bool := false
  deriving DecidableEq

structure RouteMapSnapshotEntry where
  route : Prefix
  nodeId : UInt32
  nextHop : Text
  deriving DecidableEq

structure RouteMapService where
  entries : Table (Prefix × UInt32) Text := ∅
  perNode : Table UInt32 ℕ := ∅
  flaps : Table (Prefix × UInt32) (List UInt64) := ∅
  dampedUntil : Table (Prefix × UInt32) UInt64 := ∅
  version : UInt64 := 0

namespace RouteMapService
variable (m : RouteMapService)

def isDamped (key : Prefix × UInt32) (now : UInt64) : Bool :=
  m.dampedUntil[key]?.any fun deadline => now < deadline

/-- Records a change of state; true at the change that starts damping. -/
def flip (key : Prefix × UInt32) (now : UInt64) : Bool × RouteMapService :=
  let times := ((m.flaps[key]?).getD []).filter (fun t => saturatingSub64 now t ≤ flapWindowSecs) ++ [now]
  (flapLimit ≤ times.length, { m with flaps := m.flaps.insert key times })

def damp (key : Prefix × UInt32) (now : UInt64) : RouteMapService :=
  { m with dampedUntil := m.dampedUntil.insert key (now + flapWindowSecs) }

def announce (node : UInt32) (coverage : List Prefix) (maxPerNode : ℕ) (now : UInt64)
    (out : RouteSyncOutcome) (route : Prefix) (nextHop : Text) :
    RouteSyncOutcome × RouteMapService :=
  let key := (route, node)
  let isNew := m.entries[key]?.isNone
  if m.isDamped key now then ({ out with damped := out.damped + 1 }, m)
  else if !coverage.any route.isCoveredBy then
    ({ out with rejectedCoverage := out.rejectedCoverage + 1 }, m)
  else if isNew && maxPerNode ≤ (m.perNode[node]?).getD 0 then
    ({ out with rejectedCap := out.rejectedCap + 1 }, m)
  else
    let (damping, flipped) := if isNew then m.flip key now else (false, m)
    if damping then ({ out with damped := out.damped + 1 }, flipped.damp key now)
    else
      let inserted := { flipped with entries := flipped.entries.insert key nextHop }
      let count := (inserted.perNode[node]?).getD 0
      if isNew then
        ({ out with accepted := out.accepted + 1, changed := true },
          { inserted with perNode := inserted.perNode.insert node (count + 1) })
      else ({ out with accepted := out.accepted + 1 }, inserted)

def removeEntry (key : Prefix × UInt32) : Bool × RouteMapService :=
  match m.entries[key]? with
  | none => (false, m)
  | some _ =>
    (true, { m with
      entries := m.entries.erase key
      perNode := match m.perNode[key.2]? with
        | none => m.perNode
        | some n => m.perNode.insert key.2 (n - 1) })

def withdraw (node : UInt32) (now : UInt64) (out : RouteSyncOutcome) (route : Prefix) :
    RouteSyncOutcome × RouteMapService :=
  let key := (route, node)
  if m.isDamped key now then ({ out with damped := out.damped + 1 }, m)
  else
    let (damping, flipped) := if m.entries[key]?.isSome then m.flip key now else (false, m)
    let damped := if damping then flipped.damp key now else flipped
    let (removed, m) := damped.removeEntry key
    ({ out with changed := out.changed || removed }, m)

def applySync (node : UInt32) (announced : List (Prefix × Text)) (withdrawn coverage : List Prefix)
    (maxPerNode : ℕ) (now : UInt64) : RouteSyncOutcome × RouteMapService :=
  let (out, m) := announced.foldl
    (fun (st : RouteSyncOutcome × RouteMapService) a =>
      st.2.announce node coverage maxPerNode now st.1 a.1 a.2) ({}, m)
  let (out, m) := withdrawn.foldl
    (fun (st : RouteSyncOutcome × RouteMapService) route => st.2.withdraw node now st.1 route) (out, m)
  (out, if out.changed then { m with version := saturatingSucc64 m.version } else m)

def withdrawNode (node : UInt32) : Bool × RouteMapService :=
  let entries := m.entries.filter fun key _ => key.2 != node
  if entries.size = m.entries.size then (false, { m with entries })
  else
    (true, { entries
             perNode := m.perNode.erase node
             flaps := m.flaps.filter fun key _ => key.2 != node
             dampedUntil := m.dampedUntil.filter fun key _ => key.2 != node
             version := saturatingSucc64 m.version })

def snapshot (showIp : IpAddr → Text) (o : HashOrder (Prefix × UInt32)) :
    List RouteMapSnapshotEntry :=
  StableSort.sortByKey (fun e => toLex ((e.route.toCidr showIp).rank, e.nodeId.toNat))
    ((o.entries m.entries).map fun e => { route := e.1.1, nodeId := e.1.2, nextHop := e.2 })

end RouteMapService

end Rill
