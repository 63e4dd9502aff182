import Rill.HashOrder
import Rill.StableSort

/-!
# The path service of a network

`rill-coord/src/path_service.rs`: the path sets of a network by source and destination, the
allocator of path ids, the relays in use, and for every node the path events that wait for its
next heartbeat. Where the source loops over the path map, the loop follows the order `o` in which
the hash map hands out its keys.
-/

namespace Rill

def pathDefaultTtl : UInt64 := 3600

def pendingEventsMax : ℕ := 1024

structure PathCandidate where
  pathId : UInt64
  pathEpoch : UInt32
  hops : List UInt32
  expiresAt : UInt64
  deriving DecidableEq

structure PathSet where
  version : UInt64
  candidates : List PathCandidate
  max : UInt32
  deriving DecidableEq

inductive PathEvent where
  | update (source dest : UInt32) (set : PathSet)
  | withdraw (dest : UInt32) (pathId : UInt64)
  deriving DecidableEq

structure PathService where
  map : Table (UInt32 × UInt32) PathSet := ∅
  seq : UInt64 := 0
  pending : Table UInt32 (List PathEvent) := ∅
  relays : List UInt32 := []

/-- The candidate budget of a request, `max.clamp(2, 4)`. -/
def clampMax (max : UInt32) : UInt32 := if max < 2 then 2 else if 4 < max then 4 else max

def usableRelays (relays : List UInt32) (source dest : UInt32) : List UInt32 :=
  relays.filter fun r => r != source && r != dest

namespace PathCandidate

def direct (pathId : UInt64) (dest : UInt32) (expiresAt : UInt64) : PathCandidate :=
  { pathId, pathEpoch := 1, hops := [dest], expiresAt }

def viaRelay (pathId : UInt64) (relay dest : UInt32) (expiresAt : UInt64) : PathCandidate :=
  { pathId, pathEpoch := 1, hops := [relay, dest], expiresAt }

end PathCandidate

namespace PathSet

def expired (set : PathSet) (now : UInt64) : Bool :=
  set.candidates.isEmpty || set.candidates.all fun c => c.expiresAt != 0 && now > c.expiresAt

def uses (set : PathSet) (node : UInt32) : Bool :=
  set.candidates.any fun c => c.hops.contains node

def startsWith (candidates : List PathCandidate) (relay : UInt32) : Bool :=
  candidates.any fun c => c.hops.head? == some relay

/-- Whether `expand_relay_candidates` leaves the set alone: it has expired, or each of the relays
already has a candidate in it. -/
def settled (set : PathSet) (relays : List UInt32) (now : UInt64) : Bool :=
  set.expired now || !relays.any fun r => !startsWith set.candidates r

/-- The candidates a rebuild keeps: the direct ones and those over a relay still in use. -/
def keptDirect (set : PathSet) : List PathCandidate :=
  set.candidates.filter fun c => c.hops.length == 1

def keptRelayed (set : PathSet) (relays : List UInt32) : List PathCandidate :=
  set.candidates.filter fun c => c.hops.length > 1 && c.hops.head?.any relays.contains

/-- Candidates for the relays that have none, while the budget lasts; `seq` is the last path id
handed out. -/
def fillRelays (dest : UInt32) (expiresAt : UInt64) (budget : ℕ) :
    List UInt32 → List PathCandidate → UInt64 → List PathCandidate × UInt64
  | [], candidates, seq => (candidates, seq)
  | relay :: relays, candidates, seq =>
    if budget ≤ candidates.length then (candidates, seq)
    else if startsWith candidates relay then fillRelays dest expiresAt budget relays candidates seq
    else
      fillRelays dest expiresAt budget relays
        (candidates ++ [.viaRelay (seq + 1) relay dest expiresAt]) (seq + 1)

def rebuilt (set : PathSet) (relays : List UInt32) (now : UInt64) (dest : UInt32) (seq : UInt64) :
    PathSet × UInt64 :=
  let expiresAt := now + pathDefaultTtl
  let start : List PathCandidate × UInt64 :=
    if set.keptDirect.isEmpty then ([.direct (seq + 1) dest expiresAt], seq + 1)
    else (set.keptDirect, seq)
  let filled := fillRelays dest expiresAt (clampMax set.max).toNat relays
    (start.1 ++ set.keptRelayed relays) start.2
  ({ version := set.version + 1, candidates := filled.1, max := set.max }, filled.2)

end PathSet

namespace PathService
variable (s : PathService)

def setRelays (relays : List UInt32) : PathService := { s with relays }

def pushEvent (node : UInt32) (event : PathEvent) : PathService :=
  let queue := (s.pending[node]?).getD []
  let queue := if queue.length < pendingEventsMax then queue ++ [event] else queue
  { s with pending := s.pending.insert node queue }

def pushAll (nodes : List UInt32) (event : PathEvent) : PathService :=
  nodes.foldl (fun s node => s.pushEvent node event) s

def pushToParticipants (source dest : UInt32) (relays : List UInt32) (set : PathSet) :
    PathService :=
  s.pushAll (source :: dest :: relays) (.update source dest set)

def pushWithdraw (targets : List UInt32) (dest : UInt32) (pathId : UInt64) : PathService :=
  s.pushAll targets.eraseDups (.withdraw dest pathId)

def pushWithdrawn (source dest : UInt32) (withdrawn : List PathCandidate) : PathService :=
  withdrawn.foldl (fun s c => s.pushWithdraw (source :: dest :: c.hops) dest c.pathId) s

/-- The relay candidates of a fresh set, one for each relay until the budget is reached. -/
def requestRelays (dest : UInt32) (expiresAt : UInt64) (budget : ℕ) :
    List UInt32 → List PathCandidate → UInt64 → List PathCandidate × UInt64
  | [], candidates, seq => (candidates, seq)
  | relay :: relays, candidates, seq =>
    let candidates := candidates ++ [.viaRelay (seq + 1) relay dest expiresAt]
    if budget ≤ candidates.length then (candidates, seq + 1)
    else requestRelays dest expiresAt budget relays candidates (seq + 1)

def request (source dest max : UInt32) (now : UInt64) : List PathCandidate × PathService :=
  let relays := usableRelays s.relays source dest
  let held := s.map[(source, dest)]?
  match held.filter fun set => !set.expired now with
  | some set => (set.candidates, s.pushToParticipants source dest relays set)
  | none =>
    let version := (held.map PathSet.version).getD 0 + 1
    let expiresAt := now + pathDefaultTtl
    let (candidates, seq) := requestRelays dest expiresAt (clampMax max).toNat relays
      [.direct (s.seq + 1) dest expiresAt] (s.seq + 1)
    let set : PathSet := { version, candidates, max := clampMax max }
    let s := { s with seq := seq }.pushToParticipants source dest relays set
    (set.candidates, { s with map := s.map.insert (source, dest) set })

def withdrawRelayInSet (source dest node : UInt32) : PathService :=
  match s.map[(source, dest)]? with
  | none => s
  | some set =>
    let withdrawn := set.candidates.filter fun c => c.hops.contains node
    if withdrawn.isEmpty then s
    else
      let candidates := set.candidates.filter fun c => !c.hops.contains node
      let set := { set with candidates, version := set.version + 1 }
      if candidates.isEmpty then
        { s with map := s.map.erase (source, dest) }.pushWithdrawn source dest withdrawn
      else
        let s := { s with map := s.map.insert (source, dest) set }
        (s.pushWithdrawn source dest withdrawn).pushAll
          (source :: dest :: candidates.flatMap PathCandidate.hops).eraseDups
          (.update source dest set)

def withdrawNodeInSet (node : UInt32) (key : UInt32 × UInt32) : PathService :=
  if key.1 == node || key.2 == node then
    match s.map[key]? with
    | none => s
    | some set =>
      { s with map := s.map.erase key }.pushWithdrawn key.1 key.2 set.candidates
  else s.withdrawRelayInSet key.1 key.2 node

def withdrawNode (o : HashOrder (UInt32 × UInt32)) (node : UInt32) : PathService :=
  let affected := (o.keys s.map).filter fun key =>
    key.1 == node || key.2 == node || s.map[key]?.any fun set => set.uses node
  affected.foldl (fun s key => s.withdrawNodeInSet node key) s

def withdrawRelay (o : HashOrder (UInt32 × UInt32)) (node : UInt32) : PathService :=
  let affected := ((o.entries s.map).filter fun e => e.2.uses node).map Prod.fst
  affected.foldl (fun s key => s.withdrawRelayInSet key.1 key.2 node) s

def expandSet (now : UInt64) (key : UInt32 × UInt32) : PathService :=
  let relays := usableRelays s.relays key.1 key.2
  match s.map[key]? with
  | none => s
  | some set =>
    if set.settled relays now then s
    else
      let (set, seq) := set.rebuilt relays now key.2 s.seq
      let s := { s with seq := seq }.pushToParticipants key.1 key.2 relays set
      { s with map := s.map.insert key set }

def expandRelayCandidates (o : HashOrder (UInt32 × UInt32)) (now : UInt64) : PathService :=
  (o.keys s.map).foldl (fun s key => s.expandSet now key) s

def takeEvents (source : UInt32) : List PathEvent × PathService :=
  ((s.pending[source]?).getD [], { s with pending := s.pending.erase source })

/-- The part of the service that is saved: the path map in key order and the id allocator. -/
def persistent (o : HashOrder (UInt32 × UInt32)) : List (UInt32 × UInt32 × PathSet) × UInt64 :=
  (StableSort.sortByKey (fun e => toLex (e.1.toNat, e.2.1.toNat))
    ((o.entries s.map).map fun e => (e.1.1, e.1.2, e.2)), s.seq)

end PathService

end Rill
