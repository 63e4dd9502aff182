import Rill.BgpWire
import Rill.HashOrder
import Rill.Coordinator

/-!
# The import policy and the table of learned routes

`ImportPolicy` of `rill-dn42/src/policy/mod.rs` and `LocRib` of `rib/mod.rs`. The key of an entry is
the data of a prefix, so the table is keyed by the prefix itself. The early return of `apply` at the
prefix limit is the flag `exceeded`: behind it the loops do nothing. Rejections carry the prefix in
place of its text.
-/

namespace Rill.Bgp

structure BgpPath where
  asPath : List UInt32
  nextHop : Option IpAddr
  origin : UInt8
  communities : List UInt32
  deriving DecidableEq

def BgpPath.pathLen (path : BgpPath) : ℕ := path.asPath.length

inductive ImportReject where
  | notInWhitelist (p : Prefix)
  | bogon (p : Prefix)
  | asLoop (ownAs : UInt32)
  | missingNextHop
  | maxPrefixes (limit : UInt32)
  deriving DecidableEq

structure ImportPolicy where
  whitelist : List Prefix
  bogons : List Prefix
  ownAs : UInt32
  maxPrefixes : Option UInt32
  accepted : UInt32 := 0
  deriving DecidableEq

namespace ImportPolicy

/-- The counter is one of 32 bits, which a release build lets wrap. -/
def noteAccepted (policy : ImportPolicy) : Except ImportReject ImportPolicy :=
  match policy.maxPrefixes with
  | some limit =>
    if limit ≤ policy.accepted then .error (.maxPrefixes limit)
    else .ok { policy with accepted := policy.accepted + 1 }
  | none => .ok { policy with accepted := policy.accepted + 1 }

def noteWithdrawn (policy : ImportPolicy) : ImportPolicy :=
  { policy with accepted := UInt32.ofNat (policy.accepted.toNat - 1) }

/-- Next hop, bogons, whitelist, AS loop, in this order. -/
def admits (policy : ImportPolicy) (p : Prefix) (path : BgpPath) : Except ImportReject Unit :=
  if path.nextHop.isNone then .error .missingNextHop
  else if policy.bogons.any (p.isCoveredBy ·) then .error (.bogon p)
  else if !policy.whitelist.any (p.isCoveredBy ·) then .error (.notInWhitelist p)
  else if path.asPath.contains policy.ownAs then .error (.asLoop policy.ownAs)
  else .ok ()

end ImportPolicy

inductive RouteChange where
  | learned (p : Prefix) (path : BgpPath)
  | withdrawn (p : Prefix)
  deriving DecidableEq

structure PeerPaths where
  peers : List (Text × BgpPath) := []
  best : Option Text := none
  deriving DecidableEq

/-- The first is not as good as the second: a longer path, or as long and the greater name. -/
def worse (a b : Text × BgpPath) : Bool :=
  b.2.pathLen < a.2.pathLen || (a.2.pathLen == b.2.pathLen && Text.rank b.1 < Text.rank a.1)

def selectBest : List (Text × BgpPath) → Option Text
  | [] => none
  | a :: as => some (as.foldl (fun m b => if worse m b then b else m) a).1

structure LocRib where
  entries : Table Prefix PeerPaths := ∅

namespace PeerPaths

def path (e : PeerPaths) (peer : Text) : Option BgpPath :=
  (e.peers.find? (·.1 == peer)).map Prod.snd

def bestPath (e : PeerPaths) : Option BgpPath := e.best.bind e.path

/-- `push_learned`: what it pushes. -/
def learned (p : Prefix) (e : PeerPaths) : List RouteChange :=
  match e.bestPath with
  | some path => [.learned p path]
  | none => []

/-- The entry with the paths as given and the best of them. -/
def reselect (peers : List (Text × BgpPath)) : PeerPaths := { peers, best := selectBest peers }

end PeerPaths

/-- `apply` on the way through its loops. -/
structure Applying where
  rib : LocRib
  policy : ImportPolicy
  changes : List RouteChange := []
  rejected : List (Prefix × ImportReject) := []
  exceeded : Bool := false

namespace LocRib

def best (rib : LocRib) (p : Prefix) : Option BgpPath := rib.entries[p]?.bind PeerPaths.bestPath

def acceptedPrefixes (rib : LocRib) : ℕ := rib.entries.size

def set (rib : LocRib) (p : Prefix) (e : PeerPaths) : LocRib := ⟨rib.entries.insert p e⟩

def removeOne (rib : LocRib) (peer : Text) (p : Prefix) : Option (LocRib × List RouteChange) :=
  match rib.entries[p]? with
  | none => none
  | some e =>
    let peers := e.peers.filter (·.1 != peer)
    if peers.length = e.peers.length then none
    else if peers = [] then some (⟨rib.entries.erase p⟩, [.withdrawn p])
    else if selectBest peers = e.best then some (rib.set p { e with peers }, [])
    else some (rib.set p (.reselect peers), PeerPaths.learned p (.reselect peers))

end LocRib

namespace Applying

def announce (peer : Text) (s : Applying) (announcement : Prefix × BgpPath) : Applying :=
  let (p, path) := announcement
  if s.exceeded then s
  else
    match s.policy.admits p path with
    | .error reason => { s with rejected := s.rejected ++ [(p, reason)] }
    | .ok () =>
      -- `or_default`
      let e := s.rib.entries[p]?.getD {}
      match e.path peer with
      | some slot =>
        let peers := updateFirst (·.1 == peer) (fun (name, _) => (name, path)) e.peers
        if slot = path then { s with rib := s.rib.set p { e with peers } }
        else { s with rib := s.rib.set p (.reselect peers),
                      changes := s.changes ++ PeerPaths.learned p (.reselect peers) }
      | none =>
        match s.policy.noteAccepted with
        | .error _ => { s with rib := s.rib.set p e, exceeded := true }
        | .ok policy =>
          let peers := e.peers ++ [(peer, path)]
          { s with rib := s.rib.set p (.reselect peers), policy,
                   changes := s.changes ++ PeerPaths.learned p (.reselect peers) }

def withdraw (peer : Text) (s : Applying) (p : Prefix) : Applying :=
  if s.exceeded then s
  else
    match s.rib.removeOne peer p with
    | none => s
    | some (rib, changes) =>
      { s with rib, policy := s.policy.noteWithdrawn, changes := s.changes ++ changes }

end Applying

/-! ## What an UPDATE carries -/

/-- The attributes of a path, as the loop over them leaves them. -/
def basePath (attrs : List PathAttr) : BgpPath :=
  attrs.foldl (fun base attr =>
    match attr with
    | .origin o => { base with origin := o }
    | .asPath segs =>
      if base.asPath.isEmpty then { base with asPath := segs.flatMap (·.asns) } else base
    | .as4Path segs =>
      let flat := segs.flatMap (·.asns)
      if flat.isEmpty then base else { base with asPath := flat }
    | .nextHop ip => { base with nextHop := some (.v4 ip) }
    | .communities cs => { base with communities := cs }
    | _ => base) { asPath := [], nextHop := none, origin := 2, communities := [] }

/-- The family and the next hop of the last MP_REACH of unicast routes. -/
def lastMpReach (attrs : List PathAttr) : Option (UInt16 × IpAddr) :=
  attrs.foldl (fun last attr =>
    match attr with
    | .mpReach afi safi hop _ => if safi = 1 then some (afi, hop) else last
    | _ => last) none

/-- The prefixes of an MP_REACH of unicast routes of the family, each with the path. -/
def reachOf (afi : UInt16) (path : BgpPath) : PathAttr → List (Prefix × BgpPath)
  | .mpReach a safi _ nlri => if safi = 1 ∧ a = afi then nlri.map fun p => (p, path) else []
  | _ => []

def extractAnnounced (update : UpdateMsg) : List (Prefix × BgpPath) :=
  let base := basePath update.attrs
  update.announced.map (fun p => (p, base)) ++
    match lastMpReach update.attrs with
    | none => []
    | some (afi, hop) => update.attrs.flatMap (reachOf afi { base with nextHop := some hop })

def extractWithdrawn (update : UpdateMsg) : List Prefix :=
  update.withdrawn ++ update.attrs.flatMap fun attr =>
    match attr with
    | .mpUnreach afi safi nlri => if (afi = 1 ∨ afi = 2) ∧ safi = 1 then nlri else []
    | _ => []

namespace LocRib

/-- `LocRib::apply`: the table and the policy afterwards, with the outcome. -/
def apply (rib : LocRib) (peer : Text) (update : UpdateMsg) (policy : ImportPolicy) : Applying :=
  (extractWithdrawn update).foldl (Applying.withdraw peer)
    ((extractAnnounced update).foldl (Applying.announce peer) { rib, policy })

/-- `LocRib::purge_peer`. Each key gives its prefix back, so `expect` does not panic. -/
def purgePeer (rib : LocRib) (o : HashOrder Prefix) (peer : Text) (policy : ImportPolicy) :
    Applying :=
  (o.keys rib.entries).foldl (Applying.withdraw peer) { rib, policy }

end LocRib

end Rill.Bgp
