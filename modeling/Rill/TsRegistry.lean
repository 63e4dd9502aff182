import Rill.HashOrder
import Rill.Prefix
import Rill.Registry

/-!
# The registry of the ts2021 server

`rill-ts2021/src/server/registry.rs`: machines with their nodes, which are found by machine key and
by node key, the approval of announced routes, and the events that the map streams subscribe to.
Ids are `i64` and address numbers `u32`; both counters wrap. `none` as the result of a registration
stands for the panic of the source on an index that names no node.
-/

namespace Rill
namespace Ts2021

structure RoutesWhitelist where
  prefixes : List Prefix
  allowExit : Bool

inductive WhitelistError where
  | defaultRoute (rule : Text)
  | invalidPrefix (rule : Text)
  deriving DecidableEq

namespace RoutesWhitelist

/-- The two spellings of a default route that the source looks for. -/
def isDefaultText (route : Text) : Bool := route == ascii "0.0.0.0/0" || route == ascii "::/0"

def parseRules (parseIp : Text → Option IpAddr) : List Text → Except WhitelistError (List Prefix)
  | [] => .ok []
  | rule :: rules =>
    if isDefaultText rule then .error (.defaultRoute rule)
    else
      match Prefix.parse parseIp rule with
      | none => .error (.invalidPrefix rule)
      | some p => (parseRules parseIp rules).map (p :: ·)

def parse (parseIp : Text → Option IpAddr) (rules : List Text) (allowExit : Bool) :
    Except WhitelistError RoutesWhitelist :=
  (parseRules parseIp rules).map fun prefixes => { prefixes, allowExit }

def approves (parseIp : Text → Option IpAddr) (w : RoutesWhitelist) (route : Text) : Bool :=
  if isDefaultText route then w.allowExit
  else (Prefix.parse parseIp route).any fun p => w.prefixes.any p.isCoveredBy

end RoutesWhitelist

structure Event where
  changed : List ℤ := []
  removed : List ℤ := []
  deriving DecidableEq

structure NodeEntry where
  nid : ℤ
  machine : Key32
  nodeKey : Key32
  discoKey : Key32
  hostname : Text
  approvedRoutes : List Text
  announcedRoutes : List Text
  endpoints : List Text
  preferredDerp : Option UInt16
  online : Bool
  suffix : UInt32
  created : UInt64
  lastSeen : UInt64
  deriving DecidableEq

/-- The texts of the two addresses; both numbers are decimal. -/
def NodeEntry.addresses (e : NodeEntry) : List Text :=
  [ascii "100.64.0." ++ Text.ofNat e.suffix.toNat ++ ascii "/32",
   ascii "fd7a:115c:a1e0::" ++ Text.ofNat e.suffix.toNat ++ ascii "/128"]

inductive RegisterError where
  | badAuthKey (reason : Text)
  | badNodeKey
  | nodeKeyTaken
  deriving DecidableEq

/-- The next number of an `i64` counter. -/
def succ64 (n : ℤ) : ℤ := (n + 1).bmod (2 ^ 64)

def zeroKey32 : Key32 := .replicate 32 0

def NodeEntry.renewed (e : NodeEntry) (nodeKey : Key32) (hostname : Text) (now : UInt64) :
    NodeEntry :=
  { e with nodeKey, discoKey := zeroKey32, hostname, online := true, lastSeen := now
           announcedRoutes := [], approvedRoutes := [] }

structure Registry where
  nodes : Table ℤ NodeEntry := ∅
  byMachine : Table Key32 ℤ := ∅
  byNodeKey : Table Key32 ℤ := ∅
  nextId : ℤ := 1
  nextSuffix : UInt32 := 1
  events : List Event := []
  authKeys : List Text
  whitelist : RoutesWhitelist

namespace Registry

def new (authKeys : List Text) (whitelist : RoutesWhitelist) : Registry := { authKeys, whitelist }

variable (r : Registry)

def send (event : Event) : Registry := { r with events := r.events ++ [event] }

def admitAuthKey (key : Text) (now : UInt64) : Except RegisterError Unit := do
  let body ← (Text.strip (ascii "lrk-") key).elim
    (.error (.badAuthKey (ascii "not an lrk key"))) .ok
  let (network, tail) ← (Text.splitOnce 45 body).elim
    (.error (.badAuthKey (ascii "malformed lrk key"))) .ok
  let (expiry, _) ← (Text.splitOnce 45 tail).elim
    (.error (.badAuthKey (ascii "malformed lrk key"))) .ok
  let expiry ← (Text.parseUnsigned 64 expiry).elim
    (.error (.badAuthKey (ascii "malformed lrk expiry"))) .ok
  if expiry ≠ 0 ∧ expiry < now.toNat then .error (.badAuthKey (ascii "expired"))
  else if key ∈ r.authKeys then .ok ()
  else .error (.badAuthKey (ascii "unknown key for network '" ++ network ++ ascii "'"))

/-- The node key belongs to a node of another machine. -/
def nodeKeyTaken (machine nodeKey : Key32) : Bool :=
  (r.byNodeKey[nodeKey]?).any fun owner => (r.nodes[owner]?).any fun n => n.machine != machine

def newEntry (machine nodeKey : Key32) (hostname : Text) (now : UInt64) : NodeEntry where
  nid := r.nextId
  machine
  nodeKey
  discoKey := zeroKey32
  hostname
  approvedRoutes := []
  announcedRoutes := []
  endpoints := []
  preferredDerp := none
  online := true
  suffix := r.nextSuffix
  created := now
  lastSeen := now

def register (machine nodeKey : Key32) (hostname authKey : Text) (now : UInt64) :
    Option (Except RegisterError ℤ × Registry) :=
  match r.admitAuthKey authKey now with
  | .error e => some (.error e, r)
  | .ok () =>
    if r.nodeKeyTaken machine nodeKey then some (.error .nodeKeyTaken, r)
    else
      match r.byMachine[machine]? with
      | some nid =>
        (r.nodes[nid]?).map fun entry =>
          (.ok nid, send { r with
            nodes := r.nodes.insert nid (entry.renewed nodeKey hostname now)
            byNodeKey := (r.byNodeKey.erase entry.nodeKey).insert nodeKey nid }
              { changed := [nid] })
      | none =>
        let nid := r.nextId
        some (.ok nid, send { r with
          nextId := succ64 r.nextId
          nextSuffix := r.nextSuffix + 1
          nodes := r.nodes.insert nid (r.newEntry machine nodeKey hostname now)
          byMachine := r.byMachine.insert machine nid
          byNodeKey := r.byNodeKey.insert nodeKey nid } { changed := [nid] })

def nodeByKey (nodeKey : Key32) : Option ℤ := r.byNodeKey[nodeKey]?

def get (nid : ℤ) : Option NodeEntry := r.nodes[nid]?

def snapshot : List NodeEntry := r.nodes.toList.map Prod.snd

def applyMapUpdate (parseIp : Text → Option IpAddr) (nid : ℤ) (discoKey : Option Key32)
    (endpoints routableIps : List Text) (preferredDerp : Option UInt16) (now : UInt64) : Registry :=
  (r.nodes[nid]?).elim r fun entry =>
    let entry := { entry with
      discoKey := discoKey.getD entry.discoKey
      endpoints, preferredDerp
      lastSeen := now
      online := true }
    if entry.announcedRoutes ≠ routableIps then
      let approved := routableIps.filter (r.whitelist.approves parseIp)
      let announced := { entry with announcedRoutes := routableIps }
      if approved ≠ entry.approvedRoutes then
        send { r with nodes := r.nodes.insert nid { announced with approvedRoutes := approved } }
          { changed := [nid] }
      else { r with nodes := r.nodes.insert nid announced }
    else { r with nodes := r.nodes.insert nid entry }

def markOnline (nid : ℤ) (online : Bool) (now : UInt64) : Registry :=
  (r.nodes[nid]?).elim r fun entry =>
    if entry.online ≠ online then
      send { r with nodes := r.nodes.insert nid { entry with online, lastSeen := now } }
        { changed := [nid] }
    else r

/-- The first node with the name, in the order in which the map of the nodes is read, goes. -/
def evict (o : HashOrder ℤ) (hostname : Text) : Bool × Registry :=
  match ((o.values r.nodes).find? fun n => n.hostname == hostname).map NodeEntry.nid with
  | none => (false, r)
  | some nid =>
    match r.nodes[nid]? with
    | none => (false, r)
    | some entry =>
      (true, send { r with
        nodes := r.nodes.erase nid
        byMachine := r.byMachine.erase entry.machine
        byNodeKey := r.byNodeKey.erase entry.nodeKey } { removed := [nid] })

end Registry

end Ts2021

end Rill
