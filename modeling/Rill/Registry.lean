import Rill.Prefix

/-!
# The node registry of a network

`rill-core/src/control/registry.rs`: the registered nodes by id and by static key, the auth keys
that admit new ones, and the prefixes a node may announce. The source inserts every entry under
its own node id; the structure carries that as `keyed`. `none` as the result of a registration
stands for the panic of the source on an index that names no entry.
-/

namespace Rill

abbrev Key32 := Vector UInt8 32

instance : Std.TransOrd Key32 := inferInstanceAs (Std.TransOrd (Vector UInt8 32))

inductive AuthKeyPolicy where
  | oneTime
  | reusable
  deriving DecidableEq

structure AuthKeySpec where
  policy : AuthKeyPolicy
  tag : Option Text := none
  deriving DecidableEq

structure NodeEntry where
  nodeId : UInt32
  networkId : UInt32
  staticPubkey : Key32
  capabilities : UInt32
  routes : List Text
  identityBinding : Bytes
  bindingLogId : UInt64 × UInt64
  deriving DecidableEq

inductive RegisterError where
  | invalidAuthKey
  | pubkeyMismatch
  | routeNotAllowed
  | badRoute
  | aclCapabilityRequired
  deriving DecidableEq

inductive RegisterOutcome where
  | newNode (nodeId : UInt32)
  | existing (nodeId : UInt32)
  deriving DecidableEq

structure Registry where
  entries : Table UInt32 NodeEntry := ∅
  pubkeys : Table Key32 UInt32 := ∅
  authKeys : Table Text AuthKeySpec := ∅
  consumedOneTime : List Text := []
  announceWhitelist : List Prefix := []
  networkId : UInt32
  keyed : ∀ (id : UInt32) (e : NodeEntry), entries[id]? = some e → e.nodeId = id := by simp

/-- The message a binding signs: domain, node id, static key and log position. -/
def bindingMessage (nodeId : UInt32) (staticPubkey : Key32) (issuance : UInt64 × UInt64) : Bytes :=
  ascii "rill-binding-v2" ++ u32be nodeId ++ staticPubkey.toList ++ u64be issuance.1 ++
    u64be issuance.2

namespace Registry

def new (networkId : UInt32) : Registry := { networkId }

variable (r : Registry)

def addAuthKeySpec (key : Text) (spec : AuthKeySpec) : Registry :=
  if key ∈ r.consumedOneTime then r else { r with authKeys := r.authKeys.insert key spec }

def removeAuthKey (key : Text) : Registry := { r with authKeys := r.authKeys.erase key }

def setAnnounceWhitelist (whitelist : List Prefix) : Registry :=
  { r with announceWhitelist := whitelist }

def checkAnnounceRoutes (parseIp : Text → Option IpAddr) : List Text → Except RegisterError Unit
  | [] => .ok ()
  | route :: routes =>
    match Prefix.parse parseIp route with
    | none => .error .badRoute
    | some p =>
      if r.announceWhitelist.any p.isCoveredBy then checkAnnounceRoutes parseIp routes
      else .error .routeNotAllowed

/-- Insertion of an entry under its own id, and of its key into the index. -/
def insertEntry (e : NodeEntry) : Registry :=
  { r with
    entries := r.entries.insert e.nodeId e
    pubkeys := r.pubkeys.insert e.staticPubkey e.nodeId
    keyed := by
      intro id e' h
      rw [Table.getElem?_insert] at h
      split_ifs at h with hid
      · rw [← Option.some.inj h, hid]
      · exact r.keyed id e' h }

def consume (authKey : Text) (spec : AuthKeySpec) : Registry :=
  if spec.policy = .oneTime then
    { r with
      authKeys := r.authKeys.erase authKey
      consumedOneTime := r.consumedOneTime ++ [authKey] }
  else r

def register (parseIp : Text → Option IpAddr) (sign : Bytes → Bytes) (authKey : Text)
    (staticPubkey : Key32) (capabilities : UInt32) (routes : List Text) (nodeId : UInt32)
    (issuance : UInt64 × UInt64) : Option (Except RegisterError RegisterOutcome × Registry) :=
  match r.authKeys[authKey]? with
  | none => some (.error .invalidAuthKey, r)
  | some spec =>
    match r.pubkeys[staticPubkey]? with
    | some existing =>
      (r.entries[existing]?).map fun entry =>
        if entry.capabilities = capabilities ∧ entry.routes = routes then
          (.ok (.existing existing), r)
        else (.error .pubkeyMismatch, r)
    | none =>
      match r.checkAnnounceRoutes parseIp routes with
      | .error e => some (.error e, r)
      | .ok () =>
        let entry : NodeEntry :=
          { nodeId, networkId := r.networkId, staticPubkey, capabilities, routes
            identityBinding := sign (bindingMessage nodeId staticPubkey issuance)
            bindingLogId := issuance }
        some (.ok (.newNode nodeId), (r.insertEntry entry).consume authKey spec)

def revoke (nodeId : UInt32) : Registry :=
  match r.entries[nodeId]? with
  | none => r
  | some entry =>
    { r with
      entries := r.entries.erase nodeId
      pubkeys := r.pubkeys.erase entry.staticPubkey
      keyed := by
        intro id e h
        rw [Table.getElem?_erase] at h
        split_ifs at h
        exact r.keyed id e h }

end Registry

end Rill
