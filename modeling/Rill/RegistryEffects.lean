import Rill.UnloggedOps

/-!
# What the operations of a coordinator do to its registries

The roll of a coordinator is the id it hands out next and the registry of each network. Every
operation, whether it comes from the log, from the replica itself or from the configuration, changes
the roll in one of four ways: not at all, by the admission of a new node under the next id, by the
removal of a node, or by new auth keys and announce rules.
-/

namespace Rill

/-- A change of the configuration of a running coordinator. -/
inductive ConfigOp where
  | addAuthKeySpec (key : Text) (spec : AuthKeySpec)
  | removeAuthKey (key : Text)
  | setAnnounceWhitelist (network : Text) (whitelist : List Prefix)
  | setAclPolicy (network : Text) (policy : AclPolicy)
  | setRelayConstraints (network : Text) (cfg : RelayRosterConfig)
  | setExitAllow (network : Text) (allow : List UInt32)

inductive CoordOp where
  | command (cmd : CoordCommand) (logId : LogId)
  | unlogged (op : LocalOp)
  | configure (op : ConfigOp)

namespace Coordinator

def configure (c : Coordinator) : ConfigOp → Coordinator
  | .addAuthKeySpec key spec => c.addAuthKeySpec key spec
  | .removeAuthKey key => c.removeAuthKey key
  | .setAnnounceWhitelist network whitelist => c.setAnnounceWhitelist network whitelist
  | .setAclPolicy network policy => c.setAclPolicy network policy
  | .setRelayConstraints network cfg => c.setRelayConstraints network cfg
  | .setExitAllow network allow => c.setExitAllow network allow

/-- One operation; `none` is a panic of the source. -/
def perform (L : Crates) (c : Coordinator) (a : IterOrder × CoordOp) : Option Coordinator :=
  match a.2 with
  | .command cmd logId => (c.applyCommand L a.1 cmd logId).map Prod.snd
  | .unlogged op => some (c.runLocal L a.1 op)
  | .configure op => some (c.configure op)

end Coordinator

structure Seat where
  name : Text
  networkId : UInt32
  registry : Registry

structure Roll where
  nextNodeId : UInt32
  seats : List Seat

def NetworkDomain.seat (d : NetworkDomain) : Seat := ⟨d.name, d.networkId, d.registry⟩

def Coordinator.roll (c : Coordinator) : Roll := ⟨c.nextNodeId, c.domains.map NetworkDomain.seat⟩

/-- New auth keys and announce rules: the nodes stay, and a consumed key stays out. -/
structure Registry.Reconfigures (f : Registry → Registry) : Prop where
  entries : ∀ r, (f r).entries = r.entries
  pubkeys : ∀ r, (f r).pubkeys = r.pubkeys
  consumed : ∀ r, (f r).consumedOneTime = r.consumedOneTime
  networkId : ∀ r, (f r).networkId = r.networkId
  authKeys : ∀ r, ∀ key ∈ r.consumedOneTime, r.authKeys[key]? = none →
    (f r).authKeys[key]? = none

inductive RollChange where
  | keep
  | admits (authKey : Text) (spec : AuthKeySpec) (entry : NodeEntry)
  | revoke (nodeId : UInt32)
  | reconfigure

namespace Roll
variable (r : Roll)

def updateNamed (name : Text) (f : Registry → Registry) : List Seat :=
  updateFirst (fun s => s.name == name) (fun s => { s with registry := f s.registry }) r.seats

/-- The registration that adds `e` to the network of the seat `s`. -/
structure Admission (authKey : Text) (spec : AuthKeySpec) (e : NodeEntry) (s : Seat) : Prop where
  parsed : ∃ rest, AuthKey.parse authKey = .ok (s.name, rest)
  found : r.seats.find? (fun t => t.name == s.name) = some s
  authorized : s.registry.authKeys[authKey]? = some spec
  unknown : s.registry.pubkeys[e.staticPubkey]? = none
  nodeId : e.nodeId = r.nextNodeId
  networkId : e.networkId = s.registry.networkId

inductive Step : RollChange → Roll → Prop
  | keep : Step .keep r
  | admits {authKey : Text} {spec : AuthKeySpec} {e : NodeEntry} {s : Seat}
      (h : r.Admission authKey spec e s) :
      Step (.admits authKey spec e) ⟨r.nextNodeId + 1,
        r.updateNamed s.name fun reg => (reg.insertEntry e).consume authKey spec⟩
  | revoke (nodeId : UInt32) :
      Step (.revoke nodeId) ⟨r.nextNodeId,
        updateFirst (fun s => s.registry.entries[nodeId]?.isSome)
          (fun s => { s with registry := s.registry.revoke nodeId }) r.seats⟩
  | reconfigure (name : Text) {f : Registry → Registry} (h : Registry.Reconfigures f) :
      Step .reconfigure ⟨r.nextNodeId, r.updateNamed name f⟩

end Roll

section UpdateFirst
variable {α β : Type} {p : α → Bool} {f g : α → α} {l : List α}

theorem updateFirst_eq_of_find (h : ∀ a, l.find? p = some a → f a = g a) :
    updateFirst p f l = updateFirst p g l := by
  induction l with
  | nil => rfl
  | cons a l ih =>
    rw [updateFirst, updateFirst]
    by_cases ha : p a = true
    · rw [if_pos ha, if_pos ha, h a (List.find?_cons_of_pos ha)]
    · rw [if_neg ha, if_neg ha, ih fun b hb => h b (by rwa [List.find?_cons_of_neg ha])]

theorem updateFirst_eq_self (h : ∀ a, l.find? p = some a → f a = a) : updateFirst p f l = l := by
  rw [updateFirst_eq_of_find (g := fun a => a) h]
  clear h
  induction l with
  | nil => rfl
  | cons a l ih =>
    rw [updateFirst, ih]
    split_ifs <;> rfl

theorem map_updateFirst {q : β → Bool} {k : α → β} {f' : β → β} (hp : ∀ a, q (k a) = p a)
    (hf : ∀ a, k (f a) = f' (k a)) (l : List α) :
    (updateFirst p f l).map k = updateFirst q f' (l.map k) := by
  induction l with
  | nil => rfl
  | cons a l ih =>
    rw [updateFirst, List.map_cons, updateFirst, hp]
    split_ifs
    · rw [List.map_cons, hf]
    · rw [List.map_cons, ih]

theorem map_updateFirst_of_eq {k : α → β} (hf : ∀ a, k (f a) = k a) (l : List α) :
    (updateFirst p f l).map k = l.map k := by
  induction l with
  | nil => rfl
  | cons a l ih =>
    rw [updateFirst]
    split_ifs
    · rw [List.map_cons, List.map_cons, hf]
    · rw [List.map_cons, List.map_cons, ih]

end UpdateFirst

def NodeEntry.registerData (e : NodeEntry) : RegisterData where
  nodeId := e.nodeId
  networkId := e.networkId
  identityBinding := e.identityBinding
  bindingLogId := e.bindingLogId

theorem Registry.register_cases {reg reg' : Registry} {parseIp : Text → Option IpAddr}
    {sign : Bytes → Bytes} {authKey : Text} {staticPubkey : Key32} {capabilities nodeId : UInt32}
    {routes : List Text} {issuance : UInt64 × UInt64} {out : Except RegisterError RegisterOutcome}
    (h : reg.register parseIp sign authKey staticPubkey capabilities routes nodeId issuance =
      some (out, reg')) :
    (∃ err, out = .error err ∧ reg' = reg) ∨
    (∃ id e, out = .ok (.existing id) ∧ reg' = reg ∧ (reg.authKeys[authKey]?).isSome ∧
      reg.pubkeys[staticPubkey]? = some id ∧ reg.entries[id]? = some e ∧
      e.capabilities = capabilities ∧ e.routes = routes) ∨
    ∃ spec, out = .ok (.newNode nodeId) ∧ reg.authKeys[authKey]? = some spec ∧
      reg.pubkeys[staticPubkey]? = none ∧
      reg' = (reg.insertEntry
        { nodeId, networkId := reg.networkId, staticPubkey, capabilities, routes
          identityBinding := sign (bindingMessage nodeId staticPubkey issuance)
          bindingLogId := issuance }).consume authKey spec := by
  rw [Registry.register] at h
  cases hkey : reg.authKeys[authKey]? with
  | none =>
    rw [hkey] at h
    cases h
    exact Or.inl ⟨_, rfl, rfl⟩
  | some spec =>
    rw [hkey] at h
    cases hindex : reg.pubkeys[staticPubkey]? with
    | some id =>
      rw [hindex] at h
      obtain ⟨e, hentry, hout⟩ := Option.map_eq_some_iff.mp h
      split_ifs at hout with hsame
      · cases hout
        exact Or.inr (Or.inl ⟨id, e, rfl, rfl, rfl, rfl, hentry, hsame.1, hsame.2⟩)
      · cases hout
        exact Or.inl ⟨_, rfl, rfl⟩
    | none =>
      rw [hindex] at h
      cases hroutes : reg.checkAnnounceRoutes parseIp routes with
      | error e =>
        rw [hroutes] at h
        cases h
        exact Or.inl ⟨_, rfl, rfl⟩
      | ok u =>
        rw [hroutes] at h
        cases h
        exact Or.inr (Or.inr ⟨spec, rfl, rfl, rfl, rfl⟩)

namespace Registry

theorem reconfigures_addAuthKeySpec (key : Text) (spec : AuthKeySpec) :
    Reconfigures fun r => r.addAuthKeySpec key spec := by
  have hsplit : ∀ r : Registry, r.addAuthKeySpec key spec = r ∨ key ∉ r.consumedOneTime ∧
      r.addAuthKeySpec key spec = { r with authKeys := r.authKeys.insert key spec } := by
    intro r
    rw [addAuthKeySpec]
    split_ifs with hmem
    · exact Or.inl rfl
    · exact Or.inr ⟨hmem, rfl⟩
  constructor
  · intro r
    rcases hsplit r with h | ⟨-, h⟩ <;> rw [h]
  · intro r
    rcases hsplit r with h | ⟨-, h⟩ <;> rw [h]
  · intro r
    rcases hsplit r with h | ⟨-, h⟩ <;> rw [h]
  · intro r
    rcases hsplit r with h | ⟨-, h⟩ <;> rw [h]
  · intro r used hused hnone
    rcases hsplit r with h | ⟨hmem, h⟩
    · rw [h, hnone]
    · rw [h, Table.getElem?_insert_of_ne, hnone]
      rintro rfl
      exact hmem hused

theorem reconfigures_removeAuthKey (key : Text) : Reconfigures fun r => r.removeAuthKey key where
  entries _ := rfl
  pubkeys _ := rfl
  consumed _ := rfl
  networkId _ := rfl
  authKeys r used _ hnone := by
    rw [removeAuthKey, Table.getElem?_erase, hnone, ite_self]

theorem reconfigures_setAnnounceWhitelist (whitelist : List Prefix) :
    Reconfigures fun r => r.setAnnounceWhitelist whitelist :=
  ⟨fun _ => rfl, fun _ => rfl, fun _ => rfl, fun _ => rfl, fun _ _ _ hnone => hnone⟩

end Registry

namespace Coordinator
variable {c c' : Coordinator} {L : Crates}

def newEntry (c : Coordinator) (L : Crates) (d : NetworkDomain) (staticPubkey : Key32)
    (capabilities : UInt32) (routes : List Text) (issuance : UInt64 × UInt64) : NodeEntry where
  nodeId := c.nextNodeId
  networkId := d.registry.networkId
  staticPubkey := staticPubkey
  capabilities := capabilities
  routes := routes
  identityBinding := L.sign c.signingSeed (bindingMessage c.nextNodeId staticPubkey issuance)
  bindingLogId := issuance

/-- The coordinator after the admission of `e` to a network. -/
def admitted (c : Coordinator) (network authKey : Text) (spec : AuthKeySpec) (e : NodeEntry) :
    Coordinator :=
  { c.updateNamed network fun d =>
      { d with registry := (d.registry.insertEntry e).consume authKey spec } with
    nextNodeId := c.nextNodeId + 1 }.bumpNetmap

/-- The network a registration goes to: its key is parsed and in date, and the capabilities pass. -/
structure Admits (c : Coordinator) (authKey : Text) (capabilities : UInt32) (now : UInt64)
    (d : NetworkDomain) : Prop where
  parsed : ∃ expiry secret, AuthKey.parse authKey = .ok (d.name, expiry, secret) ∧
    ¬ (expiry ≠ 0 ∧ expiry < now)
  found : c.domainByName d.name = some d
  acl : (d.acl.enabled && capabilities &&& capabilityAcl == 0) = false

variable (c L) in
theorem registerInner_eq (authKey : Text) (staticPubkey : Key32) (capabilities : UInt32)
    (routes : List Text) (now : UInt64) (issuance : UInt64 × UInt64) :
    (∃ err, c.registerInner L authKey staticPubkey capabilities routes now issuance =
        some (.error err, c)) ∨
      ∃ d, c.Admits authKey capabilities now d ∧
        c.registerInner L authKey staticPubkey capabilities routes now issuance =
          (d.registry.register L.parseIp (L.sign c.signingSeed) authKey staticPubkey capabilities
            routes c.nextNodeId issuance).bind fun out => c.settleOutcome d.name out.1 out.2 := by
  rw [registerInner]
  cases hparse : AuthKey.parse authKey with
  | error e => exact Or.inl ⟨_, rfl⟩
  | ok key =>
    obtain ⟨network, expiry, secret⟩ := key
    dsimp only
    split_ifs with hexpired
    · exact Or.inl ⟨_, rfl⟩
    · cases hd : c.domainByName network with
      | none => exact Or.inl ⟨_, rfl⟩
      | some d =>
        have hname : d.name = network := by simpa using List.find?_some hd
        dsimp only
        split_ifs with hacl
        · exact Or.inl ⟨_, rfl⟩
        · refine Or.inr ⟨d, ⟨⟨expiry, secret, ?_, hexpired⟩, ?_, ?_⟩, ?_⟩
          · rw [hname, hparse]
          · rw [hname, hd]
          · simpa using hacl
          · rw [hname]

theorem updateNamed_eq_of_found {name : Text} {d : NetworkDomain}
    {f g : NetworkDomain → NetworkDomain} (hd : c.domainByName name = some d) (h : f d = g d) :
    c.updateNamed name f = c.updateNamed name g := by
  have hsame : updateFirst (fun d => d.name == name) f c.domains =
      updateFirst (fun d => d.name == name) g c.domains := by
    refine updateFirst_eq_of_find fun a ha => ?_
    cases hd.symm.trans ha
    exact h
  rw [updateNamed, updateNamed, hsame]

theorem updateNamed_eq_self {name : Text} {d : NetworkDomain} {f : NetworkDomain → NetworkDomain}
    (hd : c.domainByName name = some d) (hf : f d = d) : c.updateNamed name f = c := by
  have hsame : updateFirst (fun d => d.name == name) f c.domains = c.domains := by
    refine updateFirst_eq_self fun a ha => ?_
    cases hd.symm.trans ha
    exact hf
  rw [updateNamed, hsame]

/-- What a registration answers and what it leaves behind: it is rejected, it finds the node
registered, or it admits the node under the next id. -/
theorem register_cases {authKey : Text} {staticPubkey : Key32} {capabilities : UInt32}
    {routes : List Text} {now : UInt64} {issuance : UInt64 × UInt64}
    {r : Except RegisterError RegisterData}
    (h : c.register L authKey staticPubkey capabilities routes now issuance = some (r, c')) :
    (∃ err, r = .error err ∧
      c' = { c with registerRejects := saturatingSucc64 c.registerRejects }) ∨
    (∃ d id e found, c.Admits authKey capabilities now d ∧
      (d.registry.authKeys[authKey]?).isSome ∧ d.registry.pubkeys[staticPubkey]? = some id ∧
      d.registry.entries[id]? = some e ∧ e.capabilities = capabilities ∧ e.routes = routes ∧
      c.nodeEntry id = some found ∧ r = .ok found.registerData ∧ c' = c) ∨
    ∃ d spec found, c.Admits authKey capabilities now d ∧
      d.registry.authKeys[authKey]? = some spec ∧ d.registry.pubkeys[staticPubkey]? = none ∧
      c' = c.admitted d.name authKey spec
        (c.newEntry L d staticPubkey capabilities routes issuance) ∧
      c'.nodeEntry c.nextNodeId = some found ∧ r = .ok found.registerData := by
  rw [register] at h
  obtain ⟨⟨r₀, next⟩, hinner, hout⟩ := Option.map_eq_some_iff.mp h
  rcases c.registerInner_eq L authKey staticPubkey capabilities routes now issuance with
    ⟨err, herr⟩ | ⟨d, hd, heq⟩
  · rw [herr] at hinner
    cases hinner
    cases hout
    exact Or.inl ⟨err, rfl, rfl⟩
  rw [heq] at hinner
  obtain ⟨⟨out, reg⟩, hreg, hsettle⟩ := Option.bind_eq_some_iff.mp hinner
  rcases Registry.register_cases hreg with ⟨err, rfl, rfl⟩ | ⟨id, e, rfl, rfl, hrest⟩ |
    ⟨spec, rfl, hkey, hnew, rfl⟩
  · have hself : (c.updateNamed d.name fun d' => { d' with registry := d.registry }) = c :=
      updateNamed_eq_self hd.found rfl
    rw [settleOutcome, hself] at hsettle
    cases hsettle
    cases hout
    exact Or.inl ⟨err, rfl, rfl⟩
  · have hself : (c.updateNamed d.name fun d' => { d' with registry := d.registry }) = c :=
      updateNamed_eq_self hd.found rfl
    rw [settleOutcome, hself] at hsettle
    obtain ⟨found, hfound, hdata⟩ := Option.map_eq_some_iff.mp hsettle
    cases hdata
    cases hout
    obtain ⟨hkey, hindex, hentry, hcaps, hroutes⟩ := hrest
    exact Or.inr (Or.inl ⟨d, id, e, found, hd, hkey, hindex, hentry, hcaps, hroutes, hfound, rfl, rfl⟩)
  · have hplace := updateNamed_eq_of_found hd.found
      (f := fun d' => { d' with registry := (d.registry.insertEntry (c.newEntry L d staticPubkey
        capabilities routes issuance)).consume authKey spec })
      (g := fun d' => { d' with registry := (d'.registry.insertEntry (c.newEntry L d staticPubkey
        capabilities routes issuance)).consume authKey spec }) rfl
    obtain ⟨found, hfound, hdata⟩ := Option.map_eq_some_iff.mp hsettle
    cases hdata
    cases hout
    refine Or.inr (Or.inr ⟨d, spec, found, hd, hkey, hnew, ?_, hfound, rfl⟩)
    rw [admitted, ← hplace]
    rfl

/-! ## The roll after an operation -/

section Seats
variable {f : NetworkDomain → NetworkDomain}

theorem roll_updateNamed (hf : ∀ d, (f d).seat = d.seat) (name : Text) :
    (c.updateNamed name f).roll = c.roll :=
  congrArg (Roll.mk c.nextNodeId) (map_updateFirst_of_eq hf c.domains)

theorem roll_updateNetwork (hf : ∀ d, (f d).seat = d.seat) (networkId : UInt32) :
    (c.updateNetwork networkId f).roll = c.roll :=
  congrArg (Roll.mk c.nextNodeId) (map_updateFirst_of_eq hf c.domains)

theorem roll_updateDomainOf (hf : ∀ d, (f d).seat = d.seat) (nodeId : UInt32) :
    (c.updateDomainOf nodeId f).roll = c.roll := by
  rw [updateDomainOf]
  cases c.networkOfNode nodeId with
  | none => rfl
  | some networkId => exact roll_updateNetwork hf networkId

theorem roll_updateNamed_registry (name : Text) (g : Registry → Registry) :
    (c.updateNamed name fun d => { d with registry := g d.registry }).roll =
      ⟨c.nextNodeId, c.roll.updateNamed name g⟩ := by
  refine congrArg (Roll.mk c.nextNodeId) (map_updateFirst (fun d => ?_) (fun d => ?_) c.domains)
  · rfl
  · rfl

theorem roll_foldl_withdrawRoutes (ids : List UInt32) (c : Coordinator) :
    (ids.foldl (fun c id => c.updateDomainOf id fun d => d.withdrawRoutes id) c).roll = c.roll := by
  induction ids generalizing c with
  | nil => rfl
  | cons id ids ih =>
    rw [List.foldl_cons, ih]
    exact roll_updateDomainOf (f := fun d => d.withdrawRoutes id) (fun _ => rfl) id

theorem seat_foldl_recordRtt (results : List (UInt32 × Option UInt64)) (d : NetworkDomain) :
    (results.foldl (fun d r => d.recordRtt r.1 r.2) d).seat = d.seat := by
  obtain ⟨relayRtt, relayMiss, heq⟩ := d.foldl_recordRtt_eq results
  rw [heq]
  rfl

end Seats

theorem heartbeat_eq (c : Coordinator) (o : IterOrder) (nodeId : UInt32) (now : UInt64) :
    ∃ (liveness : Liveness) (ids : List UInt32) (next : Coordinator),
      next = ids.foldl (fun c id => c.updateDomainOf id fun d => d.withdrawRoutes id)
        { (c.flushRevokeRotations now).2 with liveness } ∧
      ((c.heartbeat o nodeId now).2 = next ∨ (c.heartbeat o nodeId now).2 = next.bumpNetmap) := by
  refine ⟨((c.liveness.heartbeat nodeId now).2.sweep o.lastSeen now).2,
    (c.liveness.heartbeat nodeId now).2.expired o.lastSeen now, _, rfl, ?_⟩
  rw [heartbeat]
  exact (ite_eq_or_eq _ _ _).symm

theorem roll_flushRevokeRotations (c : Coordinator) (now : UInt64) :
    (c.flushRevokeRotations now).2.roll = c.roll := by
  refine congrArg (Roll.mk c.nextNodeId) ?_
  simp only [flushRevokeRotations, List.map_map]
  rfl

theorem roll_runLocal (c : Coordinator) (L : Crates) (o : IterOrder) (op : LocalOp) :
    (c.runLocal L o op).roll = c.roll := by
  cases op with
  | heartbeat nodeId now =>
    obtain ⟨liveness, ids, next, hnext, hc⟩ := c.heartbeat_eq o nodeId now
    have hroll : next.roll = c.roll := by
      rw [hnext, roll_foldl_withdrawRoutes]
      exact c.roll_flushRevokeRotations now
    rcases hc with hc | hc
    · rw [runLocal, hc, hroll]
    · rw [runLocal, hc]
      exact hroll
  | markOffline nodeId =>
    rw [runLocal, markOffline]
    split_ifs
    · refine roll_updateDomainOf (c := { c with liveness := (c.liveness.markOffline nodeId).2 })
        (f := fun d => d.withdrawRoutes nodeId) (fun _ => rfl) nodeId
    · rfl
  | storeTelemetry nodeId view clock => rfl
  | takePathEvents source =>
    refine roll_updateDomainOf ?_ source
    exact fun _ => rfl
  | applyRouteSync nodeId announced withdrawn clock =>
    refine roll_updateDomainOf ?_ nodeId
    exact fun _ => rfl
  | takeRouteMapPush nodeId =>
    rw [runLocal, takeRouteMapPush]
    cases c.domainOfNode nodeId with
    | none => rfl
    | some d =>
      dsimp only
      split_ifs
      · rfl
      · refine roll_updateDomainOf ?_ nodeId
        exact fun _ => rfl
  | setProtocolVersion nodeId version => rfl
  | setBuildVersion nodeId version => rfl
  | recordRelayRttRound networkId results =>
    exact roll_updateNetwork (seat_foldl_recordRtt results) networkId
  | resetLivenessOnTakeover now => rfl

theorem configure_step (c : Coordinator) (op : ConfigOp) :
    ∃ change, c.roll.Step change (c.configure op).roll ∧
      (change = .keep ∨ change = .reconfigure) := by
  have hkeep : ∀ c' : Coordinator, c'.roll = c.roll →
      ∃ change, c.roll.Step change c'.roll ∧ (change = .keep ∨ change = .reconfigure) :=
    fun c' h => ⟨.keep, h ▸ .keep, Or.inl rfl⟩
  have hchange : ∀ (name : Text) (g : Registry → Registry), Registry.Reconfigures g →
      ∃ change, c.roll.Step change
        (c.updateNamed name fun d => { d with registry := g d.registry }).roll ∧
          (change = .keep ∨ change = .reconfigure) := by
    intro name g hg
    refine ⟨.reconfigure, ?_, Or.inr rfl⟩
    rw [roll_updateNamed_registry]
    exact .reconfigure name hg
  cases op with
  | addAuthKeySpec key spec =>
    rw [configure, addAuthKeySpec]
    cases AuthKey.parse key with
    | error e => exact hkeep c rfl
    | ok parsed => exact hchange parsed.1 _ (Registry.reconfigures_addAuthKeySpec key spec)
  | removeAuthKey key =>
    rw [configure, removeAuthKey]
    cases AuthKey.parse key with
    | error e => exact hkeep c rfl
    | ok parsed => exact hchange parsed.1 _ (Registry.reconfigures_removeAuthKey key)
  | setAnnounceWhitelist network whitelist =>
    exact hchange network _ (Registry.reconfigures_setAnnounceWhitelist whitelist)
  | setAclPolicy network policy =>
    rw [configure, setAclPolicy]
    split_ifs
    · exact hkeep _ (roll_updateNamed (c := c) (f := fun d => { d with acl := policy })
        (fun _ => rfl) network)
    · exact hkeep c rfl
  | setRelayConstraints network cfg =>
    refine hkeep _ (roll_updateNamed ?_ network)
    exact fun _ => rfl
  | setExitAllow network allow =>
    rw [configure, setExitAllow]
    cases c.domainByName network with
    | none => exact hkeep c rfl
    | some d =>
      have hroll := roll_updateNamed (c := c)
        (f := fun d => { d with exitAllow := allow.toFinset }) (fun _ => rfl) network
      dsimp only [Option.elim_some]
      split_ifs
      · exact hkeep _ hroll
      · exact hkeep _ hroll

theorem roll_admitted {network authKey : Text} {spec : AuthKeySpec} {e : NodeEntry} :
    (c.admitted network authKey spec e).roll = ⟨c.nextNodeId + 1,
      c.roll.updateNamed network fun reg => (reg.insertEntry e).consume authKey spec⟩ := by
  have hplace := roll_updateNamed_registry (c := c) network fun reg =>
    (reg.insertEntry e).consume authKey spec
  exact congrArg (fun r : Roll => Roll.mk (c.nextNodeId + 1) r.seats) hplace

theorem find?_seats (name : Text) : c.roll.seats.find? (fun s => s.name == name) =
    (c.domainByName name).map NetworkDomain.seat := by
  rw [roll, List.find?_map]
  rfl

theorem admission_of_admits {authKey : Text} {staticPubkey : Key32} {capabilities : UInt32}
    {routes : List Text} {now : UInt64} {issuance : UInt64 × UInt64} {d : NetworkDomain}
    {spec : AuthKeySpec} (hd : c.Admits authKey capabilities now d)
    (hkey : d.registry.authKeys[authKey]? = some spec)
    (hnew : d.registry.pubkeys[staticPubkey]? = none) :
    c.roll.Admission authKey spec (c.newEntry L d staticPubkey capabilities routes issuance)
      d.seat where
  parsed := by
    obtain ⟨expiry, secret, hparse, -⟩ := hd.parsed
    exact ⟨(expiry, secret), hparse⟩
  found := by
    rw [find?_seats]
    exact congrArg (Option.map NetworkDomain.seat) hd.found
  authorized := hkey
  unknown := hnew
  nodeId := rfl
  networkId := rfl

theorem roll_revoke (c : Coordinator) (o : IterOrder) (nodeId : UInt32) (now : UInt64)
    (logId : UInt64 × UInt64) :
    (c.revoke o nodeId now logId).roll = ⟨c.nextNodeId,
      updateFirst (fun s => s.registry.entries[nodeId]?.isSome)
        (fun s => { s with registry := s.registry.revoke nodeId }) c.roll.seats⟩ := by
  have hflush := c.roll_flushRevokeRotations now
  rw [revoke, ← hflush]
  split_ifs with hknown
  · refine congrArg (Roll.mk c.nextNodeId) (map_updateFirst (fun d => ?_) (fun d => ?_) _)
    · rfl
    · rfl
  · -- no network has the node, so there is nothing to update
    have hnone : updateFirst (fun s : Seat => s.registry.entries[nodeId]?.isSome)
        (fun s => { s with registry := s.registry.revoke nodeId })
        (c.flushRevokeRotations now).2.roll.seats =
          (c.flushRevokeRotations now).2.roll.seats := by
      refine updateFirst_eq_self fun s hs => absurd ?_ hknown
      obtain ⟨d, hd, rfl⟩ := List.mem_map.mp (List.mem_of_find?_eq_some hs)
      exact List.any_eq_true.mpr ⟨d, hd, List.find?_some (p := fun s : Seat =>
        s.registry.entries[nodeId]?.isSome) hs⟩
    rw [hnone]
    rfl

theorem roll_requestPaths (c : Coordinator) (L : Crates) (source dest max : UInt32) (now : UInt64) :
    (c.requestPaths L source dest max now).2.roll = c.roll := by
  rw [requestPaths]
  split
  · split_ifs
    · rfl
    · refine roll_updateNetwork ?_ _
      exact fun _ => rfl
  · rfl

theorem roll_applyRelayRoster (c : Coordinator) (o : IterOrder) (networkId : UInt32)
    (roster : List UInt32) (now : UInt64) :
    (c.applyRelayRoster o networkId roster now).2.roll = c.roll := by
  rw [applyRelayRoster]
  cases c.domainByNetworkId networkId with
  | none => rfl
  | some d =>
    have hroll := roll_updateNetwork (c := c)
      (f := fun d => (d.applyRelayRoster (o.paths networkId) roster now).2) (fun _ => rfl) networkId
    dsimp only
    split_ifs
    · exact hroll
    · exact hroll

def Registers (c : Coordinator) (L : Crates) (op : CoordOp) (authKey : Text) (e : NodeEntry) : Prop :=
  ∃ d staticPubkey capabilities routes now logId,
    op = .command (.register authKey staticPubkey capabilities routes now) logId ∧
    c.Admits authKey capabilities now d ∧
    e = c.newEntry L d staticPubkey capabilities routes (logId.index, logId.term)

/-- What an operation does to the roll. Only a registration admits a node. -/
theorem perform_step {o : IterOrder} {op : CoordOp} (h : c.perform L (o, op) = some c') :
    ∃ change, c.roll.Step change c'.roll ∧
      ∀ authKey spec e, change = .admits authKey spec e → c.Registers L op authKey e := by
  have hkeep : ∀ next : Coordinator, next.roll = c.roll → ∃ change, c.roll.Step change next.roll ∧
      ∀ authKey spec e, change = .admits authKey spec e → c.Registers L op authKey e :=
    fun next h => ⟨.keep, h ▸ .keep, fun _ _ _ h => nomatch h⟩
  cases op with
  | unlogged op =>
    cases h
    exact hkeep _ (c.roll_runLocal L o op)
  | configure op =>
    cases h
    obtain ⟨change, hstep, rfl | rfl⟩ := c.configure_step op
    · exact ⟨_, hstep, fun _ _ _ h => nomatch h⟩
    · exact ⟨_, hstep, fun _ _ _ h => nomatch h⟩
  | command cmd logId =>
    obtain ⟨⟨r, next⟩, happly, rfl⟩ := Option.map_eq_some_iff.mp h
    cases cmd with
    | register authKey staticPubkey capabilities routes now =>
      obtain ⟨⟨out, c'⟩, hreg, hout⟩ := Option.map_eq_some_iff.mp happly
      cases hout
      rcases register_cases hreg with ⟨err, -, rfl⟩ |
        ⟨d, id, e, found, -, -, -, -, -, -, -, -, rfl⟩ | ⟨d, spec, found, hd, hkey, hnew, rfl, -, -⟩
      · exact hkeep _ rfl
      · exact hkeep _ rfl
      · rw [roll_admitted]
        refine ⟨_, .admits (admission_of_admits hd hkey hnew), fun authKey' spec' e' heq => ?_⟩
        obtain ⟨rfl, -, rfl⟩ := RollChange.admits.inj heq
        exact ⟨d, staticPubkey, capabilities, routes, now, logId, rfl, hd, rfl⟩
    | revoke nodeId now =>
      cases happly
      rw [roll_revoke]
      exact ⟨_, .revoke nodeId, fun _ _ _ h => nomatch h⟩
    | setEndpoints nodeId localAddrs seen =>
      cases happly
      exact hkeep _ rfl
    | requestPaths source dest max now =>
      cases happly
      exact hkeep _ (c.roll_requestPaths L source dest max now)
    | setRelayRoster networkId roster now =>
      cases happly
      exact hkeep _ (c.roll_applyRelayRoster o networkId roster now)
    | rotateMasterKey network newMasterKey =>
      cases happly
      refine hkeep _ (roll_updateNamed ?_ network)
      exact fun _ => rfl
    | flushRevokeRotations now =>
      cases happly
      exact hkeep _ (c.roll_flushRevokeRotations now)

end Coordinator

end Rill
