import Rill.DomainEffects

/-!
# What only an operator changes

The policy of a network changes by configuration alone and its master key by rotation alone. Every
other operation leaves both as they are, in all networks.
-/

namespace Rill

theorem forall₂_and {α β : Type} {R S : α → β → Prop} {l : List α} {l' : List β}
    (h : List.Forall₂ R l l') (h' : List.Forall₂ S l l') :
    List.Forall₂ (fun a b => R a b ∧ S a b) l l' := by
  induction h with
  | nil => exact .nil
  | cons hR _ ih =>
    cases h' with
    | cons hS h' => exact .cons ⟨hR, hS⟩ (ih h')

def NetworkDomain.charge (d : NetworkDomain) : AclPolicy × KeyManager := (d.acl, d.keys)

def NetworkDomain.mandate (d : NetworkDomain) : AclPolicy × Key32 := (d.acl, d.keys.masterKey)

namespace KeyManager

theorem masterKey_takeRevokeRotation (m : KeyManager) (now : UInt64) :
    (m.takeRevokeRotation now).2.masterKey = m.masterKey := by
  rw [takeRevokeRotation]
  split_ifs
  · rfl
  · rfl

theorem masterKey_armRevokeRotation (m : KeyManager) (deadline : UInt64) :
    (m.armRevokeRotation deadline).masterKey = m.masterKey := by
  rw [armRevokeRotation]
  split_ifs
  · rfl
  · rfl

end KeyManager

namespace Coordinator
variable {c c' : Coordinator} {L : Crates} {o : IterOrder} {op : CoordOp}

def charges (c : Coordinator) : List (AclPolicy × KeyManager) := c.domains.map NetworkDomain.charge

def mandates (c : Coordinator) : List (AclPolicy × Key32) := c.domains.map NetworkDomain.mandate

theorem mandates_of_charges (h : c'.charges = c.charges) : c'.mandates = c.mandates := by
  have hmap : ∀ c : Coordinator, c.mandates = c.charges.map fun m => (m.1, m.2.masterKey) := by
    intro c
    rw [mandates, charges, List.map_map]
    rfl
  rw [hmap, hmap, h]

theorem charges_updateNamed {f : NetworkDomain → NetworkDomain} (hf : ∀ d, (f d).charge = d.charge)
    (c : Coordinator) (name : Text) : (c.updateNamed name f).charges = c.charges :=
  map_updateFirst_of_eq hf c.domains

theorem charges_updateNetwork {f : NetworkDomain → NetworkDomain}
    (hf : ∀ d, (f d).charge = d.charge) (c : Coordinator) (networkId : UInt32) :
    (c.updateNetwork networkId f).charges = c.charges :=
  map_updateFirst_of_eq hf c.domains

theorem charges_updateDomainOf {f : NetworkDomain → NetworkDomain}
    (hf : ∀ d, (f d).charge = d.charge) (c : Coordinator) (nodeId : UInt32) :
    (c.updateDomainOf nodeId f).charges = c.charges := by
  rw [updateDomainOf]
  cases c.networkOfNode nodeId with
  | none => rfl
  | some networkId => exact charges_updateNetwork hf c networkId

theorem mandate_flushRevokeRotation (d : NetworkDomain) (now : UInt64) :
    (d.flushRevokeRotation now).mandate = d.mandate :=
  congrArg (Prod.mk d.acl) (d.keys.masterKey_takeRevokeRotation now)

theorem mandates_flushRevokeRotations (c : Coordinator) (now : UInt64) :
    (c.flushRevokeRotations now).2.mandates = c.mandates := by
  rw [mandates, mandates, flushRevokeRotations, List.map_map]
  exact List.map_congr_left fun d _ => mandate_flushRevokeRotation d now

theorem charges_foldl_withdrawRoutes (ids : List UInt32) (c : Coordinator) :
    (ids.foldl (fun c id => c.updateDomainOf id fun d => d.withdrawRoutes id) c).charges =
      c.charges := by
  induction ids generalizing c with
  | nil => rfl
  | cons id ids ih =>
    rw [List.foldl_cons, ih]
    refine charges_updateDomainOf ?_ c id
    exact fun _ => rfl

theorem charges_heartbeat (c : Coordinator) (o : IterOrder) (nodeId : UInt32) (now : UInt64) :
    (c.heartbeat o nodeId now).2.charges = (c.flushRevokeRotations now).2.charges := by
  obtain ⟨liveness, ids, next, hnext, hc⟩ := c.heartbeat_eq o nodeId now
  have hsame : next.charges = (c.flushRevokeRotations now).2.charges := by
    rw [hnext, charges_foldl_withdrawRoutes]
    rfl
  rcases hc with hc | hc
  · rw [hc, hsame]
  · rw [hc]
    exact hsame

theorem charge_recordRtt (results : List (UInt32 × Option UInt64)) (d : NetworkDomain) :
    (results.foldl (fun d r => d.recordRtt r.1 r.2) d).charge = d.charge := by
  obtain ⟨relayRtt, relayMiss, heq⟩ := d.foldl_recordRtt_eq results
  rw [heq]
  rfl

theorem charges_runLocal (c : Coordinator) (L : Crates) (o : IterOrder) (op : LocalOp) :
    (c.runLocal L o op).charges = c.charges ∨ ∃ nodeId now, op = .heartbeat nodeId now := by
  cases op with
  | heartbeat nodeId now => exact Or.inr ⟨nodeId, now, rfl⟩
  | markOffline nodeId =>
    rw [runLocal, markOffline]
    split_ifs
    · refine Or.inl (charges_updateDomainOf (f := fun d => d.withdrawRoutes nodeId) ?_
        { c with liveness := (c.liveness.markOffline nodeId).2 } nodeId)
      exact fun _ => rfl
    · exact Or.inl rfl
  | storeTelemetry nodeId view clock => exact Or.inl rfl
  | takePathEvents source =>
    refine Or.inl (charges_updateDomainOf ?_ c source)
    exact fun _ => rfl
  | applyRouteSync nodeId announced withdrawn clock =>
    refine Or.inl (charges_updateDomainOf ?_ c nodeId)
    exact fun _ => rfl
  | takeRouteMapPush nodeId =>
    rw [runLocal, takeRouteMapPush]
    cases c.domainOfNode nodeId with
    | none => exact Or.inl rfl
    | some d =>
      dsimp only
      split_ifs
      · exact Or.inl rfl
      · refine Or.inl (charges_updateDomainOf ?_ c nodeId)
        exact fun _ => rfl
  | setProtocolVersion nodeId version => exact Or.inl rfl
  | setBuildVersion nodeId version => exact Or.inl rfl
  | recordRelayRttRound networkId results =>
    exact Or.inl (charges_updateNetwork (charge_recordRtt results) c networkId)
  | resetLivenessOnTakeover now => exact Or.inl rfl

theorem mandates_runLocal (c : Coordinator) (L : Crates) (o : IterOrder) (op : LocalOp) :
    (c.runLocal L o op).mandates = c.mandates := by
  rcases c.charges_runLocal L o op with hsame | ⟨nodeId, now, rfl⟩
  · exact mandates_of_charges hsame
  · exact (mandates_of_charges (c.charges_heartbeat o nodeId now)).trans
      (c.mandates_flushRevokeRotations now)

theorem charges_configure (c : Coordinator) (op : ConfigOp) :
    (c.configure op).charges = c.charges ∨ ∃ network policy, op = .setAclPolicy network policy := by
  cases op with
  | addAuthKeySpec key spec =>
    rw [configure, addAuthKeySpec]
    cases AuthKey.parse key with
    | error e => exact Or.inl rfl
    | ok parsed =>
      refine Or.inl (charges_updateNamed ?_ c parsed.1)
      exact fun _ => rfl
  | removeAuthKey key =>
    rw [configure, removeAuthKey]
    cases AuthKey.parse key with
    | error e => exact Or.inl rfl
    | ok parsed =>
      refine Or.inl (charges_updateNamed ?_ c parsed.1)
      exact fun _ => rfl
  | setAnnounceWhitelist network whitelist =>
    refine Or.inl (charges_updateNamed ?_ c network)
    exact fun _ => rfl
  | setAclPolicy network policy => exact Or.inr ⟨network, policy, rfl⟩
  | setRelayConstraints network cfg =>
    refine Or.inl (charges_updateNamed ?_ c network)
    exact fun _ => rfl
  | setExitAllow network allow =>
    have hnext : (c.updateNamed network fun d => { d with exitAllow := allow.toFinset }).charges =
        c.charges := by
      refine charges_updateNamed ?_ c network
      exact fun _ => rfl
    rw [configure, setExitAllow]
    cases c.domainByName network with
    | none => exact Or.inl rfl
    | some d =>
      dsimp only [Option.elim_some]
      split_ifs
      · exact Or.inl hnext
      · exact Or.inl hnext

theorem mandates_revoke (c : Coordinator) (o : IterOrder) (nodeId : UInt32) (now : UInt64)
    (logId : UInt64 × UInt64) : (c.revoke o nodeId now logId).mandates = c.mandates := by
  have hflush := c.mandates_flushRevokeRotations now
  rw [revoke]
  split_ifs
  · refine Eq.trans (map_updateFirst_of_eq (fun d => ?_) (c.flushRevokeRotations now).2.domains) hflush
    exact congrArg (Prod.mk d.acl) (d.keys.masterKey_armRevokeRotation _)
  · exact hflush

theorem charges_requestPaths (c : Coordinator) (L : Crates) (source dest max : UInt32)
    (now : UInt64) : (c.requestPaths L source dest max now).2.charges = c.charges := by
  rw [requestPaths]
  split
  · split_ifs
    · rfl
    · refine charges_updateNetwork ?_ c _
      exact fun _ => rfl
  · rfl

theorem charges_applyRelayRoster (c : Coordinator) (o : IterOrder) (networkId : UInt32)
    (roster : List UInt32) (now : UInt64) :
    (c.applyRelayRoster o networkId roster now).2.charges = c.charges := by
  have hnext : (c.updateNetwork networkId fun d =>
      (d.applyRelayRoster (o.paths networkId) roster now).2).charges = c.charges := by
    refine charges_updateNetwork ?_ c networkId
    exact fun _ => rfl
  rw [applyRelayRoster]
  cases c.domainByNetworkId networkId with
  | none => rfl
  | some d =>
    dsimp only
    split_ifs
    · exact hnext
    · exact hnext

theorem charges_register {authKey : Text} {staticPubkey : Key32} {capabilities : UInt32}
    {routes : List Text} {now : UInt64} {issuance : UInt64 × UInt64}
    {out : Except RegisterError RegisterData}
    (h : c.register L authKey staticPubkey capabilities routes now issuance = some (out, c')) :
    c'.charges = c.charges := by
  rcases register_cases h with ⟨err, -, rfl⟩ | ⟨d, id, e, found, -, -, -, -, -, -, -, -, rfl⟩ |
    ⟨d, spec, found, hd, hkey, hnew, rfl, -, -⟩
  · rfl
  · rfl
  · refine charges_updateNamed ?_ c d.name
    exact fun _ => rfl

theorem perform_mandates (h : c.perform L (o, op) = some c') :
    c'.mandates = c.mandates ∨ (∃ network policy, op = .configure (.setAclPolicy network policy)) ∨
      ∃ network key logId, op = .command (.rotateMasterKey network key) logId := by
  cases op with
  | unlogged op =>
    cases h
    exact Or.inl (c.mandates_runLocal L o op)
  | configure op =>
    cases h
    rcases c.charges_configure op with hsame | ⟨network, policy, rfl⟩
    · exact Or.inl (mandates_of_charges hsame)
    · exact Or.inr (Or.inl ⟨network, policy, rfl⟩)
  | command cmd logId =>
    obtain ⟨⟨r, next⟩, happly, rfl⟩ := Option.map_eq_some_iff.mp h
    cases cmd with
    | register authKey staticPubkey capabilities routes now =>
      obtain ⟨⟨out, c'⟩, hreg, hout⟩ := Option.map_eq_some_iff.mp happly
      cases hout
      exact Or.inl (mandates_of_charges (charges_register hreg))
    | revoke nodeId now =>
      cases happly
      exact Or.inl (c.mandates_revoke o nodeId now _)
    | setEndpoints nodeId localAddrs seen =>
      cases happly
      exact Or.inl rfl
    | requestPaths source dest max now =>
      cases happly
      exact Or.inl (mandates_of_charges (c.charges_requestPaths L source dest max now))
    | setRelayRoster networkId roster now =>
      cases happly
      exact Or.inl (mandates_of_charges (c.charges_applyRelayRoster o networkId roster now))
    | rotateMasterKey network key => exact Or.inr (Or.inr ⟨network, key, logId, rfl⟩)
    | flushRevokeRotations now =>
      cases happly
      exact Or.inl (c.mandates_flushRevokeRotations now)

theorem perform_evolves_mandates (h : c.perform L (o, op) = some c')
    (hsame : c'.mandates = c.mandates) :
    List.Forall₂ (fun d d' => c.Evolves L o op d d' ∧ d'.mandate = d.mandate) c.domains
      c'.domains := by
  refine forall₂_and (perform_evolves h) ?_
  have heq : List.Forall₂ (· = ·) c'.mandates c.mandates := List.forall₂_eq_eq_eq ▸ hsame
  rw [mandates, mandates, List.forall₂_map_left_iff, List.forall₂_map_right_iff] at heq
  exact heq.flip

theorem perform_evolves_masterKey (h : c.perform L (o, op) = some c')
    (hop : ∀ network key logId, op ≠ .command (.rotateMasterKey network key) logId) :
    List.Forall₂ (fun d d' => c.Evolves L o op d d' ∧ d'.keys.masterKey = d.keys.masterKey) c.domains
      c'.domains := by
  rcases perform_mandates h with hsame | ⟨network, policy, rfl⟩ | ⟨network, key, logId, rfl⟩
  · exact (perform_evolves_mandates h hsame).imp fun d d' hd => ⟨hd.1, congrArg Prod.snd hd.2⟩
  · refine forall₂_and (perform_evolves h) ?_
    cases h
    rw [configure, setAclPolicy]
    split_ifs
    · exact forall₂_updateFirst (fun d _ => rfl) fun d _ => rfl
    · exact List.forall₂_same.mpr fun d _ => rfl
  · exact absurd rfl (hop network key logId)

end Coordinator

end Rill
