import Rill.Restore

/-!
# A coordinator with its store

A coordinator that writes its state through to a store (`persist` of
`rill-coord/src/coordinator/mod.rs`) and is started again from what the store holds. `persists` says
which operations write. Configuration is never written. Each write succeeds. A restart builds the
networks of the coordinator anew, with the keys the configuration gives them then, and does not
happen if the stored state is refused.
-/

namespace Rill

namespace Coordinator

/-- The operation ends with the state in the store. -/
def persists (c : Coordinator) (L : Crates) : CoordOp → Bool
  | .command cmd logId =>
    match cmd with
    | .register authKey staticPubkey capabilities routes now =>
      (c.register L authKey staticPubkey capabilities routes now (logId.index, logId.term)).any
        fun out => out.1.isOk
    | .revoke nodeId now => c.rotationDue now || c.isRegistered nodeId
    | .setEndpoints _ _ _ => true
    | .requestPaths source dest _ _ =>
      (c.domainOfNode source).any fun sd => (c.domainOfNode dest).any fun dd =>
        sd.networkId == dd.networkId
    | .setRelayRoster networkId _ _ => (c.domainByNetworkId networkId).isSome
    | .rotateMasterKey network _ => (c.domainByName network).isSome
    | .flushRevokeRotations now => c.rotationDue now
  | .unlogged (.heartbeat _ now) => c.rotationDue now
  | .unlogged _ => false
  | .configure _ => false

/-- The coordinator as it is when an operation writes it: a heartbeat writes after the rotations it
finds due, before it looks at the leases; every other operation writes at its end. -/
def written (c next : Coordinator) : CoordOp → Coordinator
  | .unlogged (.heartbeat _ now) => (c.flushRevokeRotations now).2
  | _ => next

/-- The networks of a coordinator with the keys a configuration gives them. -/
def networksWith (c : Coordinator) (masterKey : Text → Key32) : List (Text × Key32) :=
  c.domains.map fun d => (d.name, masterKey d.name)

end Coordinator

structure StoredCoordinator where
  coord : Coordinator
  saved : Option CoordState := none

inductive StoredOp where
  | operate (op : CoordOp)
  | restart (signingSeed : Key32) (masterKey : Text → Key32)

/-- A node registered as new: the key it came with, the policy of the key then, and its id. -/
structure NewNode where
  authKey : Text
  policy : AuthKeyPolicy
  nodeId : UInt32
  deriving DecidableEq

namespace Coordinator

def authKeySpec (c : Coordinator) (authKey : Text) : Option AuthKeySpec :=
  match AuthKey.parse authKey with
  | .error _ => none
  | .ok (network, _) => (c.domainByName network).bind fun d => d.registry.authKeys[authKey]?

/-- The new node of an operation. A registration that finds its node registered leaves the counter
of ids where it is; a new node moves it. -/
def newNode (c : Coordinator) (L : Crates) : CoordOp → Option NewNode
  | .command (.register authKey staticPubkey capabilities routes now) logId =>
    match c.register L authKey staticPubkey capabilities routes now (logId.index, logId.term) with
    | some (.ok data, next) =>
      if next.nextNodeId = c.nextNodeId then none
      else (c.authKeySpec authKey).map fun spec => ⟨authKey, spec.policy, data.nodeId⟩
    | _ => none
  | _ => none

end Coordinator

namespace StoredCoordinator
variable (L : Crates)

def step (s : StoredCoordinator) (a : IterOrder × StoredOp) : Option StoredCoordinator :=
  match a.2 with
  | .operate op => (s.coord.perform L (a.1, op)).map fun next =>
    { coord := next
      saved := if s.coord.persists L op then some ((s.coord.written next op).snapshot a.1)
        else s.saved }
  | .restart signingSeed masterKey =>
    (Coordinator.openSaved ⟨signingSeed, s.coord.networksWith masterKey⟩ s.saved).toOption.map
      fun coord => { s with coord }

def newNode (s : StoredCoordinator) (a : IterOrder × StoredOp) : Option NewNode :=
  match a.2 with
  | .operate op => s.coord.newNode L op
  | .restart _ _ => none

def newNodes (s : StoredCoordinator) (as : List (IterOrder × StoredOp)) : List NewNode :=
  Transition.trace (step L) (newNode L) s as

end StoredCoordinator

theorem freshCoordinator_eq (config : MachineConfig) : freshCoordinator config =
    { Coordinator.new config.signingSeed with
      domains := config.networks.map fun n => NetworkDomain.new n.1 (networkIdFor n.1) n.2 } := by
  have hfold : ∀ (ns : List (Text × Key32)) (c : Coordinator),
      ns.foldl (fun c n => c.addNetwork n.1 n.2) c =
        { c with domains := c.domains ++ ns.map fun n =>
            NetworkDomain.new n.1 (networkIdFor n.1) n.2 } := by
    intro ns
    induction ns with
    | nil => simp
    | cons n ns ih =>
      intro c
      rw [List.foldl_cons, ih, Coordinator.addNetwork, List.append_assoc]
      rfl
  rw [freshCoordinator, hfold]
  rfl

theorem roll_freshCoordinator (config : MachineConfig) : (freshCoordinator config).roll =
    ⟨1, config.networks.map fun n => ⟨n.1, networkIdFor n.1, Registry.new (networkIdFor n.1)⟩⟩ := by
  rw [freshCoordinator_eq, Coordinator.roll, List.map_map]
  rfl

namespace Coordinator
variable {c c' : Coordinator} {L : Crates}

theorem roll_written {o : IterOrder} {op : CoordOp} (h : c.perform L (o, op) = some c') :
    (c.written c' op).roll = c'.roll := by
  cases op with
  | command cmd logId => rfl
  | configure op => rfl
  | unlogged op =>
    cases op with
    | heartbeat nodeId now =>
      cases h
      rw [roll_runLocal]
      exact c.roll_flushRevokeRotations now
    | _ => rfl

theorem authKeySpec_eq {authKey : Text} {capabilities : UInt32} {now : UInt64} {d : NetworkDomain}
    (hd : c.Admits authKey capabilities now d) :
    c.authKeySpec authKey = d.registry.authKeys[authKey]? := by
  obtain ⟨expiry, secret, hparse, -⟩ := hd.parsed
  rw [authKeySpec, hparse]
  dsimp only
  rw [hd.found, Option.bind_some]

theorem nodeId_of_nodeEntry {nodeId : UInt32} {e : NodeEntry} (h : c.nodeEntry nodeId = some e) :
    e.nodeId = nodeId := by
  obtain ⟨d, -, he⟩ := Option.bind_eq_some_iff.mp h
  exact d.registry.keyed nodeId e he

theorem perform_newNode {o : IterOrder} {op : CoordOp} (h : c.perform L (o, op) = some c') :
    (∃ n spec e, c.newNode L op = some n ∧ c.roll.Step (.admits n.authKey spec e) c'.roll ∧
      spec.policy = n.policy ∧ n.nodeId = c.nextNodeId ∧ c.persists L op = true) ∨
    c.newNode L op = none ∧ ∃ change, c.roll.Step change c'.roll ∧
      ∀ authKey spec e, change ≠ .admits authKey spec e := by
  have hother (hop : ∀ authKey staticPubkey capabilities routes now logId,
      op ≠ .command (.register authKey staticPubkey capabilities routes now) logId) :
      ∃ change, c.roll.Step change c'.roll ∧ ∀ authKey spec e, change ≠ .admits authKey spec e := by
    obtain ⟨change, hstep, hreg⟩ := perform_step h
    refine ⟨change, hstep, fun authKey spec e heq => ?_⟩
    obtain ⟨d, staticPubkey, capabilities, routes, now, logId, hcmd, -⟩ := hreg authKey spec e heq
    exact hop _ _ _ _ _ _ hcmd
  cases op with
  | unlogged op => exact Or.inr ⟨rfl, hother fun _ _ _ _ _ _ => (nomatch ·)⟩
  | configure op => exact Or.inr ⟨rfl, hother fun _ _ _ _ _ _ => (nomatch ·)⟩
  | command cmd logId =>
    cases cmd with
    | register authKey staticPubkey capabilities routes now =>
      obtain ⟨⟨r, next⟩, happly, rfl⟩ := Option.map_eq_some_iff.mp h
      obtain ⟨⟨out, c'⟩, hreg, hout⟩ := Option.map_eq_some_iff.mp happly
      cases hout
      rw [newNode, persists, hreg]
      rcases register_cases hreg with ⟨err, rfl, rfl⟩ |
        ⟨d, id, e, found, -, -, -, -, -, -, -, rfl, rfl⟩ |
        ⟨d, spec, found, hd, hkey, hnew, rfl, hfound, rfl⟩
      · exact Or.inr ⟨rfl, .keep, .keep, fun _ _ _ => (nomatch ·)⟩
      · exact Or.inr ⟨if_pos rfl, .keep, .keep, fun _ _ _ => (nomatch ·)⟩
      · refine Or.inl ⟨⟨authKey, spec.policy, found.nodeId⟩, spec, c.newEntry L d staticPubkey
          capabilities routes (logId.index, logId.term), ?_, ?_, rfl, ?_, rfl⟩
        · have hmoved : c.nextNodeId + 1 ≠ c.nextNodeId := by simp
          dsimp only
          rw [authKeySpec_eq hd, hkey]
          exact if_neg hmoved
        · rw [roll_admitted]
          exact .admits (admission_of_admits hd hkey hnew)
        · exact nodeId_of_nodeEntry hfound
    | _ => exact Or.inr ⟨rfl, hother fun _ _ _ _ _ _ => (nomatch ·)⟩

end Coordinator

namespace StoredCoordinator
variable {L : Crates} {s s' : StoredCoordinator} {o : IterOrder}

theorem step_operate_eq {op : CoordOp} (h : s.step L (o, .operate op) = some s') :
    ∃ next, s.coord.perform L (o, op) = some next ∧ s' = ⟨next,
      if s.coord.persists L op then some ((s.coord.written next op).snapshot o) else s.saved⟩ := by
  obtain ⟨next, hnext, rfl⟩ := Option.map_eq_some_iff.mp h
  exact ⟨next, hnext, rfl⟩

theorem exists_step_of_newNode {a : IterOrder × StoredOp} {n : NewNode} (hn : newNode L s a = some n) :
    ∃ s', s.step L a = some s' := by
  obtain ⟨o, op⟩ := a
  cases op with
  | restart signingSeed masterKey => cases hn
  | operate op =>
    cases op with
    | unlogged op => cases hn
    | configure op => cases hn
    | command cmd logId =>
      cases cmd with
      | register authKey staticPubkey capabilities routes now =>
        cases hreg : s.coord.register L authKey staticPubkey capabilities routes now
            (logId.index, logId.term) with
        | none =>
          simp only [newNode, Coordinator.newNode, hreg] at hn
          cases hn
        | some out => simp [step, Coordinator.perform, Coordinator.applyCommand, hreg]
      | _ => cases hn

theorem newNode_admitted {a : IterOrder × StoredOp} {n : NewNode} (hn : newNode L s a = some n)
    (h : s.step L a = some s') : ∃ spec e, s.coord.roll.Step (.admits n.authKey spec e) s'.coord.roll ∧
      spec.policy = n.policy ∧ n.nodeId = s.coord.nextNodeId ∧
      ∃ (o : IterOrder) (written : Coordinator),
        s'.saved = some (written.snapshot o) ∧ written.roll = s'.coord.roll := by
  obtain ⟨o, op⟩ := a
  cases op with
  | restart signingSeed masterKey => nomatch hn
  | operate op =>
    obtain ⟨next, hnext, rfl⟩ := step_operate_eq h
    rcases Coordinator.perform_newNode hnext with ⟨m, spec, e, hm, hstep, hspec, hid, hpersists⟩ |
      ⟨hnone, -⟩
    · cases hm.symm.trans hn
      exact ⟨spec, e, hstep, hspec, hid, o, s.coord.written next op, if_pos hpersists,
        Coordinator.roll_written hnext⟩
    · nomatch hnone.symm.trans hn

/-- A coordinator comes up again empty if nothing was stored, or from a state that passed the
checks. -/
theorem step_restart {signingSeed : Key32} {masterKey : Text → Key32}
    (h : s.step L (o, .restart signingSeed masterKey) = some s') :
    s'.saved = s.saved ∧
      (s.saved = none ∧
        s'.coord = freshCoordinator ⟨signingSeed, s.coord.networksWith masterKey⟩ ∨
      ∃ state, s.saved = some state ∧
        (freshCoordinator ⟨signingSeed, s.coord.networksWith masterKey⟩).Restored state s'.coord) := by
  obtain ⟨coord, hopen, rfl⟩ := Option.map_eq_some_iff.mp h
  refine ⟨rfl, ?_⟩
  cases hsaved : s.saved with
  | none =>
    rw [hsaved] at hopen
    exact Or.inl ⟨rfl, (Option.some.inj hopen).symm⟩
  | some state =>
    rw [hsaved] at hopen
    refine Or.inr ⟨state, rfl, ?_⟩
    cases hresult : Coordinator.openSaved ⟨signingSeed, s.coord.networksWith masterKey⟩ (some state) with
    | error e =>
      rw [hresult] at hopen
      nomatch hopen
    | ok c =>
      rw [hresult] at hopen
      cases hopen
      obtain ⟨⟨⟩, -, hrestore⟩ := AuthKey.exists_ok_of_bind hresult
      exact Coordinator.restored_of_ok hrestore

end StoredCoordinator

/-! ## What a restore asks for -/

namespace Coordinator
variable {c : Coordinator}

/-- What the checks of a restore ask for. -/
structure Restorable (c : Coordinator) : Prop where
  named : ∀ d ∈ c.domains, d.networkId = networkIdFor d.name
  networks : (c.domains.map NetworkDomain.networkId).Nodup
  next_ne_zero : c.nextNodeId ≠ 0
  below : c.roll.Below
  sound : ∀ s ∈ c.roll.seats, s.Sound
  inverse : ∀ s ∈ c.roll.seats, s.registry.Inverse
  apart : c.roll.Apart
  keysApart : c.roll.KeysApart

theorem restorable_iff_roll : c.Restorable ↔
    (∀ s ∈ c.roll.seats, s.networkId = networkIdFor s.name) ∧
      (c.roll.seats.map Seat.networkId).Nodup ∧ c.roll.nextNodeId ≠ 0 ∧ c.roll.Below ∧
      (∀ s ∈ c.roll.seats, s.Sound) ∧ (∀ s ∈ c.roll.seats, s.registry.Inverse) ∧ c.roll.Apart ∧
      c.roll.KeysApart := by
  have hnamed : (∀ s ∈ c.roll.seats, s.networkId = networkIdFor s.name) ↔
      ∀ d ∈ c.domains, d.networkId = networkIdFor d.name := List.forall_mem_map
  have hnetworks : c.roll.seats.map Seat.networkId = c.domains.map NetworkDomain.networkId := by
    rw [roll, List.map_map]
    rfl
  rw [hnamed, hnetworks]
  constructor
  · intro h
    exact ⟨h.1, h.2, h.3, h.4, h.5, h.6, h.7, h.8⟩
  · rintro ⟨h₁, h₂, h₃, h₄, h₅, h₆, h₇, h₈⟩
    exact ⟨h₁, h₂, h₃, h₄, h₅, h₆, h₇, h₈⟩

theorem restorable_fresh (config : MachineConfig)
    (hids : (config.networks.map fun n => networkIdFor n.1).Nodup) :
    (freshCoordinator config).Restorable := by
  rw [restorable_iff_roll, roll_freshCoordinator]
  have hempty : ∀ n ∈ config.networks, ∀ id : UInt32,
      (Registry.new (networkIdFor n.1)).entries[id]? = none := fun n _ id => by simp [Registry.new]
  refine ⟨List.forall_mem_map.mpr fun _ _ => rfl, ?_, (by decide : (1 : UInt32) ≠ 0), ?_, ?_, ?_, ?_, ?_⟩
  · rwa [List.map_map]
  · refine List.forall_mem_map.mpr fun n hn id hid => ?_
    rw [hempty n hn id] at hid
    cases hid
  · refine List.forall_mem_map.mpr fun n hn => ⟨rfl, fun id e he => ?_, fun key hkey => ?_⟩
    · cases (hempty n hn id).symm.trans he
    · simp [Registry.new] at hkey
  · exact List.forall_mem_map.mpr fun n _ => Registry.inverse_new _
  · refine List.pairwise_map.mpr (List.pairwise_of_forall fun n n' id hid => ?_)
    simp [Registry.new] at hid
  · refine List.pairwise_map.mpr (List.pairwise_of_forall fun n n' key hkey => ?_)
    simp [Registry.new] at hkey

end Coordinator

end Rill
