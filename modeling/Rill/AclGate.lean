import Rill.NetworkMandate
import Rill.HandlerCalls
import Rill.RevocationFinal

/-!
# The capability gate of access policies

A node without the capability for access policies is not admitted to a network whose policy is
enabled. A node that resumes is not asked for the capability again. So the gate holds as long as a
policy is enabled only where all nodes have the capability.
-/

namespace Rill

open Interaction.Program

/-- Every node of the network can apply an access policy. -/
def NetworkDomain.AclCapable (d : NetworkDomain) : Prop :=
  ∀ e ∈ d.registry.entries.toList, e.2.capabilities &&& capabilityAcl ≠ 0

instance (d : NetworkDomain) : Decidable d.AclCapable := by
  unfold NetworkDomain.AclCapable
  infer_instance

theorem NetworkDomain.aclCapable_iff {d : NetworkDomain} : d.AclCapable ↔
    ∀ (id : UInt32) (e : NodeEntry), d.registry.entries[id]? = some e →
      e.capabilities &&& capabilityAcl ≠ 0 := by
  refine ⟨fun h id e he => h (id, e) (Std.ExtTreeMap.mem_toList_iff_getElem?_eq_some.mpr he),
    fun h e he => h e.1 e.2 (Std.ExtTreeMap.mem_toList_iff_getElem?_eq_some.mp he)⟩

namespace Coordinator
variable {c c' : Coordinator} {L : Crates}

/-- Where a policy is enabled, all nodes can apply it. -/
def AclReady (c : Coordinator) : Prop := ∀ d ∈ c.domains, d.acl.enabled = true → d.AclCapable

/-- A policy is enabled only where all nodes can apply it. -/
def EnablesReady (c : Coordinator) (a : IterOrder × CoordOp) : Prop :=
  match a.2 with
  | .configure (.setAclPolicy network policy) =>
    policy.enabled = true → ∀ d ∈ c.domains, d.name = network → d.AclCapable
  | _ => True

instance (c : Coordinator) : Decidable c.AclReady := by
  unfold AclReady
  infer_instance

instance (c : Coordinator) (a : IterOrder × CoordOp) : Decidable (c.EnablesReady a) := by
  rcases a with ⟨_, ⟨⟨⟩, _⟩ | ⟨⟨⟩⟩ | ⟨⟨⟩⟩⟩ <;> dsimp only [EnablesReady] <;> infer_instance

theorem aclReady_admitted {authKey : Text} {capabilities : UInt32} {now : UInt64}
    {d : NetworkDomain} {spec : AuthKeySpec} {e : NodeEntry} (hc : c.AclReady)
    (hd : c.Admits authKey capabilities now d) (he : e.capabilities = capabilities) :
    (c.admitted d.name authKey spec e).AclReady := by
  refine forall_updateFirst hc fun d' hd' hready henabled => ?_
  cases hd.found.symm.trans hd'
  refine NetworkDomain.aclCapable_iff.mpr fun id entry hentry => ?_
  rw [Registry.getElem?_admits] at hentry
  split_ifs at hentry
  · cases hentry
    have hgate := hd.acl
    rw [show d.acl.enabled = true from henabled, Bool.true_and, ← he] at hgate
    simpa using hgate
  · exact NetworkDomain.aclCapable_iff.mp (hready henabled) id entry hentry

theorem perform_aclReady {a : IterOrder × CoordOp} (hc : c.AclReady) (hguard : c.EnablesReady a)
    (h : c.perform L a = some c') : c'.AclReady := by
  obtain ⟨o, op⟩ := a
  rcases perform_mandates h with hsame | ⟨network, policy, rfl⟩ | ⟨network, key, logId, rfl⟩
  · by_cases hop : ∃ authKey staticPubkey capabilities routes now logId,
        op = .command (.register authKey staticPubkey capabilities routes now) logId
    · obtain ⟨authKey, staticPubkey, capabilities, routes, now, logId, rfl⟩ := hop
      obtain ⟨⟨r, next⟩, happly, rfl⟩ := Option.map_eq_some_iff.mp h
      obtain ⟨⟨out, c'⟩, hreg, hout⟩ := Option.map_eq_some_iff.mp happly
      cases hout
      rcases register_cases hreg with ⟨err, -, rfl⟩ |
        ⟨d, id, e, found, -, -, -, -, -, -, -, -, rfl⟩ | ⟨d, spec, found, hd, -, -, rfl, -, -⟩
      · exact hc
      · exact hc
      · exact aclReady_admitted hc hd rfl
    · -- the networks keep their policies and gain no nodes
      refine forall_of_forall₂ (perform_evolves_mandates h hsame) hc
        fun d d' hd hready henabled => ?_
      have hacl : d'.acl = d.acl := congrArg Prod.fst hd.2
      refine NetworkDomain.aclCapable_iff.mpr fun id e he => ?_
      rcases hd.1.entry he with he | ⟨authKey, spec, hreg, -⟩
      · exact NetworkDomain.aclCapable_iff.mp (hready (hacl ▸ henabled)) id e he
      · obtain ⟨_, staticPubkey, capabilities, routes, now, logId, rfl, -⟩ := hreg
        exact absurd ⟨_, _, _, _, _, _, rfl⟩ hop
  · cases h
    rw [configure, setAclPolicy]
    split_ifs
    · refine forall_updateFirst hc fun d hd _ henabled => ?_
      exact hguard henabled d (List.mem_of_find?_eq_some hd) (by simpa using List.find?_some hd)
    · exact hc
  · cases h
    exact forall_updateFirst hc fun d _ hready => hready

end Coordinator

/-- Connections are registered where the policy is not enabled, or as nodes that can apply it. -/
def aclDiscipline (L : ServerCrates) : Discipline L where
  inv := Coordinator.AclReady
  guard := Coordinator.EnablesReady
  inv_step _ _ _ := Coordinator.perform_aclReady
  near _ _ := True
  calm _ _ := True
  near_refl _ := trivial
  near_trans _ _ _ _ _ := trivial
  near_step _ _ _ _ _ _ _ := trivial
  allowed _ s
    | .setRegistered n => ∀ d ∈ s.coordinator.domains, ∀ e, d.registry.entries[n]? = some e →
        d.acl.enabled = true → e.capabilities &&& capabilityAcl ≠ 0
    | _ => True

theorem aclDiscipline_holds (L : ServerCrates) : (aclDiscipline L).Holds := by
  have hother : ∀ k s call, Handler.NotRegistering call → (aclDiscipline L).allowed k s call := by
    intro k s call hcall
    cases call with
    | setRegistered n => exact absurd rfl (hcall n)
    | _ => trivial
  have hkeep : ∀ k, ((aclDiscipline L).rules k).Keeps Handler.NotRegistering fun _ => True := fun k =>
    ⟨fun _ _ _ _ => trivial, fun w call hcall _ => hother k _ call hcall,
      fun _ _ _ _ _ _ _ => trivial⟩
  refine Discipline.Pushes.holds ⟨fun k s call h => hother k s call (Discipline.ne_setRegistered h),
    fun k s n hready d hd e he henabled => ?_, fun _ _ _ _ => trivial, fun k n c w _ _ _ => ?_,
    fun k n w _ => ?_, fun k n w _ => ?_⟩
  · exact NetworkDomain.aclCapable_iff.mp (hready d hd henabled) n e he
  · exact safe_of_only (hkeep k) (Handler.pushSnapshot_notRegistering _) trivial
  · exact safe_of_only (hkeep k) (Handler.pushPathEvents_notRegistering n) trivial
  · exact safe_of_only (hkeep k) (Handler.pushRouteMap_notRegistering n) trivial

/-- A connection becomes registered as a node of a network with an enabled policy only if the node
has the capability. -/
def ControlSystem.AclGated (s : ControlSystem) (a : ControlAct) : Prop :=
  ∀ k n, s.registers a = some (k, n) → ∀ d ∈ s.coordinator.domains, ∀ e,
    d.registry.entries[n]? = some e → d.acl.enabled = true → e.capabilities &&& capabilityAcl ≠ 0

/-- The gate holds in a run in which a policy is enabled only where all nodes have the
capability. -/
theorem registered_with_acl_capability (L : ServerCrates) {c : Coordinator} (hc : c.AclReady)
    {acts : List ControlAct}
    (hguard : ControlSystem.Always L c (ControlSystem.Operates Coordinator.EnablesReady) acts) :
    ControlSystem.Always L c ControlSystem.AclGated acts := by
  have hmeets := Discipline.meets (aclDiscipline_holds L) hc (Transition.meets_imp
    (fun s a h op hop => ⟨h op hop, fun _ => trivial⟩) hguard)
  refine Transition.meets_imp (fun s a h k n hregisters => ?_) hmeets
  obtain ⟨next, htask⟩ := ControlSystem.registers_eq hregisters
  exact h k _ next htask

section Lab

/-- Stand-ins for the crates of the server: an exchange without a secret and a tag that repeats its
message. -/
def clearServer : ServerCrates :=
  { clearCrates with
    x25519 := fun _ pub => pub
    x25519Public := fun priv => priv
    hmac := fun _ msg => msg
    verifyStrict := fun seed msg sig => clearCrates.sign seed msg == sig }

/-- The coordinator of the lab with its key configured. -/
def labCoordinator : Coordinator :=
  (freshCoordinator labConfig.machineConfig).configure
    (.addAuthKeySpec labKey { policy := .reusable })

/-- A call at second 100; a proposal has the first place in the log. -/
def labStep : ControlAct := .advance { order := labOrder, clock := 100, logId := ⟨1, 1⟩ }

/-- Message `msg` comes in on connection `k`, and the handler makes `calls` calls. -/
def labHandle (k : ℕ) (msg : ClientMessage) (calls : ℕ) : List ControlAct :=
  .start k msg :: List.replicate calls labStep

def labRegister (pubkey : UInt8) (capabilities : UInt32) : ClientMessage :=
  .register (some { authKey := labKey, staticPubkey := List.replicate 32 pubkey, capabilities })

def labAck (nodeId : UInt32) : ClientMessage :=
  .challengeAck (some (u32be nodeId ++ List.replicate 16 0 ++ List.replicate 32 0))

def labOperate (a : IterOrder × CoordOp) : ControlAct := .outside (.operate a.1 a.2)

def labEnableAcl : ControlAct :=
  labOperate (labOrder, .configure (.setAclPolicy (ascii "lab") { enabled := true }))

/-- Three nodes are registered, as commands of others, and node `nodeId` resumes on connection 0. -/
def labServing (nodeId : UInt32) (pubkey : UInt8) (capabilities : UInt32) : List ControlAct :=
  labRegistrations.map labOperate ++ .outside .accept ::
    labHandle 0 (labRegister pubkey capabilities) 8 ++ labHandle 0 (labAck nodeId) 23

def labAdmission (capabilities : UInt32) : List ControlAct :=
  .outside .accept :: labHandle 0 (labRegister 1 capabilities) 9 ++ labHandle 0 (labAck 0) 19

/-- The node comes back on connection 1, up to where it is registered there. -/
def labResumption (capabilities : UInt32) : List ControlAct :=
  .outside .accept :: labHandle 1 (labRegister 1 capabilities) 8 ++ labHandle 1 (labAck 1) 7

/-- A node without the capability registers, the policy is enabled, and the node comes back. -/
theorem lab_resumes_without_acl :
    labCoordinator.AclReady ∧ ∃ s, ControlSystem.reach clearServer labCoordinator
        (labAdmission 0 ++ labEnableAcl :: labResumption 0) = some s ∧
      s.registers labStep = some (1, 1) ∧ ∃ d ∈ s.coordinator.domains, ∃ e,
        d.registry.entries[(1 : UInt32)]? = some e ∧ d.acl.enabled = true ∧
          e.capabilities &&& capabilityAcl = 0 := by
  have hcheck : (ControlSystem.reach clearServer labCoordinator
      (labAdmission 0 ++ labEnableAcl :: labResumption 0)).any (fun s =>
        s.registers labStep = some (1, 1) ∧
        ∃ d ∈ s.coordinator.domains, d.registry.entries[(1 : UInt32)]?.any fun e =>
          d.acl.enabled = true ∧ e.capabilities &&& capabilityAcl = 0) = true := by
    decide +kernel
  obtain ⟨s, hs, hrest⟩ := (Option.any_eq_true _ _).mp hcheck
  obtain ⟨hregisters, d, hd, hentry⟩ := of_decide_eq_true hrest
  obtain ⟨e, he, hgate⟩ := (Option.any_eq_true _ _).mp hentry
  exact ⟨by decide +kernel, s, hs, hregisters, d, hd, e, he, of_decide_eq_true hgate⟩

/-- A node with the capability registers, the policy is enabled, and the node comes back. -/
theorem lab_resumes_with_acl :
    let acts := labAdmission capabilityAcl ++ labEnableAcl :: labResumption capabilityAcl
    (∃ s, ControlSystem.reach clearServer labCoordinator acts = some s ∧
        s.registers labStep = some (1, 1)) ∧
      ControlSystem.Always clearServer labCoordinator ControlSystem.AclGated (acts ++ [labStep]) := by
  intro acts
  have hcheck : (ControlSystem.reach clearServer labCoordinator acts).any
      (fun s => s.registers labStep = some (1, 1)) = true := by
    decide +kernel
  obtain ⟨s, hs, hregisters⟩ := (Option.any_eq_true _ _).mp hcheck
  exact ⟨⟨s, hs, of_decide_eq_true hregisters⟩,
    registered_with_acl_capability clearServer (by decide +kernel) (by decide +kernel)⟩

end Lab

end Rill
