import Rill.StoredCoordinator

/-!
# Identity of nodes

Over every run of a stored coordinator, restarts included, the ids of new nodes differ, every
registered id is below the next one and the two maps of each registry are inverse to each other, as
long as the counter of ids does not run over. A registration that succeeds leaves the key of the
request bound to the id it returns.
-/

namespace Rill

namespace StoredCoordinator
variable {L : Crates} {s s' : StoredCoordinator} {a : IterOrder × StoredOp}

/-- The counter the next start of the coordinator begins with. -/
def savedCounter (s : StoredCoordinator) : UInt32 := s.saved.elim 1 CoordState.nextNodeId

structure Identified (s : StoredCoordinator) : Prop where
  inverse : ∀ seat ∈ s.coord.roll.seats, seat.registry.Inverse
  below : s.coord.roll.Below
  counter : s.savedCounter = s.coord.nextNodeId

/-- A new node leaves room in the counter. -/
def Room (L : Crates) (s : StoredCoordinator) (a : IterOrder × StoredOp) : Prop :=
  (newNode L s a).isSome → s.coord.nextNodeId.toNat + 1 < 2 ^ 32

theorem identified_fresh (config : MachineConfig) : Identified ⟨freshCoordinator config, none⟩ := by
  refine ⟨?_, ?_, ?_⟩
  · rw [roll_freshCoordinator]
    exact List.forall_mem_map.mpr fun n _ => Registry.inverse_new _
  · rw [roll_freshCoordinator]
    refine List.forall_mem_map.mpr fun n _ id hid => ?_
    simp [Registry.new] at hid
  · rw [freshCoordinator_eq]
    rfl

theorem step_newNode {n : NewNode} (hn : newNode L s a = some n) (h : s.step L a = some s') :
    n.nodeId = s.coord.nextNodeId ∧ s'.coord.nextNodeId = s.coord.nextNodeId + 1 := by
  obtain ⟨spec, e, hstep, -, hid, -⟩ := newNode_admitted hn h
  exact ⟨hid, hstep.nextNodeId_admits⟩

theorem step_of_newNode_none (hs : s.Identified) (hn : newNode L s a = none)
    (h : s.step L a = some s') : s'.coord.nextNodeId = s.coord.nextNodeId := by
  obtain ⟨o, op⟩ := a
  cases op with
  | operate op =>
    obtain ⟨next, hnext, rfl⟩ := step_operate_eq h
    rcases Coordinator.perform_newNode hnext with ⟨m, spec, e, hm, -⟩ | ⟨-, change, hstep, hne⟩
    · nomatch hm.symm.trans hn
    · exact hstep.nextNodeId_eq hne
  | restart signingSeed masterKey =>
    have hcounter := hs.counter
    obtain ⟨-, ⟨hnone, hfresh⟩ | ⟨state, hsome, hrestored⟩⟩ := step_restart h
    · rw [savedCounter, hnone] at hcounter
      rw [hfresh, freshCoordinator_eq]
      exact hcounter
    · rw [savedCounter, hsome] at hcounter
      exact (congrArg Roll.nextNodeId hrestored.roll).trans hcounter

theorem identified_restored {c c' : Coordinator} {state : CoordState}
    (h : c.Restored state c') : Identified ⟨c', some state⟩ := by
  have hroll := h.roll
  have hsub : ∀ d : NetworkDomain,
      (state.nodes.filter fun n => n.networkId == d.networkId).Sublist state.nodes :=
    fun d => List.filter_sublist
  refine ⟨?_, ?_, (congrArg Roll.nextNodeId hroll).symm⟩
  · rw [hroll]
    refine List.forall_mem_map.mpr fun d _ => ?_
    exact Registry.inverse_restore _ _ (h.nodup_ids.sublist ((hsub d).map _))
      (h.nodup_pubkeys.sublist ((hsub d).map _))
  · rw [hroll]
    refine List.forall_mem_map.mpr fun d _ id hid => ?_
    obtain ⟨e, he⟩ := Option.isSome_iff_exists.mp hid
    obtain ⟨hmem, rfl⟩ := (Registry.getElem?_restore _ _
      (h.nodup_ids.sublist ((hsub d).map _))).mp he
    exact h.lt_next e ((hsub d).subset hmem)

theorem step_identified (hs : s.Identified) (hroom : Room L s a) (h : s.step L a = some s') :
    s'.Identified := by
  obtain ⟨o, op⟩ := a
  cases op with
  | restart signingSeed masterKey =>
    obtain ⟨hsaved, ⟨hnone, hfresh⟩ | ⟨state, hsome, hrestored⟩⟩ := step_restart h
    · have hfresh' := identified_fresh ⟨signingSeed, s.coord.networksWith masterKey⟩
      rwa [← hfresh, ← hnone, ← hsaved] at hfresh'
    · have hrestored' := identified_restored hrestored
      rwa [← hsome, ← hsaved] at hrestored'
  | operate op =>
    obtain ⟨next, hnext, rfl⟩ := step_operate_eq h
    have hwritten : (s.coord.written next op).nextNodeId = next.nextNodeId :=
      congrArg Roll.nextNodeId (Coordinator.roll_written hnext)
    rcases Coordinator.perform_newNode hnext with ⟨n, spec, e, hn, hstep, -, -, hpersists⟩ |
      ⟨-, change, hstep, hne⟩
    · have hnext := lt_succ_of_room (hroom (Option.isSome_iff_exists.mpr ⟨n, hn⟩))
      refine ⟨hstep.inverse hs.inverse fun _ _ _ _ => hs.below.fresh,
        hstep.below hs.below fun _ _ _ _ => hnext, ?_⟩
      rw [savedCounter, if_pos hpersists]
      exact hwritten
    · refine ⟨hstep.inverse hs.inverse fun _ _ _ heq => absurd heq (hne _ _ _),
        hstep.below hs.below fun _ _ _ heq => absurd heq (hne _ _ _), ?_⟩
      rw [savedCounter]
      split_ifs
      · exact hwritten
      · exact hs.counter.trans (hstep.nextNodeId_eq hne).symm

/-- The counter of a run that registers few enough nodes has room at each of them. -/
theorem meets_room {as : List (IterOrder × StoredOp)} (hs : s.Identified)
    (hcount : s.coord.nextNodeId.toNat + (newNodes L s as).length < 2 ^ 32) :
    Transition.Meets (step L) (Room L) s as := by
  induction as generalizing s with
  | nil => trivial
  | cons a as ih =>
    have hlength : (newNodes L s (a :: as)).length = (newNode L s a).toList.length +
        ((s.step L a).elim [] fun s' => newNodes L s' as).length := List.length_append
    have hroom : Room L s a := by
      intro hsome
      obtain ⟨n, hn⟩ := Option.isSome_iff_exists.mp hsome
      rw [hn, Option.toList_some, List.length_singleton] at hlength
      omega
    refine ⟨hroom, fun t ht => ih (step_identified hs hroom ht) ?_⟩
    rw [ht, Option.elim_some] at hlength
    cases hn : newNode L s a with
    | none =>
      rw [step_of_newNode_none hs hn ht]
      omega
    | some n =>
      rw [hn, Option.toList_some, List.length_singleton] at hlength
      have hle : s.coord.nextNodeId.toNat + 1 < 2 ^ 32 := by omega
      rw [(step_newNode hn ht).2, UInt32.toNat_add]
      simp only [UInt32.reduceToNat]
      omega

/-- Ids of new nodes are issued once, registered ids have been issued, keys and ids of a registry
determine each other, and a rejected registration leaves the registries and the counter alone. -/
theorem node_identity (L : Crates) (config : MachineConfig) (as : List (IterOrder × StoredOp))
    (s : StoredCoordinator)
    (hcount : (newNodes L ⟨freshCoordinator config, none⟩ as).length < 2 ^ 32 - 1)
    (hrun : Transition.run (step L) ⟨freshCoordinator config, none⟩ as = some s) :
    ((newNodes L ⟨freshCoordinator config, none⟩ as).map NewNode.nodeId).Nodup ∧
      (∀ d ∈ s.coord.domains, (∀ id : UInt32, d.registry.entries[id]?.isSome →
        id < s.coord.nextNodeId) ∧ d.registry.Inverse) ∧
      ∀ authKey staticPubkey capabilities routes now issuance err c,
        s.coord.register L authKey staticPubkey capabilities routes now issuance =
            some (.error err, c) →
          c.nextNodeId = s.coord.nextNodeId ∧
            c.domains.map NetworkDomain.registry = s.coord.domains.map NetworkDomain.registry := by
  have hfresh := identified_fresh config
  have hmeets : Transition.Meets (step L) (Room L) ⟨freshCoordinator config, none⟩ as := by
    refine meets_room hfresh ?_
    have hone : (freshCoordinator config).nextNodeId.toNat = 1 := by
      rw [freshCoordinator_eq]
      rfl
    dsimp only
    omega
  have hs : s.Identified :=
    Transition.invariant (fun _ _ _ hs hroom hstep => step_identified hs hroom hstep) hfresh hmeets hrun
  refine ⟨?_, fun d hd => ?_, ?_⟩
  · rw [List.Nodup, List.pairwise_map]
    refine Transition.pairwise_trace_of_invariant (fun s n => n.nodeId < s.coord.nextNodeId)
      (fun _ _ _ hs hroom hstep => step_identified hs hroom hstep) ?_ ?_ hfresh hmeets
    · intro s a s' n hs hroom hstep hlt
      cases hn : newNode L s a with
      | none => rwa [step_of_newNode_none hs hn hstep]
      | some m =>
        rw [(step_newNode hn hstep).2]
        exact UInt32.lt_trans hlt (lt_succ_of_room (hroom (Option.isSome_iff_exists.mpr ⟨m, hn⟩)))
    · intro s a n hs hroom hn
      have hsucc := lt_succ_of_room (hroom (Option.isSome_iff_exists.mpr ⟨n, hn⟩))
      obtain ⟨t, ht⟩ := exists_step_of_newNode hn
      have hid := (step_newNode hn ht).1
      refine ⟨fun m hm heq => UInt32.lt_irrefl s.coord.nextNodeId ?_, fun s' hs' => ?_⟩
      · rwa [heq, hid] at hm
      · rwa [(step_newNode hn hs').2, hid]
  · exact ⟨hs.below d.seat (List.mem_map_of_mem hd), hs.inverse d.seat (List.mem_map_of_mem hd)⟩
  · intro authKey staticPubkey capabilities routes now issuance err c hreg
    rcases Coordinator.register_cases hreg with ⟨_, -, rfl⟩ | ⟨_, _, _, _, -, -, -, -, -, -, -, hok, -⟩ |
      ⟨_, _, _, -, -, -, -, -, hok⟩
    · exact ⟨rfl, rfl⟩
    · nomatch hok
    · nomatch hok

section Lab

def labOp (cmd : CoordCommand) : IterOrder × StoredOp :=
  (.ofPaths .ascending, .operate (.command cmd ⟨0, 0⟩))

/-- A node registers in each of two networks, the first is revoked, the coordinator is started again
and configured, and a third node registers. -/
def labHistory : List (IterOrder × StoredOp) :=
  let admits (key : Text) := (IterOrder.ofPaths .ascending,
    StoredOp.operate (.configure (.addAuthKeySpec key { policy := .reusable })))
  [admits labKey, admits denKey, labOp (.register labKey (.replicate 32 1) 0 [] 100),
    labOp (.register denKey (.replicate 32 2) 0 [] 100), labOp (.revoke 1 200),
    (.ofPaths .ascending, .restart (.replicate 32 7) fun _ => .replicate 32 1), admits denKey,
    labOp (.register denKey (.replicate 32 3) 0 [] 300)]

theorem lab_ids_differ : ∃ s, Transition.run (step clearCrates)
      ⟨freshCoordinator labConfig.machineConfig, none⟩ labHistory = some s ∧
    ([1, 2, 3] : List UInt32).Nodup ∧ ∀ d ∈ s.coord.domains, d.registry.Inverse := by
  have hnew : newNodes clearCrates ⟨freshCoordinator labConfig.machineConfig, none⟩ labHistory =
      [⟨labKey, .reusable, 1⟩, ⟨denKey, .reusable, 2⟩, ⟨denKey, .reusable, 3⟩] := by
    decide +kernel
  have hends : (Transition.run (step clearCrates)
      ⟨freshCoordinator labConfig.machineConfig, none⟩ labHistory).isSome := by
    decide +kernel
  obtain ⟨s, hs⟩ := Option.isSome_iff_exists.mp hends
  have hcount : (newNodes clearCrates ⟨freshCoordinator labConfig.machineConfig, none⟩
      labHistory).length < 2 ^ 32 - 1 := by
    rw [hnew]
    decide
  obtain ⟨hids, hregs, -⟩ :=
    node_identity clearCrates labConfig.machineConfig labHistory s hcount hs
  refine ⟨s, hs, ?_, fun d hd => (hregs d hd).2⟩
  rwa [hnew] at hids

end Lab

end StoredCoordinator

end Rill
