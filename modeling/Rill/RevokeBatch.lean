import Rill.BatchWindow
import Rill.NetworkMandate
import Rill.RevocationFinal

/-!
# Rotations after revocations

The key version of a network is batched (`BatchWindow`): a revocation in the network opens a window
of 60 seconds unless one is open, and the first revocation, heartbeat or flush at or after its end
raises the version, also one for another network. An explicit rotation raises it at once and closes
the window. The version wraps at its width, and so does the end of a window.
-/

namespace Rill
open BatchWindow

theorem getElem?_updateFirst {α : Type} (p : α → Bool) (f : α → α) (l : List α) (i : ℕ) :
    (updateFirst p f l)[i]? = if l.findIdx? p = some i then l[i]?.map f else l[i]? := by
  induction l generalizing i with
  | nil => simp [updateFirst]
  | cons a l ih =>
    rw [updateFirst, List.findIdx?_cons]
    by_cases ha : p a = true
    · rw [if_pos ha, if_pos ha]
      cases i with
      | zero => rfl
      | succ i => rw [if_neg (by simp), List.getElem?_cons_succ, List.getElem?_cons_succ]
    · rw [if_neg ha, if_neg ha]
      cases i with
      | zero => simp
      | succ i => simp [ih]

namespace KeyManager
variable {k : KeyManager} {now : UInt64}

def batch (k : KeyManager) : BatchWindow.State :=
  ⟨k.keyVersion.toNat, k.pendingRevokeRotation.map UInt64.toNat⟩

theorem toNat_version_succ (h : k.keyVersion.toNat + 1 < 2 ^ 32) :
    (k.keyVersion + 1).toNat = k.keyVersion.toNat + 1 := by
  rw [UInt32.toNat_add]
  exact Nat.mod_eq_of_lt h

theorem rotationDue_eq (k : KeyManager) (now : UInt64) :
    k.rotationDue now = k.batch.deadline.any (· ≤ now.toNat) := by
  rw [rotationDue, batch]
  cases k.pendingRevokeRotation with
  | none => rfl
  | some d => rfl

theorem batch_takeRevokeRotation (h : k.keyVersion.toNat + 1 < 2 ^ 32) :
    (k.takeRevokeRotation now).2.batch = k.batch.check now.toNat := by
  rw [takeRevokeRotation, rotationDue_eq, State.check]
  split_ifs
  · rw [batch, batch, toNat_version_succ h]
    rfl
  · rfl

theorem batch_armRevokeRotation (h : now.toNat + 60 < 2 ^ 64) :
    (k.armRevokeRotation (now + NetworkDomain.revokeRotationWindowSecs)).batch =
      { k.batch with deadline := k.batch.deadline.or (some (now.toNat + 60)) } := by
  have hdeadline : (now + NetworkDomain.revokeRotationWindowSecs).toNat = now.toNat + 60 := by
    rw [UInt64.toNat_add]
    exact Nat.mod_eq_of_lt h
  rw [armRevokeRotation, batch, batch]
  cases hp : k.pendingRevokeRotation with
  | none => simp [hdeadline]
  | some d => simp [hp]

theorem batch_rotate (h : k.keyVersion.toNat + 1 < 2 ^ 32) (newMasterKey : Key32) :
    (k.rotate newMasterKey).clearRevokeRotation.batch = ⟨k.batch.count + 1, none⟩ :=
  congrArg (State.mk · none) (toNat_version_succ h)

end KeyManager

namespace CoordOp

def rotationTime : CoordOp → Option UInt64
  | .command (.revoke _ now) _ => some now
  | .command (.flushRevokeRotations now) _ => some now
  | .unlogged (.heartbeat _ now) => some now
  | _ => none

def revokeTime : CoordOp → Option UInt64
  | .command (.revoke _ now) _ => some now
  | _ => none

/-- The first operation is not later than the second, where both have a time. -/
def NotLater (op op' : CoordOp) : Prop :=
  ∀ s ∈ op.rotationTime, ∀ t ∈ op'.rotationTime, s ≤ t

instance (op op' : CoordOp) : Decidable (op.NotLater op') :=
  decidable_of_iff ((op.rotationTime.all fun s => op'.rotationTime.all fun t => s ≤ t) = true) (by
    simp [NotLater, Option.all_eq_true])

end CoordOp

namespace Coordinator
variable {c c' : Coordinator} {L : Crates} {o : IterOrder} {op : CoordOp} {i : ℕ}

/-- What an operation is to the rotations of the network at position `i`. -/
def rotationEvent (c : Coordinator) (i : ℕ) : CoordOp → Event
  | .command (.revoke nodeId now) _ =>
    if c.domains.findIdx? (fun d => d.registry.entries[nodeId]?.isSome) = some i then
      .request now.toNat
    else .check now.toNat
  | .command (.flushRevokeRotations now) _ => .check now.toNat
  | .unlogged (.heartbeat _ now) => .check now.toNat
  | .command (.rotateMasterKey network _) _ =>
    if c.domains.findIdx? (fun d => d.name == network) = some i then .reset else .idle
  | _ => .idle

/-- Neither a key version nor the end of a window wraps. -/
def RotationFits (c : Coordinator) (a : IterOrder × CoordOp) : Prop :=
  (∀ d ∈ c.domains, d.keys.keyVersion.toNat + 1 < 2 ^ 32) ∧
    ∀ now ∈ a.2.revokeTime, now.toNat + 60 < 2 ^ 64

instance (c : Coordinator) (a : IterOrder × CoordOp) : Decidable (c.RotationFits a) :=
  decidable_of_iff ((∀ d ∈ c.domains, d.keys.keyVersion.toNat + 1 < 2 ^ 32) ∧
    (a.2.revokeTime.all fun now => now.toNat + 60 < 2 ^ 64) = true) (by
    simp [RotationFits, Option.all_eq_true])

def batchAt (c : Coordinator) (i : ℕ) : Option BatchWindow.State :=
  (c.charges[i]?).map fun m => m.2.batch

theorem batchAt_eq (c : Coordinator) (i : ℕ) :
    c.batchAt i = (c.domains[i]?).map fun d => d.keys.batch := by
  rw [batchAt, charges, List.getElem?_map, Option.map_map]
  rfl

theorem batchAt_of_charges (h : c'.charges = c.charges) : c'.batchAt i = c.batchAt i := by
  rw [batchAt, h, batchAt]

theorem batchAt_flushRevokeRotations {now : UInt64}
    (h : ∀ d ∈ c.domains, d.keys.keyVersion.toNat + 1 < 2 ^ 32) :
    (c.flushRevokeRotations now).2.batchAt i = (c.batchAt i).map (·.check now.toNat) := by
  rw [batchAt_eq, batchAt_eq, flushRevokeRotations, List.getElem?_map]
  cases hd : c.domains[i]? with
  | none => rfl
  | some d =>
    exact congrArg some (KeyManager.batch_takeRevokeRotation (h d (List.mem_of_getElem? hd)))

theorem batchAt_revoke {nodeId : UInt32} {now : UInt64} {logId : LogId}
    (hversions : ∀ d ∈ c.domains, d.keys.keyVersion.toNat + 1 < 2 ^ 32)
    (hnow : now.toNat + 60 < 2 ^ 64) :
    (c.revoke o nodeId now (logId.index, logId.term)).batchAt i =
      (c.batchAt i).map (·.step 60 (c.rotationEvent i (.command (.revoke nodeId now) logId))) := by
  have hflush : (c.flushRevokeRotations now).2.batchAt i = (c.batchAt i).map (·.check now.toNat) :=
    batchAt_flushRevokeRotations hversions
  have hfound : (c.flushRevokeRotations now).2.domains.findIdx?
      (fun d => d.registry.entries[nodeId]?.isSome) =
        c.domains.findIdx? (fun d => d.registry.entries[nodeId]?.isSome) := by
    rw [flushRevokeRotations, List.findIdx?_map]
    rfl
  rw [revoke, rotationEvent]
  split_ifs with hany hnode hnode
  · rw [batchAt_eq, getElem?_updateFirst, hfound, if_pos hnode, Option.map_map]
    rw [batchAt_eq] at hflush
    cases hd : (c.flushRevokeRotations now).2.domains[i]? with
    | none =>
      rw [hd] at hflush
      exact (Option.map_eq_none_iff.mpr (Option.map_eq_none_iff.mp hflush.symm)).symm
    | some d =>
      rw [hd] at hflush
      obtain ⟨s, hs, hcheck⟩ := Option.map_eq_some_iff.mp hflush.symm
      rw [hs]
      have hkeys : s.check now.toNat = d.keys.batch := hcheck
      refine congrArg some ((KeyManager.batch_armRevokeRotation hnow).trans ?_)
      rw [← hkeys]
      rfl
  · rw [batchAt_eq, getElem?_updateFirst, hfound, if_neg hnode, ← batchAt_eq]
    exact hflush
  · have hsome := congrArg Option.isSome (hfound.trans hnode)
    rw [List.findIdx?_isSome] at hsome
    exact absurd hsome hany
  · exact hflush

theorem batchAt_rotateMasterKey (network : Text) (newMasterKey : Key32) (logId : LogId)
    (hversions : ∀ d ∈ c.domains, d.keys.keyVersion.toNat + 1 < 2 ^ 32) :
    (c.rotateMasterKey network newMasterKey).batchAt i = (c.batchAt i).map
      (·.step 60 (c.rotationEvent i (.command (.rotateMasterKey network newMasterKey) logId))) := by
  rw [batchAt_eq, batchAt_eq, rotateMasterKey, updateNamed, getElem?_updateFirst, rotationEvent]
  split_ifs with hname
  · cases hd : c.domains[i]? with
    | none => rfl
    | some d =>
      exact congrArg some (KeyManager.batch_rotate (hversions d (List.mem_of_getElem? hd)) _)
  · exact Option.map_id'.symm

theorem batchAt_configure (c : Coordinator) (op : ConfigOp) :
    (c.configure op).batchAt i = c.batchAt i := by
  rcases c.charges_configure op with hsame | ⟨network, policy, rfl⟩
  · exact batchAt_of_charges hsame
  · rw [configure, setAclPolicy]
    split_ifs
    · rw [batchAt_eq, batchAt_eq, ← List.getElem?_map, ← List.getElem?_map]
      refine congrArg (fun l : List BatchWindow.State => l[i]?) (map_updateFirst_of_eq ?_ c.domains)
      exact fun _ => rfl
    · rfl

theorem perform_batchAt (h : c.perform L (o, op) = some c') (hfits : c.RotationFits (o, op)) :
    c'.batchAt i = (c.batchAt i).map (·.step 60 (c.rotationEvent i op)) := by
  have hidle : ∀ s : Option BatchWindow.State, s.map (·.step 60 .idle) = s :=
    fun s => Option.map_id'
  cases op with
  | unlogged op =>
    cases h
    by_cases hop : ∃ nodeId now, op = .heartbeat nodeId now
    · obtain ⟨nodeId, now, rfl⟩ := hop
      exact (batchAt_of_charges (c.charges_heartbeat o nodeId now)).trans
        (batchAt_flushRevokeRotations hfits.1)
    · have hevent : c.rotationEvent i (.unlogged op) = .idle := by
        cases op with
        | heartbeat nodeId now => exact absurd ⟨nodeId, now, rfl⟩ hop
        | _ => rfl
      rw [hevent, hidle]
      exact batchAt_of_charges ((c.charges_runLocal L o op).resolve_right hop)
  | configure op =>
    cases h
    exact (c.batchAt_configure op).trans (hidle _).symm
  | command cmd logId =>
    obtain ⟨⟨r, next⟩, happly, rfl⟩ := Option.map_eq_some_iff.mp h
    cases cmd with
    | register authKey staticPubkey capabilities routes now =>
      obtain ⟨⟨out, c'⟩, hreg, hout⟩ := Option.map_eq_some_iff.mp happly
      cases hout
      exact (batchAt_of_charges (charges_register hreg)).trans (hidle _).symm
    | revoke nodeId now =>
      cases happly
      exact batchAt_revoke hfits.1 (hfits.2 now rfl)
    | setEndpoints nodeId localAddrs seen =>
      cases happly
      exact (hidle _).symm
    | requestPaths source dest max now =>
      cases happly
      exact (batchAt_of_charges (c.charges_requestPaths L source dest max now)).trans (hidle _).symm
    | setRelayRoster networkId roster now =>
      cases happly
      exact (batchAt_of_charges (c.charges_applyRelayRoster o networkId roster now)).trans
        (hidle _).symm
    | rotateMasterKey network key =>
      cases happly
      exact batchAt_rotateMasterKey network key logId hfits.1
    | flushRevokeRotations now =>
      cases happly
      exact batchAt_flushRevokeRotations hfits.1

theorem time_rotationEvent {now : ℕ} (h : (c.rotationEvent i op).time = some now) :
    ∃ t ∈ op.rotationTime, t.toNat = now := by
  rw [rotationEvent.eq_def] at h
  split at h
  · split_ifs at h
    · exact ⟨_, rfl, Option.some.inj h⟩
    · exact ⟨_, rfl, Option.some.inj h⟩
  · exact ⟨_, rfl, Option.some.inj h⟩
  · exact ⟨_, rfl, Option.some.inj h⟩
  · split_ifs at h <;> cases h
  · cases h

section History
variable (L : Crates) (c : Coordinator) (as : List (IterOrder × CoordOp)) (i : ℕ)

def stateAt (k : ℕ) : Coordinator := (Transition.run (perform L) c (as.take k)).getD c

def eventAt (k : ℕ) : Event := (as[k]?).elim .idle fun a => (stateAt L c as k).rotationEvent i a.2

def versionAt (k : ℕ) : ℕ :=
  ((stateAt L c as k).domains[i]?).elim 0 fun d => d.keys.keyVersion.toNat

def batchBefore (k : ℕ) : BatchWindow.State := ((stateAt L c as k).batchAt i).getD ⟨0, none⟩

theorem counts_batchBefore : counts (batchBefore L c as i) = versionAt L c as i := by
  funext k
  rw [counts, batchBefore, versionAt, batchAt_eq]
  cases (stateAt L c as k).domains[i]? with
  | none => rfl
  | some d => rfl

variable {L c as i}

theorem sorted_eventAt (h : as.Pairwise fun a b => a.2.NotLater b.2) :
    Sorted (eventAt L c as i) as.length := by
  intro j k hjk hk s t hs ht
  have hj : j < as.length := hjk.trans hk
  rw [eventAt, List.getElem?_eq_getElem hj] at hs
  rw [eventAt, List.getElem?_eq_getElem hk] at ht
  obtain ⟨u, hu, rfl⟩ := time_rotationEvent hs
  obtain ⟨v, hv, rfl⟩ := time_rotationEvent ht
  exact List.pairwise_iff_getElem.mp h j k hj hk hjk u hu v hv

theorem batchBefore_succ (hrun : (Transition.run (perform L) c as).isSome = true)
    (hfits : Transition.Meets (perform L) RotationFits c as) (hi : (c.batchAt i).isSome = true)
    {k : ℕ} (hk : k < as.length) :
    batchBefore L c as i (k + 1) = (batchBefore L c as i k).step 60 (eventAt L c as i k) := by
  obtain ⟨t, t', ht, hstep, ht'⟩ := Transition.run_take_succ hrun hk
  have hsplit : as = as.take k ++ as[k] :: as.drop (k + 1) := by
    rw [List.getElem_cons_drop, List.take_append_drop]
  have htfits : t.RotationFits as[k] := Transition.meets_iff.mp hfits _ _ _ _ hsplit ht
  have hbefore : Transition.Meets (perform L) RotationFits c (as.take k) := by
    rw [hsplit] at hfits
    exact (Transition.meets_append.mp hfits).1
  have hkeeps : ∀ (c : Coordinator) (a : IterOrder × CoordOp) (c' : Coordinator),
      (c.batchAt i).isSome = true → c.RotationFits a → c.perform L a = some c' →
        (c'.batchAt i).isSome = true := by
    intro c a c' hc hguard hperform
    rw [perform_batchAt hperform hguard, Option.isSome_map]
    exact hc
  have hsome : (t.batchAt i).isSome = true := Transition.invariant hkeeps hi hbefore ht
  obtain ⟨b, hb⟩ := Option.isSome_iff_exists.mp hsome
  have hnext := perform_batchAt (i := i) hstep htfits
  rw [batchBefore, batchBefore, eventAt, stateAt, stateAt, ht, ht', Option.getD_some,
    Option.getD_some, hnext, hb, List.getElem?_eq_getElem hk]
  rfl

end History

/-- The key version of each network is batched, in every run in which neither a version nor the end
of a window wraps. -/
theorem rotations_batched (L : Crates) (config : MachineConfig) (as : List (IterOrder × CoordOp))
    (hrun : (Transition.run (perform L) (freshCoordinator config) as).isSome = true)
    (hsorted : as.Pairwise fun a b => a.2.NotLater b.2)
    (hfits : Transition.Meets (perform L) RotationFits (freshCoordinator config) as)
    (i : ℕ) (hi : i < config.networks.length) :
    Batched 60 (eventAt L (freshCoordinator config) as i)
      (versionAt L (freshCoordinator config) as i) as.length := by
  have hstart : (freshCoordinator config).batchAt i = some ⟨1, none⟩ := by
    rw [batchAt_eq, freshCoordinator_eq, List.getElem?_map, List.getElem?_eq_getElem hi]
    rfl
  have hzero : (batchBefore L (freshCoordinator config) as i 0).deadline = none := by
    rw [batchBefore, stateAt, List.take_zero, Transition.run, Option.getD_some, hstart]
    rfl
  rw [← counts_batchBefore]
  refine batched_of_states hzero (fun k hk => ?_) (sorted_eventAt hsorted)
  exact batchBefore_succ hrun hfits (Option.isSome_of_eq_some hstart) hk

end Coordinator

section Lab

/-- Two of the three nodes are revoked within a minute; a heartbeat comes before the end of the
window and a flush after it. -/
def labRevocations : List (IterOrder × CoordOp) :=
  labRegistrations ++
    [labCommand 4 (.revoke 3 200), labCommand 5 (.revoke 2 230),
     (labOrder, .unlogged (.heartbeat 1 259)), labCommand 6 (.flushRevokeRotations 260)]

/-- The version goes up with the flush and not before it. -/
theorem rotations_batched_lab :
    Batched 60 (Coordinator.eventAt clearCrates (freshCoordinator labConfig.machineConfig)
        labRevocations 0)
      (Coordinator.versionAt clearCrates (freshCoordinator labConfig.machineConfig)
        labRevocations 0) 8 ∧
      Coordinator.versionAt clearCrates (freshCoordinator labConfig.machineConfig)
        labRevocations 0 7 = 1 ∧
      Coordinator.versionAt clearCrates (freshCoordinator labConfig.machineConfig)
        labRevocations 0 8 = 2 := by
  refine ⟨Coordinator.rotations_batched clearCrates labConfig.machineConfig labRevocations ?_ ?_ ?_
    0 (by decide), ?_, ?_⟩
  all_goals decide +kernel

def labRotation : IterOrder × CoordOp :=
  labCommand 1 (.rotateMasterKey (ascii "lab") (.replicate 32 9))

theorem run_rotations (n : ℕ) : ∃ c d ds, Transition.run (Coordinator.perform clearCrates)
      (freshCoordinator labConfig.machineConfig) (List.replicate n labRotation) = some c ∧
    c.domains = d :: ds ∧ d.name = ascii "lab" ∧ d.keys.keyVersion = UInt32.ofNat (n + 1) := by
  induction n with
  | zero =>
    have hdomains := congrArg Coordinator.domains (freshCoordinator_eq labConfig.machineConfig)
    exact ⟨_, _, _, rfl, hdomains, rfl, rfl⟩
  | succ n ih =>
    obtain ⟨c, d, ds, hrun, hdomains, hname, hversion⟩ := ih
    have hfirst : (d.name == ascii "lab") = true := by rw [hname]; decide
    have hafter : (c.rotateMasterKey (ascii "lab") (.replicate 32 9)).domains =
        { d with keys := (d.keys.rotate (.replicate 32 9)).clearRevokeRotation } :: ds := by
      rw [Coordinator.rotateMasterKey, Coordinator.updateNamed, hdomains]
      exact if_pos hfirst
    refine ⟨_, _, ds, ?_, hafter, hname, ?_⟩
    · rw [List.replicate_succ', Transition.run_append, hrun]
      rfl
    · change d.keys.keyVersion + 1 = _
      rw [hversion, UInt32.ofNat_add (n + 1)]
      rfl

/-- The key is rotated until the version wraps: the last rotation takes it back to zero. -/
theorem rotations_wrap :
    (Transition.run (Coordinator.perform clearCrates) (freshCoordinator labConfig.machineConfig)
        (List.replicate (2 ^ 32 - 1) labRotation)).isSome = true ∧
      ((List.replicate (2 ^ 32 - 1) labRotation).Pairwise fun a b => a.2.NotLater b.2) ∧
      ¬ Batched 60 (Coordinator.eventAt clearCrates (freshCoordinator labConfig.machineConfig)
          (List.replicate (2 ^ 32 - 1) labRotation) 0)
        (Coordinator.versionAt clearCrates (freshCoordinator labConfig.machineConfig)
          (List.replicate (2 ^ 32 - 1) labRotation) 0) (2 ^ 32 - 1) := by
  have hversion : ∀ k ≤ 2 ^ 32 - 1, Coordinator.versionAt clearCrates
      (freshCoordinator labConfig.machineConfig) (List.replicate (2 ^ 32 - 1) labRotation) 0 k =
        (k + 1) % 2 ^ 32 := by
    intro k hk
    obtain ⟨c, d, ds, hrun, hdomains, -, hd⟩ := run_rotations k
    rw [Coordinator.versionAt, Coordinator.stateAt, List.take_replicate, min_eq_left hk, hrun,
      Option.getD_some, hdomains, List.getElem?_cons_zero, Option.elim_some, hd,
      UInt32.toNat_ofNat']
  refine ⟨?_, List.pairwise_replicate.mpr (.inr fun s hs => ?_), fun h => ?_⟩
  · obtain ⟨c, -, -, hrun, -⟩ := run_rotations (2 ^ 32 - 1)
    rw [hrun]
    rfl
  · cases hs
  · have hlast := h.by_one (2 ^ 32 - 2) (by decide)
    rw [hversion _ (by decide), hversion _ (by decide)] at hlast
    revert hlast
    decide

end Lab

end Rill
