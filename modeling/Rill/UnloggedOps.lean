import Rill.ReplicaDeterminism

/-!
# Operations outside the log

Besides log entries a replica runs operations that no other replica sees: heartbeats, telemetry,
route reports, deliveries. They leave the snapshot alone exactly when they are `quiet`: a heartbeat
that finds a due key rotation, brings a node back or finds a lapsed lease changes saved state, and
so does marking a node offline and taking over the lead.
-/

namespace Rill

inductive LocalOp where
  | heartbeat (nodeId : UInt32) (now : UInt64)
  | markOffline (nodeId : UInt32)
  | storeTelemetry (nodeId : UInt32) (view : TelemetryView) (clock : UInt64)
  | takePathEvents (source : UInt32)
  | applyRouteSync (nodeId : UInt32) (announced : List (Prefix × Text)) (withdrawn : List Prefix)
      (clock : UInt64)
  | takeRouteMapPush (nodeId : UInt32)
  | setProtocolVersion (nodeId version : UInt32)
  | setBuildVersion (nodeId : UInt32) (version : Text)
  | recordRelayRttRound (networkId : UInt32) (results : List (UInt32 × Option UInt64))
  | resetLivenessOnTakeover (now : UInt64)

/-- Some node other than `nodeId` is past its lease and not marked yet. -/
def Liveness.lapsed (l : Liveness) (nodeId : UInt32) (now : UInt64) : Bool :=
  l.lastSeen.toList.any fun e =>
    e.1 != nodeId && leaseExpirySecs < saturatingSub64 now e.2 && !l.isOffline e.1

namespace Coordinator

def runLocal (c : Coordinator) (L : Crates) (o : IterOrder) : LocalOp → Coordinator
  | .heartbeat nodeId now => (c.heartbeat o nodeId now).2
  | .markOffline nodeId => c.markOffline nodeId
  | .storeTelemetry nodeId view clock => c.storeTelemetry nodeId view clock
  | .takePathEvents source => (c.takePathEvents source).2
  | .applyRouteSync nodeId announced withdrawn clock =>
    (c.applyRouteSync L nodeId announced withdrawn clock).2
  | .takeRouteMapPush nodeId => (c.takeRouteMapPush L o nodeId).2
  | .setProtocolVersion nodeId version => c.setProtocolVersion nodeId version
  | .setBuildVersion nodeId version => c.setBuildVersion nodeId version
  | .recordRelayRttRound networkId results => c.recordRelayRttRound networkId results
  | .resetLivenessOnTakeover now => c.resetLivenessOnTakeover o now

def rotationDue (c : Coordinator) (now : UInt64) : Bool :=
  c.domains.any fun d => d.keys.rotationDue now

def isRegistered (c : Coordinator) (nodeId : UInt32) : Bool :=
  c.domains.any fun d => d.registry.entries[nodeId]?.isSome

/-- The operation touches nothing that is saved. -/
def quiet (c : Coordinator) : LocalOp → Bool
  | .heartbeat nodeId now =>
    !c.rotationDue now && !c.liveness.isOffline nodeId && !c.liveness.lapsed nodeId now
  | .markOffline nodeId => !c.isRegistered nodeId || c.liveness.isOffline nodeId
  | .resetLivenessOnTakeover _ => false
  | _ => true

end Coordinator

section Soft
variable {p : NetworkDomain → Bool} {f : NetworkDomain → NetworkDomain}

theorem map_erase_updateFirst (hf : ∀ d, (f d).erase = d.erase) (l : List NetworkDomain) :
    (updateFirst p f l).map NetworkDomain.erase = l.map NetworkDomain.erase := by
  induction l with
  | nil => rfl
  | cons d l ih =>
    rw [updateFirst]
    split_ifs
    · rw [List.map_cons, List.map_cons, hf]
    · rw [List.map_cons, List.map_cons, ih]

theorem NetworkDomain.erase_foldl_recordRtt (results : List (UInt32 × Option UInt64))
    (d : NetworkDomain) : (results.foldl (fun d r => d.recordRtt r.1 r.2) d).erase = d.erase := by
  obtain ⟨relayRtt, relayMiss, heq⟩ := d.foldl_recordRtt_eq results
  rw [heq]
  rfl

namespace Coordinator
variable (c : Coordinator)

theorem erase_updateNetwork (hf : ∀ d, (f d).erase = d.erase) (networkId : UInt32) :
    (c.updateNetwork networkId f).erase = c.erase :=
  erase_eq_iff.mpr ⟨map_erase_updateFirst hf c.domains, rfl, ⟨rfl, rfl⟩, rfl, rfl⟩

theorem erase_updateDomainOf (hf : ∀ d, (f d).erase = d.erase) (nodeId : UInt32) :
    (c.updateDomainOf nodeId f).erase = c.erase := by
  rw [updateDomainOf]
  cases c.networkOfNode nodeId with
  | none => rfl
  | some networkId => exact c.erase_updateNetwork hf networkId

theorem erase_foldl_withdrawRoutes (ids : List UInt32) :
    (ids.foldl (fun c id => c.updateDomainOf id fun d => d.withdrawRoutes id) c).erase = c.erase := by
  induction ids generalizing c with
  | nil => rfl
  | cons id ids ih =>
    rw [List.foldl_cons, ih]
    exact c.erase_updateDomainOf (f := fun d => d.withdrawRoutes id) (fun _ => rfl) id

end Coordinator

end Soft

/-- The sweep of a heartbeat marks somebody exactly when a lease has lapsed before it. -/
theorem Liveness.expired_heartbeat_isEmpty (l : Liveness) (o : HashOrder UInt32) (nodeId : UInt32)
    (now : UInt64) :
    ((l.heartbeat nodeId now).2.expired o now).isEmpty = !l.lapsed nodeId now := by
  have hfresh : ¬ leaseExpirySecs < saturatingSub64 now now := by
    simp [leaseExpirySecs, saturatingSub64]
  have hoffline : ∀ id, id ≠ nodeId →
      (l.heartbeat nodeId now).2.isOffline id = l.isOffline id := by
    intro id hid
    simp [Liveness.heartbeat, Liveness.isOffline, hid]
  rw [Bool.eq_iff_iff, List.isEmpty_iff, Bool.not_eq_true', Liveness.lapsed, List.any_eq_false,
    Liveness.expired, List.filter_eq_nil_iff]
  simp only [List.mem_map, List.mem_filter, Prod.exists, HashOrder.mem_entries, Prod.forall,
    Std.ExtTreeMap.mem_toList_iff_getElem?_eq_some, exists_and_right, exists_eq_right,
    decide_eq_true_eq, Bool.not_eq_true', Bool.and_eq_true, bne_iff_ne, ne_eq, not_and,
    Bool.not_eq_false]
  constructor
  · rintro h id seen hseen ⟨hid, hlapsed⟩
    rw [← hoffline id hid]
    refine h id ⟨seen, ?_, hlapsed⟩
    rw [Liveness.heartbeat, Table.getElem?_insert_of_ne (Ne.symm hid), hseen]
  · rintro h id ⟨seen, hseen, hlapsed⟩
    rw [Liveness.heartbeat, Table.getElem?_insert] at hseen
    split_ifs at hseen with hid
    · rw [← Option.some.inj hseen] at hlapsed
      exact absurd hlapsed hfresh
    · rw [hoffline id (Ne.symm hid)]
      exact h id seen hseen ⟨Ne.symm hid, hlapsed⟩

namespace Coordinator
variable (c : Coordinator)

theorem flushRevokeRotations_of_not_due {now : UInt64} (h : c.rotationDue now = false) :
    (c.flushRevokeRotations now).2 = c := by
  have hdomains : (c.domains.map fun d => d.flushRevokeRotation now) = c.domains := by
    refine (List.map_congr_left fun d hd => ?_).trans (List.map_id c.domains)
    have hdue : d.keys.rotationDue now = false := by
      simpa using List.any_eq_false.mp h d hd
    simp only [NetworkDomain.flushRevokeRotation, KeyManager.takeRevokeRotation, hdue,
      Bool.false_eq_true, if_false, id_eq]
  simp only [flushRevokeRotations, hdomains]

theorem length_pending_flush (ds : List NetworkDomain) (now : UInt64) :
    ((ds.map fun d => d.flushRevokeRotation now).filterMap fun d =>
        d.keys.pendingRevokeRotation.map fun deadline => (d.networkId, deadline)).length +
      ds.countP (fun d => d.keys.rotationDue now) =
    (ds.filterMap fun d =>
      d.keys.pendingRevokeRotation.map fun deadline => (d.networkId, deadline)).length := by
  induction ds with
  | nil => rfl
  | cons d ds ih =>
    rw [List.map_cons, List.filterMap_cons, List.filterMap_cons, List.countP_cons]
    cases hpending : d.keys.pendingRevokeRotation with
    | none =>
      have hdue : d.keys.rotationDue now = false := by rw [KeyManager.rotationDue, hpending]; rfl
      have hflush : d.flushRevokeRotation now = d := by
        simp [NetworkDomain.flushRevokeRotation, KeyManager.takeRevokeRotation, hdue]
      simpa [hflush, hpending, hdue] using ih
    | some deadline =>
      cases hdue : d.keys.rotationDue now with
      | true =>
        have hflush : (d.flushRevokeRotation now).keys.pendingRevokeRotation = none := by
          simp [NetworkDomain.flushRevokeRotation, KeyManager.takeRevokeRotation, hdue]
        simp only [hflush, Option.map_none, Option.map_some, if_true, List.length_cons]
        omega
      | false =>
        have hflush : d.flushRevokeRotation now = d := by
          simp [NetworkDomain.flushRevokeRotation, KeyManager.takeRevokeRotation, hdue]
        simp only [hflush, hpending, Option.map_some, List.length_cons, Bool.false_eq_true, if_false]
        omega

theorem snapshot_flushRevokeRotations_iff (now : UInt64) (o o' : IterOrder) :
    (c.flushRevokeRotations now).2.snapshot o = c.snapshot o' ↔ c.rotationDue now = false := by
  constructor
  · intro h
    have hlen := congrArg (fun st => st.pendingRevokeRotations.length) h
    simp only [snapshot, StableSort.length_sortByKey, flushRevokeRotations] at hlen
    have hcount := length_pending_flush c.domains now
    rw [hlen] at hcount
    have hzero : c.domains.countP (fun d => d.keys.rotationDue now) = 0 := by omega
    rw [rotationDue, List.any_eq_false]
    exact List.countP_eq_zero.mp hzero
  · intro h
    rw [c.flushRevokeRotations_of_not_due h]
    exact snapshot_congr rfl o o'

theorem snapshot_bumpNetmap_ne (c c' : Coordinator)
    (h : c.directory.netmapVersion = c'.directory.netmapVersion) (o o' : IterOrder) :
    c.bumpNetmap.snapshot o ≠ c'.snapshot o' := by
  intro heq
  have hversion := congrArg CoordState.netmapVersion heq
  simp only [snapshot, bumpNetmap, Directory.bumpNetmap, h] at hversion
  exact absurd (add_eq_left.mp hversion) (by decide)

theorem erase_heartbeat (o : IterOrder) (nodeId : UInt32) (now : UInt64) :
    (c.heartbeat o nodeId now).2.erase =
      if c.liveness.isOffline nodeId || c.liveness.lapsed nodeId now then
        (c.flushRevokeRotations now).2.bumpNetmap.erase
      else (c.flushRevokeRotations now).2.erase := by
  have hmarked : (!((c.liveness.heartbeat nodeId now).2.expired o.lastSeen now).isEmpty) =
      c.liveness.lapsed nodeId now := by
    rw [Liveness.expired_heartbeat_isEmpty, Bool.not_not]
  have hnext := erase_foldl_withdrawRoutes
    { (c.flushRevokeRotations now).2 with
      liveness := ((c.liveness.heartbeat nodeId now).2.sweep o.lastSeen now).2 }
    ((c.liveness.heartbeat nodeId now).2.expired o.lastSeen now)
  rw [heartbeat]
  simp only [Liveness.sweep, flushRevokeRotations, hmarked] at hnext ⊢
  split_ifs
  · exact bumpNetmap_congr hnext
  · exact hnext

theorem erase_runLocal {op : LocalOp} (h : c.quiet op = true) (L : Crates) (o : IterOrder) :
    (c.runLocal L o op).erase = c.erase := by
  cases op with
  | heartbeat nodeId now =>
    rw [quiet, Bool.and_assoc, ← Bool.not_or, Bool.and_eq_true, Bool.not_eq_true',
      Bool.not_eq_true'] at h
    rw [runLocal, c.erase_heartbeat, h.2, if_neg Bool.false_ne_true,
      c.flushRevokeRotations_of_not_due h.1]
  | markOffline nodeId =>
    have hskip : ¬ (c.isRegistered nodeId && !c.liveness.isOffline nodeId) = true := by
      rw [quiet] at h
      cases hknown : c.isRegistered nodeId with
      | false => simp
      | true => simpa [hknown] using h
    rw [runLocal, markOffline, ← isRegistered, if_neg hskip]
  | resetLivenessOnTakeover now => exact absurd h Bool.false_ne_true
  | storeTelemetry nodeId view clock => rfl
  | takePathEvents source =>
    refine c.erase_updateDomainOf ?_ source
    exact fun _ => rfl
  | applyRouteSync nodeId announced withdrawn clock =>
    refine c.erase_updateDomainOf ?_ nodeId
    exact fun _ => rfl
  | takeRouteMapPush nodeId =>
    rw [runLocal, takeRouteMapPush]
    cases c.domainOfNode nodeId with
    | none => rfl
    | some d =>
      dsimp only
      split_ifs
      · rfl
      · refine c.erase_updateDomainOf ?_ nodeId
        exact fun _ => rfl
  | setProtocolVersion nodeId version => rfl
  | setBuildVersion nodeId version => rfl
  | recordRelayRttRound networkId results =>
    exact c.erase_updateNetwork (NetworkDomain.erase_foldl_recordRtt results) networkId

theorem snapshot_runLocal_ne {op : LocalOp} (h : c.quiet op = false) (L : Crates)
    (o o' o'' : IterOrder) : (c.runLocal L o op).snapshot o' ≠ c.snapshot o'' := by
  cases op with
  | heartbeat nodeId now =>
    rw [quiet, Bool.and_assoc, ← Bool.not_or] at h
    have herase := c.erase_heartbeat o nodeId now
    cases hmoved : c.liveness.isOffline nodeId || c.liveness.lapsed nodeId now with
    | true =>
      rw [hmoved, if_pos rfl] at herase
      rw [runLocal, snapshot_congr herase o' o']
      exact snapshot_bumpNetmap_ne (c.flushRevokeRotations now).2 c rfl o' o''
    | false =>
      rw [hmoved, if_neg Bool.false_ne_true] at herase
      rw [hmoved, Bool.not_false, Bool.and_true, Bool.not_eq_false'] at h
      rw [runLocal, snapshot_congr herase o' o', ne_eq, snapshot_flushRevokeRotations_iff, h]
      exact Bool.false_ne_true.symm
  | markOffline nodeId =>
    rw [quiet, Bool.or_eq_false_iff, Bool.not_eq_false'] at h
    rw [runLocal, markOffline, ← isRegistered, h.1, h.2, Bool.not_false, Bool.and_self, if_pos rfl]
    have herase := erase_updateDomainOf { c with liveness := (c.liveness.markOffline nodeId).2 }
      (f := fun d => d.withdrawRoutes nodeId) (fun _ => rfl) nodeId
    exact snapshot_bumpNetmap_ne _ c (erase_eq_iff.mp herase).2.2.1.1 o' o''
  | resetLivenessOnTakeover now =>
    exact snapshot_bumpNetmap_ne
      { c with
        liveness := (c.allEntries o).foldl (fun l (e : NodeEntry) => (l.heartbeat e.nodeId now).2)
          c.liveness } c rfl o' o''
  | _ => exact absurd h Bool.false_ne_true.symm

end Coordinator

/-- What a replica does: an operation of its own, or the next entry of the log. -/
inductive ReplicaOp (M : Type) where
  | unlogged (op : LocalOp)
  | apply (e : Entry M)

namespace CoordStateMachine
variable {M : Type} (L : Crates)

def act (m : CoordStateMachine M) (a : IterOrder × ReplicaOp M) : Option (CoordStateMachine M) :=
  match a.2 with
  | .unlogged op => some { m with coordinator := m.coordinator.runLocal L a.1 op }
  | .apply e => m.step L (a.1, e)

def logOf (run : List (IterOrder × ReplicaOp M)) : List (Entry M) :=
  run.filterMap fun a =>
    match a.2 with
    | .unlogged _ => none
    | .apply e => some e

/-- Operations outside the log are quiet, and entries draw path ids for at most one path set. -/
def Isolated (m : CoordStateMachine M) (a : IterOrder × ReplicaOp M) : Prop :=
  match a.2 with
  | .unlogged op => m.coordinator.quiet op = true
  | .apply e => m.AtMostOneDraw (a.1, e)

variable {L}

/-- What an isolated run saves is what its log alone leads to, read in any one order. -/
theorem replay_of_isolated (o : IterOrder) {run : List (IterOrder × ReplicaOp M)}
    {m m' n : CoordStateMachine M} (h : m.coordinator.erase = m'.coordinator.erase)
    (hmeets : Transition.Meets (act L) Isolated m run) (hrun : Transition.run (act L) m run = some n) :
    ∃ n', Transition.run (step L) m' ((logOf run).map fun e => (o, e)) = some n' ∧
      n.coordinator.erase = n'.coordinator.erase := by
  induction run generalizing m m' with
  | nil =>
    cases hrun
    exact ⟨m', rfl, h⟩
  | cons a run ih =>
    obtain ⟨o₁, op⟩ := a
    obtain ⟨m₁, hact, hrest⟩ := Option.bind_eq_some_iff.mp hrun
    have hnext := hmeets.2 m₁ hact
    cases op with
    | unlogged op =>
      cases hact
      exact ih ((m.coordinator.erase_runLocal hmeets.1 L o₁).trans h) hnext hrest
    | apply e =>
      obtain ⟨⟨r, m₂⟩, happly, rfl⟩ := Option.map_eq_some_iff.mp hact
      rcases applyEntry_cases (L := L) h hmeets.1 o with ⟨hn, -⟩ | ⟨r, k, k', hs, hs', hk⟩
      · exact absurd (happly.symm.trans hn) (Option.some_ne_none _)
      · obtain rfl : m₂ = k := (Prod.mk.inj (Option.some.inj (happly.symm.trans hs))).2
        obtain ⟨n', hreplay, hsaved⟩ := ih hk hnext hrest
        refine ⟨n', ?_, hsaved⟩
        have hstep : step L m' (o, e) = some k' := by rw [step, hs']; rfl
        exact Option.bind_eq_some_iff.mpr ⟨k', hstep, hreplay⟩

/-- An operation outside the log keeps the snapshot if and only if it is quiet. Replicas with one
configuration and one applied log, whose unlogged operations are all quiet and whose entries draw
path ids for at most one path set each, have equal snapshots however the operations fall between
the entries. -/
theorem unlogged_frame (L : Crates) (cfg : CoordConfig) :
    (∀ (c : Coordinator) (o o' o'' : IterOrder) (op : LocalOp),
      (c.runLocal L o op).snapshot o' = c.snapshot o'' ↔ c.quiet op = true) ∧
    ∀ (o o' : IterOrder) (run run' : List (IterOrder × ReplicaOp M)) (m m' : CoordStateMachine M),
      logOf run = logOf run' →
      Transition.Meets (act L) Isolated (cfg.machine M o) run →
      Transition.Meets (act L) Isolated (cfg.machine M o') run' →
      Transition.run (act L) (cfg.machine M o) run = some m →
      Transition.run (act L) (cfg.machine M o') run' = some m' →
      m.stateSnapshot o = m'.stateSnapshot o' := by
  constructor
  · intro c o o' o'' op
    cases hquiet : c.quiet op with
    | true =>
      exact iff_of_true (Coordinator.snapshot_congr (c.erase_runLocal hquiet L o) o' o'') rfl
    | false => exact iff_of_false (c.snapshot_runLocal_ne hquiet L o o' o'') Bool.false_ne_true
  · intro o o' run run' m m' hlog hmeets hmeets' hrun hrun'
    have hstart : (cfg.machine M o').coordinator.erase = (cfg.machine M o).coordinator.erase := by
      rw [cfg.machine_eq M o o']
    obtain ⟨n, hreplay, hsaved⟩ := replay_of_isolated o rfl hmeets hrun
    obtain ⟨n', hreplay', hsaved'⟩ := replay_of_isolated o hstart hmeets' hrun'
    rw [hlog, hreplay'] at hreplay
    cases hreplay
    exact Coordinator.snapshot_congr (hsaved.trans hsaved'.symm) o o'

end CoordStateMachine

section Lab

/-- Two nodes register and one of them is revoked, which opens a rotation window of a minute. -/
def revokedLab : Option (CoordStateMachine Unit) :=
  Transition.run (CoordStateMachine.step clearCrates) (labConfig.machine Unit (.ofPaths .ascending))
    ([labEntry 1 (.register labKey (.replicate 32 1) 0 [] 100),
      labEntry 2 (.register labKey (.replicate 32 2) 0 [] 100),
      labEntry 3 (.revoke 1 100)].map fun e => (.ofPaths .ascending, e))

/-- The replica that takes a heartbeat after the window rotates the key version on its own. -/
theorem lab_heartbeat_rotates :
    (revokedLab.map fun m =>
        ((m.stateSnapshot (.ofPaths .ascending)).keyVersions.map Prod.snd,
          ((m.coordinator.runLocal clearCrates (.ofPaths .ascending) (.heartbeat 2 160)).snapshot
            (.ofPaths .ascending)).keyVersions.map Prod.snd)) = some ([1, 1], [2, 1]) := by
  decide +kernel

/-- A replica that notes a protocol version between two entries, and one that does not. -/
theorem lab_unlogged_frame :
    let ascending := IterOrder.ofPaths .ascending
    let descending := IterOrder.ofPaths .descending
    let join := labEntry 1 (.register labKey (.replicate 32 1) 0 [] 100)
    let report := labEntry 2 (.setEndpoints 1 [ascii "10.0.0.1:41641"] [])
    (Transition.run (CoordStateMachine.act clearCrates) (labConfig.machine Unit ascending)
        [(ascending, .apply join), (ascending, .unlogged (.setProtocolVersion 1 2)),
          (ascending, .apply report)]).map (fun m => m.stateSnapshot ascending) =
      (Transition.run (CoordStateMachine.act clearCrates) (labConfig.machine Unit descending)
        [(descending, .apply join), (descending, .apply report)]).map
          fun m => m.stateSnapshot descending := by
  intro ascending descending join report
  obtain ⟨m, hm⟩ : ∃ m, Transition.run (CoordStateMachine.act clearCrates)
      (labConfig.machine Unit ascending) [(ascending, .apply join),
        (ascending, .unlogged (.setProtocolVersion 1 2)), (ascending, .apply report)] = some m :=
    Option.isSome_iff_exists.mp (by decide +kernel)
  obtain ⟨m', hm'⟩ : ∃ m', Transition.run (CoordStateMachine.act clearCrates)
      (labConfig.machine Unit descending) [(descending, .apply join),
        (descending, .apply report)] = some m' :=
    Option.isSome_iff_exists.mp (by decide +kernel)
  rw [hm, hm', Option.map_some, Option.map_some, Option.some.injEq]
  refine (CoordStateMachine.unlogged_frame clearCrates labConfig).2 ascending descending _ _ m m'
    ?_ ?_ ?_ hm hm'
  · rfl
  · refine Transition.meets_of_forall (fun s a ha => ?_) _
    simp only [List.mem_cons, List.not_mem_nil, or_false] at ha
    rcases ha with h | h | h
    · rw [CoordStateMachine.Isolated, h]
      exact Nat.zero_le 1
    · rw [CoordStateMachine.Isolated, h]
      rfl
    · rw [CoordStateMachine.Isolated, h]
      exact Nat.zero_le 1
  · refine Transition.meets_of_forall (fun s a ha => ?_) _
    simp only [List.mem_cons, List.not_mem_nil, or_false] at ha
    rcases ha with h | h
    all_goals
      rw [CoordStateMachine.Isolated, h]
      exact Nat.zero_le 1

end Lab

end Rill
