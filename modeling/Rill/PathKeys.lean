import Rill.Membership
import Rill.PathConfinement

/-!
# The keys in path updates

The key of a path is derived when an update is written, from the network of the source at that
moment. For a source that has been revoked since the update was queued there is no network, and the
key written is a placeholder. As long as the sources of queued updates are not revoked, and neither
a revocation nor a rotation comes in while a message is handled, the keys are those of the network.
-/

namespace Rill

/-- The source of the path set that an update announces. -/
def PathEvent.source : PathEvent → Option UInt32
  | .update source _ _ => some source
  | .withdraw _ _ => none

namespace NetworkDomain

/-- The sources of path sets and of queued updates are registered. -/
structure Rooted (d : NetworkDomain) : Prop where
  sets : d.paths.Shapes fun key _ => d.Has key.1
  queued : d.paths.Queued fun _ key _ => d.Has key.1

/-- The network keeps its nodes and its master key. -/
structure Persists (d d' : NetworkDomain) : Prop extends d.Lasts d' where
  masterKey : d'.keys.masterKey = d.keys.masterKey

theorem Persists.trans {d d' d'' : NetworkDomain} (h : d.Persists d') (h' : d'.Persists d'') :
    d.Persists d'' :=
  ⟨⟨h'.networkId.trans h.networkId, fun id hid => h'.has id (h.has id hid)⟩,
    h'.masterKey.trans h.masterKey⟩

theorem Persists.refl (d : NetworkDomain) : d.Persists d := ⟨⟨rfl, fun _ h => h⟩, rfl⟩

theorem forall₂_persists_refl (c : Coordinator) :
    List.Forall₂ NetworkDomain.Persists c.domains c.domains :=
  List.forall₂_same.mpr fun d _ => .refl d

theorem forall₂_persists_trans (c c' c'' : Coordinator) :
    List.Forall₂ NetworkDomain.Persists c.domains c'.domains →
      List.Forall₂ NetworkDomain.Persists c'.domains c''.domains →
      List.Forall₂ NetworkDomain.Persists c.domains c''.domains :=
  forall₂_trans fun _ _ _ => .trans

end NetworkDomain

theorem PathService.mem_pending_of_queue {s : PathService} {m : UInt32} {event : PathEvent}
    (h : event ∈ s.queue m) : ∃ q ∈ s.pending.toList, event ∈ q.2 := by
  rw [queue] at h
  cases hq : s.pending[m]? with
  | none =>
    rw [hq] at h
    cases h
  | some events =>
    rw [hq] at h
    exact ⟨(m, events), Std.ExtTreeMap.mem_toList_iff_getElem?_eq_some.mpr hq, h⟩

namespace Coordinator
variable {c c' : Coordinator} {L : Crates} {o : IterOrder} {op : CoordOp} {d d' : NetworkDomain}

/-- A revocation comes when no queued update has the node as its source. -/
def SourceStays (c : Coordinator) (a : IterOrder × CoordOp) : Prop :=
  match a.2 with
  | .command (.revoke nodeId _) _ => ∀ d ∈ c.domains, ∀ q ∈ d.paths.pending.toList,
      ∀ event ∈ q.2, event.source ≠ some nodeId
  | _ => True

instance (c : Coordinator) (a : IterOrder × CoordOp) : Decidable (c.SourceStays a) := by
  rcases a with ⟨_, ⟨⟨⟩, _⟩ | ⟨⟨⟩⟩ | ⟨⟨⟩⟩⟩ <;> dsimp only [SourceStays] <;> infer_instance

/-- Neither a revocation nor a rotation. -/
def Calm (a : IterOrder × CoordOp) : Prop :=
  match a.2 with
  | .command (.revoke _ _) _ => False
  | .command (.rotateMasterKey _ _) _ => False
  | _ => True

instance (a : IterOrder × CoordOp) : Decidable (Calm a) := by
  rcases a with ⟨_, ⟨⟨⟩, _⟩ | ⟨⟨⟩⟩ | ⟨⟨⟩⟩⟩ <;> dsimp only [Calm] <;> infer_instance

structure PathsRooted (c : Coordinator) : Prop where
  orderly : c.Orderly
  apart : c.roll.Apart
  rooted : ∀ d ∈ c.domains, d.Rooted

theorem Evolves.rooted (h : c.Evolves L o op d d') (hc : c.Orderly) (hmem : d ∈ c.domains)
    (hd : d.Rooted) (hguard : c.SourceStays (o, op)) : d'.Rooted := by
  cases h with
  | keep hkeep =>
    have hhas : ∀ id, d.Has id → d'.Has id := fun id hid => by
      rw [NetworkDomain.Has, hkeep.entries]
      exact hid
    constructor
    · rw [hkeep.paths]
      exact fun key set hset => hhas _ (hd.sets key set hset)
    · rw [hkeep.paths]
      exact fun m source dest set hevent => hhas _ (hd.queued m source dest set hevent)
  | @admits _ authKey spec e =>
    have hhas : ∀ id, d.Has id → NetworkDomain.Has
        { d with registry := (d.registry.insertEntry e).consume authKey spec } id := by
      intro id hid
      rw [NetworkDomain.Has, Registry.getElem?_admits]
      split_ifs
      · rfl
      · exact hid
    exact ⟨fun key set hset => hhas _ (hd.sets key set hset),
      fun m source dest set hevent => hhas _ (hd.queued m source dest set hevent)⟩
  | @revoke nodeId now =>
    obtain ⟨hshapes, hsends⟩ := NetworkDomain.revoke_sends (d := d.flushRevokeRotation now)
      (U := fun _ key _ => d.Has key.1 ∧ key.1 ≠ nodeId) (o.paths d.networkId) nodeId now hd.sets
      (fun key set h => h) fun key set m h hsource _ _ => ⟨h, hsource⟩
    constructor
    · intro key set hset
      have hkey := hshapes key set hset
      exact (NetworkDomain.has_revoke _ _ nodeId _ now).mpr ⟨hkey.1, hkey.2.1⟩
    · have hold : d.paths.Queued fun _ key _ => d.Has key.1 ∧ key.1 ≠ nodeId := by
        refine fun m source dest set hevent => ⟨hd.queued m source dest set hevent, ?_⟩
        rintro rfl
        obtain ⟨q, hq, hevent⟩ := PathService.mem_pending_of_queue hevent
        exact hguard d hmem q hq _ hevent rfl
      intro m source dest set hevent
      refine (NetworkDomain.has_revoke _ _ nodeId _ now).mpr ?_
      exact hold.sends hsends (fun _ _ _ h => h) m source dest set hevent
  | @request source dest max now _ _ hsource _ =>
    obtain ⟨e, he⟩ := hc.entry_of_domainOfNode hsource
    have hhas : d.Has source := by
      rw [NetworkDomain.Has, he]
      rfl
    obtain ⟨hshapes, hsends⟩ := PathService.request_sends (U := fun _ key _ => d.Has key.1) max now
      hd.sets (fun _ _ => hhas) fun _ _ h _ => h
    exact ⟨hshapes, hd.queued.sends hsends fun _ _ _ h => h⟩
  | @relays roster now =>
    obtain ⟨hshapes, hsends⟩ := NetworkDomain.applyRelayRoster_sends
      (U := fun _ key _ => d.Has key.1) (o.paths d.networkId) roster now hd.sets
      (fun _ _ _ h => h) (fun _ _ _ h _ => h) fun _ _ _ h _ => h
    exact ⟨hshapes, hd.queued.sends hsends fun _ _ _ h => h⟩
  | take _ => exact ⟨hd.sets, hd.queued.takeEvents _⟩
  | sync _ => exact ⟨hd.sets, hd.queued⟩

theorem perform_pathsRooted {a : IterOrder × CoordOp} (hc : c.PathsRooted)
    (hguard : c.FreshId a ∧ c.SourceStays a) (h : c.perform L a = some c') : c'.PathsRooted := by
  obtain ⟨o, op⟩ := a
  exact ⟨perform_orderly hc.orderly h, perform_apart hc.apart hguard.1 h,
    perform_forall h hc.rooted fun _ hmem _ hd hevolves =>
      hevolves.rooted hc.orderly hmem hd hguard.2⟩

theorem perform_persists {a : IterOrder × CoordOp} (hcalm : Calm a) (h : c.perform L a = some c') :
    List.Forall₂ NetworkDomain.Persists c.domains c'.domains := by
  obtain ⟨o, op⟩ := a
  refine (perform_evolves_masterKey h ?_).imp fun d d' hd => ⟨hd.1.lasts ?_, hd.2⟩
  · rintro network key logId rfl
    exact hcalm
  · rintro nodeId now logId rfl
    exact hcalm

theorem pathsRooted_fresh (config : MachineConfig)
    (hids : (config.networks.map fun n => networkIdFor n.1).Nodup) :
    (freshCoordinator config).PathsRooted := by
  refine ⟨orderly_fresh config hids, (restorable_fresh config hids).apart, ?_⟩
  rw [freshCoordinator_eq]
  exact List.forall_mem_map.mpr fun _ _ => ⟨PathService.shapes_empty, PathService.queued_empty _⟩

end Coordinator

/-- The keys of the candidates are derived from the master key of the network that the source and
the receiver are in. -/
def ControlState.KeysGenuine (L : ServerCrates) (k : ℕ) (s : ControlState) (msg : PathUpdate) :
    Prop :=
  ∃ n d, s.registered k = some n ∧ s.coordinator.domainOfNode n = some d ∧
    s.coordinator.domainOfNode msg.sourceNodeId = some d ∧
    ∀ p ∈ msg.candidates, p.keyPath = d.keys.keyPathFor L.crypto p.pathId p.pathEpoch

def genuineKeys (L : ServerCrates) : Discipline L where
  inv := Coordinator.PathsRooted
  guard c a := c.FreshId a ∧ c.SourceStays a
  inv_step _ _ _ := Coordinator.perform_pathsRooted
  near c c' := List.Forall₂ NetworkDomain.Persists c.domains c'.domains
  calm _ a := Coordinator.Calm a
  near_refl := NetworkDomain.forall₂_persists_refl
  near_trans := NetworkDomain.forall₂_persists_trans
  near_step _ _ _ _ _ := Coordinator.perform_persists
  allowed k s
    | .write (.pathUpdate msg) => s.KeysGenuine L k msg
    | _ => True

theorem genuineKeys_holds (L : ServerCrates) : (genuineKeys L).Holds := by
  refine (Discipline.permits_of_update (fun k s call hcall => ?_) (fun _ _ _ => trivial) ?_).holds
  · cases call with
    | write msg =>
      cases msg with
      | pathUpdate msg => exact absurd rfl (hcall msg)
      | _ => trivial
    | _ => trivial
  intro k n c d s source dest set candidates hc hd hevent hlater hread
  have hmem := Coordinator.mem_of_domainOfNode hd
  have hsource : d.Has source := (hc.rooted d hmem).queued n source dest set hevent
  have hn : d.Has n := hc.orderly.has_of_domainOfNode hd
  obtain ⟨d', hpersists, hfound⟩ :=
    hlater.follows.inv.orderly.domain_of_lasts hlater.follows.inv.apart
      (fun _ _ h => h.toLasts) hlater.follows.near hmem
  refine ⟨n, d', hlater.registered, hfound n hn, hfound source hsource, fun a ha => ?_⟩
  obtain ⟨p, -, c₁, hc₁, -, rfl⟩ := hread a ha
  obtain ⟨d₁, hpersists₁, hfound₁⟩ :=
    hc₁.inv.orderly.domain_of_lasts hc₁.inv.apart (fun _ _ h => h.toLasts) hc₁.near hmem
  change c₁.keyPathFor L.crypto source p.pathId p.pathEpoch =
    d'.keys.keyPathFor L.crypto p.pathId p.pathEpoch
  rw [Coordinator.keyPathFor, hfound₁ source hsource, Option.map_some, Option.getD_some,
    KeyManager.keyPathFor, KeyManager.keyPathFor, hpersists₁.masterKey, hpersists.masterKey]

/-- In a run that hands out free ids, revokes no source of a queued update, and sees neither a
revocation nor a rotation while a message is handled, the keys of every path update are those of the
network. -/
theorem path_keys_genuine (L : ServerCrates) (config : MachineConfig)
    (hids : (config.networks.map fun n => networkIdFor n.1).Nodup) {acts : List ControlAct}
    (hguard : ControlSystem.Always L (freshCoordinator config) (fun s a =>
      s.Operates (fun c op => c.FreshId op ∧ c.SourceStays op ∧
        (s.meanwhile a = true → Coordinator.Calm op)) a) acts) :
    ControlSystem.Always L (freshCoordinator config)
      (fun s a => ∀ k msg, s.writes a = some (k, .pathUpdate msg) →
        s.world.store.KeysGenuine L k msg) acts := by
  have hmeets := Discipline.meets (genuineKeys_holds L) (Coordinator.pathsRooted_fresh config hids)
    (Transition.meets_imp (fun s a h op hop =>
      have hop' := h op hop
      ⟨⟨hop'.1, hop'.2.1⟩, hop'.2.2⟩) hguard)
  refine Transition.meets_imp (fun s a h k msg hwrites => ?_) hmeets
  obtain ⟨next, htask⟩ := ControlSystem.writes_eq hwrites
  exact h k _ next htask

section Lab

/-- Node 1 asks for a path to node 2 and is revoked. The update that waits for node 2 is written
with a placeholder for the key. -/
theorem lab_placeholder_key :
    ∃ s msg, labReach (labServing 2 2 0 ++ labOperate (labCommand 4 (.requestPaths 1 2 4 220)) ::
        labOperate (labCommand 5 (.revoke 1 230)) :: labHandle 0 (.heartbeat (some none)) 17) =
          some s ∧
      s.writes labStep = some (0, .pathUpdate msg) ∧
      s.coordinator.domainOfNode msg.sourceNodeId = none ∧
      ∃ p ∈ msg.candidates, p.keyPath = List.replicate 32 0 := by
  have hcheck : (labReach (labServing 2 2 0 ++
      labOperate (labCommand 4 (.requestPaths 1 2 4 220)) ::
      labOperate (labCommand 5 (.revoke 1 230)) :: labHandle 0 (.heartbeat (some none)) 17)).any
        (fun s => ((s.writes labStep).bind labTold).any fun msg =>
          (s.coordinator.domainOfNode msg.sourceNodeId).isNone ∧
            ∃ p ∈ msg.candidates, p.keyPath = List.replicate 32 0) = true := by
    decide +kernel
  obtain ⟨s, hs, hrest⟩ := (Option.any_eq_true _ _).mp hcheck
  obtain ⟨msg, hmsg, hp⟩ := (Option.any_eq_true _ _).mp hrest
  obtain ⟨out, hout, htold⟩ := Option.bind_eq_some_iff.mp hmsg
  obtain rfl := labTold_eq_some htold
  obtain ⟨hnone, hkey⟩ := of_decide_eq_true hp
  exact ⟨s, msg, hs, hout, Option.isNone_iff_eq_none.mp hnone, hkey⟩

/-- The same update while node 1 is registered. -/
theorem lab_genuine_key :
    let acts := labServing 2 2 0 ++ labOperate (labCommand 4 (.requestPaths 1 2 4 220)) ::
      labHandle 0 (.heartbeat (some none)) 19
    (labReach (acts ++ [labStep])).isSome ∧ ControlSystem.Always clearServer
      (freshCoordinator labConfig.machineConfig)
      (fun s a => ∀ k msg, s.writes a = some (k, .pathUpdate msg) →
        s.world.store.KeysGenuine clearServer k msg) (acts ++ [labStep]) := by
  intro acts
  exact ⟨by decide +kernel, path_keys_genuine clearServer labConfig.machineConfig
    (by decide +kernel) (by decide +kernel)⟩

end Lab

end Rill
