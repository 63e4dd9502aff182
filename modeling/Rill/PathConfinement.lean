import Rill.AclGate
import Rill.Membership
import Rill.PushRules

/-!
# Who is sent the keys of a path

An update of a path set goes to both ends and to every usable relay, and it has the keys of all
candidates of the set. A relay is so given the keys of candidates that do not lead over it. Only
where no relay is usable does every key stay with the nodes on its path.
-/

namespace Rill

/-- Every candidate leads straight to the destination. -/
def PathSet.Direct (set : PathSet) (dest : UInt32) : Prop := ∀ c ∈ set.candidates, c.hops = [dest]

/-- An update of a direct set for one of its ends. -/
def PathSet.Private (m : UInt32) (key : UInt32 × UInt32) (set : PathSet) : Prop :=
  (m = key.1 ∨ m = key.2) ∧ set.Direct key.2

/-- The path sets are direct, and queued updates of them wait for their ends. -/
structure PathService.Confined (s : PathService) : Prop where
  sets : s.Shapes fun key set => set.Direct key.2
  queued : s.Queued PathSet.Private

namespace PathSet
variable {set : PathSet} {dest : UInt32}

theorem Direct.without (h : set.Direct dest) (node : UInt32) : (set.without node).Direct dest :=
  fun c hc => h c (List.mem_filter.mp hc).1

theorem hops_of_offered {c : PathCandidate} (h : c.Offered [] dest) : c.hops = [dest] :=
  h.elim id fun ⟨_, hr, _⟩ => nomatch hr

/-- The nodes that a direct set names are its ends. -/
theorem Direct.end_of_hop {key : UInt32 × UInt32} {m : UInt32} (h : set.Direct key.2)
    (hm : m = key.1 ∨ m = key.2 ∨ ∃ c ∈ set.candidates, m ∈ c.hops) : m = key.1 ∨ m = key.2 := by
  rcases hm with hm | hm | ⟨c, hc, hhop⟩
  · exact Or.inl hm
  · exact Or.inr hm
  · rw [h c hc] at hhop
    exact Or.inr (List.mem_singleton.mp hhop)

end PathSet

namespace Coordinator
variable {c c' : Coordinator} {L : Crates} {o : IterOrder} {op : CoordOp} {d d' : NetworkDomain}

def PathsConfined (c : Coordinator) : Prop := ∀ d ∈ c.domains, d.paths.Confined

/-- No relay is usable for a path that is asked for, or for a path set when a roster comes in. -/
def NoRelay (c : Coordinator) (a : IterOrder × CoordOp) : Prop :=
  match a.2 with
  | .command (.requestPaths source dest _ _) _ =>
    ∀ d ∈ c.domainOfNode source, usableRelays d.paths.relays source dest = []
  | .command (.setRelayRoster networkId roster _) _ =>
    ∀ d ∈ c.domains, d.networkId = networkId → ∀ e ∈ d.paths.map.toList,
      usableRelays roster e.1.1 e.1.2 = []
  | _ => True

instance (c : Coordinator) (a : IterOrder × CoordOp) : Decidable (c.NoRelay a) := by
  rcases a with ⟨_, ⟨⟨⟩, _⟩ | ⟨⟨⟩⟩ | ⟨⟨⟩⟩⟩ <;> dsimp only [NoRelay] <;> infer_instance

theorem Evolves.confined (h : c.Evolves L o op d d') (hmem : d ∈ c.domains) (hd : d.paths.Confined)
    (hguard : c.NoRelay (o, op)) : d'.paths.Confined := by
  cases h with
  | keep hkeep =>
    rw [hkeep.paths]
    exact hd
  | admits _ _ => exact hd
  | @revoke nodeId now =>
    obtain ⟨hshapes, hsends⟩ := NetworkDomain.revoke_sends (d := d.flushRevokeRotation now)
      (U := PathSet.Private) (o.paths d.networkId) nodeId now hd.sets
      (fun key set h => h.without nodeId) fun key set m h _ _ hm =>
        ⟨(h.without nodeId).end_of_hop hm, h.without nodeId⟩
    exact ⟨fun key set hset => (hshapes key set hset).1, hd.queued.sends hsends fun _ _ _ h => h⟩
  | @request source dest max now _ _ hsource _ =>
    have hnone : usableRelays d.paths.relays source dest = [] := hguard d hsource
    obtain ⟨hshapes, hsends⟩ := PathService.request_sends (U := PathSet.Private) max now hd.sets
      (fun set hset c hc => PathSet.hops_of_offered (hnone ▸ hset c hc)) fun set m h hm => by
        rw [hnone] at hm
        exact ⟨hm.imp id fun hm => hm.resolve_right fun hm => (nomatch hm), h⟩
    exact ⟨hshapes, hd.queued.sends hsends fun _ _ _ h => h⟩
  | @relays roster now =>
    have hsets : d.paths.Shapes fun key set => set.Direct key.2 ∧
        usableRelays roster key.1 key.2 = [] := fun key set hset => ⟨hd.sets key set hset,
      hguard d hmem rfl (key, set) (Std.ExtTreeMap.mem_toList_iff_getElem?_eq_some.mpr hset)⟩
    obtain ⟨hshapes, hsends⟩ := NetworkDomain.applyRelayRoster_sends (U := PathSet.Private)
      (o.paths d.networkId) roster now hsets (fun node key set h => ⟨h.1.without node, h.2⟩)
      (fun key old set h hset => ⟨fun c hc => (hset c hc).elim (h.1 c) fun hc =>
        PathSet.hops_of_offered (h.2 ▸ hc), h.2⟩) fun key set m h hm => by
        rw [h.2] at hm
        refine ⟨h.1.end_of_hop (hm.imp id fun hm => hm.imp id fun hm => ?_), h.1⟩
        exact hm.resolve_left fun hm => (nomatch hm)
    exact ⟨fun key set hset => (hshapes key set hset).1, hd.queued.sends hsends fun _ _ _ h => h⟩
  | take _ => exact ⟨hd.sets, hd.queued.takeEvents _⟩
  | sync _ => exact hd

theorem pathsConfined_fresh (config : MachineConfig) : (freshCoordinator config).PathsConfined := by
  rw [PathsConfined, freshCoordinator_eq]
  exact List.forall_mem_map.mpr fun _ _ => ⟨PathService.shapes_empty, PathService.queued_empty _⟩

theorem perform_pathsConfined {a : IterOrder × CoordOp} (hc : c.PathsConfined)
    (hguard : c.NoRelay a) (h : c.perform L a = some c') : c'.PathsConfined := by
  obtain ⟨o, op⟩ := a
  exact perform_forall h hc fun _ hmem _ hd hevolves => hevolves.confined hmem hd hguard

end Coordinator

/-- An update of paths has the keys of candidates only that its receiver is on. -/
def ControlState.KeysConfined (k : ℕ) (s : ControlState) (msg : PathUpdate) : Prop :=
  ∃ n, s.registered k = some n ∧ ∀ p ∈ msg.candidates, n = msg.sourceNodeId ∨ n ∈ p.hops

def confinement (L : ServerCrates) : Discipline L where
  inv := Coordinator.PathsConfined
  guard := Coordinator.NoRelay
  inv_step _ _ _ := Coordinator.perform_pathsConfined
  near _ _ := True
  calm _ _ := True
  near_refl _ := trivial
  near_trans _ _ _ _ _ := trivial
  near_step _ _ _ _ _ _ _ := trivial
  allowed k s
    | .write (.pathUpdate msg) => s.KeysConfined k msg
    | _ => True

theorem confinement_holds (L : ServerCrates) : (confinement L).Holds := by
  refine (Discipline.permits_of_update (fun k s call hcall => ?_) (fun _ _ _ => trivial) ?_).holds
  · cases call with
    | write msg =>
      cases msg with
      | pathUpdate msg => exact absurd rfl (hcall msg)
      | _ => trivial
    | _ => trivial
  intro k n c d s source dest set candidates hc hd hevent hlater hread
  have hprivate : PathSet.Private n (source, dest) set :=
    (hc d (Coordinator.mem_of_domainOfNode hd)).queued n source dest set hevent
  refine ⟨n, hlater.registered, fun a ha => ?_⟩
  obtain ⟨p, hp, c₁, -, -, rfl⟩ := hread a ha
  refine hprivate.1.imp id fun hn => ?_
  have hhops : p.hops = [dest] := hprivate.2 p hp
  change n ∈ p.hops
  rw [hhops, hn]
  exact List.mem_singleton.mpr rfl

/-- In a run in which no relay is usable when paths are asked for or a roster comes in, an update of
paths has the keys of candidates only that its receiver is on. -/
theorem path_keys_confined (L : ServerCrates) {c : Coordinator} (hc : c.PathsConfined)
    {acts : List ControlAct}
    (hguard : ControlSystem.Always L c (ControlSystem.Operates Coordinator.NoRelay) acts) :
    ControlSystem.Always L c (fun s a => ∀ k msg, s.writes a = some (k, .pathUpdate msg) →
      s.world.store.KeysConfined k msg) acts := by
  have hmeets := Discipline.meets (confinement_holds L) hc (Transition.meets_imp
    (fun s a h op hop => ⟨h op hop, fun _ => trivial⟩) hguard)
  refine Transition.meets_imp (fun s a h k msg hwrites => ?_) hmeets
  obtain ⟨next, htask⟩ := ControlSystem.writes_eq hwrites
  exact h k _ next htask

section Lab

abbrev labReach (acts : List ControlAct) : Option ControlSystem :=
  ControlSystem.reach clearServer (freshCoordinator labConfig.machineConfig) acts

/-- The path update that the first connection is written. -/
def labTold : ℕ × ServerMessage → Option PathUpdate
  | (0, .pathUpdate msg) => some msg
  | _ => none

theorem labTold_eq_some {out : ℕ × ServerMessage} {msg : PathUpdate} (h : labTold out = some msg) :
    out = (0, .pathUpdate msg) := by
  unfold labTold at h
  split at h
  · rw [Option.some.inj h]
  · cases h

/-- Node 3 is a relay and node 1 asks for paths to node 2. In its heartbeat node 3 is written the key
of the direct path, which it is not on. -/
theorem lab_relay_is_told :
    ∃ s msg, labReach (labServing 3 3 1 ++
        labOperate (labCommand 4 (.setRelayRoster (networkIdFor (ascii "lab")) [3] 210)) ::
        labOperate (labCommand 5 (.requestPaths 1 2 4 220)) ::
        labHandle 0 (.heartbeat (some none)) 20) = some s ∧
      s.writes labStep = some (0, .pathUpdate msg) ∧ s.registered 0 = some 3 ∧
      msg.sourceNodeId = 1 ∧ ∃ p ∈ msg.candidates, p.hops = [2] := by
  have hcheck : (labReach (labServing 3 3 1 ++
      labOperate (labCommand 4 (.setRelayRoster (networkIdFor (ascii "lab")) [3] 210)) ::
      labOperate (labCommand 5 (.requestPaths 1 2 4 220)) ::
      labHandle 0 (.heartbeat (some none)) 20)).any (fun s =>
        ((s.writes labStep).bind labTold).any fun msg => s.registered 0 = some 3 ∧
          msg.sourceNodeId = 1 ∧ ∃ p ∈ msg.candidates, p.hops = [2]) = true := by
    decide +kernel
  obtain ⟨s, hs, hrest⟩ := (Option.any_eq_true _ _).mp hcheck
  obtain ⟨msg, hmsg, hp⟩ := (Option.any_eq_true _ _).mp hrest
  obtain ⟨out, hout, htold⟩ := Option.bind_eq_some_iff.mp hmsg
  obtain rfl := labTold_eq_some htold
  exact ⟨s, msg, hs, hout, of_decide_eq_true hp⟩

/-- Without relays node 2 is written the key of the path that leads to it. -/
theorem lab_destination_is_told :
    let acts := labServing 2 2 0 ++ labOperate (labCommand 4 (.requestPaths 1 2 4 220)) ::
      labHandle 0 (.heartbeat (some none)) 19
    (labReach (acts ++ [labStep])).isSome ∧ ControlSystem.Always clearServer
      (freshCoordinator labConfig.machineConfig)
      (fun s a => ∀ k msg, s.writes a = some (k, .pathUpdate msg) → s.world.store.KeysConfined k msg)
      (acts ++ [labStep]) := by
  intro acts
  exact ⟨by decide +kernel, path_keys_confined clearServer
    (Coordinator.pathsConfined_fresh labConfig.machineConfig) (by decide +kernel)⟩

end Lab

end Rill
