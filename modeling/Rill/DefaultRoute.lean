import Rill.IpText
import Rill.NetworkIsolation
import Rill.NodeEffects

/-!
# The default route

What no route matches goes to an exit: of the tailnet, or a node of the mesh that the netmap marks
(`route/default.rs`). A node that is marked itself uses no exit of the mesh. All nodes read the
marks from the netmap, which has one entry for each node, so what a node sends to an exit is not
sent to another one from there.
-/

namespace Rill

/-- An entry of a netmap as the node reads it. -/
def NodeInfo.netmapNode (info : NodeInfo) : NetmapNode where
  nodeId := info.nodeId
  staticPubkey := info.staticPubkey.toList
  routes := info.routes
  protocolVersion := info.protocolVersion
  offline := info.offline
  exit := info.exit

def NetmapPush.data (push : NetmapPush) : NetmapData where
  entries := push.entries.map NodeInfo.netmapNode
  acl := some push.acl

namespace DefaultRouteResolver
variable (r : DefaultRouteResolver)

def candidates : ExitSource → List RouteVia
  | .tailnet => r.tailnetExits.map .tailnet
  | .mesh => r.meshExits.map .mesh

/-- The first candidate that is reachable; deciding that may panic. -/
def firstUp (reachable : RouteVia → Option Bool) : List RouteVia → Option (Option RouteVia)
  | [] => some none
  | via :: vias => do if ← reachable via then some (some via) else firstUp reachable vias

def resolveFrom (reachable : RouteVia → Option Bool) : List ExitSource → Option (Option RouteVia)
  | [] => some none
  | source :: sources =>
    if source = .mesh ∧ r.selfExit = true then resolveFrom reachable sources
    else do
      match ← firstUp reachable (r.candidates source) with
      | some via => some (some via)
      | none => resolveFrom reachable sources

/-- The exit of the first source that has one, in the order of preference. -/
def resolve (reachable : RouteVia → Option Bool) : Option (Option RouteVia) :=
  r.resolveFrom reachable r.preference

variable {r} {reachable : RouteVia → Option Bool} {via : RouteVia}

theorem mem_of_firstUp {vias : List RouteVia} (h : firstUp reachable vias = some (some via)) :
    via ∈ vias := by
  induction vias with
  | nil => exact absurd h (by simp [firstUp])
  | cons head vias ih =>
    rw [firstUp, Option.bind_eq_bind] at h
    obtain ⟨up, -, h⟩ := Option.bind_eq_some_iff.mp h
    cases up with
    | true =>
      cases Option.some.inj h
      exact List.mem_cons_self
    | false => exact List.mem_cons_of_mem _ (ih h)

theorem mem_of_resolveFrom {sources : List ExitSource}
    (h : r.resolveFrom reachable sources = some (some via)) :
    ∃ source, ¬ (source = .mesh ∧ r.selfExit = true) ∧ via ∈ r.candidates source := by
  induction sources with
  | nil => exact absurd h (by simp [resolveFrom])
  | cons source sources ih =>
    rw [resolveFrom] at h
    split_ifs at h with hskip
    · exact ih h
    · obtain ⟨first, hfirst, h⟩ := Option.bind_eq_some_iff.mp h
      cases first with
      | none => exact ih h
      | some first =>
        cases Option.some.inj h
        exact ⟨source, hskip, mem_of_firstUp hfirst⟩

theorem resolve_mesh {exit : UInt32} (h : r.resolve reachable = some (some (.mesh exit))) :
    r.selfExit = false ∧ exit ∈ r.meshExits := by
  obtain ⟨source, hskip, hmem⟩ := mem_of_resolveFrom h
  cases source with
  | tailnet =>
    obtain ⟨peer, -, heq⟩ := List.mem_map.mp hmem
    nomatch heq
  | mesh =>
    obtain ⟨id, hid, heq⟩ := List.mem_map.mp hmem
    obtain rfl := RouteVia.mesh.inj heq
    exact ⟨Bool.eq_false_of_not_eq_true fun hself => hskip ⟨rfl, hself⟩, hid⟩

end DefaultRouteResolver

namespace Node
variable {σ : Type}

theorem defaultRoute_applyNetmap (n : Node σ) (netmap : NetmapData) :
    (n.applyNetmap netmap).defaultRoute = n.defaultRoute.setMeshExits
      (((n.otherEntries netmap).filter fun e => e.exit && !e.offline).map NetmapNode.nodeId)
      (n.selfExit netmap) := by
  obtain ⟨mesh, engine, -, -, heq⟩ :=
    foldl_removeStale_eq (n.stalePeers (n.freshPeers netmap)) (n.applyEntries netmap)
  obtain ⟨mesh', engine', pending, -, hentries⟩ := foldl_applyEntry_eq (n.otherEntries netmap)
    { n with engine := n.engine.resetMeshRoutes, acl := netmap.acl.getD {} }
  rw [applyNetmap]
  dsimp only
  rw [heq, applyEntries]
  dsimp only
  rw [hentries]

theorem mem_meshExits {n : Node σ} {netmap : NetmapData} {exit : UInt32}
    (h : exit ∈ (n.applyNetmap netmap).defaultRoute.meshExits) :
    ∃ e ∈ netmap.entries, e.nodeId = exit ∧ e.exit = true ∧ e.offline = false := by
  rw [defaultRoute_applyNetmap] at h
  obtain ⟨e, he, rfl⟩ := List.mem_map.mp h
  obtain ⟨he, hmarks⟩ := List.mem_filter.mp he
  rw [Bool.and_eq_true, Bool.not_eq_true'] at hmarks
  exact ⟨e, List.mem_of_mem_filter he, rfl, hmarks⟩

theorem selfExit_of_mem {n : Node σ} {netmap : NetmapData} {e : NetmapNode}
    (hids : (netmap.entries.map NetmapNode.nodeId).Nodup) (he : e ∈ netmap.entries)
    (hid : n.nodeId = some e.nodeId) : n.selfExit netmap = e.exit := by
  have hown : ∀ e' ∈ netmap.entries.filter fun e' => some e'.nodeId == n.nodeId, e' = e := by
    intro e' he'
    obtain ⟨hmem, hsame⟩ := List.mem_filter.mp he'
    rw [hid, beq_iff_eq] at hsame
    exact List.inj_on_of_nodup_map hids hmem he (Option.some.inj hsame)
  have hmem : e ∈ netmap.entries.filter fun e' => some e'.nodeId == n.nodeId :=
    List.mem_filter.mpr ⟨he, by rw [hid, beq_self_eq_true]⟩
  obtain ⟨last, hlast⟩ := Option.isSome_iff_exists.mp
    (List.getLast?_isSome.mpr (List.ne_nil_of_mem hmem))
  rw [selfExit, hlast, hown last (List.mem_of_getLast? hlast)]
  rfl

/-- Where the default route leads from a node to another one. -/
def nextExit (n : Node σ) (up : RouteVia → Option Bool) : Option UInt32 :=
  match n.defaultRoute.resolve up with
  | some (some (.mesh exit)) => some exit
  | _ => none

theorem nextExit_eq_some {n : Node σ} {up : RouteVia → Option Bool} {exit : UInt32} :
    n.nextExit up = some exit ↔ n.defaultRoute.resolve up = some (some (.mesh exit)) := by
  rw [nextExit]
  split
  · rename_i heq
    simp [heq]
  · rename_i hother
    refine ⟨fun h => ?_, fun h => absurd h (hother exit)⟩
    nomatch h

/-- A node without a verifier. -/
def plainConfig : NodeConfig :=
  { staticKeySeed := [], parseIp := IpText.parseIp, verifyBinding := none }

end Node

/-- The exits that the default route leads through, for so many hops at most. -/
def exitHops {σ : Type} (nodes : UInt32 → Option (Node σ)) (up : UInt32 → RouteVia → Option Bool) :
    ℕ → UInt32 → List UInt32
  | 0, _ => []
  | hops + 1, id =>
    match (nodes id).bind fun n => n.nextExit (up id) with
    | none => []
    | some exit => exit :: exitHops nodes up hops exit

theorem Coordinator.nodup_netmap {c : Coordinator}
    (hids : (c.domains.map NetworkDomain.networkId).Nodup) (o : IterOrder) (networkId : UInt32)
    (replicas : List Text) :
    ((c.netmapPushMessage o networkId replicas).data.entries.map NetmapNode.nodeId).Nodup := by
  change (((c.netmapSnapshot o networkId).map NodeInfo.netmapNode).map NetmapNode.nodeId).Nodup
  rw [List.map_map, netmapSnapshot, List.map_flatMap, List.nodup_flatMap]
  refine ⟨fun d _ => ?_, ?_⟩
  · rw [List.map_map]
    change (((o.registry d.networkId).values d.registry.entries).map NodeEntry.nodeId).Nodup
    rw [HashOrder.map_values d.registry.keyed]
    exact HashOrder.nodup_keys _ _
  · -- No two networks have the id.
    have hapart : c.domains.Pairwise fun d d' => d.networkId ≠ d'.networkId :=
      List.pairwise_map.mp hids
    refine (hapart.filter _).imp_of_mem fun {d d'} hd hd' hne => absurd ?_ hne
    have hd := (List.mem_filter.mp hd).2
    have hd' := (List.mem_filter.mp hd').2
    rw [beq_iff_eq] at hd hd'
    rw [hd, hd']

namespace Coordinator
variable {σ : Type} {c : Coordinator} {o : IterOrder} {networkId : UInt32} {replicas : List Text}

theorem nextExit_of_exit (hids : (c.domains.map NetworkDomain.networkId).Nodup)
    {n exitNode : Node σ} {exit : UInt32} {up : RouteVia → Option Bool}
    (hid : exitNode.nodeId = some exit)
    (h : (n.applyNetmap (c.netmapPushMessage o networkId replicas).data).nextExit up = some exit)
    (up' : RouteVia → Option Bool) :
    (exitNode.applyNetmap (c.netmapPushMessage o networkId replicas).data).nextExit up' = none := by
  obtain ⟨-, hmem⟩ := DefaultRouteResolver.resolve_mesh (Node.nextExit_eq_some.mp h)
  obtain ⟨e, he, rfl, hexit, -⟩ := Node.mem_meshExits hmem
  have hself := Node.selfExit_of_mem (nodup_netmap hids o networkId replicas) he hid
  refine Option.eq_none_iff_forall_ne_some.mpr fun next hnext => ?_
  obtain ⟨hnone, -⟩ := DefaultRouteResolver.resolve_mesh (Node.nextExit_eq_some.mp hnext)
  rw [Node.defaultRoute_applyNetmap] at hnone
  exact absurd (hself.trans hexit) (Bool.eq_false_iff.mp hnone)

theorem default_exits_do_not_chain (hids : (c.domains.map NetworkDomain.networkId).Nodup)
    {nodes : UInt32 → Option (Node σ)} (hown : ∀ id n, nodes id = some n → n.nodeId = some id) :
    let netmap := (c.netmapPushMessage o networkId replicas).data
    (∀ up hops id, (exitHops (fun id => (nodes id).map fun n => n.applyNetmap netmap) up hops
      id).length ≤ 1) ∧
    ∀ id n exit exitNode up up', nodes id = some n → nodes exit = some exitNode →
      (n.applyNetmap netmap).defaultRoute.resolve up = some (some (.mesh exit)) →
      ∀ other, (exitNode.applyNetmap netmap).defaultRoute.resolve up' ≠
        some (some (.mesh other)) := by
  intro netmap
  have hstop : ∀ (n : Node σ) exit exitNode up up', nodes exit = some exitNode →
      (n.applyNetmap netmap).nextExit up = some exit →
      (exitNode.applyNetmap netmap).nextExit up' = none :=
    fun n exit exitNode up up' hexit hnext => nextExit_of_exit hids (hown _ _ hexit) hnext up'
  refine ⟨fun up hops id => ?_, fun id n exit exitNode up up' _ hexit hnext other hother => ?_⟩
  · cases hops with
    | zero => exact Nat.zero_le _
    | succ hops =>
      rw [exitHops]
      split
      · exact Nat.zero_le _
      · rename_i exit hexit
        obtain ⟨n', hn', hnext⟩ := Option.bind_eq_some_iff.mp hexit
        obtain ⟨n, -, rfl⟩ := Option.map_eq_some_iff.mp hn'
        have hnone : ((nodes exit).map fun n => n.applyNetmap netmap).bind
            (fun n => n.nextExit (up exit)) = none := by
          cases hexit : nodes exit with
          | none => rfl
          | some exitNode => exact hstop n exit exitNode (up id) (up exit) hexit hnext
        cases hops with
        | zero => exact le_rfl
        | succ hops =>
          rw [exitHops, hnone]
          exact le_rfl
  · have hnone := hstop n exit exitNode up up' hexit (Node.nextExit_eq_some.mpr hnext)
    rw [Node.nextExit_eq_some.mpr hother] at hnone
    nomatch hnone

section Lab

/-- Three nodes register, and the last two are exits. -/
def labExits : List (IterOrder × CoordOp) :=
  [(labOrder, .configure (.addAuthKeySpec labKey { policy := .reusable })),
   (labOrder, .configure (.setExitAllow (ascii "lab") [2, 3])),
   (labOrder, .command (.register labKey (.replicate 32 1) 0 [] 100) ⟨1, 1⟩),
   (labOrder, .command (.register labKey (.replicate 32 2) 8 [] 100) ⟨2, 1⟩),
   (labOrder, .command (.register labKey (.replicate 32 3) 8 [] 100) ⟨3, 1⟩)]

/-- A node that would use any exit. -/
def labTraveller (id : UInt32) : Node Unit :=
  { Node.new Node.plainConfig none with
    nodeId := some id
    defaultRoute := { preference := [.mesh, .tailnet] } }

theorem default_exits_do_not_chain_lab :
    ∃ c, Transition.run (perform clearCrates) (freshCoordinator labConfig.machineConfig) labExits =
        some c ∧
      exitHops (fun id => (some (labTraveller id)).map fun n => n.applyNetmap
        (c.netmapPushMessage labOrder (networkIdFor (ascii "lab")) []).data)
        (fun _ _ => some true) 5 1 = [2] ∧
      (exitHops (fun id => (some (labTraveller id)).map fun n => n.applyNetmap
        (c.netmapPushMessage labOrder (networkIdFor (ascii "lab")) []).data)
        (fun _ _ => some true) 5 1).length ≤ 1 := by
  have hcheck : (Transition.run (perform clearCrates) (freshCoordinator labConfig.machineConfig)
      labExits).any (fun c => (c.domains.map NetworkDomain.networkId).Nodup ∧
        exitHops (fun id => (some (labTraveller id)).map fun n => n.applyNetmap
          (c.netmapPushMessage labOrder (networkIdFor (ascii "lab")) []).data)
          (fun _ _ => some true) 5 1 = [2]) = true := by
    decide +kernel
  obtain ⟨c, hc, hcheck⟩ := (Option.any_eq_true _ _).mp hcheck
  obtain ⟨hids, hhops⟩ := of_decide_eq_true hcheck
  refine ⟨c, hc, hhops, (default_exits_do_not_chain hids fun id n hn => ?_).1 _ 5 1⟩
  cases hn
  rfl

end Lab

end Coordinator

end Rill
