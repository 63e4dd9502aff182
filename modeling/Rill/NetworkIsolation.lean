import Rill.PathKeys

/-!
# Networks are kept apart

What the server writes on the connection of a node is about nodes of one network: the netmap, the
keys, the path updates and the routes. Each of them is read for the network the node is in, so the
invariant is that whatever a network holds names its own nodes. An update that waits in a queue is
written as it was made up; it names a node that is gone if the node was revoked meanwhile.
-/

namespace Rill

/-- The nodes an update names. -/
def PathEvent.nodes : PathEvent → List UInt32
  | .update source dest set => source :: dest :: set.candidates.flatMap PathCandidate.hops
  | .withdraw _ _ => []

theorem PathEvent.Names.and_ne {ok : UInt32 → Prop} {event : PathEvent} (h : event.Names ok)
    {node : UInt32} (hnode : node ∉ event.nodes) : event.Names fun id => ok id ∧ id ≠ node := by
  cases event with
  | withdraw dest pathId => trivial
  | update source dest set =>
    have hne : ∀ id ∈ PathEvent.nodes (.update source dest set), id ≠ node := by
      rintro id hid rfl
      exact hnode hid
    refine ⟨⟨h.1, hne source List.mem_cons_self⟩,
      ⟨h.2.1, hne dest (List.mem_cons_of_mem _ List.mem_cons_self)⟩, fun c hc hop hhop =>
        ⟨h.2.2 c hc hop hhop, hne hop ?_⟩⟩
    exact List.mem_cons_of_mem _ (List.mem_cons_of_mem _ (List.mem_flatMap.mpr ⟨c, hc, hhop⟩))

namespace NetworkDomain
variable {d d' : NetworkDomain}

/-- Queued updates name these nodes only. -/
def Queues (ok : UInt32 → Prop) (d : NetworkDomain) : Prop :=
  d.paths.Queued fun _ key set => (PathEvent.update key.1 key.2 set).Names ok

theorem Queues.adds {ok : UInt32 → Prop} (hd : d.Queues ok) (h : d.paths.Adds ok d'.paths) :
    d'.Queues ok := by
  intro m source dest set hevent
  obtain ⟨old, new, hqueue, hold, hnew⟩ := h m
  rw [hqueue] at hevent
  rcases List.mem_append.mp hevent with hevent | hevent
  · rcases hold with rfl | rfl
    · exact hd m source dest set hevent
    · nomatch hevent
  · exact (hnew _ hevent rfl).2

theorem Queues.mono {ok ok' : UInt32 → Prop} (h : ∀ id, ok id → ok' id) (hd : d.Queues ok) :
    d.Queues ok' := fun m source dest set hevent => (hd m source dest set hevent).mono h

/-- Whatever the network holds names its own nodes. -/
structure Closed (d : NetworkDomain) : Prop where
  within : d.Within d.Has
  queued : d.Queues d.Has
  routes : ∀ key ∈ d.routeMap.entries, d.Has key.2

end NetworkDomain

namespace Coordinator
variable {c c' : Coordinator} {L : Crates} {o : IterOrder} {op : CoordOp} {d d' : NetworkDomain}

/-- A roster lists nodes of its own network. -/
def RosterOwn (c : Coordinator) (a : IterOrder × CoordOp) : Prop :=
  match a.2 with
  | .command (.setRelayRoster networkId roster _) _ =>
      ∀ r ∈ roster, c.networkIdOf r = some networkId
  | _ => True

/-- A revocation comes when no queued update names the node. -/
def NamedStays (c : Coordinator) (a : IterOrder × CoordOp) : Prop :=
  match a.2 with
  | .command (.revoke nodeId _) _ => ∀ d ∈ c.domains, ∀ q ∈ d.paths.pending.toList,
      ∀ event ∈ q.2, nodeId ∉ event.nodes
  | _ => True

instance (c : Coordinator) (a : IterOrder × CoordOp) : Decidable (c.RosterOwn a) := by
  rcases a with ⟨_, ⟨⟨⟩, _⟩ | ⟨⟨⟩⟩ | ⟨⟨⟩⟩⟩ <;> dsimp only [RosterOwn] <;> infer_instance

instance (c : Coordinator) (a : IterOrder × CoordOp) : Decidable (c.NamedStays a) := by
  rcases a with ⟨_, ⟨⟨⟩, _⟩ | ⟨⟨⟩⟩ | ⟨⟨⟩⟩⟩ <;> dsimp only [NamedStays] <;> infer_instance

theorem Evolves.routes (h : c.Evolves L o op d d') (hc : c.Orderly)
    (hd : ∀ key ∈ d.routeMap.entries, d.Has key.2) : ∀ key ∈ d'.routeMap.entries, d'.Has key.2 := by
  cases h with
  | keep hkeep =>
    intro key hkey
    rw [NetworkDomain.Has, hkeep.entries]
    exact hd key (hkeep.routes key hkey)
  | @admits _ authKey spec e =>
    intro key hkey
    rw [NetworkDomain.Has, Registry.getElem?_admits]
    split_ifs
    · rfl
    · exact hd key hkey
  | @revoke nodeId now =>
    intro key hkey
    obtain ⟨hkey, hne⟩ := RouteMapService.mem_withdrawNode hkey
    exact (NetworkDomain.has_revoke _ _ nodeId _ now).mpr ⟨hd key hkey, hne⟩
  | request _ _ => exact hd
  | relays => exact hd
  | take _ => exact hd
  | @sync nodeId announced withdrawn clock _ hnode =>
    intro key hkey
    rcases RouteMapService.mem_applySync hkey with hkey | hkey
    · exact hd key hkey
    · have hhas : d.Has nodeId := hc.has_of_domainOfNode hnode
      rw [hkey]
      exact hhas

theorem Evolves.closed (h : c.Evolves L o op d d') (hc : c.Orderly) (hmem : d ∈ c.domains)
    (hd : d.Closed) (hroster : c.RosterOwn (o, op)) (hnamed : c.NamedStays (o, op)) :
    d'.Closed := by
  have hroutes := h.routes hc hd.routes
  rcases h.has_or_revoked with hhas | ⟨nodeId, now, logId, rfl, rfl⟩
  · obtain ⟨hwithin, hadds⟩ := h.within hd.within (hc.rostered d hmem)
      (fun id hid => hc.has_of_domainOfNode hid) fun roster now logId hop r hr => by
        subst hop
        obtain ⟨e, he⟩ := hc.entry_of_networkIdOf hmem (hroster r hr)
        rw [NetworkDomain.Has, he]
        rfl
    exact ⟨hwithin.mono hhas, (hd.queued.adds hadds).mono hhas, hroutes⟩
  · have hhas : ∀ id, d.Has id ∧ id ≠ nodeId → NetworkDomain.Has ((d.flushRevokeRotation now).revoke
        (o.paths d.networkId) nodeId now) id := fun id hid =>
      (NetworkDomain.has_revoke _ _ nodeId id now).mpr hid
    obtain ⟨hwithin, hadds⟩ := NetworkDomain.within_revoke (d := d.flushRevokeRotation now)
      ⟨hd.within.roster, hd.within.paths⟩ (hc.rostered d hmem) (o.paths d.networkId) nodeId now
    have hqueued : d.Queues fun id => d.Has id ∧ id ≠ nodeId := by
      intro m source dest set hevent
      obtain ⟨q, hq, hmem'⟩ := PathService.mem_pending_of_queue hevent
      exact (hd.queued m source dest set hevent).and_ne (hnamed d hmem q hq _ hmem')
    exact ⟨hwithin.mono hhas, (hqueued.adds hadds).mono hhas, hroutes⟩

structure NetworksClosed (c : Coordinator) : Prop extends c.Numbered where
  closed : ∀ d ∈ c.domains, d.Closed

theorem perform_networksClosed {a : IterOrder × CoordOp} (hc : c.NetworksClosed)
    (hguard : c.FreshId a ∧ c.RosterOwn a ∧ c.NamedStays a) (h : c.perform L a = some c') :
    c'.NetworksClosed := by
  obtain ⟨o, op⟩ := a
  exact ⟨perform_numbered hc.toNumbered hguard.1 h,
    perform_forall h hc.closed fun _ hmem _ hd hevolves =>
      hevolves.closed hc.orderly hmem hd hguard.2.1 hguard.2.2⟩

theorem networksClosed_fresh (config : MachineConfig)
    (hids : (config.networks.map fun n => networkIdFor n.1).Nodup) :
    (freshCoordinator config).NetworksClosed := by
  refine ⟨numbered_fresh config hids, ?_⟩
  rw [freshCoordinator_eq]
  refine List.forall_mem_map.mpr fun n _ => ⟨NetworkDomain.within_new _ _ _ _,
    PathService.queued_empty _, fun key hkey => ?_⟩
  simp [NetworkDomain.new] at hkey

theorem mem_takeRouteMapPush {n : UInt32} {version : UInt64} {entries : List RouteMapSnapshotEntry}
    (h : (c.takeRouteMapPush L o n).1 = some (version, entries)) :
    ∃ d, c.domainOfNode n = some d ∧ ∀ e ∈ entries, (e.route, e.nodeId) ∈ d.routeMap.entries := by
  rw [takeRouteMapPush] at h
  cases hd : c.domainOfNode n with
  | none =>
    rw [hd] at h
    cases h
  | some d =>
    rw [hd] at h
    refine ⟨d, rfl, fun e he => ?_⟩
    dsimp only at h
    split_ifs at h
    cases h
    obtain ⟨⟨key, nextHop⟩, hkey, rfl⟩ :=
      List.mem_map.mp ((StableSort.perm_sortByKey _).mem_iff.mp he)
    exact Std.ExtTreeMap.mem_iff_isSome_getElem?.mpr
      (Option.isSome_of_mem (HashOrder.mem_entries.mp hkey))

end Coordinator

/-- The message is about nodes of the network, and its keys are those of the network. -/
def ServerMessage.Concerns (C : Crypto) (d : NetworkDomain) : ServerMessage → Prop
  | .netmapPush msg => ∀ e ∈ msg.entries, d.Has e.nodeId ∧ e.networkId = d.networkId
  | .keyDist msg => d.Has msg.toNodeId ∧ msg.key = d.keys.keyFor C msg.toNodeId ∧
      (msg.broadcastKey = [] ∨ msg.broadcastKey = d.keys.broadcastKey C)
  | .pathUpdate msg => ∀ p ∈ msg.candidates, d.Has msg.sourceNodeId ∧ d.Has msg.destinationNodeId ∧
      (∀ hop ∈ p.hops, d.Has hop) ∧ p.keyPath = d.keys.keyPathFor C p.pathId p.pathEpoch
  | .routeMap _ entries => ∀ e ∈ entries, d.Has e.nodeId
  | _ => True

/-- The message tells of no node, no key, no path and no route. -/
def ServerMessage.Bare : ServerMessage → Prop
  | .netmapPush msg => msg.entries = []
  | .keyDist _ => False
  | .pathUpdate msg => msg.candidates = []
  | .routeMap _ entries => entries = []
  | _ => True

/-- The message is about the network of the node the connection serves; without one it is bare. -/
def ControlState.Isolated (L : ServerCrates) (k : ℕ) (s : ControlState) (msg : ServerMessage) :
    Prop :=
  match (s.registered k).bind s.coordinator.domainOfNode with
  | some d => msg.Concerns L.crypto d
  | none => msg.Bare

namespace ControlState
variable {L : ServerCrates} {k : ℕ} {s : ControlState} {msg : ServerMessage}

theorem isolated_of_concerns {n : UInt32} {d : NetworkDomain} (hn : s.registered k = some n)
    (hd : s.coordinator.domainOfNode n = some d) (h : msg.Concerns L.crypto d) :
    s.Isolated L k msg := by
  rw [Isolated, hn, Option.bind_some, hd]
  exact h

theorem isolated_of_bare (h : msg.Bare) (hother : ∀ d, msg.Concerns L.crypto d) :
    s.Isolated L k msg := by
  rw [Isolated]
  split
  · exact hother _
  · exact h

end ControlState

def isolation (L : ServerCrates) : Discipline L where
  inv := Coordinator.NetworksClosed
  guard c a := c.FreshId a ∧ c.RosterOwn a ∧ c.NamedStays a
  inv_step _ _ _ := Coordinator.perform_networksClosed
  near c c' := List.Forall₂ NetworkDomain.Persists c.domains c'.domains
  calm _ a := Coordinator.Calm a
  near_refl := NetworkDomain.forall₂_persists_refl
  near_trans := NetworkDomain.forall₂_persists_trans
  near_step _ _ _ _ _ := Coordinator.perform_persists
  allowed k s
    | .write msg => s.Isolated L k msg
    | _ => True

section
variable {L : ServerCrates} {k : ℕ} {n : UInt32} {c : Coordinator} {d : NetworkDomain}
  {s : ControlState}

theorem isolation_domain (hlater : (isolation L).Later k n c s) (hd : d ∈ c.domains)
    (hn : d.Has n) : ∃ d', s.coordinator.domainOfNode n = some d' ∧ d.Persists d' := by
  obtain ⟨d', hpersists, hfound⟩ := hlater.follows.inv.orderly.domain_of_lasts
    hlater.follows.inv.apart (fun _ _ h => h.toLasts) hlater.follows.near hd
  exact ⟨d', hfound n hn, hpersists⟩

theorem isolation_netmap {c₀ c₁ : Coordinator} (o : IterOrder) (replicas : List Text)
    (hc₀ : (isolation L).inv c₀) (hc₁ : (isolation L).Follows c₀ c₁)
    (hlater : (isolation L).Later k n c₁ s) :
    s.Isolated L k (.netmapPush
      (c₁.netmapPushMessage o ((c₀.networkIdOf n).getD 0) replicas)) := by
  cases hentries : c₁.netmapSnapshot o ((c₀.networkIdOf n).getD 0) with
  | nil =>
    refine ControlState.isolated_of_bare hentries fun d e he => ?_
    have hnil : e ∈ ([] : List NodeInfo) := hentries ▸ he
    nomatch hnil
  | cons e₀ rest =>
    obtain ⟨d, hd, hn, -, -⟩ := hc₀.mem_netmap_of_lasts hc₁.inv.toNumbered
      (fun _ _ h => h.toLasts) hc₁.near (hentries ▸ List.mem_cons_self)
    obtain ⟨d', hfound, hpersists⟩ := isolation_domain hlater hd hn
    refine ControlState.isolated_of_concerns hlater.registered hfound fun e he => ?_
    obtain ⟨d₁, hd₁, hn₁, hhas, hid⟩ := hc₀.mem_netmap_of_lasts hc₁.inv.toNumbered
      (fun _ _ h => h.toLasts) hc₁.near he
    obtain rfl := Coordinator.eq_of_apart hc₁.inv.apart hd hd₁ hn hn₁
    exact ⟨hpersists.has _ hhas, hid.trans hpersists.networkId.symm⟩

theorem isolation_keyDist {c₀ c₁ c₂ : Coordinator} {o : IterOrder} {id : UInt32}
    {data : KeyDistData} (hc₀ : (isolation L).inv c₀) (hc₁ : (isolation L).Follows c₀ c₁)
    (hc₂ : (isolation L).Follows c₁ c₂) (hlater : (isolation L).Later k n c₂ s)
    (hid : id ∈ (c₁.netmapSnapshot o ((c₀.networkIdOf n).getD 0)).map NodeInfo.nodeId)
    (hdata : c₂.keyDist L.crypto id = some data) : s.Isolated L k (.keyDist data.message) := by
  obtain ⟨e, he, rfl⟩ := List.mem_map.mp hid
  obtain ⟨d₁, hd₁, hn, hhas, -⟩ := hc₀.mem_netmap_of_lasts hc₁.inv.toNumbered
    (fun _ _ h => h.toLasts) hc₁.near he
  obtain ⟨d₂, hpersists, hfound₂⟩ :=
    hc₂.inv.orderly.domain_of_lasts hc₂.inv.apart (fun _ _ h => h.toLasts) hc₂.near hd₁
  have hd₂ := hfound₂ _ hhas
  obtain ⟨d', hfound, hpersists'⟩ := isolation_domain hlater
    (Coordinator.mem_of_domainOfNode hd₂) (hpersists.has n hn)
  refine ControlState.isolated_of_concerns hlater.registered hfound ?_
  rw [Coordinator.keyDist, hd₂, Option.bind_some] at hdata
  obtain ⟨entry, -, rfl⟩ := Option.map_eq_some_iff.mp hdata
  refine ⟨(hpersists.trans hpersists').has _ hhas, ?_, ?_⟩
  · change d₂.keys.keyFor L.crypto e.nodeId = d'.keys.keyFor L.crypto e.nodeId
    rw [KeyManager.keyFor, KeyManager.keyFor, hpersists'.masterKey]
  · rw [KeyDistData.message]
    dsimp only
    split_ifs
    · right
      rw [Option.getD_some, KeyManager.broadcastKey, KeyManager.broadcastKey, hpersists'.masterKey]
    · exact Or.inl rfl

theorem isolation_update {c₀ : Coordinator} {source dest : UInt32} {set : PathSet}
    {candidates : List CandidatePath} (hc₀ : (isolation L).inv c₀)
    (hd : c₀.domainOfNode n = some d) (hevent : .update source dest set ∈ d.paths.queue n)
    (hlater : (isolation L).Later k n c₀ s)
    (hread : ∀ a ∈ candidates, ∃ p ∈ set.candidates, ∃ c₁, (isolation L).Follows c₀ c₁ ∧
      (isolation L).Later k n c₁ s ∧ a = Discipline.readCandidate L c₁ source p) :
    s.Isolated L k (.pathUpdate
      { destinationNodeId := dest, candidates, pathVersion := set.version
        sourceNodeId := source }) := by
  have hmem := Coordinator.mem_of_domainOfNode hd
  obtain ⟨hsource, hdest, hhops⟩ := (hc₀.closed d hmem).queued n source dest set hevent
  obtain ⟨d', hfound, hpersists⟩ :=
    isolation_domain hlater hmem (hc₀.orderly.has_of_domainOfNode hd)
  refine ControlState.isolated_of_concerns hlater.registered hfound fun a ha => ?_
  obtain ⟨p, hp, c₁, hc₁, -, rfl⟩ := hread a ha
  refine ⟨hpersists.has _ hsource, hpersists.has _ hdest,
    fun hop hhop => hpersists.has _ (hhops p hp hop hhop), ?_⟩
  obtain ⟨d₁, hpersists₁, hfound₁⟩ :=
    hc₁.inv.orderly.domain_of_lasts hc₁.inv.apart (fun _ _ h => h.toLasts) hc₁.near hmem
  change c₁.keyPathFor L.crypto source p.pathId p.pathEpoch =
    d'.keys.keyPathFor L.crypto p.pathId p.pathEpoch
  rw [Coordinator.keyPathFor, hfound₁ source hsource, Option.map_some, Option.getD_some,
    KeyManager.keyPathFor, KeyManager.keyPathFor, hpersists₁.masterKey, hpersists.masterKey]

theorem isolation_routes {c₀ : Coordinator} {o : IterOrder} {version : UInt64}
    {entries : List RouteMapSnapshotEntry} (hc₀ : (isolation L).inv c₀)
    (hpush : (c₀.takeRouteMapPush L.toCrates o n).1 = some (version, entries))
    (hlater : (isolation L).Later k n c₀ s) : s.Isolated L k (.routeMap version entries) := by
  obtain ⟨d, hd, hentries⟩ := Coordinator.mem_takeRouteMapPush hpush
  have hmem := Coordinator.mem_of_domainOfNode hd
  obtain ⟨d', hfound, hpersists⟩ :=
    isolation_domain hlater hmem (hc₀.orderly.has_of_domainOfNode hd)
  exact ControlState.isolated_of_concerns hlater.registered hfound fun e he =>
    hpersists.has _ ((hc₀.closed d hmem).routes _ (hentries e he))

end

theorem isolation_holds (L : ServerCrates) : (isolation L).Holds := by
  have hother : ∀ (k : ℕ) (s : ControlState) (msg : ServerMessage), msg.Bare →
      (∀ d, msg.Concerns L.crypto d) → s.Isolated L k msg := fun _ _ _ =>
    ControlState.isolated_of_bare
  refine Discipline.Permits.holds
    { plain := fun k s call hcall => ?_
      registers := fun _ _ _ _ => trivial
      lease := fun k s _ _ => hother k s _ trivial fun _ => trivial
      take := fun _ _ _ => trivial
      calmTake := fun _ _ _ => trivial
      calmRoutes := fun _ _ _ => trivial
      netmap := fun k n c₀ c₁ s o replicas hc₀ hc₁ hs => isolation_netmap o replicas hc₀ hc₁ hs
      keyDist := fun k n c₀ c₁ c₂ s o id data => isolation_keyDist
      update := fun k n c₀ d s source dest set candidates => isolation_update
      withdraw := fun k n c₀ d s dest pathId _ _ _ _ => hother k s _ trivial fun _ => trivial
      routes := fun k n c₀ s o version entries => isolation_routes }
  cases call with
  | write msg =>
    cases msg with
    | netmapPush | keyDist | pathUpdate | routeMap => exact hcall.elim
    | _ => exact hother k s _ trivial fun _ => trivial
  | _ => trivial

/-- In a run that hands out free ids, gives rosters of nodes of their own network, revokes no node
that a queued update names, and sees neither a revocation nor a rotation while a message is handled,
a connection is told of the network of its node alone. -/
theorem networks_isolated (L : ServerCrates) (config : MachineConfig)
    (hids : (config.networks.map fun n => networkIdFor n.1).Nodup) {acts : List ControlAct}
    (hguard : ControlSystem.Always L (freshCoordinator config) (fun s a =>
      s.Operates (fun c op => c.FreshId op ∧ c.RosterOwn op ∧ c.NamedStays op ∧
        (s.meanwhile a = true → Coordinator.Calm op)) a) acts) :
    ControlSystem.Always L (freshCoordinator config)
      (fun s a => ∀ k msg, s.writes a = some (k, msg) → s.world.store.Isolated L k msg) acts := by
  have hmeets := Discipline.meets (isolation_holds L)
    (Coordinator.networksClosed_fresh config hids)
    (Transition.meets_imp (fun s a h op hop =>
      have hop' := h op hop
      ⟨⟨hop'.1, hop'.2.1, hop'.2.2.1⟩, hop'.2.2.2⟩) hguard)
  refine Transition.meets_imp (fun s a h k msg hwrites => ?_) hmeets
  obtain ⟨next, htask⟩ := ControlSystem.writes_eq hwrites
  exact h k _ next htask

section Lab

/-- Node 1 asks for paths to node 2 and the relay 3 is revoked. The update that waits for node 2 is
written with the path over node 3. -/
theorem lab_path_over_revoked_relay :
    ∃ s msg, labReach (labServing 2 2 0 ++
        labOperate (labCommand 4 (.setRelayRoster (networkIdFor (ascii "lab")) [3] 210)) ::
        labOperate (labCommand 5 (.requestPaths 1 2 4 220)) ::
        labOperate (labCommand 6 (.revoke 3 230)) ::
        labHandle 0 (.heartbeat (some none)) 18) = some s ∧
      s.writes labStep = some (0, .pathUpdate msg) ∧ s.registered 0 = some 2 ∧
      (s.coordinator.domainOfNode 2).isSome ∧ s.coordinator.domainOfNode 3 = none ∧
      ∃ p ∈ msg.candidates, 3 ∈ p.hops := by
  have hcheck : (labReach (labServing 2 2 0 ++
      labOperate (labCommand 4 (.setRelayRoster (networkIdFor (ascii "lab")) [3] 210)) ::
      labOperate (labCommand 5 (.requestPaths 1 2 4 220)) ::
      labOperate (labCommand 6 (.revoke 3 230)) ::
      labHandle 0 (.heartbeat (some none)) 18)).any (fun s =>
        ((s.writes labStep).bind labTold).any fun msg => s.registered 0 = some 2 ∧
          (s.coordinator.domainOfNode 2).isSome ∧ (s.coordinator.domainOfNode 3).isNone ∧
          ∃ p ∈ msg.candidates, 3 ∈ p.hops) = true := by
    decide +kernel
  obtain ⟨s, hs, hrest⟩ := (Option.any_eq_true _ _).mp hcheck
  obtain ⟨msg, hmsg, hp⟩ := (Option.any_eq_true _ _).mp hrest
  obtain ⟨out, hout, htold⟩ := Option.bind_eq_some_iff.mp hmsg
  obtain rfl := labTold_eq_some htold
  obtain ⟨hn, hsome, hnone, hhop⟩ := of_decide_eq_true hp
  exact ⟨s, msg, hs, hout, hn, hsome, Option.isNone_iff_eq_none.mp hnone, hhop⟩

/-- A node of the other network registers and connects as well, on connection 1. -/
def labOtherNetwork : List ControlAct :=
  labOperate (labOrder, .configure (.addAuthKeySpec denKey { policy := .reusable })) ::
    labOperate (labCommand 4 (.register denKey (.replicate 32 4) 0 [] 100)) :: .outside .accept ::
    labHandle 1 (.register (some { authKey := denKey, staticPubkey := List.replicate 32 4 })) 8 ++
    labHandle 1 (labAck 4) 19

/-- The request without a relay, up to the write of the update, beside a node of another network. -/
theorem lab_isolated :
    let acts := labServing 2 2 0 ++ labOtherNetwork ++
      labOperate (labCommand 5 (.requestPaths 1 2 4 220)) :: labHandle 0 (.heartbeat (some none)) 19
    (labReach (acts ++ [labStep])).isSome ∧ ControlSystem.Always clearServer
      (freshCoordinator labConfig.machineConfig)
      (fun s a => ∀ k msg, s.writes a = some (k, msg) → s.world.store.Isolated clearServer k msg)
      (acts ++ [labStep]) := by
  intro acts
  exact ⟨by decide +kernel, networks_isolated clearServer labConfig.machineConfig
    (by decide +kernel) (by decide +kernel)⟩

end Lab

end Rill
