import Rill.DomainEffects
import Rill.PathNames
import Rill.StoredCoordinator

/-!
# The nodes a network names

Besides its registry a network has node ids in its relay roster, in the relays of its path service,
in its path sets and in queued path updates. `Within ok` says that the first three name nodes of `ok`
only. An operation keeps that and queues updates of such nodes only, as long as paths are asked for
between them and rosters are made up of them; a revocation takes the node out.
-/

namespace Rill

theorem PathEvent.Names.mono {ok ok' : UInt32 → Prop} (h : ∀ id, ok id → ok' id) {event : PathEvent}
    (hnames : event.Names ok) : event.Names ok' := by
  cases event with
  | withdraw dest pathId => trivial
  | update source dest set =>
    exact ⟨h _ hnames.1, h _ hnames.2.1, fun c hc hop hhop => h hop (hnames.2.2 c hc hop hhop)⟩

namespace PathService
variable {s s' : PathService} {ok ok' : UInt32 → Prop}

theorem Within.mono (h : ∀ id, ok id → ok' id) (hs : s.Within ok) : s.Within ok' :=
  ⟨fun r hr => h r (hs.relays r hr), fun key set hset => (hs.sets key set hset).mono h⟩

theorem Adds.mono (h : ∀ id, ok id → ok' id) (hs : s.Adds ok s') : s.Adds ok' s' := by
  intro m
  obtain ⟨old, new, hqueue, hold, hnew⟩ := hs m
  refine ⟨old, new, hqueue, hold, fun event hevent hupdate => ?_⟩
  obtain ⟨hm, hnames⟩ := hnew event hevent hupdate
  exact ⟨h m hm, hnames.mono h⟩

theorem adds_of_pending_eq (ok : UInt32 → Prop) (h : s'.pending = s.pending) : s.Adds ok s' :=
  (sends_of_pending_eq h).adds

end PathService

namespace NetworkDomain
variable {d d' : NetworkDomain} {ok ok' : UInt32 → Prop}

structure Within (ok : UInt32 → Prop) (d : NetworkDomain) : Prop where
  roster : ∀ r ∈ d.roster, ok r
  paths : d.paths.Within ok

theorem Within.mono (h : ∀ id, ok id → ok' id) (hd : d.Within ok) : d.Within ok' :=
  ⟨fun r hr => h r (hd.roster r hr), hd.paths.mono h⟩

theorem within_true (d : NetworkDomain) : d.Within fun _ => True :=
  ⟨fun _ _ => trivial, fun _ _ => trivial, fun _ _ _ => ⟨trivial, trivial, fun _ _ _ _ => trivial⟩⟩

theorem within_new (ok : UInt32 → Prop) (name : Text) (networkId : UInt32) (masterKey : Key32) :
    (NetworkDomain.new name networkId masterKey).Within ok := by
  refine ⟨fun r hr => (nomatch hr), fun r hr => (nomatch hr), fun key set hset => ?_⟩
  simp [NetworkDomain.new] at hset

theorem within_applyRelayRoster (hd : d.Within ok) {roster : List UInt32}
    (hroster : ∀ r ∈ roster, ok r) (o : HashOrder (UInt32 × UInt32)) (now : UInt64) :
    (d.applyRelayRoster o roster now).2.Within ok ∧
      d.paths.Adds ok (d.applyRelayRoster o roster now).2.paths := by
  have hplace : (d.paths.setRelays roster).Within ok := ⟨hroster, hd.paths.sets⟩
  obtain ⟨hnarrow, hwithdrawn⟩ := PathService.Sends.foldl (f := fun s node => s.withdrawRelay o node)
    (fun _ node h => PathService.withdrawRelay_yields o node h) (d.dropped roster) hplace
  obtain ⟨hexpanded, hposts⟩ := PathService.expandRelayCandidates_yields o now hnarrow
  have hset : d.paths.Sends (PathService.Among ok) (d.paths.setRelays roster) :=
    PathService.sends_of_pending_eq rfl
  exact ⟨⟨hroster, hexpanded⟩, (hset.trans (hwithdrawn.trans hposts)).adds⟩

theorem within_revoke (hd : d.Within ok) (hrelays : d.paths.relays = d.roster)
    (o : HashOrder (UInt32 × UInt32)) (nodeId : UInt32) (now : UInt64) :
    (d.revoke o nodeId now).Within (fun id => ok id ∧ id ≠ nodeId) ∧
      d.paths.Adds (fun id => ok id ∧ id ≠ nodeId) (d.revoke o nodeId now).paths := by
  obtain ⟨hsets, hposts⟩ := PathService.withdrawNode_yields o nodeId hd.paths
  have hrest : ∀ r ∈ d.roster.filter (fun r => r != nodeId), ok r ∧ r ≠ nodeId := by
    intro r hr
    obtain ⟨hmem, hne⟩ := List.mem_filter.mp hr
    exact ⟨hd.roster r hmem, bne_iff_ne.mp hne⟩
  simp only [revoke]
  by_cases hin : d.roster.contains nodeId = true
  · rw [if_pos hin, if_pos hin]
    exact ⟨⟨hrest, hrest, hsets⟩, hposts.adds⟩
  · have hout : ∀ r ∈ d.roster, ok r ∧ r ≠ nodeId := by
      refine fun r hr => ⟨hd.roster r hr, ?_⟩
      rintro rfl
      exact hin (List.contains_iff_mem.mpr hr)
    rw [if_neg hin, if_neg hin]
    refine ⟨⟨hout, ?_, hsets⟩, hposts.adds⟩
    rw [PathService.relays_withdrawNode, hrelays]
    exact hout

end NetworkDomain

namespace Coordinator
variable {c c' : Coordinator} {L : Crates} {o : IterOrder} {op : CoordOp} {d d' : NetworkDomain}
  {ok : UInt32 → Prop}

theorem Evolves.within (h : c.Evolves L o op d d') (hd : d.Within ok)
    (hrelays : d.paths.relays = d.roster) (hends : ∀ id, c.domainOfNode id = some d → ok id)
    (hroster : ∀ roster now logId, op = .command (.setRelayRoster d.networkId roster now) logId →
      ∀ r ∈ roster, ok r) :
    d'.Within ok ∧ d.paths.Adds ok d'.paths := by
  cases h with
  | keep hkeep =>
    refine ⟨⟨?_, ?_⟩, ?_⟩
    · rw [hkeep.roster]
      exact hd.roster
    · rw [hkeep.paths]
      exact hd.paths
    · rw [hkeep.paths]
      exact PathService.adds_of_pending_eq ok rfl
  | admits _ _ => exact ⟨⟨hd.roster, hd.paths⟩, PathService.adds_of_pending_eq ok rfl⟩
  | @revoke nodeId now =>
    obtain ⟨hwithin, hadds⟩ := NetworkDomain.within_revoke (d := d.flushRevokeRotation now)
      ⟨hd.roster, hd.paths⟩ hrelays (o.paths d.networkId) nodeId now
    exact ⟨hwithin.mono fun _ h => h.1, hadds.mono fun _ h => h.1⟩
  | request hsource hdest =>
    obtain ⟨hwithin, hposts⟩ := PathService.request_yields hd.paths (hends _ hsource) (hends _ hdest)
    exact ⟨⟨hd.roster, hwithin⟩, hposts.adds⟩
  | @relays roster now =>
    exact NetworkDomain.within_applyRelayRoster hd (hroster roster now _ rfl) _ now
  | take _ => exact ⟨⟨hd.roster, hd.paths.relays, hd.paths.sets⟩, PathService.adds_takeEvents ok _ _⟩
  | sync _ => exact ⟨⟨hd.roster, hd.paths⟩, PathService.adds_of_pending_eq ok rfl⟩

/-- The path service of each network uses the relays of the roster. -/
def Rostered (c : Coordinator) : Prop := ∀ d ∈ c.domains, d.paths.relays = d.roster

theorem relays_applyRelayRoster (d : NetworkDomain) (o : HashOrder (UInt32 × UInt32))
    (roster : List UInt32) (now : UInt64) :
    (d.applyRelayRoster o roster now).2.paths.relays = roster := by
  refine (PathService.relays_expandRelayCandidates _ o now).trans ?_
  exact PathService.relays_foldl (fun s node => s.relays_withdrawRelay o node) _ _

theorem relays_revoke {d : NetworkDomain} (h : d.paths.relays = d.roster)
    (o : HashOrder (UInt32 × UInt32)) (nodeId : UInt32) (now : UInt64) :
    (d.revoke o nodeId now).paths.relays = (d.revoke o nodeId now).roster := by
  simp only [NetworkDomain.revoke]
  split_ifs
  · rfl
  · rw [PathService.relays_withdrawNode, h]

theorem perform_rostered {a : IterOrder × CoordOp} (hc : c.Rostered)
    (h : c.perform L a = some c') : c'.Rostered := by
  obtain ⟨o, op⟩ := a
  refine perform_forall h hc fun d _ d' hd hevolves => ?_
  cases hevolves with
  | keep hkeep => rw [hkeep.paths, hkeep.roster, hd]
  | admits _ _ => exact hd
  | @revoke nodeId now => exact relays_revoke (d := d.flushRevokeRotation now) hd _ nodeId now
  | request _ _ => exact (d.paths.relays_request _ _ _ _).trans hd
  | relays => exact relays_applyRelayRoster d _ _ _
  | take _ => exact hd
  | sync _ => exact hd

/-- The networks have different ids, their nodes carry them, and their relays are their rosters. -/
structure Orderly (c : Coordinator) : Prop where
  networks : (c.domains.map NetworkDomain.networkId).Nodup
  sound : ∀ s ∈ c.roll.seats, s.Sound
  rostered : c.Rostered

theorem Orderly.sound_of_mem (h : c.Orderly) (hd : d ∈ c.domains) : d.seat.Sound :=
  h.sound d.seat (List.mem_map_of_mem hd)

theorem Orderly.eq_of_networkId (h : c.Orderly) (hd : d ∈ c.domains) (hd' : d' ∈ c.domains)
    (hid : d.networkId = d'.networkId) : d = d' := List.inj_on_of_nodup_map h.networks hd hd' hid

theorem orderly_fresh (config : MachineConfig)
    (hids : (config.networks.map fun n => networkIdFor n.1).Nodup) :
    (freshCoordinator config).Orderly := by
  have hfresh := restorable_fresh config hids
  refine ⟨hfresh.networks, hfresh.sound, ?_⟩
  rw [Rostered, freshCoordinator_eq]
  exact List.forall_mem_map.mpr fun _ _ => rfl

theorem networkIds_of_step {change : RollChange} (hstep : c.roll.Step change c'.roll) :
    c'.domains.map NetworkDomain.networkId = c.domains.map NetworkDomain.networkId := by
  have hids := congrArg (List.map Prod.snd) hstep.labels
  rw [List.map_map, List.map_map] at hids
  have hnetworks : ∀ c : Coordinator, c.roll.seats.map (Prod.snd ∘ fun s => (s.name, s.networkId)) =
      c.domains.map NetworkDomain.networkId := by
    intro c
    rw [roll, List.map_map]
    rfl
  rwa [hnetworks, hnetworks] at hids

theorem perform_orderly {a : IterOrder × CoordOp} (hc : c.Orderly)
    (h : c.perform L a = some c') : c'.Orderly := by
  obtain ⟨o, op⟩ := a
  obtain ⟨change, hstep, -⟩ := perform_step h
  refine ⟨?_, hstep.sound hc.sound, perform_rostered hc.rostered h⟩
  rw [networkIds_of_step hstep]
  exact hc.networks

theorem Orderly.entry_of_domainOfNode (hc : c.Orderly) {id : UInt32}
    (h : c.domainOfNode id = some d) : ∃ e, d.registry.entries[id]? = some e := by
  obtain ⟨networkId, hnet, hfound⟩ := Option.bind_eq_some_iff.mp h
  obtain ⟨e, he, rfl⟩ := Option.map_eq_some_iff.mp hnet
  obtain ⟨d₀, hd₀, hentry⟩ := List.exists_of_findSome?_eq_some he
  have hnetwork : e.networkId = d₀.networkId := (hc.sound_of_mem hd₀).networkId id e hentry
  have hid : d.networkId = e.networkId := by simpa using List.find?_some hfound
  obtain rfl := hc.eq_of_networkId (List.mem_of_find?_eq_some hfound) hd₀ (hid.trans hnetwork)
  exact ⟨e, hentry⟩

theorem eq_of_apart (hapart : c.roll.Apart) {id : UInt32} (hd : d ∈ c.domains) (hd' : d' ∈ c.domains)
    (h : d.registry.entries[id]?.isSome) (h' : d'.registry.entries[id]?.isSome) : d = d' := by
  obtain ⟨i, hi, rfl⟩ := List.getElem_of_mem hd
  obtain ⟨j, hj, rfl⟩ := List.getElem_of_mem hd'
  have hpairs := List.pairwise_iff_getElem.mp (List.pairwise_map.mp hapart)
  rcases Nat.lt_trichotomy i j with hlt | rfl | hlt
  · have hnone : c.domains[j].registry.entries[id]? = none := hpairs i j hi hj hlt id h
    rw [hnone] at h'
    nomatch h'
  · rfl
  · have hnone : c.domains[i].registry.entries[id]? = none := hpairs j i hj hi hlt id h'
    rw [hnone] at h
    nomatch h

theorem domainOfNode_of_entry (hnetworks : (c.domains.map NetworkDomain.networkId).Nodup)
    (hsound : ∀ s ∈ c.roll.seats, s.Sound) (hapart : c.roll.Apart) {id : UInt32} {e : NodeEntry}
    (hd : d ∈ c.domains) (he : d.registry.entries[id]? = some e) : c.domainOfNode id = some d := by
  have hfirst : c.domains.findSome? (fun d => d.registry.entries[id]?) = some e := by
    cases hfind : c.domains.findSome? fun d => d.registry.entries[id]? with
    | none => nomatch (List.findSome?_eq_none_iff.mp hfind d hd).symm.trans he
    | some e' =>
      obtain ⟨d', hd', he'⟩ := List.exists_of_findSome?_eq_some hfind
      obtain rfl := eq_of_apart hapart hd hd' (by rw [he]; rfl) (by rw [he']; rfl)
      rw [← he, he']
  have hnetwork : e.networkId = d.networkId :=
    (hsound d.seat (List.mem_map_of_mem hd)).networkId id e he
  rw [domainOfNode, networkOfNode, hfirst, Option.map_some, Option.bind_some, hnetwork,
    domainByNetworkId]
  cases hfound : c.domains.find? fun d' => d'.networkId == d.networkId with
  | none => exact absurd (List.find?_eq_none.mp hfound d hd) (by simp)
  | some d' =>
    have hid : d'.networkId = d.networkId := by simpa using List.find?_some hfound
    rw [List.inj_on_of_nodup_map hnetworks (List.mem_of_find?_eq_some hfound) hd hid]

theorem Orderly.domainOfNode_of_entry (hc : c.Orderly) (hapart : c.roll.Apart) {id : UInt32}
    {e : NodeEntry} (hd : d ∈ c.domains) (he : d.registry.entries[id]? = some e) :
    c.domainOfNode id = some d :=
  Coordinator.domainOfNode_of_entry hc.networks hc.sound hapart hd he

end Coordinator

end Rill
