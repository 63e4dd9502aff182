import Rill.NamedNodes
import Rill.NetworkMandate
import Rill.RevocationFinal

/-!
# Which network a node is in

The nodes of a network are looked up in it, and stay in it until they are revoked. The netmap of a
network lists its nodes and no others; the id that stands for the network of an unknown node is that
of no network.

What an operation on a coordinator does to the path sets of a network and to the updates that wait
for its nodes, given what it takes to keep a property of them.
-/

namespace Rill

/-! ## Path sets and queued updates of a network -/

namespace NetworkDomain
variable {d d' : NetworkDomain} {T : UInt32 × UInt32 → PathSet → Prop}
  {U : UInt32 → UInt32 × UInt32 → PathSet → Prop}

def Has (d : NetworkDomain) (id : UInt32) : Prop := (d.registry.entries[id]?).isSome

instance (d : NetworkDomain) (id : UInt32) : Decidable (d.Has id) := by
  unfold Has
  infer_instance

theorem has_revoke (d : NetworkDomain) (o : HashOrder (UInt32 × UInt32)) (nodeId id : UInt32)
    (now : UInt64) : (d.revoke o nodeId now).Has id ↔ d.Has id ∧ id ≠ nodeId := by
  rw [Has, revoke, Registry.getElem?_revoke]
  split_ifs with hid
  · simp [hid.symm]
  · simp [Has, Ne.symm hid]

/-- A roster is put in place: dropped relays leave the path sets, then sets gain candidates over the
relays of the roster. -/
theorem applyRelayRoster_sends (o : HashOrder (UInt32 × UInt32)) (roster : List UInt32) (now : UInt64)
    (hd : d.paths.Shapes T) (hless : ∀ node key set, T key set → T key (set.without node))
    (hnew : ∀ (key : UInt32 × UInt32) (old set : PathSet), T key old → (∀ c ∈ set.candidates,
      c ∈ old.candidates ∨ c.Offered (usableRelays roster key.1 key.2) key.2) → T key set)
    (hU : ∀ (key : UInt32 × UInt32) (set : PathSet) m, T key set → m = key.1 ∨ m = key.2 ∨
      m ∈ usableRelays roster key.1 key.2 ∨ (∃ c ∈ set.candidates, m ∈ c.hops) → U m key set) :
    (d.applyRelayRoster o roster now).2.paths.Shapes T ∧
      d.paths.Sends U (d.applyRelayRoster o roster now).2.paths := by
  have hplace : d.paths.Sends U (d.paths.setRelays roster) := PathService.sends_of_pending_eq rfl
  obtain ⟨hdropped, hsent⟩ := PathService.Sends.foldl (U := U) (P := PathService.Shapes T)
    (f := fun s node => s.withdrawRelay o node) (fun s node hs =>
      PathService.withdrawRelay_sends o node hs (hless node) fun key set m hT hm =>
        hU key set m hT (hm.imp id fun h => h.imp id Or.inr))
    (d.dropped roster) (show (d.paths.setRelays roster).Shapes T from hd)
  have hrelays : ((d.dropped roster).foldl (fun s node => s.withdrawRelay o node)
      (d.paths.setRelays roster)).relays = roster :=
    PathService.relays_foldl (fun s node => s.relays_withdrawRelay o node) _ _
  obtain ⟨hshapes, hexpanded⟩ := PathService.expandRelayCandidates_sends (U := U) o now hdropped
    (fun key old set hT hset => hnew key old set hT (by rwa [hrelays] at hset))
    fun key set m hT hm => hU key set m hT (by
      rw [hrelays] at hm
      exact hm.imp id fun h => h.imp id Or.inl)
  exact ⟨hshapes, hplace.trans (hsent.trans hexpanded)⟩

theorem paths_revoke (o : HashOrder (UInt32 × UInt32)) (nodeId : UInt32) (now : UInt64) :
    (d.revoke o nodeId now).paths.map = (d.paths.withdrawNode o nodeId).map ∧
      (d.revoke o nodeId now).paths.pending = (d.paths.withdrawNode o nodeId).pending := by
  simp only [revoke]
  split_ifs
  · exact ⟨rfl, rfl⟩
  · exact ⟨rfl, rfl⟩

/-- A node is revoked: its own path sets go, and others lose the candidates over it. -/
theorem revoke_sends (o : HashOrder (UInt32 × UInt32)) (nodeId : UInt32) (now : UInt64)
    (hd : d.paths.Shapes T) (hless : ∀ key set, T key set → T key (set.without nodeId))
    (hU : ∀ (key : UInt32 × UInt32) (set : PathSet) m, T key set → key.1 ≠ nodeId →
      key.2 ≠ nodeId → m = key.1 ∨ m = key.2 ∨
        (∃ c ∈ (set.without nodeId).candidates, m ∈ c.hops) → U m key (set.without nodeId)) :
    (d.revoke o nodeId now).paths.Shapes (fun key set => T key set ∧ key.1 ≠ nodeId ∧
        key.2 ≠ nodeId) ∧ d.paths.Sends U (d.revoke o nodeId now).paths := by
  obtain ⟨hshapes, hsends⟩ := PathService.withdrawNode_sends (U := U) o nodeId hd hless hU
  have hends := d.paths.ends_withdrawNode o nodeId
  have hpaths := paths_revoke (d := d) o nodeId now
  refine ⟨fun key set hset => ?_, hsends.trans (PathService.sends_of_pending_eq hpaths.2)⟩
  rw [hpaths.1] at hset
  exact ⟨hshapes key set hset, hends key set hset⟩

end NetworkDomain

structure NetworkDomain.Lasts (d d' : NetworkDomain) : Prop where
  networkId : d'.networkId = d.networkId
  has : ∀ id, d.Has id → d'.Has id

namespace Coordinator
variable {c c' : Coordinator} {L : Crates} {o : IterOrder} {op : CoordOp} {d d' : NetworkDomain}

theorem Orderly.has_of_domainOfNode (hc : c.Orderly) {id : UInt32}
    (h : c.domainOfNode id = some d) : d.Has id := by
  obtain ⟨e, he⟩ := hc.entry_of_domainOfNode h
  rw [NetworkDomain.Has, he]
  rfl

theorem Orderly.domain_of_lasts (hc' : c'.Orderly) (hapart : c'.roll.Apart)
    {R : NetworkDomain → NetworkDomain → Prop} (hR : ∀ d d', R d d' → d.Lasts d')
    (h : List.Forall₂ R c.domains c'.domains) (hd : d ∈ c.domains) :
    ∃ d', R d d' ∧ ∀ id, d.Has id → c'.domainOfNode id = some d' := by
  obtain ⟨d', hd', hrel⟩ := exists_of_forall₂ h hd
  refine ⟨d', hrel, fun id hid => ?_⟩
  obtain ⟨e, he⟩ := Option.isSome_iff_exists.mp ((hR d d' hrel).has id hid)
  exact hc'.domainOfNode_of_entry hapart hd' he

theorem Evolves.networkId (h : c.Evolves L o op d d') : d'.networkId = d.networkId := by
  cases h with
  | keep hkeep => exact hkeep.networkId
  | _ => rfl

theorem Evolves.has_or_revoked (h : c.Evolves L o op d d') : (∀ id, d.Has id → d'.Has id) ∨
    ∃ nodeId now logId, op = .command (.revoke nodeId now) logId ∧
      d' = (d.flushRevokeRotation now).revoke (o.paths d.networkId) nodeId now := by
  by_cases hkeep : ∀ id, d.Has id → d'.Has id
  · exact Or.inl hkeep
  · push Not at hkeep
    obtain ⟨id, hid, hlost⟩ := hkeep
    obtain ⟨e, he⟩ := Option.isSome_iff_exists.mp hid
    obtain ⟨now, logId, hop, hd'⟩ := h.entry_lost he (Option.not_isSome_iff_eq_none.mp hlost)
    exact Or.inr ⟨id, now, logId, hop, hd'⟩

theorem Evolves.lasts (h : c.Evolves L o op d d')
    (hop : ∀ nodeId now logId, op ≠ .command (.revoke nodeId now) logId) : d.Lasts d' := by
  refine ⟨h.networkId, ?_⟩
  rcases h.has_or_revoked with hhas | ⟨nodeId, now, logId, hrevoke, -⟩
  · exact hhas
  · exact absurd hrevoke (hop nodeId now logId)

/-- Networks have ids, and nodes are registered in one network each. -/
structure Numbered (c : Coordinator) : Prop where
  orderly : c.Orderly
  apart : c.roll.Apart
  networkId : ∀ d ∈ c.domains, d.networkId ≠ 0

theorem perform_numbered {a : IterOrder × CoordOp} (hc : c.Numbered) (hfresh : c.FreshId a)
    (h : c.perform L a = some c') : c'.Numbered := by
  obtain ⟨o, op⟩ := a
  exact ⟨perform_orderly hc.orderly h, perform_apart hc.apart hfresh h,
    perform_forall h hc.networkId fun _ _ _ hd hevolves => hevolves.networkId ▸ hd⟩

theorem networkIdFor_ne_zero (name : Text) : networkIdFor name ≠ 0 := by
  rw [networkIdFor]
  split_ifs with h
  · decide
  · exact h

theorem numbered_fresh (config : MachineConfig)
    (hids : (config.networks.map fun n => networkIdFor n.1).Nodup) :
    (freshCoordinator config).Numbered := by
  refine ⟨orderly_fresh config hids, (restorable_fresh config hids).apart, ?_⟩
  rw [freshCoordinator_eq]
  exact List.forall_mem_map.mpr fun n _ => networkIdFor_ne_zero n.1

theorem Numbered.mem_netmap (hc : c.Numbered) {networkId : UInt32} {e : NodeInfo}
    (he : e ∈ c.netmapSnapshot o networkId) :
    ∃ d ∈ c.domains, d.networkId = networkId ∧ d.Has e.nodeId ∧ e.networkId = d.networkId := by
  obtain ⟨d, hd, he⟩ := List.mem_flatMap.mp he
  obtain ⟨hmem, hid⟩ := List.mem_filter.mp hd
  obtain ⟨entry, hentry, rfl⟩ := List.mem_map.mp he
  obtain ⟨id, hentry⟩ := HashOrder.mem_values.mp hentry
  have hhas : d.Has entry.nodeId := by
    rw [NetworkDomain.Has, d.registry.keyed id entry hentry, hentry]
    rfl
  exact ⟨d, hmem, by simpa using hid, hhas,
    (hc.orderly.sound_of_mem hmem).networkId id entry hentry⟩

theorem Numbered.mem_netmap_of_lasts {n : UInt32} (hc : c.Numbered) (hc' : c'.Numbered)
    {R : NetworkDomain → NetworkDomain → Prop} (hR : ∀ d d', R d d' → d.Lasts d')
    (h : List.Forall₂ R c.domains c'.domains) {e : NodeInfo}
    (he : e ∈ c'.netmapSnapshot o ((c.networkIdOf n).getD 0)) :
    ∃ d ∈ c'.domains, d.Has n ∧ d.Has e.nodeId ∧ e.networkId = d.networkId := by
  obtain ⟨d, hd, hid, hhas, hnetwork⟩ := hc'.mem_netmap he
  refine ⟨d, hd, ?_, hhas, hnetwork⟩
  cases hn : c.domainOfNode n with
  | none =>
    -- no network has the id that stands for the network of an unknown node
    rw [networkIdOf, hn] at hid
    exact absurd hid (hc'.networkId d hd)
  | some d₀ =>
    rw [networkIdOf, hn] at hid
    obtain ⟨d', hd', hrel⟩ := exists_of_forall₂ h (mem_of_domainOfNode hn)
    obtain rfl := hc'.orderly.eq_of_networkId hd hd' (hid.trans (hR _ _ hrel).networkId.symm)
    exact (hR _ _ hrel).has n (hc.orderly.has_of_domainOfNode hn)

end Coordinator

end Rill
