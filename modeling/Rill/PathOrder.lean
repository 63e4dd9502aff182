import Rill.PathService

/-!
# The path service under any iteration order

What a replica saves of its path service is `erase`: everything but the queued events. The two
withdrawals treat every path set on its own, so their saved result is one map of the path map,
whatever the order of the loop. A request and the saved form do not depend on the order either.
-/

namespace Rill

namespace PathSet

/-- Withdrawing a relay from a set: `none` when no candidate is left. -/
def trimmed (node : UInt32) (set : PathSet) : Option PathSet :=
  if set.uses node then
    let candidates := set.candidates.filter fun c => !c.hops.contains node
    if candidates.isEmpty then none else some { set with candidates, version := set.version + 1 }
  else some set

/-- What a revocation leaves of a set: nothing when the node is one of its ends. -/
def purged (node : UInt32) (key : UInt32 × UInt32) (set : PathSet) : Option PathSet :=
  if key.1 == node || key.2 == node then none else set.trimmed node

end PathSet

namespace PathService

section Withdraw
variable (s : PathService)

/-- What a replica saves of the service: everything but the queued events. -/
def erase : PathService := { s with pending := ∅ }

theorem erase_eq_iff {s s' : PathService} :
    s.erase = s'.erase ↔ s.map = s'.map ∧ s.seq = s'.seq ∧ s.relays = s'.relays := by
  simp [erase]

theorem pushAll_eq (nodes : List UInt32) (event : PathEvent) :
    ∃ p, s.pushAll nodes event = { s with pending := p } := by
  induction nodes generalizing s with
  | nil => exact ⟨s.pending, rfl⟩
  | cons node nodes ih => exact ih (s.pushEvent node event)

theorem pushWithdrawn_eq (source dest : UInt32) (withdrawn : List PathCandidate) :
    ∃ p, s.pushWithdrawn source dest withdrawn = { s with pending := p } := by
  induction withdrawn generalizing s with
  | nil => exact ⟨s.pending, rfl⟩
  | cons c withdrawn ih =>
    obtain ⟨p, hp⟩ := s.pushAll_eq (source :: dest :: c.hops).eraseDups (.withdraw dest c.pathId)
    obtain ⟨p', hp'⟩ := ih { s with pending := p }
    refine ⟨p', ?_⟩
    rw [pushWithdrawn, List.foldl_cons, pushWithdraw, hp]
    exact hp'

theorem withdrawRelayInSet_spec (key : UInt32 × UInt32) (node : UInt32) :
    ∃ t p, s.withdrawRelayInSet key.1 key.2 node = { s with map := t, pending := p } ∧
      t[key]? = s.map[key]?.bind (PathSet.trimmed node) ∧ ∀ j, j ≠ key → t[j]? = s.map[j]? := by
  rw [withdrawRelayInSet]
  cases hset : s.map[key]? with
  | none => exact ⟨s.map, s.pending, rfl, hset, fun _ _ => rfl⟩
  | some set =>
    have huses : (set.candidates.filter fun c => c.hops.contains node).isEmpty = !set.uses node := by
      rw [Bool.eq_iff_iff, List.isEmpty_iff, List.filter_eq_nil_iff, Bool.not_eq_true',
        PathSet.uses, List.any_eq_false]
    dsimp only
    rw [huses, Option.bind_some, PathSet.trimmed]
    cases set.uses node with
    | false => exact ⟨s.map, s.pending, rfl, hset, fun _ _ => rfl⟩
    | true =>
      simp only [Bool.not_true, Bool.false_eq_true, if_false, if_true]
      split_ifs with hempty
      · obtain ⟨p, hp⟩ := pushWithdrawn_eq { s with map := s.map.erase key } key.1 key.2
          (set.candidates.filter fun c => c.hops.contains node)
        exact ⟨_, p, hp, Table.getElem?_erase_self _ _, fun j hj =>
          Table.getElem?_erase_of_ne hj.symm⟩
      · obtain ⟨p, hp⟩ := pushWithdrawn_eq { s with map := s.map.insert key _ } key.1 key.2
          (set.candidates.filter fun c => c.hops.contains node)
        rw [hp]
        obtain ⟨p', hp'⟩ := pushAll_eq { s with map := s.map.insert key _, pending := p } _ _
        exact ⟨_, p', hp', Table.getElem?_insert_self _ _ _, fun j hj =>
          Table.getElem?_insert_of_ne hj.symm⟩

theorem withdrawNodeInSet_spec (key : UInt32 × UInt32) (node : UInt32) :
    ∃ t p, s.withdrawNodeInSet node key = { s with map := t, pending := p } ∧
      t[key]? = s.map[key]?.bind (PathSet.purged node key) ∧
      ∀ j, j ≠ key → t[j]? = s.map[j]? := by
  rw [withdrawNodeInSet]
  split_ifs with hends
  · cases hset : s.map[key]? with
    | none => exact ⟨s.map, s.pending, rfl, hset, fun _ _ => rfl⟩
    | some set =>
      obtain ⟨p, hp⟩ := pushWithdrawn_eq { s with map := s.map.erase key } key.1 key.2
        set.candidates
      refine ⟨_, p, hp, ?_, fun j hj => Table.getElem?_erase_of_ne hj.symm⟩
      rw [Option.bind_some, PathSet.purged, if_pos hends]
      exact Table.getElem?_erase_self _ _
  · obtain ⟨t, p, heq, hself, hother⟩ := s.withdrawRelayInSet_spec key node
    refine ⟨t, p, heq, ?_, hother⟩
    rw [hself]
    refine congrArg s.map[key]?.bind (funext fun set => ?_)
    rw [PathSet.purged, if_neg hends]

/-- A loop that withdraws set by set keeps the allocator and the relays and treats each set on its
own. -/
theorem perEntry_of_spec {withdraw : PathService → UInt32 × UInt32 → PathService}
    {put : UInt32 × UInt32 → PathSet → Option PathSet}
    (hspec : ∀ (s : PathService) key, ∃ t p, withdraw s key = { s with map := t, pending := p } ∧
      t[key]? = s.map[key]?.bind (put key) ∧ ∀ j, j ≠ key → t[j]? = s.map[j]?) :
    PerEntry (fun s' : PathService => s'.seq = s.seq ∧ s'.relays = s.relays) PathService.map
      (fun _ => ()) withdraw (fun _ => put) (fun _ _ _ => ()) where
  inv_round s' key hinv := by
    obtain ⟨t, p, heq, -⟩ := hspec s' key
    rwa [heq]
  table_self s' key _ := by
    obtain ⟨t, p, heq, hself, -⟩ := hspec s' key
    rwa [heq]
  table_other s' key j _ hj := by
    obtain ⟨t, p, heq, -, hother⟩ := hspec s' key
    rw [heq]
    exact hother j hj
  shared_round _ _ _ := rfl

theorem erase_foldl_of_spec {withdraw : PathService → UInt32 × UInt32 → PathService}
    {put : UInt32 × UInt32 → PathSet → Option PathSet}
    (hspec : ∀ (s : PathService) key, ∃ t p, withdraw s key = { s with map := t, pending := p } ∧
      t[key]? = s.map[key]?.bind (put key) ∧ ∀ j, j ≠ key → t[j]? = s.map[j]?)
    {keys : List (UInt32 × UInt32)} (hkeys : keys.Nodup)
    (hnot : ∀ key set, key ∉ keys → s.map[key]? = some set → put key set = some set) :
    (keys.foldl withdraw s).erase = erase { s with map := s.map.filterMap put } := by
  have hloop := s.perEntry_of_spec hspec
  obtain ⟨hseq, hrelays⟩ := hloop.inv_foldl keys (s := s) ⟨rfl, rfl⟩
  refine erase_eq_iff.mpr ⟨?_, hseq, hrelays⟩
  exact hloop.table_foldl_eq_filterMap hkeys ⟨rfl, rfl⟩ (0, 0) (fun _ _ _ _ _ => rfl)
    (fun _ _ _ _ _ _ => rfl) hnot

theorem erase_withdrawRelay (o : HashOrder (UInt32 × UInt32)) (node : UInt32) :
    (s.withdrawRelay o node).erase =
      erase { s with map := s.map.filterMap fun _ => PathSet.trimmed node } := by
  have hnodup : (((o.entries s.map).filter fun e => e.2.uses node).map Prod.fst).Nodup := by
    refine List.Nodup.sublist (List.filter_sublist.map _) ?_
    rw [HashOrder.map_fst_entries]
    exact o.nodup_keys s.map
  refine s.erase_foldl_of_spec (fun s key => s.withdrawRelayInSet_spec key node) hnodup ?_
  intro key set hnot hset
  have huses : set.uses node = false := by
    by_contra huses
    refine hnot (List.mem_map.mpr ⟨(key, set), List.mem_filter.mpr ⟨?_, ?_⟩, rfl⟩)
    · exact HashOrder.mem_entries.mpr hset
    · simpa using huses
  rw [PathSet.trimmed, if_neg (by simp [huses])]

theorem erase_withdrawNode (o : HashOrder (UInt32 × UInt32)) (node : UInt32) :
    (s.withdrawNode o node).erase =
      erase { s with map := s.map.filterMap (PathSet.purged node) } := by
  refine s.erase_foldl_of_spec (fun s key => s.withdrawNodeInSet_spec key node)
    ((o.nodup_keys s.map).filter _) ?_
  intro key set hnot hset
  have hkey : key ∈ o.keys s.map := HashOrder.mem_keys.mpr (by rw [hset]; rfl)
  have hout : ¬ (key.1 == node || key.2 == node || s.map[key]?.any fun set => set.uses node) = true :=
    fun hin => hnot (List.mem_filter.mpr ⟨hkey, hin⟩)
  rw [hset, Option.any_some, Bool.or_eq_true, not_or] at hout
  rw [PathSet.purged, if_neg hout.1, PathSet.trimmed, if_neg hout.2]

/-- The saved service after the given relays have been withdrawn. -/
def narrowed (relays : List UInt32) : PathService :=
  { s with map := relays.foldl (fun t node => t.filterMap fun _ => PathSet.trimmed node) s.map }

theorem erase_foldl_withdrawRelay (o : HashOrder (UInt32 × UInt32)) (relays : List UInt32) :
    (relays.foldl (fun s node => s.withdrawRelay o node) s).erase = (s.narrowed relays).erase := by
  induction relays generalizing s with
  | nil => rfl
  | cons node relays ih =>
    obtain ⟨hmap, hseq, hrelays⟩ := erase_eq_iff.mp (s.erase_withdrawRelay o node)
    rw [List.foldl_cons, ih]
    refine erase_eq_iff.mpr ⟨?_, hseq, hrelays⟩
    simp only [narrowed, hmap, List.foldl_cons]

end Withdraw

section Saved
variable {s s' : PathService}

theorem request_congr (h : s.erase = s'.erase) (source dest max : UInt32) (now : UInt64) :
    (s.request source dest max now).1 = (s'.request source dest max now).1 ∧
      (s.request source dest max now).2.erase = (s'.request source dest max now).2.erase := by
  obtain ⟨map, seq, pending, relays⟩ := s
  obtain ⟨map', seq', pending', relays'⟩ := s'
  obtain ⟨rfl, rfl, rfl⟩ : map = map' ∧ seq = seq' ∧ relays = relays' := erase_eq_iff.mp h
  simp only [request, pushToParticipants]
  cases (map[(source, dest)]?).filter fun set => !set.expired now with
  | some set =>
    obtain ⟨p, hp⟩ := pushAll_eq ⟨map, seq, pending, relays⟩
      (source :: dest :: usableRelays relays source dest) (.update source dest set)
    obtain ⟨p', hp'⟩ := pushAll_eq ⟨map, seq, pending', relays⟩
      (source :: dest :: usableRelays relays source dest) (.update source dest set)
    dsimp only
    rw [hp, hp']
    exact ⟨rfl, rfl⟩
  | none =>
    dsimp only
    generalize PathSet.mk _ _ _ = set
    generalize (requestRelays dest _ _ _ _ _).2 = last
    obtain ⟨p, hp⟩ := pushAll_eq ⟨map, last, pending, relays⟩
      (source :: dest :: usableRelays relays source dest) (.update source dest set)
    obtain ⟨p', hp'⟩ := pushAll_eq ⟨map, last, pending', relays⟩
      (source :: dest :: usableRelays relays source dest) (.update source dest set)
    rw [hp, hp']
    exact ⟨rfl, rfl⟩

theorem persistent_congr (h : s.erase = s'.erase) (o o' : HashOrder (UInt32 × UInt32)) :
    s.persistent o = s'.persistent o' := by
  obtain ⟨hmap, hseq, -⟩ := erase_eq_iff.mp h
  rw [persistent, persistent, hmap, hseq]
  refine congrArg (·, s'.seq) (StableSort.sortByKey_eq_of_perm ?_ ?_)
  · exact (HashOrder.entries_perm o o' s'.map).map _
  · intro e he e' he' hkey
    obtain ⟨⟨k, set⟩, hset, rfl⟩ := List.mem_map.mp he
    obtain ⟨⟨k', set'⟩, hset', rfl⟩ := List.mem_map.mp he'
    obtain ⟨h₁, h₂⟩ := Prod.mk.inj (toLex.injective hkey)
    obtain rfl : k = k' := Prod.ext (UInt32.toNat_inj.mp h₁) (UInt32.toNat_inj.mp h₂)
    rw [HashOrder.mem_entries] at hset hset'
    rw [Option.some.inj (hset.symm.trans hset')]

theorem map_eq_of_persistent_eq {o o' : HashOrder (UInt32 × UInt32)}
    (h : s.persistent o = s'.persistent o') : s.map = s'.map := by
  have hperm := ((StableSort.perm_sortByKey _).symm.trans
    (List.Perm.of_eq (congrArg Prod.fst h))).trans (StableSort.perm_sortByKey _)
  have hmem : ∀ {s s' : PathService} {o o' : HashOrder (UInt32 × UInt32)} {k : UInt32 × UInt32}
      {set : PathSet}, ((o.entries s.map).map fun e => (e.1.1, e.1.2, e.2)).Perm
        ((o'.entries s'.map).map fun e => (e.1.1, e.1.2, e.2)) →
      s.map[k]? = some set → s'.map[k]? = some set := by
    intro s s' o o' k set hperm hset
    have hin := hperm.mem_iff.mp (List.mem_map.mpr ⟨(k, set), HashOrder.mem_entries.mpr hset, rfl⟩)
    obtain ⟨⟨k', set'⟩, hin', heq⟩ := List.mem_map.mp hin
    simp only [Prod.mk.injEq] at heq
    obtain ⟨h₁, h₂, rfl⟩ := heq
    obtain rfl : k' = k := Prod.ext h₁ h₂
    exact HashOrder.mem_entries.mp hin'
  refine Std.ExtTreeMap.ext_getElem? fun k => Option.ext fun set => ⟨?_, ?_⟩
  · exact hmem hperm
  · exact hmem hperm.symm

theorem setRelays_congr {s s' : PathService} (h : s.erase = s'.erase) (relays : List UInt32) :
    (s.setRelays relays).erase = (s'.setRelays relays).erase := by
  obtain ⟨hmap, hseq, -⟩ := PathService.erase_eq_iff.mp h
  exact PathService.erase_eq_iff.mpr ⟨hmap, hseq, rfl⟩

theorem narrowed_congr (h : s.erase = s'.erase) (relays : List UInt32) :
    (s.narrowed relays).erase = (s'.narrowed relays).erase := by
  obtain ⟨hmap, hseq, hrelays⟩ := erase_eq_iff.mp h
  simp only [narrowed, erase, hmap, hseq, hrelays]

end Saved

end PathService

end Rill
