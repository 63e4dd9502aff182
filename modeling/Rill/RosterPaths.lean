import Rill.PathIssue
import Rill.Membership
import Rill.RevocationFinal

/-!
# What a roster does to path sets

The path sets of a coordinator have their relays from the roster. A new roster takes the dropped
relays out of every set and fills the set up with relays that have no candidate yet. A relay leaves
with every candidate that has it as a hop, also as the last one: the sets of paths to it are lost.
The fill starts over as long as some relay has no candidate, also where the budget of the set allows
no further one.
-/

namespace Rill

def PathCandidate.relayedBy (c : PathCandidate) (dest node : UInt32) : Bool :=
  c.hops.contains node && node != dest

namespace PathSet

def avoiding (nodes : List UInt32) (candidates : List PathCandidate) : List PathCandidate :=
  candidates.filter fun c => !c.hops.any nodes.contains

/-- What is left of a set when the nodes are withdrawn one after another. -/
def narrow (nodes : List UInt32) (set : PathSet) : Option PathSet :=
  nodes.foldl (fun left node => left.bind (trimmed node)) (some set)

/-- The set as a network with this roster keeps it. -/
structure Manned (roster : List UInt32) (key : UInt32 × UInt32) (set : PathSet) : Prop where
  formed : set.Formed key
  relays : ∀ c ∈ set.candidates, ∀ r ∈ c.hops, r = key.2 ∨ r ∈ roster

variable {set set' : PathSet} {key : UInt32 × UInt32} {node : UInt32} {nodes roster : List UInt32}
  {c : PathCandidate}

theorem mem_avoiding {candidates : List PathCandidate} :
    c ∈ avoiding nodes candidates ↔ c ∈ candidates ∧ ∀ r ∈ c.hops, r ∉ nodes := by
  simp [avoiding]

theorem avoiding_singleton (candidates : List PathCandidate) :
    avoiding [node] candidates = candidates.filter fun c => !c.hops.contains node := by
  refine List.filter_congr fun c _ => congrArg not ?_
  rw [Bool.eq_iff_iff, List.any_eq_true, List.contains_iff_mem]
  simp

theorem avoiding_nil (candidates : List PathCandidate) : avoiding [] candidates = candidates := by
  simp [avoiding]

theorem avoiding_avoiding (candidates : List PathCandidate) :
    avoiding nodes (avoiding [node] candidates) = avoiding (node :: nodes) candidates := by
  rw [avoiding, avoiding, List.filter_filter, avoiding]
  refine List.filter_congr fun c _ => ?_
  rw [Bool.eq_iff_iff]
  simp only [Bool.and_eq_true, Bool.not_eq_true', List.any_eq_false, List.contains_iff_mem,
    List.mem_cons, List.not_mem_nil, or_false, not_or]
  exact ⟨fun h r hr => ⟨h.2 r hr, h.1 r hr⟩, fun h => ⟨fun r hr => (h r hr).2,
    fun r hr => (h r hr).1⟩⟩

theorem trimmed_spec (node : UInt32) (set : PathSet) :
    (set.trimmed node).elim [] candidates = avoiding [node] set.candidates ∧
      ∀ set' ∈ set.trimmed node, set'.max = set.max := by
  rw [trimmed, ← avoiding_singleton]
  dsimp only
  split_ifs with huses hempty
  · refine ⟨?_, by rintro set' ⟨⟩⟩
    rw [List.isEmpty_iff.mp hempty]
    rfl
  · refine ⟨rfl, fun set' h => ?_⟩
    cases h
    rfl
  · refine ⟨?_, fun set' h => ?_⟩
    · rw [avoiding_singleton]
      refine (List.filter_eq_self.mpr fun c hc => ?_).symm
      rw [Bool.not_eq_true, uses, List.any_eq_false] at huses
      simpa using huses c hc
    · cases h
      rfl

theorem narrow_cons (node : UInt32) (nodes : List UInt32) (set : PathSet) :
    set.narrow (node :: nodes) = (set.trimmed node).bind (narrow nodes) := by
  have hnone : nodes.foldl (fun left node => left.bind (trimmed node)) none = none := by
    induction nodes with
    | nil => rfl
    | cons node nodes ih => exact ih
  rw [narrow, List.foldl_cons, Option.bind_some]
  cases set.trimmed node with
  | none => exact hnone
  | some set => rfl

theorem narrow_spec (nodes : List UInt32) (set : PathSet) :
    (set.narrow nodes).elim [] candidates = avoiding nodes set.candidates ∧
      ∀ set' ∈ set.narrow nodes, set'.max = set.max := by
  induction nodes generalizing set with
  | nil =>
    refine ⟨(avoiding_nil _).symm, fun set' h => ?_⟩
    cases h
    rfl
  | cons node nodes ih =>
    obtain ⟨hcandidates, hmax⟩ := set.trimmed_spec node
    rw [narrow_cons, ← avoiding_avoiding, ← hcandidates]
    cases htrim : set.trimmed node with
    | none => exact ⟨rfl, fun set' h => nomatch h⟩
    | some left =>
      refine ⟨(ih left).1, fun set' h => ?_⟩
      exact ((ih left).2 set' h).trans (hmax left htrim)

theorem narrow_eq_some (h : set.narrow nodes = some set') :
    set'.candidates = avoiding nodes set.candidates ∧ set'.max = set.max := by
  obtain ⟨hcandidates, hmax⟩ := set.narrow_spec nodes
  rw [h] at hcandidates
  exact ⟨hcandidates, hmax set' h⟩

theorem Formed.narrow (h : set.Formed key) (hset : set.narrow nodes = some set') :
    set'.Formed key := by
  induction nodes generalizing set with
  | nil =>
    cases hset
    exact h
  | cons node nodes ih =>
    rw [narrow_cons] at hset
    obtain ⟨left, htrim, hset⟩ := Option.bind_eq_some_iff.mp hset
    exact ih (h.trimmed htrim).1 hset

theorem Manned.narrow (h : set.Manned roster key) (hset : set.narrow nodes = some set') :
    set'.Manned (roster.filter fun r => !nodes.contains r) key := by
  refine ⟨h.formed.narrow hset, fun c hc r hr => ?_⟩
  rw [(narrow_eq_some hset).1, mem_avoiding] at hc
  refine (h.relays c hc.1 r hr).imp id fun hroster => List.mem_filter.mpr ⟨hroster, ?_⟩
  simpa using hc.2 r hr

theorem Manned.mono {roster' : List UInt32} (h : set.Manned roster key)
    (hsub : ∀ r ∈ roster, r ∈ roster') : set.Manned roster' key :=
  ⟨h.formed, fun c hc r hr => (h.relays c hc r hr).imp id (hsub r)⟩

theorem mem_of_usableRelays {relays : List UInt32} {source dest r : UInt32}
    (h : r ∈ usableRelays relays source dest) : r ∈ relays := List.mem_of_mem_filter h

theorem hop_of_offered {relays : List UInt32} {r : UInt32}
    (h : c.Offered (usableRelays relays key.1 key.2) key.2) (hr : r ∈ c.hops) :
    r = key.2 ∨ r ∈ relays := by
  rcases h with h | ⟨relay, hrelay, h⟩
  · rw [h] at hr
    exact .inl (List.mem_singleton.mp hr)
  · rw [h] at hr
    rcases List.mem_cons.mp hr with rfl | hr
    · exact .inr (mem_of_usableRelays hrelay)
    · exact .inl (List.mem_singleton.mp hr)

theorem Manned.expanded (h : set.Manned roster key) (now seq : UInt64) :
    (set.expanded roster now key seq).1.Manned roster key := by
  rw [PathSet.expanded]
  split_ifs
  · exact h
  · obtain ⟨-, -, -, -, -, hformed⟩ := h.formed.rebuilt roster now seq
    refine ⟨hformed, fun c hc r hr => ?_⟩
    exact (mem_rebuilt hc).elim (fun hc => h.relays c hc r hr) fun hc => hop_of_offered hc hr

/-- A set with relays from the roster keeps all its candidates when it is filled up. -/
theorem Manned.kept_perm (h : set.Manned roster key) :
    (set.keptDirect ++ set.keptRelayed (usableRelays roster key.1 key.2)).Perm set.candidates := by
  have hrelayed : set.keptRelayed (usableRelays roster key.1 key.2) =
      set.candidates.filter fun c => !(c.hops.length == 1) := by
    refine List.filter_congr fun c hc => ?_
    rcases h.formed.hops c hc with hhops | ⟨relay, hsource, hdest, hhops⟩
    · simp [hhops]
    · have hrelay : relay ∈ roster :=
        (h.relays c hc relay (by rw [hhops]; exact List.mem_cons_self)).resolve_left hdest
      have husable : relay ∈ usableRelays roster key.1 key.2 :=
        List.mem_filter.mpr ⟨hrelay, by simp [hsource, hdest]⟩
      simp [hhops, husable]
  rw [hrelayed]
  exact List.filter_append_perm _ set.candidates

theorem Manned.rebuilt_candidates (h : set.Manned roster key) (now seq : UInt64) :
    (set.rebuilt (usableRelays roster key.1 key.2) now key.2 seq).1.candidates =
      (fillRelays key.2 (now + pathDefaultTtl) (clampMax set.max).toNat
        (usableRelays roster key.1 key.2)
        (set.keptDirect ++ set.keptRelayed (usableRelays roster key.1 key.2)) seq).1 := by
  obtain ⟨c, hc, hhops⟩ := h.formed.direct
  have hkept : c ∈ set.keptDirect := List.mem_filter.mpr ⟨hc, by rw [hhops]; rfl⟩
  have hdirect : set.keptDirect.isEmpty = false :=
    List.isEmpty_eq_false_iff.mpr (List.ne_nil_of_mem hkept)
  simp only [rebuilt, hdirect, Bool.false_eq_true, if_false]

theorem Manned.mem_expanded (h : set.Manned roster key) (hc : c ∈ set.candidates)
    (now seq : UInt64) : c ∈ (set.expanded roster now key seq).1.candidates := by
  rw [PathSet.expanded]
  split_ifs
  · exact hc
  · obtain ⟨tail, hfill, -⟩ := fillRelays_append key.2 (now + pathDefaultTtl)
      (clampMax set.max).toNat (usableRelays roster key.1 key.2)
      (set.keptDirect ++ set.keptRelayed (usableRelays roster key.1 key.2)) seq
    rw [h.rebuilt_candidates, hfill]
    exact List.mem_append_left _ (h.kept_perm.mem_iff.mpr hc)

end PathSet

namespace PathService
variable (s : PathService)

def candidatesOf (key : UInt32 × UInt32) : List PathCandidate :=
  (s.map[key]?).elim [] PathSet.candidates

theorem candidatesOf_withdrawRelay (o : HashOrder (UInt32 × UInt32)) (node : UInt32)
    (key : UInt32 × UInt32) : (s.withdrawRelay o node).candidatesOf key =
      PathSet.avoiding [node] (s.candidatesOf key) := by
  rw [candidatesOf, (erase_eq_iff.mp (s.erase_withdrawRelay o node)).1,
    Std.ExtTreeMap.getElem?_filterMap', candidatesOf]
  cases s.map[key]? with
  | none => rfl
  | some set => exact (set.trimmed_spec node).1

theorem getElem?_narrowed (nodes : List UInt32) (key : UInt32 × UInt32) :
    (s.narrowed nodes).map[key]? = (s.map[key]?).bind (PathSet.narrow nodes) := by
  rw [narrowed]
  induction nodes generalizing s with
  | nil => cases h : s.map[key]? <;> exact h
  | cons node nodes ih =>
    have hrest := ih { s with map := s.map.filterMap fun _ => PathSet.trimmed node }
    rw [List.foldl_cons, hrest, Std.ExtTreeMap.getElem?_filterMap', Option.bind_assoc]
    exact congrArg _ (funext fun set => (set.narrow_cons node nodes).symm)

theorem getElem?_expand (o : HashOrder (UInt32 × UInt32)) (now : UInt64) (key : UInt32 × UInt32) :
    ∃ seq, (s.expandRelayCandidates o now).map[key]? =
      (s.map[key]?).map fun set => (set.expanded s.relays now key seq).1 := by
  have hloop := s.perEntry_expandSet now
  by_cases hkey : key ∈ o.keys s.map
  · obtain ⟨pre, post, hkeys⟩ := List.append_of_mem hkey
    refine ⟨PerEntry.advanced (fun seq key set => (set.expanded s.relays now key seq).2) s.map pre
      s.seq, ?_⟩
    rw [expandRelayCandidates, hkeys, hloop.table_foldl (hkeys ▸ o.nodup_keys s.map) rfl,
      Option.map_eq_bind]
    rfl
  · refine ⟨0, ?_⟩
    have hnone : s.map[key]? = none := by
      rw [HashOrder.mem_keys] at hkey
      simpa using hkey
    rw [expandRelayCandidates, hloop.table_foldl_of_notMem hkey rfl, hnone]
    rfl

end PathService

namespace NetworkDomain
variable {d : NetworkDomain} {roster : List UInt32} {now : UInt64} {key : UInt32 × UInt32}

theorem getElem?_applyRelayRoster (d : NetworkDomain) (o : HashOrder (UInt32 × UInt32))
    (roster : List UInt32) (now : UInt64) (key : UInt32 × UInt32) :
    ∃ seq, (d.applyRelayRoster o roster now).2.paths.map[key]? =
      ((d.paths.map[key]?).bind (PathSet.narrow (d.dropped roster))).map fun set =>
        (set.expanded roster now key seq).1 := by
  have hnarrow := PathService.erase_eq_iff.mp
    ((d.paths.setRelays roster).erase_foldl_withdrawRelay o (d.dropped roster))
  obtain ⟨seq, hseq⟩ := PathService.getElem?_expand ((d.dropped roster).foldl
    (fun paths node => paths.withdrawRelay o node) (d.paths.setRelays roster)) o now key
  rw [hnarrow.1, hnarrow.2.2, PathService.getElem?_narrowed] at hseq
  exact ⟨seq, hseq⟩

/-- The path sets have their relays from the roster. -/
structure Manned (d : NetworkDomain) : Prop where
  relays : d.paths.relays = d.roster
  sets : d.paths.Shapes (PathSet.Manned d.roster)

theorem Manned.narrow (h : d.Manned) {set left : PathSet} (hset : d.paths.map[key]? = some set)
    (hleft : set.narrow (d.dropped roster) = some left) : left.Manned roster key := by
  refine ((h.sets key set hset).narrow hleft).mono fun r hr => ?_
  obtain ⟨hroster, hkept⟩ := List.mem_filter.mp hr
  by_contra hout
  have hdropped : r ∈ d.dropped roster := List.mem_filter.mpr ⟨hroster, by simpa using hout⟩
  simp [hdropped] at hkept

theorem Manned.applyRelayRoster (h : d.Manned) (o : HashOrder (UInt32 × UInt32))
    (roster : List UInt32) (now : UInt64) : (d.applyRelayRoster o roster now).2.Manned := by
  refine ⟨Coordinator.relays_applyRelayRoster d o roster now, fun key set hset => ?_⟩
  obtain ⟨seq, heq⟩ := d.getElem?_applyRelayRoster o roster now key
  rw [heq] at hset
  obtain ⟨left, hleft, rfl⟩ := Option.map_eq_some_iff.mp hset
  obtain ⟨old, hold, hleft⟩ := Option.bind_eq_some_iff.mp hleft
  exact (h.narrow hold hleft).expanded now seq

theorem Manned.revoke (h : d.Manned) (o : HashOrder (UInt32 × UInt32)) (nodeId : UInt32)
    (now : UInt64) : (d.revoke o nodeId now).Manned := by
  refine ⟨Coordinator.relays_revoke h.relays o nodeId now, fun key set hset => ?_⟩
  rw [(paths_revoke o nodeId now).1,
    (PathService.erase_eq_iff.mp (d.paths.erase_withdrawNode o nodeId)).1,
    Std.ExtTreeMap.getElem?_filterMap'] at hset
  obtain ⟨old, hold, hpurged⟩ := Option.bind_eq_some_iff.mp hset
  rw [PathSet.purged] at hpurged
  split_ifs at hpurged
  have hnarrow : old.narrow [nodeId] = some set := by
    rw [PathSet.narrow_cons, hpurged]
    rfl
  refine ((h.sets key old hold).narrow hnarrow).mono fun r hr => ?_
  simp only [NetworkDomain.revoke]
  split_ifs
  · simpa [List.mem_filter] using hr
  · exact List.mem_of_mem_filter hr

theorem Manned.request (h : d.Manned) (source dest max : UInt32) (now : UInt64) :
    Manned { d with paths := (d.paths.request source dest max now).2 } := by
  refine ⟨(d.paths.relays_request source dest max now).trans h.relays, ?_⟩
  cases hlive : (d.paths.map[(source, dest)]?).any fun set => !set.expired now with
  | true =>
    obtain ⟨set, hset, hexpired⟩ := (Option.any_eq_true _ _).mp hlive
    have hmap : (d.paths.request source dest max now).2.map = d.paths.map := by
      rw [PathService.request_of_live hset (by simpa using hexpired)]
      obtain ⟨p, hp⟩ := d.paths.pushAll_eq
        (source :: dest :: usableRelays d.paths.relays source dest) (.update source dest set)
      dsimp only [PathService.pushToParticipants]
      rw [hp]
    intro key set hset
    exact h.sets key set (hmap ▸ hset)
  | false =>
    rw [PathService.request_of_expired hlive]
    obtain ⟨hformed, -⟩ := d.paths.freshSet_spec source dest max now
    refine PathService.shapes_insert h.sets ⟨hformed, fun c hc r hr => ?_⟩ rfl
    change r = dest ∨ r ∈ d.roster
    rw [← h.relays]
    have hoffered : c.Offered (usableRelays d.paths.relays source dest) dest := by
      rcases PathService.mem_requestRelays hc with hc | hc
      · rw [List.mem_singleton.mp hc]
        exact .inl rfl
      · exact hc
    exact @PathSet.hop_of_offered (source, dest) c d.paths.relays r hoffered hr

/-- Every candidate over a dropped relay is removed by the roster, and no other one. -/
def LosesDropped (d : NetworkDomain) (o : HashOrder (UInt32 × UInt32)) (roster : List UInt32)
    (now : UInt64) : Prop :=
  ∀ key, ∀ c ∈ d.paths.candidatesOf key,
    c ∉ (d.applyRelayRoster o roster now).2.paths.candidatesOf key ↔
      ∃ n ∈ d.dropped roster, c.relayedBy key.2 n = true

theorem candidatesOf_applyRelayRoster (o : HashOrder (UInt32 × UInt32)) (now : UInt64)
    {set : PathSet}
    (hset : d.paths.map[key]? = some set) :
    (set.narrow (d.dropped roster) = none ∧
        (d.applyRelayRoster o roster now).2.paths.candidatesOf key = []) ∨
      ∃ left seq, set.narrow (d.dropped roster) = some left ∧
        (d.applyRelayRoster o roster now).2.paths.candidatesOf key =
          (left.expanded roster now key seq).1.candidates := by
  obtain ⟨seq, heq⟩ := d.getElem?_applyRelayRoster o roster now key
  rw [hset, Option.bind_some] at heq
  cases hleft : set.narrow (d.dropped roster) with
  | none =>
    rw [hleft] at heq
    exact .inl ⟨rfl, by rw [PathService.candidatesOf, heq]; rfl⟩
  | some left =>
    rw [hleft] at heq
    exact .inr ⟨left, seq, rfl, by rw [PathService.candidatesOf, heq]; rfl⟩

theorem exists_of_mem_candidatesOf {c : PathCandidate} (hc : c ∈ d.paths.candidatesOf key) :
    ∃ set, d.paths.map[key]? = some set ∧ c ∈ set.candidates := by
  rw [PathService.candidatesOf] at hc
  cases hset : d.paths.map[key]? with
  | none =>
    rw [hset] at hc
    nomatch hc
  | some set =>
    rw [hset] at hc
    exact ⟨set, rfl, hc⟩

theorem notMem_dropped {r : UInt32} (hr : r ∈ roster) : r ∉ d.dropped roster := by
  intro hdropped
  simpa [hr] using (List.mem_filter.mp hdropped).2

theorem Manned.dest_notMem_dropped (h : d.Manned) {set left : PathSet}
    (hset : d.paths.map[key]? = some set) (hleft : set.narrow (d.dropped roster) = some left) :
    key.2 ∉ d.dropped roster := by
  obtain ⟨c, hc, hhops⟩ := (h.narrow hset hleft).formed.direct
  rw [(PathSet.narrow_eq_some hleft).1, PathSet.mem_avoiding] at hc
  exact hc.2 key.2 (by rw [hhops]; exact List.mem_cons_self)

theorem Manned.mem_applyRelayRoster (h : d.Manned) (o : HashOrder (UInt32 × UInt32))
    (roster : List UInt32) (now : UInt64) {c : PathCandidate} (hc : c ∈ d.paths.candidatesOf key) :
    c ∈ (d.applyRelayRoster o roster now).2.paths.candidatesOf key ↔
      ∀ r ∈ c.hops, r ∉ d.dropped roster := by
  obtain ⟨set, hset, hc⟩ := exists_of_mem_candidatesOf hc
  have havoid := (set.narrow_spec (d.dropped roster)).1
  rcases candidatesOf_applyRelayRoster o now hset with ⟨hleft, heq⟩ |
    ⟨left, seq, hleft, heq⟩
  · rw [heq]
    refine ⟨fun hin => absurd hin List.not_mem_nil, fun hhops => ?_⟩
    rw [hleft] at havoid
    have hin : c ∈ PathSet.avoiding (d.dropped roster) set.candidates :=
      PathSet.mem_avoiding.mpr ⟨hc, hhops⟩
    rwa [← havoid] at hin
  · rw [heq]
    have hmanned : left.Manned roster key := h.narrow hset hleft
    refine ⟨fun hin r hr => ?_, fun hhops => ?_⟩
    · rcases (hmanned.expanded now seq).relays c hin r hr with rfl | hroster
      · exact h.dest_notMem_dropped hset hleft
      · exact notMem_dropped hroster
    · refine hmanned.mem_expanded ?_ now seq
      rw [(PathSet.narrow_eq_some hleft).1]
      exact PathSet.mem_avoiding.mpr ⟨hc, hhops⟩

theorem Manned.losesDropped_iff (h : d.Manned) (o : HashOrder (UInt32 × UInt32))
    (roster : List UInt32) (now : UInt64) : d.LosesDropped o roster now ↔
      ∀ source : UInt32, ∀ n ∈ d.dropped roster, d.paths.map[(source, n)]? = none := by
  constructor
  · intro hloses source n hn
    by_contra hsome
    obtain ⟨set, hset⟩ := Option.ne_none_iff_exists'.mp hsome
    obtain ⟨c, hc, hhops⟩ := (h.sets _ set hset).formed.direct
    have hin : c ∈ d.paths.candidatesOf (source, n) := by
      rw [PathService.candidatesOf, hset]
      exact hc
    have hgone : c ∉ (d.applyRelayRoster o roster now).2.paths.candidatesOf (source, n) := by
      rw [h.mem_applyRelayRoster o roster now hin, hhops]
      exact fun hout => hout n List.mem_cons_self hn
    obtain ⟨r, -, hr⟩ := (hloses _ c hin).mp hgone
    simp [PathCandidate.relayedBy, hhops] at hr
  · intro hnone key c hc
    rw [h.mem_applyRelayRoster o roster now hc, not_forall₂]
    constructor
    · rintro ⟨r, hr, hdropped⟩
      rw [not_not] at hdropped
      refine ⟨r, hdropped, ?_⟩
      have hdest : r ≠ key.2 := by
        rintro rfl
        obtain ⟨set, hset, -⟩ := exists_of_mem_candidatesOf hc
        nomatch hset.symm.trans (hnone key.1 key.2 hdropped)
      simp [PathCandidate.relayedBy, hr, hdest]
    · rintro ⟨r, hdropped, hr⟩
      rw [PathCandidate.relayedBy, Bool.and_eq_true, List.contains_iff_mem] at hr
      exact ⟨r, hr.1, not_not.mpr hdropped⟩

end NetworkDomain

/-- The withdrawal of a relay removes the candidates over it, and no other one. -/
def PathService.LosesRelay (s : PathService) (o : HashOrder (UInt32 × UInt32)) (node : UInt32) :
    Prop :=
  ∀ key, (s.withdrawRelay o node).candidatesOf key =
    (s.candidatesOf key).filter fun c => !c.relayedBy key.2 node

theorem PathService.losesRelay_iff (s : PathService) (o : HashOrder (UInt32 × UInt32))
    (node : UInt32) : s.LosesRelay o node ↔
      ∀ source, ∀ c ∈ s.candidatesOf (source, node), node ∉ c.hops := by
  constructor
  · intro h source c hc hhop
    have hkept : c ∈ (s.candidatesOf (source, node)).filter fun c => !c.relayedBy node node :=
      List.mem_filter.mpr ⟨hc, by simp [PathCandidate.relayedBy]⟩
    rw [← h (source, node), s.candidatesOf_withdrawRelay, PathSet.mem_avoiding] at hkept
    exact hkept.2 node hhop List.mem_cons_self
  · intro h key
    rw [s.candidatesOf_withdrawRelay, PathSet.avoiding_singleton]
    refine List.filter_congr fun c hc => congrArg not ?_
    rw [PathCandidate.relayedBy]
    by_cases hkey : node = key.2
    · subst hkey
      simpa using h key.1 c hc
    · simp [hkey]

namespace Coordinator
variable {c c' : Coordinator} {L : Crates} {o : IterOrder} {op : CoordOp} {d d' : NetworkDomain}

def Manned (c : Coordinator) : Prop := ∀ d ∈ c.domains, d.Manned

theorem manned_fresh (config : MachineConfig) : (freshCoordinator config).Manned := by
  rw [Manned, freshCoordinator_eq]
  exact List.forall_mem_map.mpr fun _ _ => ⟨rfl, PathService.shapes_empty⟩

theorem perform_manned {a : IterOrder × CoordOp} (hc : c.Manned)
    (h : c.perform L a = some c') : c'.Manned := by
  obtain ⟨o, op⟩ := a
  refine perform_forall h hc fun d _ d' hd hevolves => ?_
  cases hevolves with
  | keep hkeep =>
    refine ⟨?_, ?_⟩
    · rw [hkeep.paths, hkeep.roster, hd.relays]
    · rw [hkeep.paths, hkeep.roster]
      exact hd.sets
  | admits _ _ => exact ⟨hd.relays, hd.sets⟩
  | @revoke nodeId now =>
    exact NetworkDomain.Manned.revoke (d := d.flushRevokeRotation now) ⟨hd.relays, hd.sets⟩ _ _ _
  | request _ _ => exact hd.request _ _ _ _
  | relays => exact hd.applyRelayRoster _ _ _
  | take _ => exact ⟨hd.relays, hd.sets⟩
  | sync _ => exact ⟨hd.relays, hd.sets⟩

theorem manned_of_run {config : MachineConfig} {acts : List (IterOrder × CoordOp)}
    (h : Transition.run (perform L) (freshCoordinator config) acts = some c) : c.Manned :=
  Transition.reachable (fun _ _ _ => perform_manned) (manned_fresh config) h

end Coordinator

/-- A relay that is withdrawn, or dropped from the roster, leaves with the candidates over it and
with no other one exactly if there are no paths to it. -/
theorem relay_loss_iff (L : Crates) :
    (∀ (s : PathService) (o : HashOrder (UInt32 × UInt32)) (node : UInt32),
      s.LosesRelay o node ↔ ∀ source, ∀ c ∈ s.candidatesOf (source, node), node ∉ c.hops) ∧
    ∀ (config : MachineConfig) (acts : List (IterOrder × CoordOp)) (c : Coordinator),
      Transition.run (Coordinator.perform L) (freshCoordinator config) acts = some c →
      ∀ d ∈ c.domains, ∀ (o : HashOrder (UInt32 × UInt32)) (roster : List UInt32) (now : UInt64),
        d.LosesDropped o roster now ↔
          ∀ source : UInt32, ∀ n ∈ d.dropped roster, d.paths.map[(source, n)]? = none := by
  refine ⟨fun s o node => s.losesRelay_iff o node, fun config acts c hrun d hd o roster now => ?_⟩
  exact (Coordinator.manned_of_run hrun d hd).losesDropped_iff o roster now

section Lab

/-- Three nodes register, node 3 becomes a relay, and node 1 asks for paths to a node. -/
def labPaths (dest : UInt32) : List (IterOrder × CoordOp) :=
  labRegistrations ++ [labCommand 4 (.setRelayRoster (networkIdFor (ascii "lab")) [3] 150),
    labCommand 5 (.requestPaths 1 dest 4 160)]

theorem lab_relay_loss :
    ∃ c, Transition.run (Coordinator.perform clearCrates) (freshCoordinator labConfig.machineConfig)
        (labPaths 2) = some c ∧
      ∃ d ∈ c.domains, d.dropped [] = [3] ∧ d.LosesDropped .ascending [] 200 := by
  have hcheck : (Transition.run (Coordinator.perform clearCrates)
      (freshCoordinator labConfig.machineConfig) (labPaths 2)).any (fun c =>
        ∃ d ∈ c.domains, d.dropped [] = [3] ∧ d.paths.map.keys = [(1, 2)]) = true := by
    decide +kernel
  obtain ⟨c, hc, hcheck⟩ := (Option.any_eq_true _ _).mp hcheck
  obtain ⟨d, hd, hdropped, hkeys⟩ := of_decide_eq_true hcheck
  refine ⟨c, hc, d, hd, hdropped, ((relay_loss_iff clearCrates).2 labConfig.machineConfig
    (labPaths 2) c hc d hd .ascending [] 200).mpr fun source n hn => ?_⟩
  rw [hdropped, List.mem_singleton] at hn
  subst hn
  by_contra hsome
  have hmem : (source, 3) ∈ d.paths.map.keys :=
    (HashOrder.mem_keys (o := HashOrder.ascending)).mpr (Option.isSome_iff_ne_none.mpr hsome)
  rw [hkeys, List.mem_singleton] at hmem
  nomatch (Prod.mk.inj hmem).2

/-- Node 3 is no longer a relay, and the direct path to it is gone. -/
theorem lab_direct_path_lost :
    ∃ c, Transition.run (Coordinator.perform clearCrates) (freshCoordinator labConfig.machineConfig)
        (labPaths 3) = some c ∧
      ∃ d ∈ c.domains, (d.paths.candidatesOf (1, 3)).map PathCandidate.hops = [[3]] ∧
        (d.applyRelayRoster .ascending [] 200).2.paths.candidatesOf (1, 3) = [] := by
  have hcheck : (Transition.run (Coordinator.perform clearCrates)
      (freshCoordinator labConfig.machineConfig) (labPaths 3)).any (fun c =>
        ∃ d ∈ c.domains, (d.paths.candidatesOf (1, 3)).map PathCandidate.hops = [[3]] ∧
          (d.applyRelayRoster .ascending [] 200).2.paths.candidatesOf (1, 3) = []) = true := by
    decide +kernel
  obtain ⟨c, hc, hcheck⟩ := (Option.any_eq_true _ _).mp hcheck
  exact ⟨c, hc, of_decide_eq_true hcheck⟩

end Lab

/-! ## The same roster again -/

namespace PathSet
variable {set : PathSet} {key : UInt32 × UInt32} {roster : List UInt32} {now : UInt64}

def missing (relays : List UInt32) (candidates : List PathCandidate) : List UInt32 :=
  relays.filter fun r => !startsWith candidates r

/-- The budget of the set has room for each relay that has no candidate. -/
def Room (set : PathSet) (relays : List UInt32) : Prop :=
  set.candidates.length + (missing relays set.candidates).dedup.length ≤ (clampMax set.max).toNat

instance (set : PathSet) (relays : List UInt32) : Decidable (set.Room relays) :=
  inferInstanceAs (Decidable (_ ≤ _))

theorem startsWith_append (cs cs' : List PathCandidate) (r : UInt32) :
    startsWith (cs ++ cs') r = (startsWith cs r || startsWith cs' r) := List.any_append

theorem startsWith_viaRelay (pathId : UInt64) (relay dest : UInt32) (expiresAt : UInt64)
    (r : UInt32) : startsWith [.viaRelay pathId relay dest expiresAt] r = (relay == r) := by
  simp [startsWith, PathCandidate.viaRelay]

theorem missing_eq_nil_iff {relays : List UInt32} {candidates : List PathCandidate} :
    missing relays candidates = [] ↔ ∀ r ∈ relays, startsWith candidates r = true := by
  simp [missing, List.filter_eq_nil_iff]

theorem length_missing_cons {relay : UInt32} {relays : List UInt32}
    {candidates : List PathCandidate} (hrelay : startsWith candidates relay = false)
    (pathId : UInt64) (dest : UInt32) (expiresAt : UInt64) :
    (missing (relay :: relays) candidates).dedup.length = (missing relays
      (candidates ++ [.viaRelay pathId relay dest expiresAt])).dedup.length + 1 := by
  have herase : (missing relays (candidates ++ [.viaRelay pathId relay dest expiresAt])).toFinset =
      (missing (relay :: relays) candidates).toFinset.erase relay := by
    ext r
    simp only [missing, List.mem_toFinset, List.mem_filter, startsWith_append, startsWith_viaRelay,
      Finset.mem_erase, List.mem_cons, Bool.not_or, Bool.and_eq_true, Bool.not_eq_true',
      beq_eq_false_iff_ne]
    constructor
    · rintro ⟨hr, hout, hne⟩
      exact ⟨hne.symm, .inr hr, hout⟩
    · rintro ⟨hne, hr, hout⟩
      exact ⟨hr.resolve_left hne, hout, hne.symm⟩
  have hmem : relay ∈ (missing (relay :: relays) candidates).toFinset := by
    simp [missing, hrelay]
  rw [← List.card_toFinset, ← List.card_toFinset, herase, Finset.card_erase_add_one hmem]

/-- After a fill every relay has a candidate if and only if there was room for the missing ones. -/
theorem startsWith_fillRelays_iff (dest : UInt32) (expiresAt : UInt64) {budget : ℕ}
    {relays : List UInt32} {candidates : List PathCandidate} (seq : UInt64)
    (hbudget : candidates.length ≤ budget) :
    (∀ r ∈ relays,
        startsWith (fillRelays dest expiresAt budget relays candidates seq).1 r = true) ↔
      candidates.length + (missing relays candidates).dedup.length ≤ budget := by
  induction relays generalizing candidates seq with
  | nil => simpa [missing] using hbudget
  | cons relay relays ih =>
    rw [fillRelays]
    split_ifs with hfull hstarts
    · rw [← missing_eq_nil_iff]
      constructor
      · intro hnil
        rw [hnil]
        exact hbudget
      · intro hle
        have hzero : (missing (relay :: relays) candidates).dedup.length = 0 := by omega
        rwa [List.length_eq_zero_iff, List.dedup_eq_nil] at hzero
    · have hmissing : missing (relay :: relays) candidates = missing relays candidates :=
        List.filter_cons_of_neg (by simp [hstarts])
      rw [hmissing, ← ih seq hbudget, List.forall_mem_cons]
      refine and_iff_right ?_
      obtain ⟨tail, hfill, -⟩ := fillRelays_append dest expiresAt budget relays candidates seq
      rw [hfill, startsWith_append, hstarts, Bool.true_or]
    · have hlen : (candidates ++
          [PathCandidate.viaRelay (seq + 1) relay dest expiresAt]).length ≤ budget := by
        rw [List.length_append, List.length_singleton]
        omega
      rw [length_missing_cons (Bool.not_eq_true _ ▸ hstarts) (seq + 1) dest expiresAt,
        List.forall_mem_cons]
      have hrest := ih (seq + 1) hlen
      rw [List.length_append, List.length_singleton] at hrest
      have hself : startsWith (fillRelays dest expiresAt budget relays
          (candidates ++ [.viaRelay (seq + 1) relay dest expiresAt]) (seq + 1)).1 relay = true := by
        obtain ⟨tail, hfill, -⟩ := fillRelays_append dest expiresAt budget relays
          (candidates ++ [.viaRelay (seq + 1) relay dest expiresAt]) (seq + 1)
        rw [hfill, startsWith_append, startsWith_append, startsWith_viaRelay]
        simp
      rw [and_iff_right hself, hrest]
      omega

theorem startsWith_perm {cs cs' : List PathCandidate} (h : cs.Perm cs') (r : UInt32) :
    startsWith cs r = startsWith cs' r := h.any_eq

theorem settled_iff_of_live {relays : List UInt32} (hlive : set.expired now = false) :
    set.settled relays now = true ↔ ∀ r ∈ relays, startsWith set.candidates r = true := by
  simp [settled, hlive]

theorem expired_eq_false_iff : set.expired now = false ↔
    ∃ c ∈ set.candidates, (c.expiresAt != 0 && now > c.expiresAt) = false := by
  rw [expired, Bool.or_eq_false_iff, List.all_eq_false]
  constructor
  · rintro ⟨-, c, hc, hlive⟩
    exact ⟨c, hc, by simpa using hlive⟩
  · rintro ⟨c, hc, hlive⟩
    exact ⟨List.isEmpty_eq_false_iff.mpr (List.ne_nil_of_mem hc), c, hc, by simpa using hlive⟩

/-- What an expansion has left alone or rebuilt is left alone by the next one, if the set has
expired or has room. -/
theorem Manned.settled_expanded_iff (h : set.Manned roster key) (now seq : UInt64) :
    (set.expanded roster now key seq).1.settled (usableRelays roster key.1 key.2) now = true ↔
      set.expired now = true ∨ set.Room (usableRelays roster key.1 key.2) := by
  cases hlive : set.expired now with
  | true =>
    have hsettled : set.settled (usableRelays roster key.1 key.2) now = true := by
      rw [settled, hlive, Bool.true_or]
    simp only [PathSet.expanded, hsettled, if_true, true_or]
  | false =>
    rw [or_iff_right Bool.false_ne_true, Room]
    cases hsettled : set.settled (usableRelays roster key.1 key.2) now with
    | true =>
      have hnil := missing_eq_nil_iff.mpr ((settled_iff_of_live hlive).mp hsettled)
      have hbudget := h.formed.budget
      simpa only [PathSet.expanded, hsettled, if_true, true_iff, hnil, List.dedup_nil,
        List.length_nil, add_zero] using hbudget
    | false =>
      have hstill : (set.expanded roster now key seq).1.expired now = false := by
        obtain ⟨c, hc, hc'⟩ := expired_eq_false_iff.mp hlive
        exact expired_eq_false_iff.mpr ⟨c, h.mem_expanded hc now seq, hc'⟩
      have hperm := h.kept_perm
      have hmissing : missing (usableRelays roster key.1 key.2)
          (set.keptDirect ++ set.keptRelayed (usableRelays roster key.1 key.2)) =
            missing (usableRelays roster key.1 key.2) set.candidates :=
        List.filter_congr fun r _ => congrArg not (startsWith_perm hperm r)
      rw [settled_iff_of_live hstill, ← hperm.length_eq, ← hmissing]
      simp only [PathSet.expanded, hsettled, Bool.false_eq_true, if_false, h.rebuilt_candidates]
      exact startsWith_fillRelays_iff _ _ seq (hperm.length_eq ▸ h.formed.budget)

end PathSet

theorem PathService.expandRelayCandidates_eq_self_iff (s : PathService)
    (o : HashOrder (UInt32 × UInt32)) (now : UInt64) : s.expandRelayCandidates o now = s ↔
      s.Shapes fun key set => set.settled (usableRelays s.relays key.1 key.2) now = true := by
  constructor
  · intro heq key set hset
    obtain ⟨seq, hexpand⟩ := s.getElem?_expand o now key
    rw [heq, hset] at hexpand
    by_contra hlive
    have hversion := congrArg PathSet.version (Option.some.inj hexpand)
    simp only [PathSet.expanded, hlive, if_false, PathSet.rebuilt] at hversion
    exact absurd (left_eq_add.mp hversion) (by decide)
  · intro hsettled
    have hkeys : ∀ keys : List (UInt32 × UInt32),
        keys.foldl (fun s key => s.expandSet now key) s = s := by
      intro keys
      induction keys with
      | nil => rfl
      | cons key keys ih =>
        have hself : s.expandSet now key = s := by
          rw [expandSet]
          cases hset : s.map[key]? with
          | none => rfl
          | some set => exact if_pos (hsettled key set hset)
        rw [List.foldl_cons, hself, ih]
    exact hkeys _

namespace NetworkDomain
variable {d : NetworkDomain}

/-- A second application of the roster changes no path set, draws no path id and queues no event. -/
def SettlesRoster (d : NetworkDomain) (o o' : HashOrder (UInt32 × UInt32)) (roster : List UInt32)
    (now : UInt64) : Prop :=
  let d' := (d.applyRelayRoster o roster now).2
  (d'.applyRelayRoster o' roster now).2.paths = d'.paths

/-- The path set without the candidates that a roster takes from it. -/
def left (d : NetworkDomain) (roster : List UInt32) (set : PathSet) : PathSet :=
  { set with candidates := PathSet.avoiding (d.dropped roster) set.candidates }

/-- The second application drops no relay and finds the relays in place. -/
theorem paths_reapplied (d : NetworkDomain) (o o' : HashOrder (UInt32 × UInt32))
    (roster : List UInt32) (now : UInt64) :
    ((d.applyRelayRoster o roster now).2.applyRelayRoster o' roster now).2.paths =
      (d.applyRelayRoster o roster now).2.paths.expandRelayCandidates o' now := by
  have hrelays := Coordinator.relays_applyRelayRoster d o roster now
  have hroster : (d.applyRelayRoster o roster now).2.roster = roster := rfl
  generalize (d.applyRelayRoster o roster now).2 = d' at hrelays hroster
  have hdropped : d'.dropped roster = [] := by
    rw [dropped, hroster]
    simp
  have hplace : d'.paths.setRelays roster = d'.paths := by
    rw [← hrelays]
    rfl
  rw [applyRelayRoster, hdropped]
  exact congrArg (fun s : PathService => s.expandRelayCandidates o' now) hplace

theorem Manned.settled_applyRelayRoster_iff (h : d.Manned) (o : HashOrder (UInt32 × UInt32))
    (roster : List UInt32) (now : UInt64) {key : UInt32 × UInt32} {set : PathSet}
    (hset : d.paths.map[key]? = some set) :
    (∀ set', (d.applyRelayRoster o roster now).2.paths.map[key]? = some set' →
        set'.settled (usableRelays roster key.1 key.2) now = true) ↔
      (d.left roster set).expired now = true ∨
        (d.left roster set).Room (usableRelays roster key.1 key.2) := by
  obtain ⟨seq, heq⟩ := d.getElem?_applyRelayRoster o roster now key
  rw [hset, Option.bind_some] at heq
  rw [heq]
  cases hleft : set.narrow (d.dropped roster) with
  | none =>
    have havoid := (set.narrow_spec (d.dropped roster)).1
    rw [hleft] at havoid
    have hexpired : (d.left roster set).expired now = true := by
      rw [PathSet.expired, NetworkDomain.left, ← havoid]
      rfl
    simp [hexpired]
  | some left =>
    obtain ⟨hcandidates, hmax⟩ := PathSet.narrow_eq_some hleft
    have hmanned : left.Manned roster key := h.narrow hset hleft
    have hsame : (d.left roster set).expired now = left.expired now := by
      rw [PathSet.expired, PathSet.expired, hcandidates]
      rfl
    have hroom : (d.left roster set).Room (usableRelays roster key.1 key.2) ↔
        left.Room (usableRelays roster key.1 key.2) := by
      rw [PathSet.Room, PathSet.Room, hcandidates, hmax]
      rfl
    rw [hsame, hroom, ← hmanned.settled_expanded_iff now seq]
    simp

theorem Manned.settlesRoster_iff (h : d.Manned) (o o' : HashOrder (UInt32 × UInt32))
    (roster : List UInt32) (now : UInt64) : d.SettlesRoster o o' roster now ↔
      d.paths.Shapes fun key set => (d.left roster set).expired now = true ∨
        (d.left roster set).Room (usableRelays roster key.1 key.2) := by
  rw [SettlesRoster, paths_reapplied, PathService.expandRelayCandidates_eq_self_iff,
    Coordinator.relays_applyRelayRoster]
  constructor
  · intro hall key set hin
    exact (h.settled_applyRelayRoster_iff o roster now hin).mp fun set' => hall key set'
  · intro hall key set' hin
    obtain ⟨seq, heq⟩ := d.getElem?_applyRelayRoster o roster now key
    cases hold : d.paths.map[key]? with
    | none =>
      rw [heq, hold] at hin
      nomatch hin
    | some set =>
      exact (h.settled_applyRelayRoster_iff o roster now hold).mpr (hall key set hold) set' hin

end NetworkDomain

/-- In every network of a coordinator, applying the same roster again at the same time changes
nothing if and only if each path set has expired, or has room in its budget for every usable relay
of the roster. -/
theorem roster_idempotent_iff (L : Crates) {config : MachineConfig}
    {acts : List (IterOrder × CoordOp)} {c : Coordinator}
    (hrun : Transition.run (Coordinator.perform L) (freshCoordinator config) acts = some c)
    {d : NetworkDomain} (hd : d ∈ c.domains) (o o' : HashOrder (UInt32 × UInt32))
    (roster : List UInt32) (now : UInt64) : d.SettlesRoster o o' roster now ↔
      d.paths.Shapes fun key set => (d.left roster set).expired now = true ∨
        (d.left roster set).Room (usableRelays roster key.1 key.2) :=
  (Coordinator.manned_of_run hrun d hd).settlesRoster_iff o o' roster now

section Lab

theorem lab_roster_idempotent :
    ∃ c, Transition.run (Coordinator.perform clearCrates) (freshCoordinator labConfig.machineConfig)
        (labPaths 2) = some c ∧
      ∃ d ∈ c.domains, d.SettlesRoster .ascending .descending [3] 200 := by
  have hcheck : (Transition.run (Coordinator.perform clearCrates)
      (freshCoordinator labConfig.machineConfig) (labPaths 2)).any (fun c =>
        ∃ d ∈ c.domains, ∀ e ∈ d.paths.map.toList,
          (d.left [3] e.2).Room (usableRelays [3] e.1.1 e.1.2)) = true := by
    decide +kernel
  obtain ⟨c, hc, hcheck⟩ := (Option.any_eq_true _ _).mp hcheck
  obtain ⟨d, hd, hroom⟩ := of_decide_eq_true hcheck
  refine ⟨c, hc, d, hd, (roster_idempotent_iff clearCrates hc hd .ascending .descending [3]
    200).mpr fun key set hset => ?_⟩
  exact .inr (hroom (key, set) (Std.ExtTreeMap.mem_toList_iff_getElem?_eq_some.mpr hset))

/-- Paths from 1 to 2 are asked for with two candidates, and there are two relays. Applying the
roster again raises the version of the set and sends it out, again and again. -/
theorem lab_roster_repeats :
    ∃ c, Transition.run (Coordinator.perform clearCrates) (freshCoordinator labConfig.machineConfig)
        (labRegistrations ++ [labCommand 4 (.register labKey (.replicate 32 4) 1 [] 100),
          labCommand 5 (.setRelayRoster (networkIdFor (ascii "lab")) [3, 4] 150),
          labCommand 6 (.requestPaths 1 2 2 160)]) = some c ∧
      ∃ d ∈ c.domains,
        let d' := (d.applyRelayRoster .ascending [3, 4] 200).2
        let d'' := (d'.applyRelayRoster .ascending [3, 4] 200).2
        d'.paths.map[((1 : UInt32), (2 : UInt32))]?.map PathSet.version = some 2 ∧
          d''.paths.map[((1 : UInt32), (2 : UInt32))]?.map PathSet.version = some 3 ∧
          (d''.paths.queue 1).length = (d'.paths.queue 1).length + 1 := by
  have hcheck : (Transition.run (Coordinator.perform clearCrates)
      (freshCoordinator labConfig.machineConfig)
        (labRegistrations ++ [labCommand 4 (.register labKey (.replicate 32 4) 1 [] 100),
          labCommand 5 (.setRelayRoster (networkIdFor (ascii "lab")) [3, 4] 150),
          labCommand 6 (.requestPaths 1 2 2 160)])).any (fun c => ∃ d ∈ c.domains,
        let d' := (d.applyRelayRoster .ascending [3, 4] 200).2
        let d'' := (d'.applyRelayRoster .ascending [3, 4] 200).2
        d'.paths.map[((1 : UInt32), (2 : UInt32))]?.map PathSet.version = some 2 ∧
          d''.paths.map[((1 : UInt32), (2 : UInt32))]?.map PathSet.version = some 3 ∧
          (d''.paths.queue 1).length = (d'.paths.queue 1).length + 1) = true := by
    decide +kernel
  obtain ⟨c, hc, hcheck⟩ := (Option.any_eq_true _ _).mp hcheck
  exact ⟨c, hc, of_decide_eq_true hcheck⟩

end Lab

end Rill
