import Rill.PathEffects

/-!
# The nodes a path service names

The relays of a path service are node ids, and so are the ends and the hops of its path sets. Each
operation stays within any nodes that contain those it is given and those the service has, and so do
the updates it posts; a withdrawn node is gone from all of them afterwards.
-/

namespace Rill

/-- The nodes an update names: the ends of its path set and the hops of its candidates. -/
def PathEvent.Names (ok : UInt32 → Prop) : PathEvent → Prop
  | .update source dest set => ok source ∧ ok dest ∧ ∀ c ∈ set.candidates, ∀ hop ∈ c.hops, ok hop
  | .withdraw _ _ => True

namespace PathService
variable {s s' : PathService}

/-- Relays and path sets name these nodes only. -/
structure Within (ok : UInt32 → Prop) (s : PathService) : Prop where
  relays : ∀ r ∈ s.relays, ok r
  sets : ∀ (key : UInt32 × UInt32) (set : PathSet), s.map[key]? = some set →
    (PathEvent.update key.1 key.2 set).Names ok

variable {ok : UInt32 → Prop}

/-- An update among these nodes, to one of them. -/
def Among (ok : UInt32 → Prop) (node : UInt32) (key : UInt32 × UInt32) (set : PathSet) : Prop :=
  ok node ∧ (PathEvent.update key.1 key.2 set).Names ok

/-- What the queues hold after an operation: what they held or, for a node that took its events,
nothing of it, and then new events, with updates among these nodes only. -/
def Adds (ok : UInt32 → Prop) (s s' : PathService) : Prop :=
  ∀ m, ∃ old new, s'.queue m = old ++ new ∧ (old = s.queue m ∨ old = []) ∧
    ∀ event ∈ new, event.isUpdate = true → ok m ∧ event.Names ok

theorem Sends.adds (h : s.Sends (Among ok) s') : s.Adds ok s' := by
  obtain ⟨posts, hpending, hposts⟩ := h
  intro m
  have hqueue : s'.queue m = (s.post posts).queue m := by rw [queue, queue, hpending]
  refine ⟨s.queue m, _, hqueue.trans (s.queue_post posts m), Or.inl rfl,
    fun event hevent hupdate => ?_⟩
  have hnew := hposts (m, event) (mem_addressed.mp (List.mem_of_mem_take hevent))
  cases event with
  | withdraw dest pathId => cases hupdate
  | update source dest set => exact hnew source dest set rfl

theorem adds_takeEvents (ok : UInt32 → Prop) (s : PathService) (source : UInt32) :
    s.Adds ok (s.takeEvents source).2 := by
  intro m
  rw [queue_takeEvents]
  split_ifs
  · exact ⟨[], [], rfl, Or.inr rfl, fun _ h => nomatch h⟩
  · exact ⟨s.queue m, [], (List.append_nil _).symm, Or.inl rfl, fun _ h => nomatch h⟩

/-! ## Each operation -/

theorem names_of_offered (key : UInt32 × UInt32) {c : PathCandidate} (hs : s.Within ok)
    (hdest : ok key.2) (hc : c.Offered (usableRelays s.relays key.1 key.2) key.2) :
    ∀ hop ∈ c.hops, ok hop := by
  rcases hc with hc | ⟨r, hr, hc⟩
  · rw [hc]
    exact List.forall_mem_singleton.mpr hdest
  · rw [hc]
    refine List.forall_mem_cons.mpr ⟨hs.relays r (List.mem_filter.mp hr).1, ?_⟩
    exact List.forall_mem_singleton.mpr hdest

theorem ok_of_told (key : UInt32 × UInt32) {m : UInt32} (hs : s.Within ok) (hsource : ok key.1)
    (hdest : ok key.2) (hm : m = key.1 ∨ m = key.2 ∨ m ∈ usableRelays s.relays key.1 key.2) :
    ok m := by
  rcases hm with rfl | rfl | hm
  · exact hsource
  · exact hdest
  · exact hs.relays m (List.mem_filter.mp hm).1

theorem request_yields {source dest max : UInt32} {now : UInt64} (hs : s.Within ok)
    (hsource : ok source) (hdest : ok dest) :
    (s.request source dest max now).2.Within ok ∧
      s.Sends (Among ok) (s.request source dest max now).2 := by
  have hnew : ∀ set : PathSet, (∀ c ∈ set.candidates,
      c.Offered (usableRelays s.relays source dest) dest) →
        (PathEvent.update source dest set).Names ok := fun set hset =>
    ⟨hsource, hdest, fun c hc => names_of_offered (source, dest) hs hdest (hset c hc)⟩
  have h := request_sends (U := Among ok) max now hs.sets hnew fun set node hT hnode =>
    ⟨ok_of_told (source, dest) hs hsource hdest hnode, hT⟩
  refine ⟨⟨?_, h.1⟩, h.2⟩
  rw [relays_request]
  exact hs.relays

theorem expandRelayCandidates_yields (o : HashOrder (UInt32 × UInt32)) (now : UInt64)
    (hs : s.Within ok) :
    (s.expandRelayCandidates o now).Within ok ∧
      s.Sends (Among ok) (s.expandRelayCandidates o now) := by
  have h := expandRelayCandidates_sends (U := Among ok) o now hs.sets
    (fun key old set hold hset => ⟨hold.1, hold.2.1, fun c hc =>
      (hset c hc).elim (hold.2.2 c) (names_of_offered key hs hold.2.1)⟩)
    fun key set node hT hnode => ⟨ok_of_told key hs hT.1 hT.2.1 hnode, hT⟩
  refine ⟨⟨?_, h.1⟩, h.2⟩
  rw [relays_expandRelayCandidates]
  exact hs.relays

theorem names_without {key : UInt32 × UInt32} {set : PathSet} (node : UInt32)
    (h : (PathEvent.update key.1 key.2 set).Names ok) :
    (PathEvent.update key.1 key.2 (set.without node)).Names ok :=
  ⟨h.1, h.2.1, fun c hc => h.2.2 c (List.mem_filter.mp hc).1⟩

theorem ok_of_sharer {key : UInt32 × UInt32} {set : PathSet} {m : UInt32}
    (h : (PathEvent.update key.1 key.2 set).Names ok)
    (hm : m = key.1 ∨ m = key.2 ∨ ∃ c ∈ set.candidates, m ∈ c.hops) : ok m := by
  rcases hm with rfl | rfl | ⟨c, hc, hhop⟩
  · exact h.1
  · exact h.2.1
  · exact h.2.2 c hc m hhop

theorem withdrawRelay_yields (o : HashOrder (UInt32 × UInt32)) (node : UInt32) (hs : s.Within ok) :
    (s.withdrawRelay o node).Within ok ∧ s.Sends (Among ok) (s.withdrawRelay o node) := by
  have h := withdrawRelay_sends (U := Among ok) o node hs.sets (fun _ _ => names_without node)
    fun key set m hT hm => ⟨ok_of_sharer hT hm, hT⟩
  refine ⟨⟨?_, h.1⟩, h.2⟩
  rw [relays_withdrawRelay]
  exact hs.relays

theorem names_purged {key : UInt32 × UInt32} {node : UInt32} {set set' : PathSet}
    (h : (PathEvent.update key.1 key.2 set).Names ok) (hset : set.purged node key = some set') :
    (PathEvent.update key.1 key.2 set').Names fun id => ok id ∧ id ≠ node := by
  rw [PathSet.purged] at hset
  split_ifs at hset with hends
  rw [Bool.or_eq_true, beq_iff_eq, beq_iff_eq, not_or] at hends
  refine ⟨⟨h.1, hends.1⟩, ⟨h.2.1, hends.2⟩, fun c hc hop hhop => ?_⟩
  have hmem : c ∈ set.candidates ∧ c.hops.contains node = false := by
    rw [PathSet.trimmed] at hset
    split_ifs at hset with huses
    · dsimp only at hset
      split_ifs at hset
      cases hset
      simpa using List.mem_filter.mp hc
    · cases hset
      rw [PathSet.uses, Bool.not_eq_true, List.any_eq_false] at huses
      exact ⟨hc, by simpa using huses c hc⟩
  refine ⟨h.2.2 c hmem.1 hop hhop, ?_⟩
  rintro rfl
  cases (List.contains_iff_mem.mpr hhop).symm.trans hmem.2

/-- A withdrawn node is left in no path set, and what its withdrawal posts does not name it. -/
theorem withdrawNode_yields (o : HashOrder (UInt32 × UInt32)) (node : UInt32) (hs : s.Within ok) :
    (∀ (key : UInt32 × UInt32) (set : PathSet), (s.withdrawNode o node).map[key]? = some set →
      (PathEvent.update key.1 key.2 set).Names fun id => ok id ∧ id ≠ node) ∧
      s.Sends (Among fun id => ok id ∧ id ≠ node) (s.withdrawNode o node) := by
  refine ⟨fun key set hset => ?_, (withdrawNode_sends o node hs.sets
    (fun _ _ => names_without node) fun key set m hT hsource hdest hm => ?_).2⟩
  · rw [(erase_eq_iff.mp (s.erase_withdrawNode o node)).1,
      Std.ExtTreeMap.getElem?_filterMap'] at hset
    obtain ⟨old, hold, hpurged⟩ := Option.bind_eq_some_iff.mp hset
    exact names_purged (hs.sets key old hold) hpurged
  · have hnames : (PathEvent.update key.1 key.2 (set.without node)).Names
        fun id => ok id ∧ id ≠ node := by
      refine ⟨⟨hT.1, hsource⟩, ⟨hT.2.1, hdest⟩, fun c hc hop hhop => ?_⟩
      obtain ⟨hc, hnot⟩ := List.mem_filter.mp hc
      refine ⟨hT.2.2 c hc hop hhop, ?_⟩
      rintro rfl
      rw [List.contains_iff_mem.mpr hhop] at hnot
      nomatch hnot
    exact ⟨ok_of_sharer hnames hm, hnames⟩

end PathService

end Rill
