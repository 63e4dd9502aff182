import Rill.PathExpansion

/-!
# What the path service does to its sets and queues

The events a path operation posts are listed by `post`; a queue takes them in order until it is
full. Every operation is made up of three: a set is published, taken back, or cut down. A property
of path sets that these keep is kept by all operations, and what the posted updates say follows from
it.
-/

namespace Rill

def PathEvent.isUpdate : PathEvent → Bool
  | .update _ _ _ => true
  | .withdraw _ _ => false

namespace PathCandidate

/-- The candidates a set can gain: the direct path, or one over a usable relay. -/
def Offered (relays : List UInt32) (dest : UInt32) (c : PathCandidate) : Prop :=
  c.hops = [dest] ∨ ∃ r ∈ relays, c.hops = [r, dest]

theorem Offered.cons {relays : List UInt32} {relay dest : UInt32} {c : PathCandidate}
    (h : c.Offered relays dest) : c.Offered (relay :: relays) dest :=
  h.imp id fun ⟨r, hr, hc⟩ => ⟨r, List.mem_cons_of_mem relay hr, hc⟩

theorem offered_viaRelay {relays : List UInt32} {relay dest : UInt32} {pathId expiresAt : UInt64} :
    (viaRelay pathId relay dest expiresAt).Offered (relay :: relays) dest :=
  Or.inr ⟨relay, List.mem_cons_self, rfl⟩

end PathCandidate

namespace PathSet

theorem mem_fillRelays {dest : UInt32} {expiresAt : UInt64} {budget : ℕ}
    {relays : List UInt32} {candidates : List PathCandidate} {seq : UInt64} {c : PathCandidate}
    (h : c ∈ (fillRelays dest expiresAt budget relays candidates seq).1) :
    c ∈ candidates ∨ c.Offered relays dest := by
  induction relays generalizing candidates seq with
  | nil => exact Or.inl h
  | cons relay relays ih =>
    rw [fillRelays] at h
    split_ifs at h
    · exact Or.inl h
    · exact (ih h).imp id PathCandidate.Offered.cons
    · rcases ih h with h | h
      · rcases List.mem_append.mp h with h | h
        · exact Or.inl h
        · rw [List.mem_singleton.mp h]
          exact Or.inr PathCandidate.offered_viaRelay
      · exact Or.inr h.cons

theorem mem_rebuilt {set : PathSet} {relays : List UInt32} {now : UInt64}
    {dest : UInt32} {seq : UInt64} {c : PathCandidate}
    (h : c ∈ (set.rebuilt relays now dest seq).1.candidates) :
    c ∈ set.candidates ∨ c.Offered relays dest := by
  rcases mem_fillRelays h with h | h
  · rcases List.mem_append.mp h with h | h
    · split_ifs at h
      · rw [List.mem_singleton.mp h]
        exact Or.inr (Or.inl rfl)
      · exact Or.inl (List.mem_filter.mp h).1
    · exact Or.inl (List.mem_filter.mp h).1
  · exact Or.inr h

/-- The candidates of a set over a node, and what is left without them. -/
def through (set : PathSet) (node : UInt32) : List PathCandidate :=
  set.candidates.filter fun c => c.hops.contains node

def without (set : PathSet) (node : UInt32) : PathSet :=
  { set with
    candidates := set.candidates.filter fun c => !c.hops.contains node
    version := set.version + 1 }

end PathSet

namespace PathService
variable {s s' : PathService}

def queue (s : PathService) (node : UInt32) : List PathEvent := (s.pending[node]?).getD []

def post (s : PathService) (posts : List (UInt32 × PathEvent)) : PathService :=
  posts.foldl (fun s p => s.pushEvent p.1 p.2) s

theorem post_append (s : PathService) (posts posts' : List (UInt32 × PathEvent)) :
    s.post (posts ++ posts') = (s.post posts).post posts' := List.foldl_append

theorem pushAll_eq_post (s : PathService) (nodes : List UInt32) (event : PathEvent) :
    s.pushAll nodes event = s.post (nodes.map fun node => (node, event)) := by
  rw [pushAll, post, List.foldl_map]

/-- The events of withdrawn candidates: each goes to the ends of the path and to its hops. -/
def withdrawals (source dest : UInt32) (withdrawn : List PathCandidate) :
    List (UInt32 × PathEvent) :=
  withdrawn.flatMap fun c =>
    (source :: dest :: c.hops).eraseDups.map fun node => (node, .withdraw dest c.pathId)

theorem pushWithdrawn_eq_post (s : PathService) (source dest : UInt32)
    (withdrawn : List PathCandidate) :
    s.pushWithdrawn source dest withdrawn = s.post (withdrawals source dest withdrawn) := by
  rw [pushWithdrawn, post, withdrawals, List.foldl_flatMap]
  simp only [List.foldl_map]
  rfl

theorem post_eq (s : PathService) (map : Table (UInt32 × UInt32) PathSet) (seq : UInt64)
    (relays : List UInt32) (posts : List (UInt32 × PathEvent)) :
    post { s with map, seq, relays } posts =
      { map, seq, relays, pending := (s.post posts).pending } := by
  induction posts generalizing s with
  | nil => rfl
  | cons p posts ih => exact ih (s.pushEvent p.1 p.2)

theorem post_self (s : PathService) (posts : List (UInt32 × PathEvent)) :
    s.post posts = { s with pending := (s.post posts).pending } :=
  s.post_eq s.map s.seq s.relays posts

theorem pending_post_congr (h : s.pending = s'.pending) (posts : List (UInt32 × PathEvent)) :
    (s.post posts).pending = (s'.post posts).pending := by
  have hs := congrArg pending (s.post_eq s'.map s'.seq s'.relays posts)
  have heq : { s with map := s'.map, seq := s'.seq, relays := s'.relays } = s' := by
    rw [h]
  rw [heq] at hs
  exact hs.symm

/-! ## Queues -/

theorem queue_pushEvent (s : PathService) (node m : UInt32) (event : PathEvent) :
    (s.pushEvent node event).queue m =
      if node = m ∧ (s.queue m).length < pendingEventsMax then s.queue m ++ [event]
      else s.queue m := by
  have hpending : (s.pushEvent node event).pending = s.pending.insert node
      (if (s.queue node).length < pendingEventsMax then s.queue node ++ [event]
        else s.queue node) := rfl
  rw [queue, hpending, Table.getElem?_insert]
  by_cases hnode : node = m
  · subst hnode
    simp
  · rw [if_neg hnode, if_neg fun h => hnode h.1]
    rfl

def addressed (m : UInt32) (posts : List (UInt32 × PathEvent)) : List PathEvent :=
  (posts.filter fun p => p.1 == m).map Prod.snd

theorem queue_post (s : PathService) (posts : List (UInt32 × PathEvent)) (m : UInt32) :
    (s.post posts).queue m = s.queue m ++
      (addressed m posts).take (pendingEventsMax - (s.queue m).length) := by
  induction posts generalizing s with
  | nil => simp [addressed, post]
  | cons p posts ih =>
    have hcons : s.post (p :: posts) = (s.pushEvent p.1 p.2).post posts := rfl
    rw [hcons, ih, queue_pushEvent]
    by_cases hp : p.1 = m
    · have hhead : addressed m (p :: posts) = p.2 :: addressed m posts := by simp [addressed, hp]
      rw [hhead]
      by_cases hroom : (s.queue m).length < pendingEventsMax
      · have hleft : pendingEventsMax - (s.queue m).length =
            (pendingEventsMax - (s.queue m ++ [p.2]).length) + 1 := by
          rw [List.length_append, List.length_singleton]
          omega
        rw [if_pos ⟨hp, hroom⟩, hleft, List.take_succ_cons, List.append_assoc]
        rfl
      · rw [if_neg fun h => hroom h.2, Nat.sub_eq_zero_of_le (not_lt.mp hroom)]
        rfl
    · have hhead : addressed m (p :: posts) = addressed m posts := by simp [addressed, hp]
      rw [if_neg fun h => hp h.1, hhead]

theorem mem_addressed {m : UInt32} {posts : List (UInt32 × PathEvent)} {event : PathEvent} :
    event ∈ addressed m posts ↔ (m, event) ∈ posts := by
  simp [addressed]

/-! ## Requests and expansions -/

theorem mem_requestRelays {dest : UInt32} {expiresAt : UInt64} {budget : ℕ} {relays : List UInt32}
    {candidates : List PathCandidate} {seq : UInt64} {c : PathCandidate}
    (h : c ∈ (requestRelays dest expiresAt budget relays candidates seq).1) :
    c ∈ candidates ∨ c.Offered relays dest := by
  induction relays generalizing candidates seq with
  | nil => exact Or.inl h
  | cons relay relays ih =>
    have hnew : c ∈ candidates ++ [.viaRelay (seq + 1) relay dest expiresAt] →
        c ∈ candidates ∨ c.Offered (relay :: relays) dest := by
      intro hc
      rcases List.mem_append.mp hc with hc | hc
      · exact Or.inl hc
      · rw [List.mem_singleton.mp hc]
        exact Or.inr PathCandidate.offered_viaRelay
    rw [requestRelays] at h
    split_ifs at h
    · exact hnew h
    · exact (ih h).elim hnew fun h => Or.inr h.cons

/-- The service after a request or an expansion: the set of `key` is put in place and sent to both
ends and to every usable relay. -/
def publish (s : PathService) (key : UInt32 × UInt32) (set : PathSet) (seq : UInt64) : PathService :=
  { s with
    map := s.map.insert key set
    seq := seq
    pending := (s.pushToParticipants key.1 key.2 (usableRelays s.relays key.1 key.2) set).pending }

theorem pushToParticipants_eq_post (s : PathService) (source dest : UInt32) (relays : List UInt32)
    (set : PathSet) : s.pushToParticipants source dest relays set =
      s.post ((source :: dest :: relays).map fun node => (node, .update source dest set)) :=
  s.pushAll_eq_post _ _

theorem publish_eq (s : PathService) (key : UInt32 × UInt32) (set : PathSet) (seq : UInt64) :
    let sent := { s with seq := seq }.pushToParticipants key.1 key.2
      (usableRelays s.relays key.1 key.2) set
    { sent with map := sent.map.insert key set } = s.publish key set seq := by
  dsimp only
  rw [pushToParticipants_eq_post, post_eq, publish, pushToParticipants_eq_post]

theorem request_eq (s : PathService) (source dest max : UInt32) (now : UInt64) :
    ∃ set seq, (s.request source dest max now) = (set.candidates, s.publish (source, dest) set seq) ∧
      (s.map[(source, dest)]? = some set ∨
        ∀ c ∈ set.candidates, c.Offered (usableRelays s.relays source dest) dest) := by
  rw [request]
  cases hlive : (s.map[(source, dest)]?).filter fun set => !set.expired now with
  | some set =>
    have hset : s.map[(source, dest)]? = some set := (Option.filter_eq_some_iff.mp hlive).1
    refine ⟨set, s.seq, ?_, Or.inl hset⟩
    have hinsert : s.map.insert (source, dest) set = s.map :=
      (Table.insert_eq_self_iff _ _ _).mpr hset
    rw [publish, hinsert]
    refine congrArg (Prod.mk set.candidates) ?_
    rw [pushToParticipants_eq_post]
    exact s.post_self _
  | none =>
    refine ⟨_, _, congrArg (Prod.mk _) (s.publish_eq (source, dest) _ _), Or.inr fun c hc => ?_⟩
    rcases mem_requestRelays hc with hc | hc
    · rw [List.mem_singleton.mp hc]
      exact Or.inl rfl
    · exact hc

theorem expandSet_eq (s : PathService) (now : UInt64) (key : UInt32 × UInt32) :
    s.expandSet now key = s ∨ ∃ old set seq, s.map[key]? = some old ∧
      old.settled (usableRelays s.relays key.1 key.2) now = false ∧
      s.expandSet now key = s.publish key set seq ∧ ∀ c ∈ set.candidates,
        c ∈ old.candidates ∨ c.Offered (usableRelays s.relays key.1 key.2) key.2 := by
  rw [expandSet]
  cases hold : s.map[key]? with
  | none => exact Or.inl rfl
  | some old =>
    dsimp only
    cases hsettled : old.settled (usableRelays s.relays key.1 key.2) now with
    | true => exact Or.inl (if_pos rfl)
    | false =>
      refine Or.inr ⟨old, _, _, rfl, hsettled, (if_neg Bool.false_ne_true).trans
        (s.publish_eq key _ _), fun c hc => PathSet.mem_rebuilt hc⟩

/-! ## Withdrawals -/

/-- The service without a path set, with the withdrawal of its candidates on the way. -/
def retract (s : PathService) (key : UInt32 × UInt32) (withdrawn : List PathCandidate) :
    PathService :=
  { s with
    map := s.map.erase key
    pending := (s.post (withdrawals key.1 key.2 withdrawn)).pending }

/-- The nodes that are told what is left of a path set. -/
def sharers (key : UInt32 × UInt32) (set : PathSet) : List UInt32 :=
  (key.1 :: key.2 :: set.candidates.flatMap PathCandidate.hops).eraseDups

/-- The service with a path set cut down to `set`: the withdrawals, then the new set. -/
def reduce (s : PathService) (key : UInt32 × UInt32) (withdrawn : List PathCandidate)
    (set : PathSet) : PathService :=
  { s with
    map := s.map.insert key set
    pending := (s.post (withdrawals key.1 key.2 withdrawn ++
      (sharers key set).map fun node => (node, .update key.1 key.2 set))).pending }

theorem withdrawRelayInSet_eq (s : PathService) (key : UInt32 × UInt32) (node : UInt32) :
    (s.withdrawRelayInSet key.1 key.2 node = s ∧ ∀ set ∈ s.map[key]?, set.through node = []) ∨
      ∃ set, s.map[key]? = some set ∧ ((set.without node).candidates = [] ∧
          s.withdrawRelayInSet key.1 key.2 node = s.retract key (set.through node) ∨
        s.withdrawRelayInSet key.1 key.2 node =
          s.reduce key (set.through node) (set.without node)) := by
  rw [withdrawRelayInSet]
  cases hset : s.map[key]? with
  | none => exact Or.inl ⟨rfl, by rintro _ ⟨⟩⟩
  | some set =>
    dsimp only
    by_cases hthrough : (set.through node).isEmpty
    · refine Or.inl ⟨if_pos hthrough, fun set' h => ?_⟩
      cases h
      exact List.isEmpty_iff.mp hthrough
    refine Or.inr ⟨set, rfl, ?_⟩
    by_cases hkept : (set.without node).candidates.isEmpty
    · refine Or.inl ⟨List.isEmpty_iff.mp hkept, ?_⟩
      refine ((if_neg hthrough).trans (if_pos hkept)).trans ?_
      rw [pushWithdrawn_eq_post]
      exact s.post_eq _ _ _ _
    · refine Or.inr (((if_neg hthrough).trans (if_neg hkept)).trans ?_)
      rw [pushWithdrawn_eq_post, pushAll_eq_post, ← post_append]
      exact s.post_eq _ _ _ _

theorem withdrawNodeInSet_eq (s : PathService) (key : UInt32 × UInt32) (node : UInt32) :
    s.withdrawNodeInSet node key = s ∨ ∃ set, s.map[key]? = some set ∧
      (s.withdrawNodeInSet node key = s.retract key set.candidates ∨
        s.withdrawNodeInSet node key = s.retract key (set.through node) ∨
        key.1 ≠ node ∧ key.2 ≠ node ∧ s.withdrawNodeInSet node key =
          s.reduce key (set.through node) (set.without node)) := by
  rw [withdrawNodeInSet]
  split_ifs with hends
  · cases hset : s.map[key]? with
    | none => exact Or.inl rfl
    | some set =>
      refine Or.inr ⟨set, rfl, Or.inl ?_⟩
      dsimp only
      rw [pushWithdrawn_eq_post]
      exact s.post_eq _ _ _ _
  · rw [Bool.or_eq_true, beq_iff_eq, beq_iff_eq, not_or] at hends
    rcases s.withdrawRelayInSet_eq key node with ⟨h, -⟩ | ⟨set, hset, ⟨-, h⟩ | h⟩
    · exact Or.inl h
    · exact Or.inr ⟨set, hset, Or.inr (Or.inl h)⟩
    · exact Or.inr ⟨set, hset, Or.inr (Or.inr ⟨hends.1, hends.2, h⟩)⟩

/-! ## Properties of path sets and of posted updates -/

def Shapes (T : UInt32 × UInt32 → PathSet → Prop) (s : PathService) : Prop :=
  ∀ (key : UInt32 × UInt32) (set : PathSet), s.map[key]? = some set → T key set

/-- The events posted since `s`; `U` holds of an update and the node it goes to. -/
def Sends (U : UInt32 → UInt32 × UInt32 → PathSet → Prop) (s s' : PathService) : Prop :=
  ∃ posts, s'.pending = (s.post posts).pending ∧ ∀ p ∈ posts, ∀ source dest set,
    p.2 = .update source dest set → U p.1 (source, dest) set

variable {T : UInt32 × UInt32 → PathSet → Prop} {U : UInt32 → UInt32 × UInt32 → PathSet → Prop}

theorem Sends.refl (U : UInt32 → UInt32 × UInt32 → PathSet → Prop) (s : PathService) :
    s.Sends U s := ⟨[], rfl, fun _ h => nomatch h⟩

theorem sends_of_pending_eq (h : s'.pending = s.pending) : s.Sends U s' :=
  ⟨[], h, fun _ h => nomatch h⟩

theorem Sends.trans {s'' : PathService} (h : s.Sends U s') (h' : s'.Sends U s'') :
    s.Sends U s'' := by
  obtain ⟨posts, hpending, hposts⟩ := h
  obtain ⟨posts', hpending', hposts'⟩ := h'
  refine ⟨posts ++ posts', ?_, fun p hp => ?_⟩
  · rw [hpending', post_append]
    exact pending_post_congr hpending posts'
  · exact (List.mem_append.mp hp).elim (hposts p) (hposts' p)

theorem Sends.foldl {β : Type} {f : PathService → β → PathService} {P : PathService → Prop}
    (hf : ∀ s b, P s → P (f s b) ∧ s.Sends U (f s b)) (l : List β) (hs : P s) :
    P (l.foldl f s) ∧ s.Sends U (l.foldl f s) := by
  induction l generalizing s with
  | nil => exact ⟨hs, .refl U s⟩
  | cons b l ih =>
    obtain ⟨hb, hsends⟩ := hf s b hs
    obtain ⟨hl, hrest⟩ := ih hb
    exact ⟨hl, hsends.trans hrest⟩

theorem Sends.mem_queue (h : s.Sends U s') {m : UInt32} {event : PathEvent}
    (hevent : event ∈ s'.queue m) :
    event ∈ s.queue m ∨ ∀ source dest set, event = .update source dest set →
      U m (source, dest) set := by
  obtain ⟨posts, hpending, hposts⟩ := h
  have hqueue : s'.queue m = (s.post posts).queue m := by rw [queue, queue, hpending]
  rw [hqueue, queue_post] at hevent
  refine (List.mem_append.mp hevent).imp id fun hnew => ?_
  exact hposts (m, event) (mem_addressed.mp (List.mem_of_mem_take hnew))

/-- Every queued update satisfies `V`, with the node it waits for. -/
def Queued (V : UInt32 → UInt32 × UInt32 → PathSet → Prop) (s : PathService) : Prop :=
  ∀ m source dest set, .update source dest set ∈ s.queue m → V m (source, dest) set

theorem Queued.sends {V : UInt32 → UInt32 × UInt32 → PathSet → Prop} (hs : s.Queued V)
    (h : s.Sends U s') (hU : ∀ m key set, U m key set → V m key set) : s'.Queued V := by
  intro m source dest set hevent
  rcases h.mem_queue hevent with hold | hnew
  · exact hs m source dest set hold
  · exact hU m (source, dest) set (hnew source dest set rfl)

theorem queue_takeEvents (s : PathService) (source m : UInt32) :
    (s.takeEvents source).2.queue m = if source = m then [] else s.queue m := by
  simp only [takeEvents, queue, Table.getElem?_erase]
  split_ifs
  · rfl
  · rfl

theorem Queued.takeEvents {V : UInt32 → UInt32 × UInt32 → PathSet → Prop} (hs : s.Queued V)
    (source : UInt32) : (s.takeEvents source).2.Queued V := by
  intro m source' dest set hevent
  rw [queue_takeEvents] at hevent
  split_ifs at hevent
  · nomatch hevent
  · exact hs m source' dest set hevent

theorem shapes_empty : PathService.Shapes T {} := by
  intro key set hset
  simp at hset

theorem queued_empty (V : UInt32 → UInt32 × UInt32 → PathSet → Prop) : PathService.Queued V {} := by
  intro m source dest set hevent
  simp [queue] at hevent

theorem shapes_insert {key : UInt32 × UInt32} {set : PathSet} (hs : s.Shapes T) (hset : T key set)
    (hmap : s'.map = s.map.insert key set) : s'.Shapes T := by
  intro key' set' hset'
  rw [hmap, Table.getElem?_insert] at hset'
  split_ifs at hset' with hkey
  · rw [← hkey, ← Option.some.inj hset']
    exact hset
  · exact hs key' set' hset'

theorem publish_sends (key : UInt32 × UInt32) {set : PathSet} {seq : UInt64} (hs : s.Shapes T)
    (hset : T key set) (hU : ∀ node, node = key.1 ∨ node = key.2 ∨
      node ∈ usableRelays s.relays key.1 key.2 → U node key set) :
    (s.publish key set seq).Shapes T ∧ s.Sends U (s.publish key set seq) := by
  have hpending : (s.publish key set seq).pending = (s.post ((key.1 :: key.2 ::
      usableRelays s.relays key.1 key.2).map fun node => (node, .update key.1 key.2 set))).pending := by
    rw [publish, pushToParticipants_eq_post]
  refine ⟨shapes_insert hs hset rfl, _, hpending, fun p hp source dest set' hevent => ?_⟩
  obtain ⟨node, hnode, rfl⟩ := List.mem_map.mp hp
  obtain ⟨rfl, rfl, rfl⟩ := PathEvent.update.inj hevent
  exact hU node ((List.mem_cons.mp hnode).imp id fun h => List.mem_cons.mp h)

theorem isUpdate_withdrawals {source dest : UInt32} {withdrawn : List PathCandidate}
    {p : UInt32 × PathEvent} (hp : p ∈ withdrawals source dest withdrawn) :
    p.2.isUpdate = false := by
  obtain ⟨c, -, hp⟩ := List.mem_flatMap.mp hp
  obtain ⟨node, -, rfl⟩ := List.mem_map.mp hp
  rfl

theorem ne_update_of_withdrawals {key : UInt32 × UInt32} {withdrawn : List PathCandidate}
    {p : UInt32 × PathEvent} (hp : p ∈ withdrawals key.1 key.2 withdrawn) {source dest : UInt32}
    {set : PathSet} : p.2 ≠ .update source dest set := by
  intro h
  nomatch (isUpdate_withdrawals hp).symm.trans (congrArg PathEvent.isUpdate h)

theorem retract_sends {key : UInt32 × UInt32} {withdrawn : List PathCandidate} (hs : s.Shapes T) :
    (s.retract key withdrawn).Shapes T ∧ s.Sends U (s.retract key withdrawn) := by
  refine ⟨fun key' set' hset' => ?_, _, rfl, fun p hp source dest set hevent => ?_⟩
  · rw [retract, Table.getElem?_erase] at hset'
    split_ifs at hset'
    exact hs key' set' hset'
  · exact absurd hevent (ne_update_of_withdrawals hp)

theorem reduce_sends {key : UInt32 × UInt32} {withdrawn : List PathCandidate} {set : PathSet}
    (hs : s.Shapes T) (hset : T key set) (hU : ∀ node, node = key.1 ∨ node = key.2 ∨
      (∃ c ∈ set.candidates, node ∈ c.hops) → U node key set) :
    (s.reduce key withdrawn set).Shapes T ∧ s.Sends U (s.reduce key withdrawn set) := by
  refine ⟨shapes_insert hs hset rfl, _, rfl, fun p hp source dest set' hevent => ?_⟩
  rcases List.mem_append.mp hp with hp | hp
  · exact absurd hevent (ne_update_of_withdrawals hp)
  · obtain ⟨node, hnode, rfl⟩ := List.mem_map.mp hp
    obtain ⟨rfl, rfl, rfl⟩ := PathEvent.update.inj hevent
    rw [sharers, List.mem_eraseDups] at hnode
    refine hU node ((List.mem_cons.mp hnode).imp id fun h => (List.mem_cons.mp h).imp id fun h => ?_)
    exact List.mem_flatMap.mp h

theorem request_sends {source dest : UInt32} (max : UInt32) (now : UInt64) (hs : s.Shapes T)
    (hnew : ∀ set : PathSet, (∀ c ∈ set.candidates,
      c.Offered (usableRelays s.relays source dest) dest) → T (source, dest) set)
    (hU : ∀ set node, T (source, dest) set → node = source ∨ node = dest ∨
      node ∈ usableRelays s.relays source dest → U node (source, dest) set) :
    (s.request source dest max now).2.Shapes T ∧
      s.Sends U (s.request source dest max now).2 := by
  obtain ⟨set, seq, heq, hset⟩ := s.request_eq source dest max now
  have hT : T (source, dest) set := hset.elim (hs _ set) (hnew set)
  rw [heq]
  exact publish_sends (source, dest) hs hT fun node hnode => hU set node hT hnode

theorem relays_expandSet (s : PathService) (now : UInt64) (key : UInt32 × UInt32) :
    (s.expandSet now key).relays = s.relays := by
  rcases s.expandSet_eq now key with heq | ⟨old, set, seq, -, -, heq, -⟩
  · rw [heq]
  · rw [heq]
    rfl

theorem expandRelayCandidates_sends (o : HashOrder (UInt32 × UInt32)) (now : UInt64)
    (hs : s.Shapes T)
    (hnew : ∀ (key : UInt32 × UInt32) (old set : PathSet), T key old → (∀ c ∈ set.candidates,
      c ∈ old.candidates ∨ c.Offered (usableRelays s.relays key.1 key.2) key.2) → T key set)
    (hU : ∀ (key : UInt32 × UInt32) (set : PathSet) node, T key set → node = key.1 ∨
      node = key.2 ∨ node ∈ usableRelays s.relays key.1 key.2 → U node key set) :
    (s.expandRelayCandidates o now).Shapes T ∧ s.Sends U (s.expandRelayCandidates o now) := by
  have hfold := Sends.foldl (U := U) (P := fun s' => s'.Shapes T ∧ s'.relays = s.relays)
    (f := fun s key => s.expandSet now key) (fun s' key ⟨hs', hrelays⟩ => ?_) (o.keys s.map) ⟨hs, rfl⟩
  · exact ⟨hfold.1.1, hfold.2⟩
  · have hkept : (s'.expandSet now key).relays = s.relays :=
      (s'.relays_expandSet now key).trans hrelays
    rcases s'.expandSet_eq now key with heq | ⟨old, set, seq, hold, -, heq, hset⟩
    · rw [heq]
      exact ⟨⟨hs', hrelays⟩, .refl U s'⟩
    · rw [hrelays] at hset
      have hT := hnew key old set (hs' key old hold) hset
      obtain ⟨hshapes, hsends⟩ : (s'.publish key set seq).Shapes T ∧
          s'.Sends U (s'.publish key set seq) := publish_sends key hs' hT fun node hnode =>
        hU key set node hT (by rwa [hrelays] at hnode)
      rw [heq] at hkept ⊢
      exact ⟨⟨hshapes, hkept⟩, hsends⟩

theorem withdrawRelayInSet_sends {key : UInt32 × UInt32} {node : UInt32} (hs : s.Shapes T)
    (hless : ∀ set, T key set → T key (set.without node))
    (hU : ∀ (set : PathSet) m, T key set → m = key.1 ∨ m = key.2 ∨
      (∃ c ∈ set.candidates, m ∈ c.hops) → U m key set) :
    (s.withdrawRelayInSet key.1 key.2 node).Shapes T ∧
      s.Sends U (s.withdrawRelayInSet key.1 key.2 node) := by
  rcases s.withdrawRelayInSet_eq key node with ⟨heq, -⟩ | ⟨set, hset, ⟨-, heq⟩ | heq⟩
  · rw [heq]
    exact ⟨hs, .refl U s⟩
  · rw [heq]
    exact retract_sends hs
  · rw [heq]
    have hT := hless set (hs key set hset)
    exact reduce_sends hs hT fun m hm => hU _ m hT hm

theorem withdrawRelay_sends (o : HashOrder (UInt32 × UInt32)) (node : UInt32) (hs : s.Shapes T)
    (hless : ∀ key set, T key set → T key (set.without node))
    (hU : ∀ (key : UInt32 × UInt32) (set : PathSet) m, T key set → m = key.1 ∨ m = key.2 ∨
      (∃ c ∈ set.candidates, m ∈ c.hops) → U m key set) :
    (s.withdrawRelay o node).Shapes T ∧ s.Sends U (s.withdrawRelay o node) :=
  Sends.foldl (fun _ key h => withdrawRelayInSet_sends h (hless key) (hU key)) _ hs

/-- A withdrawn node: an update is sent of sets only that have neither end at the node, and without
the candidates over it. -/
theorem withdrawNode_sends (o : HashOrder (UInt32 × UInt32)) (node : UInt32) (hs : s.Shapes T)
    (hless : ∀ key set, T key set → T key (set.without node))
    (hU : ∀ (key : UInt32 × UInt32) (set : PathSet) m, T key set → key.1 ≠ node → key.2 ≠ node →
      m = key.1 ∨ m = key.2 ∨ (∃ c ∈ (set.without node).candidates, m ∈ c.hops) →
        U m key (set.without node)) :
    (s.withdrawNode o node).Shapes T ∧ s.Sends U (s.withdrawNode o node) := by
  refine Sends.foldl (fun s key hs => ?_) _ hs
  rcases s.withdrawNodeInSet_eq key node with heq | ⟨set, hset, heq | heq | ⟨hsource, hdest, heq⟩⟩
  · rw [heq]
    exact ⟨hs, .refl U s⟩
  · rw [heq]
    exact retract_sends hs
  · rw [heq]
    exact retract_sends hs
  · rw [heq]
    have hT := hs key set hset
    exact reduce_sends hs (hless key set hT) fun m hm => hU key set m hT hsource hdest hm

theorem ends_withdrawNode (s : PathService) (o : HashOrder (UInt32 × UInt32)) (node : UInt32) :
    (s.withdrawNode o node).Shapes fun key _ => key.1 ≠ node ∧ key.2 ≠ node := by
  intro key set hset
  rw [(erase_eq_iff.mp (s.erase_withdrawNode o node)).1, Std.ExtTreeMap.getElem?_filterMap'] at hset
  obtain ⟨old, -, hpurged⟩ := Option.bind_eq_some_iff.mp hset
  rw [PathSet.purged] at hpurged
  split_ifs at hpurged with hends
  rw [Bool.or_eq_true, beq_iff_eq, beq_iff_eq, not_or] at hends
  exact hends

/-! ## The relays -/

theorem relays_withdrawNode (s : PathService) (o : HashOrder (UInt32 × UInt32)) (node : UInt32) :
    (s.withdrawNode o node).relays = s.relays :=
  (erase_eq_iff.mp (s.erase_withdrawNode o node)).2.2

theorem relays_request (s : PathService) (source dest max : UInt32) (now : UInt64) :
    (s.request source dest max now).2.relays = s.relays := by
  obtain ⟨set, seq, heq, -⟩ := s.request_eq source dest max now
  rw [heq]
  rfl

theorem relays_foldl {β : Type} {f : PathService → β → PathService}
    (hf : ∀ s b, (f s b).relays = s.relays) (l : List β) (s : PathService) :
    (l.foldl f s).relays = s.relays := by
  induction l generalizing s with
  | nil => rfl
  | cons b l ih => rw [List.foldl_cons, ih, hf]

theorem relays_withdrawRelay (s : PathService) (o : HashOrder (UInt32 × UInt32)) (node : UInt32) :
    (s.withdrawRelay o node).relays = s.relays :=
  (erase_eq_iff.mp (s.erase_withdrawRelay o node)).2.2

theorem relays_expandRelayCandidates (s : PathService) (o : HashOrder (UInt32 × UInt32))
    (now : UInt64) : (s.expandRelayCandidates o now).relays = s.relays :=
  relays_foldl (fun s key => s.relays_expandSet now key) _ s

end PathService

end Rill
