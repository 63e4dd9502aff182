import Rill.PathOrder

/-!
# The expansion of relay candidates under any iteration order

The expansion walks the path sets in the order of a hash map and draws path ids from the allocator
the rounds share. Its saved result is the same for every order exactly when at most one path set
needs new ids: such a set writes the state of the allocator into its candidates and moves it.
-/

namespace Rill

namespace PathSet

/-- Whether the expansion draws new path ids for the set: it is live, some relay has no candidate
in it, and either its direct candidate is gone or the kept candidates leave room in the budget. -/
def needsIds (set : PathSet) (relays : List UInt32) (now : UInt64) : Bool :=
  !set.settled relays now && (set.keptDirect.isEmpty ||
    (set.keptDirect ++ set.keptRelayed relays).length < (clampMax set.max).toNat)

/-- What the expansion makes of a set and of the allocator. -/
def expanded (set : PathSet) (relays : List UInt32) (now : UInt64) (key : UInt32 × UInt32)
    (seq : UInt64) : PathSet × UInt64 :=
  if set.settled (usableRelays relays key.1 key.2) now then (set, seq)
  else set.rebuilt (usableRelays relays key.1 key.2) now key.2 seq

section Fill
variable (dest : UInt32) (expiresAt : UInt64) {budget : ℕ}

theorem fillRelays_of_le (relays : List UInt32) {candidates : List PathCandidate} (seq : UInt64)
    (h : budget ≤ candidates.length) :
    fillRelays dest expiresAt budget relays candidates seq = (candidates, seq) := by
  cases relays with
  | nil => rfl
  | cons relay relays => rw [fillRelays, if_pos h]

theorem fillRelays_append (budget : ℕ) (relays : List UInt32) (candidates : List PathCandidate)
    (seq : UInt64) : ∃ tail, fillRelays dest expiresAt budget relays candidates seq =
      (candidates ++ tail, seq + UInt64.ofNat tail.length) ∧
      tail.length ≤ budget - candidates.length := by
  induction relays generalizing candidates seq with
  | nil => exact ⟨[], by simp [fillRelays]⟩
  | cons relay relays ih =>
    rw [fillRelays]
    split_ifs with hfull hstarts
    · exact ⟨[], by simp⟩
    · exact ih candidates seq
    · obtain ⟨tail, htail, hlen⟩ :=
        ih (candidates ++ [.viaRelay (seq + 1) relay dest expiresAt]) (seq + 1)
      refine ⟨.viaRelay (seq + 1) relay dest expiresAt :: tail, ?_, ?_⟩
      · rw [htail, List.append_assoc, List.singleton_append, List.length_cons,
          UInt64.ofNat_add, add_assoc, add_comm (UInt64.ofNat tail.length)]
        rfl
      · rw [List.length_append, List.length_singleton] at hlen
        rw [List.length_cons]
        omega

theorem fillRelays_of_missing {relays : List UInt32} {candidates : List PathCandidate}
    (hroom : candidates.length < budget) (hmissing : ∃ r ∈ relays, startsWith candidates r = false)
    (seq : UInt64) :
    ∃ relay tail, (fillRelays dest expiresAt budget relays candidates seq).1 =
      candidates ++ .viaRelay (seq + 1) relay dest expiresAt :: tail := by
  induction relays with
  | nil => simp at hmissing
  | cons relay relays ih =>
    rw [fillRelays, if_neg (by omega)]
    split_ifs with hstarts
    · refine ih ?_
      obtain ⟨r, hr, hmiss⟩ := hmissing
      rcases List.mem_cons.mp hr with rfl | hr
      · rw [hstarts] at hmiss
        exact absurd hmiss (by decide)
      · exact ⟨r, hr, hmiss⟩
    · obtain ⟨tail, htail, -⟩ := fillRelays_append dest expiresAt budget relays
        (candidates ++ [.viaRelay (seq + 1) relay dest expiresAt])
        (seq + 1)
      exact ⟨relay, tail, by rw [htail, List.append_assoc, List.singleton_append]⟩

end Fill

section Rebuild
variable {set : PathSet} {relays : List UInt32} {now : UInt64} (dest : UInt32)

theorem startsWith_kept_eq_false {r : UInt32} (h : startsWith set.candidates r = false) :
    startsWith (set.keptDirect ++ set.keptRelayed relays) r = false := by
  simp only [startsWith, List.any_eq_false, List.mem_append, keptDirect, keptRelayed,
    List.mem_filter] at h ⊢
  rintro c (⟨hc, -⟩ | ⟨hc, -⟩)
  · exact h c hc
  · exact h c hc

theorem exists_missing (h : set.settled relays now = false) :
    ∃ r ∈ relays, startsWith (set.keptDirect ++ set.keptRelayed relays) r = false := by
  simp only [settled, Bool.or_eq_false_iff, Bool.not_eq_false', List.any_eq_true,
    Bool.not_eq_true'] at h
  obtain ⟨-, r, hr, hmiss⟩ := h
  exact ⟨r, hr, startsWith_kept_eq_false hmiss⟩

theorem rebuilt_of_not_needsIds (hlive : set.settled relays now = false)
    (h : set.needsIds relays now = false) (seq : UInt64) :
    set.rebuilt relays now dest seq =
      ({ version := set.version + 1, candidates := set.keptDirect ++ set.keptRelayed relays,
         max := set.max }, seq) := by
  rw [needsIds, hlive, Bool.not_false, Bool.true_and, Bool.or_eq_false_iff,
    decide_eq_false_iff_not, not_lt] at h
  obtain ⟨hdirect, hfull⟩ := h
  simp only [rebuilt, hdirect, Bool.false_eq_true, if_false, fillRelays_of_le _ _ _ _ hfull]

theorem clampMax_le (max : UInt32) : (clampMax max).toNat ≤ 4 := by
  unfold clampMax
  split_ifs with h₁ h₂
  · decide
  · decide
  · exact UInt32.le_iff_toNat_le.mp (UInt32.not_lt.mp h₂)

/-- Rebuilding a set that needs ids: behind candidates that do not depend on the allocator stands
one with the next id, and the allocator moves by a few ids. -/
theorem rebuilt_of_needsIds (h : set.needsIds relays now = true) :
    ∃ front : List PathCandidate, ∀ seq, ∃ (c : PathCandidate) (tail : List PathCandidate) (n : ℕ),
      (set.rebuilt relays now dest seq).1.candidates = front ++ c :: tail ∧ c.pathId = seq + 1 ∧
      (set.rebuilt relays now dest seq).2 = seq + UInt64.ofNat n ∧ 0 < n ∧ n ≤ 5 := by
  have hbudget := clampMax_le set.max
  rw [needsIds, Bool.and_eq_true, Bool.not_eq_true', Bool.or_eq_true, decide_eq_true_iff] at h
  obtain ⟨hlive, h⟩ := h
  cases hdirect : set.keptDirect.isEmpty with
  | true =>
    refine ⟨[], fun seq => ?_⟩
    obtain ⟨tail, htail, hlen⟩ := fillRelays_append dest (now + pathDefaultTtl)
      (clampMax set.max).toNat relays
      ([.direct (seq + 1) dest (now + pathDefaultTtl)] ++ set.keptRelayed relays) (seq + 1)
    refine ⟨.direct (seq + 1) dest (now + pathDefaultTtl), set.keptRelayed relays ++ tail,
      tail.length + 1, ?_, rfl, ?_, Nat.succ_pos _, by omega⟩
    · simp only [rebuilt, hdirect, if_true, htail]
      rfl
    · simp only [rebuilt, hdirect, if_true, htail]
      rw [UInt64.ofNat_add, add_comm (UInt64.ofNat tail.length), ← add_assoc]
      rfl
  | false =>
    have hroom := h.resolve_left (by simp [hdirect])
    refine ⟨set.keptDirect ++ set.keptRelayed relays, fun seq => ?_⟩
    obtain ⟨tail, htail, hlen⟩ := fillRelays_append dest (now + pathDefaultTtl)
      (clampMax set.max).toNat relays (set.keptDirect ++ set.keptRelayed relays) seq
    obtain ⟨relay, rest, hrest⟩ := fillRelays_of_missing dest (now + pathDefaultTtl) hroom
      (exists_missing hlive) seq
    rw [htail] at hrest
    obtain rfl := List.append_cancel_left hrest
    refine ⟨.viaRelay (seq + 1) relay dest (now + pathDefaultTtl), rest, rest.length + 1, ?_, rfl,
      ?_, Nat.succ_pos _, ?_⟩
    · simp only [rebuilt, hdirect, Bool.false_eq_true, if_false, htail]
    · simp only [rebuilt, hdirect, Bool.false_eq_true, if_false, htail, List.length_cons]
    · rw [List.length_cons] at hlen
      omega

theorem rebuilt_seq_ne (h : set.needsIds relays now = true) (seq : UInt64) :
    (set.rebuilt relays now dest seq).2 ≠ seq := by
  obtain ⟨front, hspec⟩ := rebuilt_of_needsIds dest h
  obtain ⟨-, -, n, -, -, hseq, hpos, hle⟩ := hspec seq
  rw [hseq]
  intro heq
  have hzero := congrArg UInt64.toNat (add_eq_left.mp heq)
  have hsize : n < UInt64.size := lt_of_le_of_lt hle (by decide)
  rw [UInt64.toNat_ofNat_of_lt' hsize] at hzero
  exact hpos.ne' hzero

/-- The ids drawn for a set that needs some tell where the allocator stood. -/
theorem rebuilt_inj (h : set.needsIds relays now = true) {seq seq' : UInt64}
    (heq : (set.rebuilt relays now dest seq).1 = (set.rebuilt relays now dest seq').1) :
    seq = seq' := by
  obtain ⟨front, hspec⟩ := rebuilt_of_needsIds dest h
  obtain ⟨c, tail, -, hcands, hid, -⟩ := hspec seq
  obtain ⟨c', tail', -, hcands', hid', -⟩ := hspec seq'
  rw [heq, hcands'] at hcands
  obtain ⟨rfl, -⟩ := List.cons.inj (List.append_cancel_left hcands)
  exact add_right_cancel (hid.symm.trans hid')

theorem expanded_of_needsIds {key : UInt32 × UInt32}
    (h : set.needsIds (usableRelays relays key.1 key.2) now = true) (seq : UInt64) :
    set.expanded relays now key seq =
      set.rebuilt (usableRelays relays key.1 key.2) now key.2 seq := by
  rw [needsIds, Bool.and_eq_true, Bool.not_eq_true'] at h
  rw [expanded, h.1, if_neg Bool.false_ne_true]

theorem expanded_of_not_needsIds {key : UInt32 × UInt32}
    (h : set.needsIds (usableRelays relays key.1 key.2) now = false) (seq seq' : UInt64) :
    (set.expanded relays now key seq).2 = seq ∧
      (set.expanded relays now key seq).1 = (set.expanded relays now key seq').1 := by
  cases hsettled : set.settled (usableRelays relays key.1 key.2) now with
  | true => simp only [expanded, hsettled, if_true, and_self]
  | false =>
    simp only [expanded, hsettled, Bool.false_eq_true, if_false,
      rebuilt_of_not_needsIds key.2 hsettled h, and_self]

end Rebuild

end PathSet

namespace PathService
variable (s : PathService)

/-- The keys of the path sets for which the expansion draws path ids. -/
def drawing (now : UInt64) : List (UInt32 × UInt32) :=
  s.map.keys.filter fun key => s.map[key]?.any fun set =>
    set.needsIds (usableRelays s.relays key.1 key.2) now

variable {s}

theorem mem_drawing {now : UInt64} {key : UInt32 × UInt32} :
    key ∈ s.drawing now ↔ ∃ set, s.map[key]? = some set ∧
      set.needsIds (usableRelays s.relays key.1 key.2) now = true := by
  have hkeys : key ∈ s.map.keys ↔ s.map[key]?.isSome :=
    HashOrder.mem_keys (o := HashOrder.ascending)
  rw [drawing, List.mem_filter, hkeys]
  cases s.map[key]? with
  | none => simp
  | some set => simp

theorem nodup_drawing (now : UInt64) : (s.drawing now).Nodup :=
  (HashOrder.ascending.nodup_keys s.map).filter _

theorem needsIds_eq_false {now : UInt64} {key : UInt32 × UInt32} {set : PathSet}
    (hset : s.map[key]? = some set) (h : key ∉ s.drawing now) :
    set.needsIds (usableRelays s.relays key.1 key.2) now = false := by
  by_contra hneeds
  exact h (mem_drawing.mpr ⟨set, hset, by simpa using hneeds⟩)

variable (s)

theorem expandSet_spec (now : UInt64) (key : UInt32 × UInt32) :
    ∃ t p, s.expandSet now key = { s with
        map := t
        seq := (s.map[key]?.map fun set => (set.expanded s.relays now key s.seq).2).getD s.seq
        pending := p } ∧
      t[key]? = s.map[key]?.bind (fun set => some (set.expanded s.relays now key s.seq).1) ∧
      ∀ j, j ≠ key → t[j]? = s.map[j]? := by
  rw [expandSet]
  cases hset : s.map[key]? with
  | none => exact ⟨s.map, s.pending, rfl, hset, fun _ _ => rfl⟩
  | some set =>
    simp only [Option.bind_some, Option.map_some, Option.getD_some, PathSet.expanded]
    split_ifs with hsettled
    · exact ⟨s.map, s.pending, rfl, hset, fun _ _ => rfl⟩
    · obtain ⟨p, hp⟩ := pushAll_eq
        { s with seq := (set.rebuilt (usableRelays s.relays key.1 key.2) now key.2 s.seq).2 }
        (key.1 :: key.2 :: usableRelays s.relays key.1 key.2)
        (.update key.1 key.2 (set.rebuilt (usableRelays s.relays key.1 key.2) now key.2 s.seq).1)
      refine ⟨_, p, ?_, Table.getElem?_insert_self s.map key _, fun j hj =>
        Table.getElem?_insert_of_ne hj.symm⟩
      simp only [pushToParticipants, hp]

theorem perEntry_expandSet (now : UInt64) :
    PerEntry (fun s' : PathService => s'.relays = s.relays) PathService.map PathService.seq
      (fun s' key => s'.expandSet now key)
      (fun seq key set => some (set.expanded s.relays now key seq).1)
      (fun seq key set => (set.expanded s.relays now key seq).2) where
  inv_round s' key hinv := by
    obtain ⟨t, p, heq, -⟩ := s'.expandSet_spec now key
    rwa [heq]
  table_self s' key hinv := by
    obtain ⟨t, p, heq, hself, -⟩ := s'.expandSet_spec now key
    rw [heq, ← hinv]
    exact hself
  table_other s' key j _ hj := by
    obtain ⟨t, p, heq, -, hother⟩ := s'.expandSet_spec now key
    rw [heq]
    exact hother j hj
  shared_round s' key hinv := by
    obtain ⟨t, p, heq, -⟩ := s'.expandSet_spec now key
    rw [heq, ← hinv]

/-- The saved service after an expansion in which every set finds the allocator as it was. -/
def expandedAlone (now : UInt64) : PathService :=
  { s with
    map := s.map.filterMap fun key set => some (set.expanded s.relays now key s.seq).1
    seq := (s.drawing now).foldl
      (fun seq key => (s.map[key]?.map fun set => (set.expanded s.relays now key seq).2).getD seq)
      s.seq }

variable {s}

theorem expanded_idle {now : UInt64} {key : UInt32 × UInt32} {set : PathSet}
    (hset : s.map[key]? = some set) (hkey : key ∉ s.drawing now) (seq : UInt64) :
    (set.expanded s.relays now key seq).2 = seq ∧
      (set.expanded s.relays now key seq).1 = (set.expanded s.relays now key s.seq).1 :=
  PathSet.expanded_of_not_needsIds (needsIds_eq_false hset hkey) seq s.seq

theorem exists_only_drawing {now : UInt64} (h : (s.drawing now).length ≤ 1) :
    ∃ a, ∀ key ∈ s.drawing now, key = a := by
  match hd : s.drawing now, h with
  | [], _ => exact ⟨(0, 0), by simp⟩
  | [a], _ => exact ⟨a, by simp⟩

theorem map_expandRelayCandidates {now : UInt64} (h : (s.drawing now).length ≤ 1)
    (o : HashOrder (UInt32 × UInt32)) :
    (s.expandRelayCandidates o now).map = (s.expandedAlone now).map := by
  obtain ⟨a, ha⟩ := exists_only_drawing h
  have hidle : ∀ seq key set, key ≠ a → s.map[key]? = some set → _ := fun seq key set hne hset =>
    expanded_idle hset (fun hin => hne (ha key hin)) seq
  refine (s.perEntry_expandSet now).table_foldl_eq_filterMap (o.nodup_keys s.map) (s := s) rfl a
    (fun seq key set hne hset => (hidle seq key set hne hset).1) ?_ ?_
  · intro seq key set _ hset hseq
    by_cases hkey : key = a
    · rw [hseq hkey]
    · rw [(hidle seq key set hkey hset).2]
  · intro key set hkey hset
    exact absurd (HashOrder.mem_keys.mpr (by rw [hset]; rfl)) hkey

theorem seq_expandRelayCandidates {now : UInt64} (h : (s.drawing now).length ≤ 1)
    (o : HashOrder (UInt32 × UInt32)) :
    (s.expandRelayCandidates o now).seq = (s.expandedAlone now).seq := by
  have hloop := s.perEntry_expandSet now
  rw [expandRelayCandidates, expandedAlone]
  match hd : s.drawing now, h with
  | [], _ =>
    rw [hloop.shared_foldl (o.nodup_keys s.map) rfl]
    exact PerEntry.advanced_of_idle fun key _ set hset =>
      (expanded_idle hset (by rw [hd]; exact List.not_mem_nil) s.seq).1
  | [a], _ =>
    have ha : a ∈ s.drawing now := by rw [hd]; exact List.mem_cons_self
    obtain ⟨set, hset, -⟩ := mem_drawing.mp ha
    have hmem : a ∈ o.keys s.map := HashOrder.mem_keys.mpr (by rw [hset]; rfl)
    refine hloop.shared_foldl_of_idle (o.nodup_keys s.map) rfl hmem fun seq key set hne hset => ?_
    exact (expanded_idle hset (by rw [hd]; exact List.mem_singleton.not.mpr hne) seq).1

/-- With at most one set in need of ids the order of the expansion does not show. -/
theorem erase_expandRelayCandidates {now : UInt64} (h : (s.drawing now).length ≤ 1)
    (o : HashOrder (UInt32 × UInt32)) :
    (s.expandRelayCandidates o now).erase = (s.expandedAlone now).erase :=
  erase_eq_iff.mpr ⟨map_expandRelayCandidates h o, seq_expandRelayCandidates h o,
    (s.perEntry_expandSet now).inv_foldl (o.keys s.map) (s := s) rfl⟩

/-- A set in need of ids draws them where the sets expanded before it leave the allocator. -/
theorem getElem?_expandRelayCandidates {now : UInt64} {o : HashOrder (UInt32 × UInt32)}
    {pre post : List (UInt32 × UInt32)} {key : UInt32 × UInt32} {set : PathSet}
    (hkeys : o.keys s.map = pre ++ key :: post) (hset : s.map[key]? = some set)
    (hneeds : set.needsIds (usableRelays s.relays key.1 key.2) now = true) :
    (s.expandRelayCandidates o now).map[key]? =
      some (set.rebuilt (usableRelays s.relays key.1 key.2) now key.2 (PerEntry.advanced
        (fun seq key set => (set.expanded s.relays now key seq).2) s.map pre s.seq)).1 := by
  rw [expandRelayCandidates, hkeys,
    (s.perEntry_expandSet now).table_foldl (hkeys ▸ o.nodup_keys s.map) rfl, hset,
    Option.bind_some, PathSet.expanded_of_needsIds hneeds]

/-- Two sets in need of ids get different ones in the two orders in which one of them is expanded
first. -/
theorem drawing_length_le_one {now : UInt64}
    (h : ∀ o o', (s.expandRelayCandidates o now).map = (s.expandRelayCandidates o' now).map) :
    (s.drawing now).length ≤ 1 := by
  by_contra hlen
  obtain ⟨a, b, rest, hd⟩ : ∃ a b rest, s.drawing now = a :: b :: rest := by
    match hd : s.drawing now, hlen with
    | [], hlen => simp at hlen
    | [_], hlen => simp at hlen
    | a :: b :: rest, _ => exact ⟨a, b, rest, rfl⟩
  have hab : a ≠ b := by
    have hnodup := nodup_drawing (s := s) now
    rw [hd] at hnodup
    exact fun heq => (List.nodup_cons.mp hnodup).1 (heq ▸ List.mem_cons_self)
  obtain ⟨A, hA, hneedsA⟩ := mem_drawing.mp (show a ∈ s.drawing now by rw [hd]; simp)
  obtain ⟨B, hB, hneedsB⟩ := mem_drawing.mp (show b ∈ s.drawing now by rw [hd]; simp)
  let o : HashOrder (UInt32 × UInt32) := HashOrder.ascending.first a
  have ha : a ∈ HashOrder.ascending.keys s.map := HashOrder.mem_keys.mpr (by rw [hA]; rfl)
  have hb : b ∈ o.keys s.map := HashOrder.mem_keys.mpr (by rw [hB]; rfl)
  obtain ⟨post, hfirst⟩ : ∃ post, o.keys s.map = [] ++ a :: post := HashOrder.keys_first ha
  obtain ⟨post', hsecond⟩ : ∃ post', (o.first b).keys s.map = [b] ++ a :: post' :=
    HashOrder.keys_first_first ha hb hab
  have heq := congrArg (fun t : Table (UInt32 × UInt32) PathSet => t[a]?) (h o (o.first b))
  rw [getElem?_expandRelayCandidates hfirst hA hneedsA,
    getElem?_expandRelayCandidates hsecond hA hneedsA] at heq
  have hseq := PathSet.rebuilt_inj a.2 hneedsA (Option.some.inj heq)
  simp only [PerEntry.advanced, List.foldl_cons, List.foldl_nil, hB, Option.map_some,
    Option.getD_some, PathSet.expanded_of_needsIds hneedsB] at hseq
  exact PathSet.rebuilt_seq_ne b.2 hneedsB s.seq hseq.symm

section Saved
variable {s s' : PathService}

theorem expandSet_congr (h : s.erase = s'.erase) (now : UInt64) (key : UInt32 × UInt32) :
    (s.expandSet now key).erase = (s'.expandSet now key).erase := by
  obtain ⟨hmap, hseq, hrelays⟩ := erase_eq_iff.mp h
  obtain ⟨t, p, heq, hself, hother⟩ := s.expandSet_spec now key
  obtain ⟨t', p', heq', hself', hother'⟩ := s'.expandSet_spec now key
  rw [heq, heq']
  refine erase_eq_iff.mpr ⟨Std.ExtTreeMap.ext_getElem? fun j => ?_, ?_, hrelays⟩
  · by_cases hj : j = key
    · rw [hj, hself, hself', hmap, hseq, hrelays]
    · rw [hother j hj, hother' j hj, hmap]
  · simp only [hmap, hseq, hrelays]

theorem expandRelayCandidates_congr (h : s.erase = s'.erase) (o : HashOrder (UInt32 × UInt32))
    (now : UInt64) :
    (s.expandRelayCandidates o now).erase = (s'.expandRelayCandidates o now).erase := by
  have hloop : ∀ (keys : List (UInt32 × UInt32)) {s s' : PathService}, s.erase = s'.erase →
      (keys.foldl (fun s key => s.expandSet now key) s).erase =
        (keys.foldl (fun s key => s.expandSet now key) s').erase := by
    intro keys
    induction keys with
    | nil => exact fun h => h
    | cons key keys ih => exact fun h => ih (expandSet_congr h now key)
  rw [expandRelayCandidates, expandRelayCandidates, ← (erase_eq_iff.mp h).1]
  exact hloop _ h

theorem drawing_congr (h : s.erase = s'.erase) (now : UInt64) : s.drawing now = s'.drawing now := by
  obtain ⟨hmap, -, hrelays⟩ := erase_eq_iff.mp h
  rw [drawing, drawing, hmap, hrelays]

theorem expandedAlone_congr (h : s.erase = s'.erase) (now : UInt64) :
    (s.expandedAlone now).erase = (s'.expandedAlone now).erase := by
  obtain ⟨hmap, hseq, hrelays⟩ := erase_eq_iff.mp h
  simp only [expandedAlone, erase, drawing_congr h now, hmap, hseq, hrelays]

end Saved

end PathService

end Rill
