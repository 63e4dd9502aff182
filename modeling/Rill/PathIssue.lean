import Rill.PathNumbers
import Rill.Transition

/-!
# Path ids are issued once

A path service hands out path ids in ascending order and puts each into one new candidate. Requests
and expansions keep every stored set within its budget and its direct candidate in place. Saving and
putting back what was saved last does the same, if no id was issued in between: the allocator is put
back too. The ids are 64 bits wide and start again at zero when they run out.
-/

namespace Rill

/-! ## Calls -/

inductive PathCall where
  | request (source dest max : UInt32) (now : UInt64)
  | withdrawNode (o : HashOrder (UInt32 × UInt32)) (node : UInt32)
  | withdrawRelay (o : HashOrder (UInt32 × UInt32)) (node : UInt32)
  | setRelays (relays : List UInt32)
  | expandRelayCandidates (o : HashOrder (UInt32 × UInt32)) (now : UInt64)
  | persistent (o : HashOrder (UInt32 × UInt32))
  | restore

namespace PathService

/-- `restore` with what `persistent` returned. -/
def restore (s : PathService) (saved : List (UInt32 × UInt32 × PathSet) × UInt64) : PathService :=
  { s with map := saved.1.foldl (fun t e => t.insert (e.1, e.2.1) e.2.2) ∅, seq := saved.2 }

/-- The candidates a request makes. -/
def requestIssues (s : PathService) (source dest max : UInt32) (now : UInt64) :
    List PathCandidate :=
  if (s.map[(source, dest)]?).any fun set => !set.expired now then []
  else (s.request source dest max now).1

/-- The candidates the expansion of one set makes. -/
def expandSetIssues (s : PathService) (now : UInt64) (key : UInt32 × UInt32) : List PathCandidate :=
  match s.map[key]?, (s.expandSet now key).map[key]? with
  | some old, some set => set.candidates.filter fun c => !old.candidates.contains c
  | _, _ => []

def expandIssues (now : UInt64) : List (UInt32 × UInt32) → PathService → List PathCandidate
  | [], _ => []
  | key :: keys, s => s.expandSetIssues now key ++ expandIssues now keys (s.expandSet now key)

end PathService

/-- A path service with the candidates it has made so far, the budgets it was asked for and what it
saved last. -/
structure PathHistory where
  service : PathService := {}
  issued : List PathCandidate := []
  asked : List ((UInt32 × UInt32) × UInt32) := []
  saved : Option (List (UInt32 × UInt32 × PathSet) × UInt64) := none

namespace PathHistory

def step (h : PathHistory) : PathCall → Option PathHistory
  | .request source dest max now => some { h with
      service := (h.service.request source dest max now).2
      issued := h.issued ++ h.service.requestIssues source dest max now
      asked := h.asked ++ [((source, dest), max)] }
  | .withdrawNode o node => some { h with service := h.service.withdrawNode o node }
  | .withdrawRelay o node => some { h with service := h.service.withdrawRelay o node }
  | .setRelays relays => some { h with service := h.service.setRelays relays }
  | .expandRelayCandidates o now => some { h with
      service := h.service.expandRelayCandidates o now
      issued := h.issued ++ PathService.expandIssues now (o.keys h.service.map) h.service }
  | .persistent o => some { h with saved := some (h.service.persistent o) }
  | .restore => h.saved.map fun saved => { h with service := h.service.restore saved }

/-- There are ids left, a few for each set, and what is put back was saved after the last id was
issued. -/
def Fits (h : PathHistory) (call : PathCall) : Prop :=
  h.service.seq.toNat + 4 * (h.service.map.size + 1) < 2 ^ 64 ∧
    match call with
    | .restore => (h.saved.all fun saved => saved.2 == h.service.seq) = true
    | _ => True

instance (h : PathHistory) (call : PathCall) : Decidable (h.Fits call) := by
  unfold Fits
  split <;> infer_instance

end PathHistory

/-! ## What each call does -/

namespace PathService
variable {s : PathService}

/-- The set that a request makes, with the allocator after it. -/
def freshSet (s : PathService) (source dest max : UInt32) (now : UInt64) : PathSet × UInt64 :=
  let drawn := requestRelays dest (now + pathDefaultTtl) (clampMax max).toNat
    (usableRelays s.relays source dest) [.direct (s.seq + 1) dest (now + pathDefaultTtl)]
    (s.seq + 1)
  ({ version := ((s.map[(source, dest)]?).map PathSet.version).getD 0 + 1
     candidates := drawn.1
     max := clampMax max }, drawn.2)

theorem request_of_live {source dest : UInt32} {now : UInt64} {set : PathSet}
    (hset : s.map[(source, dest)]? = some set) (hlive : set.expired now = false) (max : UInt32) :
    s.request source dest max now = (set.candidates,
      s.pushToParticipants source dest (usableRelays s.relays source dest) set) := by
  have hfilter : (s.map[(source, dest)]?).filter (fun set => !set.expired now) = some set := by
    rw [hset, Option.filter_some, hlive]
    rfl
  rw [request, hfilter]

theorem request_of_expired {source dest : UInt32} {now : UInt64}
    (h : ((s.map[(source, dest)]?).any fun set => !set.expired now) = false) (max : UInt32) :
    s.request source dest max now = ((s.freshSet source dest max now).1.candidates,
      s.publish (source, dest) (s.freshSet source dest max now).1
        (s.freshSet source dest max now).2) := by
  have hfilter : (s.map[(source, dest)]?).filter (fun set => !set.expired now) = none := by
    cases hset : s.map[(source, dest)]? with
    | none => rfl
    | some set =>
      rw [hset, Option.any_some] at h
      rw [Option.filter_some, h]
      rfl
  rw [request, hfilter]
  exact congrArg (Prod.mk _) (s.publish_eq (source, dest) _ _)

/-- A fresh set is formed, and its candidates carry the next ids. -/
theorem freshSet_spec (s : PathService) (source dest max : UInt32) (now : UInt64) :
    (s.freshSet source dest max now).1.Formed (source, dest) ∧
    (s.freshSet source dest max now).1.max = clampMax max ∧
    NumberedFrom s.seq (s.freshSet source dest max now).1.candidates ∧
    (s.freshSet source dest max now).2 =
      s.seq + UInt64.ofNat (s.freshSet source dest max now).1.candidates.length := by
  obtain ⟨new, heq, hids, hbudget⟩ := requestRelays_split dest (now + pathDefaultTtl)
    (clampMax max).toNat (usableRelays s.relays source dest)
    [.direct (s.seq + 1) dest (now + pathDefaultTtl)] (s.seq + 1)
  have hcandidates : (s.freshSet source dest max now).1.candidates =
      .direct (s.seq + 1) dest (now + pathDefaultTtl) :: new := congrArg Prod.fst heq
  have hoffered : ∀ c ∈ (s.freshSet source dest max now).1.candidates,
      c.Offered (usableRelays s.relays source dest) dest := by
    intro c hc
    rcases mem_requestRelays hc with hc | hc
    · rw [List.mem_singleton.mp hc]
      exact Or.inl rfl
    · exact hc
  refine ⟨⟨⟨.direct (s.seq + 1) dest (now + pathDefaultTtl), ?_, rfl⟩,
    fun c hc => hops_of_offered (source, dest) (hoffered c hc), ?_⟩, rfl, ?_, ?_⟩
  · rw [hcandidates]
    exact List.mem_cons_self
  · rw [hcandidates]
    exact (hbudget (two_le_clampMax max)).trans_eq (congrArg _ (clampMax_clampMax max).symm)
  · rw [hcandidates]
    exact .cons rfl hids
  · rw [hcandidates, ← ofNat_succ_length]
    exact congrArg Prod.snd heq

theorem expandSet_cases (now : UInt64) {key : UInt32 × UInt32}
    (hs : ∀ set, s.map[key]? = some set → set.Formed key) :
    s.expandSet now key = s ∨ ∃ (old set : PathSet) (kept new : List PathCandidate),
      s.map[key]? = some old ∧ s.expandSet now key =
        s.publish key set (s.seq + UInt64.ofNat new.length) ∧
      set.candidates = kept ++ new ∧ (∀ c ∈ kept, c ∈ old.candidates) ∧ NumberedFrom s.seq new ∧
      new.length ≤ 4 ∧ set.Formed key ∧ set.max = old.max := by
  rw [expandSet]
  cases hold : s.map[key]? with
  | none => exact Or.inl rfl
  | some old =>
    dsimp only
    split_ifs with hsettled
    · exact Or.inl rfl
    · obtain ⟨new, hcandidates, hseq, hids, hlen, hformed⟩ :=
        (hs old hold).rebuilt s.relays now s.seq
      refine Or.inr ⟨old, _, _, new, rfl, ?_, hcandidates, ?_, hids, hlen, hformed, rfl⟩
      · rw [← hseq]
        exact s.publish_eq key _ _
      · intro c hc
        rcases List.mem_append.mp hc with hc | hc
        · exact List.mem_of_mem_filter hc
        · exact List.mem_of_mem_filter hc

end PathService

/-! ## Whole histories -/

/-- The ids of the candidates are different, none is zero, and none is beyond the allocator. -/
structure Issued (seq : UInt64) (issued : List PathCandidate) : Prop where
  nodup : (issued.map PathCandidate.pathId).Nodup
  range : ∀ c ∈ issued, 0 < c.pathId.toNat ∧ c.pathId.toNat ≤ seq.toNat

theorem toNat_add_ofNat {seq : UInt64} {n : ℕ} (h : seq.toNat + n < 2 ^ 64) :
    (seq + UInt64.ofNat n).toNat = seq.toNat + n := by
  rw [UInt64.toNat_add, UInt64.toNat_ofNat']
  omega

theorem NumberedFrom.range {seq : UInt64} {new : List PathCandidate} (h : NumberedFrom seq new)
    (hroom : seq.toNat + new.length < 2 ^ 64) :
    ∀ c ∈ new, seq.toNat < c.pathId.toNat ∧ c.pathId.toNat ≤ seq.toNat + new.length := by
  intro c hc
  refine toNat_mem_idsAfter hroom c.pathId ?_
  rw [← h]
  exact List.mem_map_of_mem hc

theorem Issued.append {seq : UInt64} {issued new : List PathCandidate} (h : Issued seq issued)
    (hids : NumberedFrom seq new) (hroom : seq.toNat + new.length < 2 ^ 64) :
    Issued (seq + UInt64.ofNat new.length) (issued ++ new) := by
  have hnew := hids.range hroom
  refine ⟨?_, fun c hc => ?_⟩
  · have hnodup : (new.map PathCandidate.pathId).Nodup := by
      rw [hids]
      exact nodup_idsAfter hroom
    rw [List.map_append, List.nodup_append]
    refine ⟨h.nodup, hnodup, fun id hid id' hid' heq => ?_⟩
    obtain ⟨c, hc, rfl⟩ := List.mem_map.mp hid
    obtain ⟨c', hc', rfl⟩ := List.mem_map.mp hid'
    have hle := (h.range c hc).2
    have hlt := (hnew c' hc').1
    rw [heq] at hle
    omega
  · rw [toNat_add_ofNat hroom]
    rcases List.mem_append.mp hc with hc | hc
    · have hold := h.range c hc
      omega
    · have hlt := hnew c hc
      omega

/-- A stored set: formed, within a budget that was asked for, with candidates that were issued. -/
structure PathSet.Held (issued : List PathCandidate) (asked : List ((UInt32 × UInt32) × UInt32))
    (key : UInt32 × UInt32) (set : PathSet) : Prop where
  formed : set.Formed key
  asked : ∃ max, (key, max) ∈ asked ∧ set.max = clampMax max
  stored : ∀ c ∈ set.candidates, c ∈ issued

theorem PathSet.Held.mono {issued issued' : List PathCandidate}
    {asked asked' : List ((UInt32 × UInt32) × UInt32)} {key : UInt32 × UInt32} {set : PathSet}
    (h : set.Held issued asked key) (hissued : ∀ c ∈ issued, c ∈ issued')
    (hasked : ∀ a ∈ asked, a ∈ asked') : set.Held issued' asked' key where
  formed := h.formed
  asked := h.asked.imp fun _ ha => ⟨hasked _ ha.1, ha.2⟩
  stored c hc := hissued c (h.stored c hc)

namespace PathService
variable {s : PathService} {issued : List PathCandidate}
  {asked : List ((UInt32 × UInt32) × UInt32)}

theorem expandSetIssues_of_same {now : UInt64} {key : UInt32 × UInt32}
    (h : s.expandSet now key = s) : s.expandSetIssues now key = [] := by
  rw [expandSetIssues, h]
  cases s.map[key]? with
  | none => rfl
  | some set => simp

theorem expandSet_held (now : UInt64) (key : UInt32 × UInt32)
    (hs : s.Shapes (PathSet.Held issued asked)) (hids : Issued s.seq issued)
    (hroom : s.seq.toNat + 4 < 2 ^ 64) :
    (s.expandSet now key).Shapes (PathSet.Held (issued ++ s.expandSetIssues now key) asked) ∧
      Issued (s.expandSet now key).seq (issued ++ s.expandSetIssues now key) ∧
      (s.expandSet now key).seq.toNat ≤ s.seq.toNat + 4 := by
  rcases expandSet_cases now (fun set hset => (hs key set hset).formed) with hsame |
    ⟨old, set, kept, new, hold, heq, hcandidates, hkept, hnew, hlen, hformed, hmax⟩
  · rw [expandSetIssues_of_same hsame, hsame, List.append_nil]
    exact ⟨hs, hids, Nat.le_add_right _ _⟩
  · have hheld := hs key old hold
    have hroom' : s.seq.toNat + new.length < 2 ^ 64 := by omega
    have hissues : s.expandSetIssues now key = new := by
      have hget : (s.publish key set (s.seq + UInt64.ofNat new.length)).map[key]? = some set :=
        Table.getElem?_insert_self _ _ _
      rw [expandSetIssues, hold, heq, hget]
      change (set.candidates.filter fun c => !old.candidates.contains c) = new
      have hout : kept.filter (fun c => !old.candidates.contains c) = [] :=
        List.filter_eq_nil_iff.mpr fun c hc => by simp [hkept c hc]
      have hin : new.filter (fun c => !old.candidates.contains c) = new := by
        refine List.filter_eq_self.mpr fun c hc => ?_
        -- The ids of the old candidates are not beyond the allocator.
        have hlt := (hnew.range hroom' c hc).1
        have hfresh : c ∉ old.candidates := fun hmem => by
          have hle := (hids.range c (hheld.stored c hmem)).2
          omega
        simpa using hfresh
      rw [hcandidates, List.filter_append, hout, hin, List.nil_append]
    rw [hissues, heq]
    refine ⟨?_, hids.append hnew hroom', ?_⟩
    · have hleft : ∀ c ∈ issued, c ∈ issued ++ new := fun c hc => List.mem_append_left _ hc
      refine shapes_insert (s := s) (fun key' set' hset' =>
        (hs key' set' hset').mono hleft fun a ha => ha) ⟨hformed, hmax ▸ hheld.asked, ?_⟩ rfl
      intro c hc
      rw [hcandidates] at hc
      rcases List.mem_append.mp hc with hc | hc
      · exact hleft c (hheld.stored c (hkept c hc))
      · exact List.mem_append_right _ hc
    · change (s.seq + UInt64.ofNat new.length).toNat ≤ _
      rw [toNat_add_ofNat hroom']
      omega

theorem expandRelayCandidates_held (now : UInt64) (keys : List (UInt32 × UInt32))
    (hs : s.Shapes (PathSet.Held issued asked)) (hids : Issued s.seq issued)
    (hroom : s.seq.toNat + 4 * keys.length < 2 ^ 64) :
    (keys.foldl (fun s key => s.expandSet now key) s).Shapes
        (PathSet.Held (issued ++ expandIssues now keys s) asked) ∧
      Issued (keys.foldl (fun s key => s.expandSet now key) s).seq
        (issued ++ expandIssues now keys s) := by
  induction keys generalizing s issued with
  | nil =>
    rw [expandIssues, List.append_nil]
    exact ⟨hs, hids⟩
  | cons key keys ih =>
    rw [List.length_cons] at hroom
    obtain ⟨hs', hids', hle⟩ := expandSet_held now key hs hids (by omega)
    rw [List.foldl_cons, expandIssues, ← List.append_assoc]
    exact ih hs' hids' (by omega)

theorem request_held (source dest max : UInt32) (now : UInt64)
    (hs : s.Shapes (PathSet.Held issued asked)) (hids : Issued s.seq issued)
    (hroom : s.seq.toNat + 4 < 2 ^ 64) :
    (s.request source dest max now).2.Shapes (PathSet.Held
        (issued ++ s.requestIssues source dest max now) (asked ++ [((source, dest), max)])) ∧
      Issued (s.request source dest max now).2.seq
        (issued ++ s.requestIssues source dest max now) := by
  have hasked : ∀ a ∈ asked, a ∈ asked ++ [((source, dest), max)] :=
    fun a ha => List.mem_append_left _ ha
  rw [requestIssues]
  split_ifs with hlive
  · obtain ⟨set, hset, hlive⟩ := (Option.any_eq_true _ _).mp hlive
    obtain ⟨p, hp⟩ := s.pushAll_eq (source :: dest :: usableRelays s.relays source dest)
      (.update source dest set)
    rw [request_of_live hset (by simpa using hlive), List.append_nil]
    change ((s.pushAll _ _).Shapes _) ∧ Issued (s.pushAll _ _).seq _
    rw [hp]
    exact ⟨fun key set hset => (hs key set hset).mono (fun c hc => hc) hasked, hids⟩
  · have hexpired := Bool.eq_false_of_not_eq_true hlive
    obtain ⟨hformed, hmax, hnew, hseq⟩ := s.freshSet_spec source dest max now
    have hfour := hformed.budget.trans (PathSet.clampMax_le _)
    rw [request_of_expired hexpired]
    dsimp only
    refine ⟨shapes_insert (s := s) (fun key set hset => (hs key set hset).mono
        (fun c hc => List.mem_append_left _ hc) hasked)
      ⟨hformed, ⟨max, List.mem_append_right _ List.mem_cons_self, hmax⟩,
        fun c hc => List.mem_append_right _ hc⟩ rfl, ?_⟩
    change Issued (s.freshSet source dest max now).2 _
    rw [hseq]
    exact hids.append hnew (by omega)

theorem trimmed_held {key : UInt32 × UInt32} {set set' : PathSet} {node : UInt32}
    (h : set.Held issued asked key) (htrim : set.trimmed node = some set') :
    set'.Held issued asked key := by
  obtain ⟨hformed, hmax, hsub⟩ := h.formed.trimmed htrim
  exact ⟨hformed, hmax ▸ h.asked, fun c hc => h.stored c (hsub c hc)⟩

theorem withdrawRelay_held (o : HashOrder (UInt32 × UInt32)) (node : UInt32)
    (hs : s.Shapes (PathSet.Held issued asked)) :
    (s.withdrawRelay o node).Shapes (PathSet.Held issued asked) ∧
      (s.withdrawRelay o node).seq = s.seq := by
  obtain ⟨hmap, hseq, -⟩ := erase_eq_iff.mp (s.erase_withdrawRelay o node)
  refine ⟨fun key set' hset' => ?_, hseq⟩
  rw [hmap, Std.ExtTreeMap.getElem?_filterMap'] at hset'
  obtain ⟨set, hset, htrim⟩ := Option.bind_eq_some_iff.mp hset'
  exact trimmed_held (hs key set hset) htrim

theorem withdrawNode_held (o : HashOrder (UInt32 × UInt32)) (node : UInt32)
    (hs : s.Shapes (PathSet.Held issued asked)) :
    (s.withdrawNode o node).Shapes (PathSet.Held issued asked) ∧
      (s.withdrawNode o node).seq = s.seq := by
  obtain ⟨hmap, hseq, -⟩ := erase_eq_iff.mp (s.erase_withdrawNode o node)
  refine ⟨fun key set' hset' => ?_, hseq⟩
  rw [hmap, Std.ExtTreeMap.getElem?_filterMap'] at hset'
  obtain ⟨set, hset, hpurge⟩ := Option.bind_eq_some_iff.mp hset'
  rw [PathSet.purged] at hpurge
  split_ifs at hpurge
  exact trimmed_held (hs key set hset) hpurge

theorem mem_persistent {o : HashOrder (UInt32 × UInt32)} {e : UInt32 × UInt32 × PathSet}
    (h : e ∈ (s.persistent o).1) : s.map[(e.1, e.2.1)]? = some e.2.2 := by
  obtain ⟨⟨key, set⟩, hkey, rfl⟩ := List.mem_map.mp ((StableSort.perm_sortByKey _).mem_iff.mp h)
  exact HashOrder.mem_entries.mp hkey

theorem shapes_restore {T : UInt32 × UInt32 → PathSet → Prop}
    {saved : List (UInt32 × UInt32 × PathSet) × UInt64}
    (h : ∀ e ∈ saved.1, T (e.1, e.2.1) e.2.2) : (s.restore saved).Shapes T := by
  obtain ⟨entries, seq⟩ := saved
  have hall : ∀ (entries : List (UInt32 × UInt32 × PathSet)) (t : Table (UInt32 × UInt32) PathSet),
      (∀ key set, t[key]? = some set → T key set) → (∀ e ∈ entries, T (e.1, e.2.1) e.2.2) →
      ∀ (key : UInt32 × UInt32) set,
        (entries.foldl (fun t e => t.insert (e.1, e.2.1) e.2.2) t)[key]? = some set →
        T key set := by
    intro entries
    induction entries with
    | nil => exact fun t ht _ => ht
    | cons e entries ih =>
      intro t ht hentries
      obtain ⟨he, hentries⟩ := List.forall_mem_cons.mp hentries
      refine ih _ (fun key set hset => ?_) hentries
      rw [Table.getElem?_insert] at hset
      split_ifs at hset with hkey
      · rw [← hkey, ← Option.some.inj hset]
        exact he
      · exact ht key set hset
  refine hall entries ∅ (fun key set hset => ?_) h
  simp at hset

end PathService

namespace PathHistory
variable {h h' : PathHistory}

/-- The invariant of a history. -/
structure Kept (h : PathHistory) : Prop where
  sets : h.service.Shapes (PathSet.Held h.issued h.asked)
  ids : Issued h.service.seq h.issued
  saved : ∀ saved, h.saved = some saved → ∀ e ∈ saved.1,
    e.2.2.Held h.issued h.asked (e.1, e.2.1)

theorem kept_start : Kept {} where
  sets := PathService.shapes_empty
  ids := ⟨List.nodup_nil, fun _ hc => nomatch hc⟩
  saved _ hsaved := nomatch hsaved

theorem Kept.step (hkept : h.Kept) {call : PathCall} (hfits : h.Fits call)
    (hstep : h.step call = some h') : h'.Kept := by
  obtain ⟨hroom, hcall⟩ := hfits
  cases call with
  | request source dest max now =>
    cases hstep
    obtain ⟨hsets, hids⟩ := PathService.request_held source dest max now hkept.sets hkept.ids
      (by omega)
    exact ⟨hsets, hids, fun saved hsaved e he => (hkept.saved saved hsaved e he).mono
      (fun c hc => List.mem_append_left _ hc) fun a ha => List.mem_append_left _ ha⟩
  | withdrawNode o node =>
    cases hstep
    obtain ⟨hsets, hseq⟩ := PathService.withdrawNode_held o node hkept.sets
    exact ⟨hsets, hseq ▸ hkept.ids, hkept.saved⟩
  | withdrawRelay o node =>
    cases hstep
    obtain ⟨hsets, hseq⟩ := PathService.withdrawRelay_held o node hkept.sets
    exact ⟨hsets, hseq ▸ hkept.ids, hkept.saved⟩
  | setRelays relays =>
    cases hstep
    exact ⟨hkept.sets, hkept.ids, hkept.saved⟩
  | expandRelayCandidates o now =>
    cases hstep
    have hlen : (o.keys h.service.map).length = h.service.map.size := by
      rw [HashOrder.keys, (o.perm _).length_eq, Std.ExtTreeMap.length_keys]
    obtain ⟨hsets, hids⟩ := PathService.expandRelayCandidates_held now (o.keys h.service.map)
      hkept.sets hkept.ids (by omega)
    exact ⟨hsets, hids, fun saved hsaved e he => (hkept.saved saved hsaved e he).mono
      (fun c hc => List.mem_append_left _ hc) fun a ha => ha⟩
  | persistent o =>
    cases hstep
    refine ⟨hkept.sets, hkept.ids, fun saved hsaved e he => ?_⟩
    cases hsaved
    exact hkept.sets _ _ (PathService.mem_persistent he)
  | restore =>
    obtain ⟨saved, hsaved, rfl⟩ := Option.map_eq_some_iff.mp hstep
    have hseq : saved.2 = h.service.seq := by
      rw [hsaved] at hcall
      simpa using hcall
    refine ⟨PathService.shapes_restore (hkept.saved saved hsaved), ?_, hkept.saved⟩
    change Issued saved.2 h.issued
    rw [hseq]
    exact hkept.ids

theorem path_ids_issued_once {calls : List PathCall}
    (hfits : Transition.Meets step Fits {} calls) (hrun : Transition.run step {} calls = some h) :
    (h.issued.map PathCandidate.pathId).Nodup ∧
    (∀ c ∈ h.issued, c.pathId ≠ 0) ∧
    (∀ source dest set, h.service.map[(source, dest)]? = some set →
      (∃ max, ((source, dest), max) ∈ h.asked ∧ set.max = clampMax max ∧
        set.candidates.length ≤ (clampMax max).toNat) ∧
      ∀ c ∈ set.candidates, c ∈ h.issued ∧ (c.hops = [dest] ∨
        ∃ relay, relay ≠ source ∧ relay ≠ dest ∧ c.hops = [relay, dest])) ∧
    (∀ source dest max now set, h.service.map[(source, dest)]? = some set →
      set.expired now = false →
      (h.service.request source dest max now).1 = set.candidates ∧
      (h.service.request source dest max now).2.map = h.service.map ∧
      (h.service.request source dest max now).2.seq = h.service.seq ∧
      h.service.requestIssues source dest max now = []) := by
  have hkept : h.Kept :=
    Transition.invariant (fun _ _ _ hkept hfits hstep => hkept.step hfits hstep) kept_start
      hfits hrun
  refine ⟨hkept.ids.nodup, fun c hc hzero => ?_, fun source dest set hset => ?_,
    fun source dest max now set hset hlive => ?_⟩
  · have hpos := (hkept.ids.range c hc).1
    rw [hzero] at hpos
    exact absurd hpos (by decide)
  · have hheld := hkept.sets (source, dest) set hset
    obtain ⟨max, hasked, hmax⟩ := hheld.asked
    refine ⟨⟨max, hasked, hmax, ?_⟩, fun c hc => ⟨hheld.stored c hc, hheld.formed.hops c hc⟩⟩
    have hbudget := hheld.formed.budget
    rwa [hmax, clampMax_clampMax] at hbudget
  · obtain ⟨pending, hpushed⟩ := h.service.pushAll_eq
      (source :: dest :: usableRelays h.service.relays source dest) (.update source dest set)
    have hrequest := PathService.request_of_live hset hlive max
    have hafter : (h.service.request source dest max now).2 = { h.service with pending } := by
      rw [hrequest]
      exact hpushed
    refine ⟨congrArg Prod.fst hrequest, by rw [hafter], by rw [hafter], ?_⟩
    rw [PathService.requestIssues, hset, Option.any_some, hlive]
    rfl

/-- A set with a relay, whose relay then leaves and comes back after the state was saved and put
back. -/
def labCalls : List PathCall :=
  [.setRelays [3], .request 1 2 9 100, .withdrawRelay .ascending 3, .persistent .ascending,
    .restore, .expandRelayCandidates .ascending 101]

theorem path_ids_issued_once_lab :
    ∃ h, Transition.run step {} labCalls = some h ∧
      h.issued.map PathCandidate.pathId = [1, 2, 3] ∧
      (h.issued.map PathCandidate.pathId).Nodup := by
  have hcheck : ((Transition.run step {} labCalls).map fun h =>
      h.issued.map PathCandidate.pathId) = some [1, 2, 3] := by
    decide
  obtain ⟨h, hrun, hids⟩ := Option.map_eq_some_iff.mp hcheck
  exact ⟨h, hrun, hids, (path_ids_issued_once (by decide) hrun).1⟩

/-- Put back what was saved before an id was issued, and the id is issued again. -/
theorem reissued_after_restore :
    ∃ h, Transition.run step {} [.persistent .ascending, .request 1 2 2 100, .restore,
        .request 1 3 2 100] = some h ∧
      h.issued.map PathCandidate.pathId = [1, 1] ∧
      ¬ (h.issued.map PathCandidate.pathId).Nodup := by
  have hcheck : ((Transition.run step {} [.persistent .ascending, .request 1 2 2 100, .restore,
      .request 1 3 2 100]).map fun h => h.issued.map PathCandidate.pathId) = some [1, 1] := by
    decide
  obtain ⟨h, hrun, hids⟩ := Option.map_eq_some_iff.mp hcheck
  refine ⟨h, hrun, hids, ?_⟩
  rw [hids]
  decide

end PathHistory

end Rill
