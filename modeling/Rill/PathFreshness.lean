import Rill.PathIssue

/-!
# The age of the paths a request returns

A stored set is returned as long as one of its candidates is alive. The direct candidate is made
with the set and the relay candidates then or later, so it is the first to expire; where an
expansion has added a younger one, the set is still returned, with the expired direct candidate in
it.
-/

namespace Rill

namespace PathCandidate

def outdated (c : PathCandidate) (now : UInt64) : Bool := c.expiresAt != 0 && now > c.expiresAt

theorem outdated_eq_false {c : PathCandidate} {now : UInt64} (h : now ≤ c.expiresAt) :
    c.outdated now = false := by
  rw [outdated, Bool.and_eq_false_iff]
  exact .inr (decide_eq_false (UInt64.not_lt.mpr h))

theorem le_of_outdated_eq_false {c : PathCandidate} {now : UInt64} (hc : c.expiresAt ≠ 0)
    (h : c.outdated now = false) : now ≤ c.expiresAt := by
  rw [outdated, Bool.and_eq_false_iff] at h
  refine UInt64.not_lt.mp (of_decide_eq_false (h.resolve_left ?_))
  simpa using hc

end PathCandidate

/-- What a request returns can be used: no candidate has expired, and one is direct. -/
structure Usable (candidates : List PathCandidate) (dest : UInt32) (now : UInt64) : Prop where
  alive : ∀ c ∈ candidates, c.outdated now = false
  direct : ∃ c ∈ candidates, c.hops = [dest]

/-- The direct candidates of the set are alive as long as any candidate is. -/
def PathSet.DirectAlive (set : PathSet) (dest : UInt32) (now : UInt64) : Prop :=
  set.expired now = true ∨ ∀ c ∈ set.candidates, c.hops = [dest] → c.outdated now = false

/-! ## Histories with a clock -/

inductive PathAct where
  | call (call : PathCall)
  | takeEvents (source : UInt32)

def PathCall.time? : PathCall → Option UInt64
  | .request _ _ _ now => some now
  | .expandRelayCandidates _ now => some now
  | _ => none

/-- A path service with the time of the last call that has one. -/
structure PathTimeline where
  history : PathHistory := {}
  clock : UInt64 := 0

namespace PathTimeline

def step (t : PathTimeline) : PathAct → Option PathTimeline
  | .call call => (t.history.step call).map fun history =>
      { history, clock := call.time?.getD t.clock }
  | .takeEvents source => some { t with history := { t.history with
      service := (t.history.service.takeEvents source).2 } }

/-- The time does not go back, and the lease of a path that is made now ends in 64 bits. -/
def Timely (t : PathTimeline) : PathAct → Prop
  | .call call => (call.time?.all fun now =>
      t.clock ≤ now ∧ now.toNat + pathDefaultTtl.toNat < 2 ^ 64) = true
  | .takeEvents _ => True

instance (t : PathTimeline) (a : PathAct) : Decidable (t.Timely a) := by
  unfold Timely
  split <;> infer_instance

end PathTimeline

/-! ## The age of the candidates of a set -/

/-- Every candidate was made by `clock`, the direct ones first. -/
structure PathSet.Aged (clock : UInt64) (key : UInt32 × UInt32) (set : PathSet) : Prop where
  formed : set.Formed key
  made : ∀ c ∈ set.candidates, 0 < c.expiresAt.toNat ∧
    c.expiresAt.toNat ≤ clock.toNat + pathDefaultTtl.toNat
  first : ∀ c ∈ set.candidates, c.hops = [key.2] → ∀ c' ∈ set.candidates,
    c.expiresAt ≤ c'.expiresAt

theorem toNat_lease {now : UInt64} (h : now.toNat + pathDefaultTtl.toNat < 2 ^ 64) :
    (now + pathDefaultTtl).toNat = now.toNat + pathDefaultTtl.toNat := by
  rw [UInt64.toNat_add, Nat.mod_eq_of_lt h]

namespace PathService
variable {dest : UInt32} {expiresAt seq : UInt64} {budget : ℕ} {relays : List UInt32}
  {candidates : List PathCandidate} {c : PathCandidate}

theorem new_of_mem_requestRelays
    (h : c ∈ (requestRelays dest expiresAt budget relays candidates seq).1) :
    c ∈ candidates ∨ c.expiresAt = expiresAt := by
  induction relays generalizing candidates seq with
  | nil => exact .inl h
  | cons relay relays ih =>
    have hnew : c ∈ candidates ++ [.viaRelay (seq + 1) relay dest expiresAt] →
        c ∈ candidates ∨ c.expiresAt = expiresAt := by
      intro hc
      refine (List.mem_append.mp hc).imp id fun hc => ?_
      rw [List.mem_singleton.mp hc]
      rfl
    rw [requestRelays] at h
    split_ifs at h
    · exact hnew h
    · exact (ih h).elim hnew .inr

end PathService

namespace PathSet
variable {dest : UInt32} {expiresAt seq clock now : UInt64} {budget : ℕ} {relays : List UInt32}
  {candidates : List PathCandidate} {c : PathCandidate} {set set' : PathSet}
  {key : UInt32 × UInt32}

theorem new_of_mem_fillRelays
    (h : c ∈ (fillRelays dest expiresAt budget relays candidates seq).1) :
    c ∈ candidates ∨ c.expiresAt = expiresAt ∧ c.hops ≠ [dest] := by
  induction relays generalizing candidates seq with
  | nil => exact .inl h
  | cons relay relays ih =>
    rw [fillRelays] at h
    split_ifs at h
    · exact .inl h
    · exact ih h
    · refine (ih h).elim (fun hc => ?_) .inr
      refine (List.mem_append.mp hc).imp id fun hc => ?_
      rw [List.mem_singleton.mp hc]
      exact ⟨rfl, by simp [PathCandidate.viaRelay]⟩

theorem Aged.mono (h : set.Aged clock key) (hclock : clock ≤ now) : set.Aged now key where
  formed := h.formed
  made c hc := ⟨(h.made c hc).1, (h.made c hc).2.trans
    (Nat.add_le_add_right (UInt64.le_iff_toNat_le.mp hclock) _)⟩
  first := h.first

theorem Aged.trimmed {node : UInt32} (h : set.Aged clock key)
    (htrim : set.trimmed node = some set') : set'.Aged clock key := by
  obtain ⟨hformed, -, hsub⟩ := h.formed.trimmed htrim
  exact ⟨hformed, fun c hc => h.made c (hsub c hc),
    fun c hc hhops c' hc' => h.first c (hsub c hc) hhops c' (hsub c' hc')⟩

theorem Aged.rebuilt (h : set.Aged clock key) (hclock : clock ≤ now)
    (hnow : now.toNat + pathDefaultTtl.toNat < 2 ^ 64) (relays : List UInt32) (seq : UInt64) :
    (set.rebuilt (usableRelays relays key.1 key.2) now key.2 seq).1.Aged now key := by
  have hlease := toNat_lease hnow
  have hclock' := UInt64.le_iff_toNat_le.mp hclock
  obtain ⟨-, -, -, -, -, hformed⟩ := h.formed.rebuilt relays now seq
  have hmem : ∀ c ∈ (set.rebuilt (usableRelays relays key.1 key.2) now key.2 seq).1.candidates,
      c ∈ set.candidates ∨ c.expiresAt = now + pathDefaultTtl ∧ c.hops ≠ [key.2] := by
    intro c hc
    obtain ⟨c₀, hc₀, hhops⟩ := h.formed.direct
    have hkept : c₀ ∈ set.keptDirect := List.mem_filter.mpr ⟨hc₀, by rw [hhops]; rfl⟩
    have hdirect : set.keptDirect.isEmpty = false :=
      List.isEmpty_eq_false_iff.mpr (List.ne_nil_of_mem hkept)
    simp only [PathSet.rebuilt, hdirect, Bool.false_eq_true, if_false] at hc
    refine (new_of_mem_fillRelays hc).imp (fun hc => ?_) id
    exact (List.mem_append.mp hc).elim List.mem_of_mem_filter List.mem_of_mem_filter
  refine ⟨hformed, fun c hc => ?_, fun c hc hhops c' hc' => ?_⟩
  · rcases hmem c hc with hold | ⟨heq, -⟩
    · have hmade := h.made c hold
      omega
    · rw [heq, hlease]
      exact ⟨Nat.add_pos_right _ (by decide), le_rfl⟩
  · have hold : c ∈ set.candidates := (hmem c hc).resolve_right fun hnew => hnew.2 hhops
    rcases hmem c' hc' with hold' | ⟨heq, -⟩
    · exact h.first c hold hhops c' hold'
    · rw [heq, UInt64.le_iff_toNat_le, hlease]
      have hmade := h.made c hold
      omega

end PathSet

namespace PathService
variable {s : PathService} {clock now : UInt64}

theorem expiresAt_of_mem_freshSet {source dest max : UInt32} {c : PathCandidate}
    (h : c ∈ (s.freshSet source dest max now).1.candidates) :
    c.expiresAt = now + pathDefaultTtl := by
  rcases new_of_mem_requestRelays h with hc | hc
  · rw [List.mem_singleton.mp hc]
    rfl
  · exact hc

theorem shapes_request (hs : s.Shapes (PathSet.Aged now))
    (hnow : now.toNat + pathDefaultTtl.toNat < 2 ^ 64) (source dest max : UInt32) :
    (s.request source dest max now).2.Shapes (PathSet.Aged now) := by
  cases hlive : (s.map[(source, dest)]?).any fun set => !set.expired now with
  | true =>
    obtain ⟨set, hset, hexpired⟩ := (Option.any_eq_true _ _).mp hlive
    rw [request_of_live hset (by simpa using hexpired)]
    obtain ⟨p, hp⟩ := s.pushAll_eq (source :: dest :: usableRelays s.relays source dest)
      (.update source dest set)
    dsimp only [pushToParticipants]
    rw [hp]
    exact hs
  | false =>
    rw [request_of_expired hlive]
    obtain ⟨hformed, -⟩ := s.freshSet_spec source dest max now
    refine shapes_insert hs ⟨hformed, fun c hc => ?_, fun c hc _ c' hc' => ?_⟩ rfl
    · rw [expiresAt_of_mem_freshSet hc, toNat_lease hnow]
      exact ⟨Nat.add_pos_right _ (by decide), le_rfl⟩
    · rw [expiresAt_of_mem_freshSet hc, expiresAt_of_mem_freshSet hc']
      exact UInt64.le_refl _

theorem shapes_expandSet (hs : s.Shapes (PathSet.Aged now))
    (hnow : now.toNat + pathDefaultTtl.toNat < 2 ^ 64) (key : UInt32 × UInt32) :
    (s.expandSet now key).Shapes (PathSet.Aged now) := by
  rw [expandSet]
  cases hold : s.map[key]? with
  | none => exact hs
  | some old =>
    dsimp only
    split_ifs
    · exact hs
    · rw [s.publish_eq key]
      have hset := (hs key old hold).rebuilt (UInt64.le_refl now) hnow s.relays s.seq
      exact shapes_insert hs hset rfl

theorem shapes_expand (hs : s.Shapes (PathSet.Aged now))
    (hnow : now.toNat + pathDefaultTtl.toNat < 2 ^ 64) (o : HashOrder (UInt32 × UInt32)) :
    (s.expandRelayCandidates o now).Shapes (PathSet.Aged now) := by
  have hkeys : ∀ (keys : List (UInt32 × UInt32)) {s : PathService}, s.Shapes (PathSet.Aged now) →
      (keys.foldl (fun s key => s.expandSet now key) s).Shapes (PathSet.Aged now) := by
    intro keys
    induction keys with
    | nil => exact fun hs => hs
    | cons key keys ih => exact fun hs => ih (shapes_expandSet hs hnow key)
  exact hkeys _ hs

/-- What a request answers can be used if and only if the direct candidates of the set it finds are
alive with the others. -/
theorem usable_request_iff (hs : s.Shapes (PathSet.Aged clock))
    (hnow : now.toNat + pathDefaultTtl.toNat < 2 ^ 64) (source dest max : UInt32) :
    Usable (s.request source dest max now).1 dest now ↔
      ∀ set, s.map[(source, dest)]? = some set → set.DirectAlive dest now := by
  cases hlive : (s.map[(source, dest)]?).any fun set => !set.expired now with
  | true =>
    obtain ⟨set, hset, hexpired⟩ := (Option.any_eq_true _ _).mp hlive
    have hexpired : set.expired now = false := by simpa using hexpired
    have haged := hs _ set hset
    rw [request_of_live hset hexpired]
    constructor
    · intro h set' hset'
      cases hset.symm.trans hset'
      exact .inr fun c hc _ => h.alive c hc
    · intro h
      have hdirect := (h set hset).resolve_left (by rw [hexpired]; exact Bool.false_ne_true)
      obtain ⟨c, hc, hhops⟩ := haged.formed.direct
      refine ⟨fun c' hc' => ?_, c, hc, hhops⟩
      have hne : c.expiresAt ≠ 0 := fun heq => by
        have hpos := (haged.made c hc).1
        rw [heq] at hpos
        exact absurd hpos (by decide)
      have hle := PathCandidate.le_of_outdated_eq_false hne (hdirect c hc hhops)
      exact PathCandidate.outdated_eq_false (UInt64.le_trans hle (haged.first c hc hhops c' hc'))
  | false =>
    rw [request_of_expired hlive]
    refine iff_of_true ⟨fun c hc => ?_, ?_⟩ fun set hset => ?_
    · refine PathCandidate.outdated_eq_false ?_
      rw [expiresAt_of_mem_freshSet hc, UInt64.le_iff_toNat_le, toNat_lease hnow]
      exact Nat.le_add_right _ _
    · exact (s.freshSet_spec source dest max now).1.direct
    · rw [hset] at hlive
      exact .inl (by simpa using hlive)

end PathService

namespace PathTimeline
variable {t t' : PathTimeline} {a : PathAct}

structure Aged (t : PathTimeline) : Prop where
  sets : t.history.service.Shapes (PathSet.Aged t.clock)
  saved : ∀ saved, t.history.saved = some saved → ∀ e ∈ saved.1,
    e.2.2.Aged t.clock (e.1, e.2.1)

theorem aged_start : Aged {} where
  sets := PathService.shapes_empty
  saved _ hsaved := nomatch hsaved

theorem Aged.mono {clock : UInt64} (h : t.Aged) (hclock : t.clock ≤ clock) :
    Aged { t with clock } where
  sets key set hset := (h.sets key set hset).mono hclock
  saved saved hsaved e he := (h.saved saved hsaved e he).mono hclock

theorem Aged.step (h : t.Aged) (htimely : t.Timely a) (hstep : t.step a = some t') : t'.Aged := by
  cases a with
  | takeEvents source =>
    cases hstep
    exact ⟨h.sets, h.saved⟩
  | call call =>
    obtain ⟨history, hcall, rfl⟩ := Option.map_eq_some_iff.mp hstep
    cases call with
    | request source dest max now =>
      obtain ⟨hclock, hnow⟩ := of_decide_eq_true htimely
      cases hcall
      have hlater := h.mono hclock
      exact ⟨PathService.shapes_request hlater.sets hnow source dest max, hlater.saved⟩
    | withdrawNode o node =>
      cases hcall
      refine ⟨fun key set hset => ?_, h.saved⟩
      dsimp only at hset
      rw [(PathService.erase_eq_iff.mp (PathService.erase_withdrawNode _ o node)).1,
        Std.ExtTreeMap.getElem?_filterMap'] at hset
      obtain ⟨old, hold, hpurge⟩ := Option.bind_eq_some_iff.mp hset
      rw [PathSet.purged] at hpurge
      split_ifs at hpurge
      exact (h.sets key old hold).trimmed hpurge
    | withdrawRelay o node =>
      cases hcall
      refine ⟨fun key set hset => ?_, h.saved⟩
      dsimp only at hset
      rw [(PathService.erase_eq_iff.mp (PathService.erase_withdrawRelay _ o node)).1,
        Std.ExtTreeMap.getElem?_filterMap'] at hset
      obtain ⟨old, hold, htrim⟩ := Option.bind_eq_some_iff.mp hset
      exact (h.sets key old hold).trimmed htrim
    | setRelays relays =>
      cases hcall
      exact ⟨h.sets, h.saved⟩
    | expandRelayCandidates o now =>
      obtain ⟨hclock, hnow⟩ := of_decide_eq_true htimely
      cases hcall
      have hlater := h.mono hclock
      exact ⟨PathService.shapes_expand hlater.sets hnow o, hlater.saved⟩
    | persistent o =>
      cases hcall
      refine ⟨h.sets, fun saved hsaved e he => ?_⟩
      cases hsaved
      exact h.sets _ _ (PathService.mem_persistent he)
    | restore =>
      obtain ⟨saved, hsaved, rfl⟩ := Option.map_eq_some_iff.mp hcall
      exact ⟨PathService.shapes_restore (h.saved saved hsaved), h.saved⟩

/-- Whatever calls were made before, at times that do not go back: a request returns unexpired
candidates, one of them direct, if and only if no direct candidate of the set it finds has expired
before another one. -/
theorem requested_paths_usable_iff {acts : List PathAct}
    (htimely : Transition.Meets step Timely {} acts) (hrun : Transition.run step {} acts = some t)
    (source dest max : UInt32) {now : UInt64}
    (hnow : t.Timely (.call (.request source dest max now))) :
    Usable (t.history.service.request source dest max now).1 dest now ↔
      ∀ set, t.history.service.map[(source, dest)]? = some set → set.DirectAlive dest now := by
  have haged : t.Aged :=
    Transition.invariant (fun _ _ _ hs hg ht => hs.step hg ht) aged_start htimely hrun
  exact PathService.usable_request_iff haged.sets (of_decide_eq_true hnow).2 source dest max

section Lab

/-- Paths from 1 to 2 are asked for at 1000, and a relay comes in later. -/
def labAging (later : UInt64) : List PathAct :=
  [.call (.request 1 2 4 1000), .call (.setRelays [3]),
   .call (.expandRelayCandidates .ascending later)]

theorem lab_requested_paths_usable :
    ∃ t, Transition.run step {} (labAging 2000) = some t ∧
      Usable (t.history.service.request 1 2 4 4600).1 2 4600 := by
  have hcheck : (Transition.run step {} (labAging 2000)).any (fun t =>
      t.Timely (.call (.request 1 2 4 4600)) ∧
        ((t.history.service.map[((1 : UInt32), (2 : UInt32))]?).all fun set =>
          set.candidates.all fun c => !c.outdated 4600)) = true := by
    decide
  obtain ⟨t, ht, hcheck⟩ := (Option.any_eq_true _ _).mp hcheck
  obtain ⟨hnow, halive⟩ := of_decide_eq_true hcheck
  refine ⟨t, ht, (requested_paths_usable_iff (by decide) ht 1 2 4 hnow).mpr
    fun set hset => .inr fun c hc _ => ?_⟩
  rw [hset, Option.all_some, List.all_eq_true] at halive
  simpa using halive c hc

/-- A relay comes in at 4000. At 5000 the direct path has expired; it is returned all the same, as
the only direct one. -/
theorem lab_expired_path_returned :
    ∃ t, Transition.run step {} (labAging 4000) = some t ∧
      Transition.Meets step Timely {} (labAging 4000 ++ [.call (.request 1 2 4 5000)]) ∧
      (t.history.service.request 1 2 4 5000).1.map
        (fun c => (c.hops, c.expiresAt, c.outdated 5000)) =
          [([2], 4600, true), ([3, 2], 7600, false)] := by
  have hcheck : (Transition.run step {} (labAging 4000)).any (fun t =>
      (t.history.service.request 1 2 4 5000).1.map
        (fun c => (c.hops, c.expiresAt, c.outdated 5000)) =
          [([2], 4600, true), ([3, 2], 7600, false)]) = true := by
    decide
  obtain ⟨t, ht, hcheck⟩ := (Option.any_eq_true _ _).mp hcheck
  exact ⟨t, ht, by decide, of_decide_eq_true hcheck⟩

end Lab

end PathTimeline

end Rill
