import Rill.PathExpansion
import Rill.PathEffects

/-!
# Numbered path candidates

The loops that fill a path set put the next ids into the candidates they add and stop at the budget.
A formed set has its direct candidate, candidates over one relay and no more than the budget; it
stays so when it is rebuilt and when a node is taken out of it.
-/

namespace Rill

def idsAfter (seq : UInt64) : ℕ → List UInt64
  | 0 => []
  | n + 1 => (seq + 1) :: idsAfter (seq + 1) n

theorem toNat_succ64 {seq : UInt64} (h : seq.toNat + 1 < 2 ^ 64) :
    (seq + 1).toNat = seq.toNat + 1 := by
  rw [UInt64.toNat_add]
  exact Nat.mod_eq_of_lt h

theorem toNat_mem_idsAfter {seq : UInt64} {n : ℕ} (h : seq.toNat + n < 2 ^ 64) :
    ∀ id ∈ idsAfter seq n, seq.toNat < id.toNat ∧ id.toNat ≤ seq.toNat + n := by
  induction n generalizing seq with
  | zero => exact fun id hid => nomatch hid
  | succ n ih =>
    have hsucc : (seq + 1).toNat = seq.toNat + 1 := toNat_succ64 (by omega)
    intro id hid
    rcases List.mem_cons.mp hid with rfl | hid
    · omega
    · have hrest := ih (by omega) id hid
      omega

theorem nodup_idsAfter {seq : UInt64} {n : ℕ} (h : seq.toNat + n < 2 ^ 64) :
    (idsAfter seq n).Nodup := by
  induction n generalizing seq with
  | zero => exact List.nodup_nil
  | succ n ih =>
    have hsucc : (seq + 1).toNat = seq.toNat + 1 := toNat_succ64 (by omega)
    refine List.nodup_cons.mpr ⟨fun hid => ?_, ih (by omega)⟩
    have hlater := toNat_mem_idsAfter (by omega) _ hid
    omega

/-! ## New candidates -/

/-- The candidates carry the next ids, in order. -/
def NumberedFrom (seq : UInt64) (cs : List PathCandidate) : Prop :=
  cs.map PathCandidate.pathId = idsAfter seq cs.length

theorem NumberedFrom.cons {seq : UInt64} {c : PathCandidate} {cs : List PathCandidate}
    (hc : c.pathId = seq + 1) (hcs : NumberedFrom (seq + 1) cs) : NumberedFrom seq (c :: cs) := by
  rw [NumberedFrom, List.map_cons, List.length_cons, idsAfter, hc, hcs]

theorem ofNat_succ_length (seq : UInt64) (c : PathCandidate) (cs : List PathCandidate) :
    seq + 1 + UInt64.ofNat cs.length = seq + UInt64.ofNat (c :: cs).length := by
  rw [List.length_cons, UInt64.ofNat_add, add_comm (UInt64.ofNat cs.length), ← add_assoc]
  rfl

/-- A set as the service keeps it: one path is direct, the others lead over a relay that is no end
of the path, and there are no more than the budget allows. -/
structure PathSet.Formed (key : UInt32 × UInt32) (set : PathSet) : Prop where
  direct : ∃ c ∈ set.candidates, c.hops = [key.2]
  hops : ∀ c ∈ set.candidates, c.hops = [key.2] ∨
    ∃ relay, relay ≠ key.1 ∧ relay ≠ key.2 ∧ c.hops = [relay, key.2]
  budget : set.candidates.length ≤ (clampMax set.max).toNat

theorem two_le_clampMax (max : UInt32) : 2 ≤ (clampMax max).toNat := by
  unfold clampMax
  split_ifs with h₁ h₂
  · decide
  · decide
  · exact UInt32.le_iff_toNat_le.mp (UInt32.not_lt.mp h₁)

theorem clampMax_clampMax (max : UInt32) : clampMax (clampMax max) = clampMax max := by
  unfold clampMax
  split_ifs with h₁ h₂ <;> first | rfl | contradiction

theorem hops_of_offered {relays : List UInt32} (key : UInt32 × UInt32) {c : PathCandidate}
    (h : c.Offered (usableRelays relays key.1 key.2) key.2) : c.hops = [key.2] ∨
      ∃ relay, relay ≠ key.1 ∧ relay ≠ key.2 ∧ c.hops = [relay, key.2] := by
  rcases h with h | ⟨relay, hrelay, h⟩
  · exact Or.inl h
  · have husable := (List.mem_filter.mp hrelay).2
    rw [Bool.and_eq_true, bne_iff_ne, bne_iff_ne] at husable
    exact Or.inr ⟨relay, husable.1, husable.2, h⟩

namespace PathService

theorem requestRelays_split (dest : UInt32) (expiresAt : UInt64) (budget : ℕ)
    (relays : List UInt32) (candidates : List PathCandidate) (seq : UInt64) :
    ∃ new, requestRelays dest expiresAt budget relays candidates seq =
        (candidates ++ new, seq + UInt64.ofNat new.length) ∧ NumberedFrom seq new ∧
      (candidates.length < budget → (candidates ++ new).length ≤ budget) := by
  induction relays generalizing candidates seq with
  | nil => exact ⟨[], by simp [requestRelays], rfl, fun h => by simpa using h.le⟩
  | cons relay relays ih =>
    rw [requestRelays]
    split_ifs with hfull
    · refine ⟨[.viaRelay (seq + 1) relay dest expiresAt], rfl, NumberedFrom.cons rfl rfl,
        fun h => ?_⟩
      rw [List.length_append, List.length_singleton]
      exact h
    · obtain ⟨new, heq, hids, hbudget⟩ :=
        ih (candidates ++ [.viaRelay (seq + 1) relay dest expiresAt]) (seq + 1)
      refine ⟨.viaRelay (seq + 1) relay dest expiresAt :: new, ?_, .cons rfl hids, fun _ => ?_⟩
      · rw [heq, List.append_assoc, List.singleton_append, ofNat_succ_length]
      · have hle := hbudget (not_le.mp hfull)
        rwa [List.append_assoc, List.singleton_append] at hle

end PathService

namespace PathSet

theorem numbered_fillRelays (dest : UInt32) (expiresAt : UInt64) (budget : ℕ)
    (relays : List UInt32) (candidates : List PathCandidate) (seq : UInt64) :
    ∃ new, fillRelays dest expiresAt budget relays candidates seq =
        (candidates ++ new, seq + UInt64.ofNat new.length) ∧ NumberedFrom seq new ∧
      new.length ≤ budget - candidates.length := by
  induction relays generalizing candidates seq with
  | nil => exact ⟨[], by simp [fillRelays], rfl, Nat.zero_le _⟩
  | cons relay relays ih =>
    rw [fillRelays]
    split_ifs with hfull hstarts
    · exact ⟨[], by simp, rfl, Nat.zero_le _⟩
    · exact ih candidates seq
    · obtain ⟨new, heq, hids, hlen⟩ :=
        ih (candidates ++ [.viaRelay (seq + 1) relay dest expiresAt]) (seq + 1)
      refine ⟨.viaRelay (seq + 1) relay dest expiresAt :: new, ?_, .cons rfl hids, ?_⟩
      · rw [heq, List.append_assoc, List.singleton_append, ofNat_succ_length]
      · rw [List.length_append, List.length_singleton] at hlen
        rw [List.length_cons]
        omega

theorem length_kept_le (set : PathSet) (relays : List UInt32) :
    (set.keptDirect ++ set.keptRelayed relays).length ≤ set.candidates.length := by
  have hsplit := List.length_eq_length_filter_add (l := set.candidates)
    fun c => c.hops.length == 1
  have hrelayed : (set.keptRelayed relays).length ≤
      (set.candidates.filter fun c => !(c.hops.length == 1)).length := by
    refine (List.monotone_filter_right set.candidates fun c hc => ?_).length_le
    have hlen := (Bool.and_eq_true_iff.mp hc).1
    simp only [decide_eq_true_eq] at hlen
    simp only [Bool.not_eq_true', beq_eq_false_iff_ne]
    omega
  rw [List.length_append]
  exact hsplit ▸ Nat.add_le_add_left hrelayed _

theorem Formed.rebuilt {key : UInt32 × UInt32} {set : PathSet} (h : set.Formed key)
    (relays : List UInt32) (now : UInt64) (seq : UInt64) :
    ∃ new, (set.rebuilt (usableRelays relays key.1 key.2) now key.2 seq).1.candidates =
        set.keptDirect ++ set.keptRelayed (usableRelays relays key.1 key.2) ++ new ∧
      (set.rebuilt (usableRelays relays key.1 key.2) now key.2 seq).2 =
        seq + UInt64.ofNat new.length ∧ NumberedFrom seq new ∧ new.length ≤ 4 ∧
      (set.rebuilt (usableRelays relays key.1 key.2) now key.2 seq).1.Formed key := by
  obtain ⟨c, hc, hhops⟩ := h.direct
  have hkept : c ∈ set.keptDirect := List.mem_filter.mpr ⟨hc, by rw [hhops]; rfl⟩
  have hdirect : set.keptDirect.isEmpty = false :=
    List.isEmpty_eq_false_iff.mpr (List.ne_nil_of_mem hkept)
  obtain ⟨new, heq, hids, hlen⟩ := numbered_fillRelays key.2 (now + pathDefaultTtl)
    (clampMax set.max).toNat (usableRelays relays key.1 key.2)
    (set.keptDirect ++ set.keptRelayed (usableRelays relays key.1 key.2)) seq
  have hcandidates : (set.rebuilt (usableRelays relays key.1 key.2) now key.2 seq).1.candidates =
      set.keptDirect ++ set.keptRelayed (usableRelays relays key.1 key.2) ++ new := by
    simp only [PathSet.rebuilt, hdirect, Bool.false_eq_true, if_false, heq]
  have hle := set.length_kept_le (usableRelays relays key.1 key.2)
  have hfour := clampMax_le set.max
  refine ⟨new, hcandidates, ?_, hids, by omega, ⟨c, ?_, hhops⟩, fun c' hc' => ?_, ?_⟩
  · simp only [PathSet.rebuilt, hdirect, Bool.false_eq_true, if_false, heq]
  · rw [hcandidates]
    exact List.mem_append_left _ (List.mem_append_left _ hkept)
  · rcases mem_rebuilt hc' with hold | hnew
    · exact h.hops c' hold
    · exact hops_of_offered key hnew
  · have hbudget := h.budget
    rw [hcandidates, List.length_append]
    change _ ≤ (clampMax set.max).toNat
    omega

theorem Formed.trimmed {key : UInt32 × UInt32} {set set' : PathSet} {node : UInt32}
    (h : set.Formed key) (htrim : set.trimmed node = some set') :
    set'.Formed key ∧ set'.max = set.max ∧ ∀ c ∈ set'.candidates, c ∈ set.candidates := by
  rw [PathSet.trimmed] at htrim
  dsimp only at htrim
  split_ifs at htrim with huses hempty
  · cases htrim
    have hsub : ∀ c ∈ set.candidates.filter (fun c => !c.hops.contains node), c ∈ set.candidates :=
      fun c hc => List.mem_of_mem_filter hc
    -- Every candidate leads to the destination, so what is left does not avoid it by chance.
    have hnode : key.2 ≠ node := by
      rintro rfl
      refine hempty (List.isEmpty_iff.mpr (List.filter_eq_nil_iff.mpr fun c hc => ?_))
      rcases h.hops c hc with hhops | ⟨relay, -, -, hhops⟩ <;> simp [hhops]
    obtain ⟨c, hc, hhops⟩ := h.direct
    refine ⟨⟨⟨c, List.mem_filter.mpr ⟨hc, ?_⟩, hhops⟩, fun c hc => h.hops c (hsub c hc),
      (List.length_filter_le _ _).trans h.budget⟩, rfl, hsub⟩
    simpa [hhops] using hnode.symm
  · cases htrim
    exact ⟨h, rfl, fun c hc => hc⟩

end PathSet

end Rill
