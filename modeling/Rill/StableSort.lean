import Mathlib

/-!
# Stable sorting by a key

`sortByKey key l` orders a list by a key and leaves elements with the same key in the order they
had. The result is determined by the classes of the list, one for each key: two lists with the
same classes have the same sorted list. A list that is only known up to permutation therefore has
one sorted list as soon as no two of its elements share a key.
-/

namespace StableSort
variable {α K : Type} [LinearOrder K] {key : α → K}

def sortByKey (key : α → K) (l : List α) : List α :=
  l.insertionSort fun a b => key a ≤ key b

/-- The elements of `l` with key `k`, in the order of `l`. -/
def keyClass (key : α → K) (k : K) (l : List α) : List α := l.filter fun a => key a = k

theorem mem_keyClass {k : K} {l : List α} {a : α} : a ∈ keyClass key k l ↔ a ∈ l ∧ key a = k := by
  simp [keyClass]

theorem perm_sortByKey (l : List α) : (sortByKey key l).Perm l :=
  List.perm_insertionSort _ l

@[simp] theorem length_sortByKey (l : List α) : (sortByKey key l).length = l.length :=
  (perm_sortByKey l).length_eq

theorem pairwise_sortByKey (l : List α) : (sortByKey key l).Pairwise fun a b => key a ≤ key b := by
  have : Std.Total fun a b : α => key a ≤ key b := ⟨fun a b => le_total (key a) (key b)⟩
  have : IsTrans α fun a b => key a ≤ key b := ⟨fun _ _ _ => le_trans⟩
  exact List.pairwise_insertionSort _ l

theorem keyClass_sortByKey (k : K) (l : List α) :
    keyClass key k (sortByKey key l) = keyClass key k l := by
  have hclass : (keyClass key k l).Pairwise fun a b => key a ≤ key b := by
    refine List.pairwise_of_forall_mem_list fun a ha b hb => ?_
    rw [(mem_keyClass.mp ha).2, (mem_keyClass.mp hb).2]
  have hsub : (keyClass key k l).Sublist (sortByKey key l) :=
    List.sublist_insertionSort hclass List.filter_sublist
  have hfilter : (keyClass key k l).Sublist (keyClass key k (sortByKey key l)) := by
    have h := hsub.filter fun a => key a = k
    simpa only [keyClass, List.filter_filter, Bool.and_self] using h
  have hlen : (keyClass key k (sortByKey key l)).length = (keyClass key k l).length :=
    ((perm_sortByKey l).filter _).length_eq
  exact (hfilter.eq_of_length hlen.symm).symm

theorem pairwise_of_keyClass {R : α → α → Prop} {l : List α}
    (h : l.Pairwise fun a b => key a ≤ key b) (hclass : ∀ k, (keyClass key k l).Pairwise R) :
    l.Pairwise fun a b => key a < key b ∨ key a = key b ∧ R a b := by
  induction l with
  | nil => exact .nil
  | cons a l ih =>
    obtain ⟨ha, hl⟩ := List.pairwise_cons.mp h
    refine List.pairwise_cons.mpr ⟨fun b hb => (ha b hb).lt_or_eq.imp_right fun heq => ⟨heq, ?_⟩,
      ih hl fun k => ?_⟩
    · have hk := hclass (key a)
      rw [keyClass, List.filter_cons_of_pos (by simp)] at hk
      exact (List.pairwise_cons.mp hk).1 b (mem_keyClass.mpr ⟨hb, heq.symm⟩)
    · have hk := hclass k
      rw [keyClass, List.filter_cons] at hk
      split_ifs at hk
      · exact (List.pairwise_cons.mp hk).2
      · exact hk

theorem pairwise_sortByKey_of_pairwise {R : α → α → Prop} {l : List α} (h : l.Pairwise R) :
    (sortByKey key l).Pairwise fun a b => key a < key b ∨ key a = key b ∧ R a b := by
  refine pairwise_of_keyClass (pairwise_sortByKey l) fun k => ?_
  rw [keyClass_sortByKey]
  exact h.filter _

theorem find?_sortByKey (k : K) (l : List α) :
    (sortByKey key l).find? (fun a => key a = k) = l.find? fun a => key a = k := by
  have h : (keyClass key k (sortByKey key l)).head? = (keyClass key k l).head? :=
    congrArg List.head? (keyClass_sortByKey k l)
  rwa [keyClass, keyClass, List.head?_filter, List.head?_filter] at h

theorem eq_of_keyClass_eq {l₁ l₂ : List α} (h₁ : l₁.Pairwise fun a b => key a ≤ key b)
    (h₂ : l₂.Pairwise fun a b => key a ≤ key b)
    (h : ∀ k, keyClass key k l₁ = keyClass key k l₂) : l₁ = l₂ := by
  induction l₁ generalizing l₂ with
  | nil =>
    refine (List.eq_nil_iff_forall_not_mem.mpr fun b hb => ?_).symm
    have hmem : b ∈ keyClass key (key b) l₂ := mem_keyClass.mpr ⟨hb, rfl⟩
    rw [← h (key b)] at hmem
    exact List.not_mem_nil (mem_keyClass.mp hmem).1
  | cons a l₁ ih =>
    cases l₂ with
    | nil =>
      have hmem : a ∈ keyClass key (key a) (a :: l₁) :=
        mem_keyClass.mpr ⟨List.mem_cons_self, rfl⟩
      rw [h (key a)] at hmem
      exact absurd (mem_keyClass.mp hmem).1 List.not_mem_nil
    | cons b l₂ =>
      obtain ⟨ha, hl₁⟩ := List.pairwise_cons.mp h₁
      obtain ⟨hb, hl₂⟩ := List.pairwise_cons.mp h₂
      -- each head is least in the other list, so the heads have one key and lead the same class
      have hmem : ∀ c, c ∈ a :: l₁ ↔ c ∈ b :: l₂ := by
        intro c
        have hc := congrArg (c ∈ ·) (h (key c))
        simpa only [mem_keyClass, and_true, eq_iff_iff] using hc
      have hkey : key a = key b := by
        apply le_antisymm
        · rcases List.mem_cons.mp ((hmem b).mpr List.mem_cons_self) with rfl | hin
          · exact le_rfl
          · exact ha b hin
        · rcases List.mem_cons.mp ((hmem a).mp List.mem_cons_self) with rfl | hin
          · exact le_rfl
          · exact hb a hin
      have hhead := h (key a)
      rw [keyClass, keyClass, List.filter_cons_of_pos (by simp),
        List.filter_cons_of_pos (by simp [hkey])] at hhead
      obtain ⟨rfl, -⟩ := List.cons.inj hhead
      refine congrArg (a :: ·) (ih hl₁ hl₂ fun k => ?_)
      have hk := h k
      by_cases hak : key a = k
      · rw [keyClass, keyClass, List.filter_cons_of_pos (by simpa using hak),
          List.filter_cons_of_pos (by simpa using hak)] at hk
        exact (List.cons.inj hk).2
      · rwa [keyClass, keyClass, List.filter_cons_of_neg (by simpa using hak),
          List.filter_cons_of_neg (by simpa using hak)] at hk

theorem sortByKey_congr {l₁ l₂ : List α} (h : ∀ k, keyClass key k l₁ = keyClass key k l₂) :
    sortByKey key l₁ = sortByKey key l₂ := by
  refine eq_of_keyClass_eq (pairwise_sortByKey l₁) (pairwise_sortByKey l₂) fun k => ?_
  rw [keyClass_sortByKey, keyClass_sortByKey, h k]

theorem keyClass_eq_of_perm {l₁ l₂ : List α} (hp : l₁.Perm l₂)
    (hinj : ∀ a ∈ l₁, ∀ b ∈ l₁, key a = key b → a = b) (k : K) :
    keyClass key k l₁ = keyClass key k l₂ := by
  have hall : ∀ l : List α, l.Pairwise fun _ _ => True := fun l =>
    List.pairwise_of_forall fun _ _ => trivial
  refine List.Perm.eq_of_pairwise (fun a b ha hb _ _ => ?_) (hall _) (hall _) (hp.filter _)
  obtain ⟨ha, hka⟩ := mem_keyClass.mp ha
  obtain ⟨hb, hkb⟩ := mem_keyClass.mp hb
  exact hinj a ha b (hp.mem_iff.mpr hb) (hka.trans hkb.symm)

theorem sortByKey_eq_of_perm {l₁ l₂ : List α} (hp : l₁.Perm l₂)
    (hinj : ∀ a ∈ l₁, ∀ b ∈ l₁, key a = key b → a = b) : sortByKey key l₁ = sortByKey key l₂ :=
  sortByKey_congr (keyClass_eq_of_perm hp hinj)

theorem map_sortByKey {β : Type} (f : β → α) (l : List β) :
    (sortByKey (fun b => key (f b)) l).map f = sortByKey key (l.map f) :=
  List.map_insertionSort _ _ f l fun _ _ _ _ => Iff.rfl

/-! ## The first elements -/

theorem pairwise_lt_sortByKey {l : List α} (h : (l.map key).Nodup) :
    (sortByKey key l).Pairwise fun a b => key a < key b := by
  have hne : (sortByKey key l).Pairwise fun a b => key a ≠ key b :=
    List.pairwise_map.mp (((perm_sortByKey l).map key).nodup_iff.mpr h)
  exact ((pairwise_sortByKey l).and hne).imp fun hab => lt_of_le_of_ne hab.1 hab.2

theorem mem_take_iff {l : List α} (h : l.Pairwise fun a b => key a < key b) (k : ℕ) {a : α} :
    a ∈ l.take k ↔ a ∈ l ∧ (l.filter fun b => key b < key a).length < k := by
  induction l generalizing k with
  | nil => simp
  | cons b l ih =>
    obtain ⟨hb, hl⟩ := List.pairwise_cons.mp h
    cases k with
    | zero => simp
    | succ k =>
      rw [List.take_succ_cons, List.mem_cons, List.mem_cons, ih hl]
      by_cases hab : a = b
      · subst hab
        have hnone : l.filter (fun b => key b < key a) = [] :=
          List.filter_eq_nil_iff.mpr fun b hmem => by simpa using (hb b hmem).le
        simp [hnone]
      · rw [or_iff_right hab, or_iff_right hab]
        refine and_congr_right fun hmem => ?_
        rw [List.filter_cons_of_pos (by simpa using hb a hmem), List.length_cons,
          Nat.succ_lt_succ_iff]

theorem mem_take_sortByKey {l : List α} (h : (l.map key).Nodup) (k : ℕ) {a : α} :
    a ∈ (sortByKey key l).take k ↔ a ∈ l ∧ (l.filter fun b => key b < key a).length < k := by
  rw [mem_take_iff (pairwise_lt_sortByKey h), (perm_sortByKey l).mem_iff,
    ((perm_sortByKey l).filter _).length_eq]

end StableSort
