import Rill.Table

/-!
# Tables with an index

`eraseAll` drops a list of keys from a table. An index finds the key of a table by a field of its
values. It is kept exact when a value comes in under a free key, when a value is replaced, and when
a value goes.
-/

namespace Table

variable {K V : Type} [Ord K] [Std.TransOrd K]

def eraseAll (ks : List K) (t : Table K V) : Table K V := ks.foldl (fun t k => t.erase k) t

variable [Std.LawfulEqOrd K] [DecidableEq K]

theorem getElem?_eraseAll (ks : List K) (t : Table K V) (k : K) :
    (eraseAll ks t)[k]? = if k ∈ ks then none else t[k]? := by
  induction ks generalizing t with
  | nil => rfl
  | cons j ks ih =>
    rw [eraseAll, List.foldl_cons]
    refine (ih (t.erase j)).trans ?_
    by_cases hk : k ∈ ks
    · simp [hk]
    · by_cases hj : j = k
      · simp [hj]
      · rw [if_neg hk, getElem?_erase_of_ne hj, if_neg]
        rintro (_ | hmem)
        · exact hj rfl
        · exact hk ‹_›

end Table

/-! ## A table with an index -/

namespace Table

variable {K I V : Type} [Ord K] [Std.TransOrd K] [Ord I] [Std.TransOrd I]

/-- An index entry leads to a value with its field, and every value is found by its field. -/
def IndexedBy (field : V → I) (t : Table K V) (ix : Table I K) : Prop :=
  ∀ i k, ix[i]? = some k ↔ ∃ v, t[k]? = some v ∧ field v = i

variable {field : V → I} {t : Table K V} {ix : Table I K} {k k' : K} {v v' : V}

theorem indexedBy_empty : IndexedBy field (∅ : Table K V) ∅ := by
  intro i k
  simp

theorem erase_insert_of_new [Std.LawfulEqOrd K] [DecidableEq K] (h : t[k]? = none) :
    (t.insert k v).erase k = t := by
  refine Std.ExtTreeMap.ext_getElem? fun a => ?_
  rw [getElem?_erase, getElem?_insert]
  split_ifs with ha
  · rw [← ha, h]
  · rfl

namespace IndexedBy

theorem index (h : IndexedBy field t ix) (hv : t[k]? = some v) : ix[field v]? = some k :=
  (h _ _).mpr ⟨v, hv, rfl⟩

theorem injective (h : IndexedBy field t ix) (hv : t[k]? = some v) (hv' : t[k']? = some v')
    (heq : field v = field v') : k = k' := by
  have hindex := h.index hv
  rw [heq, h.index hv'] at hindex
  exact (Option.some.inj hindex).symm

variable [Std.LawfulEqOrd K] [DecidableEq K]

theorem update (h : IndexedBy field t ix) (hv : t[k]? = some v) (hfield : field v' = field v) :
    IndexedBy field (t.insert k v') ix := by
  intro i j
  rw [h i j, getElem?_insert]
  by_cases hj : k = j
  · subst hj
    simp [hv, hfield]
  · simp [hj]

variable [Std.LawfulEqOrd I] [DecidableEq I]

theorem insert_new (h : IndexedBy field t ix) (hk : t[k]? = none) (hfree : ix[field v]? = none) :
    IndexedBy field (t.insert k v) (ix.insert (field v) k) := by
  intro i j
  rw [getElem?_insert, getElem?_insert]
  by_cases hi : field v = i
  · rw [if_pos hi]
    by_cases hj : k = j
    · simp [hj, hi]
    · rw [if_neg hj]
      refine iff_of_false (fun heq => hj (Option.some.inj heq)) ?_
      rintro ⟨w, hw, hfield⟩
      rw [hi, ← hfield, h.index hw] at hfree
      nomatch hfree
  · rw [if_neg hi, h i j]
    by_cases hj : k = j
    · subst hj
      simp [hk, hi]
    · simp [hj]

theorem erase (h : IndexedBy field t ix) (hv : t[k]? = some v) :
    IndexedBy field (t.erase k) (ix.erase (field v)) := by
  intro i j
  rw [getElem?_erase, getElem?_erase]
  by_cases hi : field v = i
  · rw [if_pos hi]
    by_cases hj : k = j
    · simp [hj]
    · rw [if_neg hj]
      refine iff_of_false (fun hnone => nomatch hnone) ?_
      rintro ⟨w, hw, hfield⟩
      exact hj (h.injective hv hw (hi.trans hfield.symm))
  · rw [if_neg hi, h i j]
    by_cases hj : k = j
    · subst hj
      simp [hv, hi]
    · simp [hj]

theorem rekey (h : IndexedBy field t ix) (hv : t[k]? = some v)
    (hfree : ∀ j, ix[field v']? = some j → j = k) :
    IndexedBy field (t.insert k v') ((ix.erase (field v)).insert (field v') k) := by
  have hnew : (ix.erase (field v))[field v']? = none := by
    rw [getElem?_erase]
    split_ifs with heq
    · rfl
    · cases hix : ix[field v']? with
      | none => rfl
      | some j =>
        obtain ⟨w, hw, hfield⟩ := (h _ _).mp hix
        rw [hfree j hix, hv] at hw
        exact absurd (Option.some.inj hw ▸ hfield) heq
  have hinsert := (h.erase hv).insert_new (k := k) (v := v')
    (by rw [getElem?_erase, if_pos rfl]) hnew
  have htable : (Std.ExtTreeMap.erase t k).insert k v' = t.insert k v' := by
    refine Std.ExtTreeMap.ext_getElem? fun j => ?_
    rw [getElem?_insert, getElem?_insert, getElem?_erase]
    split_ifs <;> rfl
  rwa [htable] at hinsert

end IndexedBy

end Table
