import Mathlib

/-!
# Finite tables

A `Table` is a finite map over an ordered key type. Lookup after an update is decided by equality
of keys, which is the form every proof about a table uses.
-/

abbrev Table (K V : Type) [Ord K] := Std.ExtTreeMap K V compare

namespace Table

instance pairOrd {A B : Type} [Ord A] [Ord B] : Ord (A × B) := lexOrd

instance pairTransOrd {A B : Type} [Ord A] [Ord B] [Std.TransOrd A] [Std.TransOrd B] :
    Std.TransOrd (A × B) := inferInstanceAs (@Std.TransOrd (A × B) lexOrd)

instance pairLawfulEqOrd {A B : Type} [Ord A] [Ord B] [Std.LawfulEqOrd A] [Std.LawfulEqOrd B] :
    Std.LawfulEqOrd (A × B) := inferInstanceAs (@Std.LawfulEqOrd (A × B) lexOrd)

variable {K V : Type} [Ord K] [Std.TransOrd K] [Std.LawfulEqOrd K] [DecidableEq K]

theorem getElem?_insert (t : Table K V) (k a : K) (v : V) :
    (t.insert k v)[a]? = if k = a then some v else t[a]? := by
  rw [Std.ExtTreeMap.getElem?_insert]
  simp only [Std.compare_eq_iff_eq]

theorem getElem?_erase (t : Table K V) (k a : K) :
    (t.erase k)[a]? = if k = a then none else t[a]? := by
  rw [Std.ExtTreeMap.getElem?_erase]
  simp only [Std.compare_eq_iff_eq]

@[simp] theorem getElem?_insert_self (t : Table K V) (k : K) (v : V) :
    (t.insert k v)[k]? = some v := by
  rw [getElem?_insert, if_pos rfl]

@[simp] theorem getElem?_erase_self (t : Table K V) (k : K) : (t.erase k)[k]? = none := by
  rw [getElem?_erase, if_pos rfl]

theorem getElem?_insert_of_ne {t : Table K V} {k a : K} {v : V} (h : k ≠ a) :
    (t.insert k v)[a]? = t[a]? := by
  rw [getElem?_insert, if_neg h]

theorem getElem?_erase_of_ne {t : Table K V} {k a : K} (h : k ≠ a) : (t.erase k)[a]? = t[a]? := by
  rw [getElem?_erase, if_neg h]

theorem insert_eq_self_iff (t : Table K V) (k : K) (v : V) : t.insert k v = t ↔ t[k]? = some v := by
  constructor
  · intro h
    rw [← h, getElem?_insert_self]
  · intro h
    refine Std.ExtTreeMap.ext_getElem? fun a => ?_
    rw [getElem?_insert]
    split_ifs with hk
    · rw [← hk, h]
    · rfl

theorem erase_eq_self_iff (t : Table K V) (k : K) : t.erase k = t ↔ t[k]? = none := by
  constructor
  · intro h
    rw [← h, getElem?_erase_self]
  · intro h
    refine Std.ExtTreeMap.ext_getElem? fun a => ?_
    rw [getElem?_erase]
    split_ifs with hk
    · rw [← hk, h]
    · rfl

theorem getElem?_foldl_insert {B : Type} {key : B → K} {val : B → V} {l : List B}
    (hl : (l.map key).Nodup) (t : Table K V) (k : K) :
    (l.foldl (fun t b => t.insert (key b) (val b)) t)[k]? =
      ((l.find? fun b => key b = k).map val).or t[k]? := by
  induction l generalizing t with
  | nil => rfl
  | cons b l ih =>
    obtain ⟨hb, hl⟩ := List.nodup_cons.mp hl
    rw [List.foldl_cons, ih hl, getElem?_insert]
    by_cases hk : key b = k
    · have hnone : (l.find? fun b => key b = k) = none := by
        refine List.find?_eq_none.mpr fun b' hb' heq => hb ?_
        rw [hk, ← of_decide_eq_true heq]
        exact List.mem_map_of_mem hb'
      rw [hnone, if_pos hk, List.find?_cons, decide_eq_true hk]
      rfl
    · rw [if_neg hk, List.find?_cons, decide_eq_false hk]

theorem getElem?_foldl_insert_eq_some {B : Type} {key : B → K} {val : B → V} {l : List B}
    (hl : (l.map key).Nodup) {k : K} {v : V} :
    (l.foldl (fun t b => t.insert (key b) (val b)) (∅ : Table K V))[k]? = some v ↔
      ∃ b ∈ l, key b = k ∧ val b = v := by
  rw [getElem?_foldl_insert hl, Std.ExtTreeMap.getElem?_empty, Option.or_none,
    Option.map_eq_some_iff]
  constructor
  · rintro ⟨b, hfind, hv⟩
    exact ⟨b, List.mem_of_find?_eq_some hfind, by simpa using List.find?_some hfind, hv⟩
  · rintro ⟨b, hb, hk, hv⟩
    refine ⟨b, ?_, hv⟩
    have hsome : (l.find? fun b => key b = k).isSome := by simpa using ⟨b, hb, hk⟩
    obtain ⟨b', hb'⟩ := Option.isSome_iff_exists.mp hsome
    have hk' : key b' = k := by simpa using List.find?_some hb'
    rw [hb', List.inj_on_of_nodup_map hl (List.mem_of_find?_eq_some hb') hb (hk'.trans hk.symm)]

theorem foldl_insert_eq {B : Type} {key : B → K} {val : B → V} {l : List B} {t : Table K V}
    (hl : (l.map key).Nodup) (ht : ∀ k v, t[k]? = some v ↔ ∃ b ∈ l, key b = k ∧ val b = v) :
    l.foldl (fun t b => t.insert (key b) (val b)) ∅ = t := by
  refine Std.ExtTreeMap.ext_getElem? fun k => Option.ext fun v => ?_
  rw [getElem?_foldl_insert_eq_some hl, ht]

end Table
