import Rill.Table

/-!
# Tables read in an unspecified order

A hash map hands out its entries in an order that depends on its seed and its history. A
`HashOrder` stands for one such order. Code that loops over a table takes the order as an argument,
and a result about the code holds for every order.

`PerEntry` describes the body of such a loop: a round reads and writes the entry of its own key, and
may advance a state that the rounds share, such as a counter.
-/

structure HashOrder (K : Type) where
  order : List K → List K
  perm : ∀ ks, (order ks).Perm ks

namespace HashOrder
variable {K V : Type}

def ascending : HashOrder K := ⟨id, fun _ => .refl _⟩

def descending : HashOrder K := ⟨List.reverse, List.reverse_perm⟩

/-- The order `o` with `a`, if it occurs, moved to the front. -/
def first [DecidableEq K] (o : HashOrder K) (a : K) : HashOrder K where
  order ks := if a ∈ o.order ks then a :: (o.order ks).erase a else o.order ks
  perm ks := by
    split_ifs with ha
    · exact (List.perm_cons_erase ha).symm.trans (o.perm ks)
    · exact o.perm ks

variable [Ord K] [Std.TransOrd K]

def keys (o : HashOrder K) (t : Table K V) : List K := o.order t.keys

def values (o : HashOrder K) (t : Table K V) : List V := (o.keys t).filterMap fun k => t[k]?

def entries (o : HashOrder K) (t : Table K V) : List (K × V) :=
  (o.keys t).filterMap fun k => t[k]?.map fun v => (k, v)

theorem keys_perm (o o' : HashOrder K) (t : Table K V) : (o.keys t).Perm (o'.keys t) :=
  (o.perm t.keys).trans (o'.perm t.keys).symm

theorem values_perm (o o' : HashOrder K) (t : Table K V) : (o.values t).Perm (o'.values t) :=
  (keys_perm o o' t).filterMap _

theorem entries_perm (o o' : HashOrder K) (t : Table K V) : (o.entries t).Perm (o'.entries t) :=
  (keys_perm o o' t).filterMap _

theorem keys_first [DecidableEq K] {o : HashOrder K} {a : K} {t : Table K V} (ha : a ∈ o.keys t) :
    ∃ rest, (o.first a).keys t = a :: rest :=
  ⟨(o.keys t).erase a, if_pos ha⟩

theorem keys_first_first [DecidableEq K] {o : HashOrder K} {a b : K} {t : Table K V}
    (ha : a ∈ o.keys t) (hb : b ∈ (o.first a).keys t) (hne : a ≠ b) :
    ∃ rest, ((o.first a).first b).keys t = b :: a :: rest := by
  obtain ⟨rest, hrest⟩ := keys_first ha
  refine ⟨rest.erase b, (if_pos hb).trans ?_⟩
  change b :: ((o.first a).keys t).erase b = _
  rw [hrest, List.erase_cons_tail (by simpa using hne)]

variable [Std.LawfulEqOrd K]

theorem mem_keys {o : HashOrder K} {t : Table K V} {k : K} : k ∈ o.keys t ↔ t[k]?.isSome := by
  rw [keys, (o.perm t.keys).mem_iff, Std.ExtTreeMap.mem_keys, Std.ExtTreeMap.mem_iff_isSome_getElem?]

theorem nodup_keys (o : HashOrder K) (t : Table K V) : (o.keys t).Nodup := by
  rw [keys, (o.perm t.keys).nodup_iff]
  refine Std.ExtTreeMap.distinct_keys.imp fun hne heq => hne ?_
  rw [heq, Std.compare_self]

theorem mem_values {o : HashOrder K} {t : Table K V} {v : V} :
    v ∈ o.values t ↔ ∃ k : K, t[k]? = some v := by
  simp only [values, List.mem_filterMap, mem_keys]
  constructor
  · rintro ⟨k, -, hv⟩
    exact ⟨k, hv⟩
  · rintro ⟨k, hv⟩
    exact ⟨k, by rw [hv]; rfl, hv⟩

theorem map_values {o : HashOrder K} {t : Table K V} {key : V → K}
    (hkey : ∀ (k : K) (v : V), t[k]? = some v → key v = k) : (o.values t).map key = o.keys t := by
  rw [values, List.map_filterMap]
  have hall : ∀ k ∈ o.keys t, (t[k]?).map key = some k := by
    intro k hk
    obtain ⟨v, hv⟩ := Option.isSome_iff_exists.mp (mem_keys.mp hk)
    rw [hv, Option.map_some, hkey k v hv]
  rw [List.filterMap_congr hall, List.filterMap_some]

theorem map_fst_entries (o : HashOrder K) (t : Table K V) : (o.entries t).map Prod.fst = o.keys t := by
  have hall : ∀ ks : List K, (∀ k ∈ ks, t[k]?.isSome) →
      (ks.filterMap fun k => t[k]?.map fun v => (k, v)).map Prod.fst = ks := by
    intro ks hks
    induction ks with
    | nil => rfl
    | cons k ks ih =>
      obtain ⟨v, hv⟩ := Option.isSome_iff_exists.mp (hks k List.mem_cons_self)
      rw [List.filterMap_cons_some (by rw [hv]; rfl), List.map_cons,
        ih fun j hj => hks j (List.mem_cons_of_mem k hj)]
  exact hall _ fun k hk => mem_keys.mp hk

theorem mem_entries {o : HashOrder K} {t : Table K V} {k : K} {v : V} :
    (k, v) ∈ o.entries t ↔ t[k]? = some v := by
  simp only [entries, List.mem_filterMap, mem_keys, Option.map_eq_some_iff, Prod.mk.injEq]
  constructor
  · rintro ⟨j, -, w, hw, rfl, rfl⟩
    exact hw
  · intro hv
    exact ⟨k, by rw [hv]; rfl, v, hv, rfl, rfl⟩

end HashOrder

/-- One round of a loop over the keys of a table, in the states of a loop invariant: `put` gives
the entry the round leaves at its key, `none` for an entry it removes, and `tick` what the round
makes of the shared state. -/
structure PerEntry {S K V σ : Type} [Ord K] [Std.TransOrd K] (inv : S → Prop)
    (table : S → Table K V) (shared : S → σ) (round : S → K → S) (put : σ → K → V → Option V)
    (tick : σ → K → V → σ) : Prop where
  inv_round : ∀ s k, inv s → inv (round s k)
  table_self : ∀ s k, inv s → (table (round s k))[k]? = (table s)[k]?.bind (put (shared s) k)
  table_other : ∀ s k j, inv s → j ≠ k → (table (round s k))[j]? = (table s)[j]?
  shared_round : ∀ s k, inv s →
    shared (round s k) = ((table s)[k]?.map (tick (shared s) k)).getD (shared s)

namespace PerEntry
variable {S K V σ : Type} [Ord K] [Std.TransOrd K] {inv : S → Prop} {table : S → Table K V}
  {shared : S → σ} {round : S → K → S} {put : σ → K → V → Option V} {tick : σ → K → V → σ}

/-- The shared state after the rounds of `ks`, from the entries the table has before the loop. -/
def advanced (tick : σ → K → V → σ) (t : Table K V) (ks : List K) (c : σ) : σ :=
  ks.foldl (fun c k => (t[k]?.map (tick c k)).getD c) c

theorem advanced_congr {t t' : Table K V} {ks : List K} (h : ∀ k ∈ ks, t'[k]? = t[k]?) (c : σ) :
    advanced tick t' ks c = advanced tick t ks c := by
  induction ks generalizing c with
  | nil => rfl
  | cons k ks ih =>
    simp only [advanced, List.foldl_cons, h k List.mem_cons_self]
    exact ih (fun j hj => h j (List.mem_cons_of_mem k hj)) _

theorem advanced_of_idle {ks : List K} {t : Table K V} {c : σ}
    (hidle : ∀ k ∈ ks, ∀ v, t[k]? = some v → tick c k v = c) : advanced tick t ks c = c := by
  induction ks with
  | nil => rfl
  | cons k ks ih =>
    have hk : (t[k]?.map (tick c k)).getD c = c := by
      cases hv : t[k]? with
      | none => rfl
      | some v => exact hidle k List.mem_cons_self v hv
    simp only [advanced, List.foldl_cons, hk]
    exact ih fun j hj => hidle j (List.mem_cons_of_mem k hj)

section Loop
variable (h : PerEntry inv table shared round put tick)
include h

theorem inv_foldl (ks : List K) {s : S} (hs : inv s) : inv (ks.foldl round s) := by
  induction ks generalizing s with
  | nil => exact hs
  | cons k ks ih => exact ih (h.inv_round s k hs)

theorem table_foldl_of_notMem {ks : List K} {k : K} (hk : k ∉ ks) {s : S} (hs : inv s) :
    (table (ks.foldl round s))[k]? = (table s)[k]? := by
  induction ks generalizing s with
  | nil => rfl
  | cons j ks ih =>
    obtain ⟨hne, hk⟩ := not_or.mp (List.mem_cons.not.mp hk)
    rw [List.foldl_cons, ih hk (h.inv_round s j hs), h.table_other s j k hs hne]

theorem shared_foldl {ks : List K} (hks : ks.Nodup) {s : S} (hs : inv s) :
    shared (ks.foldl round s) = advanced tick (table s) ks (shared s) := by
  induction ks generalizing s with
  | nil => rfl
  | cons k ks ih =>
    obtain ⟨hk, hks⟩ := List.nodup_cons.mp hks
    have hkeep : ∀ j ∈ ks, (table (round s k))[j]? = (table s)[j]? := fun j hj =>
      h.table_other s k j hs (ne_of_mem_of_not_mem hj hk)
    rw [List.foldl_cons, ih hks (h.inv_round s k hs), advanced_congr hkeep, h.shared_round s k hs]
    rfl

/-- The entry a loop leaves at a key of its list: the round of the key finds the entry the table
had before the loop and the shared state as the rounds before it leave it. -/
theorem table_foldl {pre post : List K} {k : K} (hks : (pre ++ k :: post).Nodup) {s : S}
    (hs : inv s) :
    (table ((pre ++ k :: post).foldl round s))[k]? =
      (table s)[k]?.bind (put (advanced tick (table s) pre (shared s)) k) := by
  obtain ⟨hpre, hpost, hdisj⟩ := List.nodup_append.mp hks
  have hk_pre : k ∉ pre := fun hmem => hdisj k hmem k List.mem_cons_self rfl
  have hk_post : k ∉ post := (List.nodup_cons.mp hpost).1
  have hinv : inv (pre.foldl round s) := h.inv_foldl pre hs
  rw [List.foldl_append, List.foldl_cons, h.table_foldl_of_notMem hk_post (h.inv_round _ k hinv),
    h.table_self _ k hinv, h.table_foldl_of_notMem hk_pre hs, h.shared_foldl hpre hs]

/-- When at most one round of a loop touches the shared state, and only that round reads it, every
round finds it as it was before the loop: the loop maps each entry on its own. -/
theorem table_foldl_eq_filterMap [Std.LawfulEqOrd K] {ks : List K} (hks : ks.Nodup) {s : S}
    (hs : inv s) {f : K → V → Option V} (a : K)
    (hidle : ∀ c k v, k ≠ a → (table s)[k]? = some v → tick c k v = c)
    (hput : ∀ c k v, k ∈ ks → (table s)[k]? = some v → (k = a → c = shared s) → put c k v = f k v)
    (hnot : ∀ k v, k ∉ ks → (table s)[k]? = some v → f k v = some v) :
    table (ks.foldl round s) = (table s).filterMap f := by
  refine Std.ExtTreeMap.ext_getElem? fun k => ?_
  rw [Std.ExtTreeMap.getElem?_filterMap']
  by_cases hk : k ∈ ks
  · obtain ⟨pre, post, rfl⟩ := List.append_of_mem hk
    rw [h.table_foldl hks hs]
    cases hv : (table s)[k]? with
    | none => rfl
    | some v =>
      refine hput _ k v hk hv fun hka => advanced_of_idle fun j hj w hw => hidle _ j w ?_ hw
      rintro rfl
      exact (List.nodup_append.mp hks).2.2 j hj k List.mem_cons_self hka.symm
  · rw [h.table_foldl_of_notMem hk hs]
    cases hv : (table s)[k]? with
    | none => rfl
    | some v => exact (hnot k v hk hv).symm

theorem shared_foldl_of_idle {ks : List K} (hks : ks.Nodup) {s : S} (hs : inv s) {a : K}
    (ha : a ∈ ks) (hidle : ∀ c k v, k ≠ a → (table s)[k]? = some v → tick c k v = c) :
    shared (ks.foldl round s) = ((table s)[a]?.map (tick (shared s) a)).getD (shared s) := by
  rw [h.shared_foldl hks hs]
  obtain ⟨pre, post, rfl⟩ := List.append_of_mem ha
  obtain ⟨-, hpost, hdisj⟩ := List.nodup_append.mp hks
  have hpre : advanced tick (table s) pre (shared s) = shared s :=
    advanced_of_idle fun j hj w hw =>
      hidle _ j w (fun hja => hdisj j hj a List.mem_cons_self hja) hw
  simp only [advanced] at hpre ⊢
  rw [List.foldl_append, List.foldl_cons, hpre]
  exact advanced_of_idle fun j hj w hw =>
    hidle _ j w (ne_of_mem_of_not_mem hj (List.nodup_cons.mp hpost).1) hw

end Loop

end PerEntry
