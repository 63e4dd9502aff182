import Mathlib

/-!
# Runs of a partial step function

`run` follows a list of actions through a step function that may refuse one. `Meets` says that
every step of the run is taken in a state that satisfies a guard. A property that holds at the
start and that every guarded step keeps holds wherever such a run ends. `trace` lists what the
steps of a run put out; a state that remembers what was put out keeps later outputs apart from it.
-/

namespace Transition
variable {S A : Type} (step : S → A → Option S)

def run : S → List A → Option S
  | s, [] => some s
  | s, a :: as => (step s a).bind fun s' => run s' as

def Meets (guard : S → A → Prop) : S → List A → Prop
  | _, [] => True
  | s, a :: as => guard s a ∧ ∀ s', step s a = some s' → Meets guard s' as

variable {step}

instance decidableMeets {guard : S → A → Prop} [∀ s a, Decidable (guard s a)] :
    (s : S) → (as : List A) → Decidable (Meets step guard s as)
  | _, [] => .isTrue trivial
  | s, a :: as =>
    match h : step s a with
    | none => decidable_of_iff (guard s a)
        ⟨fun hg => ⟨hg, fun _ hs' => nomatch h.symm.trans hs'⟩, fun hm => hm.1⟩
    | some t =>
      have : Decidable (Meets step guard t as) := decidableMeets t as
      decidable_of_iff (guard s a ∧ Meets step guard t as)
        ⟨fun hm => ⟨hm.1, fun _ hs' => Option.some.inj (h.symm.trans hs') ▸ hm.2⟩,
          fun hm => ⟨hm.1, hm.2 t h⟩⟩

theorem invariant {guard : S → A → Prop} {inv : S → Prop}
    (hstep : ∀ s a s', inv s → guard s a → step s a = some s' → inv s') {as : List A} {s s' : S}
    (hs : inv s) (hg : Meets step guard s as) (hr : run step s as = some s') : inv s' := by
  induction as generalizing s with
  | nil =>
    cases hr
    exact hs
  | cons a as ih =>
    obtain ⟨t, ht, hrest⟩ := Option.bind_eq_some_iff.mp hr
    exact ih (hstep s a t hs hg.1 ht) (hg.2 t ht) hrest

theorem meets_of_forall {guard : S → A → Prop} {as : List A} (h : ∀ s, ∀ a ∈ as, guard s a) (s : S) :
    Meets step guard s as := by
  induction as generalizing s with
  | nil => trivial
  | cons a as ih =>
    exact ⟨h s a List.mem_cons_self, fun s' _ => ih (fun t b hb => h t b (List.mem_cons_of_mem a hb)) s'⟩

theorem meets_imp {guard guard' : S → A → Prop} (h : ∀ s a, guard s a → guard' s a) {as : List A}
    {s : S} (hg : Meets step guard s as) : Meets step guard' s as := by
  induction as generalizing s with
  | nil => trivial
  | cons a as ih => exact ⟨h s a hg.1, fun s' hs' => ih (hg.2 s' hs')⟩

theorem run_append (as bs : List A) (s : S) :
    run step s (as ++ bs) = (run step s as).bind fun s' => run step s' bs := by
  induction as generalizing s with
  | nil => rfl
  | cons a as ih =>
    rw [List.cons_append, run, run, Option.bind_assoc]
    exact Option.bind_congr fun s' _ => ih s'

/-- The guard holds wherever a step of the run is taken. -/
theorem meets_iff {guard : S → A → Prop} {as : List A} {s : S} :
    Meets step guard s as ↔
      ∀ pre a post s', as = pre ++ a :: post → run step s pre = some s' → guard s' a := by
  induction as generalizing s with
  | nil => exact iff_of_true trivial fun pre a post s' has => by simp at has
  | cons b as ih =>
    constructor
    · rintro ⟨hguard, hrest⟩ pre a post s' has hrun
      rcases pre with _ | ⟨c, pre⟩
      · obtain ⟨rfl, -⟩ := List.cons.inj has
        cases hrun
        exact hguard
      · obtain ⟨rfl, htail⟩ := List.cons.inj has
        obtain ⟨t, ht, hrun⟩ := Option.bind_eq_some_iff.mp hrun
        exact ih.mp (hrest t ht) pre a post s' htail hrun
    · intro hall
      refine ⟨hall [] b as s rfl rfl, fun t ht => ih.mpr fun pre a post s' has hrun => ?_⟩
      exact hall (b :: pre) a post s' (by rw [has]; rfl) (by rw [run, ht]; exact hrun)

theorem meets_append {guard : S → A → Prop} {as bs : List A} {s : S} :
    Meets step guard s (as ++ bs) ↔
      Meets step guard s as ∧ ∀ s', run step s as = some s' → Meets step guard s' bs := by
  induction as generalizing s with
  | nil => simp [Meets, run]
  | cons a as ih =>
    rw [List.cons_append, Meets, Meets, and_assoc]
    refine and_congr_right fun _ => ⟨fun h => ⟨fun t ht => (ih.mp (h t ht)).1, fun s' hs' => ?_⟩,
      fun h t ht => ih.mpr ⟨h.1 t ht, fun s' hs' => h.2 s' ?_⟩⟩
    · obtain ⟨t, ht, hrun⟩ := Option.bind_eq_some_iff.mp hs'
      exact (ih.mp (h t ht)).2 s' hrun
    · rw [run, ht]
      exact hs'

theorem run_take_succ {as : List A} {s : S} {k : ℕ} (h : (run step s as).isSome = true)
    (hk : k < as.length) : ∃ t t', run step s (as.take k) = some t ∧ step t as[k] = some t' ∧
      run step s (as.take (k + 1)) = some t' := by
  induction as generalizing s k with
  | nil => exact absurd hk (Nat.not_lt_zero k)
  | cons a as ih =>
    obtain ⟨e, he⟩ := Option.isSome_iff_exists.mp h
    obtain ⟨u, hu, hrest⟩ := Option.bind_eq_some_iff.mp he
    cases k with
    | zero => exact ⟨s, u, rfl, hu, by rw [List.take_succ_cons, run, hu, List.take_zero]; rfl⟩
    | succ k =>
      obtain ⟨t, t', ht, hstep, ht'⟩ := ih (Option.isSome_of_eq_some hrest) (Nat.lt_of_succ_lt_succ hk)
      refine ⟨t, t', ?_, hstep, ?_⟩
      · rw [List.take_succ_cons, run, hu]
        exact ht
      · rw [List.take_succ_cons, run, hu]
        exact ht'

/-- Where a step keeps the property exactly if it meets the guard, a run meets the guard exactly if
the property holds after each of its prefixes. -/
theorem meets_iff_prefixes {guard : S → A → Prop} {inv : S → Prop}
    (hstep : ∀ s a s', inv s → step s a = some s' → (inv s' ↔ guard s a))
    (hstuck : ∀ s a, step s a = none → guard s a) {as : List A} {s : S} (hs : inv s) :
    Meets step guard s as ↔ ∀ pre s', pre <+: as → run step s pre = some s' → inv s' := by
  induction as generalizing s with
  | nil =>
    refine ⟨fun _ pre s' hpre hrun => ?_, fun _ => trivial⟩
    obtain rfl := List.prefix_nil.mp hpre
    cases hrun
    exact hs
  | cons a as ih =>
    constructor
    · rintro ⟨hguard, hrest⟩ pre s' hpre hrun
      rcases pre with _ | ⟨b, pre⟩
      · cases hrun
        exact hs
      · obtain ⟨rfl, htail⟩ := List.cons_prefix_cons.mp hpre
        obtain ⟨t, ht, hrun⟩ := Option.bind_eq_some_iff.mp hrun
        exact (ih ((hstep s b t hs ht).mpr hguard)).mp (hrest t ht) pre s' htail hrun
    · intro hall
      have hone : ∀ t, step s a = some t → inv t := fun t ht =>
        hall [a] t ⟨as, rfl⟩ (by rw [run, ht]; rfl)
      refine ⟨?_, fun t ht => (ih (hone t ht)).mpr fun pre s' hpre hrun => ?_⟩
      · cases ht : step s a with
        | none => exact hstuck s a ht
        | some t => exact (hstep s a t hs ht).mp (hone t ht)
      · exact hall (a :: pre) s' (List.cons_prefix_cons.mpr ⟨rfl, hpre⟩) (by
          rw [run, ht]
          exact hrun)

/-- The rule without a guard. -/
theorem reachable {inv : S → Prop} (hstep : ∀ s a s', inv s → step s a = some s' → inv s')
    {as : List A} {s s' : S} (hs : inv s) (hr : run step s as = some s') : inv s' :=
  invariant (fun s a s' hs _ ht => hstep s a s' hs ht) hs
    (meets_of_forall (fun _ _ _ => trivial : ∀ _ : S, ∀ a ∈ as, True) s) hr

section Trace
variable {O : Type} (out : S → A → Option O)

variable (step) in
/-- What a run puts out, up to a step that is refused. -/
def trace : S → List A → List O
  | _, [] => []
  | s, a :: as => (out s a).toList ++ (step s a).elim [] fun s' => trace s' as

variable {out} {guard : S → A → Prop} {time : A → ℕ} {R : O → O → Prop}

/-- If guarded steps keep what a state remembers, an output is remembered, and it is related to
everything remembered before, then the outputs of a run are related in their order. -/
theorem pairwise_trace (remembers : S → ℕ → O → Prop)
    (hkeep : ∀ s now a s' o, guard s a → now ≤ time a → step s a = some s' →
      remembers s now o → remembers s' (time a) o)
    (hnew : ∀ s a o, guard s a → out s a = some o →
      (∀ now o', now ≤ time a → remembers s now o' → R o' o) ∧
        ∀ s', step s a = some s' → remembers s' (time a) o)
    {as : List A} {s : S} {now : ℕ} (hclock : (now :: as.map time).IsChain (· ≤ ·))
    (hmeets : Meets step guard s as) :
    (trace step out s as).Pairwise R ∧
      ∀ o, remembers s now o → ∀ o' ∈ trace step out s as, R o o' := by
  induction as generalizing s now with
  | nil => exact ⟨List.Pairwise.nil, fun _ _ _ h => nomatch h⟩
  | cons a as ih =>
    obtain ⟨hguard, hrest⟩ := hmeets
    rw [List.map_cons, List.isChain_cons_cons] at hclock
    obtain ⟨hnow, hclock⟩ := hclock
    have htail : ((step s a).elim [] fun s' => trace step out s' as).Pairwise R ∧
        ∀ o, (∀ s', step s a = some s' → remembers s' (time a) o) →
          ∀ o' ∈ (step s a).elim [] fun s' => trace step out s' as, R o o' := by
      cases hs : step s a with
      | none => exact ⟨List.Pairwise.nil, fun _ _ _ h => nomatch h⟩
      | some s' =>
        obtain ⟨hpair, hold⟩ := ih hclock (hrest s' hs)
        exact ⟨hpair, fun o ho => hold o (ho s' rfl)⟩
    have hkept : ∀ o, remembers s now o → ∀ s', step s a = some s' → remembers s' (time a) o :=
      fun o ho s' hs => hkeep s now a s' o hguard hnow hs ho
    rw [trace]
    cases ho : out s a with
    | none =>
      rw [Option.toList_none, List.nil_append]
      exact ⟨htail.1, fun o h => htail.2 o (hkept o h)⟩
    | some o =>
      obtain ⟨hfirst, hafter⟩ := hnew s a o hguard ho
      rw [Option.toList_some, List.singleton_append]
      refine ⟨List.pairwise_cons.mpr ⟨htail.2 o hafter, htail.1⟩, fun o' h later hlater => ?_⟩
      rcases List.mem_cons.mp hlater with rfl | hlater
      · exact hfirst now o' hnow h
      · exact htail.2 o' (hkept o' h) later hlater

/-- The rule without a clock, in runs that keep an invariant. -/
theorem pairwise_trace_of_invariant {inv : S → Prop} (remembers : S → O → Prop)
    (hstep : ∀ s a s', inv s → guard s a → step s a = some s' → inv s')
    (hkeep : ∀ s a s' o, inv s → guard s a → step s a = some s' → remembers s o → remembers s' o)
    (hnew : ∀ s a o, inv s → guard s a → out s a = some o → (∀ o', remembers s o' → R o' o) ∧
      ∀ s', step s a = some s' → remembers s' o)
    {as : List A} {s : S} (hs : inv s) (hmeets : Meets step guard s as) :
    (trace step out s as).Pairwise R := by
  have hguard : Meets step (fun s a => inv s ∧ guard s a) s as := by
    refine meets_iff.mpr fun pre a post s' has hrun => ?_
    subst has
    obtain ⟨hpre, hg⟩ := meets_append.mp hmeets
    exact ⟨invariant hstep hs hpre hrun, (hg s' hrun).1⟩
  have hclock : ((0 : ℕ) :: as.map fun _ => 0).IsChain (· ≤ ·) := by
    rw [List.map_const', ← List.replicate_succ]
    exact List.isChain_replicate_of_rel _ le_rfl
  refine (pairwise_trace (fun s _ o => remembers s o) ?_ ?_ hclock hguard).1
  · intro s _ a s' o hg _ ht ho
    exact hkeep s a s' o hg.1 hg.2 ht ho
  · intro s a o hg ho
    obtain ⟨hfirst, hafter⟩ := hnew s a o hg.1 hg.2 ho
    exact ⟨fun _ o' _ h => hfirst o' h, hafter⟩

end Trace

end Transition
