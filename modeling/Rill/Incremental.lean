import Rill.Attempt

/-!
# Reading a stream in chunks

`next` looks at the bytes at hand and waits for more, takes an item off the front, or fails. A
reader keeps what it has not taken yet; fed with a chunk, it takes items until `next` waits or
fails. If more bytes do not change what `next` has decided, then what the reader yields depends on
the stream alone and not on the way it is cut.
-/

namespace Rill.Incremental
open Attempt

variable {ε α β : Type}

/-- What a reader comes to: the items taken, how it ended, and the bytes that are left. -/
@[ext] structure Run (ε α β : Type) where
  items : List α
  outcome : Attempt ε Unit
  rest : List β
  deriving DecidableEq

def Run.after (items : List α) (r : Run ε α β) : Run ε α β := { r with items := items ++ r.items }

section Reader
variable (next : List β → Attempt ε (Option (α × List β)))

def drainFrom : ℕ → List β → Run ε α β
  | 0, buf => ⟨[], .ok (), buf⟩
  | fuel + 1, buf =>
    match next buf with
    | .ok none => ⟨[], .ok (), buf⟩
    | .ok (some (a, rest)) => (drainFrom fuel rest).after [a]
    | .error e => ⟨[], .error e, buf⟩
    | .panics => ⟨[], .panics, buf⟩

/-- Every item is at least one byte, so the bytes at hand bound the turns of the loop. -/
def drain (buf : List β) : Run ε α β := drainFrom next (buf.length + 1) buf

/-- The chunks in turn, up to the first that fails. -/
def feedAll : List β → List (List β) → Run ε α β
  | buf, [] => ⟨[], .ok (), buf⟩
  | buf, chunk :: chunks =>
    let r := drain next (buf ++ chunk)
    match r.outcome with
    | .ok () => (feedAll r.rest chunks).after r.items
    | _ => r

/-- What is decided about the bytes at hand stays so when more arrive. -/
structure Stable : Prop where
  consumes : ∀ buf a rest, next buf = .ok (some (a, rest)) → rest.length < buf.length
  item : ∀ buf a rest more, next buf = .ok (some (a, rest)) →
    next (buf ++ more) = .ok (some (a, rest ++ more))
  error : ∀ buf e more, next buf = .error e → next (buf ++ more) = .error e
  panics : ∀ buf more, next buf = .panics → next (buf ++ more) = .panics

variable {next}

@[simp] theorem Run.after_nil (r : Run ε α β) : r.after [] = r := rfl

@[simp] theorem Run.after_after (as bs : List α) (r : Run ε α β) :
    (r.after bs).after as = r.after (as ++ bs) := by
  simp [Run.after]

@[simp] theorem Run.outcome_after (as : List α) (r : Run ε α β) :
    (r.after as).outcome = r.outcome := rfl

@[simp] theorem Run.rest_after (as : List α) (r : Run ε α β) : (r.after as).rest = r.rest := rfl

theorem drainFrom_stable (h : Stable next) {fuel fuel' : ℕ} {buf : List β}
    (hfuel : buf.length < fuel) (hfuel' : buf.length < fuel') :
    drainFrom next fuel buf = drainFrom next fuel' buf := by
  induction fuel generalizing fuel' buf with
  | zero => omega
  | succ fuel ih =>
    cases fuel' with
    | zero => omega
    | succ fuel' =>
      rw [drainFrom, drainFrom]
      cases hnext : next buf with
      | error e => rfl
      | panics => rfl
      | ok taken =>
        cases taken with
        | none => rfl
        | some taken =>
          obtain ⟨a, rest⟩ := taken
          have hlt := h.consumes _ _ _ hnext
          simp only
          rw [ih (by omega : rest.length < fuel) (by omega : rest.length < fuel')]

theorem drain_of_item (h : Stable next) {buf rest : List β} {a : α}
    (hnext : next buf = .ok (some (a, rest))) : drain next buf = (drain next rest).after [a] := by
  have hlt := h.consumes _ _ _ hnext
  rw [drain, drainFrom, hnext]
  simp only
  rw [drainFrom_stable h hlt (Nat.lt_succ_self rest.length)]
  rfl

theorem drain_of_wait {buf : List β} (hnext : next buf = .ok none) :
    drain next buf = ⟨[], .ok (), buf⟩ := by
  rw [drain, drainFrom, hnext]

theorem drain_of_error {buf : List β} {e : ε} (hnext : next buf = .error e) :
    drain next buf = ⟨[], .error e, buf⟩ := by
  rw [drain, drainFrom, hnext]

theorem drain_of_panics {buf : List β} (hnext : next buf = .panics) :
    drain next buf = ⟨[], .panics, buf⟩ := by
  rw [drain, drainFrom, hnext]

theorem drain_induction (h : Stable next) {motive : List β → Prop}
    (wait : ∀ buf, next buf = .ok none → motive buf)
    (error : ∀ buf e, next buf = .error e → motive buf)
    (panics : ∀ buf, next buf = .panics → motive buf)
    (item : ∀ buf a rest, next buf = .ok (some (a, rest)) → motive rest → motive buf)
    (buf : List β) : motive buf := by
  induction hlen : buf.length using Nat.strongRecOn generalizing buf with
  | _ n ih =>
    subst hlen
    cases hnext : next buf with
    | error e => exact error buf e hnext
    | panics => exact panics buf hnext
    | ok taken =>
      cases taken with
      | none => exact wait buf hnext
      | some taken =>
        obtain ⟨a, rest⟩ := taken
        exact item buf a rest hnext (ih _ (h.consumes _ _ _ hnext) rest rfl)

theorem next_rest_drain (h : Stable next) {buf : List β}
    (hok : (drain next buf).outcome = .ok ()) : next (drain next buf).rest = .ok none := by
  induction buf using drain_induction h with
  | wait buf hnext => rwa [drain_of_wait hnext]
  | error buf e hnext =>
    rw [drain_of_error hnext] at hok
    nomatch hok
  | panics buf hnext =>
    rw [drain_of_panics hnext] at hok
    nomatch hok
  | item buf a rest hnext ih =>
    rw [drain_of_item h hnext] at hok ⊢
    exact ih hok

theorem drain_append_of_ok (h : Stable next) {buf more : List β}
    (hok : (drain next buf).outcome = .ok ()) :
    drain next (buf ++ more) =
      (drain next ((drain next buf).rest ++ more)).after (drain next buf).items := by
  induction buf using drain_induction h with
  | wait buf hnext =>
    rw [drain_of_wait hnext]
    exact (Run.after_nil _).symm
  | error buf e hnext =>
    rw [drain_of_error hnext] at hok
    nomatch hok
  | panics buf hnext =>
    rw [drain_of_panics hnext] at hok
    nomatch hok
  | item buf a rest hnext ih =>
    rw [drain_of_item h hnext] at hok ⊢
    rw [drain_of_item h (h.item _ _ _ more hnext), ih hok, Run.after_after]
    rfl

theorem drain_append_of_fails (h : Stable next) {buf : List β} (more : List β)
    (hfails : (drain next buf).outcome ≠ .ok ()) :
    (drain next (buf ++ more)).items = (drain next buf).items ∧
      (drain next (buf ++ more)).outcome = (drain next buf).outcome := by
  induction buf using drain_induction h with
  | wait buf hnext =>
    rw [drain_of_wait hnext] at hfails
    exact absurd rfl hfails
  | error buf e hnext =>
    rw [drain_of_error hnext, drain_of_error (h.error _ _ more hnext)]
    exact ⟨rfl, rfl⟩
  | panics buf hnext =>
    rw [drain_of_panics hnext, drain_of_panics (h.panics _ more hnext)]
    exact ⟨rfl, rfl⟩
  | item buf a rest hnext ih =>
    rw [drain_of_item h hnext] at hfails ⊢
    rw [drain_of_item h (h.item _ _ _ more hnext)]
    obtain ⟨hitems, houtcome⟩ := ih hfails
    exact ⟨congrArg (a :: ·) hitems, houtcome⟩

theorem feedAll_eq_drain (h : Stable next) {buf : List β} (hbuf : next buf = .ok none)
    (chunks : List (List β)) :
    (feedAll next buf chunks).items = (drain next (buf ++ chunks.flatten)).items ∧
      (feedAll next buf chunks).outcome = (drain next (buf ++ chunks.flatten)).outcome ∧
        ((feedAll next buf chunks).outcome = .ok () →
          (feedAll next buf chunks).rest = (drain next (buf ++ chunks.flatten)).rest) := by
  induction chunks generalizing buf with
  | nil =>
    rw [List.flatten_nil, List.append_nil, drain_of_wait hbuf]
    exact ⟨rfl, rfl, fun _ => rfl⟩
  | cons chunk chunks ih =>
    rw [List.flatten_cons, ← List.append_assoc, feedAll]
    by_cases hok : (drain next (buf ++ chunk)).outcome = .ok ()
    · obtain ⟨hitems, houtcome, hrest⟩ := ih (next_rest_drain h hok)
      rw [drain_append_of_ok h hok]
      simp only [hok]
      exact ⟨congrArg ((drain next (buf ++ chunk)).items ++ ·) hitems, houtcome, hrest⟩
    · obtain ⟨hitems, houtcome⟩ := drain_append_of_fails h chunks.flatten hok
      rw [hitems, houtcome]
      split
      · exact absurd ‹_› hok
      · exact ⟨rfl, rfl, fun habs => absurd habs hok⟩

theorem drain_encoded (h : Stable next) (hnil : next [] = .ok none) {as : List α}
    {bs : List (List β)}
    (hread : List.Forall₂ (fun a b => ∀ more, next (b ++ more) = .ok (some (a, more))) as bs) :
    drain next bs.flatten = ⟨as, .ok (), []⟩ := by
  induction hread with
  | nil => exact drain_of_wait hnil
  | cons hhead _ ih =>
    rw [List.flatten_cons, drain_of_item h (hhead _), ih]
    rfl

variable (next) in
/-- The buffers that the reader comes by. -/
def Reaches : List β → List β → Prop :=
  Relation.ReflTransGen fun buf rest => ∃ a, next buf = .ok (some (a, rest))

theorem drain_panics_iff (h : Stable next) {buf : List β} :
    (drain next buf).outcome = .panics ↔ ∃ rest, Reaches next buf rest ∧ next rest = .panics := by
  -- where no item is taken, the only buffer that is reached is the first
  have hstuck : ∀ {buf rest : List β}, (∀ a rest, next buf ≠ .ok (some (a, rest))) →
      Reaches next buf rest → rest = buf := by
    intro buf rest hnone hreaches
    rcases Relation.ReflTransGen.cases_head hreaches with rfl | ⟨_, ⟨a, hnext⟩, -⟩
    · rfl
    · exact absurd hnext (hnone _ _)
  induction buf using drain_induction h with
  | wait buf hnext =>
    rw [drain_of_wait hnext]
    refine iff_of_false (nomatch ·) fun ⟨rest, hreaches, hpanics⟩ => ?_
    rw [hstuck (by simp [hnext]) hreaches, hnext] at hpanics
    nomatch hpanics
  | error buf e hnext =>
    rw [drain_of_error hnext]
    refine iff_of_false (nomatch ·) fun ⟨rest, hreaches, hpanics⟩ => ?_
    rw [hstuck (by simp [hnext]) hreaches, hnext] at hpanics
    nomatch hpanics
  | panics buf hnext =>
    rw [drain_of_panics hnext]
    exact iff_of_true rfl ⟨buf, .refl, hnext⟩
  | item buf a rest hnext ih =>
    rw [drain_of_item h hnext, Run.outcome_after]
    refine Iff.trans ih ?_
    constructor
    · rintro ⟨last, hreaches, hpanics⟩
      exact ⟨last, .head ⟨a, hnext⟩ hreaches, hpanics⟩
    · rintro ⟨last, hreaches, hpanics⟩
      rcases Relation.ReflTransGen.cases_head hreaches with rfl | ⟨_, ⟨b, hnext'⟩, hreaches⟩
      · rw [hnext] at hpanics
        nomatch hpanics
      · rw [hnext] at hnext'
        cases hnext'
        exact ⟨last, hreaches, hpanics⟩

end Reader

end Rill.Incremental
