import Mathlib.Data.List.Basic
import Mathlib.Logic.Relation

/-!
# Functions that return, fail or panic

`Attempt ε α` is what a call comes to: a value, an error that it returns, or a panic. Indexing and
slicing panic out of range. `readAll` is the loop that takes items off the front of a buffer until
nothing is left; `Visits` says which buffers it comes by.
-/

namespace Rill

inductive Attempt (ε α : Type) where
  | ok (a : α)
  | error (e : ε)
  | panics
  deriving DecidableEq

namespace Attempt
variable {ε α β : Type}

def bind (x : Attempt ε α) (f : α → Attempt ε β) : Attempt ε β :=
  match x with
  | .ok a => f a
  | .error e => .error e
  | .panics => .panics

instance : Monad (Attempt ε) where
  pure := .ok
  bind := bind

@[simp] theorem ok_bind (a : α) (f : α → Attempt ε β) : (Attempt.ok a >>= f) = f a := rfl

@[simp] theorem error_bind (e : ε) (f : α → Attempt ε β) :
    (Attempt.error e >>= f) = Attempt.error e := rfl

@[simp] theorem panics_bind (f : α → Attempt ε β) : (Attempt.panics >>= f) = Attempt.panics := rfl

theorem bind_eq_ok {x : Attempt ε α} {f : α → Attempt ε β} {b : β} :
    (x >>= f) = .ok b ↔ ∃ a, x = .ok a ∧ f a = .ok b := by
  cases x with
  | ok a => exact ⟨fun h => ⟨a, rfl, h⟩, fun ⟨_, ha, h⟩ => Attempt.ok.inj ha ▸ h⟩
  | error e => exact iff_of_false (nomatch ·) fun ⟨_, h, _⟩ => nomatch h
  | panics => exact iff_of_false (nomatch ·) fun ⟨_, h, _⟩ => nomatch h

theorem bind_eq_panics {x : Attempt ε α} {f : α → Attempt ε β} :
    (x >>= f) = .panics ↔ x = .panics ∨ ∃ a, x = .ok a ∧ f a = .panics := by
  cases x with
  | ok a => exact ⟨fun h => Or.inr ⟨a, rfl, h⟩, fun h => h.elim (nomatch ·)
      fun ⟨_, ha, h⟩ => Attempt.ok.inj ha ▸ h⟩
  | error e => exact iff_of_false (nomatch ·) fun h => h.elim (nomatch ·) fun ⟨_, h, _⟩ => nomatch h
  | panics => exact iff_of_true rfl (Or.inl rfl)

def ofOption (e : ε) : Option α → Attempt ε α
  | some a => .ok a
  | none => .error e

/-- The early return of an error, unless the condition holds. -/
def ensure (c : Prop) [Decidable c] (e : ε) : Attempt ε Unit := if c then .ok () else .error e

/-- The second attempt, if the first one returns an error. -/
def orElse (x y : Attempt ε α) : Attempt ε α :=
  match x with
  | .error _ => y
  | _ => x

theorem ensure_bind (c : Prop) [Decidable c] (e : ε) (f : Unit → Attempt ε β) :
    (ensure c e >>= f) = if c then f () else .error e := by
  unfold ensure
  split <;> rfl

theorem ensure_bind_of {c : Prop} [Decidable c] {e : ε} {f : Unit → Attempt ε β} (h : c) :
    (ensure c e >>= f) = f () := by
  rw [ensure_bind, if_pos h]

theorem ensure_bind_eq_ok {c : Prop} [Decidable c] {e : ε} {f : Unit → Attempt ε β} {b : β} :
    (ensure c e >>= f) = .ok b ↔ c ∧ f () = .ok b := by
  rw [ensure_bind]
  split <;> simp [*]

theorem ensure_bind_eq_panics {c : Prop} [Decidable c] {e : ε} {f : Unit → Attempt ε β} :
    (ensure c e >>= f) = .panics ↔ c ∧ f () = .panics := by
  rw [ensure_bind]
  split <;> simp [*]

theorem ofOption_ne_panics (e : ε) (x : Option α) : ofOption e x ≠ .panics := by
  cases x <;> exact (nomatch ·)

/-! ## Indexing and slicing -/

/-- `b[i]`. -/
def index (b : List β) (i : ℕ) : Attempt ε β := (b[i]?).elim .panics .ok

/-- `&b[i..j]`. -/
def slice (b : List β) (i j : ℕ) : Attempt ε (List β) :=
  if i ≤ j ∧ j ≤ b.length then .ok ((b.drop i).take (j - i)) else .panics

/-- `&b[i..]`. -/
def sliceFrom (b : List β) (i : ℕ) : Attempt ε (List β) :=
  if i ≤ b.length then .ok (b.drop i) else .panics

theorem index_eq {b : List β} {i : ℕ} (h : i < b.length) :
    (index b i : Attempt ε β) = .ok b[i] := by
  rw [index, List.getElem?_eq_getElem h]
  rfl

theorem slice_eq {b : List β} {i j : ℕ} (hi : i ≤ j) (hj : j ≤ b.length) :
    (slice b i j : Attempt ε (List β)) = .ok ((b.drop i).take (j - i)) := if_pos ⟨hi, hj⟩

theorem sliceFrom_eq {b : List β} {i : ℕ} (h : i ≤ b.length) :
    (sliceFrom b i : Attempt ε (List β)) = .ok (b.drop i) := if_pos h

@[simp] theorem index_zero (x : β) (b : List β) : (index (x :: b) 0 : Attempt ε β) = .ok x := rfl

@[simp] theorem index_succ (x : β) (b : List β) (i : ℕ) :
    (index (x :: b) (i + 1) : Attempt ε β) = index b i := by
  rw [index, List.getElem?_cons_succ]
  rfl

theorem slice_append {a b c : List β} {i j : ℕ} (hi : a.length = i) (hj : a.length + b.length = j) :
    (slice (a ++ (b ++ c)) i j : Attempt ε (List β)) = .ok b := by
  subst hi hj
  rw [slice_eq (Nat.le_add_right _ _) (by simp only [List.length_append]; omega),
    List.drop_left, Nat.add_sub_cancel_left, List.take_left]

theorem sliceFrom_append {a b : List β} {i : ℕ} (hi : a.length = i) :
    (sliceFrom (a ++ b) i : Attempt ε (List β)) = .ok b := by
  subst hi
  rw [sliceFrom_eq (by simp), List.drop_left]

/-! ## Postconditions of attempts that do not panic -/

/-- The attempt does not panic, and a value that it returns satisfies the postcondition. -/
def Safe (x : Attempt ε α) (Q : α → Prop) : Prop :=
  match x with
  | .ok a => Q a
  | .error _ => True
  | .panics => False

theorem Safe.ne_panics {x : Attempt ε α} {Q : α → Prop} (h : Safe x Q) : x ≠ .panics := by
  rintro rfl
  exact h

theorem Safe.of_ok {x : Attempt ε α} {Q : α → Prop} {a : α} (h : Safe x Q) (hx : x = .ok a) :
    Q a := by
  subst hx
  exact h

theorem safe_of_ne_panics {x : Attempt ε α} (h : x ≠ .panics) : Safe x fun _ => True := by
  cases x with
  | ok a => trivial
  | error e => trivial
  | panics => exact h rfl

theorem Safe.bind {x : Attempt ε α} {f : α → Attempt ε β} {P : α → Prop} {Q : β → Prop}
    (hx : Safe x P) (hf : ∀ a, P a → Safe (f a) Q) : Safe (x >>= f) Q := by
  cases x with
  | ok a => exact hf a hx
  | error e => trivial
  | panics => exact hx.elim

theorem safe_orElse {x y : Attempt ε α} {Q : α → Prop} (hx : Safe x Q) (hy : Safe y Q) :
    Safe (orElse x y) Q := by
  cases x with
  | ok a => exact hx
  | error e => exact hy
  | panics => exact hx.elim

theorem safe_ensure {c : Prop} [Decidable c] {e : ε} {f : Unit → Attempt ε β} {Q : β → Prop}
    (h : c → Safe (f ()) Q) : Safe (ensure c e >>= f) Q := by
  rw [ensure_bind]
  split
  · exact h ‹_›
  · trivial

theorem safe_index {b : List α} {i : ℕ} {f : α → Attempt ε β} {Q : β → Prop} (hi : i < b.length)
    (h : ∀ x, Safe (f x) Q) : Safe (index b i >>= f) Q := by
  rw [index_eq hi]
  exact h _

theorem safe_slice {b : List α} {i j : ℕ} {f : List α → Attempt ε β} {Q : β → Prop} (hi : i ≤ j)
    (hj : j ≤ b.length) (h : ∀ s : List α, s.length = j - i → Safe (f s) Q) :
    Safe (slice b i j >>= f) Q := by
  rw [slice_eq hi hj]
  exact h _ (by rw [List.length_take, List.length_drop]; omega)

theorem safe_sliceFrom {b : List α} {i : ℕ} {f : List α → Attempt ε β} {Q : β → Prop}
    (hi : i ≤ b.length) (h : ∀ s : List α, s.length = b.length - i → Safe (f s) Q) :
    Safe (sliceFrom b i >>= f) Q := by
  rw [sliceFrom_eq hi]
  exact h _ List.length_drop

/-! ## The loop over a buffer -/

section Loop
variable (item : List β → Attempt ε (α × List β))

def readAllFrom : ℕ → List β → Attempt ε (List α)
  | _, [] => .ok []
  | 0, _ :: _ => .ok []
  | fuel + 1, b :: buf => do
    let (a, rest) ← item (b :: buf)
    let as ← readAllFrom fuel rest
    .ok (a :: as)

/-- `while !buf.is_empty()`: every turn takes an item off the front. -/
def readAll (buf : List β) : Attempt ε (List α) := readAllFrom item buf.length buf

/-- The turns of the loop: from a buffer to what is left of it. -/
def Turn (buf rest : List β) : Prop := buf ≠ [] ∧ ∃ a, item buf = .ok (a, rest)

/-- The buffers that the loop comes by. -/
def Visits : List β → List β → Prop := Relation.ReflTransGen (Turn item)

/-- Every item is at least one byte. -/
def Consumes : Prop := ∀ buf a rest, item buf = .ok (a, rest) → rest.length < buf.length

variable {item}

theorem readAllFrom_stable (h : Consumes item) {fuel fuel' : ℕ} {buf : List β}
    (hfuel : buf.length ≤ fuel) (hfuel' : buf.length ≤ fuel') :
    readAllFrom item fuel buf = readAllFrom item fuel' buf := by
  induction fuel generalizing fuel' buf with
  | zero =>
    obtain rfl := List.eq_nil_of_length_eq_zero (Nat.le_zero.mp hfuel)
    rw [readAllFrom, readAllFrom]
  | succ fuel ih =>
    cases buf with
    | nil => rw [readAllFrom, readAllFrom]
    | cons b buf =>
      cases fuel' with
      | zero => nomatch hfuel'
      | succ fuel' =>
        rw [readAllFrom, readAllFrom]
        cases hitem : item (b :: buf) with
        | error e => rfl
        | panics => rfl
        | ok r =>
          obtain ⟨a, rest⟩ := r
          have hlt := h _ _ _ hitem
          rw [List.length_cons] at hlt hfuel hfuel'
          simp only [ok_bind]
          rw [ih (by omega : rest.length ≤ fuel) (by omega : rest.length ≤ fuel')]

@[simp] theorem readAll_nil : readAll item [] = .ok [] := rfl

theorem readAll_of_ne_nil (h : Consumes item) {buf : List β} (hbuf : buf ≠ []) :
    readAll item buf = (item buf >>= fun (a, rest) => do
      let as ← readAll item rest
      .ok (a :: as)) := by
  cases buf with
  | nil => exact absurd rfl hbuf
  | cons b buf =>
    rw [readAll, List.length_cons, readAllFrom]
    cases hitem : item (b :: buf) with
    | error e => rfl
    | panics => rfl
    | ok r =>
      obtain ⟨a, rest⟩ := r
      have hlt := h _ _ _ hitem
      rw [List.length_cons] at hlt
      simp only [ok_bind]
      rw [readAllFrom_stable h (by omega : rest.length ≤ buf.length) (Nat.le_refl _)]
      rfl

theorem readAll_of_item (h : Consumes item) {buf rest : List β} {a : α}
    (hitem : item buf = .ok (a, rest)) :
    readAll item buf = (readAll item rest >>= fun as => .ok (a :: as)) := by
  have hbuf : buf ≠ [] := by
    rintro rfl
    exact Nat.not_lt_zero _ (h _ _ _ hitem)
  rw [readAll_of_ne_nil h hbuf, hitem]
  rfl

theorem readAll_flatMap (h : Consumes item) (encode : α → List β) {as : List α}
    (hread : ∀ a ∈ as, ∀ rest, item (encode a ++ rest) = .ok (a, rest)) :
    readAll item (as.flatMap encode) = .ok as := by
  induction as with
  | nil => rfl
  | cons a as ih =>
    obtain ⟨hhead, htail⟩ := List.forall_mem_cons.mp hread
    rw [List.flatMap_cons, readAll_of_item h (hhead _), ih htail, ok_bind]

theorem readAll_eq_panics_iff (h : Consumes item) {buf : List β} : readAll item buf = .panics ↔
    ∃ rest, Visits item buf rest ∧ rest ≠ [] ∧ item rest = .panics := by
  induction hlen : buf.length using Nat.strongRecOn generalizing buf with
  | _ n ih =>
    subst hlen
    by_cases hbuf : buf = []
    · subst hbuf
      refine iff_of_false (nomatch ·) ?_
      rintro ⟨rest, hvisits, hrest, -⟩
      rcases Relation.ReflTransGen.cases_head hvisits with rfl | ⟨_, hturn, -⟩
      · exact hrest rfl
      · exact hturn.1 rfl
    rw [readAll_of_ne_nil h hbuf, bind_eq_panics]
    constructor
    · rintro (hitem | ⟨⟨a, rest⟩, hitem, hrest⟩)
      · exact ⟨buf, .refl, hbuf, hitem⟩
      · rcases bind_eq_panics.mp hrest with hrest | ⟨_, _, hok⟩
        · obtain ⟨last, hvisits, hlast⟩ := (ih _ (h _ _ _ hitem) rfl).mp hrest
          exact ⟨last, .head ⟨hbuf, a, hitem⟩ hvisits, hlast⟩
        · nomatch hok
    · rintro ⟨last, hvisits, hne, hlast⟩
      rcases Relation.ReflTransGen.cases_head hvisits with rfl | ⟨rest, ⟨-, a, hitem⟩, hvisits⟩
      · exact Or.inl hlast
      · refine Or.inr ⟨(a, rest), hitem, bind_eq_panics.mpr (Or.inl ?_)⟩
        exact (ih _ (h _ _ _ hitem) rfl).mpr ⟨last, hvisits, hne, hlast⟩

theorem readAll_eq_cons (h : Consumes item) {buf : List β} {a : α} {as : List α}
    (hread : readAll item buf = .ok (a :: as)) :
    ∃ rest, item buf = .ok (a, rest) ∧ readAll item rest = .ok as := by
  have hbuf : buf ≠ [] := by
    rintro rfl
    nomatch hread
  rw [readAll_of_ne_nil h hbuf] at hread
  obtain ⟨⟨a', rest⟩, hitem, hread⟩ := bind_eq_ok.mp hread
  obtain ⟨as', hrest, heq⟩ := bind_eq_ok.mp hread
  obtain ⟨rfl, rfl⟩ := List.cons.inj (Attempt.ok.inj heq)
  exact ⟨rest, hitem, hrest⟩

theorem readAll_forall (h : Consumes item) {P : α → Prop}
    (hitem : ∀ buf a rest, item buf = .ok (a, rest) → P a) {buf : List β} {as : List α}
    (hread : readAll item buf = .ok as) : ∀ a ∈ as, P a := by
  induction as generalizing buf with
  | nil => exact fun _ ha => nomatch ha
  | cons a as ih =>
    obtain ⟨rest, hhead, hrest⟩ := readAll_eq_cons h hread
    exact List.forall_mem_cons.mpr ⟨hitem _ _ _ hhead, ih hrest⟩

/-- Items that do not panic and take at least one byte. -/
def SafeItem (item : List β → Attempt ε (α × List β)) : Prop :=
  ∀ buf, Safe (item buf) fun r => r.2.length < buf.length

theorem SafeItem.consumes (h : SafeItem item) : Consumes item :=
  fun buf _ _ hitem => (h buf).of_ok hitem

theorem SafeItem.readAll_ne_panics (h : SafeItem item) (buf : List β) :
    readAll item buf ≠ .panics := by
  intro hpanics
  obtain ⟨rest, -, -, hrest⟩ := (readAll_eq_panics_iff h.consumes).mp hpanics
  exact (h rest).ne_panics hrest

end Loop

end Attempt

end Rill
