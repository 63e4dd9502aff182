import Rill.Transition

/-!
# Tasks under a lock

A `Program` makes calls on a shared store, one after another, and ends with a result or an error. A
`Service` gives the calls their meaning and runs a program for each message it receives, one at a
time; others may change the store between any two calls.

`Safe` is what a program guarantees while the others keep to a relation: every call it makes is
allowed where it is made. A `Contract` has this for all programs of a service.
-/

namespace Interaction

inductive Program (Op : Type) (Reply : Op → Type) (ε α : Type) where
  | ret (a : α)
  | fail (e : ε)
  | call (op : Op) (next : Reply op → Program Op Reply ε α)

namespace Program
variable {Op : Type} {Reply : Op → Type} {ε α β : Type}

protected def bind : Program Op Reply ε α → (α → Program Op Reply ε β) → Program Op Reply ε β
  | .ret a, f => f a
  | .fail e, _ => .fail e
  | .call op next, f => .call op fun r => (next r).bind f

instance : Monad (Program Op Reply ε) where
  pure := .ret
  bind := Program.bind

instance : MonadExcept ε (Program Op Reply ε) where
  throw := .fail
  tryCatch p _ := p

def perform (op : Op) : Program Op Reply ε (Reply op) := .call op .ret

def ensure (b : Bool) (e : ε) : Program Op Reply ε Unit := if b then .ret () else .fail e

def each (f : β → Program Op Reply ε Unit) : List β → Program Op Reply ε Unit
  | [] => pure ()
  | b :: l => do
    f b
    each f l

def collect (f : β → Program Op Reply ε α) : List β → Program Op Reply ε (List α)
  | [] => pure []
  | b :: l => do
    let a ← f b
    let rest ← collect f l
    pure (a :: rest)

/-- Every call the program can make satisfies `P`. -/
def Only (P : Op → Prop) : Program Op Reply ε α → Prop
  | .ret _ => True
  | .fail _ => True
  | .call op next => P op ∧ ∀ r, (next r).Only P

variable {P : Op → Prop}

theorem Only.imp {Q : Op → Prop} (h : ∀ op, P op → Q op) {p : Program Op Reply ε α}
    (hp : p.Only P) : p.Only Q := by
  induction p with
  | ret a => trivial
  | fail e => trivial
  | call op next ih => exact ⟨h op hp.1, fun r => ih r (hp.2 r)⟩

theorem only_bind {p : Program Op Reply ε α} {f : α → Program Op Reply ε β} (hp : p.Only P)
    (hf : ∀ a, (f a).Only P) : (p >>= f).Only P := by
  induction p with
  | ret a => exact hf a
  | fail e => trivial
  | call op next ih => exact ⟨hp.1, fun r => ih r (hp.2 r)⟩

theorem only_perform_bind {op : Op} {f : Reply op → Program Op Reply ε β} (hop : P op)
    (hf : ∀ r, (f r).Only P) : (perform op >>= f).Only P := ⟨hop, hf⟩

theorem only_ensure (b : Bool) (e : ε) : (ensure b e : Program Op Reply ε Unit).Only P := by
  cases b with
  | true => trivial
  | false => trivial

theorem only_each {f : β → Program Op Reply ε Unit} (hf : ∀ b, (f b).Only P) (l : List β) :
    (each f l).Only P := by
  induction l with
  | nil => trivial
  | cons b l ih => exact only_bind (hf b) fun _ => ih

theorem only_collect {f : β → Program Op Reply ε α} (hf : ∀ b, (f b).Only P) (l : List β) :
    (collect f l).Only P := by
  induction l with
  | nil => trivial
  | cons b l ih => exact only_bind (hf b) fun _ => only_bind ih fun _ => trivial

end Program

/-- What others may do meanwhile, what a call may lead to, and where a call is allowed. -/
structure Rules (Op : Type) (Reply : Op → Type) (W : Type) where
  rely : W → W → Prop
  can : W → (op : Op) → Reply op → W → Prop
  allowed : W → Op → Prop

/-- Others and the calls in `P` keep the fact, and it allows these calls. -/
structure Rules.Keeps {Op : Type} {Reply : Op → Type} {W : Type} (ρ : Rules Op Reply W)
    (P : Op → Prop) (F : W → Prop) : Prop where
  rely : ∀ w w₁, F w → ρ.rely w w₁ → F w₁
  allowed : ∀ w op, P op → F w → ρ.allowed w op
  can : ∀ w op r w₁, P op → F w → ρ.can w op r w₁ → F w₁

/-- The rules where `F` holds: others keep to them while it does, and a call needs it. -/
def Rules.under {Op : Type} {Reply : Op → Type} {W : Type} (ρ : Rules Op Reply W) (F : W → Prop) :
    Rules Op Reply W where
  rely w w' := F w → ρ.rely w w'
  can := ρ.can
  allowed w op := ρ.allowed w op ∧ F w

namespace Program
variable {Op : Type} {Reply : Op → Type} {ε α β W : Type} (ρ : Rules Op Reply W)

def Safe (post : Except ε α → W → Prop) : Program Op Reply ε α → W → Prop
  | .ret a, w => post (.ok a) w
  | .fail e, w => post (.error e) w
  | .call op next, w => ∀ w₁, ρ.rely w w₁ →
      ρ.allowed w₁ op ∧ ∀ r w₂, ρ.can w₁ op r w₂ → (next r).Safe post w₂

variable {ρ} {post post' : Except ε α → W → Prop} {p : Program Op Reply ε α} {w : W}

theorem Safe.mono (h : ∀ r w, post r w → post' r w) (hp : p.Safe ρ post w) :
    p.Safe ρ post' w := by
  induction p generalizing w with
  | ret a => exact h _ w hp
  | fail e => exact h _ w hp
  | call op next ih =>
    intro w₁ hrely
    obtain ⟨hallowed, hnext⟩ := hp w₁ hrely
    exact ⟨hallowed, fun r w₂ hcan => ih r (hnext r w₂ hcan)⟩

theorem safe_perform_bind {op : Op} {f : Reply op → Program Op Reply ε α}
    (h : ∀ w₁, ρ.rely w w₁ →
      ρ.allowed w₁ op ∧ ∀ r w₂, ρ.can w₁ op r w₂ → (f r).Safe ρ post w₂) :
    (perform op >>= f).Safe ρ post w := h

theorem safe_bind {f : α → Program Op Reply ε β} {post : Except ε β → W → Prop}
    (h : p.Safe ρ (fun r w => match r with
      | .ok a => (f a).Safe ρ post w
      | .error e => post (.error e) w) w) : (p >>= f).Safe ρ post w := by
  induction p generalizing w with
  | ret a => exact h
  | fail e => exact h
  | call op next ih =>
    intro w₁ hrely
    obtain ⟨hallowed, hnext⟩ := h w₁ hrely
    exact ⟨hallowed, fun r w₂ hcan => ih r (hnext r w₂ hcan)⟩

theorem safe_ensure {b : Bool} {e : ε} {post : Except ε Unit → W → Prop}
    (hok : b = true → post (.ok ()) w) (he : b = false → post (.error e) w) :
    (ensure b e : Program Op Reply ε Unit).Safe ρ post w := by
  cases b with
  | true => exact hok rfl
  | false => exact he rfl

theorem safe_ensure_bind {b : Bool} {e : ε} {f : Unit → Program Op Reply ε α}
    (hf : b = true → (f ()).Safe ρ post w) (he : b = false → post (.error e) w) :
    (ensure b e >>= f).Safe ρ post w := by
  cases b with
  | true => exact hf rfl
  | false => exact he rfl

/-- A program whose calls all keep a fact and are allowed by it keeps the fact to its end. -/
theorem safe_of_only {P : Op → Prop} {F : W → Prop} (h : ρ.Keeps P F) (hp : p.Only P) (hw : F w) :
    p.Safe ρ (fun _ w => F w) w := by
  induction p generalizing w with
  | ret a => exact hw
  | fail e => exact hw
  | call op next ih =>
    intro w₁ hr
    have hw₁ := h.rely w w₁ hw hr
    exact ⟨h.allowed w₁ op hp.1 hw₁, fun r w₂ hc => ih r (hp.2 r) (h.can w₁ op r w₂ hp.1 hw₁ hc)⟩

theorem safe_only_bind {P : Op → Prop} {F : W → Prop} {f : α → Program Op Reply ε β}
    {post : Except ε β → W → Prop} (h : ρ.Keeps P F) (hp : p.Only P) (hw : F w)
    (hf : ∀ a w, F w → (f a).Safe ρ post w) (he : ∀ e w, F w → post (.error e) w) :
    (p >>= f).Safe ρ post w := by
  refine safe_bind ((safe_of_only h hp hw).mono fun r w hw => ?_)
  cases r with
  | ok a => exact hf a w hw
  | error e => exact he e w hw

theorem safe_each {F : W → Prop} {f : β → Program Op Reply ε Unit} {l : List β}
    (hf : ∀ b ∈ l, ∀ w, F w → (f b).Safe ρ (fun _ w => F w) w) (hw : F w) :
    (each f l).Safe ρ (fun _ w => F w) w := by
  induction l generalizing w with
  | nil => exact hw
  | cons b l ih =>
    refine safe_bind ((hf b List.mem_cons_self w hw).mono fun r w hw => ?_)
    cases r with
    | ok _ => exact ih (fun b hb => hf b (List.mem_cons_of_mem _ hb)) hw
    | error e => exact hw

theorem safe_collect {F : List α → W → Prop} {E : ε → W → Prop} {f : β → Program Op Reply ε α}
    {l : List β} (as : List α)
    (hf : ∀ b ∈ l, ∀ as w, F as w → (f b).Safe ρ (fun r w => match r with
      | .ok a => F (as ++ [a]) w
      | .error e => E e w) w) (hw : F as w) :
    (collect f l).Safe ρ (fun r w => match r with
      | .ok rest => F (as ++ rest) w
      | .error e => E e w) w := by
  induction l generalizing as w with
  | nil =>
    change F (as ++ []) w
    rwa [List.append_nil]
  | cons b l ih =>
    refine safe_bind ((hf b List.mem_cons_self as w hw).mono fun r w hr => ?_)
    cases r with
    | error e => exact hr
    | ok a =>
      have hrest := ih (as ++ [a]) (fun b hb => hf b (List.mem_cons_of_mem _ hb)) hr
      refine safe_bind (hrest.mono fun r w hr => ?_)
      cases r with
      | error e => exact hr
      | ok rest =>
        change F (as ++ a :: rest) w
        rwa [List.append_cons]

theorem safe_keep_bind {P : Op → Prop} {F : W → Prop} {op : Op}
    {f : Reply op → Program Op Reply ε α} (h : ρ.Keeps P F) (hop : P op) (hw : F w)
    (hf : ∀ r w₁ w₂, ρ.rely w w₁ → F w₁ → ρ.can w₁ op r w₂ → F w₂ → (f r).Safe ρ post w₂) :
    (perform op >>= f).Safe ρ post w := by
  intro w₁ hr
  have hw₁ := h.rely w w₁ hw hr
  exact ⟨h.allowed w₁ op hop hw₁, fun r w₂ hc => hf r w₁ w₂ hr hw₁ hc (h.can w₁ op r w₂ hop hw₁ hc)⟩

/-- A safe program ends with the facts its calls keep. -/
theorem Safe.keep {P : Op → Prop} {F : W → Prop} (hrely : ∀ w w₁, F w → ρ.rely w w₁ → F w₁)
    (hcan : ∀ w op r w₁, P op → F w → ρ.can w op r w₁ → F w₁) (hp : p.Only P) (hw : F w)
    (hs : p.Safe ρ post w) : p.Safe ρ (fun r w => post r w ∧ F w) w := by
  induction p generalizing w with
  | ret a => exact ⟨hs, hw⟩
  | fail e => exact ⟨hs, hw⟩
  | call op next ih =>
    intro w₁ hr
    obtain ⟨hallowed, hnext⟩ := hs w₁ hr
    refine ⟨hallowed, fun r w₂ hc => ih r (hp.2 r) ?_ (hnext r w₂ hc)⟩
    exact hcan w₁ op r w₂ hp.1 (hrely w w₁ hw hr) hc

/-- A fact that neither the others nor the calls take away may be used wherever a call is made. -/
theorem Safe.under {F : W → Prop} (hrely : ∀ w w₁, F w → ρ.rely w w₁ → F w₁)
    (hcan : ∀ w op r w₁, F w → ρ.can w op r w₁ → F w₁) (hw : F w) (hp : p.Safe ρ post w) :
    p.Safe (ρ.under F) post w := by
  induction p generalizing w with
  | ret a => exact hp
  | fail e => exact hp
  | call op next ih =>
    intro w₁ hr
    have hw₁ := hrely w w₁ hw (hr hw)
    obtain ⟨hallowed, hnext⟩ := hp w₁ (hr hw)
    exact ⟨⟨hallowed, hw₁⟩, fun r w₂ hc => ih r (hcan w₁ op r w₂ hw₁ hc) (hnext r w₂ hc)⟩

/-- What others do in between does not take away that a program is safe. -/
theorem Safe.rely {w' : W} (htrans : ∀ w₁ w₂ w₃, ρ.rely w₁ w₂ → ρ.rely w₂ w₃ → ρ.rely w₁ w₃)
    (hpost : ∀ r, post r w → post r w') (hp : p.Safe ρ post w) (h : ρ.rely w w') :
    p.Safe ρ post w' := by
  cases p with
  | ret a => exact hpost _ hp
  | fail e => exact hpost _ hp
  | call op next => exact fun w₁ h₁ => hp w₁ (htrans w w' w₁ h h₁)

end Program

/-- Programs that run one at a time, on a store that others change too. -/
structure Service (Op : Type) (Reply : Op → Type) (ε S K I M E : Type) where
  /-- A call of the task of `k`; the input is what its surroundings add. -/
  exec : K → I → S → (op : Op) → Option (Reply op × S)
  ready : K → S → Bool
  handler : M → Program Op Reply ε Unit
  finish : K → Option ε → S → S
  /-- A step of others; some of them need the lock. -/
  outside : (locked : Bool) → S → E → Option S

inductive Event (Op : Type) (Reply : Op → Type) (S K M E : Type) where
  | started (k : K) (m : M)
  | called (k : K) (op : Op) (r : Reply op) (after : S)
  | outside (e : E)

structure World (Op : Type) (Reply : Op → Type) (S K M E : Type) where
  store : S
  log : List (Event Op Reply S K M E) := []

structure State (Op : Type) (Reply : Op → Type) (ε S K M E : Type) where
  world : World Op Reply S K M E
  task : Option (K × Program Op Reply ε Unit) := none

inductive Act (K I M E : Type) where
  | start (k : K) (m : M)
  | advance (i : I)
  | outside (e : E)

namespace Service
variable {Op : Type} {Reply : Op → Type} {ε S K I M E : Type} (svc : Service Op Reply ε S K I M E)

/-- The state with a program to go on with; one that has ended gives back the lock. -/
def settle (k : K) (w : World Op Reply S K M E) :
    Program Op Reply ε Unit → State Op Reply ε S K M E
  | .ret _ => { world := { w with store := svc.finish k none w.store } }
  | .fail e => { world := { w with store := svc.finish k (some e) w.store } }
  | .call op next => { world := w, task := some (k, .call op next) }

def step (s : State Op Reply ε S K M E) : Act K I M E → Option (State Op Reply ε S K M E)
  | .start k m =>
    match s.task with
    | some _ => none
    | none =>
      if svc.ready k s.world.store then
        some (svc.settle k { s.world with log := .started k m :: s.world.log } (svc.handler m))
      else none
  | .advance i =>
    match s.task with
    | some (k, .call op next) =>
      (svc.exec k i s.world.store op).map fun out =>
        svc.settle k { store := out.2, log := .called k op out.1 out.2 :: s.world.log } (next out.1)
    | _ => none
  | .outside e =>
    (svc.outside s.task.isSome s.world.store e).map fun store =>
      { s with world := { store, log := .outside e :: s.world.log } }

end Service

section Steps
variable {Op : Type} {Reply : Op → Type} {ε S K I M E : Type} {svc : Service Op Reply ε S K I M E}
  {s s' : State Op Reply ε S K M E}

theorem step_start {k : K} {m : M} (h : svc.step s (.start k m) = some s') :
    s.task = none ∧ svc.ready k s.world.store = true ∧
      s' = svc.settle k { s.world with log := .started k m :: s.world.log } (svc.handler m) := by
  rw [Service.step] at h
  cases htask : s.task with
  | some t =>
    rw [htask] at h
    nomatch h
  | none =>
    rw [htask] at h
    dsimp only at h
    split_ifs at h with hready
    exact ⟨rfl, hready, (Option.some.inj h).symm⟩

theorem step_advance {i : I} (h : svc.step s (.advance i) = some s') :
    ∃ k op next r store, s.task = some (k, .call op next) ∧
      svc.exec k i s.world.store op = some (r, store) ∧
      s' = svc.settle k { store, log := .called k op r store :: s.world.log } (next r) := by
  obtain ⟨w, task⟩ := s
  match task with
  | some (k, .call op next) =>
    obtain ⟨⟨r, store⟩, hexec, rfl⟩ := Option.map_eq_some_iff.mp h
    exact ⟨k, op, next, r, store, rfl, hexec, rfl⟩
  | some (k, .ret a) => nomatch h
  | some (k, .fail e) => nomatch h
  | none => nomatch h

theorem step_outside {e : E} (h : svc.step s (.outside e) = some s') :
    ∃ store, svc.outside s.task.isSome s.world.store e = some store ∧
      s' = { s with world := { store, log := .outside e :: s.world.log } } := by
  obtain ⟨store, hstore, rfl⟩ := Option.map_eq_some_iff.mp h
  exact ⟨store, hstore, rfl⟩

end Steps

/-- What holds of the world, and the rules under which every program of the service is safe. -/
structure Contract {Op : Type} {Reply : Op → Type} {ε S K I M E : Type}
    (svc : Service Op Reply ε S K I M E) where
  guard : State Op Reply ε S K M E → Act K I M E → Prop
  inv : World Op Reply S K M E → Prop
  rules : K → Rules Op Reply (World Op Reply S K M E)
  refl : ∀ k w, inv w → (rules k).rely w w
  trans : ∀ k w₁ w₂ w₃, (rules k).rely w₁ w₂ → (rules k).rely w₂ w₃ → (rules k).rely w₁ w₃
  outside : ∀ s e store, inv s.world → guard s (.outside e) →
    svc.outside s.task.isSome s.world.store e = some store →
    inv { store, log := .outside e :: s.world.log } ∧ ∀ k p, s.task = some (k, p) →
      (rules k).rely s.world { store, log := .outside e :: s.world.log }
  start : ∀ (w : World Op Reply S K M E) k m, inv w → guard { world := w } (.start k m) →
    svc.ready k w.store = true → inv { w with log := .started k m :: w.log } ∧
      (svc.handler m).Safe (rules k) (fun _ _ => True) { w with log := .started k m :: w.log }
  call : ∀ (w : World Op Reply S K M E) k op next i r store, inv w →
    guard { world := w, task := some (k, .call op next) } (.advance i) → (rules k).allowed w op →
    svc.exec k i w.store op = some (r, store) →
    inv { store, log := .called k op r store :: w.log } ∧
      (rules k).can w op r { store, log := .called k op r store :: w.log }
  finish : ∀ (w : World Op Reply S K M E) k e, inv w →
    inv { w with store := svc.finish k e w.store }

namespace Contract
variable {Op : Type} {Reply : Op → Type} {ε S K I M E : Type} {svc : Service Op Reply ε S K I M E}
  (ct : Contract svc) {s s' : State Op Reply ε S K M E}

/-- The invariant holds, and the program that runs is safe. -/
structure Good (s : State Op Reply ε S K M E) : Prop where
  inv : ct.inv s.world
  safe : ∀ k p, s.task = some (k, p) → p.Safe (ct.rules k) (fun _ _ => True) s.world

theorem good_settle {k : K} {w : World Op Reply S K M E} {p : Program Op Reply ε Unit}
    (hw : ct.inv w) (hp : p.Safe (ct.rules k) (fun _ _ => True) w) : ct.Good (svc.settle k w p) := by
  cases p with
  | ret a => exact ⟨ct.finish w k none hw, fun _ _ h => nomatch h⟩
  | fail e => exact ⟨ct.finish w k (some e) hw, fun _ _ h => nomatch h⟩
  | call op next =>
    refine ⟨hw, fun k' p' h => ?_⟩
    cases h
    exact hp

theorem allowed (hs : ct.Good s) {k : K} {op : Op} {next : Reply op → Program Op Reply ε Unit}
    (htask : s.task = some (k, .call op next)) : (ct.rules k).allowed s.world op :=
  (hs.safe k _ htask s.world (ct.refl k s.world hs.inv)).1

theorem step_good {a : Act K I M E} (hs : ct.Good s) (hguard : ct.guard s a)
    (h : svc.step s a = some s') : ct.Good s' := by
  cases a with
  | start k m =>
    obtain ⟨htask, hready, rfl⟩ := step_start h
    have hidle : ct.guard { world := s.world } (.start k m) := by
      rw [← htask]
      exact hguard
    obtain ⟨hinv, hsafe⟩ := ct.start s.world k m hs.inv hidle hready
    exact ct.good_settle hinv hsafe
  | advance i =>
    obtain ⟨k, op, next, r, store, htask, hexec, rfl⟩ := step_advance h
    have hguard' : ct.guard { world := s.world, task := some (k, .call op next) } (.advance i) := by
      rw [← htask]
      exact hguard
    obtain ⟨hinv, hcan⟩ := ct.call s.world k op next i r store hs.inv hguard' (ct.allowed hs htask)
      hexec
    exact ct.good_settle hinv ((hs.safe k _ htask s.world (ct.refl k s.world hs.inv)).2 r _ hcan)
  | outside e =>
    obtain ⟨store, hstore, rfl⟩ := step_outside h
    obtain ⟨hinv, hrely⟩ := ct.outside s e store hs.inv hguard hstore
    refine ⟨hinv, fun k p htask => ?_⟩
    exact (hs.safe k p htask).rely (ct.trans k) (fun _ _ => trivial) (hrely k p htask)

/-- In a run of guarded steps every call is allowed where it is made. -/
theorem meets {as : List (Act K I M E)} (hs : ct.Good s)
    (hguard : Transition.Meets svc.step ct.guard s as) :
    Transition.Meets svc.step (fun s _ => ∀ k op next, s.task = some (k, .call op next) →
      (ct.rules k).allowed s.world op) s as := by
  induction as generalizing s with
  | nil => trivial
  | cons a as ih =>
    refine ⟨fun k op next htask => ct.allowed hs htask, fun t ht => ?_⟩
    exact ih (ct.step_good hs hguard.1 ht) (hguard.2 t ht)

end Contract

end Interaction
