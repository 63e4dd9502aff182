import Rill.ReplicaStep

/-!
# Replicas that apply the same log

Two replicas start from one configuration and apply one log, each reading its hash maps in orders
of its own. They give the same responses and pass through the same snapshots exactly when no
change of a relay roster draws path ids for more than one path set.
-/

namespace Rill

section Configuration
variable {α : Type} {p q : α → Bool} {f g : α → α}

theorem updateFirst_comm (hf : ∀ a, q (f a) = q a) (hg : ∀ a, p (g a) = p a)
    (hfg : ∀ a, p a = true → q a = true → f (g a) = g (f a)) (l : List α) :
    updateFirst p f (updateFirst q g l) = updateFirst q g (updateFirst p f l) := by
  induction l with
  | nil => rfl
  | cons a l ih =>
    cases hp : p a with
    | true =>
      cases hq : q a with
      | true => simp [updateFirst, hp, hq, hf, hg, hfg]
      | false => simp [updateFirst, hp, hq, hf]
    | false =>
      cases hq : q a with
      | true => simp [updateFirst, hp, hq, hg]
      | false => simp [updateFirst, hp, hq, ih]

theorem Registry.removeAuthKey_comm (r : Registry) (key key' : Text) :
    (r.removeAuthKey key).removeAuthKey key' = (r.removeAuthKey key').removeAuthKey key := by
  have herase : (r.authKeys.erase key).erase key' = (r.authKeys.erase key').erase key := by
    refine Std.ExtTreeMap.ext_getElem? fun k => ?_
    simp only [Table.getElem?_erase]
    split_ifs <;> rfl
  simp only [Registry.removeAuthKey, herase]

theorem Coordinator.removeAuthKey_comm (c : Coordinator) (key key' : Text) :
    (c.removeAuthKey key).removeAuthKey key' = (c.removeAuthKey key').removeAuthKey key := by
  simp only [Coordinator.removeAuthKey]
  cases AuthKey.parse key with
  | error e => rfl
  | ok parsed =>
    cases AuthKey.parse key' with
    | error e => rfl
    | ok parsed' =>
      refine congrArg (fun ds => { c with domains := ds }) (updateFirst_comm ?_ ?_ ?_ c.domains)
      · exact fun _ => rfl
      · exact fun _ => rfl
      · exact fun d _ _ => congrArg (fun r => { d with registry := r })
          (Registry.removeAuthKey_comm d.registry key key')

theorem NetworkConfig.pruneAuthKeys_eq (net : NetworkConfig) (c : Coordinator) (o o' : IterOrder) :
    net.pruneAuthKeys o c = net.pruneAuthKeys o' c := by
  have hperm : (c.authKeyListFor o net.name).Perm (c.authKeyListFor o' net.name) := by
    rw [Coordinator.authKeyListFor, Coordinator.authKeyListFor]
    cases c.domainByName net.name with
    | none => exact .refl _
    | some d => exact HashOrder.keys_perm _ _ _
  refine hperm.foldl_eq' (fun key _ key' _ c => ?_) c
  split_ifs
  · rfl
  · rfl
  · rfl
  · exact Coordinator.removeAuthKey_comm c key key'

theorem CoordConfig.machine_eq (cfg : CoordConfig) (M : Type) (o o' : IterOrder) :
    cfg.machine M o = cfg.machine M o' := by
  have hnet : ∀ net : NetworkConfig, net.applyTo o = net.applyTo o' := by
    intro net
    funext c
    simp only [NetworkConfig.applyTo, net.pruneAuthKeys_eq _ o o']
  simp only [CoordConfig.machine, CoordConfig.applyTo, hnet]

end Configuration

namespace CoordStateMachine
variable {M : Type} (L : Crates)

/-- A step of a replica: the orders in which it reads its hash maps, and the entry it applies. -/
def step (m : CoordStateMachine M) (a : IterOrder × Entry M) : Option (CoordStateMachine M) :=
  (m.applyEntry L a.1 a.2).map Prod.snd

def responses : CoordStateMachine M → List (IterOrder × Entry M) → List CoordCommandResult
  | _, [] => []
  | m, a :: run => (m.applyEntry L a.1 a.2).elim [] fun r => r.1 :: responses r.2 run

/-- The snapshots at the start, taken in the order `o`, and after each entry. -/
def snapshots (o : IterOrder) :
    CoordStateMachine M → List (IterOrder × Entry M) → List CoordState
  | m, [] => [m.stateSnapshot o]
  | m, a :: run =>
    m.stateSnapshot o :: (m.applyEntry L a.1 a.2).elim [] fun r => snapshots a.1 r.2 run

/-- The entry draws path ids for at most one path set. -/
def AtMostOneDraw (m : CoordStateMachine M) (a : IterOrder × Entry M) : Prop :=
  match a.2.payload with
  | .normal cmd => (m.coordinator.rosterDraws cmd).length ≤ 1
  | _ => True

variable {L} {m m' : CoordStateMachine M}

theorem applyEntry_cases (h : m.coordinator.erase = m'.coordinator.erase) {o : IterOrder}
    {e : Entry M} (hdraw : m.AtMostOneDraw (o, e)) (o' : IterOrder) :
    (m.applyEntry L o e = none ∧ m'.applyEntry L o' e = none) ∨
      ∃ r n n', m.applyEntry L o e = some (r, n) ∧ m'.applyEntry L o' e = some (r, n') ∧
        n.coordinator.erase = n'.coordinator.erase := by
  obtain ⟨logId, payload⟩ := e
  cases payload with
  | blank => exact .inr ⟨_, _, _, rfl, rfl, h⟩
  | membership ms => exact .inr ⟨_, _, _, rfl, rfl, h⟩
  | normal cmd =>
    have hcmd := Coordinator.applyCommand_congr h L o o' hdraw logId
    simp only [applyEntry]
    cases hc : m.coordinator.applyCommand L o cmd logId with
    | none =>
      rw [hc, Option.map_none] at hcmd
      rw [Option.map_eq_none_iff.mp hcmd.symm]
      exact .inl ⟨rfl, rfl⟩
    | some out =>
      rw [hc, Option.map_some] at hcmd
      obtain ⟨out', hc', hsaved⟩ := Option.map_eq_some_iff.mp hcmd.symm
      obtain ⟨hans, hstate⟩ := Prod.mk.inj hsaved
      rw [hc', Option.map_some, Option.map_some, hans]
      exact .inr ⟨_, _, _, rfl, rfl, hstate.symm⟩

theorem agree_of_meets {run run' : List (IterOrder × Entry M)} (o o' : IterOrder)
    (h : m.coordinator.erase = m'.coordinator.erase)
    (hmeets : Transition.Meets (step L) AtMostOneDraw m run)
    (hlog : run.map Prod.snd = run'.map Prod.snd) :
    responses L m run = responses L m' run' ∧ snapshots L o m run = snapshots L o' m' run' := by
  have hsnapshot : m.stateSnapshot o = m'.stateSnapshot o' := Coordinator.snapshot_congr h o o'
  induction run generalizing run' o o' m m' with
  | nil =>
    obtain rfl : run' = [] := List.map_eq_nil_iff.mp hlog.symm
    exact ⟨rfl, congrArg (fun s => [s]) hsnapshot⟩
  | cons a run ih =>
    cases run' with
    | nil => exact absurd hlog (List.cons_ne_nil _ _)
    | cons a' run' =>
      obtain ⟨o₁, e⟩ := a
      obtain ⟨o₁', e'⟩ := a'
      obtain ⟨hentry, hrest⟩ := List.cons.inj hlog
      obtain rfl : e = e' := hentry
      simp only [responses, snapshots]
      rcases applyEntry_cases (L := L) h hmeets.1 o₁' with ⟨hn, hn'⟩ | ⟨r, n, n', hs, hs', hnext⟩
      · rw [hn, hn']
        exact ⟨rfl, congrArg (fun s => [s]) hsnapshot⟩
      · have hstep : step L m (o₁, e) = some n := by rw [step, hs]; rfl
        obtain ⟨hres, hsnaps⟩ := ih o₁ o₁' hnext (hmeets.2 n hstep) hrest
          (Coordinator.snapshot_congr hnext o₁ o₁')
        rw [hs, hs']
        simp only [Option.elim_some]
        rw [hres, hsnaps, hsnapshot]
        exact ⟨rfl, rfl⟩

theorem head?_snapshots (o : IterOrder) (run : List (IterOrder × Entry M)) :
    (snapshots L o m run).head? = some (m.stateSnapshot o) := by
  cases run with
  | nil => rfl
  | cons a run => rfl

theorem snapshots_eq (o o' : IterOrder) (run : List (IterOrder × Entry M)) :
    snapshots L o m run = snapshots L o' m run := by
  have hsnapshot : m.stateSnapshot o = m.stateSnapshot o' := Coordinator.snapshot_congr rfl o o'
  cases run with
  | nil => simp only [snapshots, hsnapshot]
  | cons a run => simp only [snapshots, hsnapshot]

theorem meets_of_agree {log : List (Entry M)}
    (h : ∀ o run run', run.map Prod.snd = log → run'.map Prod.snd = log →
      snapshots L o m run = snapshots L o m run')
    {run : List (IterOrder × Entry M)} (hlog : run.map Prod.snd = log) :
    Transition.Meets (step L) AtMostOneDraw m run := by
  induction log generalizing m run with
  | nil =>
    obtain rfl : run = [] := List.map_eq_nil_iff.mp hlog
    trivial
  | cons e log ih =>
    obtain ⟨⟨o₁, e₁⟩, run, rfl, he, hrest⟩ := List.map_eq_cons_iff.mp hlog
    obtain rfl : e₁ = e := he
    refine ⟨?_, fun n hn => ih (fun o run run' hrun hrun' => ?_) hrest⟩
    · obtain ⟨logId, payload⟩ := e₁
      cases payload with
      | blank => trivial
      | membership ms => trivial
      | normal cmd =>
        change (m.coordinator.rosterDraws cmd).length ≤ 1
        cases cmd with
        | setRelayRoster networkId roster now =>
          refine Coordinator.rosterDraws_length_le_one fun o o' => ?_
          have hlogs : ∀ o : IterOrder,
              ((o, ⟨logId, .normal (.setRelayRoster networkId roster now)⟩) ::
                log.map fun e => (o, e)).map Prod.snd =
              (⟨logId, .normal (.setRelayRoster networkId roster now)⟩ : Entry M) :: log := by
            intro o
            simp [Function.comp_def]
          have htail := (List.cons.inj (h o _ _ (hlogs o) (hlogs o'))).2
          have hheads := congrArg List.head? htail
          simp only [applyEntry, Coordinator.applyCommand, Option.map_some, Option.elim_some,
            head?_snapshots, Option.some.injEq] at hheads
          exact hheads
        | _ => simp [Coordinator.rosterDraws]
    · have hall := h o ((o₁, e₁) :: run) ((o₁, e₁) :: run') (by rw [List.map_cons, hrun])
        (by rw [List.map_cons, hrun'])
      obtain ⟨r, hr⟩ : ∃ r, m.applyEntry L o₁ e₁ = some (r, n) := by
        obtain ⟨⟨r, n'⟩, hr, rfl⟩ := Option.map_eq_some_iff.mp hn
        exact ⟨r, hr⟩
      simp only [snapshots, hr, Option.elim_some, List.cons.injEq, true_and] at hall
      rwa [snapshots_eq o o₁, snapshots_eq o o₁]

/-- Two replicas that start from one configuration and apply one log give the same responses and
pass through the same snapshots, whatever the orders of their hash maps, if and only if every
entry of the log draws path ids for at most one path set. -/
theorem replicas_agree_iff (L : Crates) (cfg : CoordConfig) (log : List (Entry M)) :
    (∀ (o o' : IterOrder) (run run' : List (IterOrder × Entry M)),
      run.map Prod.snd = log → run'.map Prod.snd = log →
      responses L (cfg.machine M o) run = responses L (cfg.machine M o') run' ∧
      snapshots L o (cfg.machine M o) run = snapshots L o' (cfg.machine M o') run') ↔
    ∀ (o : IterOrder) (run : List (IterOrder × Entry M)), run.map Prod.snd = log →
      Transition.Meets (step L) AtMostOneDraw (cfg.machine M o) run := by
  constructor
  · intro h o run hlog
    exact meets_of_agree (fun o' run run' hrun hrun' => by
      rw [cfg.machine_eq M o o']
      exact (h o' o' run run' hrun hrun').2) hlog
  · intro h o o' run run' hrun hrun'
    refine agree_of_meets o o' ?_ (h o run hrun) (hrun.trans hrun'.symm)
    rw [cfg.machine_eq M o o']

end CoordStateMachine

section Lab

/-- Stand-ins for the crates: keys in clear, a signature that repeats its message, no addresses. -/
def clearCrates : Crates where
  crypto := Crypto.clear 4096
  sign seed msg := seed.toList ++ msg
  parseIp _ := none
  showIp _ := []

def labKey : Text := ascii "lrk-lab-0-AAAAAAAAAAAAAAAAAAAAAAAAAAAAAAAAAAAAAAAAAAAAAAAAAAAA"

def denKey : Text := ascii "lrk-den-0-AAAAAAAAAAAAAAAAAAAAAAAAAAAAAAAAAAAAAAAAAAAAAAAAAAAA"

def labConfig : CoordConfig where
  signingSeed := .replicate 32 7
  networks := [{ name := ascii "lab", masterKey := .replicate 32 1
                 authKeys := [{ key := labKey, policy := ascii "reusable" }] },
               { name := ascii "den", masterKey := .replicate 32 2
                 authKeys := [{ key := denKey, policy := ascii "reusable" }] }]

def labOrder : IterOrder := .ofPaths .ascending

def labEntry (index : UInt64) (cmd : CoordCommand) : Entry Unit :=
  { logId := { index, term := 1 }, payload := .normal cmd }

/-- Three nodes register, two of them ask for paths to each other, the third becomes a relay. -/
def labLog : List (Entry Unit) :=
  [labEntry 1 (.register labKey (.replicate 32 1) 0 [] 100),
   labEntry 2 (.register labKey (.replicate 32 2) 0 [] 100),
   labEntry 3 (.register labKey (.replicate 32 3) 1 [] 100),
   labEntry 4 (.requestPaths 1 2 4 100), labEntry 5 (.requestPaths 2 1 4 100),
   labEntry 6 (.setRelayRoster (networkIdFor (ascii "lab")) [3] 200)]

/-- The replica that expands the path from 1 to 2 first gives it path id 3, the other one 4. -/
theorem lab_replicas_disagree :
    let ascending := IterOrder.ofPaths .ascending
    let descending := IterOrder.ofPaths .descending
    CoordStateMachine.snapshots clearCrates ascending (labConfig.machine Unit ascending)
        (labLog.map fun e => (ascending, e)) ≠
      CoordStateMachine.snapshots clearCrates descending (labConfig.machine Unit descending)
        (labLog.map fun e => (descending, e)) := by
  decide +kernel

/-- The same log with the roster in front, where it draws no path ids. -/
def labEarlyRoster : List (Entry Unit) :=
  labEntry 0 (.setRelayRoster (networkIdFor (ascii "lab")) [3] 50) :: labLog.take 5

/-- With the roster set before the requests the two replicas agree. -/
theorem lab_replicas_agree :
    let ascending := IterOrder.ofPaths .ascending
    let descending := IterOrder.ofPaths .descending
    CoordStateMachine.snapshots clearCrates ascending (labConfig.machine Unit ascending)
        (labEarlyRoster.map fun e => (ascending, e)) =
      CoordStateMachine.snapshots clearCrates descending (labConfig.machine Unit descending)
        (labEarlyRoster.map fun e => (descending, e)) := by
  intro ascending descending
  have hmap : ∀ o : IterOrder,
      (labEarlyRoster.map fun e => (o, e)).map Prod.snd = labEarlyRoster := by
    intro o
    simp [Function.comp_def]
  refine ((CoordStateMachine.replicas_agree_iff clearCrates labConfig labEarlyRoster).mpr ?_
    ascending descending _ _ (hmap ascending) (hmap descending)).2
  intro o run hlog
  obtain ⟨first, rest, rfl, hfirst, hrest⟩ := List.map_eq_cons_iff.mp hlog
  refine ⟨?_, fun m _ => Transition.meets_of_forall (fun m a ha => ?_) _⟩
  · rw [CoordStateMachine.AtMostOneDraw, hfirst, labConfig.machine_eq Unit o ascending]
    change ((labConfig.machine Unit ascending).coordinator.rosterDraws _).length ≤ 1
    decide +kernel
  · have hentry : a.2 ∈ labLog.take 5 := hrest ▸ List.mem_map_of_mem ha
    rw [labLog] at hentry
    simp only [List.take_succ_cons, List.take_zero, List.mem_cons, List.not_mem_nil, or_false]
      at hentry
    rcases hentry with h | h | h | h | h
    all_goals
      rw [CoordStateMachine.AtMostOneDraw, h]
      exact Nat.zero_le 1

end Lab

end Rill
