import Rill.IpText
import Rill.TableAssign
import Rill.Transition
import Rill.TsRegistry

/-!
# Calls of the ts2021 registry

The nodes are indexed by machine key and by node key, and the `n`-th new node has id `n` and address
number `n`. A machine keeps both when it registers again, and a call that fails changes nothing. The
address number has 32 bits, so this holds for the first 2^32 new nodes: the next one gets the number
of the first, which may still be registered.
-/

namespace Rill
namespace Ts2021

inductive RegistryCall where
  | register (machine nodeKey : Key32) (hostname authKey : Text) (now : UInt64)
  | applyMapUpdate (nid : ℤ) (discoKey : Option Key32) (endpoints routableIps : List Text)
      (preferredDerp : Option UInt16) (now : UInt64)
  | markOnline (nid : ℤ) (online : Bool) (now : UInt64)
  | evict (o : HashOrder ℤ) (hostname : Text)

namespace Registry

def step (parseIp : Text → Option IpAddr) (r : Registry) : RegistryCall → Option Registry
  | .register machine nodeKey hostname authKey now =>
    (r.register machine nodeKey hostname authKey now).map Prod.snd
  | .applyMapUpdate nid discoKey endpoints routableIps preferredDerp now =>
    some (r.applyMapUpdate parseIp nid discoKey endpoints routableIps preferredDerp now)
  | .markOnline nid online now => some (r.markOnline nid online now)
  | .evict o hostname => some (r.evict o hostname).2

/-- The call registers a machine that has no node. -/
def admits (r : Registry) : RegistryCall → Bool
  | .register machine nodeKey _ authKey now =>
    (r.admitAuthKey authKey now).isOk && !r.nodeKeyTaken machine nodeKey &&
      (r.byMachine[machine]?).isNone
  | _ => false

def newNodes (parseIp : Text → Option IpAddr) : Registry → List RegistryCall → ℕ
  | _, [] => 0
  | r, a :: as => (if r.admits a then 1 else 0) +
      ((r.step parseIp a).elim 0 fun r' => newNodes parseIp r' as)

variable {parseIp : Text → Option IpAddr} {r r' : Registry} {a : RegistryCall}

/-- What a call may do: nothing, renew a node under another node key, add one, change one without
its keys, or remove one. The flag says whether a node is added. -/
inductive Change (r : Registry) : Bool → Registry → Prop
  | keep : Change r false r
  | renew {machine nodeKey : Key32} {nid : ℤ} {e : NodeEntry} (hostname : Text) (now : UInt64)
      (hmachine : r.byMachine[machine]? = some nid) (hentry : r.nodes[nid]? = some e)
      (hfree : r.nodeKeyTaken machine nodeKey = false) (events : List Event) :
      Change r false { r with
        nodes := r.nodes.insert nid (e.renewed nodeKey hostname now)
        byNodeKey := (r.byNodeKey.erase e.nodeKey).insert nodeKey nid
        events }
  | add {machine nodeKey : Key32} (hostname : Text) (now : UInt64)
      (hmachine : r.byMachine[machine]? = none) (hfree : r.nodeKeyTaken machine nodeKey = false)
      (events : List Event) :
      Change r true { r with
        nextId := succ64 r.nextId
        nextSuffix := r.nextSuffix + 1
        nodes := r.nodes.insert r.nextId (r.newEntry machine nodeKey hostname now)
        byMachine := r.byMachine.insert machine r.nextId
        byNodeKey := r.byNodeKey.insert nodeKey r.nextId
        events }
  | modify {nid : ℤ} {e e' : NodeEntry} (hentry : r.nodes[nid]? = some e) (hnid : e'.nid = e.nid)
      (hmachine : e'.machine = e.machine) (hnodeKey : e'.nodeKey = e.nodeKey)
      (hsuffix : e'.suffix = e.suffix) (events : List Event) :
      Change r false { r with nodes := r.nodes.insert nid e', events }
  | remove {nid : ℤ} {e : NodeEntry} (hentry : r.nodes[nid]? = some e) (events : List Event) :
      Change r false { r with
        nodes := r.nodes.erase nid
        byMachine := r.byMachine.erase e.machine
        byNodeKey := r.byNodeKey.erase e.nodeKey
        events }

/-- A registration fails and changes nothing, or renews the node of the machine, or adds one. -/
theorem register_cases {machine nodeKey : Key32} {hostname authKey : Text} {now : UInt64}
    {out : Except RegisterError ℤ}
    (h : r.register machine nodeKey hostname authKey now = some (out, r')) :
    (∃ err, out = .error err ∧ r' = r ∧
        r.admits (.register machine nodeKey hostname authKey now) = false) ∨
      (∃ nid, out = .ok nid ∧ r.byMachine[machine]? = some nid ∧ r.Change false r' ∧
        (∃ e, r.nodes[nid]? = some e ∧
          r'.nodes[nid]? = some (e.renewed nodeKey hostname now)) ∧
        r.admits (.register machine nodeKey hostname authKey now) = false) ∨
      ∃ nid, out = .ok nid ∧ r.byMachine[machine]? = none ∧ r.Change true r' ∧
        r.admits (.register machine nodeKey hostname authKey now) = true := by
  rw [register] at h
  rw [admits]
  cases hauth : r.admitAuthKey authKey now with
  | error err =>
    rw [hauth] at h
    cases h
    exact .inl ⟨err, rfl, rfl, rfl⟩
  | ok u =>
    rw [hauth] at h
    dsimp only at h
    split_ifs at h with htaken
    · cases h
      refine .inl ⟨_, rfl, rfl, ?_⟩
      rw [htaken, Bool.not_true, Bool.and_false, Bool.false_and]
    · have hfree : r.nodeKeyTaken machine nodeKey = false := Bool.eq_false_of_not_eq_true htaken
      cases hmachine : r.byMachine[machine]? with
      | some nid =>
        rw [hmachine] at h
        obtain ⟨e, he, heq⟩ := Option.map_eq_some_iff.mp h
        cases heq
        refine .inr (.inl ⟨nid, rfl, rfl, .renew hostname now hmachine he hfree _, ?_, ?_⟩)
        · exact ⟨e, he, Table.getElem?_insert_self _ _ _⟩
        · rw [Option.isNone_some, Bool.and_false]
      | none =>
        rw [hmachine] at h
        cases h
        refine .inr (.inr ⟨r.nextId, rfl, rfl, .add hostname now hmachine hfree _, ?_⟩)
        rw [hfree]
        rfl

theorem change_applyMapUpdate (nid : ℤ) (discoKey : Option Key32)
    (endpoints routableIps : List Text) (preferredDerp : Option UInt16) (now : UInt64) :
    r.Change false (r.applyMapUpdate parseIp nid discoKey endpoints routableIps preferredDerp now) := by
  rw [applyMapUpdate]
  cases hentry : r.nodes[nid]? with
  | none => exact .keep
  | some e =>
    rw [Option.elim_some]
    dsimp only
    split_ifs <;> exact .modify hentry (by rfl) (by rfl) (by rfl) (by rfl) _

theorem change_markOnline (nid : ℤ) (online : Bool) (now : UInt64) :
    r.Change false (r.markOnline nid online now) := by
  rw [markOnline]
  cases hentry : r.nodes[nid]? with
  | none => exact .keep
  | some e =>
    rw [Option.elim_some]
    split_ifs
    · exact .modify hentry (by rfl) (by rfl) (by rfl) (by rfl) _
    · exact .keep

theorem change_evict (o : HashOrder ℤ) (hostname : Text) :
    r.Change false (r.evict o hostname).2 := by
  rw [evict]
  split
  · exact .keep
  · split
    · exact .keep
    · rename_i hentry
      exact .remove hentry _

theorem change_of_step (h : r.step parseIp a = some r') : r.Change (r.admits a) r' := by
  cases a with
  | register machine nodeKey hostname authKey now =>
    obtain ⟨⟨out, next⟩, hregister, rfl⟩ := Option.map_eq_some_iff.mp h
    rcases register_cases hregister with
      ⟨err, -, rfl, hadmits⟩ | ⟨nid, -, -, hchange, -, hadmits⟩ | ⟨nid, -, -, hchange, hadmits⟩
    · rw [hadmits]
      exact .keep
    · rw [hadmits]
      exact hchange
    · rw [hadmits]
      exact hchange
  | applyMapUpdate nid discoKey endpoints routableIps preferredDerp now =>
    cases h
    exact change_applyMapUpdate nid discoKey endpoints routableIps preferredDerp now
  | markOnline nid online now =>
    cases h
    exact change_markOnline nid online now
  | evict o hostname =>
    cases h
    exact change_evict o hostname

/-- The state after `k` new nodes: they are indexed by their keys and numbered as they came. -/
structure Sound (k : ℕ) (r : Registry) : Prop where
  machines : Table.IndexedBy NodeEntry.machine r.nodes r.byMachine
  nodeKeys : Table.IndexedBy NodeEntry.nodeKey r.nodes r.byNodeKey
  numbered : ∀ (nid : ℤ) (e : NodeEntry), r.nodes[nid]? = some e →
    e.nid = nid ∧ 1 ≤ nid ∧ nid ≤ k ∧ e.suffix = UInt32.ofNat nid.toNat
  nextId : r.nextId = k + 1
  nextSuffix : r.nextSuffix = UInt32.ofNat (k + 1)

variable {k : ℕ}

theorem Sound.owner (h : r.Sound k) {machine nodeKey : Key32}
    (hfree : r.nodeKeyTaken machine nodeKey = false) {nid : ℤ}
    (howner : r.byNodeKey[nodeKey]? = some nid) : r.byMachine[machine]? = some nid := by
  obtain ⟨e, he, -⟩ := (h.nodeKeys nodeKey nid).mp howner
  rw [nodeKeyTaken, howner, Option.any_some, he, Option.any_some, bne_eq_false_iff_eq] at hfree
  exact (h.machines machine nid).mpr ⟨e, he, hfree⟩

theorem Sound.change (h : r.Sound k) {added : Bool} (hchange : r.Change added r')
    (hroom : k + added.toNat < 2 ^ 63 - 1) : r'.Sound (k + added.toNat) := by
  cases hchange with
  | keep => exact h
  | @renew machine nodeKey nid e hostname now hmachine hentry hfree events =>
    obtain ⟨hnid, hpos, hle, hsuffix⟩ := h.numbered nid e hentry
    refine ⟨h.machines.update hentry rfl, h.nodeKeys.rekey hentry ?_, ?_, h.nextId, h.nextSuffix⟩
    · intro j hj
      exact Option.some.inj ((h.owner hfree hj).symm.trans hmachine)
    · intro j e' he'
      rw [Table.getElem?_insert] at he'
      split_ifs at he' with hj
      · cases he'
        subst hj
        exact ⟨hnid, hpos, hle, hsuffix⟩
      · exact h.numbered j e' he'
  | @add machine nodeKey hostname now hmachine hfree events =>
    have hnew : r.nodes[r.nextId]? = none := by
      cases hold : r.nodes[r.nextId]? with
      | none => rfl
      | some e =>
        obtain ⟨-, -, hle, -⟩ := h.numbered _ e hold
        rw [h.nextId] at hle
        omega
    have hunowned : r.byNodeKey[nodeKey]? = none := by
      cases howner : r.byNodeKey[nodeKey]? with
      | none => rfl
      | some nid => nomatch (h.owner hfree howner).symm.trans hmachine
    refine ⟨h.machines.insert_new hnew hmachine, h.nodeKeys.insert_new hnew hunowned, ?_, ?_, ?_⟩
    · intro j e' he'
      rw [Table.getElem?_insert] at he'
      split_ifs at he' with hj
      · cases he'
        subst hj
        refine ⟨rfl, ?_, ?_, ?_⟩
        · rw [h.nextId]
          omega
        · rw [h.nextId]
          exact le_rfl
        · rw [newEntry, h.nextSuffix, h.nextId]
          rfl
      · obtain ⟨hnid, hpos, hle, hsuffix⟩ := h.numbered j e' he'
        exact ⟨hnid, hpos, hle.trans (by simp), hsuffix⟩
    · change succ64 r.nextId = _
      rw [succ64, h.nextId, Bool.toNat_true, Int.bmod_eq_of_le_mul_two]
      · push_cast
        ring
      · omega
      · rw [Bool.toNat_true] at hroom
        omega
    · change r.nextSuffix + 1 = _
      rw [h.nextSuffix, Bool.toNat_true]
      exact (UInt32.ofNat_add (k + 1) 1).symm
  | @modify nid e e' hentry hnid hmachine hnodeKey hsuffix events =>
    obtain ⟨hkey, hpos, hle, hnumber⟩ := h.numbered nid e hentry
    refine ⟨h.machines.update hentry hmachine, h.nodeKeys.update hentry hnodeKey, ?_, h.nextId,
      h.nextSuffix⟩
    intro j e'' he''
    rw [Table.getElem?_insert] at he''
    split_ifs at he'' with hj
    · cases he''
      subst hj
      exact ⟨hnid.trans hkey, hpos, hle, hsuffix.trans hnumber⟩
    · exact h.numbered j e'' he''
  | @remove nid e hentry events =>
    refine ⟨h.machines.erase hentry, h.nodeKeys.erase hentry, ?_, h.nextId, h.nextSuffix⟩
    intro j e' he'
    rw [Table.getElem?_erase] at he'
    split_ifs at he'
    exact h.numbered j e' he'

/-- The tables agree, and no two nodes share an id or an address number. -/
structure Consistent (r : Registry) : Prop where
  machines : ∀ (machine : Key32) (nid : ℤ), r.byMachine[machine]? = some nid ↔
    ∃ e, r.nodes[nid]? = some e ∧ e.machine = machine
  nodeKeys : ∀ (nodeKey : Key32) (nid : ℤ), r.byNodeKey[nodeKey]? = some nid ↔
    ∃ e, r.nodes[nid]? = some e ∧ e.nodeKey = nodeKey
  ids : ∀ (nid : ℤ) (e : NodeEntry), r.nodes[nid]? = some e → e.nid = nid
  suffixes : ∀ (nid nid' : ℤ) (e e' : NodeEntry), r.nodes[nid]? = some e →
    r.nodes[nid']? = some e' → e.suffix = e'.suffix → nid = nid'

/-- What the result of a registration says of the registry before and after it. -/
def Answered (r : Registry) (machine nodeKey : Key32) : Except RegisterError ℤ × Registry → Prop
  | (.error _, r') => r' = r
  | (.ok nid, r') => (∀ nid', r.byMachine[machine]? = some nid' → nid = nid' ∧
      ∃ e e', r.nodes[nid]? = some e ∧ r'.nodes[nid]? = some e' ∧ e'.nid = e.nid ∧
        e'.addresses = e.addresses ∧ e'.machine = machine ∧ e'.nodeKey = nodeKey)

theorem sound_new (authKeys : List Text) (whitelist : RoutesWhitelist) :
    (new authKeys whitelist).Sound 0 where
  machines := Table.indexedBy_empty
  nodeKeys := Table.indexedBy_empty
  numbered := fun nid _ he => nomatch (Std.ExtTreeMap.getElem?_empty (a := nid)).symm.trans he
  nextId := rfl
  nextSuffix := rfl

theorem Sound.consistent (h : r.Sound k) (hk : k ≤ 2 ^ 32) : r.Consistent where
  machines := h.machines
  nodeKeys := h.nodeKeys
  ids := fun nid e he => (h.numbered nid e he).1
  suffixes := by
    intro nid nid' e e' he he' hsuffix
    obtain ⟨-, hpos, hle, hnumber⟩ := h.numbered nid e he
    obtain ⟨-, hpos', hle', hnumber'⟩ := h.numbered nid' e' he'
    rw [hnumber, hnumber'] at hsuffix
    have hmod := congrArg UInt32.toNat hsuffix
    rw [UInt32.toNat_ofNat', UInt32.toNat_ofNat'] at hmod
    omega

theorem Sound.register_isSome (h : r.Sound k) (machine nodeKey : Key32) (hostname authKey : Text)
    (now : UInt64) : ∃ answer, r.register machine nodeKey hostname authKey now = some answer := by
  rw [register]
  split
  · exact ⟨_, rfl⟩
  · split_ifs
    · exact ⟨_, rfl⟩
    · cases hmachine : r.byMachine[machine]? with
      | none => exact ⟨_, rfl⟩
      | some nid =>
        obtain ⟨e, he, -⟩ := (h.machines machine nid).mp hmachine
        dsimp only
        rw [he]
        exact ⟨_, rfl⟩

theorem Sound.step_isSome (h : r.Sound k) (a : RegistryCall) :
    ∃ r', r.step parseIp a = some r' := by
  cases a with
  | register machine nodeKey hostname authKey now =>
    obtain ⟨answer, hanswer⟩ := h.register_isSome machine nodeKey hostname authKey now
    exact ⟨answer.2, by rw [step, hanswer]; rfl⟩
  | applyMapUpdate => exact ⟨_, rfl⟩
  | markOnline => exact ⟨_, rfl⟩
  | evict => exact ⟨_, rfl⟩

theorem newNodes_cons (ht : r.step parseIp a = some r') (as : List RegistryCall) :
    r.newNodes parseIp (a :: as) = (r.admits a).toNat + r'.newNodes parseIp as := by
  rw [newNodes, ht, Option.elim_some]
  cases r.admits a <;> rfl

theorem newNodes_le_length (as : List RegistryCall) : r.newNodes parseIp as ≤ as.length := by
  induction as generalizing r with
  | nil => exact le_rfl
  | cons a as ih =>
    rw [newNodes, List.length_cons, Nat.add_comm]
    refine Nat.add_le_add ?_ (by split_ifs <;> omega)
    cases r.step parseIp a with
    | none => exact Nat.zero_le _
    | some r' => exact ih

theorem newNodes_mono {as bs : List RegistryCall} (h : as <+: bs) :
    r.newNodes parseIp as ≤ r.newNodes parseIp bs := by
  induction as generalizing r bs with
  | nil => exact Nat.zero_le _
  | cons a as ih =>
    obtain ⟨bs, rfl, has⟩ := List.cons_prefix_iff.mp h
    rw [newNodes, newNodes]
    refine Nat.add_le_add_left ?_ _
    cases r.step parseIp a with
    | none => exact le_rfl
    | some r' => exact ih has

theorem Sound.run (h : r.Sound k) {calls : List RegistryCall}
    (hroom : k + r.newNodes parseIp calls < 2 ^ 63 - 1) :
    ∃ r', Transition.run (step parseIp) r calls = some r' ∧
      r'.Sound (k + r.newNodes parseIp calls) := by
  induction calls generalizing r k with
  | nil => exact ⟨r, rfl, h⟩
  | cons a as ih =>
    obtain ⟨t, ht⟩ : ∃ t, r.step parseIp a = some t := h.step_isSome a
    rw [newNodes_cons ht, ← Nat.add_assoc] at hroom ⊢
    obtain ⟨r', hr', hsound⟩ := ih (h.change (change_of_step ht) (by omega)) hroom
    exact ⟨r', by rw [Transition.run, ht]; exact hr', hsound⟩

theorem Sound.answered (h : r.Sound k) {machine nodeKey : Key32} {hostname authKey : Text}
    {now : UInt64} {answer : Except RegisterError ℤ × Registry}
    (hanswer : r.register machine nodeKey hostname authKey now = some answer) :
    r.Answered machine nodeKey answer := by
  obtain ⟨out, r'⟩ := answer
  rcases register_cases hanswer with
    ⟨err, rfl, rfl, -⟩ | ⟨nid, rfl, hmachine, -, ⟨e, he, he'⟩, -⟩ | ⟨nid, rfl, hmachine, -, -⟩
  · rfl
  · intro nid' hnid'
    obtain rfl := Option.some.inj (hmachine.symm.trans hnid')
    obtain ⟨e₀, he₀, hkey⟩ := (h.machines machine nid).mp hmachine
    obtain rfl := Option.some.inj (he₀.symm.trans he)
    exact ⟨rfl, e₀, _, he₀, he', rfl, rfl, hkey, rfl⟩
  · intro nid' hnid'
    nomatch hmachine.symm.trans hnid'

theorem evict_of_false {o : HashOrder ℤ} {hostname : Text} (h : (r.evict o hostname).1 = false) :
    (r.evict o hostname).2 = r := by
  rw [evict] at h ⊢
  split at h
  · rfl
  · split at h
    · rfl
    · cases h

/-- As long as at most 2^32 new nodes come, no call panics, the tables stay consistent, a machine
that registers again keeps its id and its addresses, and a failed registration or eviction changes
nothing. -/
theorem registry_consistent (parseIp : Text → Option IpAddr) (authKeys : List Text)
    (whitelist : RoutesWhitelist) (calls : List RegistryCall)
    (hroom : (new authKeys whitelist).newNodes parseIp calls ≤ 2 ^ 32) :
    ∃ r, Transition.run (step parseIp) (new authKeys whitelist) calls = some r ∧ r.Consistent ∧
      (∀ machine nodeKey hostname authKey now, ∃ answer,
        r.register machine nodeKey hostname authKey now = some answer ∧
          r.Answered machine nodeKey answer) ∧
      ∀ o hostname, (r.evict o hostname).1 = false → (r.evict o hostname).2 = r := by
  have hrun : ∃ r, Transition.run (step parseIp) (new authKeys whitelist) calls = some r ∧
      r.Sound (0 + (new authKeys whitelist).newNodes parseIp calls) :=
    (sound_new authKeys whitelist).run (by omega)
  obtain ⟨r, hr, hsound⟩ := hrun
  refine ⟨r, hr, hsound.consistent (by rwa [Nat.zero_add]), ?_, fun o hostname => evict_of_false⟩
  intro machine nodeKey hostname authKey now
  obtain ⟨answer, hanswer⟩ := hsound.register_isSome machine nodeKey hostname authKey now
  exact ⟨answer, hanswer, hsound.answered hanswer⟩

def joined (r : Registry) (machine nodeKey : Key32) (hostname : Text) (now : UInt64) : Registry :=
  send { r with
    nextId := succ64 r.nextId
    nextSuffix := r.nextSuffix + 1
    nodes := r.nodes.insert r.nextId (r.newEntry machine nodeKey hostname now)
    byMachine := r.byMachine.insert machine r.nextId
    byNodeKey := r.byNodeKey.insert nodeKey r.nextId } { changed := [r.nextId] }

theorem register_new {machine nodeKey : Key32} {hostname authKey : Text} {now : UInt64}
    (hauth : r.admitAuthKey authKey now = .ok ()) (hmachine : r.byMachine[machine]? = none)
    (hnodeKey : r.byNodeKey[nodeKey]? = none) :
    r.register machine nodeKey hostname authKey now =
      some (.ok r.nextId, r.joined machine nodeKey hostname now) := by
  rw [register, hauth, nodeKeyTaken, hnodeKey, hmachine]
  rfl

theorem evict_eq {o : HashOrder ℤ} {hostname : Text} {nid : ℤ} {e : NodeEntry}
    (he : r.nodes[nid]? = some e) (hnid : e.nid = nid) (hname : e.hostname = hostname)
    (hothers : ∀ (nid' : ℤ) (e' : NodeEntry), r.nodes[nid']? = some e' → e'.hostname = hostname →
      e' = e) :
    r.evict o hostname = (true, send { r with
      nodes := r.nodes.erase nid
      byMachine := r.byMachine.erase e.machine
      byNodeKey := r.byNodeKey.erase e.nodeKey } { removed := [nid] }) := by
  have hfind : (o.values r.nodes).find? (fun n => n.hostname == hostname) = some e := by
    cases hfound : (o.values r.nodes).find? fun n => n.hostname == hostname with
    | none =>
      exact absurd (beq_iff_eq.mpr hname)
        (List.find?_eq_none.mp hfound e (HashOrder.mem_values.mpr ⟨nid, he⟩))
    | some e' =>
      have hname' := List.find?_some hfound
      obtain ⟨nid', he'⟩ := HashOrder.mem_values.mp (List.mem_of_find?_eq_some hfound)
      rw [hothers nid' e' he' (beq_iff_eq.mp hname')]
  subst hnid
  simp only [evict, hfind, Option.map_some, he]

theorem run_register_evict {machine nodeKey : Key32} {hostname authKey : Text} {now : UInt64}
    (o : HashOrder ℤ) (hauth : r.admitAuthKey authKey now = .ok ())
    (hmachine : r.byMachine[machine]? = none) (hnodeKey : r.byNodeKey[nodeKey]? = none)
    (hnew : r.nodes[r.nextId]? = none)
    (hhost : ∀ (nid : ℤ) (e : NodeEntry), r.nodes[nid]? = some e → e.hostname ≠ hostname) :
    Transition.run (step parseIp) r
      [.register machine nodeKey hostname authKey now, .evict o hostname] =
        some { r with
          nextId := succ64 r.nextId
          nextSuffix := r.nextSuffix + 1
          events := r.events ++ [{ changed := [r.nextId] }] ++ [{ removed := [r.nextId] }] } := by
  have hothers : ∀ (nid' : ℤ) (e' : NodeEntry),
      (r.joined machine nodeKey hostname now).nodes[nid']? = some e' → e'.hostname = hostname →
        e' = r.newEntry machine nodeKey hostname now := by
    intro nid' e' he' hname
    rw [joined, send, Table.getElem?_insert] at he'
    split_ifs at he'
    · exact (Option.some.inj he').symm
    · exact absurd hname (hhost nid' e' he')
  have hevict : (r.joined machine nodeKey hostname now).evict o hostname = _ :=
    evict_eq (Table.getElem?_insert_self _ _ _) rfl rfl hothers
  rw [Transition.run, step, register_new hauth hmachine hnodeKey, Option.map_some, Option.bind_some,
    Transition.run, step, hevict, Option.bind_some, Transition.run]
  simp only [joined, send, newEntry, Table.erase_insert_of_new hnew,
    Table.erase_insert_of_new hmachine, Table.erase_insert_of_new hnodeKey]

section Lab

def labAuthKey : Text := ascii "lrk-lab-0-s"

def labRegistry : Registry := .new [labAuthKey] { prefixes := [], allowExit := false }

def labMachine (n : UInt8) : Key32 := .replicate 32 n

def labRegister (n : UInt8) : RegistryCall :=
  .register (labMachine n) (labMachine n) (ascii "m" ++ [48 + n]) labAuthKey 0

def labEvict (n : UInt8) : RegistryCall := .evict .ascending (ascii "m" ++ [48 + n])

theorem registry_consistent_lab :
    labRegistry.newNodes IpText.parseIp [labRegister 1, labEvict 1, labRegister 1] ≤ 2 ^ 32 ∧
      ∃ r, Transition.run (step IpText.parseIp) labRegistry
          [labRegister 1, labEvict 1, labRegister 1] = some r ∧ r.Consistent ∧
        (∀ machine nodeKey hostname authKey now, ∃ answer,
          r.register machine nodeKey hostname authKey now = some answer ∧
            r.Answered machine nodeKey answer) ∧
        ∀ o hostname, (r.evict o hostname).1 = false → (r.evict o hostname).2 = r := by
  have hroom : labRegistry.newNodes IpText.parseIp
      [labRegister 1, labEvict 1, labRegister 1] ≤ 2 ^ 32 := by decide +kernel
  exact ⟨hroom, registry_consistent IpText.parseIp [labAuthKey] _ _ hroom⟩

def labJoined : Registry := labRegistry.joined (labMachine 1) (labMachine 1) (ascii "m1") 0

def labPassings (n : ℕ) : List RegistryCall :=
  (List.replicate n [labRegister 2, labEvict 2]).flatten

theorem labPassings_succ (n : ℕ) :
    labPassings (n + 1) = labPassings n ++ [labRegister 2, labEvict 2] := by
  rw [labPassings, List.replicate_succ', List.flatten_concat, labPassings]

theorem labJoined_nodes {nid : ℤ} {e : NodeEntry} (h : labJoined.nodes[nid]? = some e) :
    nid = 1 ∧ e = labRegistry.newEntry (labMachine 1) (labMachine 1) (ascii "m1") 0 := by
  rw [labJoined, joined, send, Table.getElem?_insert] at h
  split_ifs at h with hnid
  · exact ⟨hnid.symm, (Option.some.inj h).symm⟩
  · nomatch (Std.ExtTreeMap.getElem?_empty (a := nid)).symm.trans h

theorem labJoined_auth : labJoined.admitAuthKey labAuthKey 0 = .ok () := by decide

theorem labJoined_absent : labJoined.byMachine[labMachine 2]? = none := by decide +kernel

theorem succ64_ofNat {n : ℕ} (h : n + 1 < 2 ^ 63) : succ64 n = (n + 1 : ℕ) := by
  rw [succ64, Int.bmod_eq_of_le_mul_two]
  · push_cast
    rfl
  · omega
  · omega

/-- The first machine stayed and the second came and went `n` times. -/
def labPassed (n : ℕ) (events : List Event) : Registry :=
  { labJoined with nextId := (n + 2 : ℕ), nextSuffix := .ofNat (n + 2), events }

theorem labPassed_nodes {n : ℕ} {events : List Event} :
    (labPassed n events).nodes[(labPassed n events).nextId]? = none := by
  cases h : (labPassed n events).nodes[(labPassed n events).nextId]? with
  | none => rfl
  | some e =>
    have hnid : ((n + 2 : ℕ) : ℤ) = 1 := (labJoined_nodes h).1
    omega

theorem run_labPassed {n : ℕ} (h : n + 3 < 2 ^ 63) (events : List Event) :
    ∃ events', Transition.run (step parseIp) (labPassed n events) [labRegister 2, labEvict 2] =
      some (labPassed (n + 1) events') := by
  have hhost : ∀ (nid : ℤ) (e : NodeEntry), (labPassed n events).nodes[nid]? = some e →
      e.hostname ≠ ascii "m2" := by
    intro nid e he
    rw [(labJoined_nodes he).2]
    decide
  have hround : Transition.run (step parseIp) (labPassed n events) [labRegister 2, labEvict 2] =
      _ := run_register_evict .ascending labJoined_auth labJoined_absent labJoined_absent
        labPassed_nodes hhost
  have hid : succ64 ((n + 2 : ℕ) : ℤ) = (n + 1 + 2 : ℕ) := succ64_ofNat (by omega)
  have hsuffix : UInt32.ofNat (n + 2) + 1 = .ofNat (n + 1 + 2) := (UInt32.ofNat_add (n + 2) 1).symm
  rw [hround]
  simp only [labPassed, hid, hsuffix]
  exact ⟨_, rfl⟩

theorem run_labPassings {n : ℕ} (h : n + 2 < 2 ^ 63) :
    ∃ events, Transition.run (step parseIp) labJoined (labPassings n) =
      some (labPassed n events) := by
  induction n with
  | zero => exact ⟨labJoined.events, rfl⟩
  | succ n ih =>
    obtain ⟨events, hrun⟩ := ih (by omega)
    obtain ⟨events', hround⟩ := run_labPassed (by omega) events
    refine ⟨events', ?_⟩
    rw [labPassings_succ, Transition.run_append, hrun]
    exact hround

theorem run_labReturn {n : ℕ} (h : n + 2 < 2 ^ 63) :
    ∃ events, Transition.run (step parseIp) labRegistry
        (labRegister 1 :: labPassings n ++ [labRegister 2]) =
      some ((labPassed n events).joined (labMachine 2) (labMachine 2) (ascii "m2") 0) := by
  obtain ⟨events, hrun⟩ : ∃ events, Transition.run (step parseIp) labJoined (labPassings n) =
      some (labPassed n events) := run_labPassings h
  have hfirst : labRegistry.step parseIp (labRegister 1) = some labJoined := by
    rw [labRegister, step, register_new (by decide) (by decide) (by decide)]
    rfl
  have hregister : (labPassed n events).register (labMachine 2) (labMachine 2) (ascii "m2")
      labAuthKey 0 = _ := register_new labJoined_auth labJoined_absent labJoined_absent
  have hlast : (labPassed n events).step parseIp (labRegister 2) = some _ :=
    congrArg (Option.map Prod.snd) hregister
  refine ⟨events, ?_⟩
  rw [List.cons_append, Transition.run, hfirst, Option.bind_some, Transition.run_append, hrun,
    Option.bind_some, Transition.run, hlast]
  rfl

/-- The first machine stays, a second one comes and goes until the address number wraps, and its
next node has the addresses of the first machine. -/
theorem addresses_shared :
    ∃ r e e', Transition.run (step IpText.parseIp) labRegistry
        (labRegister 1 :: labPassings (2 ^ 32 - 1) ++ [labRegister 2]) = some r ∧
      r.nodes[(1 : ℤ)]? = some e ∧ r.nodes[(2 ^ 32 + 1 : ℤ)]? = some e' ∧
        e.addresses = e'.addresses ∧ ¬ r.Consistent := by
  obtain ⟨events, hrun⟩ : ∃ events, Transition.run (step IpText.parseIp) labRegistry
      (labRegister 1 :: labPassings (2 ^ 32 - 1) ++ [labRegister 2]) = some _ :=
    run_labReturn (by decide)
  have hne : (labPassed (2 ^ 32 - 1) events).nextId ≠ 1 :=
    fun h => absurd (Int.ofNat.inj h) (by decide)
  have hnumber : (labPassed (2 ^ 32 - 1) events).nextSuffix = labRegistry.nextSuffix := by
    change UInt32.ofNat (2 ^ 32 + 1) = 1
    decide
  have hold : ((labPassed (2 ^ 32 - 1) events).joined (labMachine 2) (labMachine 2)
      (ascii "m2") 0).nodes[(1 : ℤ)]? =
        some (labRegistry.newEntry (labMachine 1) (labMachine 1) (ascii "m1") 0) := by
    rw [joined, send, Table.getElem?_insert_of_ne hne]
    exact Table.getElem?_insert_self _ _ _
  have hnew : ((labPassed (2 ^ 32 - 1) events).joined (labMachine 2) (labMachine 2)
      (ascii "m2") 0).nodes[(2 ^ 32 + 1 : ℤ)]? = some ((labPassed (2 ^ 32 - 1) events).newEntry
        (labMachine 2) (labMachine 2) (ascii "m2") 0) := Table.getElem?_insert_self _ _ _
  refine ⟨_, _, _, hrun, hold, hnew, ?_, ?_⟩
  · rw [NodeEntry.addresses, NodeEntry.addresses, newEntry, newEntry, hnumber]
  · intro hconsistent
    have hsame := hconsistent.suffixes 1 (2 ^ 32 + 1) _ _ hold hnew hnumber.symm
    omega

end Lab

end Registry

end Ts2021

end Rill
