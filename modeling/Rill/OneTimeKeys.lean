import Rill.StoredCoordinator

/-!
# One-time auth keys

A one-time key that has admitted a node is spent: it stands among the consumed keys of its network
and of the stored state, and neither a revocation, a change of the configuration nor a restart takes
it out again. So it never admits another node, under whatever policy it is configured later.
-/

namespace Rill

section UpdateFirst
variable {α : Type} {p q : α → Bool} {f : α → α} {l : List α}

theorem exists_find?_updateFirst (hf : ∀ a, q (f a) = q a) {a : α} (ha : l.find? q = some a) :
    ∃ b, (updateFirst p f l).find? q = some b ∧ (b = a ∨ b = f a) := by
  induction l with
  | nil => nomatch ha
  | cons x l ih =>
    rw [updateFirst]
    by_cases hq : q x = true
    · rw [List.find?_cons_of_pos hq] at ha
      obtain rfl := Option.some.inj ha
      split_ifs
      · exact ⟨f x, List.find?_cons_of_pos ((hf x).trans hq), Or.inr rfl⟩
      · exact ⟨x, List.find?_cons_of_pos hq, Or.inl rfl⟩
    · rw [List.find?_cons_of_neg hq] at ha
      split_ifs
      · exact ⟨a, by rwa [List.find?_cons_of_neg (by rwa [hf])], Or.inl rfl⟩
      · obtain ⟨b, hb, hba⟩ := ih ha
        exact ⟨b, by rwa [List.find?_cons_of_neg hq], hba⟩

end UpdateFirst

namespace Roll
variable {r r' : Roll} {change : RollChange}

/-- The network the key names has used it up. -/
def Spent (r : Roll) (key : Text) : Prop :=
  ∃ network rest s, AuthKey.parse key = .ok (network, rest) ∧
    r.seats.find? (fun s => s.name == network) = some s ∧ key ∈ s.registry.consumedOneTime

theorem Spent.updateFirst {key : Text} (h : r.Spent key) (p : Seat → Bool) {f : Registry → Registry}
    (hf : ∀ reg : Registry, key ∈ reg.consumedOneTime → key ∈ (f reg).consumedOneTime)
    (nextNodeId : UInt32) :
    Spent ⟨nextNodeId, updateFirst p (fun s => { s with registry := f s.registry }) r.seats⟩ key := by
  obtain ⟨network, rest, s, hparse, hs, hmem⟩ := h
  obtain ⟨t, ht, rfl | rfl⟩ := exists_find?_updateFirst (p := p)
    (f := fun s : Seat => { s with registry := f s.registry }) (fun _ => rfl) hs
  · exact ⟨network, rest, t, hparse, ht, hmem⟩
  · exact ⟨network, rest, _, hparse, ht, hf _ hmem⟩

theorem Step.spent (h : r.Step change r') {key : Text} (hkey : r.Spent key) : r'.Spent key := by
  cases h with
  | keep => exact hkey
  | @admits authKey spec e s hadm =>
    refine hkey.updateFirst _ (f := fun reg => (reg.insertEntry e).consume authKey spec)
      (fun reg hreg => ?_) _
    rw [Registry.consume]
    split_ifs
    · exact List.mem_append_left _ hreg
    · exact hreg
  | revoke nodeId =>
    refine hkey.updateFirst _ (f := fun reg => reg.revoke nodeId) (fun reg hreg => ?_) _
    rwa [(reg.revoke_consumed nodeId).1]
  | reconfigure name hf =>
    refine hkey.updateFirst _ (fun reg hreg => ?_) _
    rwa [hf.consumed]

theorem Step.spent_admits {authKey : Text} {spec : AuthKeySpec} {e : NodeEntry}
    (h : r.Step (.admits authKey spec e) r') (hpolicy : spec.policy = .oneTime) :
    r'.Spent authKey := by
  cases h with
  | @admits _ _ _ s hadm =>
    obtain ⟨rest, hparse⟩ := hadm.parsed
    have hfind := find?_updateFirst (p := fun t : Seat => t.name == s.name)
      (f := fun t => { t with registry := (t.registry.insertEntry e).consume authKey spec })
      (fun _ h => h) r.seats
    rw [hadm.found, Option.map_some] at hfind
    refine ⟨s.name, rest, _, hparse, hfind, ?_⟩
    dsimp only
    rw [Registry.consume, if_pos hpolicy]
    exact List.mem_append_right _ List.mem_cons_self

theorem Spent.not_admits {key : Text} (h : r.Spent key) (hsound : ∀ s ∈ r.seats, s.Sound)
    {authKey : Text} {spec : AuthKeySpec} {e : NodeEntry}
    (hstep : r.Step (.admits authKey spec e) r') : authKey ≠ key := by
  rintro rfl
  obtain ⟨network, rest, s, hparse, hs, hmem⟩ := h
  cases hstep with
  | @admits _ _ _ t hadm =>
    obtain ⟨rest', hparse'⟩ := hadm.parsed
    obtain ⟨rfl, -⟩ := Prod.mk.inj (Except.ok.inj (hparse.symm.trans hparse'))
    cases hs.symm.trans hadm.found
    have hnone := ((hsound s (List.mem_of_find?_eq_some hs)).consumed authKey hmem).1
    nomatch hnone.symm.trans hadm.authorized

end Roll

theorem Coordinator.mem_snapshot_consumed {c : Coordinator} {o : IterOrder} {key : Text}
    (h : c.roll.Spent key) : key ∈ (c.snapshot o).consumedOneTimeKeys := by
  obtain ⟨network, rest, s, -, hs, hmem⟩ := h
  obtain ⟨d, hd, rfl⟩ := List.mem_map.mp (List.mem_of_find?_eq_some hs)
  refine (StableSort.perm_sortByKey _).mem_iff.mpr (List.mem_flatMap.mpr ⟨d, hd, hmem⟩)

namespace StoredCoordinator
variable {L : Crates} {s s' : StoredCoordinator} {a : IterOrder × StoredOp}

/-- The key is used up, in the coordinator and in the store. -/
structure Spent (s : StoredCoordinator) (key : Text) : Prop where
  spent : s.coord.roll.Spent key
  saved : ∃ state, s.saved = some state ∧ key ∈ state.consumedOneTimeKeys

def Sound (s : StoredCoordinator) : Prop := ∀ seat ∈ s.coord.roll.seats, seat.Sound

theorem sound_fresh (config : MachineConfig) : Sound ⟨freshCoordinator config, none⟩ := by
  rw [Sound, roll_freshCoordinator]
  refine List.forall_mem_map.mpr fun n _ => ⟨rfl, fun id e he => ?_, fun key hkey => ?_⟩
  · simp [Registry.new] at he
  · simp [Registry.new] at hkey

theorem mem_consumedOf {d : NetworkDomain} {state : CoordState} {key : Text} :
    key ∈ d.consumedOf state ↔ key ∈ state.consumedOneTimeKeys ∧
      ∃ rest, AuthKey.parse key = .ok (d.name, rest) := by
  rw [NetworkDomain.consumedOf, List.mem_filter, NetworkDomain.ownsKey]
  refine and_congr_right fun _ => ?_
  cases AuthKey.parse key with
  | error e => simp
  | ok parsed =>
    obtain ⟨network, rest⟩ := parsed
    simp

theorem fresh_networksWith (signingSeed : Key32) (c : Coordinator) (masterKey : Text → Key32) :
    (freshCoordinator ⟨signingSeed, c.networksWith masterKey⟩).domains =
      c.domains.map fun d => NetworkDomain.new d.name (networkIdFor d.name) (masterKey d.name) := by
  rw [freshCoordinator_eq, Coordinator.networksWith, List.map_map]
  rfl

theorem step_sound (hs : s.Sound) (h : s.step L a = some s') : s'.Sound := by
  obtain ⟨o, op⟩ := a
  cases op with
  | operate op =>
    obtain ⟨next, hnext, rfl⟩ := step_operate_eq h
    obtain ⟨change, hstep, -⟩ := Coordinator.perform_step hnext
    exact hstep.sound hs
  | restart signingSeed masterKey =>
    obtain ⟨-, ⟨-, hfresh⟩ | ⟨state, -, hrestored⟩⟩ := step_restart h
    · have hsound := sound_fresh ⟨signingSeed, s.coord.networksWith masterKey⟩
      rwa [Sound, ← hfresh] at hsound
    · rw [Sound, hrestored.roll, fresh_networksWith]
      refine List.forall_mem_map.mpr (List.forall_mem_map.mpr fun d _ => ?_)
      obtain ⟨hkeys, -, hnetwork⟩ := Registry.foldl_insertEntry_eq
        (Registry.new (networkIdFor d.name)).clear
        (state.nodes.filter fun n => n.networkId == networkIdFor d.name)
      refine ⟨hnetwork, fun id e he => ?_, fun key hkey => ⟨?_, (mem_consumedOf.mp hkey).2⟩⟩
      · have hmem := (Registry.getElem?_restore _ _ (hrestored.nodup_ids.sublist
          (List.filter_sublist.map _))).mp he
        simpa using (List.mem_filter.mp hmem.1).2
      · exact (congrArg (fun t : Table Text AuthKeySpec => t[key]?) hkeys).trans
          Std.ExtTreeMap.getElem?_empty

theorem step_spent {key : Text} (hs : s.Spent key) (h : s.step L a = some s') : s'.Spent key := by
  obtain ⟨o, op⟩ := a
  cases op with
  | operate op =>
    obtain ⟨next, hnext, rfl⟩ := step_operate_eq h
    obtain ⟨change, hstep, -⟩ := Coordinator.perform_step hnext
    have hspent := hstep.spent hs.spent
    refine ⟨hspent, ?_⟩
    dsimp only
    split_ifs
    · refine ⟨_, rfl, Coordinator.mem_snapshot_consumed ?_⟩
      rwa [Coordinator.roll_written hnext]
    · exact hs.saved
  | restart signingSeed masterKey =>
    obtain ⟨state, hstate, hmem⟩ := hs.saved
    obtain ⟨hsaved, ⟨hnone, -⟩ | ⟨state', hstate', hrestored⟩⟩ := step_restart h
    · nomatch hnone.symm.trans hstate
    · cases hstate.symm.trans hstate'
      refine ⟨?_, state, hsaved.trans hstate, hmem⟩
      obtain ⟨network, rest, seat, hparse, hseat, -⟩ := hs.spent
      -- the network is configured again, and the key is handed to it by its name
      have hfound : ((freshCoordinator ⟨signingSeed, s.coord.networksWith masterKey⟩).domains.find?
          fun d => d.name == network).isSome := by
        have hname : (seat.name == network) = true := by simpa using List.find?_some hseat
        obtain ⟨d, hd, rfl⟩ := List.mem_map.mp (List.mem_of_find?_eq_some hseat)
        rw [fresh_networksWith, List.find?_isSome]
        exact ⟨_, List.mem_map_of_mem hd, hname⟩
      obtain ⟨d, hd⟩ := Option.isSome_iff_exists.mp hfound
      have hname : d.name = network := by simpa using List.find?_some hd
      refine ⟨network, rest, ⟨d.name, d.networkId, d.restoreRegistry state⟩, hparse, ?_, ?_⟩
      · rw [hrestored.roll, List.find?_map]
        exact congrArg (Option.map _) hd
      · exact mem_consumedOf.mpr ⟨hmem, rest, hname ▸ hparse⟩

theorem newNode_spent {n : NewNode} (hn : newNode L s a = some n) (hpolicy : n.policy = .oneTime)
    (h : s.step L a = some s') : s'.Spent n.authKey := by
  obtain ⟨spec, e, hstep, hspec, -, o, written, hsaved, hroll⟩ := newNode_admitted hn h
  have hspent := hstep.spent_admits (hspec.trans hpolicy)
  exact ⟨hspent, _, hsaved, Coordinator.mem_snapshot_consumed (hroll ▸ hspent)⟩

/-- A one-time key admits one node: whatever is registered after it comes with another key. -/
theorem one_time_keys_admit_once (L : Crates) (config : MachineConfig)
    (as : List (IterOrder × StoredOp)) :
    (newNodes L ⟨freshCoordinator config, none⟩ as).Pairwise fun n later =>
      n.policy = .oneTime → later.authKey ≠ n.authKey := by
  have hmeets : Transition.Meets (step L) (fun _ _ => True) ⟨freshCoordinator config, none⟩ as :=
    Transition.meets_of_forall (fun _ _ _ => trivial) _
  refine Transition.pairwise_trace_of_invariant
    (fun s n => n.policy = .oneTime → s.Spent n.authKey)
    (fun _ _ _ hs _ hstep => step_sound hs hstep) ?_ ?_ (sound_fresh config) hmeets
  · intro s a s' n _ _ hstep hspent hpolicy
    exact step_spent (hspent hpolicy) hstep
  · intro s a n hs _ hn
    refine ⟨fun earlier hspent hpolicy => ?_, fun s' hstep hpolicy => newNode_spent hn hpolicy hstep⟩
    obtain ⟨t, ht⟩ := exists_step_of_newNode hn
    obtain ⟨spec, e, hadmits, -⟩ := newNode_admitted hn ht
    exact (hspent hpolicy).spent.not_admits hs hadmits

end StoredCoordinator

end Rill
