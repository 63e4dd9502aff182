import Rill.BgpRib

/-!
# The stream of route changes

Every step of the route table tells in its changes what becomes of the best paths. So the changes
of any calls, played back into an empty map, give the best path of every prefix.
-/

namespace Rill.Bgp

def RouteChange.replay (m : Prefix → Option BgpPath) : RouteChange → Prefix → Option BgpPath
  | .learned p path => Function.update m p (some path)
  | .withdrawn p => Function.update m p none

theorem exists_mem_selectBest {peers : List (Text × BgpPath)} (h : peers ≠ []) :
    ∃ a ∈ peers, selectBest peers = some a.1 := by
  cases peers with
  | nil => exact absurd rfl h
  | cons a as =>
    refine ⟨_, ?_, rfl⟩
    -- the fold keeps its start or takes an element
    suffices ∀ m : Text × BgpPath, as.foldl (fun m b => if worse m b then b else m) m ∈ m :: as from
      this a
    induction as with
    | nil => exact fun m => List.mem_singleton_self m
    | cons b as ih =>
      intro m
      rw [List.foldl_cons]
      split
      · exact List.mem_cons_of_mem _ (ih (nofun) b)
      · rcases List.mem_cons.mp (ih (nofun) m) with heq | hmem
        · rw [heq]
          exact List.mem_cons_self
        · exact List.mem_cons_of_mem _ (List.mem_cons_of_mem _ hmem)

namespace PeerPaths

theorem path_eq_none_iff {e : PeerPaths} {peer : Text} :
    e.path peer = none ↔ ∀ a ∈ e.peers, a.1 ≠ peer := by
  simp [path]

theorem exists_bestPath {peers : List (Text × BgpPath)} (h : peers ≠ []) :
    ∃ path, (reselect peers).bestPath = some path := by
  obtain ⟨a, ha, hbest⟩ := exists_mem_selectBest h
  cases hpath : (reselect peers).path a.1 with
  | none => exact absurd rfl (path_eq_none_iff.mp hpath a ha)
  | some path => exact ⟨path, by rw [bestPath, reselect, hbest]; exact hpath⟩

theorem learned_eq {p : Prefix} {e : PeerPaths} {path : BgpPath} (h : e.bestPath = some path) :
    learned p e = [.learned p path] := by
  rw [learned, h]

end PeerPaths

namespace LocRib

theorem best_set (rib : LocRib) (p : Prefix) (e : PeerPaths) :
    (rib.set p e).best = Function.update rib.best p e.bestPath := by
  funext q
  rw [best, set, Table.getElem?_insert]
  by_cases hq : p = q
  · subst hq
    rw [if_pos rfl, Function.update_self]
    rfl
  · rw [if_neg hq, Function.update_of_ne (Ne.symm hq)]
    rfl

theorem best_erase (rib : LocRib) (p : Prefix) :
    LocRib.best ⟨rib.entries.erase p⟩ = Function.update rib.best p none := by
  funext q
  rw [best, Table.getElem?_erase]
  by_cases hq : p = q
  · subst hq
    rw [if_pos rfl, Function.update_self]
    rfl
  · rw [if_neg hq, Function.update_of_ne (Ne.symm hq)]
    rfl

theorem best_eq_bestPath {rib : LocRib} {p : Prefix} {e : PeerPaths}
    (h : rib.entries[p]?.getD {} = e) : rib.best p = e.bestPath := by
  rw [best]
  cases hentry : rib.entries[p]? with
  | none =>
    rw [hentry] at h
    subst h
    rfl
  | some e' =>
    rw [hentry] at h
    exact congrArg PeerPaths.bestPath h

theorem best_set_same {rib : LocRib} {p : Prefix} {e e' : PeerPaths}
    (h : rib.entries[p]?.getD {} = e) (hbest : e'.bestPath = e.bestPath) :
    (rib.set p e').best = rib.best := by
  rw [best_set, hbest, ← best_eq_bestPath h, Function.update_eq_self]

theorem best_set_reselect (rib : LocRib) (p : Prefix) {peers : List (Text × BgpPath)}
    (h : peers ≠ []) : (rib.set p (.reselect peers)).best =
      (PeerPaths.learned p (.reselect peers)).foldl RouteChange.replay rib.best := by
  obtain ⟨path, hpath⟩ := PeerPaths.exists_bestPath h
  rw [best_set, PeerPaths.learned_eq hpath, hpath]
  rfl

end LocRib

theorem updateFirst_const {peer : Text} {path : BgpPath} {peers : List (Text × BgpPath)}
    (h : (peers.find? (·.1 == peer)).map Prod.snd = some path) :
    updateFirst (·.1 == peer) (fun a => (a.1, path)) peers = peers := by
  induction peers with
  | nil => nomatch h
  | cons a peers ih =>
    rw [List.find?_cons] at h
    rw [updateFirst]
    by_cases ha : (a.1 == peer) = true
    · rw [ha] at h
      rw [if_pos ha, ← Option.some.inj h]
    · rw [Bool.not_eq_true] at ha
      rw [ha] at h
      rw [ha, if_neg Bool.false_ne_true, ih h]

theorem updateFirst_ne_nil {α : Type} {q : α → Bool} {f : α → α} {l : List α} (h : l ≠ []) :
    updateFirst q f l ≠ [] := by
  cases l with
  | nil => exact absurd rfl h
  | cons a l =>
    rw [updateFirst]
    split <;> exact List.cons_ne_nil _ _

namespace Applying

/-- The new changes of a step tell what becomes of the best paths. -/
def Told (s s' : Applying) : Prop :=
  ∃ changes, s'.changes = s.changes ++ changes ∧
    s'.rib.best = changes.foldl RouteChange.replay s.rib.best

theorem Told.refl (s : Applying) : Told s s := ⟨[], (List.append_nil _).symm, rfl⟩

theorem Told.trans {s s' s'' : Applying} (h : Told s s') (h' : Told s' s'') : Told s s'' := by
  obtain ⟨changes, hchanges, hbest⟩ := h
  obtain ⟨changes', hchanges', hbest'⟩ := h'
  refine ⟨changes ++ changes', ?_, ?_⟩
  · rw [hchanges', hchanges, List.append_assoc]
  · rw [hbest', hbest, List.foldl_append]

theorem told_announce (peer : Text) (s : Applying) (announcement : Prefix × BgpPath) :
    Told s (s.announce peer announcement) := by
  obtain ⟨p, path⟩ := announcement
  simp only [announce]
  split
  · exact .refl s
  split
  · exact ⟨[], (List.append_nil _).symm, rfl⟩
  generalize hentry : s.rib.entries[p]?.getD {} = e
  split
  · rename_i slot hslot
    split
    · rename_i heq
      subst heq
      refine ⟨[], (List.append_nil _).symm, LocRib.best_set_same hentry ?_⟩
      rw [updateFirst_const hslot]
    · refine ⟨_, rfl, LocRib.best_set_reselect _ _ (updateFirst_ne_nil ?_)⟩
      intro hnil
      rw [PeerPaths.path, hnil] at hslot
      nomatch hslot
  · split
    · exact ⟨[], (List.append_nil _).symm, LocRib.best_set_same hentry rfl⟩
    · exact ⟨_, rfl, LocRib.best_set_reselect _ _ (by simp)⟩

end Applying

theorem PeerPaths.path_filter {e : PeerPaths} {peer name : Text} (h : name ≠ peer) :
    PeerPaths.path { e with peers := e.peers.filter (·.1 != peer) } name = e.path name := by
  have hfind : (e.peers.filter (·.1 != peer)).find? (·.1 == name) =
      e.peers.find? (·.1 == name) := by
    rw [List.find?_filter]
    congr 1
    funext a
    by_cases ha : a.1 = name
    · simp [ha, h]
    · simp [ha]
  rw [path, path, hfind]

theorem LocRib.told_removeOne {rib rib' : LocRib} {peer : Text} {p : Prefix}
    {changes : List RouteChange} (h : rib.removeOne peer p = some (rib', changes)) :
    rib'.best = changes.foldl RouteChange.replay rib.best := by
  unfold removeOne at h
  split at h
  · nomatch h
  rename_i e hentry
  simp only at h
  split at h
  · nomatch h
  split at h
  · cases h
    exact best_erase rib p
  rename_i hne
  split at h
  · -- the best peer stays, and it is not the one removed
    rename_i hbest
    cases h
    obtain ⟨a, ha, hselect⟩ := exists_mem_selectBest hne
    refine best_set_same (e := e) (by rw [hentry]; rfl) ?_
    have hname : a.1 ≠ peer := by simpa using (List.mem_filter.mp ha).2
    rw [PeerPaths.bestPath, PeerPaths.bestPath, ← hbest, hselect]
    exact PeerPaths.path_filter hname
  · cases h
    exact best_set_reselect rib p hne

theorem Applying.told_withdraw (peer : Text) (s : Applying) (p : Prefix) :
    Told s (s.withdraw peer p) := by
  simp only [withdraw]
  split
  · exact .refl s
  split
  · exact .refl s
  · rename_i rib changes hremove
    exact ⟨changes, rfl, LocRib.told_removeOne hremove⟩

theorem Applying.told_foldl {α : Type} {f : Applying → α → Applying}
    (hf : ∀ s a, Told s (f s a)) (s : Applying) (as : List α) : Told s (as.foldl f s) := by
  induction as generalizing s with
  | nil => exact .refl s
  | cons a as ih => exact (hf s a).trans (ih (f s a))

/-! ## Calls -/

inductive RibCall where
  | apply (peer : Text) (update : UpdateMsg) (policy : ImportPolicy)
  | purgePeer (o : HashOrder Prefix) (peer : Text) (policy : ImportPolicy)

def RibCall.run (rib : LocRib) : RibCall → Applying
  | .apply peer update policy => rib.apply peer update policy
  | .purgePeer o peer policy => rib.purgePeer o peer policy

theorem RibCall.told_run (rib : LocRib) (call : RibCall) :
    (call.run rib).rib.best = (call.run rib).changes.foldl RouteChange.replay rib.best := by
  have htold : ∀ {s s' : Applying}, s.changes = [] → Applying.Told s s' →
      s'.rib.best = s'.changes.foldl RouteChange.replay s.rib.best := by
    intro s s' hnil htold
    obtain ⟨changes, hchanges, hbest⟩ := htold
    rw [hchanges, hnil, List.nil_append, hbest]
  cases call with
  | apply peer update policy =>
    exact htold rfl ((Applying.told_foldl (Applying.told_announce peer) { rib, policy } _).trans
      (Applying.told_foldl (Applying.told_withdraw peer) _ _))
  | purgePeer o peer policy =>
    exact htold rfl (Applying.told_foldl (Applying.told_withdraw peer) { rib, policy } _)

/-- The table after some calls, and the changes of all of them in turn. -/
def runCalls : LocRib → List RibCall → LocRib × List RouteChange
  | rib, [] => (rib, [])
  | rib, call :: calls =>
    let r := call.run rib
    let (rib', changes) := runCalls r.rib calls
    (rib', r.changes ++ changes)

theorem best_runCalls (rib : LocRib) (calls : List RibCall) :
    (runCalls rib calls).1.best = (runCalls rib calls).2.foldl RouteChange.replay rib.best := by
  induction calls generalizing rib with
  | nil => rfl
  | cons call calls ih =>
    simp only [runCalls]
    rw [ih, List.foldl_append, RibCall.told_run]

/-- The changes of any calls on an empty table, played back, give the best path of each prefix. -/
theorem replay_changes (calls : List RibCall) (p : Prefix) :
    (runCalls {} calls).2.foldl RouteChange.replay (fun _ => none) p =
      (runCalls {} calls).1.best p := by
  have hempty : LocRib.best {} = fun _ => none := by
    funext q
    rw [LocRib.best, Std.ExtTreeMap.getElem?_empty]
    rfl
  rw [best_runCalls, hempty]

end Rill.Bgp
