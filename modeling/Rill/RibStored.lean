import Rill.RibChanges

/-!
# The paths stored for a peer

What the steps of the route table do to the path that is stored for a peer and a prefix. An
announcement that is admitted and fits the limit stores its path; a withdrawal removes it; the paths
of other peers stay.
-/

namespace Rill.Bgp

namespace PeerPaths

theorem path_append (e : PeerPaths) (peer name : Text) (path : BgpPath) :
    PeerPaths.path { e with peers := e.peers ++ [(peer, path)] } name =
      (e.path name).or (if name = peer then some path else none) := by
  have hlast : ([(peer, path)].find? (·.1 == name)).map Prod.snd =
      if name = peer then some path else none := by
    by_cases h : name = peer
    · simp [h]
    · simp [Ne.symm h, h]
  rw [PeerPaths.path, List.find?_append, Option.map_or, hlast]
  rfl

theorem path_updateFirst (e : PeerPaths) (peer name : Text) (path : BgpPath) :
    PeerPaths.path { e with
      peers := updateFirst (·.1 == peer) (fun a => (a.1, path)) e.peers } name =
      if name = peer then (e.path peer).map fun _ => path else e.path name := by
  rw [PeerPaths.path]
  simp only [PeerPaths.path]
  induction e.peers with
  | nil => simp [updateFirst]
  | cons a peers ih =>
    rw [updateFirst]
    by_cases ha : a.1 = peer
    · subst ha
      by_cases hname : name = a.1
      · subst hname
        simp
      · simp [hname, Ne.symm hname]
    · by_cases hname : a.1 = name
      · subst hname
        simp [ha]
      · simpa [ha, hname] using ih

theorem path_filter_self (e : PeerPaths) (peer : Text) :
    PeerPaths.path { e with peers := e.peers.filter (·.1 != peer) } peer = none := by
  refine path_eq_none_iff.mpr fun a ha => ?_
  simpa using (List.mem_filter.mp ha).2

@[simp] theorem path_reselect (e : PeerPaths) (peers : List (Text × BgpPath)) (name : Text) :
    (reselect peers).path name = PeerPaths.path { e with peers } name := rfl

end PeerPaths

namespace LocRib

def stored (rib : LocRib) (peer : Text) (p : Prefix) : Option BgpPath :=
  rib.entries[p]?.bind fun e => e.path peer

theorem stored_eq (rib : LocRib) (peer : Text) (p : Prefix) :
    rib.stored peer p = (rib.entries[p]?.getD {}).path peer := by
  rw [stored]
  cases rib.entries[p]? <;> rfl

theorem stored_set (rib : LocRib) (p q : Prefix) (e : PeerPaths) (peer : Text) :
    (rib.set p e).stored peer q = if p = q then e.path peer else rib.stored peer q := by
  rw [stored, set, Table.getElem?_insert]
  split <;> rfl

theorem stored_erase (rib : LocRib) (p q : Prefix) (peer : Text) :
    LocRib.stored ⟨rib.entries.erase p⟩ peer q = if p = q then none else rib.stored peer q := by
  rw [stored, Table.getElem?_erase]
  split <;> rfl

theorem stored_removeOne {rib rib' : LocRib} {peer : Text} {p : Prefix}
    {changes : List RouteChange} (h : rib.removeOne peer p = some (rib', changes)) :
    rib.stored peer p ≠ none ∧ ∀ name q, rib'.stored name q =
      if name = peer ∧ q = p then none else rib.stored name q := by
  unfold removeOne at h
  split at h
  · nomatch h
  rename_i e hentry
  have hset : ∀ e' : PeerPaths, e'.peers = e.peers.filter (·.1 != peer) → ∀ name q,
      (rib.set p e').stored name q = if name = peer ∧ q = p then none else rib.stored name q := by
    intro e' hpeers name q
    rw [stored_set]
    have hpath : e'.path name =
        PeerPaths.path { e with peers := e.peers.filter (·.1 != peer) } name := by
      rw [PeerPaths.path, hpeers]
      rfl
    by_cases hq : p = q
    · subst hq
      rw [if_pos rfl, hpath]
      by_cases hname : name = peer
      · subst hname
        rw [if_pos ⟨rfl, rfl⟩, PeerPaths.path_filter_self]
      · rw [if_neg fun h => hname h.1, PeerPaths.path_filter hname, stored, hentry]
        rfl
    · rw [if_neg hq, if_neg fun h => hq h.2.symm]
  simp only at h
  split at h
  · nomatch h
  rename_i hlen
  refine ⟨?_, ?_⟩
  · intro hnone
    rw [stored, hentry] at hnone
    refine hlen (congrArg List.length (List.filter_eq_self.mpr fun a ha => ?_))
    exact bne_iff_ne.mpr (PeerPaths.path_eq_none_iff.mp hnone a ha)
  split at h
  · rename_i hnil
    cases h
    intro name q
    have hcongr := hset (.reselect (e.peers.filter (·.1 != peer))) rfl name q
    rw [stored_set] at hcongr
    rw [stored_erase]
    rw [hnil] at hcongr
    exact hcongr
  split at h
  · cases h
    exact hset _ rfl
  · cases h
    exact hset _ rfl

theorem removeOne_eq_none_iff {rib : LocRib} {peer : Text} {p : Prefix} :
    rib.removeOne peer p = none ↔ rib.stored peer p = none := by
  refine ⟨fun h => ?_, fun h => ?_⟩
  · rw [stored]
    unfold removeOne at h
    split at h
    · rename_i hentry
      rw [hentry]
      rfl
    rename_i e hentry
    rw [hentry]
    simp only at h
    split at h
    · rename_i hlen
      refine PeerPaths.path_eq_none_iff.mpr fun a ha => ?_
      have hself := List.filter_eq_self.mp (List.filter_sublist.eq_of_length hlen)
      exact bne_iff_ne.mp (hself a ha)
    split at h
    · nomatch h
    split at h <;> nomatch h
  · cases hremove : rib.removeOne peer p with
    | none => rfl
    | some r => exact absurd h (stored_removeOne hremove).1

end LocRib

namespace Applying

/-- The steps of an announcement, by what they do. -/
inductive Announced (peer : Text) (s : Applying) (p : Prefix) (path : BgpPath) :
    Applying → Prop where
  | stopped (h : s.exceeded = true) : Announced peer s p path s
  | rejected {reason : ImportReject} (h : s.exceeded = false)
      (hadmits : s.policy.admits p path = .error reason) :
      Announced peer s p path { s with rejected := s.rejected ++ [(p, reason)] }
  | same (h : s.exceeded = false) (hadmits : s.policy.admits p path = .ok ())
      (hslot : s.rib.stored peer p = some path) :
      Announced peer s p path { s with rib := s.rib.set p (s.rib.entries[p]?.getD {}) }
  | replaced {slot : BgpPath} (h : s.exceeded = false) (hadmits : s.policy.admits p path = .ok ())
      (hslot : s.rib.stored peer p = some slot) (hne : slot ≠ path) :
      Announced peer s p path { s with
        rib := s.rib.set p (.reselect (updateFirst (·.1 == peer) (fun a => (a.1, path))
          (s.rib.entries[p]?.getD {}).peers)),
        changes := s.changes ++ PeerPaths.learned p (.reselect (updateFirst (·.1 == peer)
          (fun a => (a.1, path)) (s.rib.entries[p]?.getD {}).peers)) }
  | full {reason : ImportReject} (h : s.exceeded = false)
      (hadmits : s.policy.admits p path = .ok ()) (hslot : s.rib.stored peer p = none)
      (hnote : s.policy.noteAccepted = .error reason) :
      Announced peer s p path
        { s with rib := s.rib.set p (s.rib.entries[p]?.getD {}), exceeded := true }
  | added {policy : ImportPolicy} (h : s.exceeded = false)
      (hadmits : s.policy.admits p path = .ok ()) (hslot : s.rib.stored peer p = none)
      (hnote : s.policy.noteAccepted = .ok policy) :
      Announced peer s p path { s with
        rib := s.rib.set p (.reselect ((s.rib.entries[p]?.getD {}).peers ++ [(peer, path)])),
        policy := policy,
        changes := s.changes ++
          PeerPaths.learned p (.reselect ((s.rib.entries[p]?.getD {}).peers ++ [(peer, path)])) }

theorem announced (peer : Text) (s : Applying) (p : Prefix) (path : BgpPath) :
    Announced peer s p path (s.announce peer (p, path)) := by
  simp only [announce]
  split
  · exact .stopped ‹_›
  rename_i hexceeded
  rw [Bool.not_eq_true] at hexceeded
  split
  · exact .rejected hexceeded ‹_›
  rename_i hadmits
  split
  · rename_i slot hslot
    rw [← LocRib.stored_eq] at hslot
    split
    · rename_i heq
      subst heq
      rw [updateFirst_const (by rw [LocRib.stored_eq] at hslot; exact hslot)]
      exact .same hexceeded hadmits hslot
    · exact .replaced hexceeded hadmits hslot ‹_›
  · rename_i hslot
    rw [← LocRib.stored_eq] at hslot
    split
    · exact .full hexceeded hadmits hslot ‹_›
    · exact .added hexceeded hadmits hslot ‹_›

theorem stored_announce (peer : Text) (s : Applying) (p : Prefix) (path : BgpPath) (name : Text)
    (q : Prefix) : (s.announce peer (p, path)).rib.stored name q =
      if name = peer ∧ q = p ∧ s.policy.admits p path = .ok () ∧
        (s.announce peer (p, path)).exceeded = false then some path else s.rib.stored name q := by
  have hentry : ∀ name q, (s.rib.set p (s.rib.entries[p]?.getD {})).stored name q =
      s.rib.stored name q := by
    intro name q
    rw [LocRib.stored_set]
    split
    · rename_i hq
      rw [← hq, LocRib.stored_eq]
    · rfl
  generalize hs' : s.announce peer (p, path) = s'
  have hcases := announced peer s p path
  rw [hs'] at hcases
  cases hcases with
  | stopped h => rw [if_neg (by simp [h])]
  | rejected h hadmits => rw [if_neg (by simp [hadmits])]
  | same h hadmits hslot =>
    rw [hentry]
    split
    · rename_i hhere
      rw [hhere.1, hhere.2.1, hslot]
    · rfl
  | replaced h hadmits hslot hne =>
    rw [LocRib.stored_set, PeerPaths.path_reselect (s.rib.entries[p]?.getD {}),
      PeerPaths.path_updateFirst, ← LocRib.stored_eq, ← LocRib.stored_eq, hslot]
    by_cases hq : p = q
    · subst hq
      by_cases hname : name = peer
      · simp [hname, hadmits, h]
      · simp [hname]
    · simp [hq, Ne.symm hq]
  | full h hadmits hslot hnote => rw [hentry, if_neg (by simp)]
  | added h hadmits hslot hnote =>
    rw [LocRib.stored_set, PeerPaths.path_reselect (s.rib.entries[p]?.getD {}),
      PeerPaths.path_append, ← LocRib.stored_eq]
    by_cases hq : p = q
    · subst hq
      by_cases hname : name = peer
      · simp [hname, hadmits, h, hslot]
      · simp [hname]
    · simp [hq, Ne.symm hq]

theorem stored_withdraw (peer : Text) (s : Applying) (p : Prefix) (name : Text) (q : Prefix) :
    (s.withdraw peer p).rib.stored name q =
      if name = peer ∧ q = p ∧ s.exceeded = false then none else s.rib.stored name q := by
  rw [withdraw]
  split
  · rename_i hexceeded
    rw [if_neg (by simp [hexceeded])]
  rename_i hexceeded
  rw [Bool.not_eq_true] at hexceeded
  split
  · rename_i hnone
    split
    · rename_i hhere
      rw [hhere.1, hhere.2.1, LocRib.removeOne_eq_none_iff.mp hnone]
    · rfl
  · rename_i rib changes hremove
    rw [(LocRib.stored_removeOne hremove).2 name q]
    simp [hexceeded]

end Applying

end Rill.Bgp
