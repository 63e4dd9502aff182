import Rill.RibInvariant

/-!
# The latest announcement of a prefix

What the UPDATEs of a peer say about a prefix: the last announcement counts, if the policy admits
it; a withdrawal alone, or an announcement that is rejected, leaves no path. The route table keeps
to that for the UPDATEs that do not announce and withdraw one prefix, and that announce nothing to
be rejected in place of a path that is stored.
-/

namespace Rill.Bgp

/-- The announcements of unicast routes in an MP_REACH attribute. -/
def unicastReach : PathAttr → Option (UInt16 × IpAddr × List Prefix)
  | .mpReach afi safi hop nlri => if safi = 1 then some (afi, hop, nlri) else none
  | _ => none

/-- The announcements that an UPDATE carries: those of IPv4 with its NEXT_HOP, and those of each
MP_REACH attribute with the next hop of that attribute. -/
def announces (update : UpdateMsg) : List (Prefix × BgpPath) :=
  update.announced.map (fun p => (p, basePath update.attrs)) ++
    (update.attrs.filterMap unicastReach).flatMap fun (afi, hop, nlri) =>
      if afi = 1 ∨ afi = 2 then
        nlri.map fun p => (p, { basePath update.attrs with nextHop := some hop })
      else []

/-- One MP_REACH attribute of unicast routes at most, of IPv4 or IPv6. -/
def OneReach (update : UpdateMsg) : Prop :=
  (update.attrs.filterMap unicastReach).length ≤ 1 ∧
    ∀ r ∈ update.attrs.filterMap unicastReach, r.1 = 1 ∨ r.1 = 2

theorem lastMpReach_eq (attrs : List PathAttr) : lastMpReach attrs =
    (attrs.filterMap unicastReach).getLast?.map fun r => (r.1, r.2.1) := by
  induction attrs using List.reverseRecOn with
  | nil => rfl
  | append_singleton attrs attr ih =>
    have hstep : lastMpReach (attrs ++ [attr]) =
        match attr with
        | .mpReach afi safi hop _ => if safi = 1 then some (afi, hop) else lastMpReach attrs
        | _ => lastMpReach attrs := List.foldl_append
    rw [hstep, List.filterMap_append]
    cases attr with
    | mpReach afi safi hop nlri =>
      by_cases hsafi : safi = 1
      · simp [unicastReach, hsafi]
      · simp [unicastReach, hsafi, ih]
    | _ => simp [unicastReach, ih]

theorem flatMap_reach (attrs : List PathAttr) (afi : UInt16) (path : BgpPath) :
    attrs.flatMap (reachOf afi path) = (attrs.filterMap unicastReach).flatMap fun r =>
      if r.1 = afi then r.2.2.map fun p => (p, path) else [] := by
  induction attrs with
  | nil => rfl
  | cons attr attrs ih =>
    rw [List.flatMap_cons, ih, List.filterMap_cons]
    cases attr with
    | mpReach a safi hop nlri =>
      by_cases hsafi : safi = 1
      · simp [unicastReach, reachOf, hsafi]
      · simp [unicastReach, reachOf, hsafi]
    | _ => rfl

theorem extractAnnounced_eq {update : UpdateMsg} (h : OneReach update) :
    extractAnnounced update = announces update := by
  obtain ⟨hlen, hafi⟩ := h
  unfold extractAnnounced announces
  rw [lastMpReach_eq]
  cases hreach : update.attrs.filterMap unicastReach with
  | nil => rfl
  | cons r rs =>
    rw [hreach] at hlen hafi
    obtain rfl := List.eq_nil_of_length_eq_zero (Nat.le_zero.mp (Nat.le_of_succ_le_succ hlen))
    have hfamily := hafi r (List.mem_singleton_self r)
    simp only [List.getLast?_singleton, Option.map_some, flatMap_reach, hreach]
    simp [hfamily]

/-! ## One UPDATE -/

/-- The path of the last announcement of a prefix. -/
def lastAnnounced (as : List (Prefix × BgpPath)) (p : Prefix) : Option BgpPath :=
  (as.filter (·.1 = p)).getLast?.map Prod.snd

/-- The last announcement of a prefix that the policy admits. -/
def lastAdmitted (policy : ImportPolicy) (as : List (Prefix × BgpPath)) (p : Prefix) :
    Option BgpPath :=
  lastAnnounced (as.filter fun a => policy.admits a.1 a.2 = .ok ()) p

/-- What an UPDATE says about a prefix, over what was said before. -/
def sayUpdate (policy : ImportPolicy) (update : UpdateMsg) (p : Prefix) (before : Option BgpPath) :
    Option BgpPath :=
  match lastAnnounced (announces update) p with
  | some path => if policy.admits p path = .ok () then some path else none
  | none => if p ∈ extractWithdrawn update then none else before

/-- The UPDATEs that the table follows: the last announcement of a prefix is admitted and the prefix
not withdrawn; or it is rejected, and the prefix is withdrawn, or there is nothing to remove. -/
def Followed (rib : LocRib) (policy : ImportPolicy) (peer : Text) (update : UpdateMsg) : Prop :=
  OneReach update ∧ ∀ p path, lastAnnounced (announces update) p = some path →
    if policy.admits p path = .ok () then p ∉ extractWithdrawn update
    else p ∈ extractWithdrawn update ∨
      (lastAdmitted policy (announces update) p = none ∧ rib.stored peer p = none)

theorem lastAnnounced_concat (as : List (Prefix × BgpPath)) (a : Prefix × BgpPath) (p : Prefix) :
    lastAnnounced (as ++ [a]) p = if a.1 = p then some a.2 else lastAnnounced as p := by
  rw [lastAnnounced, List.filter_append]
  by_cases ha : a.1 = p
  · simp [ha]
  · simp [ha, lastAnnounced]

theorem admit_announce (peer : Text) (s : Applying) (a : Prefix × BgpPath) :
    (s.announce peer a).policy.admits = s.policy.admits := by
  obtain ⟨p, path⟩ := a
  generalize hs' : s.announce peer (p, path) = s'
  have hcases := Applying.announced peer s p path
  rw [hs'] at hcases
  cases hcases with
  | added _ _ _ hnote =>
    unfold ImportPolicy.noteAccepted at hnote
    split at hnote
    · split at hnote
      · nomatch hnote
      · cases hnote
        rfl
    · cases hnote
      rfl
  | _ => rfl

theorem admit_foldl_announce (peer : Text) (s : Applying) (as : List (Prefix × BgpPath)) :
    (as.foldl (Applying.announce peer) s).policy.admits = s.policy.admits := by
  induction as generalizing s with
  | nil => rfl
  | cons a as ih => rw [List.foldl_cons, ih, admit_announce]

theorem exceeded_announce {peer : Text} {s : Applying} {a : Prefix × BgpPath}
    (h : (s.announce peer a).exceeded = false) : s.exceeded = false := by
  by_contra hexceeded
  rw [Applying.announce, if_pos (by simpa using hexceeded)] at h
  exact hexceeded h

theorem exceeded_withdraw (peer : Text) (s : Applying) (p : Prefix) :
    (s.withdraw peer p).exceeded = s.exceeded := by
  rw [Applying.withdraw]
  split
  · rfl
  split <;> rfl

theorem exceeded_foldl_withdraw (peer : Text) (s : Applying) (ps : List Prefix) :
    (ps.foldl (Applying.withdraw peer) s).exceeded = s.exceeded := by
  induction ps generalizing s with
  | nil => rfl
  | cons p ps ih => rw [List.foldl_cons, ih, exceeded_withdraw]

theorem stored_foldl_announce_self {peer : Text} {s : Applying} {as : List (Prefix × BgpPath)}
    (h : (as.foldl (Applying.announce peer) s).exceeded = false) (p : Prefix) :
    (as.foldl (Applying.announce peer) s).rib.stored peer p =
      (lastAdmitted s.policy as p).or (s.rib.stored peer p) := by
  induction as using List.reverseRecOn with
  | nil => rfl
  | append_singleton as a ih =>
    rw [List.foldl_append] at h ⊢
    have ih := ih (exceeded_announce h)
    rw [List.foldl_cons, List.foldl_nil] at h ⊢
    rw [Applying.stored_announce, admit_foldl_announce, h, lastAdmitted, List.filter_append]
    by_cases hadmits : s.policy.admits a.1 a.2 = .ok ()
    · have hfilter : [a].filter (fun a => decide (s.policy.admits a.1 a.2 = .ok ())) = [a] := by
        simp [hadmits]
      rw [hfilter, lastAnnounced_concat]
      by_cases ha : a.1 = p
      · subst ha
        rw [if_pos ⟨rfl, rfl, hadmits, rfl⟩, if_pos rfl]
        rfl
      · rw [if_neg fun h => ha h.2.1.symm, if_neg ha, ih]
        rfl
    · have hfilter : [a].filter (fun a => decide (s.policy.admits a.1 a.2 = .ok ())) = [] := by
        simp [hadmits]
      rw [hfilter, List.append_nil, if_neg fun h => hadmits h.2.2.1, ih]
      rfl

theorem stored_foldl_withdraw_self {peer : Text} {s : Applying} (h : s.exceeded = false)
    (ps : List Prefix) (p : Prefix) : (ps.foldl (Applying.withdraw peer) s).rib.stored peer p =
      if p ∈ ps then none else s.rib.stored peer p := by
  induction ps generalizing s with
  | nil => rfl
  | cons q ps ih =>
    rw [List.foldl_cons, ih ((exceeded_withdraw peer s q).trans h), Applying.stored_withdraw]
    by_cases hq : p = q
    · simp [hq, h]
    · simp [hq]

theorem lastAdmitted_eq {policy : ImportPolicy} {as : List (Prefix × BgpPath)} {p : Prefix}
    {path : BgpPath} (hlast : lastAnnounced as p = some path)
    (hadmits : policy.admits p path = .ok ()) : lastAdmitted policy as p = some path := by
  induction as using List.reverseRecOn with
  | nil => nomatch hlast
  | append_singleton as a ih =>
    rw [lastAnnounced_concat] at hlast
    rw [lastAdmitted, List.filter_append]
    split at hlast
    · rename_i ha
      cases hlast
      have hfilter : [a].filter (fun a => decide (policy.admits a.1 a.2 = .ok ())) = [a] := by
        simp [ha, hadmits]
      rw [hfilter, lastAnnounced_concat, if_pos ha]
    · rename_i ha
      have ih := ih hlast
      by_cases hadmits' : policy.admits a.1 a.2 = .ok ()
      · have hfilter : [a].filter (fun a => decide (policy.admits a.1 a.2 = .ok ())) = [a] := by
          simp [hadmits']
        rw [hfilter, lastAnnounced_concat, if_neg ha]
        exact ih
      · have hfilter : [a].filter (fun a => decide (policy.admits a.1 a.2 = .ok ())) = [] := by
          simp [hadmits']
        rw [hfilter, List.append_nil]
        exact ih

theorem lastAdmitted_eq_none {policy : ImportPolicy} {as : List (Prefix × BgpPath)} {p : Prefix}
    (hlast : lastAnnounced as p = none) : lastAdmitted policy as p = none := by
  simp only [lastAnnounced, lastAdmitted, Option.map_eq_none_iff, List.getLast?_eq_none_iff,
    List.filter_eq_nil_iff] at hlast ⊢
  exact fun a ha => hlast a (List.mem_of_mem_filter ha)

theorem stored_apply {rib : LocRib} {policy : ImportPolicy} {peer : Text} {update : UpdateMsg}
    (hfollowed : Followed rib policy peer update)
    (hwithin : (rib.apply peer update policy).exceeded = false) (p : Prefix) :
    (rib.apply peer update policy).rib.stored peer p =
      sayUpdate policy update p (rib.stored peer p) := by
  obtain ⟨hone, hsettled⟩ := hfollowed
  rw [LocRib.apply, exceeded_foldl_withdraw] at hwithin
  rw [LocRib.apply, stored_foldl_withdraw_self hwithin, stored_foldl_announce_self hwithin,
    extractAnnounced_eq hone, sayUpdate]
  cases hlast : lastAnnounced (announces update) p with
  | none => simp [lastAdmitted_eq_none hlast]
  | some path =>
    have hsettled := hsettled p path hlast
    by_cases hadmits : policy.admits p path = .ok ()
    · rw [if_pos hadmits] at hsettled
      simp [hsettled, hadmits, lastAdmitted_eq hlast hadmits]
    · rw [if_neg hadmits] at hsettled
      rcases hsettled with hwithdrawn | ⟨hnone, hstored⟩
      · simp [hwithdrawn, hadmits]
      · simp [hnone, hstored, hadmits]

/-! ## Runs -/

/-- What the calls so far say about the path of a peer for a prefix. -/
def said (policy : Text → ImportPolicy) (peer : Text) (p : Prefix) (before : Option BgpPath) :
    RibOp → Option BgpPath
  | .apply name update => if name = peer then sayUpdate (policy peer) update p before else before
  | .purgePeer _ name => if name = peer then none else before

/-- An UPDATE of the peer stays within the limit, and the table follows it. -/
def RibState.Follows (peer : Text) (s : RibState) : RibOp → Prop
  | .apply name update => name = peer → Followed s.rib (s.policy peer) peer update ∧
      (s.rib.apply peer update (s.policy peer)).exceeded = false
  | .purgePeer _ _ => True

def RibState.AllFollow (peer : Text) : RibState → List RibOp → Prop
  | _, [] => True
  | s, op :: ops => s.Follows peer op ∧ (s.step op).AllFollow peer ops

theorem admit_withdraw (peer : Text) (s : Applying) (p : Prefix) :
    (s.withdraw peer p).policy.admits = s.policy.admits := by
  rw [Applying.withdraw]
  split
  · rfl
  split <;> rfl

theorem admit_foldl_withdraw (peer : Text) (s : Applying) (ps : List Prefix) :
    (ps.foldl (Applying.withdraw peer) s).policy.admits = s.policy.admits := by
  induction ps generalizing s with
  | nil => rfl
  | cons p ps ih => rw [List.foldl_cons, ih, admit_withdraw]

theorem RibState.admit_step (s : RibState) (op : RibOp) (peer : Text) :
    ((s.step op).policy peer).admits = (s.policy peer).admits := by
  cases op with
  | apply name update =>
    by_cases h : peer = name
    · subst h
      simp only [step, Function.update_self, LocRib.apply, admit_foldl_withdraw,
        admit_foldl_announce]
    · simp only [step, Function.update_of_ne h]
  | purgePeer o name =>
    by_cases h : peer = name
    · subst h
      simp only [step, Function.update_self, LocRib.purgePeer, admit_foldl_withdraw]
    · simp only [step, Function.update_of_ne h]

theorem sayUpdate_congr {policy policy' : ImportPolicy} (h : policy.admits = policy'.admits)
    (update : UpdateMsg) (p : Prefix) (before : Option BgpPath) :
    sayUpdate policy update p before = sayUpdate policy' update p before := by
  unfold sayUpdate
  rw [h]

theorem LocRib.stored_purgePeer (rib : LocRib) (o : HashOrder Prefix) (peer : Text)
    (policy : ImportPolicy) (p : Prefix) :
    (rib.purgePeer o peer policy).rib.stored peer p = none := by
  rw [LocRib.purgePeer, stored_foldl_withdraw_self rfl]
  split
  · rfl
  · -- a prefix that is no key has no path
    rename_i hkey
    by_contra hstored
    have hheld : p ∈ rib.held peer := hstored
    exact hkey ((o.perm _).mem_iff.mpr (LocRib.mem_keys_of_mem_held hheld))

theorem RibState.stored_step {s : RibState} {op : RibOp} {peer : Text} (h : s.Follows peer op)
    (p : Prefix) :
    (s.step op).rib.stored peer p = said s.policy peer p (s.rib.stored peer p) op := by
  cases op with
  | apply name update =>
    by_cases hname : name = peer
    · subst hname
      simp only [said, if_true]
      exact stored_apply (h rfl).1 (h rfl).2 p
    · simp only [said, if_neg hname, step, LocRib.apply,
        stored_foldl_withdraw (Ne.symm hname), stored_foldl_announce (Ne.symm hname)]
  | purgePeer o name =>
    by_cases hname : name = peer
    · subst hname
      simp only [said, if_true, step]
      exact LocRib.stored_purgePeer _ _ _ _ _
    · simp only [said, if_neg hname, step, LocRib.purgePeer,
        stored_foldl_withdraw (Ne.symm hname)]

/-- The path of a peer for a prefix is what the latest of its UPDATEs that mentions the prefix says,
in every run in which the UPDATEs of the peer are followed. -/
theorem stored_latest {s : RibState} {ops : List RibOp} {peer : Text}
    (hfollow : s.AllFollow peer ops) (p : Prefix) : (ops.foldl RibState.step s).rib.stored peer p =
      ops.foldl (said s.policy peer p) (s.rib.stored peer p) := by
  induction ops generalizing s with
  | nil => rfl
  | cons op ops ih =>
    have hsaid : said (s.step op).policy peer p = said s.policy peer p := by
      funext before op'
      cases op' with
      | apply name update =>
        rw [said, said, sayUpdate_congr (s.admit_step op peer)]
      | purgePeer o name => rfl
    rw [List.foldl_cons, List.foldl_cons, ih hfollow.2, RibState.stored_step hfollow.1, hsaid]

theorem mem_of_lastAnnounced {as : List (Prefix × BgpPath)} {p : Prefix} {path : BgpPath}
    (h : lastAnnounced as p = some path) : (p, path) ∈ as := by
  obtain ⟨a, ha, rfl⟩ := Option.map_eq_some_iff.mp h
  have hmem := List.mem_filter.mp (List.mem_of_getLast? ha)
  have hp : a.1 = p := of_decide_eq_true hmem.2
  exact hp ▸ hmem.1

theorem stored_latest_lab :
    let s := dnOps.foldl RibState.step (RibState.mk {} fun _ => dnPolicy 2)
    s.rib.stored dnPeer (dnPrefix 2) = none ∧
      s.rib.stored dnPeer (dnPrefix 1) = some (basePath (dnUpdate []).attrs) := by
  have hfollow : RibState.AllFollow dnPeer (RibState.mk {} fun _ => dnPolicy 2) dnOps := by
    refine ⟨fun _ => ⟨⟨⟨by decide, by decide⟩, fun p path hlast => ?_⟩, by decide⟩,
      fun hpeer => absurd hpeer (by decide),
      fun _ => ⟨⟨⟨by decide, by decide⟩, fun p path hlast => ?_⟩, by decide⟩, trivial⟩
    · have hall : ∀ a ∈ announces (dnUpdate [dnPrefix 1, dnPrefix 2]),
          (dnPolicy 2).admits a.1 a.2 = .ok () := by decide
      rw [if_pos (hall _ (mem_of_lastAnnounced hlast))]
      exact List.not_mem_nil
    · cases mem_of_lastAnnounced hlast
  exact ⟨(stored_latest hfollow (dnPrefix 2)).trans (by decide),
    (stored_latest hfollow (dnPrefix 1)).trans (by decide)⟩

/-! ## UPDATEs that are not followed -/

/-- The UPDATE announces and withdraws one prefix. -/
def bothUpdate : UpdateMsg := { dnUpdate [dnPrefix 1] with withdrawn := [dnPrefix 1] }

/-- The same announcement with our own AS number in its path. -/
def loopUpdate : UpdateMsg :=
  { dnUpdate [dnPrefix 1] with
    attrs := [.origin 0, .asPath [⟨false, [64513, 64512]⟩], .nextHop 0x0a000002#32] }

theorem not_followed :
    (let s := RibState.mk {} fun _ => dnPolicy 9
     (s.step (.apply dnPeer bothUpdate)).rib.stored dnPeer (dnPrefix 1) = none ∧
      sayUpdate (dnPolicy 9) bothUpdate (dnPrefix 1) none ≠ none) ∧
    (let s := (RibState.mk {} fun _ => dnPolicy 9).step (.apply dnPeer (dnUpdate [dnPrefix 1]))
     (s.step (.apply dnPeer loopUpdate)).rib.stored dnPeer (dnPrefix 1) ≠ none ∧
      sayUpdate (dnPolicy 9) loopUpdate (dnPrefix 1) (s.rib.stored dnPeer (dnPrefix 1)) =
        none) := by
  decide

end Rill.Bgp
