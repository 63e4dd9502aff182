import Rill.RibStored

/-!
# The route table and its counters

One import policy for each peer. As long as the announcements fit the limits, every entry of the
table has a path, its best peer is the selected one, and the counter of a policy is the number of
prefixes for which its peer has a path. An announcement above the limit leaves an entry without a
path when its prefix is new.
-/

namespace Rill.Bgp

def LocRib.held (rib : LocRib) (peer : Text) : Set Prefix := {p | rib.stored peer p ≠ none}

def LocRib.admitted (rib : LocRib) : Set Prefix := {p | ∃ peer, p ∈ rib.held peer}

/-- Every entry has a path, and its best peer is the selected one. -/
structure LocRib.Ok (rib : LocRib) : Prop where
  nonempty : ∀ (p : Prefix) (e : PeerPaths), rib.entries[p]? = some e → e.peers ≠ []
  best : ∀ (p : Prefix) (e : PeerPaths), rib.entries[p]? = some e → e.best = selectBest e.peers

/-- The number that the counter cannot pass. -/
def ImportPolicy.limit (policy : ImportPolicy) : ℕ :=
  match policy.maxPrefixes with
  | some limit => limit.toNat
  | none => 2 ^ 32 - 1

theorem LocRib.mem_keys_of_mem_held {rib : LocRib} {peer : Text} {p : Prefix}
    (h : p ∈ rib.held peer) : p ∈ rib.entries.keys := by
  rw [Std.ExtTreeMap.mem_keys, Std.ExtTreeMap.mem_iff_isSome_getElem?]
  cases hentry : rib.entries[p]? with
  | some e => rfl
  | none =>
    refine absurd ?_ h
    rw [stored, hentry]
    rfl

theorem LocRib.finite_held (rib : LocRib) (peer : Text) : (rib.held peer).Finite :=
  (List.finite_toSet rib.entries.keys).subset fun _ h => mem_keys_of_mem_held h

theorem LocRib.set_same {rib : LocRib} {p : Prefix} (peer : Text)
    (hstored : rib.stored peer p ≠ none) :
    rib.set p (rib.entries[p]?.getD {}) = rib := by
  have hsome : rib.entries[p]? = some (rib.entries[p]?.getD {}) := by
    cases hentry : rib.entries[p]? with
    | some e => rfl
    | none =>
      refine absurd ?_ hstored
      rw [stored, hentry]
      rfl
  rw [LocRib.set, (Table.insert_eq_self_iff _ _ _).mpr hsome]

namespace LocRib.Ok
variable {rib : LocRib} (h : rib.Ok)
include h

theorem set_reselect {peers : List (Text × BgpPath)} (hpeers : peers ≠ []) (p : Prefix) :
    (rib.set p (.reselect peers)).Ok := by
  have hentry : ∀ (q : Prefix) (e : PeerPaths),
      (rib.set p (.reselect peers)).entries[q]? = some e →
        e = .reselect peers ∨ rib.entries[q]? = some e := by
    intro q e he
    rw [LocRib.set, Table.getElem?_insert] at he
    split at he
    · exact Or.inl (Option.some.inj he).symm
    · exact Or.inr he
  constructor
  · intro q e he
    rcases hentry q e he with rfl | he
    · exact hpeers
    · exact h.nonempty q e he
  · intro q e he
    rcases hentry q e he with rfl | he
    · rfl
    · exact h.best q e he

theorem removeOne {rib' : LocRib} {peer : Text} {p : Prefix} {changes : List RouteChange}
    (hremove : rib.removeOne peer p = some (rib', changes)) : rib'.Ok := by
  unfold LocRib.removeOne at hremove
  split at hremove
  · nomatch hremove
  rename_i e hentry
  simp only at hremove
  split at hremove
  · nomatch hremove
  split at hremove
  · cases hremove
    have hold : ∀ (q : Prefix) (e : PeerPaths), (rib.entries.erase p)[q]? = some e →
        rib.entries[q]? = some e := by
      intro q e he
      rw [Table.getElem?_erase] at he
      split at he
      · nomatch he
      · exact he
    exact ⟨fun q e he => h.nonempty q e (hold q e he), fun q e he => h.best q e (hold q e he)⟩
  rename_i hne
  split at hremove
  · rename_i hbest
    cases hremove
    have hselect : ({ e with peers := e.peers.filter (·.1 != peer) } : PeerPaths) =
        .reselect (e.peers.filter (·.1 != peer)) := by
      rw [PeerPaths.reselect, hbest]
    rw [hselect]
    exact h.set_reselect hne p
  · cases hremove
    exact h.set_reselect hne p

end LocRib.Ok

/-! ## One call -/

/-- The table is right, and the counter of the peer is the number of its prefixes. -/
structure Applying.Ok (peer : Text) (s : Applying) : Prop where
  rib : s.rib.Ok
  count : s.policy.accepted.toNat = (s.rib.held peer).ncard
  limit : s.policy.accepted.toNat ≤ s.policy.limit
  within : s.exceeded = false

/-- The prefixes that announcements would add for the peer. -/
def fresh (rib : LocRib) (policy : ImportPolicy) (peer : Text) (as : List (Prefix × BgpPath)) :
    Set Prefix :=
  {p | ∃ path, (p, path) ∈ as ∧ policy.admits p path = .ok () ∧ rib.stored peer p = none}

/-- The announcements fit the limit of the policy. -/
def Room (rib : LocRib) (policy : ImportPolicy) (peer : Text) (as : List (Prefix × BgpPath)) :
    Prop := policy.accepted.toNat + (fresh rib policy peer as).ncard ≤ policy.limit

theorem finite_fresh (rib : LocRib) (policy : ImportPolicy) (peer : Text)
    (as : List (Prefix × BgpPath)) : (fresh rib policy peer as).Finite := by
  refine (List.finite_toSet (as.map Prod.fst)).subset ?_
  rintro p ⟨path, hmem, -⟩
  exact List.mem_map_of_mem (f := Prod.fst) hmem

theorem fresh_tail_subset (rib : LocRib) (policy : ImportPolicy) (peer : Text)
    (a : Prefix × BgpPath) (as : List (Prefix × BgpPath)) :
    fresh rib policy peer as ⊆ fresh rib policy peer (a :: as) := by
  rintro p ⟨path, hmem, hadmits⟩
  exact ⟨path, List.mem_cons_of_mem a hmem, hadmits⟩

theorem noteAccepted_of_lt {policy : ImportPolicy} (h : policy.accepted.toNat < policy.limit) :
    policy.noteAccepted = .ok { policy with accepted := policy.accepted + 1 } ∧
      (policy.accepted + 1).toNat = policy.accepted.toNat + 1 := by
  have hlimit : policy.limit ≤ 2 ^ 32 - 1 := by
    unfold ImportPolicy.limit
    split
    · rename_i limit _
      have hlt := limit.toNat_lt
      omega
    · exact le_rfl
  refine ⟨?_, ?_⟩
  · unfold ImportPolicy.noteAccepted
    unfold ImportPolicy.limit at h
    split
    · rename_i limit hmax
      rw [hmax] at h
      rw [if_neg (by rw [UInt32.le_iff_toNat_le]; exact Nat.not_le.mpr h)]
    · rfl
  · rw [UInt32.toNat_add]
    exact Nat.mod_eq_of_lt (by rw [UInt32.toNat_one]; omega)

theorem Applying.held_announce (peer : Text) (s : Applying) (p : Prefix) (path : BgpPath)
    (hadmits : s.policy.admits p path = .ok ())
    (hwithin : (s.announce peer (p, path)).exceeded = false) :
    (s.announce peer (p, path)).rib.held peer = insert p (s.rib.held peer) := by
  ext q
  rw [LocRib.held, Set.mem_ofPred_eq, stored_announce, Set.mem_insert_iff]
  by_cases hq : q = p
  · simp [hq, hadmits, hwithin]
  · simp [hq, LocRib.held]

theorem Applying.fresh_announce (peer : Text) (s : Applying) (p : Prefix) (path : BgpPath)
    (hadmits : s.policy.admits p path = .ok ())
    (hwithin : (s.announce peer (p, path)).exceeded = false) (as : List (Prefix × BgpPath)) :
    fresh (s.announce peer (p, path)).rib s.policy peer as =
      fresh s.rib s.policy peer ((p, path) :: as) \ {p} := by
  ext q
  simp only [fresh, Set.mem_ofPred_eq, Set.mem_sdiff, Set.mem_singleton_iff, stored_announce]
  by_cases hq : q = p
  · simp [hq, hadmits, hwithin]
  · simp [hq]

theorem Applying.Ok.announce {peer : Text} {s : Applying} (h : s.Ok peer) {p : Prefix}
    {path : BgpPath} {as : List (Prefix × BgpPath)}
    (hroom : Room s.rib s.policy peer ((p, path) :: as)) :
    (s.announce peer (p, path)).Ok peer ∧
      Room (s.announce peer (p, path)).rib (s.announce peer (p, path)).policy peer as := by
  have hfinite := finite_fresh s.rib s.policy peer ((p, path) :: as)
  have htail := Set.ncard_le_ncard (fresh_tail_subset s.rib s.policy peer (p, path) as) hfinite
  have hheld := s.held_announce peer p path
  have hfresh := s.fresh_announce peer p path
  unfold Room at hroom ⊢
  generalize hs' : s.announce peer (p, path) = s' at hheld hfresh ⊢
  have hcases := announced peer s p path
  rw [hs'] at hcases
  cases hcases with
  | stopped hexceeded => exact absurd hexceeded (by simp [h.within])
  | rejected _ hadmits =>
    exact ⟨⟨h.rib, h.count, h.limit, h.within⟩, (Nat.add_le_add_left htail _).trans hroom⟩
  | same _ hadmits hslot =>
    rw [LocRib.set_same peer (by simp [hslot])]
    exact ⟨⟨h.rib, h.count, h.limit, h.within⟩, (Nat.add_le_add_left htail _).trans hroom⟩
  | replaced hexceeded hadmits hslot hne =>
    have hheld := hheld hadmits hexceeded
    have hmem : p ∈ s.rib.held peer := by simp [LocRib.held, hslot]
    rw [Set.insert_eq_of_mem hmem] at hheld
    refine ⟨⟨h.rib.set_reselect (updateFirst_ne_nil ?_) p, h.count.trans ?_, h.limit, h.within⟩, ?_⟩
    · intro hnil
      rw [LocRib.stored_eq, PeerPaths.path, hnil] at hslot
      cases hslot
    · rw [hheld]
    · refine le_trans (Nat.add_le_add_left (Set.ncard_le_ncard ?_ hfinite) _) hroom
      exact (hfresh hadmits hexceeded as).trans_subset Set.sdiff_subset
  | full hexceeded hadmits hslot hnote =>
    have hmem : p ∈ fresh s.rib s.policy peer ((p, path) :: as) :=
      ⟨path, List.mem_cons_self, hadmits, hslot⟩
    have hpos := (Set.ncard_pos hfinite).mpr ⟨p, hmem⟩
    rw [(noteAccepted_of_lt (by omega)).1] at hnote
    cases hnote
  | added hexceeded hadmits hslot hnote =>
    have hmem : p ∈ fresh s.rib s.policy peer ((p, path) :: as) :=
      ⟨path, List.mem_cons_self, hadmits, hslot⟩
    have hpos := (Set.ncard_pos hfinite).mpr ⟨p, hmem⟩
    have hlt : s.policy.accepted.toNat < s.policy.limit := by omega
    obtain ⟨hok, hnext⟩ := noteAccepted_of_lt hlt
    rw [hok] at hnote
    cases hnote
    have hnew : p ∉ s.rib.held peer := by simp [LocRib.held, hslot]
    have hcard := Set.ncard_insert_of_notMem hnew (s.rib.finite_held peer)
    have hle := (congrArg Set.ncard (hfresh hadmits hexceeded as)).le
    rw [Set.ncard_sdiff_singleton_of_mem hmem] at hle
    have hroom' : s.policy.accepted.toNat + 1 +
        ((fresh s.rib s.policy peer ((p, path) :: as)).ncard - 1) ≤ s.policy.limit := by omega
    refine ⟨⟨h.rib.set_reselect (by simp) p, ?_, ?_, h.within⟩, ?_⟩
    · rw [hheld hadmits hexceeded, hcard, ← h.count]
      exact hnext
    · exact hnext.le.trans hlt
    · exact le_trans (Nat.add_le_add hnext.le hle) hroom'

theorem Applying.Ok.foldl_announce {peer : Text} {s : Applying} (h : s.Ok peer)
    {as : List (Prefix × BgpPath)} (hroom : Room s.rib s.policy peer as) :
    (as.foldl (Applying.announce peer) s).Ok peer := by
  induction as generalizing s with
  | nil => exact h
  | cons a as ih =>
    obtain ⟨hnext, hroom⟩ := h.announce hroom
    exact ih hnext hroom

theorem Applying.Ok.withdraw {peer : Text} {s : Applying} (h : s.Ok peer) (p : Prefix) :
    (s.withdraw peer p).Ok peer := by
  have hstored := fun name q => stored_withdraw peer s p name q
  unfold Applying.withdraw at hstored ⊢
  rw [if_neg (by simp [h.within])] at hstored ⊢
  split
  · exact h
  rename_i rib changes hremove
  rw [hremove] at hstored
  have hheld : rib.held peer = s.rib.held peer \ {p} := by
    ext q
    have hq := hstored peer q
    simp only [h.within, and_true, true_and] at hq
    rw [LocRib.held, Set.mem_ofPred_eq, hq]
    by_cases hqp : q = p <;> simp [hqp, LocRib.held]
  have hmem : p ∈ s.rib.held peer := (LocRib.stored_removeOne hremove).1
  have hcard := Set.ncard_sdiff_singleton_of_mem hmem
  have hpolicy : s.policy.noteWithdrawn.accepted.toNat = s.policy.accepted.toNat - 1 :=
    UInt32.toNat_ofNat_of_lt' (lt_of_le_of_lt (Nat.sub_le _ _) s.policy.accepted.toNat_lt)
  refine ⟨h.rib.removeOne hremove, ?_, ?_, h.within⟩
  · rw [hpolicy, hheld, hcard, h.count]
  · exact hpolicy.le.trans ((Nat.sub_le _ _).trans h.limit)

theorem Applying.Ok.foldl_withdraw {peer : Text} {s : Applying} (h : s.Ok peer)
    (ps : List Prefix) : (ps.foldl (Applying.withdraw peer) s).Ok peer := by
  induction ps generalizing s with
  | nil => exact h
  | cons p ps ih => exact ih (h.withdraw p)

/-! ## Calls with a policy for each peer -/

structure RibState where
  rib : LocRib
  policy : Text → ImportPolicy

inductive RibOp where
  | apply (peer : Text) (update : UpdateMsg)
  | purgePeer (o : HashOrder Prefix) (peer : Text)

def RibState.step (s : RibState) : RibOp → RibState
  | .apply peer update =>
    let r := s.rib.apply peer update (s.policy peer)
    { rib := r.rib, policy := Function.update s.policy peer r.policy }
  | .purgePeer o peer =>
    let r := s.rib.purgePeer o peer (s.policy peer)
    { rib := r.rib, policy := Function.update s.policy peer r.policy }

/-- The announcements of the call fit the limit of the peer. -/
def RibState.Fits (s : RibState) : RibOp → Prop
  | .apply peer update => Room s.rib (s.policy peer) peer (extractAnnounced update)
  | .purgePeer _ _ => True

structure RibState.Inv (s : RibState) : Prop where
  rib : s.rib.Ok
  count : ∀ peer, (s.policy peer).accepted.toNat = (s.rib.held peer).ncard
  limit : ∀ peer, (s.policy peer).accepted.toNat ≤ (s.policy peer).limit

theorem stored_foldl_announce {peer name : Text} (hname : name ≠ peer) (s : Applying)
    (as : List (Prefix × BgpPath)) (q : Prefix) :
    (as.foldl (Applying.announce peer) s).rib.stored name q = s.rib.stored name q := by
  induction as generalizing s with
  | nil => rfl
  | cons a as ih =>
    rw [List.foldl_cons, ih, Applying.stored_announce, if_neg fun h => hname h.1]

theorem stored_foldl_withdraw {peer name : Text} (hname : name ≠ peer) (s : Applying)
    (ps : List Prefix) (q : Prefix) :
    (ps.foldl (Applying.withdraw peer) s).rib.stored name q = s.rib.stored name q := by
  induction ps generalizing s with
  | nil => rfl
  | cons p ps ih =>
    rw [List.foldl_cons, ih, Applying.stored_withdraw, if_neg fun h => hname h.1]

theorem RibState.Inv.applying {s : RibState} (h : s.Inv) (peer : Text) :
    Applying.Ok peer { rib := s.rib, policy := s.policy peer } :=
  ⟨h.rib, h.count peer, h.limit peer, rfl⟩

theorem RibState.Inv.update {s : RibState} (h : s.Inv) {peer : Text} {r : Applying}
    (hr : r.Ok peer) (hother : ∀ name q, name ≠ peer → r.rib.stored name q = s.rib.stored name q) :
    RibState.Inv { rib := r.rib, policy := Function.update s.policy peer r.policy } := by
  refine ⟨hr.rib, fun name => ?_, fun name => ?_⟩
  · by_cases hname : name = peer
    · subst hname
      simpa using hr.count
    · have hheld : r.rib.held name = s.rib.held name := by
        ext q
        rw [LocRib.held, Set.mem_ofPred_eq, hother name q hname]
        rfl
      simpa [hname, hheld] using h.count name
  · by_cases hname : name = peer
    · subst hname
      simpa using hr.limit
    · simpa [hname] using h.limit name

theorem RibState.Inv.step {s : RibState} (h : s.Inv) {op : RibOp} (hfits : s.Fits op) :
    (s.step op).Inv := by
  cases op with
  | apply peer update =>
    refine h.update (((h.applying peer).foldl_announce hfits).foldl_withdraw _)
      fun name q hname => ?_
    rw [LocRib.apply, stored_foldl_withdraw hname, stored_foldl_announce hname]
  | purgePeer o peer =>
    refine h.update ((h.applying peer).foldl_withdraw _) fun name q hname => ?_
    rw [LocRib.purgePeer, stored_foldl_withdraw hname]

/-- Every call of a run fits the limits in the state it is made in. -/
def RibState.AllFit : RibState → List RibOp → Prop
  | _, [] => True
  | s, op :: ops => s.Fits op ∧ (s.step op).AllFit ops

theorem RibState.Inv.run {s : RibState} (h : s.Inv) {ops : List RibOp} (hfits : s.AllFit ops) :
    (ops.foldl RibState.step s).Inv := by
  induction ops generalizing s with
  | nil => exact h
  | cons op ops ih => exact ih (h.step hfits.1) hfits.2

theorem RibState.inv_new {policy : Text → ImportPolicy}
    (hnew : ∀ peer, (policy peer).accepted = 0) : RibState.Inv { rib := {}, policy } := by
  have hnone : ∀ (p : Prefix), (LocRib.entries {})[p]? = none := fun p => by
    rw [Std.ExtTreeMap.getElem?_empty]
  refine ⟨⟨fun p e he => ?_, fun p e he => ?_⟩, fun peer => ?_, fun peer => ?_⟩
  · rw [hnone] at he
    nomatch he
  · rw [hnone] at he
    nomatch he
  · have hheld : LocRib.held {} peer = ∅ := by
      ext p
      simp [LocRib.held, LocRib.stored]
    rw [hnew, hheld, Set.ncard_empty]
    rfl
  · rw [hnew]
    exact Nat.zero_le _

theorem LocRib.Ok.acceptedPrefixes {rib : LocRib} (h : rib.Ok) :
    rib.acceptedPrefixes = rib.admitted.ncard := by
  have hset : rib.admitted = {p | p ∈ rib.entries.keys} := by
    ext p
    refine ⟨fun ⟨_, hp⟩ => LocRib.mem_keys_of_mem_held hp, fun hp => ?_⟩
    rw [Set.mem_ofPred_eq, Std.ExtTreeMap.mem_keys, Std.ExtTreeMap.mem_iff_isSome_getElem?] at hp
    obtain ⟨e, he⟩ := Option.isSome_iff_exists.mp hp
    obtain ⟨a, ha⟩ := List.exists_mem_of_ne_nil _ (h.nonempty p e he)
    refine ⟨a.1, fun hnone => ?_⟩
    rw [LocRib.stored, he] at hnone
    exact PeerPaths.path_eq_none_iff.mp hnone a ha rfl
  have hcoe : {p | p ∈ rib.entries.keys} = (rib.entries.keys.toFinset : Set Prefix) := by
    ext p
    simp
  rw [hset, hcoe, Set.ncard_coe_finset, List.toFinset_card_of_nodup Std.ExtTreeMap.nodup_keys,
    Std.ExtTreeMap.length_keys, LocRib.acceptedPrefixes]

/-- In every run whose announcements fit the limits, the entries have paths and the selected best,
and the counters are the numbers of the prefixes. -/
theorem rib_counts {policy : Text → ImportPolicy} (hnew : ∀ peer, (policy peer).accepted = 0)
    {ops : List RibOp} (hfits : RibState.AllFit { rib := {}, policy } ops) {s : RibState}
    (hs : ops.foldl RibState.step { rib := {}, policy } = s) :
    (∀ (p : Prefix) (e : PeerPaths), s.rib.entries[p]? = some e →
      e.peers ≠ [] ∧ e.best = selectBest e.peers) ∧
    s.rib.acceptedPrefixes = {p | ∃ peer, s.rib.stored peer p ≠ none}.ncard ∧
    ∀ peer, (s.policy peer).accepted.toNat = {p | s.rib.stored peer p ≠ none}.ncard ∧
      ∀ limit, (s.policy peer).maxPrefixes = some limit → (s.policy peer).accepted ≤ limit := by
  have hinv : s.Inv := hs ▸ (RibState.inv_new hnew).run hfits
  refine ⟨fun p e he => ⟨hinv.rib.nonempty p e he, hinv.rib.best p e he⟩,
    hinv.rib.acceptedPrefixes, fun peer => ⟨hinv.count peer, fun limit hlimit => ?_⟩⟩
  have hle := hinv.limit peer
  rw [ImportPolicy.limit, hlimit] at hle
  exact UInt32.le_iff_toNat_le.mpr hle

/-! ## A limit that is exceeded -/

theorem ncard_fresh_le (rib : LocRib) (policy : ImportPolicy) (peer : Text)
    (as : List (Prefix × BgpPath)) : (fresh rib policy peer as).ncard ≤ as.length := by
  have hsubset : fresh rib policy peer as ⊆ ((as.map Prod.fst).toFinset : Set Prefix) := by
    rintro p ⟨path, hmem, -⟩
    simpa using ⟨path, hmem⟩
  refine (Set.ncard_le_ncard hsubset (Finset.finite_toSet _)).trans ?_
  rw [Set.ncard_coe_finset]
  exact (List.toFinset_card_le _).trans (List.length_map _).le

def dnPrefix (n : BitVec 8) : Prefix :=
  (Prefix.new (0xac14#16 ++ n ++ 0#104) 24 true).get (by simp [Prefix.new])

/-- A policy that takes the prefixes of 172.20.0.0/14, up to a limit. -/
def dnPolicy (limit : UInt32) : ImportPolicy :=
  { whitelist := [(Prefix.new (0xac14#16 ++ 0#112) 14 true).get (by simp [Prefix.new])],
    bogons := [], ownAs := 64512, maxPrefixes := some limit }

def dnPeer : Text := [112, 49]

def dnUpdate (ps : List Prefix) : UpdateMsg :=
  { withdrawn := [], attrs := [.origin 0, .asPath [⟨false, [64513]⟩], .nextHop 0x0a000002#32],
    announced := ps }

def dnOther : Text := [112, 50]

/-- A peer announces two prefixes and another one of them, and the first withdraws that one. -/
def dnOps : List RibOp :=
  [.apply dnPeer (dnUpdate [dnPrefix 1, dnPrefix 2]), .apply dnOther (dnUpdate [dnPrefix 2]),
    .apply dnPeer { dnUpdate [] with withdrawn := [dnPrefix 2] }]

theorem rib_counts_lab :
    let s := dnOps.foldl RibState.step (RibState.mk {} fun _ => dnPolicy 2)
    {p | ∃ peer, s.rib.stored peer p ≠ none}.ncard = 2 ∧
      {p | s.rib.stored dnPeer p ≠ none}.ncard = 1 := by
  intro s
  have hfits : RibState.AllFit (RibState.mk {} fun _ => dnPolicy 2) dnOps :=
    ⟨(Nat.add_le_add_left (ncard_fresh_le _ _ _ _) _).trans (by decide),
      (Nat.add_le_add_left (ncard_fresh_le _ _ _ _) _).trans (by decide),
      (Nat.add_le_add_left (ncard_fresh_le _ _ _ _) _).trans (by decide), trivial⟩
  obtain ⟨-, hprefixes, hcounts⟩ := rib_counts (fun _ => rfl) hfits rfl
  have hcheck : s.rib.acceptedPrefixes = 2 ∧ (s.policy dnPeer).accepted.toNat = 1 := by
    decide
  exact ⟨hprefixes.symm.trans hcheck.1, (hcounts dnPeer).1.symm.trans hcheck.2⟩

/-- The second prefix is above the limit of one: its entry stays without a path, and is counted. -/
theorem exceeded_leaves_entry :
    let s := (RibState.mk {} fun _ => dnPolicy 1).step
      (.apply dnPeer (dnUpdate [dnPrefix 1, dnPrefix 2]))
    s.rib.entries[dnPrefix 2]? = some {} ∧ s.rib.acceptedPrefixes = 2 ∧
      (s.policy dnPeer).accepted = 1 ∧ s.rib.stored dnPeer (dnPrefix 2) = none := by
  decide

end Rill.Bgp
