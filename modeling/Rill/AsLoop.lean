import Rill.LatestPath

/-!
# AS loops

The policy looks for our AS number in the path that the attributes of an UPDATE come to: a non-empty
AS4_PATH, or else the first non-empty AS_PATH. A path attribute that another one hides is not looked
at.
-/

namespace Rill.Bgp

/-- The AS numbers in all path attributes, of sequences and of sets. -/
def allAsns (attrs : List PathAttr) : List UInt32 :=
  attrs.flatMap fun attr =>
    match attr with
    | .asPath segs => segs.flatMap (·.asns)
    | .as4Path segs => segs.flatMap (·.asns)
    | _ => []

/-- The AS numbers of a path attribute, where it has any. -/
def flatten (segs : List Segment) : Option (List UInt32) :=
  if (segs.flatMap (·.asns)).isEmpty then none else some (segs.flatMap (·.asns))

def asNumbers : PathAttr → Option (List UInt32)
  | .asPath segs => flatten segs
  | _ => none

def as4Numbers : PathAttr → Option (List UInt32)
  | .as4Path segs => flatten segs
  | _ => none

/-- The AS numbers of the last AS4_PATH that has any, or else of the first such AS_PATH. -/
def effectivePath (attrs : List PathAttr) : List UInt32 :=
  ((attrs.filterMap as4Numbers).getLast?.or (attrs.filterMap asNumbers).head?).getD []

/-- The UPDATE announces the prefix and has a next hop for it: the NEXT_HOP attribute, or that of an
MP_REACH of the family that the last one has. -/
def Announces (update : UpdateMsg) (p : Prefix) : Prop :=
  p ∈ update.announced ∧ (∃ ip, .nextHop ip ∈ update.attrs) ∨
    ∃ r ∈ update.attrs.filterMap unicastReach, p ∈ r.2.2 ∧
      ∃ last ∈ (update.attrs.filterMap unicastReach).getLast?, r.1 = last.1

/-- The checks of the policy on the prefix alone. -/
def ImportPolicy.Imports (policy : ImportPolicy) (p : Prefix) : Prop :=
  policy.bogons.any (p.isCoveredBy ·) = false ∧ policy.whitelist.any (p.isCoveredBy ·) = true

theorem ImportPolicy.admit_eq_ok_iff {policy : ImportPolicy} {p : Prefix} {path : BgpPath} :
    policy.admits p path = .ok () ↔
      path.nextHop.isNone = false ∧ policy.Imports p ∧ policy.ownAs ∉ path.asPath := by
  unfold admits Imports
  split
  · simp [*]
  split
  · simp [*]
  split
  · simp_all
  · split <;> simp_all [Option.isSome_iff_ne_none]

theorem effectivePath_eq_nil_iff {attrs : List PathAttr} : effectivePath attrs = [] ↔
    attrs.filterMap as4Numbers = [] ∧ attrs.filterMap asNumbers = [] := by
  have hflat : ∀ segs l, flatten segs = some l → l ≠ [] := by
    rintro segs l h rfl
    unfold flatten at h
    split_ifs at h with hempty
    exact hempty (by rw [Option.some.inj h]; rfl)
  have hne : ∀ f : PathAttr → Option (List UInt32), (∀ attr l, f attr = some l → l ≠ []) →
      ∀ l ∈ attrs.filterMap f, l ≠ [] := by
    intro f hf l hl
    obtain ⟨attr, -, hattr⟩ := List.mem_filterMap.mp hl
    exact hf attr l hattr
  have hshort := hne asNumbers fun attr l h => by
    cases attr <;> first | exact hflat _ l h | cases h
  have hlong := hne as4Numbers fun attr l h => by
    cases attr <;> first | exact hflat _ l h | cases h
  unfold effectivePath
  rcases List.eq_nil_or_concat (attrs.filterMap as4Numbers) with h4 | ⟨init, l, h4⟩
  · cases h : attrs.filterMap asNumbers with
    | nil => simp [h4]
    | cons l ls => simpa [h4] using hshort l (by simp [h])
  · simpa [h4] using hlong l (by simp [h4])

theorem asPath_basePath (attrs : List PathAttr) :
    (basePath attrs).asPath = effectivePath attrs := by
  induction attrs using List.reverseRecOn with
  | nil => rfl
  | append_singleton attrs attr ih =>
    cases attr with
    | asPath segs =>
      have hstep : (basePath (attrs ++ [.asPath segs])).asPath =
          (if (basePath attrs).asPath.isEmpty then
            { basePath attrs with asPath := segs.flatMap (·.asns) } else basePath attrs).asPath :=
        congrArg BgpPath.asPath List.foldl_append
      rw [hstep]
      by_cases hempty : effectivePath attrs = []
      · obtain ⟨h4, h2⟩ := effectivePath_eq_nil_iff.mp hempty
        rw [ih, hempty, List.isEmpty_nil, if_pos rfl]
        by_cases hflat : (segs.flatMap (·.asns)).isEmpty = true
        · simp [effectivePath, h4, h2, as4Numbers, asNumbers, flatten, List.isEmpty_iff.mp hflat]
        · simp [effectivePath, h4, h2, as4Numbers, asNumbers, flatten, hflat]
      · rw [ih, if_neg (by rwa [List.isEmpty_iff]), ih]
        rcases List.eq_nil_or_concat (attrs.filterMap as4Numbers) with h4 | ⟨init, l, h4⟩
        · cases h2 : attrs.filterMap asNumbers with
          | nil => exact absurd (effectivePath_eq_nil_iff.mpr ⟨h4, h2⟩) hempty
          | cons l ls => simp [effectivePath, h4, h2, as4Numbers]
        · have hnone : [PathAttr.asPath segs].filterMap as4Numbers = [] := rfl
          simp [effectivePath, h4, hnone]
    | as4Path segs =>
      have hstep : (basePath (attrs ++ [.as4Path segs])).asPath =
          (if (segs.flatMap (·.asns)).isEmpty then basePath attrs
            else { basePath attrs with asPath := segs.flatMap (·.asns) }).asPath :=
        congrArg BgpPath.asPath List.foldl_append
      rw [hstep]
      by_cases hflat : (segs.flatMap (·.asns)).isEmpty = true
      · simp [effectivePath, hflat, ih, as4Numbers, asNumbers, flatten]
      · simp [effectivePath, hflat, as4Numbers, asNumbers, flatten]
    | _ => simpa [basePath, effectivePath, as4Numbers, asNumbers] using ih

theorem nextHop_basePath (attrs : List PathAttr) :
    (basePath attrs).nextHop.isNone = false ↔ ∃ ip, .nextHop ip ∈ attrs := by
  induction attrs using List.reverseRecOn with
  | nil => simp [basePath]
  | append_singleton attrs attr ih =>
    simp only [basePath, List.foldl_append, List.foldl_cons, List.foldl_nil] at ih ⊢
    cases attr with
    | nextHop ip => simp
    | asPath segs => split_ifs <;> simpa using ih
    | as4Path segs =>
      dsimp only
      split_ifs <;> simpa using ih
    | _ => simpa using ih

theorem mem_extractAnnounced {update : UpdateMsg} {a : Prefix × BgpPath}
    (ha : a ∈ extractAnnounced update) : a.2.asPath = effectivePath update.attrs ∧
      a.2.origin = (basePath update.attrs).origin ∧
      (a.2.nextHop.isNone = false → Announces update a.1) := by
  rw [← asPath_basePath]
  unfold extractAnnounced at ha
  rw [lastMpReach_eq] at ha
  rcases List.mem_append.mp ha with ha | ha
  · obtain ⟨p, hp, rfl⟩ := List.mem_map.mp ha
    exact ⟨rfl, rfl, fun hhop => .inl ⟨hp, (nextHop_basePath _).mp hhop⟩⟩
  · cases hlast : (update.attrs.filterMap unicastReach).getLast? with
    | none =>
      rw [hlast] at ha
      cases ha
    | some last =>
      rw [hlast] at ha
      simp only [Option.map_some, flatMap_reach] at ha
      obtain ⟨r, hr, ha⟩ := List.mem_flatMap.mp ha
      split_ifs at ha with hfamily
      · obtain ⟨p, hp, rfl⟩ := List.mem_map.mp ha
        exact ⟨rfl, rfl, fun _ => .inr ⟨r, hr, hp, last, hlast, hfamily⟩⟩
      · cases ha

theorem exists_of_announces {update : UpdateMsg} {p : Prefix} (h : Announces update p) :
    ∃ a ∈ extractAnnounced update, a.1 = p ∧ a.2.nextHop.isNone = false := by
  unfold extractAnnounced
  rw [lastMpReach_eq]
  rcases h with ⟨hp, hhop⟩ | ⟨r, hr, hp, last, hlast, hfamily⟩
  · exact ⟨_, List.mem_append_left _ (List.mem_map_of_mem hp), rfl, (nextHop_basePath _).mpr hhop⟩
  · rw [Option.mem_def.mp hlast]
    simp only [Option.map_some, flatMap_reach]
    refine ⟨(p, { basePath update.attrs with nextHop := some last.2.1 }),
      List.mem_append_right _ (List.mem_flatMap.mpr ⟨r, hr, ?_⟩), rfl, rfl⟩
    rw [if_pos hfamily]
    exact List.mem_map_of_mem hp

theorem stored_foldl_rejected {peer : Text} {s : Applying} {as : List (Prefix × BgpPath)}
    (h : ∀ a ∈ as, s.policy.admits a.1 a.2 ≠ .ok ()) (name : Text) (p : Prefix) :
    (as.foldl (Applying.announce peer) s).rib.stored name p = s.rib.stored name p := by
  induction as generalizing s with
  | nil => rfl
  | cons a as ih =>
    obtain ⟨hhead, htail⟩ := List.forall_mem_cons.mp h
    rw [List.foldl_cons, ih (by rwa [admit_announce]), Applying.stored_announce,
      if_neg fun h => hhead h.2.2.1]

theorem within_announce (peer : Text) {s : Applying} {a : Prefix × BgpPath}
    (h : s.exceeded = false)
    (hroom : s.policy.admits a.1 a.2 = .ok () → s.rib.stored peer a.1 ≠ none) :
    (s.announce peer a).exceeded = false := by
  have hcases := Applying.announced peer s a.1 a.2
  generalize s.announce peer (a.1, a.2) = s' at hcases
  cases hcases with
  | full _ hadmits hslot _ => exact absurd hslot (hroom hadmits)
  | _ => exact h

theorem origin_foldl_announce {peer : Text} {s : Applying} {as : List (Prefix × BgpPath)}
    {origin : UInt8} (has : ∀ a ∈ as, a.2.origin = origin) {p : Prefix} {path : BgpPath}
    (hstored : s.rib.stored peer p = some path) (hpath : path.origin = origin) :
    ∃ path, (as.foldl (Applying.announce peer) s).rib.stored peer p = some path ∧
      path.origin = origin := by
  induction as generalizing s path with
  | nil => exact ⟨path, hstored, hpath⟩
  | cons a as ih =>
    obtain ⟨hhead, htail⟩ := List.forall_mem_cons.mp has
    have hnext := Applying.stored_announce peer s a.1 a.2 peer p
    split at hnext
    · exact ih htail hnext hhead
    · exact ih htail (hnext.trans hstored) hpath

/-- Among announcements one of which is admitted, one replaces the path that is stored. -/
theorem exists_replaced (peer : Text) {policy : ImportPolicy} {as : List (Prefix × BgpPath)}
    {origin : UInt8} (has : ∀ a ∈ as, a.2.origin = origin)
    (hadmits : ∃ a ∈ as, policy.admits a.1 a.2 = .ok ()) :
    ∃ p, ∀ (s : Applying) (path : BgpPath), s.policy.admits = policy.admits → s.exceeded = false →
      s.rib.stored peer p = some path → path.origin ≠ origin →
        (as.foldl (Applying.announce peer) s).rib.stored peer p ≠ some path := by
  induction as with
  | nil =>
    obtain ⟨a, ha, -⟩ := hadmits
    nomatch ha
  | cons a as ih =>
    obtain ⟨hhead, htail⟩ := List.forall_mem_cons.mp has
    by_cases ha : policy.admits a.1 a.2 = .ok ()
    · refine ⟨a.1, fun s path hpolicy hexceeded hstored horigin hfinal => ?_⟩
      have hwithin : (s.announce peer a).exceeded = false := by
        refine within_announce peer hexceeded fun _ => ?_
        rw [hstored]
        exact Option.some_ne_none _
      have hnext : (s.announce peer a).rib.stored peer a.1 = some a.2 := by
        rw [Applying.stored_announce, if_pos ⟨rfl, rfl, by rw [hpolicy]; exact ha, hwithin⟩]
      obtain ⟨path', hpath', horigin'⟩ := origin_foldl_announce htail hnext hhead
      rw [List.foldl_cons, hpath'] at hfinal
      exact horigin (Option.some.inj hfinal ▸ horigin')
    · have hrest : ∃ a ∈ as, policy.admits a.1 a.2 = .ok () := by
        obtain ⟨b, hb, hok⟩ := hadmits
        rcases List.mem_cons.mp hb with rfl | hb
        · exact absurd hok ha
        · exact ⟨b, hb, hok⟩
      obtain ⟨p, hp⟩ := ih htail hrest
      refine ⟨p, fun s path hpolicy hexceeded hstored horigin => ?_⟩
      have hs : s.policy.admits a.1 a.2 ≠ .ok () := by rwa [hpolicy]
      have hwithin := within_announce peer hexceeded fun hok => absurd hok hs
      refine hp _ path (by rw [admit_announce, hpolicy]) hwithin ?_ horigin
      rw [Applying.stored_announce, if_neg fun h => hs h.2.2.1, hstored]

theorem stored_foldl_withdraw_or (peer : Text) (s : Applying) (ps : List Prefix) (p : Prefix) :
    (ps.foldl (Applying.withdraw peer) s).rib.stored peer p = none ∨
      (ps.foldl (Applying.withdraw peer) s).rib.stored peer p = s.rib.stored peer p := by
  induction ps generalizing s with
  | nil => exact .inr rfl
  | cons q ps ih =>
    have hnext := Applying.stored_withdraw peer s q peer p
    rcases ih (s.withdraw peer q) with hrest | hrest
    · exact .inl hrest
    · rw [List.foldl_cons, hrest, hnext]
      split
      · exact .inl rfl
      · exact .inr rfl

/-- Our AS number is in the effective path, or nothing is announced that the policy imports. -/
def LoopSeen (policy : ImportPolicy) (update : UpdateMsg) : Prop :=
  policy.ownAs ∈ effectivePath update.attrs ∨ ∀ p, Announces update p → ¬ policy.Imports p

theorem rejected_of_loopSeen {policy : ImportPolicy} {update : UpdateMsg}
    (h : LoopSeen policy update) :
    ∀ a ∈ extractAnnounced update, policy.admits a.1 a.2 ≠ .ok () := by
  intro a ha hok
  obtain ⟨hpath, -, hannounced⟩ := mem_extractAnnounced ha
  obtain ⟨hhop, himports, hloop⟩ := ImportPolicy.admit_eq_ok_iff.mp hok
  rcases h with hown | hnone
  · exact hloop (hpath ▸ hown)
  · exact hnone a.1 (hannounced hhop) himports

/-- The announcements of the UPDATE leave the paths of the peer as they are, whatever the table. -/
def StoresNothing (policy : ImportPolicy) (update : UpdateMsg) : Prop :=
  ∀ (rib : LocRib) (peer : Text) (accepted : UInt32) (p : Prefix),
    ((extractAnnounced update).foldl (Applying.announce peer)
      { rib, policy := { policy with accepted } }).rib.stored peer p = rib.stored peer p

theorem storesNothing_iff {policy : ImportPolicy} {update : UpdateMsg} :
    StoresNothing policy update ↔ LoopSeen policy update := by
  refine ⟨fun hstores => ?_, fun hseen rib peer accepted p =>
    stored_foldl_rejected (rejected_of_loopSeen hseen) peer p⟩
  by_contra hseen
  obtain ⟨hloop, hpasses⟩ := not_or.mp hseen
  push Not at hpasses
  obtain ⟨p, hp, himports⟩ := hpasses
  obtain ⟨a, ha, rfl, hhop⟩ := exists_of_announces hp
  have hok : policy.admits a.1 a.2 = .ok () := by
    refine ImportPolicy.admit_eq_ok_iff.mpr ⟨hhop, himports, ?_⟩
    rwa [(mem_extractAnnounced ha).1]
  obtain ⟨p, hp⟩ := exists_replaced [] (fun a ha => (mem_extractAnnounced ha).2.1) ⟨a, ha, hok⟩
  -- a table that holds one path for the prefix, with another origin
  obtain ⟨origin, horigin⟩ : ∃ o : UInt8, o ≠ (basePath update.attrs).origin := by
    by_cases hzero : (basePath update.attrs).origin = 0
    · exact ⟨1, by rw [hzero]; decide⟩
    · exact ⟨0, Ne.symm hzero⟩
  let path : BgpPath := { asPath := [], nextHop := none, origin, communities := [] }
  let rib := LocRib.set {} p (.reselect [([], path)])
  have hrib : rib.stored [] p = some path := by
    rw [LocRib.stored_set, if_pos rfl]
    rfl
  exact hp { rib, policy := { policy with accepted := 0 } } path rfl rfl hrib horigin
    ((hstores rib [] 0 p).trans hrib)

/-- Nothing of an UPDATE is stored exactly when our AS number is in the effective path, or nothing
is announced that the policy imports; then a call leaves each path of the peer or removes it. -/
theorem loop_stores_nothing_iff (policy : ImportPolicy) (update : UpdateMsg) :
    (StoresNothing policy update ↔ LoopSeen policy update) ∧
    (LoopSeen policy update → ∀ (rib : LocRib) (peer : Text) (accepted : UInt32) (p : Prefix),
      (rib.apply peer update { policy with accepted }).rib.stored peer p = none ∨
      (rib.apply peer update { policy with accepted }).rib.stored peer p = rib.stored peer p) := by
  refine ⟨storesNothing_iff, fun hseen rib peer accepted p => ?_⟩
  rw [← storesNothing_iff.mpr hseen rib peer accepted p]
  exact stored_foldl_withdraw_or _ _ _ _

/-- The AS4_PATH hides the AS_PATH that has our AS number. -/
def hiddenUpdate : UpdateMsg :=
  { dnUpdate [dnPrefix 1] with
    attrs := [.origin 0, .asPath [⟨false, [64513, 64512]⟩], .as4Path [⟨false, [64513]⟩],
      .nextHop 0x0a000002#32] }

theorem hiddenUpdate_stored : (dnPolicy 9).ownAs ∈ allAsns hiddenUpdate.attrs ∧
    ((LocRib.mk ∅).apply dnPeer hiddenUpdate (dnPolicy 9)).rib.stored dnPeer (dnPrefix 1) ≠
      none := by
  decide

end Rill.Bgp
