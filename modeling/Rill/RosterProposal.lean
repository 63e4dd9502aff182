import Rill.DefaultRoute
import Rill.RevocationFinal

/-!
# The roster that is proposed

`propose_relay_roster` chooses the relays of a network: the fastest of those that can be reached
directly, and the ones that the configuration includes. A node needs a measured round trip and a
count of missed rounds below a limit. The count has 32 bits: it is the number of rounds missed in a
row as long as that number fits.
-/

namespace Rill

/-- Missed rounds after which a relay leaves the roster. -/
def relayExitMissRounds : UInt32 := 3

/-- The text before the last separator and the text after it. -/
def Text.rsplitOnce (sep : UInt8) (text : Text) : Option (Text × Text) :=
  let after := text.reverse.takeWhile (· != sep)
  if after.length = text.length then none
  else some ((text.reverse.drop (after.length + 1)).reverse, after.reverse)

def hostPart (endpoint : Text) : Text := ((Text.rsplitOnce 58 endpoint).map Prod.fst).getD endpoint

/-- The coordinator sees the node at one of the addresses it has itself. -/
def Directory.publicDirect (d : Directory) (nodeId : UInt32) : Bool :=
  match d.endpoints[nodeId]? with
  | none => false
  | some e => e.seen.any fun s => (e.localAddrs.map hostPart).contains (hostPart s)

namespace NetworkDomain
variable (d : NetworkDomain)

def rttOf (node : UInt32) : UInt64 := (d.relayRtt[node]?).getD 0xFFFFFFFFFFFFFFFF

def measuredHealthy (node : UInt32) : Bool :=
  (d.relayRtt[node]?).isSome && (d.relayMiss[node]?).getD 0 < relayExitMissRounds

/-- Relays are taken in the order of their round trip, then of their id. -/
def relayKey (node : UInt32) : ℕ ×ₗ ℕ := toLex ((d.rttOf node).toNat, node.toNat)

theorem relayKey_injective : Function.Injective d.relayKey := fun _ _ h =>
  UInt32.toNat_inj.mp (Prod.mk.inj (toLex.injective h)).2

end NetworkDomain

namespace Coordinator
variable (c : Coordinator)

def eligible (d : NetworkDomain) (e : NodeEntry) : Bool :=
  e.capabilities &&& capabilityRelay != 0 && !d.relayCfg.excl.contains e.nodeId &&
    !c.liveness.isOffline e.nodeId

/-- The loop that adds the included nodes. -/
def addIncluded (d : NetworkDomain) (entries : List NodeEntry) (roster : List UInt32) :
    List UInt32 :=
  entries.foldl (fun roster e =>
    if d.relayCfg.incl.contains e.nodeId && !roster.contains e.nodeId &&
      d.measuredHealthy e.nodeId then roster ++ [e.nodeId] else roster) roster

def eligibleEntries (o : IterOrder) (d : NetworkDomain) : List NodeEntry :=
  ((o.registry d.networkId).values d.registry.entries).filter (c.eligible d)

/-- The nodes that are chosen by themselves, before they are sorted. -/
def autoNodes (o : IterOrder) (d : NetworkDomain) : List UInt32 :=
  ((c.eligibleEntries o d).filter fun e =>
    c.directory.publicDirect e.nodeId && d.measuredHealthy e.nodeId).map NodeEntry.nodeId

def proposeRelayRoster (o : IterOrder) (networkId : UInt32) : List UInt32 :=
  match c.domainByNetworkId networkId with
  | none => []
  | some d =>
    let auto := (StableSort.sortByKey d.relayKey (c.autoNodes o d)).take d.relayCfg.maxSize
    StableSort.sortByKey d.relayKey (addIncluded d (c.eligibleEntries o d) auto)

/-- A registered node that can relay, is not excluded and is online, has a measured round trip and
has missed fewer rounds than the limit. -/
def FitRelay (d : NetworkDomain) (n : UInt32) : Prop :=
  ((d.registry.entries[n]?).any fun e => e.capabilities &&& capabilityRelay != 0) = true ∧
    n ∉ d.relayCfg.excl ∧ n ∉ c.liveness.offline ∧ (d.relayRtt[n]?).isSome ∧
    ((d.relayMiss[n]?).getD 0).toNat < 3

instance (d : NetworkDomain) (n : UInt32) : Decidable (c.FitRelay d n) :=
  inferInstanceAs (Decidable (_ ∧ _))

/-- The number of fit and directly reachable nodes that come before a node. -/
def relayRank (d : NetworkDomain) (n : UInt32) : ℕ :=
  (d.registry.entries.keys.filter fun m =>
    (c.FitRelay d m ∧ c.directory.publicDirect m) ∧ d.relayKey m < d.relayKey n).length

variable {c} {d : NetworkDomain} {o : IterOrder}

/-! ## The proposal -/

theorem mem_addIncluded {entries : List NodeEntry} {roster : List UInt32} {n : UInt32} :
    n ∈ addIncluded d entries roster ↔ n ∈ roster ∨ ∃ e ∈ entries, e.nodeId = n ∧
      n ∈ d.relayCfg.incl ∧ d.measuredHealthy n = true := by
  induction entries generalizing roster with
  | nil => simp [addIncluded]
  | cons e entries ih =>
    have hstep : addIncluded d (e :: entries) roster = addIncluded d entries
        (if d.relayCfg.incl.contains e.nodeId && !roster.contains e.nodeId &&
          d.measuredHealthy e.nodeId then roster ++ [e.nodeId] else roster) := rfl
    rw [hstep, ih, List.exists_mem_cons_iff, ← or_assoc]
    refine or_congr_left ?_
    split_ifs with hadd
    · simp only [Bool.and_eq_true, List.contains_iff_mem] at hadd
      rw [List.mem_append, List.mem_singleton]
      refine or_congr_right ⟨?_, fun h => h.1.symm⟩
      rintro rfl
      exact ⟨rfl, hadd.1.1, hadd.2⟩
    · simp only [Bool.and_eq_true, Bool.not_eq_true', List.contains_eq_mem,
        decide_eq_false_iff_not, not_and] at hadd
      refine (or_iff_left_of_imp ?_).symm
      rintro ⟨rfl, hincl, hhealthy⟩
      by_contra hout
      exact hadd ⟨by simpa using hincl, hout⟩ hhealthy

theorem nodup_addIncluded {entries : List NodeEntry} {roster : List UInt32} (h : roster.Nodup) :
    (addIncluded d entries roster).Nodup := by
  induction entries generalizing roster with
  | nil => exact h
  | cons e entries ih =>
    refine ih ?_
    dsimp only
    split_ifs with hadd
    · simp only [Bool.and_eq_true, Bool.not_eq_true', List.contains_eq_mem,
        decide_eq_false_iff_not] at hadd
      exact List.nodup_append.mpr ⟨h, List.nodup_singleton _, fun a ha b hb heq =>
        hadd.1.2 (List.mem_singleton.mp hb ▸ heq ▸ ha)⟩
    · exact h

theorem mem_eligibleEntries {n : UInt32} :
    (∃ e ∈ c.eligibleEntries o d, e.nodeId = n ∧ d.measuredHealthy n = true) ↔
      c.FitRelay d n := by
  have hlimit : ∀ m : UInt32, m < relayExitMissRounds ↔ m.toNat < 3 := fun m =>
    UInt32.lt_iff_toNat_lt
  constructor
  · rintro ⟨e, he, rfl, hhealthy⟩
    obtain ⟨hmem, heligible⟩ := List.mem_filter.mp he
    obtain ⟨id, hid⟩ := HashOrder.mem_values.mp hmem
    obtain rfl := d.registry.keyed id e hid
    simp only [eligible, Bool.and_eq_true, bne_iff_ne, Bool.not_eq_true', List.contains_eq_mem,
      decide_eq_false_iff_not, Liveness.isOffline] at heligible
    simp only [NetworkDomain.measuredHealthy, Bool.and_eq_true, decide_eq_true_eq] at hhealthy
    refine ⟨?_, heligible.1.2, heligible.2, hhealthy.1, (hlimit _).mp hhealthy.2⟩
    rw [hid, Option.any_some, bne_iff_ne]
    exact heligible.1.1
  · rintro ⟨hcap, hexcl, honline, hrtt, hmiss⟩
    obtain ⟨e, he, hrelay⟩ := (Option.any_eq_true _ _).mp hcap
    obtain rfl := d.registry.keyed n e he
    refine ⟨e, List.mem_filter.mpr ⟨HashOrder.mem_values.mpr ⟨_, he⟩, ?_⟩, rfl, ?_⟩
    · simp only [eligible, Bool.and_eq_true, Bool.not_eq_true', List.contains_eq_mem,
        decide_eq_false_iff_not, Liveness.isOffline]
      exact ⟨⟨hrelay, hexcl⟩, honline⟩
    · simp only [NetworkDomain.measuredHealthy, Bool.and_eq_true, decide_eq_true_eq]
      exact ⟨hrtt, (hlimit _).mpr hmiss⟩

theorem mem_keys_of_fitRelay {n : UInt32} (h : c.FitRelay d n) : n ∈ d.registry.entries.keys := by
  obtain ⟨e, he, -⟩ := (Option.any_eq_true _ _).mp h.1
  exact (HashOrder.mem_keys (o := HashOrder.ascending)).mpr (by rw [he]; rfl)

theorem perm_autoNodes : (c.autoNodes o d).Perm
    (d.registry.entries.keys.filter fun n => c.FitRelay d n ∧ c.directory.publicDirect n) := by
  have hids := HashOrder.map_values (o := o.registry d.networkId) d.registry.keyed
  have hnodup : (c.autoNodes o d).Nodup := by
    refine List.Nodup.sublist ((List.filter_sublist.trans List.filter_sublist).map _) ?_
    rw [hids]
    exact (o.registry d.networkId).nodup_keys d.registry.entries
  refine (List.perm_ext_iff_of_nodup hnodup
    ((HashOrder.ascending.nodup_keys d.registry.entries).filter _)).mpr fun n => ?_
  have hmem : n ∈ c.autoNodes o d ↔ c.FitRelay d n ∧ c.directory.publicDirect n := by
    rw [autoNodes, List.mem_map, ← mem_eligibleEntries (o := o)]
    constructor
    · rintro ⟨e, he, rfl⟩
      obtain ⟨he, hpublic⟩ := List.mem_filter.mp he
      rw [Bool.and_eq_true] at hpublic
      exact ⟨⟨e, he, rfl, hpublic.2⟩, hpublic.1⟩
    · rintro ⟨⟨e, he, rfl, hhealthy⟩, hpublic⟩
      exact ⟨e, List.mem_filter.mpr ⟨he, by rw [hpublic, hhealthy]; rfl⟩, rfl⟩
  rw [hmem, List.mem_filter, decide_eq_true_iff]
  exact (and_iff_right_of_imp fun h => mem_keys_of_fitRelay h.1).symm

theorem mem_take_autoNodes (k : ℕ) {n : UInt32} :
    n ∈ (StableSort.sortByKey d.relayKey (c.autoNodes o d)).take k ↔
      (c.FitRelay d n ∧ c.directory.publicDirect n) ∧ c.relayRank d n < k := by
  have hperm := perm_autoNodes (c := c) (d := d) (o := o)
  have hnodup : ((d.registry.entries.keys.filter fun n =>
      c.FitRelay d n ∧ c.directory.publicDirect n).map d.relayKey).Nodup :=
    ((HashOrder.ascending.nodup_keys d.registry.entries).filter _).map d.relayKey_injective
  have hrank : (d.registry.entries.keys.filter fun m => decide (d.relayKey m < d.relayKey n) &&
      decide (c.FitRelay d m ∧ c.directory.publicDirect m)).length = c.relayRank d n := by
    refine congrArg List.length (List.filter_congr fun m _ => ?_)
    rw [Bool.and_comm, ← Bool.decide_and]
  rw [StableSort.mem_take_sortByKey ((hperm.map d.relayKey).nodup_iff.mpr hnodup), hperm.mem_iff,
    (hperm.filter _).length_eq, List.filter_filter, hrank, List.mem_filter, decide_eq_true_iff]
  exact and_congr_left fun _ => and_iff_right_of_imp fun h => mem_keys_of_fitRelay h.1

theorem proposal_spec {networkId : UInt32} (hd : c.domainByNetworkId networkId = some d)
    (o : IterOrder) :
    ((c.proposeRelayRoster o networkId).Pairwise fun m n => d.relayKey m < d.relayKey n) ∧
      ∀ n, n ∈ c.proposeRelayRoster o networkId ↔
        (c.FitRelay d n ∧ c.directory.publicDirect n) ∧ c.relayRank d n < d.relayCfg.maxSize ∨
          n ∈ d.relayCfg.incl ∧ c.FitRelay d n := by
  have hnodup : (c.autoNodes o d).Nodup := perm_autoNodes.nodup_iff.mpr
    ((HashOrder.ascending.nodup_keys d.registry.entries).filter _)
  have hauto : ((StableSort.sortByKey d.relayKey (c.autoNodes o d)).take
      d.relayCfg.maxSize).Nodup :=
    ((StableSort.perm_sortByKey _).nodup_iff.mpr hnodup).sublist (List.take_sublist _ _)
  rw [proposeRelayRoster, hd]
  dsimp only
  refine ⟨StableSort.pairwise_lt_sortByKey ((nodup_addIncluded hauto).map d.relayKey_injective),
    fun n => ?_⟩
  rw [(StableSort.perm_sortByKey _).mem_iff, mem_addIncluded, mem_take_autoNodes,
    ← mem_eligibleEntries (o := o)]
  refine or_congr_right ⟨?_, ?_⟩
  · rintro ⟨e, he, hid, hincl, hhealthy⟩
    exact ⟨hincl, e, he, hid, hhealthy⟩
  · rintro ⟨hincl, e, he, hid, hhealthy⟩
    exact ⟨e, he, hid, hincl, hhealthy⟩

end Coordinator

/-! ## Missed rounds -/

/-- What a round says about a node: nothing, a round trip, or that it did not answer. -/
def probed (n : UInt32) (round : List (UInt32 × Option UInt64)) : Option (Option UInt64) :=
  (round.find? fun r => r.1 == n).map Prod.snd

/-- The rounds that the node has missed in a row, of those in which it was probed. -/
def missedRounds (n : UInt32) (rounds : List (List (UInt32 × Option UInt64))) : ℕ :=
  ((rounds.reverse.filterMap (probed n)).takeWhile Option.isNone).length

theorem missedRounds_concat (n : UInt32) (rounds : List (List (UInt32 × Option UInt64)))
    (round : List (UInt32 × Option UInt64)) : missedRounds n (rounds ++ [round]) =
      match probed n round with
      | none => missedRounds n rounds
      | some (some _) => 0
      | some none => missedRounds n rounds + 1 := by
  rw [missedRounds, List.reverse_append, List.reverse_singleton, List.singleton_append,
    List.filterMap_cons]
  cases probed n round with
  | none => rfl
  | some result =>
    cases result with
    | none => rfl
    | some ms => rfl

namespace NetworkDomain
variable (d : NetworkDomain)

def missCount (n : UInt32) : UInt32 := (d.relayMiss[n]?).getD 0

def recordRound (round : List (UInt32 × Option UInt64)) : NetworkDomain :=
  round.foldl (fun d r => d.recordRtt r.1 r.2) d

theorem missCount_recordRtt (node n : UInt32) (rtt : Option UInt64) :
    (d.recordRtt node rtt).missCount n =
      if node = n then (if rtt.isSome then 0 else d.missCount n + 1) else d.missCount n := by
  by_cases hnode : node = n
  · subst hnode
    cases rtt with
    | some ms => simp [recordRtt, missCount]
    | none => simp [recordRtt, missCount]
  · rw [if_neg hnode]
    cases rtt with
    | some ms => simp [recordRtt, missCount, Table.getElem?_insert_of_ne hnode]
    | none => simp [recordRtt, missCount, Table.getElem?_insert_of_ne hnode]

theorem missCount_recordRound_of_notMem {n : UInt32} {round : List (UInt32 × Option UInt64)}
    (h : n ∉ round.map Prod.fst) : (d.recordRound round).missCount n = d.missCount n := by
  induction round generalizing d with
  | nil => rfl
  | cons r round ih =>
    rw [List.map_cons, List.mem_cons, not_or] at h
    refine (ih (d.recordRtt r.1 r.2) h.2).trans ?_
    rw [missCount_recordRtt, if_neg (Ne.symm h.1)]

/-- A round that lists the node at most once counts one miss, or none. -/
theorem missCount_recordRound {n : UInt32} {round : List (UInt32 × Option UInt64)}
    (h : (round.map Prod.fst).count n ≤ 1) : (d.recordRound round).missCount n =
      match probed n round with
      | none => d.missCount n
      | some (some _) => 0
      | some none => d.missCount n + 1 := by
  induction round generalizing d with
  | nil => rfl
  | cons r round ih =>
    have hcons : d.recordRound (r :: round) = (d.recordRtt r.1 r.2).recordRound round := rfl
    by_cases hr : r.1 = n
    · have hprobed : probed n (r :: round) = some r.2 := by simp [probed, hr]
      have hrest : n ∉ round.map Prod.fst := by
        rw [List.map_cons, hr, List.count_cons_self] at h
        exact List.count_eq_zero.mp (by omega)
      rw [hcons, missCount_recordRound_of_notMem _ hrest, missCount_recordRtt, if_pos hr, hprobed]
      cases r.2 with
      | none => rfl
      | some ms => rfl
    · have hprobed : probed n (r :: round) = probed n round := by simp [probed, hr]
      rw [List.map_cons, List.count_cons_of_ne hr] at h
      rw [hcons, hprobed, ih _ h, missCount_recordRtt, if_neg hr]

/-- The count is the number of rounds missed in a row, modulo 2 ^ 32. -/
theorem missCount_recordRounds {n : UInt32} (hnew : d.missCount n = 0)
    {rounds : List (List (UInt32 × Option UInt64))}
    (h : ∀ round ∈ rounds, (round.map Prod.fst).count n ≤ 1) :
    (rounds.foldl recordRound d).missCount n = UInt32.ofNat (missedRounds n rounds) := by
  induction rounds using List.reverseRecOn with
  | nil => exact hnew
  | append_singleton rounds round ih =>
    have hbefore := ih fun r hr => h r (List.mem_append_left _ hr)
    rw [List.foldl_append, List.foldl_cons, List.foldl_nil, missedRounds_concat,
      missCount_recordRound _ (h round (List.mem_append_right _ List.mem_cons_self)), hbefore]
    cases probed n round with
    | none => rfl
    | some result =>
      cases result with
      | some ms => rfl
      | none => exact (UInt32.ofNat_add _ 1).symm

end NetworkDomain

namespace Coordinator
variable {c : Coordinator} {d : NetworkDomain} {networkId : UInt32}

theorem networkId_recordRound (d : NetworkDomain) (round : List (UInt32 × Option UInt64)) :
    (d.recordRound round).networkId = d.networkId := by
  induction round generalizing d with
  | nil => rfl
  | cons r round ih =>
    refine (ih (d.recordRtt r.1 r.2)).trans ?_
    cases r.2 with
    | none => rfl
    | some ms => rfl

theorem domainByNetworkId_recordRounds (hd : c.domainByNetworkId networkId = some d)
    (rounds : List (List (UInt32 × Option UInt64))) :
    (rounds.foldl (fun c round => c.recordRelayRttRound networkId round) c).domainByNetworkId
      networkId = some (rounds.foldl NetworkDomain.recordRound d) := by
  induction rounds generalizing c d with
  | nil => exact hd
  | cons round rounds ih =>
    refine ih ?_
    have hkeep : ∀ d : NetworkDomain, (d.networkId == networkId) = true →
        ((d.recordRound round).networkId == networkId) = true := by
      intro d hid
      rwa [networkId_recordRound]
    refine (find?_updateFirst hkeep c.domains).trans ?_
    have hfound : c.domains.find? (fun d => d.networkId == networkId) = some d := hd
    rw [hfound]
    rfl

end Coordinator

/-- The proposal of a coordinator, whatever the orders of its maps: sorted by round trip and id, the
first nodes of those that are fit and directly reachable, and the fit ones that are included. After
any rounds of probes the miss count of a node is the number of rounds it has missed in a row, as
long as that is below 2 ^ 32. -/
theorem roster_proposal_exact {c : Coordinator} {networkId : UInt32} {d : NetworkDomain}
    (hd : c.domainByNetworkId networkId = some d) (o : IterOrder) :
    (((c.proposeRelayRoster o networkId).Pairwise fun m n => d.relayKey m < d.relayKey n) ∧
      ∀ n, n ∈ c.proposeRelayRoster o networkId ↔
        (c.FitRelay d n ∧ c.directory.publicDirect n) ∧ c.relayRank d n < d.relayCfg.maxSize ∨
          n ∈ d.relayCfg.incl ∧ c.FitRelay d n) ∧
    ∀ (n : UInt32) (rounds : List (List (UInt32 × Option UInt64))), d.relayMiss[n]? = none →
      (∀ round ∈ rounds, (round.map Prod.fst).count n ≤ 1) →
      ((∀ d', (rounds.foldl (fun c round => c.recordRelayRttRound networkId round)
            c).domainByNetworkId networkId = some d' →
          ((d'.relayMiss[n]?).getD 0).toNat = missedRounds n rounds) ↔
        missedRounds n rounds < 2 ^ 32) := by
  refine ⟨Coordinator.proposal_spec hd o, fun n rounds hnew honce => ?_⟩
  have hcount := d.missCount_recordRounds (by rw [NetworkDomain.missCount, hnew]; rfl) honce
  rw [Coordinator.domainByNetworkId_recordRounds hd]
  have htoNat : (((rounds.foldl NetworkDomain.recordRound d).relayMiss[n]?).getD 0).toNat =
      missedRounds n rounds % 2 ^ 32 := (congrArg UInt32.toNat hcount).trans UInt32.toNat_ofNat'
  constructor
  · intro h
    rw [← h _ rfl, htoNat]
    exact Nat.mod_lt _ (by decide)
  · rintro hlt d' hd'
    cases hd'
    rw [htoNat, Nat.mod_eq_of_lt hlt]

section Lab

/-- Node 3 is a relay that is seen at its own address, and it has answered a probe. -/
def labProbed : List (IterOrder × CoordOp) :=
  labRegistrations ++
    [labCommand 4 (.setEndpoints 3 [ascii "203.0.113.1:41641"] [ascii "203.0.113.1:9"]),
     (labOrder, .unlogged (.recordRelayRttRound (networkIdFor (ascii "lab")) [(3, some 5)]))]

theorem lab_roster_proposal :
    ∃ c d, Transition.run (Coordinator.perform clearCrates)
        (freshCoordinator labConfig.machineConfig) labProbed = some c ∧
      c.domainByNetworkId (networkIdFor (ascii "lab")) = some d ∧
      3 ∈ c.proposeRelayRoster labOrder (networkIdFor (ascii "lab")) ∧
      ∀ d', ([[(2, none)], [(2, none)]].foldl (fun c round =>
          c.recordRelayRttRound (networkIdFor (ascii "lab")) round) c).domainByNetworkId
            (networkIdFor (ascii "lab")) = some d' →
        ((d'.relayMiss[(2 : UInt32)]?).getD 0).toNat = 2 := by
  have hcheck : (Transition.run (Coordinator.perform clearCrates)
      (freshCoordinator labConfig.machineConfig) labProbed).any (fun c =>
        (c.domainByNetworkId (networkIdFor (ascii "lab"))).any fun d =>
          (c.FitRelay d 3 ∧ c.directory.publicDirect 3) ∧
            c.relayRank d 3 < d.relayCfg.maxSize ∧ d.relayMiss[(2 : UInt32)]? = none) = true := by
    decide +kernel
  obtain ⟨c, hc, hcheck⟩ := (Option.any_eq_true _ _).mp hcheck
  obtain ⟨d, hd, hcheck⟩ := (Option.any_eq_true _ _).mp hcheck
  obtain ⟨hfit, hrank, hnew⟩ := of_decide_eq_true hcheck
  obtain ⟨hproposal, hmisses⟩ := roster_proposal_exact hd labOrder
  refine ⟨c, d, hc, hd, (hproposal.2 3).mpr (.inl ⟨hfit, hrank⟩), ?_⟩
  exact (hmisses 2 [[(2, none)], [(2, none)]] hnew (by decide)).mpr (by decide)

theorem missedRounds_replicate (n : UInt32) (k : ℕ) :
    missedRounds n (List.replicate k [(n, none)]) = k := by
  have hprobed : probed n [(n, none)] = some none := by simp [probed]
  rw [missedRounds, List.reverse_replicate, List.filterMap_replicate_of_some hprobed,
    List.takeWhile_replicate]
  simp

/-- After 2 ^ 32 missed rounds the count says that no round was missed. -/
theorem lab_misses_wrap :
    ∃ d, ((List.replicate (2 ^ 32) [((3 : UInt32), (none : Option UInt64))]).foldl (fun c round =>
        c.recordRelayRttRound (networkIdFor (ascii "lab")) round)
          (freshCoordinator labConfig.machineConfig)).domainByNetworkId
            (networkIdFor (ascii "lab")) = some d ∧
      missedRounds 3 (List.replicate (2 ^ 32) [(3, none)]) = 2 ^ 32 ∧
      (d.relayMiss[(3 : UInt32)]?).getD 0 = 0 := by
  have hcheck : ((freshCoordinator labConfig.machineConfig).domainByNetworkId
      (networkIdFor (ascii "lab"))).any (fun d => d.missCount 3 = 0) = true := by
    decide
  obtain ⟨d, hd, hnew⟩ := (Option.any_eq_true _ _).mp hcheck
  refine ⟨_, Coordinator.domainByNetworkId_recordRounds hd _, missedRounds_replicate 3 _, ?_⟩
  refine (d.missCount_recordRounds (of_decide_eq_true hnew) fun round hround => ?_).trans ?_
  · rw [List.eq_of_mem_replicate hround]
    decide
  · rw [missedRounds_replicate]
    decide

end Lab

end Rill
