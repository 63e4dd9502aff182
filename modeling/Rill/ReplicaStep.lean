import Rill.Machine
import Rill.PathExpansion

/-!
# One command on two replicas

Two coordinators with the same saved part answer a command alike and end with the same saved part,
whatever they keep for themselves and in whatever order their hash maps are read. The one command
that needs a condition is the change of a relay roster: at most one path set of the network may
need new path ids.
-/

namespace Rill

/-! ## One network on two replicas -/

namespace NetworkDomain
variable {d d' : NetworkDomain}

/-- The path sets for which a change of the roster draws path ids. -/
def rosterDrawing (d : NetworkDomain) (roster : List UInt32) (now : UInt64) :
    List (UInt32 × UInt32) :=
  ((d.paths.setRelays roster).narrowed (d.dropped roster)).drawing now

theorem applyRelayRoster_congr (h : d.erase = d'.erase) (o o' : HashOrder (UInt32 × UInt32))
    {roster : List UInt32} {now : UInt64} (hdraw : (d.rosterDrawing roster now).length ≤ 1) :
    (d.applyRelayRoster o roster now).2.erase = (d'.applyRelayRoster o' roster now).2.erase := by
  obtain ⟨hid, hname, hreg, hkeys, hpaths, hroster, hcfg, hexit, hacl⟩ := erase_eq_iff.mp h
  have hdropped : d.dropped roster = d'.dropped roster := by rw [dropped, dropped, hroster]
  have hplace := PathService.setRelays_congr hpaths roster
  have hnarrow := (PathService.erase_foldl_withdrawRelay _ o (d.dropped roster)).trans
    (PathService.narrowed_congr hplace _)
  have hnarrow' := PathService.erase_foldl_withdrawRelay (d'.paths.setRelays roster) o'
    (d.dropped roster)
  have hlen := hdraw
  rw [rosterDrawing, ← PathService.drawing_congr (PathService.erase_foldl_withdrawRelay _ o _)] at hlen
  have hlen' := hlen
  rw [PathService.drawing_congr (hnarrow.trans hnarrow'.symm)] at hlen'
  refine erase_eq_iff.mpr ⟨hid, hname, hreg, hkeys, ?_, rfl, hcfg, hexit, hacl⟩
  simp only [applyRelayRoster, applyRoster, ← hdropped]
  rw [PathService.erase_expandRelayCandidates hlen o, PathService.erase_expandRelayCandidates hlen' o']
  exact PathService.expandedAlone_congr (hnarrow.trans hnarrow'.symm) now

/-- Orders that all leave the same paths behind leave no choice of ids. -/
theorem rosterDrawing_length_le_one {roster : List UInt32} {now : UInt64}
    (h : ∀ o o', (d.applyRelayRoster o roster now).2.paths.map =
      (d.applyRelayRoster o' roster now).2.paths.map) :
    (d.rosterDrawing roster now).length ≤ 1 := by
  refine PathService.drawing_length_le_one fun o o' => ?_
  have hpaths : ∀ o, (d.applyRelayRoster o roster now).2.paths.map =
      (((d.paths.setRelays roster).narrowed (d.dropped roster)).expandRelayCandidates o now).map :=
    fun o => (PathService.erase_eq_iff.mp (PathService.expandRelayCandidates_congr
      (PathService.erase_foldl_withdrawRelay _ o _) o now)).1
  rw [← hpaths, ← hpaths]
  exact h o o'

theorem revoke_congr (h : d.erase = d'.erase) (o o' : HashOrder (UInt32 × UInt32))
    (nodeId : UInt32) (now : UInt64) :
    (d.revoke o nodeId now).erase = (d'.revoke o' nodeId now).erase := by
  obtain ⟨hid, hname, hreg, hkeys, hpaths, hroster, hcfg, hexit, hacl⟩ := erase_eq_iff.mp h
  have hwithdrawn : (d.paths.withdrawNode o nodeId).erase =
      (d'.paths.withdrawNode o' nodeId).erase := by
    obtain ⟨hmap, hseq, hrelays⟩ := PathService.erase_eq_iff.mp hpaths
    rw [PathService.erase_withdrawNode, PathService.erase_withdrawNode]
    exact PathService.erase_eq_iff.mpr ⟨by rw [hmap], hseq, hrelays⟩
  refine erase_eq_iff.mpr ⟨hid, hname, ?_, ?_, ?_, ?_, hcfg, hexit, hacl⟩
  · simp only [revoke, hreg]
  · simp only [revoke, hkeys]
  · simp only [revoke, hroster]
    split_ifs
    · exact PathService.setRelays_congr hwithdrawn _
    · exact hwithdrawn
  · simp only [revoke, hroster]

end NetworkDomain

section Domains
variable {l l' : List NetworkDomain} {p : NetworkDomain → Bool}

theorem find?_cases (h : l.map NetworkDomain.erase = l'.map NetworkDomain.erase)
    (hp : ∀ d, p d.erase = p d) :
    (l.find? p = none ∧ l'.find? p = none) ∨
      ∃ d d', l.find? p = some d ∧ l'.find? p = some d' ∧ d.erase = d'.erase := by
  have hcomp : p ∘ NetworkDomain.erase = p := funext hp
  have hfind := congrArg (List.find? p) h
  rw [List.find?_map, List.find?_map, hcomp] at hfind
  cases hd : l.find? p with
  | none =>
    rw [hd, Option.map_none] at hfind
    exact .inl ⟨rfl, Option.map_eq_none_iff.mp hfind.symm⟩
  | some d =>
    rw [hd, Option.map_some] at hfind
    obtain ⟨d', hd', herase⟩ := Option.map_eq_some_iff.mp hfind.symm
    exact .inr ⟨d, d', rfl, hd', herase.symm⟩

theorem any_congr (h : l.map NetworkDomain.erase = l'.map NetworkDomain.erase)
    (hp : ∀ d, p d.erase = p d) : l.any p = l'.any p := by
  have hcomp : p ∘ NetworkDomain.erase = p := funext hp
  have hany := congrArg (fun l => List.any l p) h
  simpa only [List.any_map, hcomp] using hany

theorem updateFirst_congr (h : l.map NetworkDomain.erase = l'.map NetworkDomain.erase)
    (hp : ∀ d, p d.erase = p d) {f f' : NetworkDomain → NetworkDomain}
    (hf : ∀ d d', l.find? p = some d → l'.find? p = some d' → d.erase = d'.erase →
      (f d).erase = (f' d').erase) :
    (updateFirst p f l).map NetworkDomain.erase = (updateFirst p f' l').map NetworkDomain.erase := by
  induction l generalizing l' with
  | nil =>
    obtain rfl : l' = [] := List.map_eq_nil_iff.mp h.symm
    rfl
  | cons d l ih =>
    cases l' with
    | nil => exact absurd h (List.cons_ne_nil _ _)
    | cons d' l' =>
      obtain ⟨hd, hl⟩ := List.cons.inj h
      have hpd : p d' = p d := by rw [← hp d', ← hd, hp]
      cases hval : p d with
      | true =>
        rw [hval] at hpd
        simp only [updateFirst, hval, hpd, if_true, List.map_cons, hl]
        rw [hf d d' (List.find?_cons_of_pos hval) (List.find?_cons_of_pos hpd) hd]
      | false =>
        rw [hval] at hpd
        simp only [updateFirst, hval, hpd, Bool.false_eq_true, if_false, List.map_cons, hd]
        refine congrArg (d'.erase :: ·) (ih hl fun e e' he he' => hf e e' ?_ ?_)
        · rwa [List.find?_cons_of_neg (by simp [hval])]
        · rwa [List.find?_cons_of_neg (by simp [hpd])]

theorem find?_updateFirst {α : Type} {p : α → Bool} {f : α → α} (hf : ∀ a, p a → p (f a))
    (l : List α) : (updateFirst p f l).find? p = (l.find? p).map f := by
  induction l with
  | nil => rfl
  | cons a l ih =>
    cases ha : p a with
    | true =>
      rw [updateFirst, if_pos ha, List.find?_cons_of_pos (hf a ha), List.find?_cons_of_pos ha]
      rfl
    | false =>
      have hna : ¬ p a = true := by simp [ha]
      rw [updateFirst, if_neg hna, List.find?_cons_of_neg hna, List.find?_cons_of_neg hna, ih]

end Domains

namespace Coordinator
variable {c c' : Coordinator}

theorem domainByName_cases (h : c.erase = c'.erase) (name : Text) :
    (c.domainByName name = none ∧ c'.domainByName name = none) ∨
      ∃ d d', c.domainByName name = some d ∧ c'.domainByName name = some d' ∧ d.erase = d'.erase :=
  find?_cases (erase_eq_iff.mp h).1 fun _ => rfl

theorem domainByNetworkId_cases (h : c.erase = c'.erase) (networkId : UInt32) :
    (c.domainByNetworkId networkId = none ∧ c'.domainByNetworkId networkId = none) ∨
      ∃ d d', c.domainByNetworkId networkId = some d ∧ c'.domainByNetworkId networkId = some d' ∧
        d.erase = d'.erase :=
  find?_cases (erase_eq_iff.mp h).1 fun _ => rfl

theorem networkOfNode_congr (h : c.erase = c'.erase) (nodeId : UInt32) :
    c.networkOfNode nodeId = c'.networkOfNode nodeId := by
  have hfind := congrArg (List.findSome? fun d => d.registry.entries[nodeId]?) (erase_eq_iff.mp h).1
  rw [List.findSome?_map, List.findSome?_map] at hfind
  exact congrArg (Option.map NodeEntry.networkId) hfind

theorem domainOfNode_cases (h : c.erase = c'.erase) (nodeId : UInt32) :
    (c.domainOfNode nodeId = none ∧ c'.domainOfNode nodeId = none) ∨
      ∃ d d', c.domainOfNode nodeId = some d ∧ c'.domainOfNode nodeId = some d' ∧
        d.erase = d'.erase := by
  rw [domainOfNode, domainOfNode, networkOfNode_congr h]
  cases c'.networkOfNode nodeId with
  | none => exact .inl ⟨rfl, rfl⟩
  | some networkId => exact domainByNetworkId_cases h networkId

theorem nodeEntry_congr (h : c.erase = c'.erase) (nodeId : UInt32) :
    c.nodeEntry nodeId = c'.nodeEntry nodeId := by
  rw [nodeEntry, nodeEntry]
  rcases domainOfNode_cases h nodeId with ⟨hn, hn'⟩ | ⟨d, d', hd, hd', he⟩
  · rw [hn, hn']
  · rw [hd, hd', Option.bind_some, Option.bind_some, (NetworkDomain.erase_eq_iff.mp he).2.2.1]

/-- A change of one network that respects the saved part, and nothing else of the coordinator. -/
theorem updateNamed_congr (h : c.erase = c'.erase) (name : Text)
    {f f' : NetworkDomain → NetworkDomain}
    (hf : ∀ d d', d.erase = d'.erase → (f d).erase = (f' d').erase) :
    (c.updateNamed name f).erase = (c'.updateNamed name f').erase := by
  obtain ⟨hdomains, hrest⟩ := erase_eq_iff.mp h
  exact erase_eq_iff.mpr ⟨updateFirst_congr hdomains (fun _ => rfl) fun d d' _ _ => hf d d', hrest⟩

theorem updateNetwork_congr (h : c.erase = c'.erase) (networkId : UInt32)
    {f f' : NetworkDomain → NetworkDomain}
    (hf : ∀ d d', c.domainByNetworkId networkId = some d → d.erase = d'.erase →
      (f d).erase = (f' d').erase) :
    (c.updateNetwork networkId f).erase = (c'.updateNetwork networkId f').erase := by
  obtain ⟨hdomains, hrest⟩ := erase_eq_iff.mp h
  exact erase_eq_iff.mpr ⟨updateFirst_congr hdomains (fun _ => rfl) fun d d' hd _ => hf d d' hd, hrest⟩

theorem bumpNetmap_congr (h : c.erase = c'.erase) : c.bumpNetmap.erase = c'.bumpNetmap.erase := by
  obtain ⟨hdomains, hseed, ⟨hversion, hendpoints⟩, hrest⟩ := erase_eq_iff.mp h
  refine erase_eq_iff.mpr ⟨hdomains, hseed, ⟨?_, hendpoints⟩, hrest⟩
  simp only [bumpNetmap, Directory.bumpNetmap, hversion]

/-- An answer with the saved part of the coordinator behind it. -/
def saved {α : Type} (r : α × Coordinator) : α × Coordinator := (r.1, r.2.erase)

theorem saved_eq {α : Type} {a a' : α} (ha : a = a') (h : c.erase = c'.erase) :
    saved (a, c) = saved (a', c') := by
  rw [saved, saved, ha, h]

theorem registered_congr (h : c.erase = c'.erase) (nodeId : UInt32) :
    (c.registered nodeId).map saved = (c'.registered nodeId).map saved := by
  rw [registered, registered, nodeEntry_congr h]
  cases c'.nodeEntry nodeId with
  | none => rfl
  | some e => exact congrArg some (saved_eq rfl h)

theorem settleOutcome_congr (h : c.erase = c'.erase) (network : Text)
    (outcome : Except RegisterError RegisterOutcome) (registry : Registry) :
    (c.settleOutcome network outcome registry).map saved =
      (c'.settleOutcome network outcome registry).map saved := by
  have hplaced : (c.updateNamed network fun d => { d with registry }).erase =
      (c'.updateNamed network fun d => { d with registry }).erase := by
    refine updateNamed_congr h network fun d d' he => ?_
    obtain ⟨hid, hname, -, hrest⟩ := NetworkDomain.erase_eq_iff.mp he
    exact NetworkDomain.erase_eq_iff.mpr ⟨hid, hname, rfl, hrest⟩
  match outcome with
  | .error e => exact congrArg some (saved_eq rfl hplaced)
  | .ok (.existing id) => exact registered_congr hplaced id
  | .ok (.newNode id) =>
    refine registered_congr (bumpNetmap_congr ?_) id
    obtain ⟨hdomains, hseed, hdir, hnext, hrevoked⟩ := erase_eq_iff.mp hplaced
    exact erase_eq_iff.mpr ⟨hdomains, hseed, hdir, by rw [hnext], hrevoked⟩

theorem registerInner_congr (h : c.erase = c'.erase) (L : Crates) (authKey : Text)
    (staticPubkey : Key32) (capabilities : UInt32) (routes : List Text) (now : UInt64)
    (issuance : UInt64 × UInt64) :
    (c.registerInner L authKey staticPubkey capabilities routes now issuance).map saved =
      (c'.registerInner L authKey staticPubkey capabilities routes now issuance).map saved := by
  have hreject : ∀ e : RegisterError,
      (some (Except.error (α := RegisterData) e, c)).map saved = (some (.error e, c')).map saved :=
    fun e => congrArg some (saved_eq rfl h)
  obtain ⟨-, hseed, -, hnext, -⟩ := erase_eq_iff.mp h
  rw [registerInner, registerInner]
  cases AuthKey.parse authKey with
  | error e => exact hreject _
  | ok key =>
    obtain ⟨network, expiry, secret⟩ := key
    dsimp only
    split_ifs with hexpired
    · exact hreject _
    · rcases domainByName_cases h network with ⟨hn, hn'⟩ | ⟨d, d', hd, hd', he⟩
      · rw [hn, hn']
        exact hreject _
      · obtain ⟨-, -, hreg, -, -, -, -, -, hacl⟩ := NetworkDomain.erase_eq_iff.mp he
        rw [hd, hd']
        dsimp only
        rw [hacl, hreg, hseed, hnext]
        split_ifs with hcap
        · exact hreject _
        · cases d'.registry.register L.parseIp (L.sign c'.signingSeed) authKey staticPubkey
              capabilities routes c'.nextNodeId issuance with
          | none => rfl
          | some out => exact settleOutcome_congr h network out.1 out.2

theorem register_congr (h : c.erase = c'.erase) (L : Crates) (authKey : Text)
    (staticPubkey : Key32) (capabilities : UInt32) (routes : List Text) (now : UInt64)
    (issuance : UInt64 × UInt64) :
    (c.register L authKey staticPubkey capabilities routes now issuance).map saved =
      (c'.register L authKey staticPubkey capabilities routes now issuance).map saved := by
  -- the count of rejections is not saved, so saving before or after counting is the same
  have hcount : ∀ c : Coordinator,
      (c.register L authKey staticPubkey capabilities routes now issuance).map saved =
        (c.registerInner L authKey staticPubkey capabilities routes now issuance).map saved := by
    intro c
    rw [register, Option.map_map]
    refine congrArg (Option.map · _) (funext fun ⟨r, next⟩ => ?_)
    cases r with
    | error e => rfl
    | ok data => rfl
  rw [hcount, hcount]
  exact registerInner_congr h L authKey staticPubkey capabilities routes now issuance

theorem requestPaths_congr (h : c.erase = c'.erase) (L : Crates) (source dest max : UInt32)
    (now : UInt64) :
    saved (c.requestPaths L source dest max now) = saved (c'.requestPaths L source dest max now) := by
  rw [requestPaths, requestPaths]
  rcases domainOfNode_cases h source with ⟨hs, hs'⟩ | ⟨sd, sd', hs, hs', hes⟩
  · rw [hs, hs']
    exact saved_eq rfl h
  rcases domainOfNode_cases h dest with ⟨hd, hd'⟩ | ⟨dd, dd', hd, hd', hed⟩
  · rw [hs, hs', hd, hd']
    exact saved_eq rfl h
  rw [hs, hs', hd, hd']
  obtain ⟨hid, -, -, hkeys, hpaths, -⟩ := NetworkDomain.erase_eq_iff.mp hes
  dsimp only
  rw [hid, (NetworkDomain.erase_eq_iff.mp hed).1, hkeys,
    (PathService.request_congr hpaths source dest max now).1]
  split_ifs with hnetworks
  · exact saved_eq rfl h
  · refine saved_eq rfl (updateNetwork_congr h _ fun d d' _ he => ?_)
    obtain ⟨hid, hname, hreg, hkeys, hpaths, hrest⟩ := NetworkDomain.erase_eq_iff.mp he
    exact NetworkDomain.erase_eq_iff.mpr ⟨hid, hname, hreg, hkeys,
      (PathService.request_congr hpaths source dest max now).2, hrest⟩

theorem flushRevokeRotations_congr (h : c.erase = c'.erase) (now : UInt64) :
    saved (c.flushRevokeRotations now) = saved (c'.flushRevokeRotations now) := by
  obtain ⟨hdomains, hrest⟩ := erase_eq_iff.mp h
  refine saved_eq (any_congr hdomains fun _ => rfl) (erase_eq_iff.mpr ⟨?_, hrest⟩)
  have hflush : ∀ ds : List NetworkDomain,
      (ds.map fun d => d.flushRevokeRotation now).map NetworkDomain.erase =
        (ds.map NetworkDomain.erase).map fun d => d.flushRevokeRotation now := by
    intro ds
    rw [List.map_map, List.map_map]
    rfl
  simp only [hflush, hdomains]

theorem revoke_congr (h : c.erase = c'.erase) (o o' : IterOrder) (nodeId : UInt32) (now : UInt64)
    (logId : UInt64 × UInt64) :
    (c.revoke o nodeId now logId).erase = (c'.revoke o' nodeId now logId).erase := by
  have hflush : (c.flushRevokeRotations now).2.erase = (c'.flushRevokeRotations now).2.erase :=
    (Prod.mk.inj (flushRevokeRotations_congr h now)).2
  obtain ⟨hdomains, hseed, ⟨hversion, hendpoints⟩, hnext, hrevoked⟩ := erase_eq_iff.mp hflush
  rw [revoke, revoke, any_congr hdomains fun _ => rfl]
  split_ifs with hknown
  · refine erase_eq_iff.mpr ⟨updateFirst_congr hdomains (fun _ => rfl) fun d d' _ _ he => ?_, hseed,
      ⟨?_, ?_⟩, hnext, ?_⟩
    · exact NetworkDomain.revoke_congr he _ _ nodeId now
    · simp only [Directory.bumpNetmap, Directory.removeNode, hversion]
    · simp only [Directory.bumpNetmap, Directory.removeNode, hendpoints]
    · rw [hrevoked]
  · exact hflush

theorem rotateMasterKey_congr (h : c.erase = c'.erase) (network : Text) (newMasterKey : Key32) :
    (c.rotateMasterKey network newMasterKey).erase =
      (c'.rotateMasterKey network newMasterKey).erase := by
  refine updateNamed_congr h network fun d d' he => ?_
  obtain ⟨hid, hname, hreg, hkeys, hrest⟩ := NetworkDomain.erase_eq_iff.mp he
  exact NetworkDomain.erase_eq_iff.mpr ⟨hid, hname, hreg, by rw [hkeys], hrest⟩

theorem setEndpoints_congr (h : c.erase = c'.erase) (nodeId : UInt32) (localAddrs seen : List Text) :
    (c.setEndpoints nodeId localAddrs seen).erase =
      (c'.setEndpoints nodeId localAddrs seen).erase := by
  obtain ⟨hdomains, hseed, ⟨hversion, hendpoints⟩, hrest⟩ := erase_eq_iff.mp h
  refine erase_eq_iff.mpr ⟨hdomains, hseed, ⟨?_, ?_⟩, hrest⟩
  · simp only [setEndpoints, Directory.setEndpoints, Directory.bumpNetmap, hversion]
  · simp only [setEndpoints, Directory.setEndpoints, Directory.bumpNetmap, hendpoints]

/-- The path sets for which a command draws path ids in the order of a hash map. -/
def rosterDraws (c : Coordinator) : CoordCommand → List (UInt32 × UInt32)
  | .setRelayRoster networkId roster now =>
    (c.domainByNetworkId networkId).elim [] fun d => d.rosterDrawing roster now
  | _ => []

theorem applyRelayRoster_congr (h : c.erase = c'.erase) (o o' : IterOrder) {networkId : UInt32}
    {roster : List UInt32} {now : UInt64}
    (hdraw : (c.rosterDraws (.setRelayRoster networkId roster now)).length ≤ 1) :
    saved (c.applyRelayRoster o networkId roster now) =
      saved (c'.applyRelayRoster o' networkId roster now) := by
  rw [applyRelayRoster, applyRelayRoster]
  rcases domainByNetworkId_cases h networkId with ⟨hn, hn'⟩ | ⟨d, d', hd, hd', he⟩
  · rw [hn, hn']
    exact saved_eq rfl h
  · have hchanged : (d.applyRoster roster).1 = (d'.applyRoster roster).1 := by
      simp only [NetworkDomain.applyRoster, (NetworkDomain.erase_eq_iff.mp he).2.2.2.2.2.1]
    have hnext : (c.updateNetwork networkId fun d =>
          (d.applyRelayRoster (o.paths networkId) roster now).2).erase =
        (c'.updateNetwork networkId fun d =>
          (d.applyRelayRoster (o'.paths networkId) roster now).2).erase := by
      refine updateNetwork_congr h networkId fun e e' hfound hee => ?_
      rw [rosterDraws, hfound] at hdraw
      exact NetworkDomain.applyRelayRoster_congr hee _ _ hdraw
    rw [hd, hd']
    dsimp only
    rw [hchanged]
    refine saved_eq rfl ?_
    split_ifs
    · exact bumpNetmap_congr hnext
    · exact hnext

theorem applyCommand_congr (h : c.erase = c'.erase) (L : Crates) (o o' : IterOrder)
    {cmd : CoordCommand} (hdraw : (c.rosterDraws cmd).length ≤ 1) (logId : LogId) :
    (c.applyCommand L o cmd logId).map saved = (c'.applyCommand L o' cmd logId).map saved := by
  cases cmd with
  | register authKey staticPubkey capabilities routes now =>
    have hreg := register_congr h L authKey staticPubkey capabilities routes now
      (logId.index, logId.term)
    have hresult := congrArg
      (Option.map fun r : Except RegisterError RegisterData × Coordinator =>
        (CoordCommandResult.register r.1, r.2)) hreg
    rw [Option.map_map, Option.map_map] at hresult
    rw [applyCommand, applyCommand, Option.map_map, Option.map_map]
    exact hresult
  | revoke nodeId now =>
    refine congrArg some (saved_eq ?_ (revoke_congr h o o' nodeId now _))
    rw [staticPubkeyOf, staticPubkeyOf, nodeEntry_congr h]
  | setEndpoints nodeId localAddrs seen =>
    exact congrArg some (saved_eq rfl (setEndpoints_congr h nodeId localAddrs seen))
  | requestPaths source dest max now =>
    obtain ⟨hans, hstate⟩ := Prod.mk.inj (requestPaths_congr h L source dest max now)
    exact congrArg some (saved_eq (congrArg CoordCommandResult.requestPaths hans) hstate)
  | setRelayRoster networkId roster now =>
    obtain ⟨hans, hstate⟩ := Prod.mk.inj (applyRelayRoster_congr h o o' hdraw)
    exact congrArg some (saved_eq (congrArg CoordCommandResult.setRelayRoster hans) hstate)
  | rotateMasterKey network newMasterKey =>
    exact congrArg some (saved_eq rfl (rotateMasterKey_congr h network newMasterKey))
  | flushRevokeRotations now =>
    obtain ⟨hans, hstate⟩ := Prod.mk.inj (flushRevokeRotations_congr h now)
    exact congrArg some (saved_eq (congrArg CoordCommandResult.flushRevokeRotations hans) hstate)

theorem find?_pathMaps (c : Coordinator) (o : IterOrder) (networkId : UInt32) :
    (c.snapshot o).pathMaps.find? (fun e => e.1.toNat = networkId.toNat) =
      (c.domainByNetworkId networkId).map fun d =>
        (d.networkId, d.paths.persistent (o.paths d.networkId)) := by
  simp only [snapshot, StableSort.find?_sortByKey, List.find?_map, domainByNetworkId]
  refine congrArg (Option.map _) (congrArg (List.find? · c.domains) (funext fun d => ?_))
  rw [Function.comp_apply, beq_eq_decide]
  exact decide_eq_decide.mpr UInt32.toNat_inj

theorem domainByNetworkId_applyRelayRoster {networkId : UInt32} {d : NetworkDomain}
    (hd : c.domainByNetworkId networkId = some d) (o : IterOrder) (roster : List UInt32)
    (now : UInt64) :
    (c.applyRelayRoster o networkId roster now).2.domainByNetworkId networkId =
      some (d.applyRelayRoster (o.paths networkId) roster now).2 := by
  have hfirst := find?_updateFirst (p := fun d : NetworkDomain => d.networkId == networkId)
    (f := fun d => (d.applyRelayRoster (o.paths networkId) roster now).2)
    (fun _ hid => hid) c.domains
  rw [← domainByNetworkId, hd, Option.map_some] at hfirst
  rw [applyRelayRoster, hd]
  dsimp only
  split_ifs
  · exact hfirst
  · exact hfirst

theorem rosterDraws_length_le_one {networkId : UInt32} {roster : List UInt32} {now : UInt64}
    (h : ∀ o o', (c.applyRelayRoster o networkId roster now).2.snapshot o =
      (c.applyRelayRoster o' networkId roster now).2.snapshot o') :
    (c.rosterDraws (.setRelayRoster networkId roster now)).length ≤ 1 := by
  rw [rosterDraws]
  cases hd : c.domainByNetworkId networkId with
  | none => simp
  | some d =>
    refine NetworkDomain.rosterDrawing_length_le_one fun o o' => ?_
    have hmaps := congrArg
      (fun st : CoordState => st.pathMaps.find? fun e => e.1.toNat = networkId.toNat)
      (h (.ofPaths o) (.ofPaths o'))
    simp only [find?_pathMaps, domainByNetworkId_applyRelayRoster hd, Option.map_some,
      Option.some.injEq, Prod.mk.injEq] at hmaps
    exact PathService.map_eq_of_persistent_eq hmaps.2

end Coordinator

end Rill
