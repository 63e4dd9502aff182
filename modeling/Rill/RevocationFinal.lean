import Rill.CoordinatorViews
import Rill.NamedNodes
import Rill.ReplicaDeterminism

/-!
# Revocation is final

After the revocation of a node its id is in no registry, relay roster, relay list or path set, and
no path update is queued for it. That stays so as long as no later roster lists the id and the
counter of ids does not come back to it. `apply_relay_roster` takes a roster as it comes, so a roster
made up before the revocation brings the id back.
-/

namespace Rill

theorem forall_not_updateFirst {α : Type} {p : α → Bool} {f : α → α} {l : List α}
    (hl : l.Pairwise fun a b => p a = true → p b = false) (hf : ∀ a, p (f a) = false) :
    ∀ a ∈ updateFirst p f l, p a = false := by
  induction l with
  | nil => exact fun a ha => nomatch ha
  | cons b l ih =>
    obtain ⟨hb, hl⟩ := List.pairwise_cons.mp hl
    rw [updateFirst]
    by_cases hp : p b = true
    · rw [if_pos hp]
      exact List.forall_mem_cons.mpr ⟨hf b, fun a ha => hb a ha hp⟩
    · rw [if_neg hp]
      exact List.forall_mem_cons.mpr ⟨Bool.eq_false_of_not_eq_true hp, ih hl⟩

/-- No update joins the queue of `n`. -/
def NetworkDomain.NoUpdateFor (n : UInt32) (d d' : NetworkDomain) : Prop :=
  ∃ old new, d'.paths.queue n = old ++ new ∧ (old = d.paths.queue n ∨ old = []) ∧
    ∀ event ∈ new, event.isUpdate = false

theorem PathService.Adds.noUpdateFor {n : UInt32} {ok : UInt32 → Prop} {d d' : NetworkDomain}
    (h : d.paths.Adds ok d'.paths) (hn : ¬ ok n) : d.NoUpdateFor n d' := by
  obtain ⟨old, new, hqueue, hold, hnew⟩ := h n
  refine ⟨old, new, hqueue, hold, fun event hevent => ?_⟩
  by_contra hupdate
  exact hn (hnew event hevent (Bool.eq_true_of_not_eq_false hupdate)).1

namespace Coordinator
variable {c c' : Coordinator} {L : Crates} {n : UInt32}

/-- The id is in no registry, roster, relay list or path set. -/
structure Gone (n : UInt32) (c : Coordinator) : Prop where
  entries : ∀ d ∈ c.domains, d.registry.entries[n]? = none
  names : ∀ d ∈ c.domains, d.Within fun id => id ≠ n

/-- A registration hands out an id that no node has. -/
def FreshId (c : Coordinator) (a : IterOrder × CoordOp) : Prop :=
  match a.2 with
  | .command (.register _ _ _ _ _) _ => ∀ d ∈ c.domains, d.registry.entries[c.nextNodeId]? = none
  | _ => True

/-- A roster lists `n` for the network that `n` is registered in. -/
def RosterFits (n : UInt32) (c : Coordinator) (a : IterOrder × CoordOp) : Prop :=
  match a.2 with
  | .command (.setRelayRoster networkId roster _) _ => n ∈ roster → c.networkIdOf n = some networkId
  | _ => True

/-- The operation does not bring back the id: no roster lists it, and it is not handed out. -/
def Avoids (n : UInt32) (c : Coordinator) (a : IterOrder × CoordOp) : Prop :=
  match a.2 with
  | .command (.register _ _ _ _ _) _ => c.nextNodeId ≠ n
  | .command (.setRelayRoster _ roster _) _ => n ∉ roster
  | _ => True

instance (c : Coordinator) (a : IterOrder × CoordOp) : Decidable (c.FreshId a) := by
  rcases a with ⟨_, ⟨⟨⟩, _⟩ | ⟨⟨⟩⟩ | ⟨⟨⟩⟩⟩ <;> dsimp only [FreshId] <;> infer_instance

instance (n : UInt32) (c : Coordinator) (a : IterOrder × CoordOp) : Decidable (c.RosterFits n a) := by
  rcases a with ⟨_, ⟨⟨⟩, _⟩ | ⟨⟨⟩⟩ | ⟨⟨⟩⟩⟩ <;> dsimp only [RosterFits] <;> infer_instance

instance (n : UInt32) (c : Coordinator) (a : IterOrder × CoordOp) : Decidable (c.Avoids n a) := by
  rcases a with ⟨_, ⟨⟨⟩, _⟩ | ⟨⟨⟩⟩ | ⟨⟨⟩⟩⟩ <;> dsimp only [Avoids] <;> infer_instance

/-- Networks that do not have the node do not name it. -/
def Tracks (n : UInt32) (c : Coordinator) : Prop :=
  ∀ d ∈ c.domains, d.registry.entries[n]? = none → d.Within fun id => id ≠ n

theorem Orderly.ne_of_domainOfNode (hc : c.Orderly) {d : NetworkDomain}
    (hn : d.registry.entries[n]? = none) {id : UInt32} (h : c.domainOfNode id = some d) : id ≠ n := by
  rintro rfl
  obtain ⟨e, he⟩ := hc.entry_of_domainOfNode h
  nomatch hn.symm.trans he

theorem Orderly.entry_of_networkIdOf (hc : c.Orderly) {d : NetworkDomain} (hd : d ∈ c.domains)
    (h : c.networkIdOf n = some d.networkId) : ∃ e, d.registry.entries[n]? = some e := by
  obtain ⟨d', hd', hid⟩ := Option.map_eq_some_iff.mp h
  obtain ⟨networkId, -, hfound⟩ := Option.bind_eq_some_iff.mp hd'
  obtain rfl := hc.eq_of_networkId (List.mem_of_find?_eq_some hfound) hd hid
  exact hc.entry_of_domainOfNode hd'

theorem perform_tracks {a : IterOrder × CoordOp} (hc : c.Orderly) (ht : c.Tracks n)
    (hguard : c.RosterFits n a) (h : c.perform L a = some c') : c'.Tracks n := by
  obtain ⟨o, op⟩ := a
  refine perform_forall (P := fun d => d.registry.entries[n]? = none → d.Within fun id => id ≠ n)
    h ht fun d hd d' htracks hevolves hn' => ?_
  cases hn : d.registry.entries[n]? with
  | none =>
    refine (hevolves.within (htracks hn) (hc.rostered d hd) (fun id => hc.ne_of_domainOfNode hn)
      fun roster now logId hop r hr => ?_).1
    rintro rfl
    subst hop
    obtain ⟨e, he⟩ := hc.entry_of_networkIdOf hd (hguard hr)
    nomatch hn.symm.trans he
  | some e =>
    -- the network had the node and lost it, so this was its revocation
    obtain ⟨now, logId, -, rfl⟩ := hevolves.entry_lost hn hn'
    have hwithin := NetworkDomain.within_revoke (d.flushRevokeRotation now).within_true
      (hc.rostered d hd) (o.paths d.networkId) n now
    exact hwithin.1.mono fun _ h => h.2

theorem perform_apart {a : IterOrder × CoordOp} (hc : c.roll.Apart) (hfresh : c.FreshId a)
    (h : c.perform L a = some c') : c'.roll.Apart := by
  obtain ⟨o, op⟩ := a
  obtain ⟨change, hstep, hreg⟩ := perform_step h
  refine hstep.apart hc fun authKey spec e heq => ?_
  obtain ⟨_, staticPubkey, capabilities, routes, now, logId, rfl, -⟩ := hreg authKey spec e heq
  exact List.forall_mem_map.mpr hfresh

theorem perform_gone {a : IterOrder × CoordOp} (hc : c.Orderly) (hgone : c.Gone n)
    (hguard : c.Avoids n a) (h : c.perform L a = some c') :
    c'.Gone n ∧ List.Forall₂ (NetworkDomain.NoUpdateFor n) c.domains c'.domains := by
  obtain ⟨o, op⟩ := a
  have hwithin : ∀ d ∈ c.domains, ∀ d', c.Evolves L o op d d' →
      (d'.Within fun id => id ≠ n) ∧ d.paths.Adds (fun id => id ≠ n) d'.paths := by
    intro d hd d' hevolves
    refine hevolves.within (hgone.names d hd) (hc.rostered d hd)
      (fun id => hc.ne_of_domainOfNode (hgone.entries d hd)) fun roster now logId hop r hr => ?_
    rintro rfl
    subst hop
    exact hguard hr
  refine ⟨⟨perform_forall h hgone.entries fun d hd d' hn hevolves => ?_,
    perform_forall h hgone.names fun d hd d' _ hevolves => (hwithin d hd d' hevolves).1⟩,
    perform_forall₂ h fun d hd d' hevolves => (hwithin d hd d' hevolves).2.noUpdateFor (· rfl)⟩
  cases hn' : d'.registry.entries[n]? with
  | none => rfl
  | some e =>
    rcases hevolves.entry hn' with he | ⟨authKey, spec, hop, hadm, hid⟩
    · exact he.symm.trans hn
    · obtain ⟨_, staticPubkey, capabilities, routes, now, logId, rfl, -⟩ := hop
      exact absurd (hadm.nodeId.symm.trans hid) hguard

theorem gone_of_revoke {o : IterOrder} {now : UInt64} {logId : LogId} {out : CoordCommandResult}
    (hc : c.Orderly) (hapart : c.roll.Apart) (ht : c.Tracks n)
    (h : c.applyCommand L o (.revoke n now) logId = some (out, c')) :
    c'.Gone n ∧ List.Forall₂ (NetworkDomain.NoUpdateFor n) c.domains c'.domains := by
  have hperform : c.perform L (o, .command (.revoke n now) logId) = some c' :=
    congrArg (Option.map Prod.snd) h
  have hentries : ∀ d ∈ c'.domains, d.registry.entries[n]? = none := by
    cases h
    have hseats := congrArg Roll.seats (c.roll_revoke o n now (logId.index, logId.term))
    have hnone : ∀ s ∈ (c.revoke o n now (logId.index, logId.term)).roll.seats,
        s.registry.entries[n]?.isSome = false := by
      rw [hseats]
      refine forall_not_updateFirst (hapart.imp fun hst hs => ?_) fun s => ?_
      · rw [hst n hs]
        rfl
      · rw [Registry.getElem?_revoke, if_pos rfl]
        rfl
    refine fun d hd => Option.isNone_iff_eq_none.mp (Option.isSome_eq_false_iff.mp ?_)
    exact hnone d.seat (List.mem_map_of_mem hd)
  have htracks := perform_tracks (a := (o, .command (.revoke n now) logId)) hc ht trivial hperform
  refine ⟨⟨hentries, fun d hd => htracks d hd (hentries d hd)⟩, ?_⟩
  refine perform_forall₂ hperform fun d hd d' hevolves => ?_
  cases hevolves with
  | keep hkeep =>
    refine ⟨d.paths.queue n, [], ?_, Or.inl rfl, fun _ h => nomatch h⟩
    rw [hkeep.paths, List.append_nil]
  | admits hop _ =>
    obtain ⟨_, _, _, _, _, _, hop, -⟩ := hop
    nomatch hop
  | revoke _ =>
    have hwithin := NetworkDomain.within_revoke (d.flushRevokeRotation now).within_true
      (hc.rostered d hd) (o.paths d.networkId) n now
    exact hwithin.2.noUpdateFor (·.2 rfl)

/-- What holds of every state before the revocation. -/
structure Settled (n : UInt32) (c : Coordinator) : Prop where
  orderly : c.Orderly
  apart : c.roll.Apart
  tracks : c.Tracks n

theorem settled_fresh (n : UInt32) (config : MachineConfig)
    (hids : (config.networks.map fun k => networkIdFor k.1).Nodup) :
    (freshCoordinator config).Settled n where
  orderly := orderly_fresh config hids
  apart := (restorable_fresh config hids).apart
  tracks := by
    rw [Tracks, freshCoordinator_eq]
    exact List.forall_mem_map.mpr fun k _ _ => NetworkDomain.within_new _ _ _ _

/-- A run of operations registers nodes under ids that are free and puts `n` on rosters of its own
network only; the revocation of `n` succeeds; later operations neither hand out `n` nor put it on a
roster. Then `n` is gone from every state after the revocation, and neither the revocation nor a
later operation queues a path update for it. -/
theorem revocation_final (L : Crates) (config : MachineConfig)
    (hids : (config.networks.map fun k => networkIdFor k.1).Nodup) {n : UInt32}
    {before after : List (IterOrder × CoordOp)} {c₁ c₂ c₃ : Coordinator} {o : IterOrder}
    {now : UInt64} {logId : LogId}
    (hbefore : Transition.run (perform L) (freshCoordinator config) before = some c₁)
    (hfits : Transition.Meets (perform L) (fun c a => c.FreshId a ∧ c.RosterFits n a)
      (freshCoordinator config) before)
    (hrevoke : c₁.applyCommand L o (.revoke n now) logId = some (.revoke true, c₂))
    (hafter : Transition.run (perform L) c₂ after = some c₃)
    (havoids : Transition.Meets (perform L) (Avoids n) c₂ after) :
    c₃.Gone n ∧ List.Forall₂ (NetworkDomain.NoUpdateFor n) c₁.domains c₂.domains ∧
      ∀ a c₄, c₃.Avoids n a → c₃.perform L a = some c₄ →
        List.Forall₂ (NetworkDomain.NoUpdateFor n) c₃.domains c₄.domains := by
  have hsettled : c₁.Settled n := by
    refine Transition.invariant (fun c a c' hc hguard hstep => ?_) (settled_fresh n config hids) hfits
      hbefore
    exact ⟨perform_orderly hc.orderly hstep, perform_apart hc.apart hguard.1 hstep,
      perform_tracks hc.orderly hc.tracks hguard.2 hstep⟩
  obtain ⟨hgone, hnew⟩ := gone_of_revoke hsettled.orderly hsettled.apart hsettled.tracks hrevoke
  have hperform : c₁.perform L (o, .command (.revoke n now) logId) = some c₂ :=
    congrArg (Option.map Prod.snd) hrevoke
  have hkeeps : ∀ (c : Coordinator) (a : IterOrder × CoordOp) (c' : Coordinator),
      c.Orderly ∧ c.Gone n → c.Avoids n a → c.perform L a = some c' → c'.Orderly ∧ c'.Gone n :=
    fun c a c' hc hguard hstep => ⟨perform_orderly hc.1 hstep, (perform_gone hc.1 hc.2 hguard hstep).1⟩
  obtain ⟨horderly, hend⟩ := Transition.invariant hkeeps
    ⟨perform_orderly hsettled.orderly hperform, hgone⟩ havoids hafter
  exact ⟨hend, hnew, fun a c₄ hguard hstep => (perform_gone horderly hend hguard hstep).2⟩

end Coordinator

section Lab

def labCommand (index : UInt64) (cmd : CoordCommand) : IterOrder × CoordOp :=
  (labOrder, .command cmd { index, term := 1 })

/-- The key of the network is configured, and three nodes register with it. -/
def labRegistrations : List (IterOrder × CoordOp) :=
  [(labOrder, .configure (.addAuthKeySpec labKey { policy := .reusable })),
   labCommand 1 (.register labKey (.replicate 32 1) 0 [] 100),
   labCommand 2 (.register labKey (.replicate 32 2) 0 [] 100),
   labCommand 3 (.register labKey (.replicate 32 3) 1 [] 100)]

/-- A roster with node 3 is applied after the revocation of node 3. The node is back in the roster
and among the relays, the next path between the others leads over it, and it is sent the path. -/
theorem lab_roster_brings_back :
    ∃ c₁ c₂ c₃, Transition.run (Coordinator.perform clearCrates)
        (freshCoordinator labConfig.machineConfig) labRegistrations = some c₁ ∧
      c₁.applyCommand clearCrates labOrder (.revoke 3 200) ⟨4, 1⟩ = some (.revoke true, c₂) ∧
      Transition.run (Coordinator.perform clearCrates) c₂
        [labCommand 5 (.setRelayRoster (networkIdFor (ascii "lab")) [3] 210),
         labCommand 6 (.requestPaths 1 2 4 220)] = some c₃ ∧
      ∃ d ∈ c₃.domains, 3 ∈ d.roster ∧ 3 ∈ d.paths.relays ∧
        (∃ set, d.paths.map[((1 : UInt32), (2 : UInt32))]? = some set ∧
          ∃ p ∈ set.candidates, 3 ∈ p.hops) ∧
        ∃ event ∈ d.paths.queue 3, event.isUpdate = true := by
  have hcheck : (Transition.run (Coordinator.perform clearCrates)
      (freshCoordinator labConfig.machineConfig) labRegistrations).any (fun c₁ =>
        (c₁.applyCommand clearCrates labOrder (.revoke 3 200) ⟨4, 1⟩).any fun r =>
          r.1 = .revoke true ∧ (Transition.run (Coordinator.perform clearCrates) r.2
            [labCommand 5 (.setRelayRoster (networkIdFor (ascii "lab")) [3] 210),
             labCommand 6 (.requestPaths 1 2 4 220)]).any fun c₃ =>
              ∃ d ∈ c₃.domains, 3 ∈ d.roster ∧ 3 ∈ d.paths.relays ∧
                (d.paths.map[((1 : UInt32), (2 : UInt32))]?.any fun set =>
                  ∃ p ∈ set.candidates, 3 ∈ p.hops) ∧
                ∃ event ∈ d.paths.queue 3, event.isUpdate = true) = true := by
    decide +kernel
  obtain ⟨c₁, hc₁, hrest⟩ := (Option.any_eq_true _ _).mp hcheck
  obtain ⟨⟨out, c₂⟩, hc₂, hrest⟩ := (Option.any_eq_true _ _).mp hrest
  obtain ⟨rfl, hrest⟩ := of_decide_eq_true hrest
  obtain ⟨c₃, hc₃, hrest⟩ := (Option.any_eq_true _ _).mp hrest
  obtain ⟨d, hd, hroster, hrelays, hset, hqueue⟩ := of_decide_eq_true hrest
  obtain ⟨set, hset, hhops⟩ := (Option.any_eq_true _ _).mp hset
  exact ⟨c₁, c₂, c₃, hc₁, hc₂, hc₃, d, hd, hroster, hrelays, ⟨set, hset, of_decide_eq_true hhops⟩,
    hqueue⟩

/-- Node 3 is a relay until it is revoked; the paths asked for after that do without it. -/
theorem lab_revocation_final :
    let before := labRegistrations ++
      [labCommand 4 (.setRelayRoster (networkIdFor (ascii "lab")) [3] 150)]
    let after := [labCommand 6 (.setRelayRoster (networkIdFor (ascii "lab")) [2] 210),
      labCommand 7 (.requestPaths 1 2 4 220)]
    ∃ c₁ c₂ c₃, Transition.run (Coordinator.perform clearCrates)
        (freshCoordinator labConfig.machineConfig) before = some c₁ ∧
      c₁.applyCommand clearCrates labOrder (.revoke 3 200) ⟨5, 1⟩ = some (.revoke true, c₂) ∧
      Transition.run (Coordinator.perform clearCrates) c₂ after = some c₃ ∧ c₃.Gone 3 := by
  intro before after
  have hfits : Transition.Meets (Coordinator.perform clearCrates)
      (fun c a => c.FreshId a ∧ c.RosterFits 3 a) (freshCoordinator labConfig.machineConfig)
      before := by
    decide +kernel
  have hcheck : (Transition.run (Coordinator.perform clearCrates)
      (freshCoordinator labConfig.machineConfig) before).any (fun c₁ =>
        (c₁.applyCommand clearCrates labOrder (.revoke 3 200) ⟨5, 1⟩).any fun r =>
          r.1 = .revoke true ∧
            Transition.Meets (Coordinator.perform clearCrates) (Coordinator.Avoids 3) r.2 after ∧
            (Transition.run (Coordinator.perform clearCrates) r.2 after).isSome) = true := by
    decide +kernel
  obtain ⟨c₁, hc₁, hrest⟩ := (Option.any_eq_true _ _).mp hcheck
  obtain ⟨⟨out, c₂⟩, hc₂, hrest⟩ := (Option.any_eq_true _ _).mp hrest
  obtain ⟨rfl, havoids, hsome⟩ := of_decide_eq_true hrest
  obtain ⟨c₃, hc₃⟩ := Option.isSome_iff_exists.mp hsome
  exact ⟨c₁, c₂, c₃, hc₁, hc₂, hc₃, (Coordinator.revocation_final clearCrates labConfig.machineConfig
    (by decide) hc₁ hfits hc₂ hc₃ havoids).1⟩

end Lab

end Rill
