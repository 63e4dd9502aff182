import Rill.HandlerCalls

/-!
# What the pushes write

A push reads the coordinator and then writes what it read; the coordinator may change in between,
and a push makes several reads. `Permits` asks of a discipline that whatever is read in this way may
be written: each read sees a coordinator that follows the earlier ones, and the write comes last.
-/

namespace Rill

open Interaction (Program)
open Interaction.Program

namespace Discipline
variable {L : ServerCrates}

/-- The candidate of a path update, with its key read from `c`. -/
def readCandidate (L : ServerCrates) (c : Coordinator) (source : UInt32) (p : PathCandidate) :
    CandidatePath where
  pathId := p.pathId
  pathEpoch := p.pathEpoch
  hops := p.hops
  expiresAt := p.expiresAt
  keyPath := c.keyPathFor L.crypto source p.pathId p.pathEpoch

variable (D : Discipline L)

/-- The coordinator `c'` follows `c` while a handler runs. -/
structure Follows (c c' : Coordinator) : Prop where
  inv : D.inv c'
  near : D.near c c'

/-- A state of the server that follows `c`, in which the connection serves the node. -/
structure Later (k : ℕ) (n : UInt32) (c : Coordinator) (s : ControlState) : Prop where
  follows : D.Follows c s.coordinator
  registered : s.registered k = some n

structure Permits : Prop where
  plain : ∀ k s call, call.Plain → D.allowed k s call
  registers : ∀ k s n, D.inv s.coordinator → D.allowed k s (.setRegistered n)
  lease : ∀ k s granted expiresAt, D.allowed k s (.write (.lease granted expiresAt))
  take : ∀ k s n, D.allowed k s (.takePathEvents n)
  calmTake : ∀ c o n, D.calm c (o, .unlogged (.takePathEvents n))
  calmRoutes : ∀ c o n, D.calm c (o, .unlogged (.takeRouteMapPush n))
  /-- The network of the node is looked up, then its netmap is read. -/
  netmap : ∀ k n c₀ c₁ s o replicas, D.inv c₀ → D.Follows c₀ c₁ → D.Later k n c₁ s →
    D.allowed k s (.write (.netmapPush
      (c₁.netmapPushMessage o ((c₀.networkIdOf n).getD 0) replicas)))
  /-- Then the ids of its nodes, and the key of each. -/
  keyDist : ∀ k n c₀ c₁ c₂ s o id data, D.inv c₀ → D.Follows c₀ c₁ → D.Follows c₁ c₂ →
    D.Later k n c₂ s →
    id ∈ (c₁.netmapSnapshot o ((c₀.networkIdOf n).getD 0)).map NodeInfo.nodeId →
    c₂.keyDist L.crypto id = some data → D.allowed k s (.write (.keyDist data.message))
  /-- An event of the queue of the node, with the keys of its candidates. -/
  update : ∀ k n c₀ d s source dest set candidates, D.inv c₀ → c₀.domainOfNode n = some d →
    .update source dest set ∈ d.paths.queue n → D.Later k n c₀ s →
    (∀ a ∈ candidates, ∃ p ∈ set.candidates, ∃ c₁, D.Follows c₀ c₁ ∧ D.Later k n c₁ s ∧
      a = readCandidate L c₁ source p) →
    D.allowed k s (.write (.pathUpdate
      { destinationNodeId := dest, candidates, pathVersion := set.version, sourceNodeId := source }))
  withdraw : ∀ k n c₀ d s dest pathId, D.inv c₀ → c₀.domainOfNode n = some d →
    .withdraw dest pathId ∈ d.paths.queue n → D.Later k n c₀ s →
    D.allowed k s (.write (.pathWithdraw dest pathId 0))
  routes : ∀ k n c₀ s o version entries, D.inv c₀ →
    (c₀.takeRouteMapPush L.toCrates o n).1 = some (version, entries) → D.Later k n c₀ s →
    D.allowed k s (.write (.routeMap version entries))

variable {D} {k : ℕ} {n : UInt32} {c : Coordinator} {s : ControlState}

theorem Follows.trans {c' c'' : Coordinator} (h : D.Follows c c') (h' : D.Follows c' c'') :
    D.Follows c c'' := ⟨h'.inv, D.near_trans _ _ _ h.near h'.near⟩

theorem Later.trans {c' : Coordinator} (h : D.Follows c c') (h' : D.Later k n c' s) :
    D.Later k n c s := ⟨h.trans h'.follows, h'.registered⟩

theorem Later.serves {w : ControlWorld} (h : D.Later k n c w.store) : D.Serves k n w :=
  ⟨h.follows.inv, h.registered⟩

theorem Serves.later {w : ControlWorld} (h : D.Serves k n w) :
    D.Later k n w.store.coordinator w.store := ⟨⟨h.inv, D.near_refl _⟩, h.registered⟩

theorem Later.rely {w w₁ : ControlWorld} (hw : D.Later k n c w.store)
    (h : (D.rules k).rely w w₁) : D.Later k n c w₁.store :=
  ⟨⟨h.1, D.near_trans _ _ _ hw.follows.near h.2.1⟩, (hw.serves.rely h).registered⟩

/-- Reads, writes and looks at the surroundings leave the state as it is. -/
theorem Later.can {w w₁ : ControlWorld} {call : ServerCall} {r : call.Reply}
    (hw : D.Later k n c w.store) (hcall : ∀ env, call.operation env = none)
    (hreg : Handler.NotRegistering call) (h : (D.rules k).can w call r w₁) :
    D.Later k n c w₁.store := by
  have hserves := hw.serves.can hreg h
  obtain ⟨-, env, hexec, -⟩ := h
  refine ⟨⟨hserves.inv, ?_⟩, hserves.registered⟩
  rcases ControlState.exec_coordinator hexec with ⟨-, hsame⟩ | ⟨a, ha, -⟩
  · exact hsame ▸ hw.follows.near
  · nomatch (hcall env).symm.trans ha

open Handler

theorem safe_writeMsg {msg : ServerMessage} {w : ControlWorld} (hw : D.Later k n c w.store)
    (hallowed : ∀ s, D.Later k n c s → D.allowed k s (.write msg)) :
    (writeMsg msg).Safe (D.rules k) (fun _ w => D.Later k n c w.store) w := by
  refine safe_perform_bind fun w₁ hrely => ⟨hallowed _ (hw.rely hrely), fun ok w₂ hcan => ?_⟩
  have hw₂ : D.Later k n c w₂.store := by
    refine (hw.rely hrely).can (fun _ => rfl) ?_ hcan
    exact fun _ heq => nomatch heq
  exact safe_ensure (fun _ => hw₂) fun _ => hw₂

namespace Permits
variable (h : D.Permits)
include h

/-- What is read comes from a coordinator that follows the earlier ones. -/
theorem safe_read_bind {α : Type} {q : CoordQuery} {f : q.Answer → Handler α}
    {post : Except ServerError α → ControlWorld → Prop} {w : ControlWorld}
    (hw : D.Later k n c w.store)
    (hf : ∀ c₁ o clock (w₁ : ControlWorld), D.Follows c c₁ → D.Later k n c₁ w₁.store →
      (f (c₁.answer L o clock q)).Safe (D.rules k) post w₁) :
    (ask (.read q) >>= f).Safe (D.rules k) post w := by
  refine safe_perform_bind fun w₁ hrely => ⟨h.plain k _ _ trivial, fun r w₂ hcan => ?_⟩
  have hw₁ := hw.rely hrely
  obtain ⟨⟨o, clock, rfl⟩, hstore⟩ := can_read hcan
  refine hf _ o clock w₂ hw₁.follows ?_
  rw [hstore]
  exact hw₁.serves.later

theorem safe_pushSnapshot {w : ControlWorld} (hc : D.inv c) (hw : D.Later k n c w.store) :
    (pushSnapshot ((c.networkIdOf n).getD 0)).Safe (D.rules k)
      (fun _ w => D.Later k n c w.store) w := by
  refine safe_perform_bind fun w₁ hrely => ⟨h.plain k _ _ trivial, fun replicas w₂ hcan => ?_⟩
  have hw₂ : D.Later k n c w₂.store := by
    refine (hw.rely hrely).can (fun _ => rfl) ?_ hcan
    exact fun _ heq => nomatch heq
  refine h.safe_read_bind hw₂ fun c₁ o clock w₃ hc₁ hw₃ => ?_
  refine safe_bind ((safe_writeMsg hw₃ fun s hs => h.netmap k n c c₁ s o replicas hc hc₁ hs).mono
    fun r w₄ hw₄ => ?_)
  cases r with
  | error e => exact hw₄.trans hc₁
  | ok _ =>
    refine h.safe_read_bind (hw₄.trans hc₁) fun c₁ o clock w₅ hc₁ hw₅ => ?_
    refine Safe.mono (fun r w (hw : D.Later k n c₁ w.store) => hw.trans hc₁)
      (safe_each (fun id hid w hw => ?_) hw₅)
    refine h.safe_read_bind hw fun c₂ o' clock' w₆ hc₂ hw₆ => ?_
    rw [Coordinator.answer]
    cases hdata : c₂.keyDist L.crypto id with
    | none => exact hw₆.trans hc₂
    | some data =>
      refine (safe_writeMsg hw₆ fun s hs => ?_).mono fun r w hw => hw.trans hc₂
      exact h.keyDist k n c c₁ c₂ s o id data hc hc₁ hc₂ hs hid hdata

theorem safe_pushPathEvent {w : ControlWorld} {d : NetworkDomain} {event : PathEvent}
    (hc : D.inv c) (hd : c.domainOfNode n = some d) (hevent : event ∈ d.paths.queue n)
    (hw : D.Later k n c w.store) :
    (pushPathEvent event).Safe (D.rules k) (fun _ w => D.Later k n c w.store) w := by
  cases event with
  | withdraw dest pathId =>
    exact safe_writeMsg hw fun s hs => h.withdraw k n c d s dest pathId hc hd hevent hs
  | update source dest set =>
    -- the candidates read so far keep to coordinators that the present one follows
    refine safe_bind ((safe_collect (F := fun as w => D.Later k n c w.store ∧
      ∀ a ∈ as, ∃ p ∈ set.candidates, ∃ c₁, D.Follows c c₁ ∧ D.Later k n c₁ w.store ∧
        a = readCandidate L c₁ source p) (E := fun _ w => D.Later k n c w.store) []
      (fun p hp as w hw => ?_) ⟨hw, fun _ ha => nomatch ha⟩).mono fun r w hr => ?_)
    · refine safe_perform_bind fun w₁ hrely => ⟨h.plain k _ _ trivial, fun keyPath w₂ hcan => ?_⟩
      have hw₁ := hw.1.rely hrely
      obtain ⟨⟨o, clock, rfl⟩, hstore⟩ := can_read hcan
      refine ⟨hstore ▸ hw₁, fun a ha => ?_⟩
      rw [hstore]
      rcases List.mem_append.mp ha with ha | ha
      · obtain ⟨p, hp, c₁, hc₁, hlater, rfl⟩ := hw.2 a ha
        exact ⟨p, hp, c₁, hc₁, hlater.rely hrely, rfl⟩
      · rw [List.mem_singleton.mp ha]
        exact ⟨p, hp, _, hw₁.follows, hw₁.serves.later, rfl⟩
    · cases r with
      | error e => exact hr
      | ok candidates =>
        refine safe_perform_bind fun w₁ hrely => ⟨?_, fun ok w₂ hcan => ?_⟩
        · refine h.update k n c d _ source dest set candidates hc hd hevent (hr.1.rely hrely) ?_
          intro a ha
          obtain ⟨p, hp, c₁, hc₁, hlater, rfl⟩ := hr.2 a ha
          exact ⟨p, hp, c₁, hc₁, hlater.rely hrely, rfl⟩
        · have hw₂ : D.Later k n c w₂.store := by
            refine (hr.1.rely hrely).can (fun _ => rfl) ?_ hcan
            exact fun _ heq => nomatch heq
          exact safe_ensure (fun _ => hw₂) fun _ => hw₂

theorem safe_pushPathEvents {w : ControlWorld} (hw : D.Serves k n w) :
    (pushPathEvents n).Safe (D.rules k) (fun _ _ => True) w := by
  refine safe_perform_bind fun w₁ hrely => ⟨h.take k _ n, fun events w₂ hcan => ?_⟩
  have hw₁ := hw.rely hrely
  obtain ⟨hevents, o, hperform, hguard⟩ := can_take hcan
  have hw₂ : D.Later k n w₁.store.coordinator w₂.store := by
    refine ⟨⟨hcan.1, D.near_step _ _ _ hw₁.inv hguard (h.calmTake _ o n) hperform⟩, ?_⟩
    refine (hw₁.can ?_ hcan).registered
    exact fun _ heq => nomatch heq
  refine Safe.mono (fun _ _ _ => trivial) (safe_each (F := fun w => D.Later k n
    w₁.store.coordinator (Interaction.World.store w)) (fun event hevent w hw => ?_) hw₂)
  obtain ⟨d, hd, hqueue⟩ := hevents event hevent
  exact h.safe_pushPathEvent hw₁.inv hd hqueue hw

theorem safe_pushRouteMap {w : ControlWorld} (hw : D.Serves k n w) :
    (pushRouteMap n).Safe (D.rules k) (fun _ _ => True) w := by
  refine safe_perform_bind fun w₁ hrely => ⟨h.plain k _ _ trivial, fun push w₂ hcan => ?_⟩
  have hw₁ := hw.rely hrely
  have hserves : D.Serves k n w₂ := by
    refine hw₁.can ?_ hcan
    exact fun _ heq => nomatch heq
  obtain ⟨hinv, env, hexec, hguard⟩ := hcan
  obtain ⟨hpush, hstore⟩ := Prod.mk.inj (Option.some.inj hexec)
  have hperform : w₁.store.coordinator.perform L.toCrates
      (env.order, .unlogged (.takeRouteMapPush n)) = some w₂.store.coordinator := by
    rw [← hstore]
    rfl
  have hw₂ : D.Later k n w₁.store.coordinator w₂.store :=
    ⟨⟨hinv, D.near_step _ _ _ hw₁.inv (hguard _ rfl) (h.calmRoutes _ _ n) hperform⟩,
      hserves.registered⟩
  cases push with
  | none => trivial
  | some push =>
    refine (safe_writeMsg hw₂ fun s hs => ?_).mono fun _ _ _ => trivial
    exact h.routes k n _ s env.order push.1 push.2 hw₁.inv hpush hs

/-- A discipline that permits what the pushes read holds of every handler. -/
theorem holds : D.Holds :=
  Pushes.holds
    { plain := h.plain
      registers := h.registers
      lease := h.lease
      snapshot := fun _ _ _ _ hc hnear hserves =>
        (h.safe_pushSnapshot hc ⟨⟨hserves.inv, hnear⟩, hserves.registered⟩).mono
          fun _ _ _ => trivial
      events := fun _ _ _ hw => h.safe_pushPathEvents hw
      routes := fun _ _ _ hw => h.safe_pushRouteMap hw }

end Permits

/-- A discipline that asks something of path updates alone. -/
theorem permits_of_update
    (hother : ∀ k s call, (∀ msg, call ≠ .write (.pathUpdate msg)) → D.allowed k s call)
    (hcalm : ∀ c o op, D.calm c (o, .unlogged op))
    (hupdate : ∀ k n c₀ d s source dest set candidates, D.inv c₀ → c₀.domainOfNode n = some d →
      .update source dest set ∈ d.paths.queue n → D.Later k n c₀ s →
      (∀ a ∈ candidates, ∃ p ∈ set.candidates, ∃ c₁, D.Follows c₀ c₁ ∧ D.Later k n c₁ s ∧
        a = readCandidate L c₁ source p) →
      D.allowed k s (.write (.pathUpdate
        { destinationNodeId := dest, candidates, pathVersion := set.version
          sourceNodeId := source }))) : D.Permits where
  plain k s call hcall := by
    refine hother k s call ?_
    rintro msg rfl
    exact hcall
  registers k s n _ := hother k s _ fun _ h => nomatch h
  lease k s granted expiresAt := hother k s _ fun _ h => nomatch h
  take k s n := hother k s _ fun _ h => nomatch h
  calmTake c o n := hcalm c o _
  calmRoutes c o n := hcalm c o _
  netmap k n c₀ c₁ s o replicas _ _ _ := hother k s _ fun _ h => nomatch h
  keyDist k n c₀ c₁ c₂ s o id data _ _ _ _ _ _ := hother k s _ fun _ h => nomatch h
  update := hupdate
  withdraw k n c₀ d s dest pathId _ _ _ _ := hother k s _ fun _ h => nomatch h
  routes k n c₀ s o version entries _ _ _ := hother k s _ fun _ h => nomatch h

end Discipline

end Rill
