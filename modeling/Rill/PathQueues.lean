import Rill.Membership
import Rill.RevocationFinal

/-!
# The queues of path events

What the path service has for a node waits until the node takes it with a heartbeat. In every run
of a coordinator a queue grows at its end only, up to its limit, and nobody but its node empties it.
-/

namespace Rill

theorem PathService.Sends.queue_eq {U : UInt32 → UInt32 × UInt32 → PathSet → Prop}
    {s s' : PathService} (h : s.Sends U s') (m : UInt32) : ∃ events : List PathEvent,
      s'.queue m = s.queue m ++ events.take (pendingEventsMax - (s.queue m).length) := by
  obtain ⟨posts, hpending, -⟩ := h
  refine ⟨addressed m posts, ?_⟩
  rw [← s.queue_post posts m, queue, queue, hpending]

namespace Coordinator
variable {c c' : Coordinator} {L : Crates} {o : IterOrder} {op : CoordOp} {d d' : NetworkDomain}

/-- An operation posts events, or it is the one with which a node takes its own. -/
theorem Evolves.posts_or_takes (h : c.Evolves L o op d d') :
    d.paths.Sends (fun _ _ _ => True) d'.paths ∨
      ∃ m, op = .unlogged (.takePathEvents m) ∧ d'.paths = (d.paths.takeEvents m).2 := by
  have hall : d.paths.Shapes fun _ _ => True := fun _ _ _ => trivial
  cases h with
  | keep hkeep =>
    left
    rw [hkeep.paths]
    exact .refl _ _
  | admits _ _ => exact Or.inl (.refl _ _)
  | @revoke nodeId now =>
    left
    exact (NetworkDomain.revoke_sends (d := d.flushRevokeRotation now) _ nodeId now hall
      (fun _ _ _ => trivial) fun _ _ _ _ _ _ _ => trivial).2
  | @request source dest max now =>
    left
    exact (PathService.request_sends max now hall (fun _ _ => trivial) fun _ _ _ _ => trivial).2
  | @relays roster now =>
    left
    exact (NetworkDomain.applyRelayRoster_sends _ roster now hall (fun _ _ _ _ => trivial)
      (fun _ _ _ _ _ => trivial) fun _ _ _ _ _ => trivial).2
  | take _ => exact Or.inr ⟨_, rfl, rfl⟩
  | sync _ => exact Or.inl (.refl _ _)

/-- What an operation does to the queue of a node. -/
theorem Evolves.queue (h : c.Evolves L o op d d') (m : UInt32) :
    (d.paths.queue m <+: d'.paths.queue m ∨
      op = .unlogged (.takePathEvents m) ∧ d'.paths.queue m = []) ∧
    ((d.paths.queue m).length ≤ pendingEventsMax →
      (d'.paths.queue m).length ≤ pendingEventsMax) := by
  rcases h.posts_or_takes with hsends | ⟨node, rfl, htakes⟩
  · obtain ⟨events, hqueue⟩ := hsends.queue_eq m
    rw [hqueue]
    refine ⟨Or.inl (List.prefix_append _ _), fun hle => ?_⟩
    rw [List.length_append, List.length_take]
    omega
  · rw [htakes, PathService.queue_takeEvents]
    split_ifs with hnode
    · exact ⟨Or.inr ⟨by rw [hnode], rfl⟩, fun _ => Nat.zero_le _⟩
    · exact ⟨Or.inl (List.prefix_refl _), id⟩

def QueuesBounded (c : Coordinator) : Prop :=
  ∀ d ∈ c.domains, ∀ m, (d.paths.queue m).length ≤ pendingEventsMax

theorem queuesBounded_fresh (config : MachineConfig) : (freshCoordinator config).QueuesBounded := by
  rw [QueuesBounded, freshCoordinator_eq]
  refine List.forall_mem_map.mpr fun _ _ m => ?_
  simp [NetworkDomain.new, PathService.queue]

theorem perform_queuesBounded {a : IterOrder × CoordOp} (hc : c.QueuesBounded)
    (h : c.perform L a = some c') : c'.QueuesBounded :=
  perform_forall h hc fun _ _ _ hd hevolves m => (hevolves.queue m).2 (hd m)

/-- In every run, each operation keeps what waits for a node in its place and adds to its end at
most, within the limit, unless it is the one with which the node takes all of it. -/
theorem path_events_in_order (L : Crates) (config : MachineConfig) (o : IterOrder) (op : CoordOp)
    {ops : List (IterOrder × CoordOp)}
    (hrun : Transition.run (perform L) (freshCoordinator config) ops = some c)
    (hstep : c.perform L (o, op) = some c') :
    List.Forall₂ (fun d d' => ∀ m, (d'.paths.queue m).length ≤ pendingEventsMax ∧
      (d.paths.queue m <+: d'.paths.queue m ∨
        op = .unlogged (.takePathEvents m) ∧ d'.paths.queue m = [])) c.domains c'.domains := by
  have hbounded : c.QueuesBounded :=
    Transition.reachable (fun _ _ _ hc h => perform_queuesBounded hc h) (queuesBounded_fresh config)
      hrun
  exact perform_forall₂ hstep fun d hd d' hevolves m =>
    ⟨(hevolves.queue m).2 (hbounded d hd m), (hevolves.queue m).1⟩

/-- Node 1 asks for paths to node 2; then node 2 takes what waits for it. -/
theorem path_events_in_order_lab :
    ∃ c c', Transition.run (perform clearCrates) (freshCoordinator labConfig.machineConfig)
        (labRegistrations ++ [labCommand 4 (.requestPaths 1 2 4 220)]) = some c ∧
      c.perform clearCrates (labOrder, .unlogged (.takePathEvents 2)) = some c' ∧
      List.Forall₂ (fun d d' => ∀ m, (d'.paths.queue m).length ≤ pendingEventsMax ∧
        (d.paths.queue m <+: d'.paths.queue m ∨
          CoordOp.unlogged (.takePathEvents 2) = .unlogged (.takePathEvents m) ∧
            d'.paths.queue m = [])) c.domains c'.domains := by
  have hsome : (Transition.run (perform clearCrates) (freshCoordinator labConfig.machineConfig)
      (labRegistrations ++ [labCommand 4 (.requestPaths 1 2 4 220)])).isSome := by decide +kernel
  obtain ⟨c, hrun⟩ := Option.isSome_iff_exists.mp hsome
  exact ⟨c, _, hrun, rfl, path_events_in_order clearCrates _ labOrder _ hrun rfl⟩

end Coordinator

end Rill
