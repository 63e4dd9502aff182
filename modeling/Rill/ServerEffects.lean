import Rill.ControlServer

/-!
# What the control server does to its coordinator

A call of a handler changes the coordinator by one operation or not at all, and touches its own
connection only. So what every operation keeps holds in every state of the server. A `Discipline`
collects what is needed to follow the calls of a handler: what holds of the coordinator, how it may
change under a handler, and which calls are allowed then.
-/

namespace Rill

open Interaction (Program)

def ServerCall.operation (env : Surroundings) : ServerCall → Option (IterOrder × CoordOp)
  | .heartbeat nodeId => some (env.order, .unlogged (.heartbeat nodeId env.clock))
  | .setProtocolVersion nodeId version =>
    some (env.order, .unlogged (.setProtocolVersion nodeId version))
  | .setBuildVersion nodeId version => some (env.order, .unlogged (.setBuildVersion nodeId version))
  | .storeTelemetry nodeId view =>
    some (env.order, .unlogged (.storeTelemetry nodeId view env.clock))
  | .applyRouteSync nodeId announced withdrawn =>
    some (env.order, .unlogged (.applyRouteSync nodeId announced withdrawn env.clock))
  | .takePathEvents source => some (env.order, .unlogged (.takePathEvents source))
  | .takeRouteMapPush nodeId => some (env.order, .unlogged (.takeRouteMapPush nodeId))
  | .propose cmd => if env.fault.isSome then none else some (env.order, .command cmd env.logId)
  | _ => none

namespace ControlState
variable {L : ServerCrates} {env : Surroundings} {k : ℕ} {s s' : ControlState} {call : ServerCall}
  {r : call.Reply}

theorem exec_coordinator (h : s.exec L env k call = some (r, s')) :
    call.operation env = none ∧ s'.coordinator = s.coordinator ∨
      ∃ a, call.operation env = some a ∧
        s.coordinator.perform L.toCrates a = some s'.coordinator := by
  cases call with
  | propose cmd =>
    simp only [exec, propose] at h
    rw [ServerCall.operation]
    cases hfault : env.fault with
    | some fault =>
      rw [hfault] at h
      cases h
      exact Or.inl ⟨rfl, rfl⟩
    | none =>
      rw [hfault] at h
      obtain ⟨⟨out, c⟩, happly, hout⟩ := Option.map_eq_some_iff.mp h
      cases hout
      exact Or.inr ⟨_, rfl, congrArg (Option.map Prod.snd) happly⟩
  | acceptHeartbeat =>
    simp only [exec, acceptHeartbeat] at h
    refine Or.inl ⟨rfl, ?_⟩
    split_ifs at h
    · cases h
      rfl
    · cases h
      rfl
  | _ =>
    cases h
    first
      | exact Or.inl ⟨rfl, rfl⟩
      | exact Or.inr ⟨_, rfl, rfl⟩

/-- What a call of the handler of `k` leaves alone: the other connections, and of its own one the
node and the challenge unless the call sets them. -/
structure Frame (k : ℕ) (call : ServerCall) (s s' : ControlState) : Prop where
  accepted : s'.accepted = s.accepted
  others : ∀ j, j ≠ k → s'.connections[j]? = s.connections[j]?
  kept : s.connections[k]?.isSome → s'.connections[k]?.isSome
  registered : (∀ n, call ≠ .setRegistered n) → s'.registered k = s.registered k
  challenge : (∀ ch, call ≠ .setChallenge ch) →
    (s'.connection k).challenge = (s.connection k).challenge

theorem frame_of_eq (call : ServerCall) (haccepted : s'.accepted = s.accepted)
    (h : s'.connections = s.connections) : s.Frame k call s' := by
  have hconn : ∀ j, s'.connection j = s.connection j := fun j => by
    rw [connection, connection, h]
  exact ⟨haccepted, fun j _ => by rw [h], fun hk => by rwa [h],
    fun _ => congrArg ConnectionState.registered (hconn k),
    fun _ => congrArg ConnectionState.challenge (hconn k)⟩

theorem connection_updateConnection (s : ControlState) (k j : ℕ)
    (f : ConnectionState → ConnectionState) :
    (s.updateConnection k f).connection j =
      if k = j then f (s.connection k) else s.connection j := by
  rw [connection, updateConnection, Table.getElem?_insert]
  split_ifs
  · rfl
  · rfl

theorem frame_updateConnection {f : ConnectionState → ConnectionState}
    (hregistered : (∀ n, call ≠ .setRegistered n) → ∀ c, (f c).registered = c.registered)
    (hchallenge : (∀ ch, call ≠ .setChallenge ch) → ∀ c, (f c).challenge = c.challenge) :
    s.Frame k call (s.updateConnection k f) := by
  refine ⟨rfl, fun j hj => ?_, fun _ => ?_, fun hcall => ?_, fun hcall => ?_⟩
  · rw [updateConnection, Table.getElem?_insert_of_ne hj.symm]
  · rw [updateConnection, Table.getElem?_insert_self]
    rfl
  · rw [registered, connection_updateConnection, if_pos rfl]
    exact hregistered hcall _
  · rw [connection_updateConnection, if_pos rfl]
    exact hchallenge hcall _

theorem exec_frame (h : s.exec L env k call = some (r, s')) : s.Frame k call s' := by
  cases call with
  | propose cmd =>
    simp only [exec, propose] at h
    cases hfault : env.fault with
    | some fault =>
      rw [hfault] at h
      cases h
      exact frame_of_eq _ rfl rfl
    | none =>
      rw [hfault] at h
      obtain ⟨⟨out, c⟩, happly, hout⟩ := Option.map_eq_some_iff.mp h
      cases hout
      exact frame_of_eq _ rfl rfl
  | acceptHeartbeat =>
    simp only [exec, acceptHeartbeat] at h
    split_ifs at h
    · cases h
      exact frame_of_eq _ rfl rfl
    · cases h
      exact frame_updateConnection (fun _ _ => rfl) fun _ _ => rfl
  | setChallenge ch =>
    cases h
    exact frame_updateConnection (fun _ _ => rfl) fun hcall => absurd rfl (hcall ch)
  | setRegistered nodeId =>
    cases h
    exact frame_updateConnection (fun hcall => absurd rfl (hcall nodeId)) fun _ _ => rfl
  | _ =>
    cases h
    exact frame_of_eq _ rfl rfl

/-- Connections are numbered in the order they are accepted in. -/
def Numbered (s : ControlState) : Prop := ∀ j, s.connections[j]?.isSome → j < s.accepted

theorem Frame.numbered (h : s.Frame k call s') (hk : s.connections[k]?.isSome)
    (hs : s.Numbered) : s'.Numbered := by
  intro j hj
  rw [h.accepted]
  by_cases hjk : j = k
  · exact hjk ▸ hs k hk
  · rw [h.others j hjk] at hj
    exact hs j hj

end ControlState

namespace ControlSystem
variable {L : ServerCrates} {s s' : ControlSystem}

def coordinator (s : ControlSystem) : Coordinator := s.world.store.coordinator

def registered (s : ControlSystem) (k : ℕ) : Option UInt32 := s.world.store.registered k

def operation (s : ControlSystem) : ControlAct → Option (IterOrder × CoordOp)
  | .start _ _ => none
  | .advance env =>
    match s.task with
    | some (_, .call call _) => call.operation env
    | _ => none
  | .outside .accept => none
  | .outside (.operate o op) => some (o, op)

abbrev reach (L : ServerCrates) (c : Coordinator) (acts : List ControlAct) : Option ControlSystem :=
  Transition.run (controlService L).step (init c) acts

/-- Every step of such a run is taken where `P` holds of it. -/
abbrev Always (L : ServerCrates) (c : Coordinator) (P : ControlSystem → ControlAct → Prop)
    (acts : List ControlAct) : Prop :=
  Transition.Meets (controlService L).step P (init c) acts

/-- The operation of a step, if it performs one, satisfies `P`. -/
def Operates (P : Coordinator → IterOrder × CoordOp → Prop) (s : ControlSystem) (a : ControlAct) :
    Prop := ∀ op ∈ s.operation a, P s.coordinator op

instance {P : Coordinator → IterOrder × CoordOp → Prop} [∀ c op, Decidable (P c op)]
    (s : ControlSystem) (a : ControlAct) : Decidable (s.Operates P a) := by
  unfold Operates
  infer_instance

def writes (s : ControlSystem) : ControlAct → Option (ℕ × ServerMessage)
  | .advance _ =>
    match s.task with
    | some (k, .call (.write msg) _) => some (k, msg)
    | _ => none
  | _ => none

/-- The node a step registers its connection as, with the connection. -/
def registers (s : ControlSystem) : ControlAct → Option (ℕ × UInt32)
  | .advance _ =>
    match s.task with
    | some (k, .call (.setRegistered nodeId) _) => some (k, nodeId)
    | _ => none
  | _ => none

/-- Steps of others while a message is handled. -/
def meanwhile (s : ControlSystem) : ControlAct → Bool
  | .outside _ => s.task.isSome
  | _ => false

theorem writes_eq {a : ControlAct} {k : ℕ} {msg : ServerMessage} (h : s.writes a = some (k, msg)) :
    ∃ next, s.task = some (k, .call (.write msg) next) := by
  cases a with
  | start j m => nomatch h
  | outside e => nomatch h
  | advance env =>
    rw [writes] at h
    split at h
    · next j msg' next htask =>
      cases h
      exact ⟨next, htask⟩
    · nomatch h

theorem registers_eq {a : ControlAct} {k : ℕ} {n : UInt32} (h : s.registers a = some (k, n)) :
    ∃ next, s.task = some (k, .call (.setRegistered n) next) := by
  cases a with
  | start j m => nomatch h
  | outside e => nomatch h
  | advance env =>
    rw [registers] at h
    split at h
    · next j m next htask =>
      cases h
      exact ⟨next, htask⟩
    · nomatch h

end ControlSystem

/-- What is followed through the handlers of a server: an invariant of the coordinator under guarded
operations, how the coordinator may change while a handler runs, and what is asked of a call. -/
structure Discipline (L : ServerCrates) where
  inv : Coordinator → Prop
  guard : Coordinator → IterOrder × CoordOp → Prop
  inv_step : ∀ c a c', inv c → guard c a → c.perform L.toCrates a = some c' → inv c'
  near : Coordinator → Coordinator → Prop
  calm : Coordinator → IterOrder × CoordOp → Prop
  near_refl : ∀ c, near c c
  near_trans : ∀ c₁ c₂ c₃, near c₁ c₂ → near c₂ c₃ → near c₁ c₃
  near_step : ∀ c a c', inv c → guard c a → calm c a → c.perform L.toCrates a = some c' → near c c'
  allowed : ℕ → ControlState → ServerCall → Prop

namespace Discipline
variable {L : ServerCrates} (D : Discipline L)

def rules (k : ℕ) : Interaction.Rules ServerCall ServerCall.Reply ControlWorld where
  rely w w' := D.inv w'.store.coordinator ∧ D.near w.store.coordinator w'.store.coordinator ∧
    w'.store.connections[k]? = w.store.connections[k]?
  can w call r w' := D.inv w'.store.coordinator ∧
    ∃ env, w.store.exec L env k call = some (r, w'.store) ∧
    ∀ a, call.operation env = some a → D.guard w.store.coordinator a
  allowed w call := D.allowed k w.store call

/-- The steps of a run that the discipline covers. -/
def Guard (s : ControlSystem) (a : ControlAct) : Prop :=
  ∀ op, s.operation a = some op →
    D.guard s.coordinator op ∧ (s.meanwhile a = true → D.calm s.coordinator op)

/-- Every handler is safe, whatever the message and the connection. -/
def Holds : Prop :=
  ∀ k msg (w : ControlWorld), D.inv w.store.coordinator →
    (Handler.handleMessage L msg).Safe (D.rules k) (fun _ _ => True) w

variable {D}

theorem outside_step {locked : Bool} {s s' : ControlState} {e : OutsideStep}
    (hs : s.Numbered) (h : (controlService L).outside locked s e = some s') :
    s'.Numbered ∧ (∀ k : ℕ, s.connections[k]?.isSome → s'.connections[k]? = s.connections[k]?) ∧
      (s'.coordinator = s.coordinator ∨ ∃ o op, e = .operate o op ∧
        s.coordinator.perform L.toCrates (o, op) = some s'.coordinator) := by
  cases e with
  | accept =>
    cases h
    have hne : ∀ k : ℕ, s.connections[k]?.isSome → s.accepted ≠ k := fun k hk => (hs k hk).ne'
    refine ⟨fun j hj => ?_, fun k hk => Table.getElem?_insert_of_ne (hne k hk), Or.inl rfl⟩
    by_cases hj' : s.accepted = j
    · exact hj' ▸ Nat.lt_succ_self _
    · rw [Table.getElem?_insert_of_ne hj'] at hj
      exact (hs j hj).trans (Nat.lt_succ_self _)
  | operate o op =>
    simp only [controlService] at h
    split_ifs at h
    obtain ⟨c, hc, rfl⟩ := Option.map_eq_some_iff.mp h
    exact ⟨hs, fun _ _ => rfl, Or.inr ⟨o, op, rfl, hc⟩⟩

/-- The discipline as a contract of the service. -/
def contract (hD : D.Holds) : Interaction.Contract (controlService L) where
  guard := D.Guard
  inv w := w.store.Numbered ∧ D.inv w.store.coordinator
  rules k := (D.rules k).under fun w => w.store.connections[k]?.isSome
  refl k w hw _ := ⟨hw.2, D.near_refl _, rfl⟩
  trans k w₁ w₂ w₃ h h' hk := by
    obtain ⟨-, hnear, hconn⟩ := h hk
    obtain ⟨hinv, hnear', hconn'⟩ := h' ((congrArg Option.isSome hconn).trans hk)
    exact ⟨hinv, D.near_trans _ _ _ hnear hnear', hconn'.trans hconn⟩
  outside s e store hs hguard h := by
    obtain ⟨hnumbered, hconn, hsame | ⟨o, op, rfl, hperform⟩⟩ := outside_step hs.1 h
    · refine ⟨⟨hnumbered, ?_⟩, fun k p htask hk => ⟨?_, ?_, hconn k hk⟩⟩
      · exact hsame ▸ hs.2
      · exact hsame ▸ hs.2
      · exact hsame ▸ D.near_refl _
    · obtain ⟨hop, hcalm⟩ := hguard (o, op) rfl
      have hinv := D.inv_step _ _ _ hs.2 hop hperform
      refine ⟨⟨hnumbered, hinv⟩, fun k p htask hk => ⟨hinv, ?_, hconn k hk⟩⟩
      refine D.near_step _ _ _ hs.2 hop (hcalm ?_) hperform
      rw [ControlSystem.meanwhile, htask]
      rfl
  start w k m hw _ hready := by
    refine ⟨hw, .under (fun w w' hk hrely => ?_) (fun w call r w' hk hcan => ?_) hready
      (hD k m _ hw.2)⟩
    · rw [hrely.2.2]
      exact hk
    · obtain ⟨-, env, hexec, -⟩ := hcan
      exact (ControlState.exec_frame hexec).kept hk
  call w k call next env r store hw hguard hallowed h := by
    have hinv : D.inv store.coordinator := by
      rcases ControlState.exec_coordinator h with ⟨-, hsame⟩ | ⟨a, ha, hperform⟩
      · exact hsame ▸ hw.2
      · exact D.inv_step _ _ _ hw.2 (hguard a ha).1 hperform
    exact ⟨⟨(ControlState.exec_frame h).numbered hallowed.2 hw.1, hinv⟩,
      hinv, env, h, fun a ha => (hguard a ha).1⟩
  finish w k e hw := by
    simp only [controlService]
    split_ifs
    · refine ⟨fun j hj => hw.1 j ?_, hw.2⟩
      rw [Table.getElem?_erase] at hj
      split_ifs at hj with heq
      · nomatch hj
      · exact hj
    · exact hw

/-- In a run from a server without connections whose steps are all covered, every call is allowed
where it is made. -/
theorem meets (hD : D.Holds) {c : Coordinator} (hc : D.inv c) {acts : List ControlAct}
    (h : ControlSystem.Always L c D.Guard acts) :
    ControlSystem.Always L c (fun s _ => ∀ k call next, s.task = some (k, .call call next) →
      D.allowed k s.world.store call) acts := by
  have hgood : (contract hD).Good (ControlSystem.init c) := by
    refine ⟨⟨fun j hj => ?_, hc⟩, fun _ _ h => nomatch h⟩
    simp [ControlSystem.init] at hj
  exact Transition.meets_imp (fun s _ hs k call next htask => (hs k call next htask).1)
    ((contract hD).meets hgood h)

end Discipline

end Rill
