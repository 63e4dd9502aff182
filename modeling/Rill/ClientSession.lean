import Rill.Transition

/-!
# The control session of a node

`rill-core/src/control/session.rs`: a node is not registered, registered, or on its way back after
it has lost the connection. A revocation of its own id takes it out and is kept in a list, which a
later registration is not checked against: a node is back with an id that was revoked once a
registration with that id arrives in the unregistered state, or the id is restored.
-/

namespace Rill

inductive SessionState where
  | unregistered
  | registered (nodeId : UInt32)
  | reconnecting (nodeId : UInt32)
  deriving DecidableEq

inductive SessionEvent where
  | registerOk (nodeId : UInt32)
  | registerFailed
  | linkLost
  | challengeOk
  | challengeFailed
  | revoked (nodeId : UInt32)
  deriving DecidableEq

inductive SessionError where
  | invalidTransition
  deriving DecidableEq

structure ClientSession where
  state : SessionState := .unregistered
  revokeList : Finset UInt32 := ∅
  deriving DecidableEq

namespace ClientSession

def isRevoked (s : ClientSession) (nodeId : UInt32) : Bool := nodeId ∈ s.revokeList

/-- The id that a session has in the states `Registered` and `Reconnecting`. -/
def held (s : ClientSession) : Option UInt32 :=
  match s.state with
  | .unregistered => none
  | .registered nodeId | .reconnecting nodeId => some nodeId

def restore (s : ClientSession) (nodeId : UInt32) : ClientSession :=
  { s with state := .reconnecting nodeId }

def revoke (s : ClientSession) (nodeId : UInt32) : ClientSession :=
  { s with revokeList := insert nodeId s.revokeList }

def handle (s : ClientSession) (ev : SessionEvent) : Except SessionError Unit × ClientSession :=
  match s.state, ev with
  | .unregistered, .registerOk nodeId => (.ok (), { s with state := .registered nodeId })
  | .unregistered, .registerFailed => (.ok (), s)
  | .registered nodeId, .linkLost => (.ok (), { s with state := .reconnecting nodeId })
  | .reconnecting nodeId, .challengeOk => (.ok (), { s with state := .registered nodeId })
  | .reconnecting _, .challengeFailed => (.ok (), s)
  | .reconnecting nodeId, .registerOk newId =>
    if nodeId = newId then (.ok (), { s with state := .registered newId })
    else (.error .invalidTransition, s)
  | .registered nodeId, .registerOk newId =>
    if nodeId = newId then (.ok (), s) else (.error .invalidTransition, s)
  | .registered selfId, .revoked nodeId | .reconnecting selfId, .revoked nodeId =>
    if selfId = nodeId then (.ok (), { s.revoke nodeId with state := .unregistered })
    else (.ok (), s.revoke nodeId)
  | .unregistered, .revoked nodeId => (.ok (), s.revoke nodeId)
  | _, .challengeOk | _, .challengeFailed | _, .linkLost | _, .registerFailed =>
    (.error .invalidTransition, s)

inductive Act where
  | event (ev : SessionEvent)
  | restore (nodeId : UInt32)
  deriving DecidableEq

def step (s : ClientSession) : Act → Option ClientSession
  | .event ev => some (s.handle ev).2
  | .restore nodeId => some (s.restore nodeId)

/-- From its revocation on, the id is not held again. -/
def StaysOut (id : UInt32) (acts : List Act) : Prop :=
  ∀ before after s, acts = before ++ .event (.revoked id) :: after →
    Transition.run step {} before = some s → s.held = some id →
    ∀ pre t, pre <+: after → Transition.run step (s.handle (.revoked id)).2 pre = some t →
      t.held ≠ some id

/-- The step does not bring the id in: it is neither restored nor registered afresh. -/
def Avoids (id : UInt32) (s : ClientSession) (a : Act) : Prop :=
  a ≠ .restore id ∧ (s.state = .unregistered → a ≠ .event (.registerOk id))

/-- From its revocation on, no step brings the id in. -/
def AvoidedAfter (id : UInt32) (acts : List Act) : Prop :=
  ∀ before after s, acts = before ++ .event (.revoked id) :: after →
    Transition.run step {} before = some s → s.held = some id →
    Transition.Meets step (Avoids id) (s.handle (.revoked id)).2 after

theorem held_handle (s : ClientSession) (ev : SessionEvent) :
    (s.handle ev).2.held = s.held ∨ (s.handle ev).2.held = none ∨
      ∃ id, s.state = .unregistered ∧ ev = .registerOk id ∧ (s.handle ev).2.held = some id := by
  obtain ⟨state, list⟩ := s
  cases state with
  | unregistered =>
    cases ev with
    | registerOk id => exact .inr (.inr ⟨id, rfl, rfl, rfl⟩)
    | registerFailed | linkLost | challengeOk | challengeFailed | revoked => exact .inl rfl
  | registered selfId =>
    cases ev with
    | registerOk newId =>
      simp only [handle]
      split_ifs <;> exact .inl rfl
    | revoked newId =>
      simp only [handle]
      split_ifs
      · exact .inr (.inl rfl)
      · exact .inl rfl
    | registerFailed | linkLost | challengeOk | challengeFailed => exact .inl rfl
  | reconnecting selfId =>
    cases ev with
    | registerOk newId =>
      simp only [handle]
      split_ifs with h
      · exact .inl (congrArg some h.symm)
      · exact .inl rfl
    | revoked newId =>
      simp only [handle]
      split_ifs
      · exact .inr (.inl rfl)
      · exact .inl rfl
    | registerFailed | linkLost | challengeOk | challengeFailed => exact .inl rfl

theorem held_registerOk {s : ClientSession} (h : s.state = .unregistered) (id : UInt32) :
    (s.handle (.registerOk id)).2.held = some id := by
  simp [handle, h, held]

/-- A session that does not hold an id comes to hold it exactly by a step that brings it in. -/
theorem held_step_iff {id : UInt32} {s t : ClientSession} {a : Act} (hs : s.held ≠ some id)
    (ht : step s a = some t) : t.held ≠ some id ↔ Avoids id s a := by
  cases a with
  | restore nodeId =>
    cases ht
    simp [Avoids, restore, held]
  | event ev =>
    cases ht
    rcases held_handle s ev with hsame | hnone | ⟨newId, hstate, rfl, hnew⟩
    · rw [hsame]
      refine iff_of_true hs ⟨by simp, fun hstate hev => ?_⟩
      obtain rfl := Act.event.inj hev
      exact hs (hsame.symm.trans (held_registerOk hstate id))
    · rw [hnone]
      refine iff_of_true (by simp) ⟨by simp, fun hstate hev => ?_⟩
      obtain rfl := Act.event.inj hev
      cases hnone.symm.trans (held_registerOk hstate id)
    · rw [hnew]
      simp [Avoids, hstate]

theorem held_revoked {s : ClientSession} {id : UInt32} (h : s.held = some id) :
    (s.handle (.revoked id)).2.held = none := by
  obtain ⟨state, list⟩ := s
  cases state with
  | unregistered => cases h
  | registered selfId =>
    cases h
    simp [handle, held]
  | reconnecting selfId =>
    cases h
    simp [handle, held]

/-- A revoked id is out for good exactly if nothing brings it in again. -/
theorem revoked_stays_out_iff (id : UInt32) (acts : List Act) :
    StaysOut id acts ↔ AvoidedAfter id acts := by
  have hpart {s : ClientSession} (hheld : s.held = some id) (after : List Act) :=
    @Transition.meets_iff_prefixes _ _ step (Avoids id) (fun t => t.held ≠ some id)
      (fun _ _ _ => held_step_iff) (fun s a hstuck => by cases a <;> cases hstuck) after
      (s.handle (.revoked id)).2 (by simp [held_revoked hheld])
  constructor
  · intro h before after s hacts hrun hheld
    exact (hpart hheld after).mpr (h before after s hacts hrun hheld)
  · intro h before after s hacts hrun hheld
    exact (hpart hheld after).mp (h before after s hacts hrun hheld)

/-- A node registered as 7 is revoked, and registered as 7 by the next response. -/
theorem revoked_returns :
    Transition.run step {} [.event (.registerOk 7), .event (.revoked 7)] =
        some { state := .unregistered, revokeList := {7} } ∧
      ∃ t, Transition.run step {} [.event (.registerOk 7), .event (.revoked 7),
          .event (.registerOk 7)] = some t ∧ t.state = .registered 7 ∧ t.isRevoked 7 = true :=
  ⟨by decide, { state := .registered 7, revokeList := {7} }, by decide, rfl, by decide⟩

end ClientSession

end Rill
