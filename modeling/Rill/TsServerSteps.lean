import Rill.TsRegistryRuns
import Rill.TsServer

/-!
# Steps of the ts2021 server

A step makes at most one call of the registry. This file says which one, and where a step leaves
the tasks.
-/

namespace Rill
namespace Ts2021

def MapTask.nid : MapTask → ℤ
  | .checked nid _ _ | .updated nid _ | .opened nid _ | .live nid _ _ | .received nid _ _ _
  | .lagged nid _ _ | .ended nid => nid

namespace Server

variable {env : ServerEnv} {s s' : Server} {a : ServerAct} {out : Outcome}

/-- The call of the registry that a step makes, if it comes to it. -/
inductive Calls (s : Server) : ServerAct → RegistryCall → Prop
  | register (machine : Key32) (req : RegisterRequest) (now : UInt64) (nodeKey : Key32)
      (hostname authKey : Text) : Calls s (.register machine req now)
        (.register machine nodeKey hostname authKey now)
  | evict (o : HashOrder ℤ) (hostname : Text) : Calls s (.evict o hostname) (.evict o hostname)
  | update {t : ℕ} {nid : ℤ} {discoKey : Option Key32} {req : MapRequest} (now : UInt64)
      (htask : s.tasks[t]? = some (.checked nid discoKey req)) : Calls s (.update t now)
        (.applyMapUpdate nid discoKey req.endpoints req.routableIps req.preferredDerp now)
  | openStream {t : ℕ} {nid : ℤ} {compress : Bool} (now : UInt64)
      (htask : s.tasks[t]? = some (.updated nid compress)) : Calls s (.openStream t now)
        (.markOnline nid true now)
  | close {t : ℕ} {nid : ℤ} (now : UInt64) (htask : s.tasks[t]? = some (.ended nid)) :
      Calls s (.close t now) (.markOnline nid false now)

def Moved (env : ServerEnv) (s : Server) (a : ServerAct) (r : Registry) : Prop :=
  r = s.registry ∨ ∃ call, s.Calls a call ∧ s.registry.step env.parseIp call = some r

theorem moved_registerNode (machine : Key32) (req : RegisterRequest) (now : UInt64) :
    s.Moved env (.register machine req now) (s.registerNode machine req now).server.registry := by
  rw [registerNode]
  split
  · exact .inl rfl
  · exact .inl rfl
  · rename_i nodeKey _
    dsimp only
    split_ifs
    · exact .inl rfl
    · split
      · exact .inl rfl
      · rename_i out registry hregister
        exact .inr ⟨_, .register machine req now nodeKey _ _,
          congrArg (Option.map Prod.snd) hregister⟩

theorem registry_handleMap (machine : Key32) (req : MapRequest) :
    (s.handleMap machine req).server.registry = s.registry := by
  rw [handleMap]
  split
  · rfl
  · rfl
  · split_ifs
    · rfl
    · split
      · rfl
      · rfl

theorem moved_evictNode (o : HashOrder ℤ) (hostname : Text) :
    s.Moved env (.evict o hostname) (s.evictNode o hostname).server.registry := by
  rw [evictNode]
  split_ifs
  · exact .inl rfl
  · exact .inr ⟨_, .evict o hostname, rfl⟩

theorem registry_applyUpdate (t : ℕ) (nid : ℤ) (discoKey : Option Key32) (req : MapRequest)
    (now : UInt64) : (s.applyUpdate env t nid discoKey req now).server.registry = s.registry ∨
      (s.applyUpdate env t nid discoKey req now).server.registry =
        s.registry.applyMapUpdate env.parseIp nid discoKey req.endpoints req.routableIps
          req.preferredDerp now := by
  rw [applyUpdate]
  split_ifs
  · exact .inl rfl
  · exact .inr rfl
  · exact .inr rfl

theorem registry_sendInitial (t : ℕ) (nid : ℤ) (compress : Bool) (now : UInt64) :
    (s.sendInitial env t nid compress now).server.registry = s.registry ∨
      (s.sendInitial env t nid compress now).server.registry =
        s.registry.markOnline nid true now := by
  rw [sendInitial]
  split_ifs
  · exact .inl rfl
  · split
    · exact .inl rfl
    · dsimp only
      split
      · exact .inr rfl
      · exact .inr rfl

theorem registry_takeEvent {t : ℕ} {nid : ℤ} {compress : Bool} {cursor : ℕ}
    (h : s.takeEvent t nid compress cursor = some out) :
    out.server.registry = s.registry := by
  rw [takeEvent] at h
  split at h
  · nomatch h
  · cases h
    dsimp only
    split_ifs <;> rfl

theorem registry_sendDelta (t : ℕ) (nid : ℤ) (compress : Bool) (cursor : ℕ)
    (event : Event) (now : UInt64) :
    (s.sendDelta env t nid compress cursor event now).server.registry = s.registry := by
  rw [sendDelta]
  split_ifs
  · rfl
  · dsimp only
    split <;> rfl

theorem registry_sendAgain (t : ℕ) (nid : ℤ) (compress : Bool) (cursor : ℕ) (now : UInt64) :
    (s.sendAgain env t nid compress cursor now).server.registry = s.registry := by
  rw [sendAgain]
  split_ifs
  · rfl
  · split
    · rfl
    · dsimp only
      split <;> rfl

theorem registry_endStream (t : ℕ) (nid : ℤ) (now : UInt64) :
    (s.endStream t nid now).server.registry = s.registry ∨
      (s.endStream t nid now).server.registry = s.registry.markOnline nid false now := by
  rw [endStream]
  split_ifs
  · exact .inl rfl
  · exact .inr rfl

theorem moved_of_act (h : s.act env a = some out) : s.Moved env a out.server.registry := by
  cases a with
  | register machine req now =>
    cases h
    exact moved_registerNode machine req now
  | map machine req =>
    cases h
    exact .inl (registry_handleMap machine req)
  | evict o hostname =>
    cases h
    exact moved_evictNode o hostname
  | update t now =>
    rw [act] at h
    split at h
    · rename_i htask
      cases h
      refine (registry_applyUpdate _ _ _ _ _).imp id fun hr => ⟨_, .update now htask, ?_⟩
      rw [hr]
      rfl
    · nomatch h
  | openStream t now =>
    rw [act] at h
    split at h
    · rename_i htask
      cases h
      refine (registry_sendInitial _ _ _ _).imp id fun hr => ⟨_, .openStream now htask, ?_⟩
      rw [hr]
      rfl
    · nomatch h
  | close t now =>
    rw [act] at h
    split at h
    · rename_i htask
      cases h
      refine (registry_endStream _ _ _).imp id fun hr => ⟨_, .close now htask, ?_⟩
      rw [hr]
      rfl
    · nomatch h
  | refuse t =>
    rw [act] at h
    split at h
    · cases h
      exact .inl rfl
    · nomatch h
  | subscribe t =>
    rw [act] at h
    split at h
    · cases h
      refine .inl ?_
      split_ifs <;> rfl
    · nomatch h
  | recv t =>
    rw [act] at h
    split at h
    · exact .inl (registry_takeEvent h)
    · nomatch h
  | push t now =>
    rw [act] at h
    split at h
    · cases h
      exact .inl (registry_sendDelta _ _ _ _ _ _)
    · cases h
      exact .inl (registry_sendAgain _ _ _ _ _)
    · nomatch h
  | keepalive t now =>
    rw [act] at h
    split at h
    · cases h
      refine .inl ?_
      split <;> rfl
    · nomatch h
  | hangUp t =>
    rw [act] at h
    split at h <;> first
      | cases h
        exact .inl rfl
      | cases h

/-- Where a step leaves the tasks: one goes on for its node or ends, or one starts for a node of the
registry. -/
inductive TasksMoved (s : Server) (r : Registry) : Table ℕ MapTask → Prop
  | same : TasksMoved s r s.tasks
  | finish (t : ℕ) : TasksMoved s r (s.tasks.erase t)
  | resume {t : ℕ} {task next : MapTask} (htask : s.tasks[t]? = some task)
      (hnid : next.nid = task.nid) : TasksMoved s r (s.tasks.insert t next)
  | start {nid : ℤ} (hnid : (r.nodes[nid]?).isSome) (discoKey : Option Key32)
      (req : MapRequest) : TasksMoved s r (s.tasks.insert s.nextTask (.checked nid discoKey req))

theorem tasks_registerNode (machine : Key32) (req : RegisterRequest) (now : UInt64) :
    s.TasksMoved (s.registerNode machine req now).server.registry
      (s.registerNode machine req now).server.tasks := by
  rw [registerNode]
  split
  · exact .same
  · exact .same
  · dsimp only
    split_ifs
    · exact .same
    · split
      · exact .same
      · exact .same

theorem tasks_handleMap (machine : Key32) (req : MapRequest) :
    s.TasksMoved (s.handleMap machine req).server.registry
      (s.handleMap machine req).server.tasks := by
  rw [handleMap]
  split
  · exact .same
  · exact .same
  · split_ifs
    · exact .same
    · split
      · exact .same
      · rename_i discoKey _ _ _ nid hfound
        refine .start ?_ discoKey req
        have hany := (Option.filter_eq_some_iff.mp hfound).2
        cases hnode : s.registry.nodes[nid]? with
        | none =>
          rw [Registry.get, hnode] at hany
          nomatch hany
        | some e => rfl

theorem tasks_takeEvent {t : ℕ} {nid : ℤ} {compress : Bool} {cursor : ℕ}
    (htask : s.tasks[t]? = some (.live nid compress cursor))
    (h : s.takeEvent t nid compress cursor = some out) :
    s.TasksMoved out.server.registry out.server.tasks := by
  rw [takeEvent] at h
  split at h
  · nomatch h
  · cases h
    dsimp only
    split_ifs <;> exact .resume htask rfl

theorem tasks_of_act (h : s.act env a = some out) :
    s.TasksMoved out.server.registry out.server.tasks := by
  cases a with
  | register machine req now =>
    cases h
    exact tasks_registerNode machine req now
  | map machine req =>
    cases h
    exact tasks_handleMap machine req
  | evict o hostname =>
    cases h
    rw [evictNode]
    split_ifs <;> exact .same
  | update t now =>
    rw [act] at h
    split at h
    · rename_i htask
      cases h
      rw [applyUpdate]
      split_ifs
      · exact .finish t
      · exact .resume htask rfl
      · exact .finish t
    · nomatch h
  | openStream t now =>
    rw [act] at h
    split at h
    · rename_i htask
      cases h
      rw [sendInitial]
      split_ifs
      · exact .finish t
      · split
        · exact .finish t
        · dsimp only
          split
          · exact .finish t
          · exact .resume htask rfl
    · nomatch h
  | close t now =>
    rw [act] at h
    split at h
    · cases h
      rw [endStream]
      split_ifs <;> exact .finish t
    · nomatch h
  | refuse t =>
    rw [act] at h
    split at h
    · cases h
      exact .finish t
    · nomatch h
  | subscribe t =>
    rw [act] at h
    split at h
    · rename_i htask
      cases h
      split_ifs
      · exact .finish t
      · exact .resume htask rfl
    · nomatch h
  | recv t =>
    rw [act] at h
    split at h
    · rename_i htask
      exact tasks_takeEvent htask h
    · nomatch h
  | push t now =>
    rw [act] at h
    split at h
    · rename_i htask
      cases h
      rw [sendDelta]
      split_ifs
      · exact .finish t
      · dsimp only
        split
        · exact .finish t
        · exact .resume htask rfl
    · rename_i htask
      cases h
      rw [sendAgain]
      split_ifs
      · exact .finish t
      · split
        · exact .finish t
        · dsimp only
          split
          · exact .finish t
          · exact .resume htask rfl
    · nomatch h
  | keepalive t now =>
    rw [act] at h
    split at h
    · cases h
      split
      · exact .finish t
      · exact .same
    · nomatch h
  | hangUp t =>
    rw [act] at h
    split at h
    · rename_i htask
      cases h
      exact .resume htask rfl
    · rename_i htask
      cases h
      exact .resume htask rfl
    · rename_i htask
      cases h
      exact .resume htask rfl
    · rename_i htask
      cases h
      exact .resume htask rfl
    · nomatch h

theorem TasksMoved.forall_task {r : Registry} {tasks : Table ℕ MapTask} (h : s.TasksMoved r tasks)
    {P : MapTask → Prop} (hold : ∀ (t : ℕ) (task : MapTask), s.tasks[t]? = some task → P task)
    (hnext : ∀ (t : ℕ) (task next : MapTask), s.tasks[t]? = some task → next.nid = task.nid →
      P next)
    (hnew : ∀ (nid : ℤ) (discoKey : Option Key32) (req : MapRequest), (r.nodes[nid]?).isSome →
      P (.checked nid discoKey req)) :
    ∀ (t : ℕ) (task : MapTask), tasks[t]? = some task → P task := by
  intro t task htask
  cases h with
  | same => exact hold t task htask
  | finish t' =>
    rw [Table.getElem?_erase] at htask
    split_ifs at htask
    exact hold t task htask
  | resume htask' hstep =>
    rw [Table.getElem?_insert] at htask
    split_ifs at htask
    · cases htask
      exact hnext _ _ _ htask' hstep
    · exact hold t task htask
  | start hnid discoKey req =>
    rw [Table.getElem?_insert] at htask
    split_ifs at htask
    · cases htask
      exact hnew _ _ _ hnid
    · exact hold t task htask

end Server

end Ts2021

end Rill
