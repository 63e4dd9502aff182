import Rill.Domain

/-!
# Leases

`liveness.rs` keeps the heartbeats of all nodes in a table and the nodes that are offline in a list.
A lease is what this means for one node. The calls change each lease by itself, in whatever order a
sweep comes by the nodes, and report the leases that they turn.
-/

namespace Rill

inductive LivenessCall where
  | heartbeat (nodeId : UInt32) (now : UInt64)
  | sweep (o : HashOrder UInt32) (now : UInt64)
  | markOffline (nodeId : UInt32)
  | remove (nodeId : UInt32)

/-- When a node was last seen, and whether it is offline. -/
structure Lease where
  seen : Option UInt64 := none
  offline : Bool := false

namespace Lease

def ranOut (s : Lease) (now : UInt64) : Bool :=
  s.seen.any fun seen => leaseExpirySecs < saturatingSub64 now seen

def apply (id : UInt32) (s : Lease) : LivenessCall → Lease
  | .heartbeat nodeId now => if nodeId = id then ⟨some now, false⟩ else s
  | .sweep _ now => { s with offline := s.offline || s.ranOut now }
  | .markOffline nodeId => if nodeId = id then { s with offline := true } else s
  | .remove nodeId => if nodeId = id then {} else s

end Lease

namespace Liveness
variable (l : Liveness)

def call : LivenessCall → Liveness
  | .heartbeat nodeId now => (l.heartbeat nodeId now).2
  | .sweep o now => (l.sweep o now).2
  | .markOffline nodeId => (l.markOffline nodeId).2
  | .remove nodeId => l.remove nodeId

/-- The nodes that the answer of a call names; each of them gives the netmap a new version. -/
def reported : LivenessCall → List UInt32
  | .heartbeat nodeId now => if (l.heartbeat nodeId now).1 then [nodeId] else []
  | .sweep o now => (l.sweep o now).1
  | .markOffline nodeId => if (l.markOffline nodeId).1 then [nodeId] else []
  | .remove _ => []

def lease (id : UInt32) : Lease := ⟨l.lastSeen[id]?, l.isOffline id⟩

theorem mem_expired (o : HashOrder UInt32) (now : UInt64) (id : UInt32) :
    id ∈ l.expired o now ↔ (l.lease id).ranOut now = true ∧ l.isOffline id = false := by
  simp only [expired, List.mem_filter, List.mem_map, Prod.exists, exists_and_right, exists_eq_right,
    HashOrder.mem_entries, Lease.ranOut, lease, Option.any_eq_true, Bool.not_eq_true',
    decide_eq_true_eq]

theorem nodup_expired (o : HashOrder UInt32) (now : UInt64) : (l.expired o now).Nodup := by
  refine List.Nodup.filter _ (List.Nodup.sublist (List.filter_sublist.map Prod.fst) ?_)
  rw [HashOrder.map_fst_entries]
  exact o.nodup_keys _

theorem contains_filter_ne (ids : List UInt32) (nodeId id : UInt32) :
    (ids.filter fun i => i != nodeId).contains id = (ids.contains id && id != nodeId) := by
  rw [Bool.eq_iff_iff]
  simp

/-- Each call changes a lease by itself. -/
theorem lease_call (a : LivenessCall) (id : UInt32) :
    (l.call a).lease id = (l.lease id).apply id a := by
  cases a with
  | heartbeat nodeId now =>
    simp only [call, heartbeat, lease, isOffline, contains_filter_ne, Table.getElem?_insert,
      Lease.apply]
    by_cases h : nodeId = id
    · simp [h]
    · simp [h, Ne.symm h]
  | sweep o now =>
    have hoffline : (l.sweep o now).2.isOffline id =
        (l.isOffline id || (l.lease id).ranOut now) := by
      rw [Bool.eq_iff_iff, isOffline, sweep, List.contains_iff_mem, List.mem_append, mem_expired,
        ← List.contains_iff_mem, ← isOffline]
      cases l.isOffline id <;> simp
    rw [call, lease, hoffline]
    rfl
  | markOffline nodeId =>
    simp only [call, markOffline, Lease.apply]
    split_ifs with h hid hid
    · rw [lease, ← hid, h]
    · rfl
    · simp [lease, isOffline, hid]
    · simp [lease, isOffline, Ne.symm hid]
  | remove nodeId =>
    simp only [call, remove, lease, isOffline, contains_filter_ne, Table.getElem?_erase,
      Lease.apply]
    by_cases h : nodeId = id
    · simp [h]
    · simp [h, Ne.symm h]

theorem nodup_call (h : l.offline.Nodup) (a : LivenessCall) : (l.call a).offline.Nodup := by
  cases a with
  | heartbeat nodeId now => exact h.filter _
  | sweep o now =>
    refine List.nodup_append.mpr ⟨h, l.nodup_expired o now, fun id hid id' hid' heq => ?_⟩
    have hnot := ((l.mem_expired o now id').mp hid').2
    rw [isOffline, ← heq, List.contains_iff_mem.mpr hid] at hnot
    cases hnot
  | markOffline nodeId =>
    simp only [call, markOffline]
    split_ifs with hid
    · exact h
    · rw [isOffline, List.contains_iff_mem] at hid
      exact h.append (List.nodup_singleton _) (by simpa using hid)
  | remove nodeId => exact h.filter _

/-- What a call reports are the leases that it turns, except for the one it removes. -/
theorem mem_reported (a : LivenessCall) (id : UInt32) : id ∈ l.reported a ↔
    (l.call a).isOffline id ≠ l.isOffline id ∧ a ≠ .remove id := by
  have hcall : (l.call a).isOffline id = ((l.lease id).apply id a).offline :=
    congrArg Lease.offline (l.lease_call a id)
  have hlease : (l.lease id).offline = l.isOffline id := rfl
  rw [hcall]
  cases a with
  | heartbeat nodeId now =>
    by_cases h : nodeId = id <;> cases hoff : l.isOffline nodeId <;>
      simp_all [reported, heartbeat, Lease.apply, eq_comm (a := id)]
  | sweep o now =>
    rw [reported, sweep, mem_expired, Lease.apply, hlease]
    cases l.isOffline id <;> simp
  | markOffline nodeId =>
    by_cases h : nodeId = id <;> cases hoff : l.isOffline nodeId <;>
      simp_all [reported, markOffline, Lease.apply, eq_comm (a := id)]
  | remove nodeId =>
    by_cases h : nodeId = id <;> simp [reported, Lease.apply, hlease, h]

theorem lease_foldl (calls : List LivenessCall) (id : UInt32) :
    (calls.foldl call l).lease id = calls.foldl (Lease.apply id) (l.lease id) := by
  induction calls generalizing l with
  | nil => rfl
  | cons a calls ih => rw [List.foldl_cons, List.foldl_cons, ih, lease_call]

theorem nodup_foldl (h : l.offline.Nodup) (calls : List LivenessCall) :
    (calls.foldl call l).offline.Nodup := by
  induction calls generalizing l with
  | nil => exact h
  | cons a calls ih => exact ih _ (l.nodup_call h a)

/-- After any calls no node is offline twice, the lease of a node is what the calls make of it
alone, and the next call reports the nodes that it turns offline or back. -/
theorem liveness_by_lease (calls : List LivenessCall) (a : LivenessCall) (id : UInt32) :
    (calls.foldl call {}).offline.Nodup ∧
    (calls.foldl call {}).lease id = calls.foldl (Lease.apply id) {} ∧
    (id ∈ (calls.foldl call {}).reported a ↔
      ((calls.foldl call {}).call a).isOffline id ≠ (calls.foldl call {}).isOffline id ∧
        a ≠ .remove id) := by
  refine ⟨nodup_foldl {} List.nodup_nil calls, ?_, mem_reported _ a id⟩
  rw [lease_foldl]
  simp [lease, isOffline]

end Liveness

end Rill
