import Rill.Bytes
import Rill.Transition
import Rill.TsServer

/-!
# The DERP hub of the ts2021 server

`rill-ts2021/src/server/derp.rs`: a session puts its channel into the hub under the key of its
client, packets for a key go into the channel the hub has for it, and a session that ends removes
its key, whose channel that is or not. So a key that reconnects before its old session ends is lost
to the hub when that ends.
-/

namespace Rill
namespace Derp

def frameSendPacket : UInt8 := 0x04
def frameRecvPacket : UInt8 := 0x05
def framePing : UInt8 := 0x12
def framePong : UInt8 := 0x13

/-- The frames a channel holds. -/
def channelCapacity : ℕ := 64

/-- `build_recv_frame` and `build_pong_frame`. -/
def buildFrame (kind : UInt8) (payload : Bytes) : Bytes :=
  kind :: beBytes 4 (payload.length % 2 ^ 32) ++ payload

/-- The sessions are numbered in the order of their start; the channel of a session has its number
and is there as long as the session is. -/
structure Hub where
  hub : Table Key32 ℕ := ∅
  sessions : Table ℕ Key32 := ∅
  channels : Table ℕ (List Bytes) := ∅
  next : ℕ := 0

inductive HubAct where
  | start (key : Key32)
  | frame (session : ℕ) (kind : UInt8) (payload : Bytes)
  | write (session : ℕ)
  | finish (session : ℕ)

namespace Hub
variable (s : Hub)

/-- `try_send` on the channel of a key; a full or missing channel drops the frame. -/
def trySend (key : Key32) (frame : Bytes) : Hub :=
  match s.hub[key]? with
  | none => s
  | some n =>
    match s.channels[n]? with
    | none => s
    | some queue =>
      if queue.length < channelCapacity then
        { s with channels := s.channels.insert n (queue ++ [frame]) }
      else s

def relay (key : Key32) (kind : UInt8) (payload : Bytes) : Hub :=
  if kind = frameSendPacket ∧ 32 < payload.length then
    match Ts2021.toKey32 (payload.take 32) with
    | none => s
    | some dst => s.trySend dst (buildFrame frameRecvPacket (key.toList ++ payload.drop 32))
  else if kind = framePing ∧ 8 ≤ payload.length then
    s.trySend key (buildFrame framePong (payload.take 8))
  else s

def step : HubAct → Option Hub
  | .start key => some
      { hub := s.hub.insert key s.next
        sessions := s.sessions.insert s.next key
        channels := s.channels.insert s.next []
        next := s.next + 1 }
  | .frame n kind payload => (s.sessions[n]?).map fun key => s.relay key kind payload
  | .write n => (s.channels[n]?).map fun queue =>
      { s with channels := s.channels.insert n queue.tail }
  | .finish n => (s.sessions[n]?).map fun key =>
      { s with
        hub := s.hub.erase key
        sessions := s.sessions.erase n
        channels := s.channels.erase n }

variable {s} {s' : Hub} {a : HubAct}

/-- The last session of the key that was started and is live. -/
def Latest (s : Hub) (key : Key32) (n : ℕ) : Prop :=
  s.sessions[n]? = some key ∧ ∀ m, s.sessions[m]? = some key → m ≤ n

/-- A key with a live session is mapped to the channel of the last one. -/
def Routed (s : Hub) : Prop := ∀ key n, s.Latest key n → s.hub[key]? = some n

/-- The step does not end a session of a key that has another one. -/
def EndsAlone (s : Hub) : HubAct → Prop
  | .finish n => ∀ key, s.sessions[n]? = some key → ∀ m ≠ n, s.sessions[m]? ≠ some key
  | _ => True

def Fresh (s : Hub) : Prop := ∀ m key, s.sessions[m]? = some key → m < s.next

theorem trySend_eq (s : Hub) (key : Key32) (frame : Bytes) :
    ∃ channels, s.trySend key frame = { s with channels } := by
  rw [trySend]
  split
  · exact ⟨s.channels, rfl⟩
  · split
    · exact ⟨s.channels, rfl⟩
    · split_ifs
      · exact ⟨_, rfl⟩
      · exact ⟨s.channels, rfl⟩

theorem relay_eq (s : Hub) (key : Key32) (kind : UInt8) (payload : Bytes) :
    ∃ channels, s.relay key kind payload = { s with channels } := by
  rw [relay]
  split_ifs
  · split
    · exact ⟨s.channels, rfl⟩
    · exact trySend_eq _ _ _
  · exact trySend_eq _ _ _
  · exact ⟨s.channels, rfl⟩

theorem step_cases (h : s.step a = some s') :
    (s'.hub = s.hub ∧ s'.sessions = s.sessions ∧ s'.next = s.next ∧ s.EndsAlone a) ∨
      (∃ key, s'.hub = s.hub.insert key s.next ∧ s'.sessions = s.sessions.insert s.next key ∧
        s'.next = s.next + 1 ∧ s.EndsAlone a) ∨
      ∃ n key, a = .finish n ∧ s.sessions[n]? = some key ∧ s'.hub = s.hub.erase key ∧
        s'.sessions = s.sessions.erase n ∧ s'.next = s.next := by
  cases a with
  | start key =>
    cases h
    exact .inr (.inl ⟨key, rfl, rfl, rfl, trivial⟩)
  | frame n kind payload =>
    obtain ⟨key, -, rfl⟩ := Option.map_eq_some_iff.mp h
    obtain ⟨channels, hrelay⟩ := relay_eq s key kind payload
    rw [hrelay]
    exact .inl ⟨rfl, rfl, rfl, trivial⟩
  | write n =>
    obtain ⟨queue, -, rfl⟩ := Option.map_eq_some_iff.mp h
    exact .inl ⟨rfl, rfl, rfl, trivial⟩
  | finish n =>
    obtain ⟨key, hkey, rfl⟩ := Option.map_eq_some_iff.mp h
    exact .inr (.inr ⟨n, key, rfl, hkey, rfl, rfl, rfl⟩)

theorem Fresh.step (h : s.Fresh) (hstep : s.step a = some s') : s'.Fresh := by
  intro m key' hm
  rcases step_cases hstep with ⟨-, hsessions, hnext, -⟩ | ⟨key, -, hsessions, hnext, -⟩ |
    ⟨n, key, -, -, -, hsessions, hnext⟩
  · rw [hsessions] at hm
    exact hnext ▸ h m key' hm
  · rw [hsessions, Table.getElem?_insert] at hm
    rw [hnext]
    split_ifs at hm with hn
    · exact hn ▸ Nat.lt_succ_self _
    · exact Nat.lt_succ_of_lt (h m key' hm)
  · rw [hsessions, Table.getElem?_erase] at hm
    split_ifs at hm
    exact hnext ▸ h m key' hm

theorem Routed.start (hfresh : s.Fresh) (h : s.Routed) {key : Key32}
    (hhub : s'.hub = s.hub.insert key s.next)
    (hsessions : s'.sessions = s.sessions.insert s.next key) : s'.Routed := by
  rintro key' n ⟨hn, hlast⟩
  rw [hsessions, Table.getElem?_insert] at hn
  rw [hhub, Table.getElem?_insert]
  split_ifs with hkey
  · -- the new session is later than every other one of the key
    have hle : s.next ≤ n := hlast s.next (by
      rw [hsessions, ← hkey]
      exact Table.getElem?_insert_self _ _ _)
    split_ifs at hn with hnext
    · rw [hnext]
    · have hlt := hfresh n key' hn
      omega
  · split_ifs at hn with hnext
    · exact absurd (Option.some.inj hn) hkey
    · refine h key' n ⟨hn, fun m hm => hlast m ?_⟩
      have hne : s.next ≠ m := (hfresh m key' hm).ne'
      rw [hsessions, Table.getElem?_insert_of_ne hne]
      exact hm

theorem Fresh.exists_latest (h : s.Fresh) {m : ℕ} {key : Key32} (hm : s.sessions[m]? = some key) :
    ∃ n, s.Latest key n := by
  refine ⟨Nat.findGreatest (fun n => s.sessions[n]? = some key) s.next, ?_, fun n hn => ?_⟩
  · exact Nat.findGreatest_spec (P := fun n => s.sessions[n]? = some key) (h m key hm).le hm
  · exact Nat.le_findGreatest (h n key hn).le hn

theorem routed_finish_iff (hfresh : s'.Fresh) (h : s.Routed) {n : ℕ} {key : Key32}
    (hkey : s.sessions[n]? = some key) (hhub : s'.hub = s.hub.erase key)
    (hsessions : s'.sessions = s.sessions.erase n) :
    s'.Routed ↔ s.EndsAlone (.finish n) := by
  constructor
  · intro hrouted key' hkey' m hm hsession
    cases hkey.symm.trans hkey'
    rw [← Table.getElem?_erase_of_ne (fun h => hm h.symm), ← hsessions] at hsession
    obtain ⟨last, hlast⟩ := hfresh.exists_latest hsession
    have hgone := hrouted key last hlast
    rw [hhub, Table.getElem?_erase_self] at hgone
    nomatch hgone
  · rintro halone key' m ⟨hm, hlast⟩
    rw [hsessions, Table.getElem?_erase] at hm
    split_ifs at hm with hn
    have hne : key ≠ key' := fun heq => halone key hkey m (fun h => hn h.symm) (heq ▸ hm)
    rw [hhub, Table.getElem?_erase_of_ne hne]
    refine h key' m ⟨hm, fun j hj => hlast j ?_⟩
    have hj' : n ≠ j := fun heq => hne (Option.some.inj (hkey.symm.trans (heq ▸ hj)))
    rw [hsessions, Table.getElem?_erase_of_ne hj']
    exact hj

theorem routed_iff (hfresh : s.Fresh) (h : s.Routed) (hstep : s.step a = some s') :
    s'.Routed ↔ s.EndsAlone a := by
  rcases step_cases hstep with ⟨hhub, hsessions, -, halone⟩ | ⟨key, hhub, hsessions, -, halone⟩ |
    ⟨n, key, rfl, hkey, hhub, hsessions, -⟩
  · refine iff_of_true ?_ halone
    intro key n hlatest
    rw [Latest, hsessions] at hlatest
    rw [hhub]
    exact h key n hlatest
  · exact iff_of_true (h.start hfresh hhub hsessions) halone
  · exact routed_finish_iff (hfresh.step hstep) h hkey hhub hsessions

theorem fresh_new : Fresh {} :=
  fun m _ hm => nomatch (Std.ExtTreeMap.getElem?_empty (a := m)).symm.trans hm

theorem routed_new : Routed {} :=
  fun _ n h => nomatch (Std.ExtTreeMap.getElem?_empty (a := n)).symm.trans h.1

/-- A key with a live session is mapped to the channel of its last one all along a run if and only
if no session ends while another one of its key is live. -/
theorem hub_routes_iff (acts : List HubAct) :
    (∀ pre s, pre <+: acts → Transition.run step {} pre = some s → s.Routed) ↔
      Transition.Meets step EndsAlone {} acts := by
  have hiff : ∀ s a s', s.Fresh ∧ s.Routed → step s a = some s' →
      (s'.Fresh ∧ s'.Routed ↔ EndsAlone s a) := by
    rintro s a s' ⟨hfresh, hrouted⟩ hstep
    rw [← routed_iff hfresh hrouted hstep]
    exact and_iff_right (hfresh.step hstep)
  have hstuck : ∀ s a, step s a = none → EndsAlone s a := by
    intro s a hnone
    cases a with
    | finish n =>
      intro key hkey
      rw [step, hkey] at hnone
      cases hnone
    | start => trivial
    | frame => trivial
    | write => trivial
  rw [Transition.meets_iff_prefixes hiff hstuck ⟨fresh_new, routed_new⟩]
  refine ⟨fun h pre s hpre hrun => ⟨?_, h pre s hpre hrun⟩, fun h pre s hpre hrun =>
    (h pre s hpre hrun).2⟩
  exact Transition.reachable (fun _ _ _ hfresh hstep => hfresh.step hstep) fresh_new hrun

/-- A client reconnects, then its old session ends: the hub has no channel for its key, and a packet
for it is dropped. -/
theorem reconnected_key_lost :
    ∃ s, Transition.run step {} [.start (.replicate 32 1), .start (.replicate 32 1), .finish 0] =
        some s ∧ s.Latest (.replicate 32 1) 1 ∧ s.hub[(Vector.replicate 32 1 : Key32)]? = none := by
  have hcheck : (Transition.run step {}
      [.start (.replicate 32 1), .start (.replicate 32 1), .finish 0]).any (fun s : Hub =>
        s.sessions.toList == [(1, .replicate 32 1)] &&
          s.hub[(Vector.replicate 32 1 : Key32)]? == none) = true := by decide +kernel
  obtain ⟨s, hs, hrest⟩ := (Option.any_eq_true _ _).mp hcheck
  rw [Bool.and_eq_true, beq_iff_eq, beq_iff_eq] at hrest
  have hmem : ∀ (m : ℕ) (key : Key32), s.sessions[m]? = some key ↔
      (m, key) = (1, .replicate 32 1) := by
    intro m key
    rw [← Std.ExtTreeMap.mem_toList_iff_getElem?_eq_some, hrest.1, List.mem_singleton]
  refine ⟨s, hs, ⟨(hmem 1 _).mpr rfl, fun m hm => ?_⟩, hrest.2⟩
  exact (Prod.mk.inj ((hmem m _).mp hm)).1.le

end Hub

end Derp

end Rill
