import Rill.NodeEffects
import Rill.MeshVerdicts
import Rill.Transition

/-!
# Broadcasts are delivered and flooded once

A node refuses a broadcast whose number the window of its sender has seen, and floods none that it
has flooded within `floodSeenTtl`. It forgets both when a broadcast key is installed, also when
the key is the one it has, and a window forgets numbers when it moves far. As long as a node does
not forget, it delivers every broadcast at most once and floods it at most once in that time.
-/

namespace Rill

def broadcastId (frame : Bytes) : Option (UInt32 × UInt32) :=
  (MeshFrameHeader.decode frame).toOption.map fun h => (h.fromNodeId, h.seq)

def IncomingEvent.isBroadcast : IncomingEvent → Bool
  | .broadcast _ _ => true
  | _ => false

namespace Node
variable {σ : Type}

section Run
variable (N : Snow σ) (C : Crypto) (checks : Bool)

/-- The broadcast that an event brings to the runtime. -/
def deliveredId (n : Node σ) (e : NodeEnv × Event) : Option (UInt32 × UInt32) :=
  match e.2 with
  | .call (.frame bytes) =>
    if (n.mesh.handleFrame N C bytes e.1.toCallEnv).event.isBroadcast then broadcastId bytes else none
  | _ => none

/-- The broadcast that the node floods at an event. -/
def floodedId (n : Node σ) (e : NodeEnv × Event) : Option (UInt32 × UInt32) :=
  match e.2 with
  | .call (.frame bytes) =>
    if (n.mesh.relay C bytes e.1.toCallEnv).1.isFlood then broadcastId bytes else none
  | _ => none

def deliveries (n : Node σ) (es : List (NodeEnv × Event)) : List (UInt32 × UInt32) :=
  Transition.trace (next N C checks) (deliveredId N C) n es

def floods (n : Node σ) (es : List (NodeEnv × Event)) : List ((UInt32 × UInt32) × ℕ) :=
  Transition.trace (next N C checks)
    (fun n e => (n.floodedId C e).map fun id => (id, e.1.now)) n es

/-- The node has nothing to forget: it has seen no broadcast, and no flood that still counts. -/
def nothingSeen (n : Node σ) (now : ℕ) : Prop :=
  n.mesh.broadcastReplay = ∅ ∧ MeshData.liveFloods now n.mesh.floodSeen = ∅

/-- The event makes the node forget nothing. -/
def Remembers (n : Node σ) (e : NodeEnv × Event) : Prop :=
  match e.2 with
  | .control ev => ev.newBroadcastKey.isSome = true → n.nothingSeen e.1.now
  | .call (.update (.setBroadcastKey _)) => n.nothingSeen e.1.now
  | .call (.frame bytes) => ∀ header, MeshFrameHeader.decode bytes = .ok header →
      header.packetType = PacketType.broadcast → n.mesh.Takes C e.1.toCallEnv header →
      (n.mesh.broadcastWindow header.fromNodeId).forgets header.seq = false
  | .call _ => True

end Run

/-- A broadcast that the window of its sender refuses. -/
def Refused (d : MeshData σ) (id : UInt32 × UInt32) : Prop :=
  ((d.broadcastWindow id.1).checkAndMark id.2).1 = false

/-- A flood that is still on record, as long as it counts. -/
def OnRecord (d : MeshData σ) (now : ℕ) (flood : (UInt32 × UInt32) × ℕ) : Prop :=
  flood.2 ≤ now ∧ (now ≤ flood.2 + floodSeenTtl →
    ∃ seenAt, d.floodSeen[flood.1]? = some seenAt ∧ flood.2 ≤ seenAt)

variable {N : Snow σ} {C : Crypto} {checks : Bool} {n n' : Node σ} {e : NodeEnv × Event}

theorem next_cases (hnext : n.next N C checks e = some n') :
    (∃ bytes, e.2 = .call (.frame bytes) ∧
        n'.mesh = (n.mesh.handleFrame N C bytes e.1.toCallEnv).node) ∨
      n.deliveredId N C e = none ∧ n.floodedId C e = none ∧
        (n'.mesh.broadcasts = n.mesh.broadcasts ∨
          ∃ key, n'.mesh.broadcasts = (some key, ∅, ∅) ∧
            (n.Remembers C e → n.nothingSeen e.1.now)) := by
  obtain ⟨env, ev⟩ := e
  obtain ⟨⟨outputs, _⟩, hstep, rfl⟩ := Option.map_eq_some_iff.mp hnext
  cases ev with
  | control ev =>
    cases hstep
    refine Or.inr ⟨rfl, rfl, ?_⟩
    dsimp only
    rw [(handleControlEvent_mesh _ _).2]
    rcases Option.eq_none_or_eq_some ev.newBroadcastKey with hkey | ⟨key, hkey⟩
    · rw [hkey]
      exact Or.inl rfl
    · rw [hkey]
      exact Or.inr ⟨key, rfl, fun hrem => hrem (by rw [hkey]; rfl)⟩
  | call call =>
    by_cases hframe : ∃ bytes, call = .frame bytes
    · obtain ⟨bytes, rfl⟩ := hframe
      obtain ⟨_, _, heq⟩ := deliver_eq hstep
      dsimp only at heq
      exact Or.inl ⟨bytes, rfl, by rw [heq]⟩
    · have hnot : ∀ bytes, call ≠ .frame bytes := fun bytes hcall => hframe ⟨bytes, hcall⟩
      have hafter : n.step N C checks env (.call call) =
          some ([], { n with mesh := (n.mesh.perform N C env.toCallEnv call).2 }) := by
        cases call <;> first | rfl | exact absurd rfl (hnot _)
      cases hafter.symm.trans hstep
      have hnone : n.deliveredId N C (env, .call call) = none ∧
          n.floodedId C (env, .call call) = none := by
        cases call <;> first | exact ⟨rfl, rfl⟩ | exact absurd rfl (hnot _)
      refine Or.inr ⟨hnone.1, hnone.2, ?_⟩
      by_cases hkey : ∃ key, call = .update (.setBroadcastKey key)
      · obtain ⟨key, rfl⟩ := hkey
        exact Or.inr ⟨key, rfl, id⟩
      · exact Or.inl (n.mesh.perform_inert env.toCallEnv hnot
          fun key hcall => hkey ⟨key, hcall⟩).broadcasts

theorem refused_congr {d d' : MeshData σ} (h : d'.broadcastReplay = d.broadcastReplay)
    (id : UInt32 × UInt32) : Refused d' id ↔ Refused d id := by
  rw [Refused, Refused, MeshData.broadcastWindow, MeshData.broadcastWindow, h]

theorem onRecord_congr {d d' : MeshData σ} (h : d'.floodSeen = d.floodSeen) {now now' : ℕ}
    (hnow : now ≤ now') {flood : (UInt32 × UInt32) × ℕ} (hrecord : OnRecord d now flood) :
    OnRecord d' now' flood := by
  refine ⟨hrecord.1.trans hnow, fun hcounts => ?_⟩
  rw [h]
  exact hrecord.2 (hnow.trans hcounts)

/-- The window of a sender after a broadcast of it with number `seq` has been marked. -/
theorem refused_insert {d d' : MeshData σ} {source seq : UInt32}
    (h : d'.broadcastReplay =
      d.broadcastReplay.insert source ((d.broadcastWindow source).checkAndMark seq).2)
    (id : UInt32 × UInt32) : Refused d' id ↔
      if source = id.1 then
        (((d.broadcastWindow source).checkAndMark seq).2.checkAndMark id.2).1 = false
      else Refused d id := by
  rw [Refused, MeshData.broadcastWindow, h, Table.getElem?_insert]
  split_ifs with hsource
  · rfl
  · rfl

theorem next_refused (hrem : n.Remembers C e) (hnext : n.next N C checks e = some n')
    {id : UInt32 × UInt32} (h : Refused n.mesh id) : Refused n'.mesh id := by
  rcases next_cases hnext with ⟨bytes, hev, hmesh⟩ | ⟨-, -, hsame | ⟨key, hset, hnothing⟩⟩
  · simp only [Remembers, hev] at hrem
    rw [hmesh]
    obtain ⟨-, -, ⟨hreplay, -⟩ | ⟨header, hd, hfrom, htype, hreplay, -⟩⟩ :=
      n.mesh.handleFrame_broadcasts (N := N) (C := C) bytes e.1.toCallEnv
    · exact (refused_congr hreplay id).mpr h
    · rw [refused_insert hreplay]
      split_ifs with hsource
      · rw [Refused, ← hsource] at h
        exact ReplayWindow.refused_of_not_forgets h
          (hrem header hd htype (MeshData.takes_of_received hd hfrom))
      · exact h
  · exact (refused_congr (congrArg (fun b => b.2.1) hsame) id).mpr h
  · have hempty := (hnothing hrem).1
    have hreplay : n'.mesh.broadcastReplay = ∅ := congrArg (fun b => b.2.1) hset
    exact (refused_congr (hreplay.trans hempty.symm) id).mpr h

theorem floodSeen_withFloods {d : MeshData σ} {env : CallEnv} {bytes : Bytes}
    {flood : (UInt32 × UInt32) × ℕ} {now : ℕ} (hnow : now ≤ env.now) (h : OnRecord d now flood) :
    OnRecord (d.withFloods (d.relayVerdict C env bytes).2.1) env.now flood := by
  have hlive : OnRecord (d.withFloods (some (MeshData.liveFloods env.now d.floodSeen))) env.now
      flood := by
    refine ⟨h.1.trans hnow, fun hcounts => ?_⟩
    obtain ⟨seenAt, hseen, hle⟩ := h.2 (hnow.trans hcounts)
    exact ⟨seenAt, MeshData.getElem?_liveFloods hseen (by omega), hle⟩
  cases hflood : (d.relayVerdict C env bytes).1.isFlood with
  | false =>
    rcases d.relayVerdict_floods env hflood with hv | hv
    · rw [hv]
      exact onRecord_congr rfl hnow h
    · rw [hv]
      exact hlive
  | true =>
    obtain ⟨header, -, -, hv⟩ := d.relayVerdict_flood env hflood
    rw [hv]
    refine ⟨hlive.1, fun hcounts => ?_⟩
    change ∃ seenAt, ((MeshData.liveFloods env.now d.floodSeen).insert
      (header.fromNodeId, header.seq) env.now)[flood.1]? = some seenAt ∧ flood.2 ≤ seenAt
    rw [Table.getElem?_insert]
    split_ifs with hid
    · exact ⟨env.now, rfl, hlive.1⟩
    · exact hlive.2 hcounts

theorem next_onRecord (hrem : n.Remembers C e) (hnext : n.next N C checks e = some n') {now : ℕ}
    (hnow : now ≤ e.1.now) {flood : (UInt32 × UInt32) × ℕ} (h : OnRecord n.mesh now flood) :
    OnRecord n'.mesh e.1.now flood := by
  rcases next_cases hnext with ⟨bytes, -, hmesh⟩ | ⟨-, -, hsame | ⟨key, hset, hnothing⟩⟩
  · rw [hmesh]
    obtain ⟨-, hseen, -⟩ := n.mesh.handleFrame_broadcasts (N := N) (C := C) bytes e.1.toCallEnv
    exact onRecord_congr hseen le_rfl (floodSeen_withFloods hnow h)
  · exact onRecord_congr (congrArg (fun b => b.2.2) hsame) hnow h
  · refine ⟨h.1.trans hnow, fun hcounts => ?_⟩
    -- A flood that counts would still be live, but there is none.
    obtain ⟨seenAt, hseen, hle⟩ := h.2 (hnow.trans hcounts)
    have hlive : (MeshData.liveFloods e.1.now n.mesh.floodSeen)[flood.1]? = some seenAt :=
      MeshData.getElem?_liveFloods hseen (by omega)
    rw [(hnothing hrem).2] at hlive
    simp at hlive

theorem broadcastId_eq {bytes : Bytes} {id : UInt32 × UInt32} (h : broadcastId bytes = some id) :
    ∃ header, MeshFrameHeader.decode bytes = .ok header ∧ (header.fromNodeId, header.seq) = id := by
  rw [broadcastId] at h
  cases hd : MeshFrameHeader.decode bytes with
  | error e =>
    rw [hd] at h
    nomatch h
  | ok header =>
    rw [hd] at h
    exact ⟨header, rfl, Option.some.inj h⟩

/-- A broadcast that is delivered was not refused before and is refused from then on. -/
theorem deliveredId_spec {id : UInt32 × UInt32} (h : n.deliveredId N C e = some id) :
    ¬ Refused n.mesh id ∧ ∀ {checks n'}, n.next N C checks e = some n' → Refused n'.mesh id := by
  obtain ⟨env, ev⟩ := e
  cases ev with
  | control ev => nomatch h
  | call call =>
    cases call with
    | frame bytes =>
      obtain ⟨hevent, hid⟩ := Option.ite_none_right_eq_some.mp h
      obtain ⟨header, hd, rfl⟩ := broadcastId_eq hid
      obtain ⟨-, -, ⟨-, hnone⟩ | ⟨header', hd', -, -, hreplay, hnew⟩⟩ :=
        n.mesh.handleFrame_broadcasts (N := N) (C := C) bytes env.toCallEnv
      · revert hevent
        cases hev : (n.mesh.handleFrame N C bytes env.toCallEnv).event with
        | broadcast source payload => exact absurd hev (hnone source payload)
        | _ => exact fun hevent => nomatch hevent
      · cases hd.symm.trans hd'
        have hfresh : ((n.mesh.broadcastWindow header.fromNodeId).checkAndMark header.seq).1 = true := by
          revert hevent
          cases hev : (n.mesh.handleFrame N C bytes env.toCallEnv).event with
          | broadcast source payload => exact fun _ => (hnew source payload hev).2
          | _ => exact fun hevent => nomatch hevent
        refine ⟨fun hrefused => Bool.false_ne_true (hrefused.symm.trans hfresh), fun hnext => ?_⟩
        obtain ⟨bytes', hbytes, hmesh⟩ | ⟨hno, -⟩ := next_cases hnext
        · obtain rfl := MeshCall.frame.inj (Event.call.inj hbytes)
          rw [hmesh, refused_insert hreplay, if_pos rfl]
          exact ReplayWindow.checkAndMark_again hfresh
        · rw [h] at hno
          nomatch hno
    | _ => nomatch h

/-- A broadcast is flooded when every flood of it on record has expired, and is then on record. -/
theorem floodedId_spec {id : UInt32 × UInt32} (h : n.floodedId C e = some id) :
    (∀ now flood, now ≤ e.1.now → OnRecord n.mesh now flood → flood.1 = id →
        flood.2 + floodSeenTtl < e.1.now) ∧
      ∀ {checks n'}, n.next N C checks e = some n' → OnRecord n'.mesh e.1.now (id, e.1.now) := by
  obtain ⟨env, ev⟩ := e
  cases ev with
  | control ev => nomatch h
  | call call =>
    cases call with
    | frame bytes =>
      obtain ⟨hflood, hid⟩ := Option.ite_none_right_eq_some.mp h
      rw [MeshData.relay_eq] at hflood
      obtain ⟨header, hd, hnew, hseen⟩ := n.mesh.relayVerdict_flood env.toCallEnv hflood
      obtain ⟨header', hd', rfl⟩ := broadcastId_eq hid
      cases hd.symm.trans hd'
      constructor
      · intro now flood hnow hrecord hflood
        by_contra hcounts
        rw [not_lt] at hcounts
        obtain ⟨seenAt, hget, hle⟩ := hrecord.2 (hnow.trans hcounts)
        rw [hflood] at hget
        dsimp only at hcounts
        rw [MeshData.getElem?_liveFloods hget (by omega)] at hnew
        nomatch hnew
      · intro checks n' hnext
        obtain ⟨bytes', hbytes, hmesh⟩ | ⟨-, hno, -⟩ := next_cases hnext
        · obtain rfl := MeshCall.frame.inj (Event.call.inj hbytes)
          refine ⟨le_rfl, fun _ => ⟨env.now, ?_, le_rfl⟩⟩
          obtain ⟨-, hfloods, -⟩ := n.mesh.handleFrame_broadcasts (N := N) (C := C) bytes env.toCallEnv
          rw [hmesh, hfloods, hseen]
          exact Table.getElem?_insert_self _ _ _
        · rw [h] at hno
          nomatch hno
    | _ => nomatch h

/-- A node that forgets nothing delivers a broadcast at most once, and floods it at most once
within `floodSeenTtl`. -/
theorem broadcast_at_most_once (n : Node σ) (es : List (NodeEnv × Event))
    (hclock : (es.map fun e => e.1.now).IsChain (· ≤ ·))
    (hmeets : Transition.Meets (next N C checks) (Remembers C) n es) :
    (n.deliveries N C checks es).Nodup ∧
      (n.floods N C checks es).Pairwise fun a b => a.1 = b.1 → a.2 + floodSeenTtl < b.2 := by
  have hclock₀ : (0 :: es.map fun e => e.1.now).IsChain (· ≤ ·) := by
    cases es with
    | nil => exact List.isChain_singleton 0
    | cons e es => exact List.isChain_cons_cons.mpr ⟨Nat.zero_le _, hclock⟩
  constructor
  · refine (Transition.pairwise_trace (fun n _ id => Refused n.mesh id) ?_ ?_ hclock₀
      hmeets).1
    · intro n now e n' id hrem _ hnext hrefused
      exact next_refused hrem hnext hrefused
    · intro n e id _ hid
      obtain ⟨hnew, hafter⟩ := deliveredId_spec hid
      exact ⟨fun _ id' _ hrefused heq => hnew (heq ▸ hrefused), fun _ => hafter⟩
  · refine (Transition.pairwise_trace (fun n now flood => OnRecord n.mesh now flood) ?_ ?_ hclock₀
      hmeets).1
    · intro n now e n' flood hrem hnow hnext hrecord
      exact next_onRecord hrem hnext hnow hrecord
    · intro n e flood _ hflood
      obtain ⟨id, hid, rfl⟩ := Option.map_eq_some_iff.mp hflood
      obtain ⟨hexpired, hafter⟩ := floodedId_spec (N := N) hid
      exact ⟨fun now flood hnow hrecord heq => hexpired now flood hnow hrecord heq, fun _ => hafter⟩

section Example

def sharedKey : Bytes := List.replicate 32 9

/-- Node 1 has registered and has been given the broadcast key, with its own route key. -/
def audience : Node Unit :=
  ((new ⟨[1], fun _ => none, none⟩ none).handleControlEvent
    (.registered 1 7 [] (0, 0))).handleControlEvent (.keyDist 1 [1] 1 sharedKey)

/-- A broadcast from node 2, sealed in clear. -/
def announcement : Bytes :=
  let header : MeshFrameHeader :=
    { packetType := PacketType.broadcast, toNodeId := broadcastNodeId, fromNodeId := 2, seq := 5 }
  ((Crypto.clear 4096).sealedHeader header sharedKey [42]).encode ++ (42 :: List.replicate 16 0)

/-- The broadcast arrives again after the same key was delivered again. -/
def repeatedKeyRun : List (NodeEnv × Event) :=
  [({}, .call (.frame announcement)), ({}, .control (.keyDist 1 [1] 1 sharedKey)),
    ({}, .call (.frame announcement))]

theorem broadcast_repeated_after_same_key :
    (Transition.run (next MeshData.snowless (Crypto.clear 4096) true) audience repeatedKeyRun).map
        (fun n => n.mesh.broadcastKey) = some audience.mesh.broadcastKey ∧
      audience.deliveries MeshData.snowless (Crypto.clear 4096) true repeatedKeyRun = [(2, 5), (2, 5)] ∧
      audience.floods MeshData.snowless (Crypto.clear 4096) true repeatedKeyRun =
        [((2, 5), 0), ((2, 5), 0)] := by
  decide +kernel

/-- Two copies of the broadcast with no key in between: one delivery, one flood. -/
theorem broadcast_once_without_key :
    let run : List (NodeEnv × Event) :=
      [({}, .call (.frame announcement)), ({}, .call (.frame announcement))]
    (audience.deliveries MeshData.snowless (Crypto.clear 4096) true run).Nodup ∧
      (audience.floods MeshData.snowless (Crypto.clear 4096) true run).Pairwise
        fun a b => a.1 = b.1 → a.2 + floodSeenTtl < b.2 := by
  have hseq : (MeshFrameHeader.decode announcement).toOption.map (fun h => h.seq) = some 5 := by
    decide
  refine broadcast_at_most_once audience _ (by decide) (Transition.meets_of_forall ?_ _)
  intro n e he
  obtain rfl : e = ({}, .call (.frame announcement)) := by simpa using he
  intro header hd _ _
  rw [hd] at hseq
  have hseq' : header.seq = 5 := Option.some.inj hseq
  -- A number below the width of a window moves no window.
  have hinside : ¬ (n.mesh.broadcastWindow header.fromNodeId).base + 1024 ≤ (5 : UInt32).toNat := by
    change ¬ _ + 1024 ≤ 5
    omega
  rw [hseq', ReplayWindow.forgets, decide_eq_false hinside, Bool.false_and]

end Example

end Node

end Rill
