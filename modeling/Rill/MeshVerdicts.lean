import Rill.MeshDispatch

/-!
# The decisions of the receive path

What `relay` and the broadcast handler decide, as functions of the parts of the node they read,
apart from the node they return. A flood is remembered for `floodSeenTtl`; only the records that
still count enter a decision.
-/

namespace Rill

def RelayOutcome.receivedFrom : RelayOutcome → Option UInt32
  | .delivered source => some source
  | .flooded source => some source
  | _ => none

def RelayOutcome.isFlood : RelayOutcome → Bool
  | .flooded _ => true
  | _ => false

namespace MeshData
variable {σ : Type} {C : Crypto}

def liveFloods (now : ℕ) (seen : Table (UInt32 × UInt32) ℕ) : Table (UInt32 × UInt32) ℕ :=
  seen.filter fun _ seenAt => now ≤ seenAt + floodSeenTtl

theorem getElem?_liveFloods {seen : Table (UInt32 × UInt32) ℕ} {id : UInt32 × UInt32}
    {seenAt now : ℕ} (h : seen[id]? = some seenAt) (hcounts : now ≤ seenAt + floodSeenTtl) :
    (liveFloods now seen)[id]? = some seenAt := by
  rw [liveFloods, Std.ExtTreeMap.getElem?_filter', h]
  simp [hcounts]

/-- The node with other floods seen, where there are any to write. -/
def withFloods (d : MeshData σ) : Option (Table (UInt32 × UInt32) ℕ) → MeshData σ
  | none => d
  | some seen => { d with floodSeen := seen }

def broadcastWindow (d : MeshData σ) (source : UInt32) : ReplayWindow :=
  d.broadcastReplay[source]?.getD ReplayWindow.new

/-- A broadcast that carries the MAC of the broadcast key, comes from another node, is not on record
any more and may go on. -/
def Floods (C : Crypto) (d : MeshData σ) (env : CallEnv) (header : MeshFrameHeader) : Prop :=
  header.packetType = PacketType.broadcast ∧
    (∃ key ∈ d.broadcastKey, C.routeMac key header.authInput = header.routeMac) ∧
    header.fromNodeId ≠ d.selfNodeId ∧
    (liveFloods env.now d.floodSeen)[(header.fromNodeId, header.seq)]? = none ∧ header.ttl ≠ 0

/-- The frame is a flood that the node takes part in, or it is for this node. -/
def Takes (C : Crypto) (d : MeshData σ) (env : CallEnv) (header : MeshFrameHeader) : Prop :=
  header.version = Rill.version ∧ header.toNodeId = broadcastNodeId ∧ d.Floods C env header ∨
    d.Addressed C header

theorem relay_of_addressed {d : MeshData σ} {frame : Bytes} {header : MeshFrameHeader}
    (hd : MeshFrameHeader.decode frame = .ok header) (h : d.Addressed C header) (env : CallEnv) :
    d.relay C frame env = (.delivered header.fromNodeId, d, frame) := by
  obtain ⟨hver, hto, hself, key, hkey, hmac⟩ := h
  simp only [relay, hd, hver, hto, hself, Option.mem_def.mp hkey, hmac, ne_eq, not_true_eq_false,
    if_false, if_true]

theorem addressed_of_relay {d : MeshData σ} {frame : Bytes} {header : MeshFrameHeader}
    {env : CallEnv} {source : UInt32} (hd : MeshFrameHeader.decode frame = .ok header)
    (h : (d.relay C frame env).1 = .delivered source) : d.Addressed C header := by
  obtain ⟨outcome, seen, frame', heq, hdelivered, -⟩ := d.relay_spec (C := C) frame env
  rw [heq] at h
  obtain ⟨-, header', hd', haddressed, -⟩ := hdelivered source h
  cases hd.symm.trans hd'
  exact haddressed

section Verdicts
variable (C) (d : MeshData σ) (env : CallEnv)

/-- How `relayBroadcast` ends, with the floods it leaves as seen where it looks at them. -/
def floodVerdict (header : MeshFrameHeader) :
    RelayOutcome × Option (Table (UInt32 × UInt32) ℕ) :=
  if header.packetType ≠ PacketType.broadcast then (.dropped .unsupportedType, none)
  else
    match d.broadcastKey with
    | none => (.dropped .noKeyDst, none)
    | some bkey =>
      if C.routeMac bkey header.authInput ≠ header.routeMac then (.dropped .badRouteMac, none)
      else if header.fromNodeId = d.selfNodeId then (.dropped .duplicate, none)
      else
        let live := liveFloods env.now d.floodSeen
        if (live[(header.fromNodeId, header.seq)]?).isSome then (.dropped .duplicate, some live)
        else if header.ttl = 0 then (.dropped .ttlExpired, some live)
        else (.flooded header.fromNodeId,
          some (live.insert (header.fromNodeId, header.seq) env.now))

def floodedFrame (header : MeshFrameHeader) (frame : Bytes) : Bytes :=
  match (d.floodVerdict C env header).1 with
  | .flooded _ => if env.floodToken then decrementTtl frame else frame
  | _ => frame

/-- How `relay` ends for a frame that is addressed to one node, and the frame it leaves. -/
def addressedVerdict (header : MeshFrameHeader) (frame : Bytes) : RelayOutcome × Bytes :=
  match d.routeKey header.toNodeId header.pathId with
  | none => (.dropped .noKeyDst, frame)
  | some routeKey =>
    if C.routeMac routeKey header.authInput ≠ header.routeMac then (.dropped .badRouteMac, frame)
    else if header.toNodeId = d.selfNodeId then (.delivered header.fromNodeId, frame)
    else if header.ttl = 0 then (.dropped .ttlExpired, frame)
    else
      let next := if header.pathId ≠ pathIdDefault then d.pathNextNode header env.nowUnix
        else some header.toNodeId
      match next, env.outcome with
      | none, _ => (.dropped .noEndpoint, frame)
      | some _, .noEndpoint => (.dropped .noEndpoint, frame)
      | some _, .failed => (.dropped .noEndpoint, decrementTtl frame)
      | some next, .sent => (.forwarded header.toNodeId next, decrementTtl frame)

def relayVerdict (frame : Bytes) : RelayOutcome × Option (Table (UInt32 × UInt32) ℕ) × Bytes :=
  match MeshFrameHeader.decode frame with
  | .error _ => (.dropped .short, none, frame)
  | .ok header =>
    if header.version ≠ Rill.version then (.dropped .badVersion, none, frame)
    else if header.toNodeId = broadcastNodeId then
      ((d.floodVerdict C env header).1, (d.floodVerdict C env header).2,
        d.floodedFrame C env header frame)
    else
      let v := d.addressedVerdict C env header frame
      (v.1, none, v.2)

def broadcastAnswer (source : UInt32) (frame : Bytes) :
    IncomingEvent × Table UInt32 ReplayWindow :=
  match d.broadcastKey with
  | none => (.dropped .noKeyDst, d.broadcastReplay)
  | some bkey =>
    match MeshFrameHeader.decode frame with
    | .error _ => (.dropped .short, d.broadcastReplay)
    | .ok header =>
      let r := (d.broadcastReplay[source]?.getD ReplayWindow.new).checkAndMark header.seq
      (if !r.1 then .dropped .replay
        else match C.openFrameInPlace frame bkey bkey 0 with
        | .ok (_, payload, _) => .broadcast source payload
        | .error .routeMac => .dropped .badRouteMac
        | .error _ => .dropped .aead, d.broadcastReplay.insert source r.2)

variable {C}

theorem relayBroadcast_eq (header : MeshFrameHeader) (frame : Bytes) :
    d.relayBroadcast C header frame env = ((d.floodVerdict C env header).1,
      d.withFloods (d.floodVerdict C env header).2, d.floodedFrame C env header frame) := by
  unfold floodedFrame relayBroadcast floodVerdict
  by_cases htype : header.packetType = PacketType.broadcast
  · simp only [htype, ne_eq, not_true_eq_false, if_false]
    rcases Option.eq_none_or_eq_some d.broadcastKey with hk | ⟨bkey, hk⟩
    · simp only [hk]
      rfl
    · simp only [hk]
      by_cases hmac : C.routeMac bkey header.authInput = header.routeMac
      · rw [if_neg (not_not.mpr hmac), if_neg (not_not.mpr hmac)]
        by_cases hself : header.fromNodeId = d.selfNodeId
        · rw [if_pos hself, if_pos hself]
          rfl
        · rw [if_neg hself, if_neg hself]
          change (if ((liveFloods env.now d.floodSeen)[(header.fromNodeId, header.seq)]?).isSome
            then _ else _) = _
          split
          · rfl
          · split <;> rfl
      · rw [if_pos hmac, if_pos hmac]
        rfl
  · simp only [htype, ne_eq, not_false_eq_true, if_true]
    rfl

theorem relay_eq (frame : Bytes) : d.relay C frame env = ((d.relayVerdict C env frame).1,
    d.withFloods (d.relayVerdict C env frame).2.1, (d.relayVerdict C env frame).2.2) := by
  unfold relay relayVerdict
  cases MeshFrameHeader.decode frame with
  | error e => rfl
  | ok header =>
    dsimp only
    by_cases hversion : header.version = Rill.version
    · rw [if_neg (not_not.mpr hversion), if_neg (not_not.mpr hversion)]
      by_cases hbroadcast : header.toNodeId = broadcastNodeId
      · rw [if_pos hbroadcast, if_pos hbroadcast, relayBroadcast_eq]
      · rw [if_neg hbroadcast, if_neg hbroadcast]
        unfold addressedVerdict
        cases d.routeKey header.toNodeId header.pathId with
        | none => rfl
        | some routeKey =>
          dsimp only
          split
          · rfl
          · split
            · rfl
            · split
              · rfl
              · generalize (if header.pathId ≠ pathIdDefault then d.pathNextNode header env.nowUnix
                  else some header.toNodeId) = next
                rcases next with _ | hop
                · rfl
                · cases env.outcome <;> rfl
    · rw [if_pos hversion, if_pos hversion]
      rfl

theorem handleBroadcastFrame_eq (source : UInt32) (frame : Bytes) :
    d.handleBroadcastFrame C source frame = ((d.broadcastAnswer C source frame).1,
      { d with broadcastReplay := (d.broadcastAnswer C source frame).2 }) := by
  unfold handleBroadcastFrame
  split
  · rename_i hk
    have hanswer : d.broadcastAnswer C source frame = (.dropped .noKeyDst, d.broadcastReplay) := by
      simp only [broadcastAnswer, hk]
    rw [hanswer]
  · rename_i bkey hk
    split
    · rename_i hd
      have hanswer : d.broadcastAnswer C source frame = (.dropped .short, d.broadcastReplay) := by
        simp only [broadcastAnswer, hk, hd]
      rw [hanswer]
    · rename_i header hd
      generalize hr : (d.broadcastReplay[source]?.getD ReplayWindow.new).checkAndMark header.seq = r
      have hanswer : d.broadcastAnswer C source frame = (if !r.1 then .dropped .replay
          else match C.openFrameInPlace frame bkey bkey 0 with
          | .ok (_, payload, _) => .broadcast source payload
          | .error .routeMac => .dropped .badRouteMac
          | .error _ => .dropped .aead, d.broadcastReplay.insert source r.2) := by
        simp only [broadcastAnswer, hk, hd, hr]
      rw [hanswer]
      dsimp only
      cases r.1 with
      | false => rfl
      | true =>
        rcases C.openFrameInPlace frame bkey bkey 0 with e | r
        · cases e <;> rfl
        · rfl

theorem dispatchDelivered_broadcast {N : Snow σ} {source : UInt32} {frame : Bytes}
    {header : MeshFrameHeader} (hd : MeshFrameHeader.decode frame = .ok header)
    (htype : header.packetType = PacketType.broadcast) :
    d.dispatchDelivered N C source frame env =
      { event := (d.handleBroadcastFrame C source frame).1
        node := (d.handleBroadcastFrame C source frame).2 } := by
  rw [dispatchDelivered, hd]
  dsimp only
  rw [htype, if_neg (by decide), if_neg (by decide), if_neg (by decide), if_pos rfl]

theorem floodVerdict_cases (header : MeshFrameHeader) :
    (∃ reason, d.floodVerdict C env header = (.dropped reason, none)) ∨
      (∃ reason, d.floodVerdict C env header =
        (.dropped reason, some (liveFloods env.now d.floodSeen))) ∨
      d.Floods C env header ∧ d.floodVerdict C env header = (.flooded header.fromNodeId,
          some ((liveFloods env.now d.floodSeen).insert (header.fromNodeId, header.seq) env.now)) := by
  unfold floodVerdict
  split
  · exact Or.inl ⟨_, rfl⟩
  · rename_i htype
    split
    · exact Or.inl ⟨_, rfl⟩
    · rename_i key hkey
      split
      · exact Or.inl ⟨_, rfl⟩
      · rename_i hmac
        split
        · exact Or.inl ⟨_, rfl⟩
        · rename_i hself
          dsimp only
          split
          · exact Or.inr (Or.inl ⟨_, rfl⟩)
          · rename_i hseen
            split
            · exact Or.inr (Or.inl ⟨_, rfl⟩)
            · rename_i httl
              exact Or.inr (Or.inr ⟨⟨not_not.mp htype, ⟨key, hkey, not_not.mp hmac⟩, hself,
                by simpa using hseen, httl⟩, rfl⟩)

theorem addressedVerdict_cases (header : MeshFrameHeader) (frame : Bytes) :
    (d.addressedVerdict C env header frame).1.receivedFrom = none ∨
      d.addressedVerdict C env header frame = (.delivered header.fromNodeId, frame) := by
  unfold addressedVerdict
  split
  · exact Or.inl rfl
  · split
    · exact Or.inl rfl
    · split
      · exact Or.inr rfl
      · split
        · exact Or.inl rfl
        · dsimp only
          split <;> exact Or.inl rfl

theorem relayVerdict_floods {frame : Bytes} (h : (d.relayVerdict C env frame).1.isFlood = false) :
    (d.relayVerdict C env frame).2.1 = none ∨
      (d.relayVerdict C env frame).2.1 = some (liveFloods env.now d.floodSeen) := by
  unfold relayVerdict at h ⊢
  split at h
  · exact Or.inl rfl
  · rename_i header hd
    by_cases hversion : header.version = Rill.version
    · rw [if_neg (not_not.mpr hversion)] at h ⊢
      by_cases hto : header.toNodeId = broadcastNodeId
      · rw [if_pos hto] at h ⊢
        rcases d.floodVerdict_cases (C := C) env header with ⟨_, hv⟩ | ⟨_, hv⟩ | ⟨-, hv⟩
        · exact Or.inl (by rw [hv])
        · exact Or.inr (by rw [hv])
        · rw [hv] at h
          nomatch h
      · rw [if_neg hto]
        exact Or.inl rfl
    · rw [if_pos hversion]
      exact Or.inl rfl

theorem relayVerdict_flood {frame : Bytes} (h : (d.relayVerdict C env frame).1.isFlood = true) :
    ∃ header, MeshFrameHeader.decode frame = .ok header ∧
      (liveFloods env.now d.floodSeen)[(header.fromNodeId, header.seq)]? = none ∧
      (d.relayVerdict C env frame).2.1 =
        some ((liveFloods env.now d.floodSeen).insert (header.fromNodeId, header.seq) env.now) := by
  unfold relayVerdict at h ⊢
  split at h
  · nomatch h
  · rename_i header hd
    by_cases hversion : header.version = Rill.version
    · rw [if_neg (not_not.mpr hversion)] at h ⊢
      by_cases hto : header.toNodeId = broadcastNodeId
      · rw [if_pos hto] at h ⊢
        rcases d.floodVerdict_cases (C := C) env header with ⟨_, hv⟩ | ⟨_, hv⟩ | ⟨hflood, hv⟩
        · rw [hv] at h
          nomatch h
        · rw [hv] at h
          nomatch h
        · exact ⟨header, hd, hflood.2.2.2.1, by rw [hv]⟩
      · rw [if_neg hto] at h
        rcases d.addressedVerdict_cases (C := C) env header frame with hv | hv
        · revert h hv
          cases (d.addressedVerdict C env header frame).1 <;> simp [RelayOutcome.isFlood,
            RelayOutcome.receivedFrom]
        · rw [hv] at h
          nomatch h
    · rw [if_pos hversion] at h
      nomatch h

end Verdicts

section Received
variable {N : Snow σ} {d : MeshData σ} {env : CallEnv}

theorem handleFrame_of_not_received {frame : Bytes}
    (h : (d.relayVerdict C env frame).1.receivedFrom = none) :
    (d.handleFrame N C frame env).node = d.withFloods (d.relayVerdict C env frame).2.1 := by
  rw [handleFrame, relay_eq]
  generalize (d.relayVerdict C env frame) = v at h ⊢
  obtain ⟨outcome, seen, frame'⟩ := v
  cases outcome with
  | forwarded dest => rfl
  | delivered source => nomatch h
  | flooded source => nomatch h
  | dropped reason => rfl

theorem handleFrame_of_received {frame : Bytes} {source : UInt32}
    (h : (d.relayVerdict C env frame).1.receivedFrom = some source) :
    d.handleFrame N C frame env =
      ((d.withFloods (d.relayVerdict C env frame).2.1).noteIngress source env).dispatchDelivered N C
        source (d.relayVerdict C env frame).2.2 env := by
  rw [handleFrame, relay_eq]
  generalize (d.relayVerdict C env frame) = v at h ⊢
  obtain ⟨outcome, seen, frame'⟩ := v
  cases outcome with
  | forwarded dest => nomatch h
  | delivered source =>
    cases h
    rfl
  | flooded source =>
    cases h
    rfl
  | dropped reason => nomatch h

/-- A frame that is received is sent on to its handler as it is or, as a flood, with its lifetime
decremented. -/
theorem relayVerdict_received {frame : Bytes} {header : MeshFrameHeader} {source : UInt32}
    (hd : MeshFrameHeader.decode frame = .ok header)
    (h : (d.relayVerdict C env frame).1.receivedFrom = some source) :
    source = header.fromNodeId ∧
      ((d.relayVerdict C env frame).2.2 = frame ∨ header.packetType = PacketType.broadcast ∧
        (d.relayVerdict C env frame).2.2 = decrementTtl frame) := by
  unfold relayVerdict at h ⊢
  simp only [hd] at h ⊢
  by_cases hversion : header.version = Rill.version
  · rw [if_neg (not_not.mpr hversion)] at h ⊢
    by_cases hto : header.toNodeId = broadcastNodeId
    · rw [if_pos hto] at h ⊢
      rcases d.floodVerdict_cases (C := C) env header with ⟨_, hv⟩ | ⟨_, hv⟩ | ⟨⟨htype, -⟩, hv⟩
      · rw [hv] at h
        nomatch h
      · rw [hv] at h
        nomatch h
      · simp only [hv, floodedFrame] at h ⊢
        refine ⟨(Option.some.inj h).symm, ?_⟩
        split
        · exact Or.inr ⟨htype, rfl⟩
        · exact Or.inl rfl
    · rw [if_neg hto] at h ⊢
      rcases d.addressedVerdict_cases (C := C) env header frame with hv | hv
      · rw [hv] at h
        nomatch h
      · simp only [hv] at h ⊢
        exact ⟨(Option.some.inj h).symm, Or.inl trivial⟩
  · rw [if_pos hversion] at h
    nomatch h

theorem takes_of_received {frame : Bytes} {header : MeshFrameHeader} {source : UInt32}
    (hd : MeshFrameHeader.decode frame = .ok header)
    (h : (d.relayVerdict C env frame).1.receivedFrom = some source) : d.Takes C env header := by
  have haddressed : ∀ source, (d.relayVerdict C env frame).1 = .delivered source →
      d.Addressed C header := fun source heq =>
    addressed_of_relay hd ((congrArg Prod.fst (d.relay_eq env frame)).trans heq)
  unfold relayVerdict at h haddressed
  simp only [hd] at h haddressed
  by_cases hversion : header.version = Rill.version
  · rw [if_neg (not_not.mpr hversion)] at h haddressed
    by_cases hto : header.toNodeId = broadcastNodeId
    · rw [if_pos hto] at h
      rcases d.floodVerdict_cases (C := C) env header with ⟨_, hv⟩ | ⟨_, hv⟩ | ⟨hfloods, -⟩
      · rw [hv] at h
        cases h
      · rw [hv] at h
        cases h
      · exact .inl ⟨hversion, hto, hfloods⟩
    · rw [if_neg hto] at h haddressed
      rcases d.addressedVerdict_cases (C := C) env header frame with hv | hv
      · cases hv.symm.trans h
      · exact .inr (haddressed _ (congrArg Prod.fst hv))
  · rw [if_pos hversion] at h
    cases h

theorem decode_received {frame frame' : Bytes} {header : MeshFrameHeader}
    (hd : MeshFrameHeader.decode frame = .ok header)
    (hframe : frame' = frame ∨ header.packetType = PacketType.broadcast ∧
      frame' = decrementTtl frame) :
    ∃ ttl, MeshFrameHeader.decode frame' = .ok { header with ttl := ttl } := by
  rcases hframe with rfl | ⟨-, rfl⟩
  · exact ⟨header.ttl, hd⟩
  · exact ⟨_, decode_decrementTtl hd⟩

end Received

end MeshData

end Rill
