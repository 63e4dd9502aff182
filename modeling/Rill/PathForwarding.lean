import Rill.Frame
import Rill.MeshDispatch
import Rill.SessionNonce

/-!
# The way of a frame along a path

`Scene` gives the tables and the surroundings of every node at every step, and `travel` follows a
frame from node to node: each one relays it to the next node that it chooses. A frame on a path goes
through the hops of the path in their order, and the answer to a path probe back through them. On no
tables is a frame passed on more often than its lifetime says. The lifetime is not part of what the
MAC covers, so it can be lowered on the way.
-/

namespace Rill

namespace MeshData
variable {σ : Type} {C : Crypto}

/-- The node has the key of the path and an entry for it, and no other path with its id. -/
structure Holds (d : MeshData σ) (path : PathEntry) (key : Bytes) (nowUnix : UInt64) : Prop where
  key : d.keyPathTable[path.pathId]? = some key
  forward : d.forwardPaths[path.pathId]? = some path
  unexpired : path.expired nowUnix = false
  unique : ∀ (dest : UInt32), ∀ p ∈ d.pathTable[dest]?.getD [], p.pathId = path.pathId →
    p.hops = path.hops

/-- A frame that carries the MAC of the path. -/
structure OnPath (C : Crypto) (path : PathEntry) (key : Bytes) (header : MeshFrameHeader) :
    Prop where
  version : header.version = Rill.version
  unicast : header.toNodeId ≠ broadcastNodeId
  pathId : header.pathId = path.pathId
  mac : C.routeMac key header.authInput = header.routeMac

theorem authInput_ttl (header : MeshFrameHeader) (ttl : UInt8) :
    ({ header with ttl }).authInput = header.authInput := by
  rw [MeshFrameHeader.authInput_eq, MeshFrameHeader.authInput_eq]

theorem OnPath.withTtl {path : PathEntry} {key : Bytes} {header : MeshFrameHeader}
    (h : OnPath C path key header) (ttl : UInt8) : OnPath C path key { header with ttl } where
  version := h.version
  unicast := h.unicast
  pathId := h.pathId
  mac := by
    rw [authInput_ttl]
    exact h.mac

variable {d : MeshData σ} {path : PathEntry} {key : Bytes} {nowUnix : UInt64}

/-- Whatever entry the node finds for the path has the hops of the path. -/
theorem Holds.pathNextNode_eq (h : d.Holds path key nowUnix) {header : MeshFrameHeader}
    (hpath : header.pathId = path.pathId) : d.pathNextNode header nowUnix =
      (path.hops.idxOf? d.selfNodeId).bind fun idx =>
        if header.packetType = PacketType.pathProbe ∧
            header.flags &&& pathProbeFlagResponse ≠ 0 then
          some (if 0 < idx then path.hops.getD (idx - 1) 0 else header.toNodeId)
        else path.hops[idx + 1]? := by
  unfold pathNextNode
  rw [hpath, h.forward]
  dsimp only
  cases hown : (d.pathTable[header.toNodeId]?.getD []).find? fun p =>
      p.pathId == path.pathId && !p.expired nowUnix with
  | none => simp [Option.filter, h.unexpired]
  | some p =>
    have hp := List.find?_some hown
    rw [Bool.and_eq_true, beq_iff_eq] at hp
    rw [Option.some_or, Option.bind_some,
      h.unique header.toNodeId p (List.mem_of_find?_eq_some hown) hp.1]

theorem Holds.sendAlongPath_eq (h : d.Holds path key nowUnix) (dest : UInt32) {env : CallEnv}
    (hsent : env.outcome = .sent) :
    d.sendAlongPath path.pathId dest env = some (hopBefore path d.selfNodeId dest) := by
  unfold sendAlongPath
  dsimp only
  rw [hsent]
  cases hown : (d.pathTable[dest]?.getD []).find? fun p => p.pathId == path.pathId with
  | none => rw [Option.none_or, h.forward]
  | some p =>
    have hp := List.find?_some hown
    rw [beq_iff_eq] at hp
    simp only [Option.some_or, hopBefore,
      h.unique dest p (List.mem_of_find?_eq_some hown) hp]

theorem relay_at_end {frame : Bytes} {header : MeshFrameHeader} {env : CallEnv}
    (hd : MeshFrameHeader.decode frame = .ok header) (hpath : OnPath C path key header)
    (hid : path.pathId ≠ pathIdDefault) (hkey : d.keyPathTable[path.pathId]? = some key)
    (hto : header.toNodeId = d.selfNodeId) :
    d.relay C frame env = (.delivered header.fromNodeId, d, frame) := by
  have hroute : d.routeKey header.toNodeId header.pathId = some key := by
    rw [routeKey, hpath.pathId, if_pos hid, hkey]
  simp only [relay, hd, hpath.version, hpath.unicast, hroute, hpath.mac, if_pos hto, ne_eq,
    not_true_eq_false, if_false]

theorem relay_between {frame : Bytes} {header : MeshFrameHeader} {env : CallEnv} {next : UInt32}
    (hd : MeshFrameHeader.decode frame = .ok header) (hpath : OnPath C path key header)
    (hid : path.pathId ≠ pathIdDefault) (hkey : d.keyPathTable[path.pathId]? = some key)
    (hto : header.toNodeId ≠ d.selfNodeId) (httl : header.ttl ≠ 0)
    (hnext : d.pathNextNode header env.nowUnix = some next) (hsent : env.outcome = .sent) :
    d.relay C frame env = (.forwarded header.toNodeId next, d, decrementTtl frame) := by
  have hroute : d.routeKey header.toNodeId header.pathId = some key := by
    rw [routeKey, hpath.pathId, if_pos hid, hkey]
  have hid' : header.pathId ≠ pathIdDefault := hpath.pathId ▸ hid
  simp only [relay, hd, hpath.version, hpath.unicast, hroute, hpath.mac, if_neg hto, if_neg httl,
    if_pos hid', hnext, hsent, ne_eq, not_true_eq_false, if_false]

theorem of_relay_forwarded {frame frame' : Bytes} {env : CallEnv} {dest next : UInt32}
    {d' : MeshData σ} (h : d.relay C frame env = (.forwarded dest next, d', frame')) :
    ∃ header, MeshFrameHeader.decode frame = .ok header ∧ header.ttl ≠ 0 ∧
      frame' = decrementTtl frame := by
  unfold relay at h
  split at h
  · cases h
  · rename_i header hd
    split at h
    · cases h
    · split at h
      · unfold relayBroadcast at h
        dsimp only at h
        repeat' split at h
        all_goals cases h
      · split at h
        · cases h
        · split at h
          · cases h
          · split at h
            · cases h
            · split at h
              · cases h
              · rename_i httl
                dsimp only at h
                split at h <;> cases h
                exact ⟨header, hd, httl, rfl⟩

end MeshData

/-- The tables and the surroundings of each node at each step. -/
structure Scene (σ : Type) where
  node : ℕ → UInt32 → MeshData σ
  env : ℕ → UInt32 → CallEnv

namespace Scene
open MeshData
variable {σ : Type} (C : Crypto) (w : Scene σ)

/-- The nodes that pass on a frame which is at node `x` at step `n`, and the node at which it is
delivered, within `k` steps. -/
def travel : ℕ → ℕ → UInt32 → Bytes → List UInt32 × Option UInt32
  | _, 0, _, _ => ([], none)
  | n, k + 1, x, frame =>
    match (w.node n x).relay C frame (w.env n x) with
    | (.delivered _, _, _) => ([], some x)
    | (.forwarded _ next, _, frame') =>
      let r := travel (n + 1) k next frame'
      (x :: r.1, r.2)
    | _ => ([], none)

/-- A path from one node to another whose hops have its key and its entry, as the source has its
key. Every send reaches the node it is for. -/
structure PathHeld (path : PathEntry) (key : Bytes) (source dest : UInt32) : Prop where
  pathId_ne : path.pathId ≠ pathIdDefault
  nodup : path.hops.Nodup
  last : path.hops.getLast? = some dest
  source_notMem : source ∉ path.hops
  source_ne : source ≠ broadcastNodeId
  dest_ne : dest ≠ broadcastNodeId
  ids : ∀ n x, (w.node n x).selfNodeId = x
  holds : ∀ n, ∀ x ∈ path.hops, (w.node n x).Holds path key (w.env n x).nowUnix
  sourceKey : ∀ n, (w.node n source).keyPathTable[path.pathId]? = some key
  sends : ∀ n x, (w.env n x).outcome = .sent

variable {C w}

theorem travel_delivered {n k : ℕ} {x source : UInt32} {frame frame' : Bytes} {d : MeshData σ}
    (h : (w.node n x).relay C frame (w.env n x) = (.delivered source, d, frame')) :
    w.travel C n (k + 1) x frame = ([], some x) := by
  rw [travel, h]

theorem toNat_pred_ttl {ttl : UInt8} (h : ttl ≠ 0) : (ttl - 1).toNat = ttl.toNat - 1 := by
  have hpos : 1 ≤ ttl := by
    rw [UInt8.le_iff_toNat_le]
    exact Nat.one_le_iff_ne_zero.mpr fun hzero => h (UInt8.toNat_inj.mp hzero)
  exact UInt8.toNat_sub_of_le _ _ hpos

theorem ttl_ne_zero {ttl : UInt8} {n : ℕ} (h : n < ttl.toNat) : ttl ≠ 0 := by
  rintro rfl
  exact Nat.not_lt_zero n h

/-- No frame is passed on more often than its lifetime says. -/
theorem length_travel_le (n k : ℕ) (x : UInt32) {frame : Bytes} {header : MeshFrameHeader}
    (hd : MeshFrameHeader.decode frame = .ok header) :
    (w.travel C n k x frame).1.length ≤ header.ttl.toNat := by
  induction k generalizing n x frame header with
  | zero => exact Nat.zero_le _
  | succ k ih =>
    rw [travel]
    split
    · exact Nat.zero_le _
    · rename_i dest next d' frame' hrelay
      obtain ⟨header', hd', httl, rfl⟩ := of_relay_forwarded hrelay
      cases hd.symm.trans hd'
      have hpos : 0 < header.ttl.toNat :=
        Nat.pos_of_ne_zero fun hzero => httl (UInt8.toNat_inj.mp hzero)
      have hrest := ih (n + 1) next (decode_decrementTtl hd)
      simp only [toNat_pred_ttl httl] at hrest
      simp only [List.length_cons]
      omega
    · exact Nat.zero_le _

theorem idxOf?_split {x : UInt32} {pre rest : List UInt32} (h : x ∉ pre) :
    (pre ++ x :: rest).idxOf? x = some pre.length := by
  induction pre with
  | nil => simp [List.idxOf?_cons]
  | cons y pre ih =>
    rw [List.mem_cons, not_or] at h
    rw [List.cons_append, List.idxOf?_cons, if_neg (by simpa using Ne.symm h.1), ih h.2]
    rfl

section Path
variable {path : PathEntry} {key : Bytes} {source dest : UInt32}

theorem PathHeld.idxOf? (h : w.PathHeld path key source dest) {pre rest : List UInt32} {x : UInt32}
    (hsplit : path.hops = pre ++ x :: rest) (n : ℕ) :
    path.hops.idxOf? (w.node n x).selfNodeId = some pre.length := by
  have hnodup := h.nodup
  rw [hsplit] at hnodup
  rw [h.ids, hsplit]
  exact idxOf?_split fun hmem => (List.disjoint_of_nodup_append hnodup) hmem List.mem_cons_self

theorem PathHeld.ne_dest (h : w.PathHeld path key source dest) {pre rest : List UInt32}
    {x y : UInt32} (hsplit : path.hops = pre ++ x :: y :: rest) : x ≠ dest := by
  have hlast := h.last
  have hnodup := h.nodup
  rw [hsplit] at hlast hnodup
  rw [List.getLast?_append, List.getLast?_cons_cons] at hlast
  rintro rfl
  have hmem : x ∈ y :: rest := by
    refine List.mem_of_getLast? ?_
    rwa [List.getLast?_eq_some_getLast (List.cons_ne_nil y rest), Option.some_or] at hlast
  exact (List.nodup_cons.mp (List.Nodup.of_append_right hnodup)).1 hmem

theorem PathHeld.travel_between (h : w.PathHeld path key source dest) {n : ℕ} {x y : UInt32}
    (hmem : x ∈ path.hops) {frame : Bytes} {header : MeshFrameHeader}
    (hd : MeshFrameHeader.decode frame = .ok header) (hpath : OnPath C path key header)
    (hto : header.toNodeId ≠ x) (httl : header.ttl ≠ 0)
    (hnext : (w.node n x).pathNextNode header (w.env n x).nowUnix = some y) (k : ℕ) :
    w.travel C n (k + 1) x frame = (x :: (w.travel C (n + 1) k y (decrementTtl frame)).1,
      (w.travel C (n + 1) k y (decrementTtl frame)).2) := by
  have hne : header.toNodeId ≠ (w.node n x).selfNodeId := by rwa [h.ids]
  rw [travel, relay_between hd hpath h.pathId_ne (h.holds n x hmem).key hne httl hnext (h.sends n x)]

/-- A frame to the end of the path goes through the hops that are left. -/
theorem PathHeld.travel_forth (h : w.PathHeld path key source dest) {rest : List UInt32}
    {pre : List UInt32} {x : UInt32} (hsplit : path.hops = pre ++ x :: rest) {frame : Bytes}
    {header : MeshFrameHeader} (hd : MeshFrameHeader.decode frame = .ok header)
    (hpath : OnPath C path key header) (hto : header.toNodeId = dest)
    (htype : header.packetType = PacketType.unicast) (httl : rest.length ≤ header.ttl.toNat)
    {k : ℕ} (hk : rest.length < k) (n : ℕ) :
    w.travel C n k x frame = ((x :: rest).dropLast, some dest) := by
  have hmem : x ∈ path.hops := by
    rw [hsplit]
    simp
  obtain ⟨k, rfl⟩ := Nat.exists_eq_add_one_of_ne_zero (by omega : k ≠ 0)
  induction rest generalizing pre x frame header k n with
  | nil =>
    obtain rfl : x = dest := by
      have hlast := h.last
      rw [hsplit, List.getLast?_concat] at hlast
      exact Option.some.inj hlast
    exact travel_delivered (relay_at_end hd hpath h.pathId_ne (h.holds n x hmem).key
      (hto.trans (h.ids n x).symm))
  | cons y rest ih =>
    rw [List.length_cons] at httl hk
    have hpos := ttl_ne_zero httl
    have hnext : (w.node n x).pathNextNode header (w.env n x).nowUnix = some y := by
      rw [(h.holds n x hmem).pathNextNode_eq hpath.pathId, h.idxOf? hsplit, Option.bind_some,
        if_neg (by rw [htype]; exact fun hprobe => absurd hprobe.1 (by decide)), hsplit]
      simp
    obtain ⟨k, rfl⟩ := Nat.exists_eq_add_one_of_ne_zero (by omega : k ≠ 0)
    have hsplit' : path.hops = (pre ++ [x]) ++ y :: rest := by
      rw [hsplit]
      simp
    have hleft : rest.length ≤ (header.ttl - 1).toNat := by
      rw [toNat_pred_ttl hpos]
      omega
    rw [h.travel_between hmem hd hpath (hto ▸ (h.ne_dest hsplit).symm) hpos hnext,
      ih hsplit' (decode_decrementTtl hd) (hpath.withTtl _) hto htype hleft (n + 1)
        (by rw [hsplit']; simp) k (by omega)]
    rfl

theorem PathHeld.travel_back_step (h : w.PathHeld path key source dest) {pre rest : List UInt32}
    {x : UInt32} (hsplit : path.hops = pre ++ x :: rest) {frame : Bytes}
    {header : MeshFrameHeader} (hd : MeshFrameHeader.decode frame = .ok header)
    (hpath : OnPath C path key header) (hto : header.toNodeId = source)
    (htype : header.packetType = PacketType.pathProbe)
    (hflag : header.flags &&& pathProbeFlagResponse ≠ 0) (httl : header.ttl ≠ 0) (n k : ℕ) :
    w.travel C n (k + 1) x frame =
      (x :: (w.travel C (n + 1) k (pre.getLast?.getD source) (decrementTtl frame)).1,
        (w.travel C (n + 1) k (pre.getLast?.getD source) (decrementTtl frame)).2) := by
  have hmem : x ∈ path.hops := by
    rw [hsplit]
    simp
  have hne : header.toNodeId ≠ x := fun heq => h.source_notMem (hto ▸ heq ▸ hmem)
  refine h.travel_between hmem hd hpath hne httl ?_ k
  rw [(h.holds n x hmem).pathNextNode_eq hpath.pathId, h.idxOf? hsplit, Option.bind_some,
    if_pos ⟨htype, hflag⟩, hto]
  cases pre using List.reverseRecOn with
  | nil => rfl
  | append_singleton pre y =>
    rw [hsplit]
    simp

/-- An answer to the source goes back through the hops before. -/
theorem PathHeld.travel_back (h : w.PathHeld path key source dest) {pre rest : List UInt32}
    {x : UInt32} (hsplit : path.hops = pre ++ x :: rest) {frame : Bytes}
    {header : MeshFrameHeader} (hd : MeshFrameHeader.decode frame = .ok header)
    (hpath : OnPath C path key header) (hto : header.toNodeId = source)
    (htype : header.packetType = PacketType.pathProbe)
    (hflag : header.flags &&& pathProbeFlagResponse ≠ 0) (httl : pre.length < header.ttl.toNat)
    (n k : ℕ) :
    w.travel C n (pre.length + k + 2) x frame = (x :: pre.reverse, some source) := by
  have hpos := ttl_ne_zero httl
  rw [h.travel_back_step hsplit hd hpath hto htype hflag hpos]
  have hd' := decode_decrementTtl hd
  induction pre using List.reverseRecOn generalizing rest x frame header n with
  | nil =>
    rw [List.getLast?_nil, Option.getD_none, List.length_nil, travel_delivered
      (relay_at_end hd' (hpath.withTtl _) h.pathId_ne (h.sourceKey _) (hto.trans (h.ids _ _).symm))]
    rfl
  | append_singleton pre y ih =>
    have hsplit' : path.hops = pre ++ y :: x :: rest := by
      rw [hsplit]
      simp
    rw [List.length_append, List.length_singleton] at httl ⊢
    have hleft : pre.length < (header.ttl - 1).toNat := by
      rw [toNat_pred_ttl hpos]
      omega
    have hpos' := ttl_ne_zero hleft
    have hlen : pre.length + 1 + k + 1 = pre.length + k + 1 + 1 := by omega
    rw [List.getLast?_concat, Option.getD_some, hlen,
      h.travel_back_step hsplit' hd' (hpath.withTtl _) hto htype hflag hpos',
      ih hsplit' hd' (hpath.withTtl _) hto htype hflag hleft (n + 1) hpos'
        (decode_decrementTtl hd')]
    simp

theorem onPath_of_buildDataFrame {d : MeshData σ} {payload f : Bytes} {flowHash nowUnix : UInt64}
    {hop : Option UInt32} (hid : path.pathId ≠ pathIdDefault) (hdest : dest ≠ broadcastNodeId)
    (hkey : d.keyPathTable[path.pathId]? = some key)
    (hpick : (d.pickPath dest flowHash nowUnix).1 = some path)
    (hbuild : (d.buildDataFrame C dest payload flowHash nowUnix).1 = .ok (f, hop)) (ttl : UInt8) :
    hop = path.hops.head? ∧ ∃ header, MeshFrameHeader.decode (f.set 3 ttl) = .ok header ∧
      OnPath C path key header ∧ header.toNodeId = dest ∧
      header.packetType = PacketType.unicast ∧ header.ttl = ttl := by
  have hroute : (d.pickPath dest flowHash nowUnix).2.routeKey dest path.pathId = some key := by
    rw [pickPath_routeKey, routeKey, if_pos hid, hkey]
  simp only [buildDataFrame, hpick, Option.map_some, Option.getD_some, Option.bind_some] at hbuild
  cases hs : (d.pickPath dest flowHash nowUnix).2.sessions[dest]? with
  | none =>
    simp only [buildTypedFrame, hs] at hbuild
    cases hbuild
  | some s =>
    rw [buildTypedFrame_of_session hs hroute, Crypto.buildFrame_eq] at hbuild
    split at hbuild
    · cases hbuild
    · obtain ⟨rfl, rfl⟩ := Prod.mk.inj (Except.ok.inj hbuild)
      rw [MeshFrameHeader.set_ttl_encode]
      refine ⟨rfl, _, MeshFrameHeader.decode_encode_append _ _,
        OnPath.withTtl ⟨rfl, hdest, rfl, ?_⟩ ttl, rfl, rfl, rfl⟩
      rw [Crypto.authInput_sealedHeader]
      rfl

theorem handlePathProbe_sent {d : MeshData σ} {request : MeshFrameHeader} {payload f : Bytes}
    {env : CallEnv} (hsent : (d.handlePathProbe C request payload env).sent = some f) :
    (d.handlePathProbe C request payload env).hop =
        d.sendAlongPath request.pathId request.fromNodeId env ∧
      ∃ key resp, d.keyPathTable[request.pathId]? = some key ∧ f = C.buildUnsealedFrame
        { toNodeId := request.fromNodeId, fromNodeId := d.selfNodeId, pathId := request.pathId,
          packetType := PacketType.pathProbe, flags := pathProbeFlagResponse } key resp := by
  unfold handlePathProbe at hsent ⊢
  cases hp : PathProbePayload.decode payload with
  | none => simp [hp] at hsent
  | some p =>
    simp only [hp] at hsent ⊢
    by_cases hresponse : p.response = true
    · rw [if_pos hresponse] at hsent
      split at hsent <;> cases hsent
    · rw [if_neg hresponse] at hsent ⊢
      split at hsent
      · cases hsent
      · rename_i htoken
        rw [if_neg htoken]
        cases hkey : d.keyPathTable[request.pathId]? with
        | none => simp [hkey] at hsent
        | some key =>
          cases hnext : d.sendAlongPath request.pathId request.fromNodeId env with
          | none => simp [hkey, hnext] at hsent
          | some next =>
            simp only [hkey, hnext, Option.some.injEq] at hsent ⊢
            exact ⟨trivial, key, _, rfl, hsent.symm⟩

theorem onPath_of_answer {d : MeshData σ} {request : MeshFrameHeader} {resp : Bytes}
    (hsource : source ≠ broadcastNodeId) (hpath : request.pathId = path.pathId)
    (hfrom : request.fromNodeId = source) (ttl : UInt8) :
    ∃ header, MeshFrameHeader.decode ((C.buildUnsealedFrame
        { toNodeId := request.fromNodeId, fromNodeId := d.selfNodeId, pathId := request.pathId,
          packetType := PacketType.pathProbe, flags := pathProbeFlagResponse } key resp).set 3 ttl) =
        .ok header ∧ OnPath C path key header ∧
      header.toNodeId = source ∧ header.packetType = PacketType.pathProbe ∧
      header.flags &&& pathProbeFlagResponse ≠ 0 ∧ header.ttl = ttl := by
  have hflag : pathProbeFlagResponse &&& pathProbeFlagResponse ≠ 0 := by decide
  rw [Crypto.buildUnsealedFrame, MeshFrameHeader.set_ttl_encode, hpath, hfrom]
  refine ⟨_, MeshFrameHeader.decode_encode_append _ _,
    OnPath.withTtl ⟨rfl, hsource, rfl, ?_⟩ ttl, rfl, rfl, hflag, rfl⟩
  rw [MeshFrameHeader.authInput_eq, MeshFrameHeader.authInput_eq]

/-- A data frame goes through the hops of its path to the end, the answer to a probe from the end
through the hops back to the source, and no frame on no tables further than its lifetime. -/
theorem path_forwarding (h : w.PathHeld path key source dest) :
    (∀ (n₀ : ℕ) (payload f : Bytes) (flowHash nowUnix : UInt64) (hop : Option UInt32) (ttl : UInt8),
      ((w.node n₀ source).pickPath dest flowHash nowUnix).1 = some path →
      ((w.node n₀ source).buildDataFrame C dest payload flowHash nowUnix).1 = .ok (f, hop) →
      path.hops.length ≤ ttl.toNat + 1 → ∃ first, hop = some first ∧ ∀ n k,
        path.hops.length ≤ k →
          w.travel C n k first (f.set 3 ttl) = (path.hops.dropLast, some dest)) ∧
    (∀ (n₀ : ℕ) (request : MeshFrameHeader) (payload f : Bytes) (ttl : UInt8),
      request.pathId = path.pathId → request.fromNodeId = source →
      ((w.node n₀ dest).handlePathProbe C request payload (w.env n₀ dest)).sent = some f →
      path.hops.length ≤ ttl.toNat + 1 →
      ∃ first, ((w.node n₀ dest).handlePathProbe C request payload (w.env n₀ dest)).hop =
        some first ∧ ∀ n k,
        path.hops.length ≤ k →
          w.travel C n k first (f.set 3 ttl) = (path.hops.dropLast.reverse, some source)) ∧
    ∀ (w' : Scene σ) (n k : ℕ) (x : UInt32) (frame : Bytes) (header : MeshFrameHeader),
      MeshFrameHeader.decode frame = .ok header →
        (w'.travel C n k x frame).1.length ≤ header.ttl.toNat := by
  refine ⟨?_, ?_, fun w' n k x frame header hd => length_travel_le n k x hd⟩
  · intro n₀ payload f flowHash nowUnix hop ttl hpick hbuild httl
    obtain ⟨rfl, header, hd, hpath, hto, htype, rfl⟩ :=
      onPath_of_buildDataFrame h.pathId_ne h.dest_ne (h.sourceKey n₀) hpick hbuild ttl
    cases hhops : path.hops with
    | nil =>
      have hlast := h.last
      rw [hhops] at hlast
      cases hlast
    | cons first rest =>
      rw [hhops, List.length_cons] at httl
      have hsplit : path.hops = [] ++ first :: rest := hhops
      refine ⟨first, rfl, fun n k hk => ?_⟩
      rw [List.length_cons] at hk
      exact h.travel_forth hsplit hd hpath hto htype (by omega) (by omega) n
  · intro n₀ request payload f ttl hrequest hfrom hsent httl
    have hmem : dest ∈ path.hops := List.mem_of_getLast? h.last
    obtain ⟨hhop, key', resp, hkey, rfl⟩ := handlePathProbe_sent hsent
    rw [hrequest, (h.holds n₀ dest hmem).key] at hkey
    cases hkey
    obtain ⟨header, hd, hpath, hto, htype, hflag, rfl⟩ :=
      onPath_of_answer h.source_ne hrequest hfrom ttl
    obtain ⟨init, hinit⟩ : ∃ init, path.hops = init ++ [dest] := by
      have hlast := List.dropLast_append_getLast? dest h.last
      exact ⟨_, hlast.symm⟩
    rw [hrequest, hfrom, (h.holds n₀ dest hmem).sendAlongPath_eq source (h.sends n₀ dest), hopBefore,
      h.idxOf? hinit] at hhop
    refine ⟨_, hhop, fun n k hk => ?_⟩
    cases init using List.reverseRecOn with
    | nil =>
      rw [hinit] at hk ⊢
      obtain ⟨k, rfl⟩ := Nat.exists_eq_add_of_le' hk
      exact travel_delivered (relay_at_end hd hpath h.pathId_ne (h.sourceKey n)
        (hto.trans (h.ids n source).symm))
    | append_singleton pre y =>
      have hsplit : path.hops = pre ++ y :: [dest] := by
        rw [hinit]
        simp
      have hlen : path.hops.length = pre.length + 2 := by
        rw [hsplit]
        simp
      obtain ⟨k, rfl⟩ := Nat.exists_eq_add_of_le (hlen ▸ hk)
      have hback := h.travel_back hsplit hd hpath hto htype hflag (by omega) n k
      have hfuel : pre.length + 2 + k = pre.length + k + 2 := by omega
      have hdrop : path.hops.dropLast = pre ++ [y] := by rw [hinit, List.dropLast_concat]
      have hfirst : path.hops.getD pre.length 0 = y := by
        rw [hsplit]
        simp
      simp only [List.length_append, List.length_singleton, hfirst, hfuel, hback, hdrop,
        List.reverse_append, List.reverse_singleton, List.singleton_append]

end Path

section Example

def labPath : PathEntry := ⟨7, 1, [2, 3], 0⟩

def labNode (x : UInt32) : MeshData ClearState where
  selfNodeId := x
  keyPathTable := (∅ : Table UInt64 Bytes).insert 7 [8]
  pathTable := (∅ : Table UInt32 (List PathEntry)).insert 3 [labPath]
  forwardPaths := (∅ : Table UInt64 PathEntry).insert 7 labPath
  sessions := (∅ : Table UInt32 Session).insert 3 (Session.new 3 ⟨3, [1], [2]⟩)

def labScene : Scene ClearState := ⟨fun _ => labNode, fun _ _ => {}⟩

theorem labScene_pathHeld : labScene.PathHeld labPath [8] 1 3 where
  pathId_ne := by decide
  nodup := by decide
  last := rfl
  source_notMem := by decide
  source_ne := by decide
  dest_ne := by decide
  ids _ _ := rfl
  holds n x _ :=
    { key := rfl
      forward := rfl
      unexpired := rfl
      unique := by
        intro dest p hp _
        change p ∈ ((∅ : Table UInt32 (List PathEntry)).insert 3 [labPath])[dest]?.getD [] at hp
        rw [Table.getElem?_insert] at hp
        split_ifs at hp
        · rw [List.mem_singleton.mp hp]
        · simp at hp }
  sourceKey _ := rfl
  sends _ _ := rfl

theorem lab_path_forwarding : ∃ f hop, ((labScene.node 0 1).buildDataFrame (Crypto.clear 100) 3 [5]
    0 0).1 = .ok (f, hop) ∧ ∃ first, hop = some first ∧ ∀ n k, labPath.hops.length ≤ k →
      labScene.travel (Crypto.clear 100) n k first (f.set 3 1) =
        (labPath.hops.dropLast, some 3) :=
  ⟨_, _, rfl, (path_forwarding labScene_pathHeld).1 0 [5] _ 0 0 _ 1 rfl rfl (by decide)⟩

end Example

end Scene

end Rill
