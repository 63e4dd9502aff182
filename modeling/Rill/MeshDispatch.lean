import Rill.MeshHandshake

/-!
# Receiving frames

A received frame passes `relay`, which checks the version and the route MAC and decides whether
the frame is for this node, is to be forwarded, or is dropped; a frame for this node is then
dispatched by its packet type. The order of the checks is that of `rill-mesh/src/data/relay.rs`,
`broadcast.rs`, `session.rs` and `path_stats.rs`.
-/

namespace Rill

inductive RelayOutcome where
  | forwarded (dest next : UInt32)
  | delivered (source : UInt32)
  | flooded (source : UInt32)
  | dropped (reason : DropReason)
  deriving DecidableEq

structure PathProbePayload where
  nonce : UInt32
  sentMs : UInt64
  response : Bool
  deriving DecidableEq

namespace PathProbePayload

def encode (p : PathProbePayload) : Bytes :=
  u32be p.nonce ++ (u64be p.sentMs ++ [if p.response then 1 else 0])

def decode (buf : Bytes) : Option PathProbePayload :=
  if buf.length ≠ 13 then none
  else some
    { nonce := UInt32.ofNat (readBE (field 0 4 buf))
      sentMs := UInt64.ofNat (readBE (field 4 8 buf))
      response := buf.getD 12 0 &&& 1 == 1 }

end PathProbePayload

def floodSeenTtl : ℕ := 30000000000

def pathProbeFlagResponse : UInt8 := 0x01

namespace MeshData
variable {σ : Type} (N : Snow σ) (C : Crypto)

def pruneFloodSeen (d : MeshData σ) (now : ℕ) : MeshData σ :=
  { d with floodSeen := d.floodSeen.filter fun _ seenAt => now ≤ seenAt + floodSeenTtl }

def relayBroadcast (d : MeshData σ) (header : MeshFrameHeader) (frame : Bytes) (env : CallEnv) :
    RelayOutcome × MeshData σ × Bytes :=
  if header.packetType ≠ PacketType.broadcast then (.dropped .unsupportedType, d, frame)
  else
    match d.broadcastKey with
    | none => (.dropped .noKeyDst, d, frame)
    | some bkey =>
      if C.routeMac bkey header.authInput ≠ header.routeMac then (.dropped .badRouteMac, d, frame)
      else if header.fromNodeId = d.selfNodeId then (.dropped .duplicate, d, frame)
      else
        let d := d.pruneFloodSeen env.now
        if (d.floodSeen[(header.fromNodeId, header.seq)]?).isSome then
          (.dropped .duplicate, d, frame)
        else if header.ttl = 0 then (.dropped .ttlExpired, d, frame)
        else
          let d := { d with
            floodSeen := d.floodSeen.insert (header.fromNodeId, header.seq) env.now }
          (.flooded header.fromNodeId, d, if env.floodToken then decrementTtl frame else frame)

def pathNextNode (d : MeshData σ) (header : MeshFrameHeader) (nowUnix : UInt64) : Option UInt32 :=
  let own := (d.pathTable[header.toNodeId]?.getD []).find? fun p =>
    p.pathId == header.pathId && !p.expired nowUnix
  let path := own.or ((d.forwardPaths[header.pathId]?).filter fun p => !p.expired nowUnix)
  path.bind fun p =>
    (p.hops.idxOf? d.selfNodeId).bind fun idx =>
      if header.packetType = PacketType.pathProbe ∧ header.flags &&& pathProbeFlagResponse ≠ 0 then
        some (if 0 < idx then p.hops.getD (idx - 1) 0 else header.toNodeId)
      else p.hops[idx + 1]?

/-- The outcome, and the frame buffer after the call. -/
def relay (d : MeshData σ) (frame : Bytes) (env : CallEnv) : RelayOutcome × MeshData σ × Bytes :=
  match MeshFrameHeader.decode frame with
  | .error _ => (.dropped .short, d, frame)
  | .ok header =>
    if header.version ≠ Rill.version then (.dropped .badVersion, d, frame)
    else if header.toNodeId = broadcastNodeId then d.relayBroadcast C header frame env
    else
      match d.routeKey header.toNodeId header.pathId with
      | none => (.dropped .noKeyDst, d, frame)
      | some routeKey =>
        if C.routeMac routeKey header.authInput ≠ header.routeMac then
          (.dropped .badRouteMac, d, frame)
        else if header.toNodeId = d.selfNodeId then (.delivered header.fromNodeId, d, frame)
        else if header.ttl = 0 then (.dropped .ttlExpired, d, frame)
        else
          let next := if header.pathId ≠ pathIdDefault then d.pathNextNode header env.nowUnix
            else some header.toNodeId
          match next, env.outcome with
          | none, _ => (.dropped .noEndpoint, d, frame)
          | some _, .noEndpoint => (.dropped .noEndpoint, d, frame)
          | some _, .failed => (.dropped .noEndpoint, d, decrementTtl frame)
          | some next, .sent => (.forwarded header.toNodeId next, d, decrementTtl frame)

def handleSessionFrame (d : MeshData σ) (source : UInt32) (frame : Bytes) (heartbeat : Bool)
    (env : CallEnv) : IncomingEvent × MeshData σ :=
  match MeshFrameHeader.decode frame with
  | .error _ => (.dropped .short, d)
  | .ok header =>
    match d.routeKey d.selfNodeId header.pathId with
    | none => (.dropped .noKeyDst, d)
    | some routeKey =>
      match d.sessions[source]? with
      | none => (.dropped .noSession, d)
      | some session =>
        let (result, session) := session.openFrameInPlace C frame routeKey env.now
        let d := { d with sessions := d.sessions.insert source session }
        match result with
        | .ok (_, ptLen, buf) =>
          if heartbeat && ptLen != 0 then (.dropped .aead, d)
          else
            let d := d.notePathFrame source header.pathId header.seq
            if heartbeat then (.heartbeat source, d) else (.data source (field headerLen ptLen buf), d)
        | .error .replay => (.dropped .replay, d)
        | .error .routeMac => (.dropped .badRouteMac, d)
        | .error _ => (.dropped .aead, d)

def handleBroadcastFrame (d : MeshData σ) (source : UInt32) (frame : Bytes) :
    IncomingEvent × MeshData σ :=
  match d.broadcastKey with
  | none => (.dropped .noKeyDst, d)
  | some bkey =>
    match MeshFrameHeader.decode frame with
    | .error _ => (.dropped .short, d)
    | .ok header =>
      let (fresh, window) := (d.broadcastReplay[source]?.getD ReplayWindow.new).checkAndMark header.seq
      let d := { d with broadcastReplay := d.broadcastReplay.insert source window }
      if !fresh then (.dropped .replay, d)
      else
        match C.openFrameInPlace frame bkey bkey 0 with
        | .ok (_, payload, _) => (.broadcast source payload, d)
        | .error .routeMac => (.dropped .badRouteMac, d)
        | .error _ => (.dropped .aead, d)

def elapsedMs (sent now : ℕ) : UInt32 := UInt32.ofNat (min ((now - sent) / 1000000) 0xFFFFFFFF)

/-- The node before the given one on the path, and before the first hop the destination. -/
def hopBefore (p : PathEntry) (node dest : UInt32) : UInt32 :=
  match p.hops.idxOf? node with
  | some (idx + 1) => p.hops.getD idx 0
  | _ => dest

/-- The node to which the frame went, if it left. -/
def sendAlongPath (d : MeshData σ) (pathId : UInt64) (dest : UInt32) (env : CallEnv) :
    Option UInt32 :=
  let own := (d.pathTable[dest]?.getD []).find? fun p => p.pathId == pathId
  match own.or d.forwardPaths[pathId]?, env.outcome with
  | some p, .sent => some (hopBefore p d.selfNodeId dest)
  | _, _ => none

def handlePathProbe (d : MeshData σ) (header : MeshFrameHeader) (payload : Bytes) (env : CallEnv) :
    Handled σ :=
  match PathProbePayload.decode payload with
  | none => { event := .dropped .short, node := d }
  | some p =>
    if p.response then
      match d.pathProbePending[p.nonce]? with
      | none => { event := .dropped .replay, node := d }
      | some (dest, pathId, sent) =>
        let rtt := elapsedMs sent env.now
        let d := { d with pathProbePending := d.pathProbePending.erase p.nonce }
        let d := d.pathOk pathId
        let d := { d with
          pathStats := d.pathStats.modify (dest, pathId) fun st => { st with rttMs := rtt } }
        { event := .pathProbeRtt dest pathId rtt, node := d }
    else if !env.probeToken then { event := .dropped .rateLimited, node := d }
    else
      match d.keyPathTable[header.pathId]? with
      | none => { event := .dropped .noKeyDst, node := d }
      | some key =>
        let resp : PathProbePayload := ⟨p.nonce, p.sentMs, true⟩
        let respHeader : MeshFrameHeader :=
          { toNodeId := header.fromNodeId, fromNodeId := d.selfNodeId, pathId := header.pathId,
            packetType := PacketType.pathProbe, flags := pathProbeFlagResponse }
        match d.sendAlongPath header.pathId header.fromNodeId env with
        | some next =>
          { event := .pathProbeServed header.fromNodeId, node := d
            sent := some (C.buildUnsealedFrame respHeader key resp.encode), hop := some next }
        | none => { event := .dropped .noEndpoint, node := d }

def dispatchDelivered (d : MeshData σ) (source : UInt32) (frame : Bytes) (env : CallEnv) :
    Handled σ :=
  match MeshFrameHeader.decode frame with
  | .error _ => { event := .dropped .short, node := d }
  | .ok header =>
    if header.packetType = PacketType.handshake then
      match framePayload frame with
      | some payload => d.handleHandshake N C source payload env
      | none => { event := .dropped .short, node := d }
    else if header.packetType = PacketType.unicast then
      let r := d.handleSessionFrame C source frame false env
      { event := r.1, node := r.2 }
    else if header.packetType = PacketType.heartbeat then
      let r := d.handleSessionFrame C source frame true env
      { event := r.1, node := r.2 }
    else if header.packetType = PacketType.broadcast then
      let r := d.handleBroadcastFrame C source frame
      { event := r.1, node := r.2 }
    else if header.packetType = PacketType.pathProbe then
      match framePayload frame with
      | some payload => d.handlePathProbe C header payload env
      | none => { event := .dropped .short, node := d }
    else { event := .dropped .unsupportedType, node := d }

/-- Bookkeeping of the neighbour a delivered frame came in from. -/
def noteIngress (d : MeshData σ) (source : UInt32) (env : CallEnv) : MeshData σ :=
  let d := match env.ingress with
    | some ingress => { d with ingressHop := d.ingressHop.insert source ingress }
    | none => d
  d.applyIngressHealth source

def handleFrame (d : MeshData σ) (frame : Bytes) (env : CallEnv) : Handled σ :=
  match d.relay C frame env with
  | (.delivered source, d, frame) => (d.noteIngress source env).dispatchDelivered N C source frame env
  | (.flooded source, d, frame) => (d.noteIngress source env).dispatchDelivered N C source frame env
  | (.forwarded dest next, d, frame) =>
    { event := .relayed dest, node := d, sent := some frame, hop := some next }
  | (.dropped reason, d, _) => { event := .dropped reason, node := d }

variable {N C}

theorem decode_decrementTtl {frame : Bytes} {h : MeshFrameHeader}
    (hd : MeshFrameHeader.decode frame = .ok h) :
    MeshFrameHeader.decode (decrementTtl frame) = .ok { h with ttl := h.ttl - 1 } := by
  unfold MeshFrameHeader.decode at hd
  split_ifs at hd with hlen
  have hlen' : ¬ (frame.set 3 (frame.getD 3 0 - 1)).length < headerLen := by
    rwa [List.length_set]
  have hthree : 3 < frame.length := by
    simp only [headerLen] at hlen
    omega
  have hmac : ∀ i : Fin 16, ¬ 3 = 26 + (i : ℕ) := fun i => by omega
  rw [decrementTtl, if_neg hlen, MeshFrameHeader.decode, if_neg hlen', ← Except.ok.inj hd]
  simp [field_set_of_lt, hthree, hmac]

theorem relayBroadcast_spec (d : MeshData σ) {header : MeshFrameHeader} {frame : Bytes}
    (hd : MeshFrameHeader.decode frame = .ok header) (env : CallEnv) :
    ∃ outcome seen frame', d.relayBroadcast C header frame env =
        (outcome, { d with floodSeen := seen }, frame') ∧
      (∀ source, outcome ≠ .delivered source) ∧
      ∀ source, outcome = .flooded source →
        ∃ h, MeshFrameHeader.decode frame' = .ok h ∧ h.packetType = PacketType.broadcast := by
  unfold relayBroadcast
  split
  · exact ⟨_, _, _, rfl, by simp, by simp⟩
  · rename_i htype
    rw [ne_eq, not_not] at htype
    split
    · exact ⟨_, _, _, rfl, by simp, by simp⟩
    · split
      · exact ⟨_, _, _, rfl, by simp, by simp⟩
      · split
        · exact ⟨_, _, _, rfl, by simp, by simp⟩
        · dsimp only
          split
          · exact ⟨_, _, _, rfl, by simp, by simp⟩
          · split
            · exact ⟨_, _, _, rfl, by simp, by simp⟩
            · refine ⟨_, _, _, rfl, by simp, fun _ _ => ?_⟩
              split
              · exact ⟨_, decode_decrementTtl hd, htype⟩
              · exact ⟨header, hd, htype⟩

/-- A frame that is for this node and carries the MAC of its route. -/
def Addressed (C : Crypto) (d : MeshData σ) (header : MeshFrameHeader) : Prop :=
  header.version = Rill.version ∧ header.toNodeId = d.selfNodeId ∧
    d.selfNodeId ≠ broadcastNodeId ∧ ∃ key ∈ d.routeKey d.selfNodeId header.pathId,
      C.routeMac key header.authInput = header.routeMac

/-- Relaying changes nothing but the broadcasts seen. What it delivers is addressed to the node,
and what it floods is a broadcast. -/
theorem relay_spec (d : MeshData σ) (frame : Bytes) (env : CallEnv) :
    ∃ outcome seen frame', d.relay C frame env = (outcome, { d with floodSeen := seen }, frame') ∧
      (∀ source, outcome = .delivered source → frame' = frame ∧
        ∃ h, MeshFrameHeader.decode frame = .ok h ∧ d.Addressed C h ∧ h.fromNodeId = source) ∧
      ∀ source, outcome = .flooded source →
        ∃ h, MeshFrameHeader.decode frame' = .ok h ∧ h.packetType = PacketType.broadcast := by
  unfold relay
  split
  · exact ⟨_, _, _, rfl, by simp, by simp⟩
  · rename_i header hd
    split
    · exact ⟨_, _, _, rfl, by simp, by simp⟩
    · rename_i hversion
      split
      · obtain ⟨outcome, seen, frame', heq, hdel, hflood⟩ := d.relayBroadcast_spec (C := C) hd env
        exact ⟨outcome, seen, frame', heq, fun source h => absurd h (hdel source), hflood⟩
      · rename_i hcast
        split
        · exact ⟨_, _, _, rfl, by simp, by simp⟩
        · rename_i key hkey
          split
          · exact ⟨_, _, _, rfl, by simp, by simp⟩
          · rename_i hmac
            split
            · rename_i hto
              rw [hto] at hkey hcast
              exact ⟨_, _, _, rfl, fun source h => ⟨rfl, header, hd, ⟨not_not.mp hversion, hto, hcast,
                key, hkey, not_not.mp hmac⟩, RelayOutcome.delivered.inj h⟩, by simp⟩
            · split
              · exact ⟨_, _, _, rfl, by simp, by simp⟩
              · dsimp only
                split
                all_goals exact ⟨_, _, _, rfl, by simp, by simp⟩

theorem noteIngress_eq (d : MeshData σ) (source : UInt32) (env : CallEnv) :
    ∃ hop health, d.noteIngress source env = { d with ingressHop := hop, pathHealth := health } := by
  have hhealth : ∀ (paths : List PathEntry) (ingress : UInt32) (d : MeshData σ), ∃ health,
      paths.foldl (fun d p => if p.hops.head?.getD source = ingress then d.pathOk p.pathId
        else d.pathMiss p.pathId) d = { d with pathHealth := health } := by
    intro paths ingress
    induction paths with
    | nil => exact fun d => ⟨d.pathHealth, rfl⟩
    | cons p paths ih =>
      intro d
      rw [List.foldl_cons]
      split
      all_goals
        obtain ⟨health, h⟩ := ih _
        exact ⟨health, h⟩
  have happly : ∀ d : MeshData σ, ∃ health,
      d.applyIngressHealth source = { d with pathHealth := health } := by
    intro d
    unfold applyIngressHealth
    split
    · exact ⟨d.pathHealth, rfl⟩
    · exact hhealth _ _ d
  unfold noteIngress
  split
  · obtain ⟨health, h⟩ := happly _
    exact ⟨_, health, h⟩
  · obtain ⟨health, h⟩ := happly d
    exact ⟨d.ingressHop, health, h⟩

end MeshData

end Rill
