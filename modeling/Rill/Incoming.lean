import Rill.MeshVerdicts

/-!
# Datagrams and the drops they count as

`handle_incoming` takes a datagram to be a frame or a probe and drops what is neither. Every drop is
to be counted once, for the peer it came from or, where that is not known, in one counter for all.
The handler of path probes counts what it drops itself, and a datagram that is too long is not
counted at all. `MeshPort` is the data plane with these counters and the pings that wait for an
answer.
-/

namespace Rill

def maxFrame : ℕ := 2048

def probeMagic : Bytes := ascii "LPRB"

def probeHeaderLen : ℕ := 17

def probePayloadMax : ℕ := 128

namespace ProbeType

def ping : UInt8 := 0x01

def pong : UInt8 := 0x02

end ProbeType

structure ProbePacket where
  packetType : UInt8
  fromNodeId : UInt32
  toNodeId : UInt32
  nonce : UInt32
  payload : Bytes
  deriving DecidableEq

namespace ProbePacket

def pong (p : ProbePacket) (payload : Bytes) : ProbePacket :=
  ⟨ProbeType.pong, p.toNodeId, p.fromNodeId, p.nonce, payload⟩

def encode (p : ProbePacket) : Bytes :=
  probeMagic ++ (p.packetType :: (u32be p.fromNodeId ++ (u32be p.toNodeId ++ (u32be p.nonce ++
    p.payload))))

def decode (buf : Bytes) : Option ProbePacket :=
  if buf.length < probeHeaderLen then none
  else if field 0 4 buf ≠ probeMagic then none
  else
    let payload := buf.drop probeHeaderLen
    if probePayloadMax < payload.length then none
    else some
      { packetType := buf.getD 4 0
        fromNodeId := UInt32.ofNat (readBE (field 5 4 buf))
        toNodeId := UInt32.ofNat (readBE (field 9 4 buf))
        nonce := UInt32.ofNat (readBE (field 13 4 buf))
        payload := payload }

theorem field_append_drop (off n : ℕ) (b : Bytes) :
    field off n b ++ b.drop (off + n) = b.drop off := by
  rw [field, ← List.drop_drop, List.take_append_drop]

/-- The datagrams that are taken for probes are the encodings of packets with a payload that is not
too long, and each of them is read as the packet it was made of. -/
theorem probe_read_iff (buf : Bytes) (p : ProbePacket) :
    decode buf = some p ↔ buf = p.encode ∧ p.payload.length ≤ probePayloadMax := by
  constructor
  · intro h
    dsimp only [decode] at h
    split_ifs at h with hlen hmagic hpayload
    cases h
    refine ⟨?_, not_lt.mp hpayload⟩
    rw [probeHeaderLen] at hlen
    have hfield : ∀ off, off + 4 ≤ 17 →
        u32be (UInt32.ofNat (readBE (field off 4 buf))) = field off 4 buf := by
      intro off hoff
      refine u32be_ofNat_readBE ?_
      rw [field, List.length_take, List.length_drop]
      omega
    have hhead : buf.getD 4 0 :: buf.drop 5 = buf.drop 4 := by
      rw [List.getD_eq_getElem _ _ (by omega), ← List.drop_eq_getElem_cons]
    have htail : field 13 4 buf ++ buf.drop probeHeaderLen = buf.drop 13 :=
      field_append_drop 13 4 buf
    dsimp only [encode]
    rw [hfield 5 (by decide), hfield 9 (by decide), hfield 13 (by decide), ← not_not.mp hmagic,
      htail, field_append_drop 9 4, field_append_drop 5 4, hhead, field_append_drop 0 4,
      List.drop_zero]
  · rintro ⟨rfl, hpayload⟩
    have hmagic : probeMagic.length = 4 := rfl
    have hlen : p.encode.length = 17 + p.payload.length := by
      simp [encode, hmagic]
      omega
    have hbody : ∀ off, field (off + 5) 4 p.encode = field off 4 (u32be p.fromNodeId ++
        (u32be p.toNodeId ++ (u32be p.nonce ++ p.payload))) := by
      intro off
      rw [encode, field_append_of_length_le (by omega), hmagic]
      rfl
    have hdrop : p.encode.drop probeHeaderLen = p.payload := by
      simp [encode, List.drop_append, List.drop_eq_nil_of_le, hmagic, probeHeaderLen]
    dsimp only [decode]
    rw [if_neg (by rw [hlen, probeHeaderLen]; omega), hdrop, if_neg (not_lt.mpr hpayload), hbody 0,
      hbody 4, hbody 8]
    simp [encode, field_zero_append, field_append_of_length_le, hmagic]

end ProbePacket

/-- What a datagram leads to. `unknownProtocol` is a drop with that reason, and `oversized` the
error of `recv_frame`. -/
inductive PortEvent (Ep : Type) where
  | mesh (event : IncomingEvent)
  | probePing (source : UInt32)
  | probePong (source : UInt32) (endpoint : Ep) (payload : Bytes)
  | unknownProtocol
  | oversized

def IncomingEvent.isDropped : IncomingEvent → Bool
  | .dropped _ => true
  | _ => false

def PortEvent.isDropped {Ep : Type} : PortEvent Ep → Bool
  | .mesh event => event.isDropped
  | .probePing _ => false
  | .probePong _ _ _ => false
  | .unknownProtocol => true
  | .oversized => true

structure DropCounts where
  peers : Table UInt32 UInt64 := ∅
  unattributed : UInt64 := 0

namespace DropCounts

def ofPeer (c : DropCounts) (peer : UInt32) : UInt64 := c.peers[peer]?.getD 0

def note (c : DropCounts) (known : UInt32 → Bool) (source : Option UInt32) : DropCounts :=
  match source.filter known with
  | some peer => { c with peers := c.peers.insert peer (c.ofPeer peer + 1) }
  | none => { c with unattributed := saturatingAdd64 c.unattributed 1 }

/-- One more drop, of the sender if it is a known peer and else of none. -/
def AddsOne (known : UInt32 → Bool) (sender : Option UInt32) (c c' : DropCounts) : Prop :=
  match sender.filter known with
  | some peer => (c'.ofPeer peer).toNat = (c.ofPeer peer).toNat + 1 ∧
      (∀ other, other ≠ peer → c'.ofPeer other = c.ofPeer other) ∧
      c'.unattributed = c.unattributed
  | none => (∀ peer, c'.ofPeer peer = c.ofPeer peer) ∧
      c'.unattributed.toNat = c.unattributed.toNat + 1

/-- Two more drops fit in every counter. -/
def Room (c : DropCounts) : Prop :=
  (∀ peer, (c.ofPeer peer).toNat + 2 < 2 ^ 64) ∧ c.unattributed.toNat + 2 < 2 ^ 64

theorem ofPeer_note_known {c : DropCounts} {known : UInt32 → Bool} {peer : UInt32}
    (h : known peer = true) (other : UInt32) : (c.note known (some peer)).ofPeer other =
      if other = peer then c.ofPeer peer + 1 else c.ofPeer other := by
  rw [note, Option.filter_some_pos h, ofPeer, Table.getElem?_insert]
  by_cases heq : other = peer
  · rw [if_pos heq, if_pos heq.symm]
    rfl
  · rw [if_neg heq, if_neg fun h => heq h.symm]
    rfl

theorem toNat_saturatingAdd64_one {x : UInt64} (h : x.toNat + 1 < 2 ^ 64) :
    (saturatingAdd64 x 1).toNat = x.toNat + 1 := by
  have hsum : (x + 1).toNat = x.toNat + 1 := by
    rw [UInt64.toNat_add]
    exact Nat.mod_eq_of_lt h
  rw [saturatingAdd64, if_neg, hsum]
  rw [UInt64.lt_iff_toNat_lt, hsum]
  omega

theorem note_unknown {c : DropCounts} {known : UInt32 → Bool} {source : Option UInt32}
    (h : source.filter known = none) : c.note known source =
      { c with unattributed := saturatingAdd64 c.unattributed 1 } := by
  rw [note, h]

theorem toNat_ofPeer_succ {c : DropCounts} {peer : UInt32}
    (h : (c.ofPeer peer).toNat + 1 < 2 ^ 64) :
    (c.ofPeer peer + 1).toNat = (c.ofPeer peer).toNat + 1 := by
  rw [UInt64.toNat_add]
  exact Nat.mod_eq_of_lt h

theorem note_addsOne {c : DropCounts} (h : c.Room) (known : UInt32 → Bool)
    (source : Option UInt32) : AddsOne known source c (c.note known source) := by
  unfold AddsOne
  cases hsource : source.filter known with
  | some peer =>
    obtain ⟨rfl, hknown⟩ := Option.filter_eq_some_iff.mp hsource
    have hroom := h.1 peer
    refine ⟨?_, fun other hne => ?_, ?_⟩
    · rw [ofPeer_note_known hknown, if_pos rfl, toNat_ofPeer_succ (by omega)]
    · rw [ofPeer_note_known hknown, if_neg hne]
    · rw [note, hsource]
  | none =>
    have hroom := h.2
    rw [note_unknown hsource]
    exact ⟨fun _ => rfl, toNat_saturatingAdd64_one (by omega)⟩

theorem not_addsOne_self (known : UInt32 → Bool) (sender : Option UInt32) (c : DropCounts) :
    ¬ AddsOne known sender c c := by
  unfold AddsOne
  split
  · rintro ⟨hone, -⟩
    omega
  · rintro ⟨-, hone⟩
    omega

theorem not_addsOne_of_two {c c' : DropCounts} {known : UInt32 → Bool} {sender : Option UInt32}
    (peer : UInt32) (h : (c'.ofPeer peer).toNat = (c.ofPeer peer).toNat + 2) :
    ¬ AddsOne known sender c c' := by
  unfold AddsOne
  split
  · rename_i other _
    rintro ⟨hadds, hsame, -⟩
    by_cases heq : peer = other
    · rw [← heq] at hadds
      omega
    · rw [hsame peer heq] at h
      omega
  · rintro ⟨hsame, -⟩
    rw [hsame peer] at h
    omega

theorem not_addsOne_twice {c : DropCounts} (h : c.Room) (known : UInt32 → Bool)
    (source : Option UInt32) :
    ¬ AddsOne known source c ((c.note known source).note known source) := by
  cases hsource : source.filter known with
  | some peer =>
    obtain ⟨rfl, hknown⟩ := Option.filter_eq_some_iff.mp hsource
    have hroom := h.1 peer
    have hfirst : (c.note known (some peer)).ofPeer peer = c.ofPeer peer + 1 := by
      rw [ofPeer_note_known hknown, if_pos rfl]
    have hone : (c.ofPeer peer + 1).toNat = (c.ofPeer peer).toNat + 1 :=
      toNat_ofPeer_succ (by omega)
    refine not_addsOne_of_two peer ?_
    rw [ofPeer_note_known hknown, if_pos rfl, toNat_ofPeer_succ (by rw [hfirst]; omega), hfirst,
      hone]
  | none =>
    have hroom := h.2
    have hone := toNat_saturatingAdd64_one (x := c.unattributed) (by omega)
    have htwo := toNat_saturatingAdd64_one (x := saturatingAdd64 c.unattributed 1) (by omega)
    simp only [note_unknown hsource, AddsOne, hsource]
    rintro ⟨-, hadds⟩
    omega

end DropCounts

/-- The data plane with the pings it waits for and the counters of drops. -/
structure MeshPort (σ Ep : Type) where
  mesh : MeshData σ
  probePending : Table UInt32 (UInt32 × Ep × ℕ) := ∅
  counts : DropCounts := {}

structure PortAnswer (σ Ep : Type) where
  event : PortEvent Ep
  port : MeshPort σ Ep
  sent : Option Bytes := none

namespace MeshData
variable {σ : Type} (C : Crypto)

def isKnownPeer (d : MeshData σ) (peer : UInt32) : Bool :=
  (d.keyDstTable[peer]?).isSome || (d.sessions[peer]?).isSome

/-- The handler of path probes counts a payload it cannot read and an answer that nothing waits
for. -/
def probeNotes (d : MeshData σ) (payload : Bytes) : Bool :=
  match PathProbePayload.decode payload with
  | none => true
  | some p => p.response && (d.pathProbePending[p.nonce]?).isNone

/-- The frame is a path probe that its handler counts as dropped. -/
def ProbeNoted (d : MeshData σ) (header : MeshFrameHeader) (frame : Bytes) : Prop :=
  header.packetType = PacketType.pathProbe ∧
    ∃ payload, framePayload frame = some payload ∧ d.probeNotes payload = true

/-- The frame is a path probe for this node that its handler counts as dropped. -/
def ProbeRefused (d : MeshData σ) (frame : Bytes) : Prop :=
  ∃ header, MeshFrameHeader.decode frame = .ok header ∧ d.Addressed C header ∧
    d.ProbeNoted header frame

variable {C}

theorem dispatchDelivered_probe {N : Snow σ} (d : MeshData σ) {frame : Bytes}
    {header : MeshFrameHeader} (hd : MeshFrameHeader.decode frame = .ok header)
    (htype : header.packetType = PacketType.pathProbe) (source : UInt32) (env : CallEnv) :
    d.dispatchDelivered N C source frame env =
      match framePayload frame with
      | some payload => d.handlePathProbe C header payload env
      | none => { event := .dropped .short, node := d } := by
  simp only [dispatchDelivered, hd, htype]
  rfl

/-- What the handler of path probes counts it also drops, and nothing of the node changes. -/
theorem handlePathProbe_of_notes {d : MeshData σ} {payload : Bytes}
    (h : d.probeNotes payload = true) (header : MeshFrameHeader) (env : CallEnv) :
    ∃ reason, d.handlePathProbe C header payload env = { event := .dropped reason, node := d } := by
  cases hp : PathProbePayload.decode payload with
  | none => exact ⟨.short, by simp only [handlePathProbe, hp]⟩
  | some p =>
    simp only [probeNotes, hp, Bool.and_eq_true, Option.isNone_iff_eq_none] at h
    exact ⟨.replay, by simp only [handlePathProbe, hp, h.1, h.2, if_true]⟩

end MeshData

namespace MeshPort
variable {σ Ep : Type} (N : Snow σ) (C : Crypto)

def frameSender (frame : Bytes) : Option UInt32 :=
  (MeshFrameHeader.decode frame).toOption.map MeshFrameHeader.fromNodeId

def startsFrame (datagram : Bytes) : Bool :=
  datagram.head?.any fun b => decide (0x01 ≤ b ∧ b ≤ 0x0F)

def noteDrop (r : MeshPort σ Ep) (source : Option UInt32) : MeshPort σ Ep :=
  { r with counts := r.counts.note r.mesh.isKnownPeer source }

def lift (r : MeshPort σ Ep) (h : Handled σ) : PortAnswer σ Ep :=
  { event := .mesh h.event, port := { r with mesh := h.node }, sent := h.sent }

def handlePathProbe (r : MeshPort σ Ep) (header : MeshFrameHeader) (payload : Bytes)
    (env : CallEnv) : PortAnswer σ Ep :=
  let a := r.lift (r.mesh.handlePathProbe C header payload env)
  if r.mesh.probeNotes payload then { a with port := a.port.noteDrop (some header.fromNodeId) }
  else a

def dispatchDelivered (r : MeshPort σ Ep) (source : UInt32) (frame : Bytes) (env : CallEnv) :
    PortAnswer σ Ep :=
  match MeshFrameHeader.decode frame with
  | .error _ => r.lift (r.mesh.dispatchDelivered N C source frame env)
  | .ok header =>
    if header.packetType = PacketType.pathProbe then
      match framePayload frame with
      | some payload => r.handlePathProbe C header payload env
      | none => r.lift { event := .dropped .short, node := r.mesh }
    else r.lift (r.mesh.dispatchDelivered N C source frame env)

/-- The dispatcher's answer to a frame from `source`, counted if it is a drop. -/
def noteIfDropped (a : PortAnswer σ Ep) (source : UInt32) : PortAnswer σ Ep :=
  if a.event.isDropped then { a with port := a.port.noteDrop (some source) } else a

def handleFrame (r : MeshPort σ Ep) (frame : Bytes) (env : CallEnv) : PortAnswer σ Ep :=
  match r.mesh.relay C frame env with
  | (.delivered source, d, frame) =>
    noteIfDropped (({ r with mesh := d.noteIngress source env }).dispatchDelivered N C source frame
      env) source
  | (.flooded source, d, frame) =>
    noteIfDropped (({ r with mesh := d.noteIngress source env }).dispatchDelivered N C source frame
      env) source
  | (.forwarded dest _, d, frame) => r.lift { event := .relayed dest, node := d, sent := some frame }
  | (.dropped reason, d, frame) =>
    { event := .mesh (.dropped reason)
      port := ({ r with mesh := d }).noteDrop (frameSender frame) }

def dropUnknown (r : MeshPort σ Ep) : PortAnswer σ Ep :=
  { event := .unknownProtocol, port := r.noteDrop none }

/-- A ping to this node is answered as far as the rate limit allows; a pong is taken for the ping of
its nonce. -/
def handleProbe (r : MeshPort σ Ep) (source : Ep) (packet : Bytes) (env : CallEnv) :
    PortAnswer σ Ep :=
  match ProbePacket.decode packet with
  | none => r.dropUnknown
  | some probe =>
    if probe.packetType = ProbeType.ping then
      { event := .probePing probe.fromNodeId, port := r
        sent := if probe.toNodeId = r.mesh.selfNodeId ∧ env.probeToken then
          some (probe.pong []).encode else none }
    else if probe.packetType = ProbeType.pong then
      match r.probePending[probe.nonce]? with
      | some _ =>
        { event := .probePong probe.fromNodeId source probe.payload
          port := { r with probePending := r.probePending.erase probe.nonce } }
      | none => r.dropUnknown
    else r.dropUnknown

/-- A datagram of `maxFrame` bytes or more is refused by `recv_frame`, which counts it nowhere in
the telemetry. -/
def handleIncoming (r : MeshPort σ Ep) (source : Ep) (datagram : Bytes) (env : CallEnv) :
    PortAnswer σ Ep :=
  if maxFrame ≤ datagram.length then { event := .oversized, port := r }
  else if startsFrame datagram then r.handleFrame N C datagram env
  else if 4 ≤ datagram.length ∧ field 0 4 datagram = probeMagic then
    r.handleProbe source datagram env
  else r.dropUnknown

/-- A drop is counted once and for its sender, and nothing else is counted. -/
def Accounted (r : MeshPort σ Ep) (sender : Option UInt32) (a : PortAnswer σ Ep) : Prop :=
  if a.event.isDropped then
    DropCounts.AddsOne a.port.mesh.isKnownPeer sender r.counts a.port.counts
  else a.port.counts = r.counts

/-- The node that the header of a frame names as its sender; other datagrams have none. -/
def sender (datagram : Bytes) : Option UInt32 :=
  if startsFrame datagram then frameSender datagram else none

variable {N C} {r : MeshPort σ Ep}

theorem frameSender_decrementTtl (frame : Bytes) :
    frameSender (decrementTtl frame) = frameSender frame := by
  cases hd : MeshFrameHeader.decode frame with
  | error e =>
    have hshort : frame.length < headerLen := by
      unfold MeshFrameHeader.decode at hd
      split_ifs at hd with hlen
      exact hlen
    rw [decrementTtl, if_pos hshort]
  | ok header =>
    rw [frameSender, frameSender, MeshData.decode_decrementTtl hd, hd]
    rfl

/-- Relaying leaves the sender of a frame, and floods it under this sender. -/
theorem frameSender_relay {d d' : MeshData σ} {frame frame' : Bytes} {env : CallEnv}
    {outcome : RelayOutcome} (h : d.relay C frame env = (outcome, d', frame')) :
    frameSender frame' = frameSender frame ∧
      ∀ source, outcome = .flooded source → frameSender frame = some source := by
  cases hd : MeshFrameHeader.decode frame with
  | error e =>
    simp only [MeshData.relay, hd] at h
    obtain ⟨rfl, hrest⟩ := Prod.mk.inj h
    exact ⟨by rw [← (Prod.mk.inj hrest).2], by simp⟩
  | ok header =>
    have hsender : frameSender frame = some header.fromNodeId := by
      rw [frameSender, hd]
      rfl
    simp only [MeshData.relay, MeshData.relayBroadcast, hd] at h
    repeat' split at h
    all_goals
      obtain ⟨rfl, hrest⟩ := Prod.mk.inj h
      cases hrest
      refine ⟨?_, fun source hflood => ?_⟩
      · first
          | rfl
          | exact frameSender_decrementTtl frame
      · cases hflood <;> exact hsender

theorem dispatchDelivered_mesh (r : MeshPort σ Ep) (source : UInt32) (frame : Bytes)
    (env : CallEnv) :
    (r.dispatchDelivered N C source frame env).event =
        .mesh (r.mesh.dispatchDelivered N C source frame env).event ∧
      (r.dispatchDelivered N C source frame env).port.mesh =
        (r.mesh.dispatchDelivered N C source frame env).node := by
  unfold dispatchDelivered
  split
  · exact ⟨rfl, rfl⟩
  · rename_i header hd
    split
    · rename_i htype
      rw [r.mesh.dispatchDelivered_probe hd htype]
      split
      · simp only [handlePathProbe]
        split <;> exact ⟨rfl, rfl⟩
      · exact ⟨rfl, rfl⟩
    · exact ⟨rfl, rfl⟩

theorem noteIfDropped_mesh (a : PortAnswer σ Ep) (source : UInt32) :
    (noteIfDropped a source).event = a.event ∧
      (noteIfDropped a source).port.mesh = a.port.mesh := by
  unfold noteIfDropped
  split <;> exact ⟨rfl, rfl⟩

theorem handleFrame_mesh (r : MeshPort σ Ep) (frame : Bytes) (env : CallEnv) :
    (r.handleFrame N C frame env).event = .mesh (r.mesh.handleFrame N C frame env).event ∧
      (r.handleFrame N C frame env).port.mesh = (r.mesh.handleFrame N C frame env).node := by
  unfold handleFrame MeshData.handleFrame
  have hdispatch : ∀ (d : MeshData σ) source frame,
      (noteIfDropped (({ r with mesh := d }).dispatchDelivered N C source frame env) source).event =
          .mesh (d.dispatchDelivered N C source frame env).event ∧
        (noteIfDropped (({ r with mesh := d }).dispatchDelivered N C source frame env)
            source).port.mesh = (d.dispatchDelivered N C source frame env).node := by
    intro d source frame
    obtain ⟨hevent, hmesh⟩ := noteIfDropped_mesh
      (({ r with mesh := d }).dispatchDelivered N C source frame env) source
    obtain ⟨hevent', hmesh'⟩ :=
      ({ r with mesh := d }).dispatchDelivered_mesh (N := N) (C := C) source frame env
    exact ⟨hevent.trans hevent', hmesh.trans hmesh'⟩
  generalize r.mesh.relay C frame env = v
  obtain ⟨outcome, d, frame'⟩ := v
  cases outcome with
  | delivered source => exact hdispatch _ _ _
  | flooded source => exact hdispatch _ _ _
  | forwarded dest => exact ⟨rfl, rfl⟩
  | dropped reason => exact ⟨rfl, rfl⟩

theorem dispatchDelivered_noted {frame : Bytes} {header : MeshFrameHeader}
    (hd : MeshFrameHeader.decode frame = .ok header) (h : r.mesh.ProbeNoted header frame)
    (source : UInt32) (env : CallEnv) :
    ∃ reason, r.dispatchDelivered N C source frame env =
      { event := .mesh (.dropped reason), port := r.noteDrop (some header.fromNodeId) } := by
  obtain ⟨htype, payload, hpayload, hnotes⟩ := h
  obtain ⟨reason, hreason⟩ := MeshData.handlePathProbe_of_notes (C := C) hnotes header env
  refine ⟨reason, ?_⟩
  simp only [dispatchDelivered, hd, htype, hpayload, handlePathProbe, hnotes, hreason, if_true]
  rfl

theorem dispatchDelivered_not_noted {frame : Bytes} {header : MeshFrameHeader}
    (hd : MeshFrameHeader.decode frame = .ok header) (h : ¬ r.mesh.ProbeNoted header frame)
    (source : UInt32) (env : CallEnv) :
    (r.dispatchDelivered N C source frame env).port.counts = r.counts := by
  simp only [dispatchDelivered, hd]
  split
  · rename_i htype
    split
    · rename_i payload hpayload
      rw [handlePathProbe, if_neg fun hnotes => h ⟨htype, payload, hpayload, hnotes⟩]
      rfl
    · rfl
  · rfl

/-- The entry counts a drop once if the dispatcher has not counted it. -/
theorem noteIfDropped_accounted (hroom : r.counts.Room) {a : PortAnswer σ Ep}
    (ha : a.port.counts = r.counts) (source : UInt32) :
    r.Accounted (some source) (noteIfDropped a source) := by
  unfold noteIfDropped
  cases hdrop : a.event.isDropped with
  | false => simpa [Accounted, hdrop] using ha
  | true =>
    simp only [Accounted, hdrop, if_true, noteDrop, ha]
    exact DropCounts.note_addsOne hroom _ _

theorem handleFrame_accounted_iff (hroom : r.counts.Room) (frame : Bytes) (env : CallEnv) :
    r.Accounted (frameSender frame) (r.handleFrame N C frame env) ↔
      ¬ r.mesh.ProbeRefused C frame := by
  obtain ⟨outcome, seen, frame', heq, hdelivered, hflooded⟩ := r.mesh.relay_spec (C := C) frame env
  obtain ⟨hsender, hflooder⟩ := frameSender_relay heq
  -- A refused probe is a frame that is delivered.
  have hrelay : r.mesh.ProbeRefused C frame → ∃ source, outcome = .delivered source := by
    rintro ⟨header, hd, haddressed, -⟩
    rw [MeshData.relay_of_addressed hd haddressed] at heq
    exact ⟨_, (Prod.mk.inj heq).1.symm⟩
  rw [handleFrame, heq]
  cases outcome with
  | delivered source =>
    obtain ⟨rfl, header, hd, haddressed, rfl⟩ := hdelivered source rfl
    have hfrom : frameSender frame' = some header.fromNodeId := by
      rw [frameSender, hd]
      rfl
    rw [hfrom]
    obtain ⟨hop, health, hingress⟩ :=
      MeshData.noteIngress_eq { r.mesh with floodSeen := seen } header.fromNodeId env
    simp only [hingress]
    let d : MeshData σ :=
      { r.mesh with floodSeen := seen, ingressHop := hop, pathHealth := health }
    by_cases hnoted : r.mesh.ProbeNoted header frame'
    · refine iff_of_false ?_ (not_not.mpr ⟨header, hd, haddressed, hnoted⟩)
      obtain ⟨reason, hreason⟩ := dispatchDelivered_noted (r := { r with mesh := d }) (N := N)
        (C := C) hd hnoted header.fromNodeId env
      rw [hreason]
      exact DropCounts.not_addsOne_twice hroom _ _
    · refine iff_of_true (noteIfDropped_accounted hroom ?_ _) ?_
      · exact dispatchDelivered_not_noted (r := { r with mesh := d }) hd hnoted _ _
      · rintro ⟨header', hd', -, hnoted'⟩
        cases hd.symm.trans hd'
        exact hnoted hnoted'
  | flooded source =>
    obtain ⟨header, hd, htype⟩ := hflooded source rfl
    rw [hflooder source rfl]
    refine iff_of_true (noteIfDropped_accounted hroom ?_ _) fun h => nomatch hrelay h
    refine dispatchDelivered_not_noted hd ?_ _ _
    rintro ⟨htype', -⟩
    exact absurd (htype.symm.trans htype') (by decide)
  | forwarded dest => exact iff_of_true rfl fun h => nomatch hrelay h
  | dropped reason =>
    rw [← hsender]
    exact iff_of_true (DropCounts.note_addsOne hroom _ _) fun h => nomatch hrelay h

theorem dropUnknown_accounted (hroom : r.counts.Room) : r.Accounted none r.dropUnknown := by
  rw [Accounted, if_pos (show r.dropUnknown.event.isDropped = true from rfl)]
  exact DropCounts.note_addsOne hroom _ none

theorem handleProbe_accounted (hroom : r.counts.Room) (source : Ep) (packet : Bytes)
    (env : CallEnv) : r.Accounted none (r.handleProbe source packet env) := by
  unfold handleProbe
  split
  · exact dropUnknown_accounted hroom
  · split
    · rfl
    · split
      · split
        · rfl
        · exact dropUnknown_accounted hroom
      · exact dropUnknown_accounted hroom

theorem startsFrame_of_refused {datagram : Bytes} (h : r.mesh.ProbeRefused C datagram) :
    startsFrame datagram = true := by
  obtain ⟨header, hd, ⟨hver, -⟩, -⟩ := h
  unfold MeshFrameHeader.decode at hd
  split_ifs at hd with hlen
  cases datagram with
  | nil => exact absurd (by decide) hlen
  | cons b rest =>
    have hb : b = Rill.version := by
      rw [← hver, ← Except.ok.inj hd]
      rfl
    rw [startsFrame, hb, List.head?_cons]
    decide

/-- A datagram is accounted for, in every state whose counters have room, if and only if it is not
too long and not a path probe whose handler counts it before the entry does. -/
theorem accounted_iff (hroom : r.counts.Room) (source : Ep) (datagram : Bytes) (env : CallEnv) :
    r.Accounted (sender datagram) (r.handleIncoming N C source datagram env) ↔
      datagram.length < maxFrame ∧ ¬ r.mesh.ProbeRefused C datagram := by
  unfold handleIncoming sender
  by_cases hlong : maxFrame ≤ datagram.length
  · rw [if_pos hlong]
    exact iff_of_false (DropCounts.not_addsOne_self _ _ _) fun h => absurd h.1 (not_lt.mpr hlong)
  · rw [if_neg hlong, and_iff_right (not_le.mp hlong)]
    split_ifs with hframe hprobe
    · exact handleFrame_accounted_iff hroom datagram env
    · exact iff_of_true (handleProbe_accounted hroom _ _ _)
        fun h => hframe (startsFrame_of_refused h)
    · exact iff_of_true (dropUnknown_accounted hroom) fun h => hframe (startsFrame_of_refused h)

section Example

/-- A node with a key for its own id, to which node 1 is known. -/
def labPort : MeshPort ClearState ℕ where
  mesh :=
    { selfNodeId := 2
      keyDstTable := ((∅ : Table UInt32 Bytes).insert 2 [9]).insert 1 [9] }

theorem labPort_room : labPort.counts.Room :=
  ⟨fun peer => by simp [labPort, DropCounts.ofPeer], by decide⟩

/-- A path probe from node 1 that answers a probe which was never sent. -/
def labProbe : Bytes :=
  (Crypto.clear 100).buildUnsealedFrame
    { packetType := PacketType.pathProbe, toNodeId := 2, fromNodeId := 1 } [9]
    (PathProbePayload.encode ⟨5, 0, true⟩)

/-- A heartbeat from node 1, with which there is no session. -/
def labHeartbeat : Bytes :=
  (Crypto.clear 100).buildUnsealedFrame
    { packetType := PacketType.heartbeat, toNodeId := 2, fromNodeId := 1 } [9] []

theorem lab_accounted :
    (labPort.handleIncoming Snow.clear (Crypto.clear 100) 0 labHeartbeat {}).port.counts.ofPeer 1 =
        1 ∧
      labPort.Accounted (sender labHeartbeat)
        (labPort.handleIncoming Snow.clear (Crypto.clear 100) 0 labHeartbeat {}) := by
  have hprobe : ¬ labPort.mesh.ProbeRefused (Crypto.clear 100) labHeartbeat := by
    rintro ⟨header, hd, -, htype, -⟩
    unfold labHeartbeat Crypto.buildUnsealedFrame at hd
    cases (MeshFrameHeader.decode_encode_append _ _).symm.trans hd
    exact absurd htype (show PacketType.heartbeat ≠ PacketType.pathProbe by decide)
  have hlen : labHeartbeat.length < maxFrame := by decide
  rw [accounted_iff labPort_room]
  exact ⟨by decide +kernel, hlen, hprobe⟩

/-- The probe that answers nothing is counted twice for its sender. -/
theorem lab_probe_counted_twice : labPort.counts.Room ∧ ¬ labPort.Accounted (sender labProbe)
    (labPort.handleIncoming Snow.clear (Crypto.clear 100) 0 labProbe {}) := by
  have hdropped : (labPort.handleIncoming Snow.clear (Crypto.clear 100) 0 labProbe
      {}).event.isDropped = true := by decide +kernel
  have hcount : ((labPort.handleIncoming Snow.clear (Crypto.clear 100) 0 labProbe
      {}).port.counts.ofPeer 1).toNat = (labPort.counts.ofPeer 1).toNat + 2 := by decide +kernel
  rw [Accounted, if_pos hdropped]
  exact ⟨labPort_room, DropCounts.not_addsOne_of_two 1 hcount⟩

end Example

end MeshPort

end Rill
