import Rill.HandshakeRejection
import Rill.NodeEffects
import Rill.Transition

/-!
# Sessions and the netmap

A netmap ends the sessions with the peers it no longer lists, and a revocation ends the session
with the peer it names. Neither touches a handshake that is under way, and the end of a handshake
does not look at the netmap. So the sessions of a node stay within its netmap exactly if every
handshake that completes is with a peer that is listed at that moment.
-/

namespace Rill

namespace MeshData
variable {σ : Type} (N : Snow σ) (C : Crypto)

/-- The payload is the last message of a handshake with its sender that the node has to read: the
second, which the initiator it holds accepts and whose answer leaves, or the third, with which the
responder it holds verifies the sender. -/
def Completes (d : MeshData σ) (env : CallEnv) (payload : Bytes) (peer : UInt32) : Prop :=
  payload.length = msg2PayloadLen ∧ d.delivers peer env = true ∧
      (∃ initiator ∈ d.initiators[peer]?, (answerMsg2 N C initiator payload).isOk = true) ∨
    payload.length = msg3PayloadLen ∧
      ∃ verify ∈ d.bindingVerifier, ∃ responder ∈ d.responders[peer]?,
        (responder.readMsg3 N C payload peer verify).isOk = true

/-- A frame for the node that completes a handshake with its sender. -/
def CompletesWith (d : MeshData σ) (env : CallEnv) (frame : Bytes) (peer : UInt32) : Prop :=
  ∃ header payload, MeshFrameHeader.decode frame = .ok header ∧ d.Addressed C header ∧
    header.packetType = PacketType.handshake ∧ header.fromNodeId = peer ∧
    framePayload frame = some payload ∧ d.Completes N C env payload peer

variable {N C}

theorem handleMsg2_established (d : MeshData σ) (source : UInt32) (payload : Bytes) (env : CallEnv)
    (peer : UInt32) : (d.handleMsg2 N C source payload env).event = .established peer ↔
      source = peer ∧ d.delivers source env = true ∧
        ∃ initiator ∈ d.initiators[source]?, (answerMsg2 N C initiator payload).isOk = true := by
  obtain ⟨_, _, _, heq⟩ := d.handleMsg2_eq (N := N) (C := C) env source payload
  rw [heq]
  cases d.initiators[source]? with
  | none => simp
  | some initiator =>
    cases hanswer : answerMsg2 N C initiator payload with
    | error e => simp [hanswer, Except.isOk, Except.toBool]
    | ok r =>
      cases hsent : d.delivers source env with
      | false => simp [hanswer]
      | true => simp [hanswer, Except.isOk, Except.toBool]

theorem handleMsg3_established (d : MeshData σ) (source : UInt32) (payload : Bytes)
    (peer : UInt32) : (d.handleMsg3 N C source payload).event = .established peer ↔
      source = peer ∧ ∃ verify ∈ d.bindingVerifier, ∃ responder ∈ d.responders[source]?,
        (responder.readMsg3 N C payload source verify).isOk = true := by
  unfold handleMsg3
  cases d.bindingVerifier with
  | none => simp
  | some verify =>
    cases d.responders[source]? with
    | none => simp
    | some responder =>
      cases hread : responder.readMsg3 N C payload source verify with
      | error e => simp [hread, Except.isOk, Except.toBool]
      | ok r => simp [hread, Except.isOk, Except.toBool]

theorem handleHandshake_established (d : MeshData σ) (source : UInt32) (payload : Bytes)
    (env : CallEnv) (peer : UInt32) :
    (d.handleHandshake N C source payload env).event = .established peer ↔
      source = peer ∧ d.Completes N C env payload source := by
  have h12 : msg1PayloadLen ≠ msg2PayloadLen := by decide
  have h13 : msg1PayloadLen ≠ msg3PayloadLen := by decide
  have h23 : msg2PayloadLen ≠ msg3PayloadLen := by decide
  unfold handleHandshake Completes
  split_ifs with h1 h2 h3
  · obtain ⟨_, _, _, _, _, _, heq, hnot, -⟩ := d.handleMsg1_spec (N := N) (C := C) source payload
      env
    simp [heq, hnot peer, h1, h12, h13]
  · simp [handleMsg2_established, h2, h23]
  · simp [handleMsg3_established, h3, h23.symm]
  · simp [h2, h3]

/-- Only a handshake message establishes a session. -/
theorem dispatchDelivered_established (d : MeshData σ) {frame : Bytes} {header : MeshFrameHeader}
    (hd : MeshFrameHeader.decode frame = .ok header) (source : UInt32) (env : CallEnv)
    (peer : UInt32) : (d.dispatchDelivered N C source frame env).event = .established peer ↔
      header.packetType = PacketType.handshake ∧ source = peer ∧
        ∃ payload, framePayload frame = some payload ∧ d.Completes N C env payload source := by
  by_cases htype : header.packetType = PacketType.handshake
  · simp only [dispatchDelivered, hd, htype, if_true, true_and]
    cases framePayload frame with
    | none => simp
    | some payload => simp [handleHandshake_established]
  · simp only [htype, false_and, iff_false]
    unfold dispatchDelivered
    simp only [hd, if_neg htype]
    split
    · obtain ⟨_, _, _, heq, hnot, -⟩ := d.handleSessionFrame_spec (C := C) source frame false env
      rw [heq]
      exact hnot peer
    · split
      · obtain ⟨_, _, _, heq, hnot, -⟩ := d.handleSessionFrame_spec (C := C) source frame true env
        rw [heq]
        exact hnot peer
      · split
        · rw [handleBroadcastFrame_eq]
          exact d.broadcastAnswer_ne_established source frame peer
        · split
          · split
            · exact (d.handlePathProbe_uninvolved header _ env).not_established peer
            · simp
          · simp

theorem noteIngress_completes (d : MeshData σ) (source : UInt32) (env : CallEnv) (payload : Bytes)
    (peer : UInt32) : (d.noteIngress source env).Completes N C env payload peer ↔
      d.Completes N C env payload peer := by
  obtain ⟨_, _, heq⟩ := d.noteIngress_eq source env
  rw [heq]
  rfl

/-- A frame establishes a session exactly if it completes a handshake with its sender. -/
theorem handleFrame_established (d : MeshData σ) (frame : Bytes) (env : CallEnv) (peer : UInt32) :
    (d.handleFrame N C frame env).event = .established peer ↔
      d.CompletesWith N C env frame peer := by
  constructor
  · intro h
    obtain ⟨outcome, seen, frame', hrelay, hdelivered, hflooded⟩ := d.relay_spec (C := C) frame env
    rw [handleFrame, hrelay] at h
    cases outcome with
    | delivered source =>
      obtain ⟨rfl, header, hd, haddressed, rfl⟩ := hdelivered source rfl
      obtain ⟨htype, hpeer, payload, hpayload, hcompletes⟩ :=
        (dispatchDelivered_established _ hd _ env peer).mp h
      rw [noteIngress_completes, hpeer] at hcompletes
      exact ⟨header, payload, hd, haddressed, htype, hpeer, hpayload, hcompletes⟩
    | flooded source =>
      obtain ⟨header, hd, htype⟩ := hflooded source rfl
      have hhandshake := ((dispatchDelivered_established _ hd _ env peer).mp h).1
      rw [htype] at hhandshake
      exact absurd hhandshake (by decide)
    | forwarded dest => cases h
    | dropped reason => cases h
  · rintro ⟨header, payload, hd, haddressed, htype, rfl, hpayload, hcompletes⟩
    rw [handleFrame, relay_of_addressed hd haddressed, dispatchDelivered_established _ hd]
    exact ⟨htype, rfl, payload, hpayload, (noteIngress_completes ..).mpr hcompletes⟩

end MeshData

namespace Node
variable {σ : Type}

def isListed (n : Node σ) (peer : UInt32) : Bool := (n.netmapPeers[peer]?).isSome

/-- No frame completes a handshake with a peer that is not listed. -/
def EstablishesListed (N : Snow σ) (C : Crypto) (n : Node σ) (e : NodeEnv × Event) : Prop :=
  ∀ frame peer, e.2 = .call (.frame frame) → n.mesh.CompletesWith N C e.1.toCallEnv frame peer →
    n.isListed peer = true

/-- The nodes that the last netmap lists and that have not been reported revoked since, as an
event changes them. -/
def noteListed (listed : UInt32 → Bool) (e : NodeEnv × Event) (peer : UInt32) : Bool :=
  match e.2 with
  | .control (.netmap netmap) => netmap.entries.any fun entry => entry.nodeId == peer
  | .control (.revoked nodeId) => listed peer && peer != nodeId
  | _ => listed peer

def listedAfter (es : List (NodeEnv × Event)) : UInt32 → Bool :=
  es.foldl noteListed fun _ => false

def SessionsListed (n : Node σ) : Prop :=
  ∀ peer, n.mesh.hasSession peer = true → n.isListed peer = true

variable {N : Snow σ} {C : Crypto} {checks : Bool} {n n' : Node σ}

theorem perform_hasSession (d : MeshData σ) (env : CallEnv) {call : MeshCall}
    (hframe : ∀ bytes, call ≠ .frame bytes) {peer : UInt32}
    (h : (d.perform N C env call).2.hasSession peer = true) : d.hasSession peer = true := by
  by_cases hkey : ∃ key, call = .update (.setBroadcastKey key)
  · obtain ⟨key, rfl⟩ := hkey
    exact h
  · exact (d.perform_inert env hframe fun key hcall => hkey ⟨key, hcall⟩).sessions peer h

theorem sessionsListed_control (h : n.SessionsListed) (ev : ControlEvent) :
    (n.handleControlEvent ev).SessionsListed := by
  intro peer hsession
  have hold := (n.handleControlEvent_mesh ev).1.sessions peer hsession
  rw [isListed, (handleControlEvent_policy _ _).1]
  cases ev with
  | netmap netmap => exact (n.applyNetmap_spec netmap).2.1 peer hsession (h peer hold)
  | revoked nodeId =>
    have hne : nodeId ≠ peer := by
      rintro rfl
      exact Bool.false_ne_true ((n.onRevoked_spec nodeId).2.symm.trans hsession)
    change ((n.netmapPeers.erase nodeId)[peer]?).isSome = true
    rw [Table.getElem?_erase_of_ne hne]
    exact h peer hold
  | _ => exact h peer hold

theorem receiveFrame_spec {env : NodeEnv} {bytes : Bytes} {r : List NodeOutput × Node σ}
    (h : n.receiveFrame N C checks env bytes = some r) :
    r.2.mesh = (n.mesh.handleFrame N C bytes env.toCallEnv).node ∧
      r.2.netmapPeers = n.netmapPeers := by
  obtain ⟨_, _, heq⟩ := deliver_eq h
  rw [heq]
  exact ⟨rfl, rfl⟩

theorem next_sessionsListed_iff (h : n.SessionsListed) {e : NodeEnv × Event}
    (hnext : n.next N C checks e = some n') : n'.SessionsListed ↔ n.EstablishesListed N C e := by
  obtain ⟨env, ev⟩ := e
  obtain ⟨⟨outputs, _⟩, hstep, rfl⟩ := Option.map_eq_some_iff.mp hnext
  cases ev with
  | control ev =>
    cases hstep
    refine iff_of_true (sessionsListed_control h ev) fun frame peer hframe => ?_
    cases hframe
  | call call =>
    by_cases hframe : ∃ bytes, call = .frame bytes
    · obtain ⟨bytes, rfl⟩ := hframe
      obtain ⟨hmesh, hpeers⟩ := receiveFrame_spec hstep
      dsimp only at hmesh hpeers
      have hsessions := (n.mesh.handleFrame_sessions (N := N) (C := C) bytes env.toCallEnv).1
      simp only [SessionsListed, EstablishesListed, isListed, hmesh, hpeers]
      constructor
      · intro hall frame peer hframe hcompletes
        obtain rfl := MeshCall.frame.inj (Event.call.inj hframe)
        exact hall peer ((hsessions peer).mpr
          (Or.inr ((n.mesh.handleFrame_established ..).mpr hcompletes)))
      · intro hall peer hsession
        rcases (hsessions peer).mp hsession with hold | hest
        · exact h peer hold
        · exact hall bytes peer rfl ((n.mesh.handleFrame_established ..).mp hest)
    · have hnot : ∀ bytes, call ≠ .frame bytes := fun bytes hcall => hframe ⟨bytes, hcall⟩
      have hafter : n.step N C checks env (.call call) =
          some ([], { n with mesh := (n.mesh.perform N C env.toCallEnv call).2 }) := by
        cases call <;> first | rfl | exact absurd rfl (hnot _)
      cases hafter.symm.trans hstep
      refine iff_of_true (fun peer hsession => ?_) fun frame peer hcall => ?_
      · exact h peer (perform_hasSession n.mesh env.toCallEnv hnot hsession)
      · exact absurd (Event.call.inj hcall) (hnot frame)

theorem establishesListed_of_stuck {e : NodeEnv × Event} (h : n.next N C checks e = none) :
    n.EstablishesListed N C e := by
  obtain ⟨env, ev⟩ := e
  intro frame peer hframe hcompletes
  obtain rfl : ev = .call (.frame frame) := hframe
  have hnone := Option.map_eq_none_iff.mp h
  rw [step, receiveFrame, (n.mesh.handleFrame_established ..).mpr hcompletes] at hnone
  cases hnone

theorem foldl_insert_isSome (entries : List NetmapNode) (t : Table UInt32 Unit) (peer : UInt32) :
    ((entries.foldl (fun t e => t.insert e.nodeId ()) t)[peer]?).isSome = true ↔
      (t[peer]?).isSome = true ∨ ∃ e ∈ entries, e.nodeId = peer := by
  induction entries generalizing t with
  | nil => simp
  | cons e entries ih =>
    rw [List.foldl_cons, ih, Table.getElem?_insert]
    split_ifs with he
    · simp [he]
    · simp [he]

theorem noteListed_of_next {listed : UInt32 → Bool} {e : NodeEnv × Event}
    (h : ∀ peer, n.isListed peer = true → listed peer = true)
    (hnext : n.next N C checks e = some n') (peer : UInt32) (hlisted : n'.isListed peer = true) :
    noteListed listed e peer = true := by
  obtain ⟨env, ev⟩ := e
  obtain ⟨⟨outputs, _⟩, hstep, rfl⟩ := Option.map_eq_some_iff.mp hnext
  cases ev with
  | control ev =>
    cases hstep
    rw [isListed, (handleControlEvent_policy _ _).1] at hlisted
    cases ev with
    | netmap netmap =>
      obtain hnone | ⟨entry, hmem, rfl⟩ := (foldl_insert_isSome _ _ _).mp hlisted
      · simp at hnone
      · exact List.any_eq_true.mpr ⟨entry, List.mem_of_mem_filter hmem, beq_self_eq_true _⟩
    | revoked nodeId =>
      change ((n.netmapPeers.erase nodeId)[peer]?).isSome = true at hlisted
      rw [Table.getElem?_erase] at hlisted
      split_ifs at hlisted with hpeer
      · nomatch hlisted
      · simp only [noteListed, Bool.and_eq_true, bne_iff_ne, ne_eq]
        exact ⟨h peer hlisted, fun heq => hpeer heq.symm⟩
    | _ => exact h peer hlisted
  | call call =>
    have hsame : ∀ m : Node σ, m.netmapPeers = n.netmapPeers → m.isListed peer = true →
        listed peer = true := by
      intro m hm hlisted
      rw [isListed, hm] at hlisted
      exact h peer hlisted
    cases call with
    | frame bytes => exact hsame _ (receiveFrame_spec hstep).2 hlisted
    | _ => cases hstep; exact hsame _ rfl hlisted

theorem listedAfter_of_isListed {es : List (NodeEnv × Event)} {listed : UInt32 → Bool}
    (h : ∀ peer, n.isListed peer = true → listed peer = true)
    (hrun : Transition.run (next N C checks) n es = some n') (peer : UInt32)
    (hlisted : n'.isListed peer = true) : es.foldl noteListed listed peer = true := by
  induction es generalizing n listed with
  | nil =>
    cases hrun
    exact h peer hlisted
  | cons e es ih =>
    obtain ⟨t, ht, hrest⟩ := Option.bind_eq_some_iff.mp hrun
    exact ih (fun peer hpeer => noteListed_of_next h ht peer hpeer) hrest

/-- From the start of a node, the sessions are after every event with peers that the node knows
from the last netmap, and that the last netmap lists without a revocation since, exactly if no frame
arrives that completes a handshake with a peer that is not known then. -/
theorem sessions_follow_netmap_iff (cfg : NodeConfig) (tun : Option UInt16)
    (es : List (NodeEnv × Event)) :
    Transition.Meets (next N C checks) (EstablishesListed N C) (new cfg tun) es ↔
      ∀ pre n, pre <+: es → Transition.run (next N C checks) (new cfg tun) pre = some n →
        ∀ peer, n.mesh.hasSession peer = true →
          n.isListed peer = true ∧ listedAfter pre peer = true := by
  have hstart : (new cfg tun : Node σ).SessionsListed := fun peer h => by
    simp [new, MeshData.hasSession] at h
  have hempty : ∀ peer, (new cfg tun : Node σ).isListed peer = true → false = true := fun peer h => by
    simp [new, isListed] at h
  rw [Transition.meets_iff_prefixes (fun n e n' hn hnext => next_sessionsListed_iff hn hnext)
    (fun n e h => establishesListed_of_stuck h) hstart]
  constructor
  · intro h pre n hpre hrun peer hsession
    have hlisted := h pre n hpre hrun peer hsession
    exact ⟨hlisted, listedAfter_of_isListed hempty hrun peer hlisted⟩
  · intro h pre n hpre hrun peer hsession
    exact (h pre n hpre hrun peer hsession).1

section Example

def routeKeyOf (id : UInt8) : Bytes := List.replicate 32 id

/-- Node 2, which has the route keys and the static key for a handshake with node 1. -/
def formerPeer : MeshData ClearState where
  selfNodeId := 2
  keyDstTable := ((∅ : Table UInt32 Bytes).insert 1 (routeKeyOf 1)).insert 2 (routeKeyOf 2)
  ctx := some ⟨7, 1, [2], List.replicate 64 0, (0, 0)⟩
  peerStatics := (∅ : Table UInt32 Bytes).insert 1 (pad32 [1])

def keepingConfig : NodeConfig where
  staticKeySeed := [1]
  parseIp _ := none
  verifyBinding := some fun _ _ _ _ _ => true

def ownEntry : NetmapNode := { nodeId := 1, staticPubkey := pad32 [1], protocolVersion := 2 }

def peerEntry : NetmapNode := { nodeId := 2, staticPubkey := pad32 [2], protocolVersion := 2 }

/-- Node 1 registers, gets the route keys, and a netmap that lists node 2. -/
def joinEvents : List ControlEvent :=
  [.registered 1 7 (List.replicate 64 0) (0, 0), .keyDist 1 (routeKeyOf 1) 1 [],
    .keyDist 2 (routeKeyOf 2) 1 [], .netmap { entries := [ownEntry, peerEntry] }]

def keepingNode : Node ClearState := joinEvents.foldl handleControlEvent (new keepingConfig none)

def firstFrame : Bytes :=
  match (formerPeer.initiateHandshake Snow.clear (Crypto.clear 4096) 1 {}).1 with
  | .ok (some frame) => frame
  | _ => []

def thirdFrame : Bytes :=
  let opened := (formerPeer.initiateHandshake Snow.clear (Crypto.clear 4096) 1 {}).2
  let second := (keepingNode.mesh.handleFrame Snow.clear (Crypto.clear 4096) firstFrame {}).sent
  (opened.handleFrame Snow.clear (Crypto.clear 4096) (second.getD []) {}).sent.getD []

/-- A netmap without node 2 arrives in the middle of the handshake. -/
def removalRun : List (NodeEnv × Event) :=
  let steps : List Event := joinEvents.map .control ++
    [.call (.frame firstFrame), .control (.netmap { entries := [ownEntry] }),
      .call (.frame thirdFrame)]
  steps.map fun ev => ({}, ev)

/-- The peer that the netmap has removed finishes its handshake and has a session. -/
theorem removed_peer_gains_session :
    ((Transition.run (next Snow.clear (Crypto.clear 4096) true) (new keepingConfig none)
        removalRun).map fun n => (n.mesh.hasSession 2, n.isListed 2)) = some (true, false) ∧
      listedAfter removalRun 2 = false := by
  constructor
  · decide +kernel
  · decide

end Example

end Node

end Rill
