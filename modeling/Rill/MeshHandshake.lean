import Rill.MeshData

/-!
# Handshakes on a node

`initiateHandshake` and the handlers of the three messages follow
`rill-mesh/src/data/session.rs`. A handler answers with the event it reports, the node after it
and, where its response left through a socket, the frame it sent.
-/

namespace Rill

inductive IncomingEvent where
  | data (source : UInt32) (payload : Bytes)
  | heartbeat (source : UInt32)
  | established (peer : UInt32)
  | responded (peer : UInt32)
  | rejected (peer : UInt32) (reason : HandshakeError)
  | relayed (dest : UInt32)
  | broadcast (source : UInt32) (payload : Bytes)
  | pathProbeRtt (dest : UInt32) (pathId : UInt64) (rttMs : UInt32)
  | pathProbeServed (source : UInt32)
  | dropped (reason : DropReason)
  deriving DecidableEq

/-- What one call takes from its surroundings: random bytes, clocks and the network. -/
structure CallEnv where
  salt : UInt32 := 0
  ephemeral : Bytes := []
  nowUnix : UInt64 := 0
  now : ℕ := 0
  outcome : SendOutcome := .sent
  ingress : Option UInt32 := none
  floodToken : Bool := true
  probeToken : Bool := true
  deriving DecidableEq

/-- What a received frame leads to. `hop` is the node to which a relayed frame or the answer to a
path probe goes out. -/
structure Handled (σ : Type) where
  event : IncomingEvent
  node : MeshData σ
  sent : Option Bytes := none
  hop : Option UInt32 := none

namespace MeshData
variable {σ : Type} (N : Snow σ) (C : Crypto)

def initiateHandshake (d : MeshData σ) (peer : UInt32) (env : CallEnv) :
    Except SendError (Option Bytes) × MeshData σ :=
  if (d.sessions[peer]?).isSome || (d.initiators[peer]?).isSome || (d.responders[peer]?).isSome then
    (.ok none, d)
  else
    match d.ctx with
    | none => (.error .noContext, d)
    | some ctx =>
      match d.peerStatics[peer]? with
      | none => (.error .noPeerBinding, d)
      | some peerStatic =>
        match HandshakeInitiator.new N ctx.localStatic ctx.networkId ctx.version peer
            ctx.identityBinding ctx.bindingIssuance env.salt peerStatic env.ephemeral with
        | .error e => (.error (.handshake e), d)
        | .ok initiator =>
          match initiator.writeMsg1 N with
          | .error e => (.error (.handshake e), d)
          | .ok (msg1, initiator) =>
            let d := { d with initiators := d.initiators.insert peer initiator }
            ((d.buildHandshakeFrame C peer msg1).map some, d)

/-- Sends a frame along the first hop to the peer. -/
def sendFrame (d : MeshData σ) (peer : UInt32) (env : CallEnv) : Bool × MeshData σ :=
  (d.pickPath peer 0 env.nowUnix).2.sendToNodeHop peer env.outcome

/-- The frame that left, if any, and the node after the send. -/
def sendResponse (d : MeshData σ) (peer : UInt32) (payload : Bytes) (env : CallEnv) :
    Option Bytes × MeshData σ :=
  match d.buildHandshakeFrame C peer payload with
  | .error _ => (none, d)
  | .ok frame =>
    let (ok, d) := d.sendFrame peer env
    (if ok then some frame else none, d)

def handleMsg1 (d : MeshData σ) (source : UInt32) (payload : Bytes) (env : CallEnv) : Handled σ :=
  if (d.initiators[source]?).isSome && !(source < d.selfNodeId) then
    { event := .rejected source .collision, node := d }
  else
    let d := { d with initiators := d.initiators.erase source }
    match d.ctx with
    | none => { event := .rejected source .wrongStep, node := d }
    | some ctx =>
      match HandshakeResponder.new N ctx.localStatic ctx.networkId ctx.version d.selfNodeId
          env.ephemeral with
      | .error e => { event := .rejected source e, node := d }
      | .ok responder =>
        match responder.readMsg1 N payload with
        | .error e => { event := .rejected source e, node := d }
        | .ok responder =>
          match responder.writeMsg2 N with
          | .error e => { event := .rejected source e, node := d }
          | .ok (msg2, responder) =>
            let d := { d with responders := d.responders.insert source responder }
            match d.sendResponse C source msg2 env with
            | (some frame, d) => { event := .responded source, node := d, sent := some frame }
            | (none, d) => { event := .dropped .noEndpoint, node := d }

def handleMsg2 (d : MeshData σ) (source : UInt32) (payload : Bytes) (env : CallEnv) : Handled σ :=
  match d.initiators[source]? with
  | none => { event := .rejected source .wrongStep, node := d }
  | some initiator =>
    let d := { d with initiators := d.initiators.erase source }
    match initiator.readMsg2 N payload with
    | .error e => { event := .rejected source e, node := d }
    | .ok (msg3, initiator) =>
      match initiator.finish N C with
      | .error e => { event := .rejected source e, node := d }
      | .ok keys =>
        match d.buildHandshakeFrame C source msg3 with
        | .error _ => { event := .dropped .noKeyDst, node := d }
        | .ok frame =>
          match d.sendFrame source env with
          | (true, d) =>
            { event := .established source
              node := { d with sessions := d.sessions.insert source (Session.new source keys) }
              sent := some frame }
          | (false, d) => { event := .dropped .noEndpoint, node := d }

def handleMsg3 (d : MeshData σ) (source : UInt32) (payload : Bytes) : Handled σ :=
  match d.bindingVerifier with
  | none => { event := .rejected source .badBinding, node := d }
  | some verifier =>
    match d.responders[source]? with
    | none => { event := .rejected source .wrongStep, node := d }
    | some responder =>
      let d := { d with responders := d.responders.erase source }
      match responder.readMsg3 N C payload source verifier with
      | .error e => { event := .rejected source e, node := d }
      | .ok (keys, remoteStatic, w) =>
        { event := .established source
          node := { d with
            bindingClaims := d.bindingClaims.insert source ⟨remoteStatic, w.binding, w.issuance⟩
            sessions := d.sessions.insert source (Session.new source keys) } }

def handleHandshake (d : MeshData σ) (source : UInt32) (payload : Bytes) (env : CallEnv) :
    Handled σ :=
  if payload.length = msg1PayloadLen then d.handleMsg1 N C source payload env
  else if payload.length = msg2PayloadLen then d.handleMsg2 N C source payload env
  else if payload.length = msg3PayloadLen then d.handleMsg3 N C source payload
  else { event := .rejected source .malformedPayload, node := d }

structure SameSetup (d d' : MeshData σ) : Prop where
  selfNodeId : d'.selfNodeId = d.selfNodeId
  ctx : d'.ctx = d.ctx
  peerStatics : d'.peerStatics = d.peerStatics
  keyDstTable : d'.keyDstTable = d.keyDstTable
  bindingVerifier : d'.bindingVerifier = d.bindingVerifier

variable {N C}

theorem SameSetup.refl (d : MeshData σ) : SameSetup d d := ⟨rfl, rfl, rfl, rfl, rfl⟩

theorem pathMissOf_eq (d : MeshData σ) (path : Option UInt64) :
    ∃ health, d.pathMissOf path = { d with pathHealth := health } := by
  cases path with
  | none => exact ⟨d.pathHealth, rfl⟩
  | some pathId => exact ⟨_, rfl⟩

theorem pathMissPeer_eq (d : MeshData σ) (dest : UInt32) :
    ∃ health, d.pathMissPeer dest = { d with pathHealth := health } := by
  obtain ⟨h₁, hmain⟩ := d.pathMissOf_eq ((d.pathTable[dest]?.getD []).head?.map PathEntry.pathId)
  obtain ⟨h₂, hused⟩ := pathMissOf_eq { d with pathHealth := h₁ } d.lastSentPath[dest]?
  exact ⟨h₂, by rw [pathMissPeer, hmain, hused]⟩

theorem pickPath_eq (d : MeshData σ) (dest : UInt32) (flowHash nowUnix : UInt64) :
    ∃ sentPath, (d.pickPath dest flowHash nowUnix).2 = { d with lastSentPath := sentPath } := by
  simp only [pickPath]
  split
  · exact ⟨d.lastSentPath, rfl⟩
  · exact ⟨_, rfl⟩

theorem sendFrame_eq (d : MeshData σ) (peer : UInt32) (env : CallEnv) :
    ∃ health sentPath, d.sendFrame peer env = (decide (env.outcome = .sent),
      { d with pathHealth := health, lastSentPath := sentPath }) := by
  obtain ⟨sentPath, hpick⟩ := d.pickPath_eq peer 0 env.nowUnix
  rw [sendFrame, hpick]
  cases houtcome : env.outcome with
  | sent => exact ⟨d.pathHealth, sentPath, rfl⟩
  | failed =>
    obtain ⟨health, hmiss⟩ := pathMissPeer_eq { d with lastSentPath := sentPath } peer
    exact ⟨health, sentPath, by simp [sendToNodeHop, hmiss]⟩
  | noEndpoint => exact ⟨d.pathHealth, sentPath, rfl⟩

theorem sendResponse_eq (d : MeshData σ) (peer : UInt32) (payload : Bytes) (env : CallEnv) :
    ∃ health sentPath, d.sendResponse C peer payload env =
      (if env.outcome = .sent then (d.buildHandshakeFrame C peer payload).toOption else none,
        { d with pathHealth := health, lastSentPath := sentPath }) := by
  unfold sendResponse
  cases hb : d.buildHandshakeFrame C peer payload with
  | error e => exact ⟨d.pathHealth, d.lastSentPath, by simp [Except.toOption]⟩
  | ok frame =>
    obtain ⟨health, sentPath, hsend⟩ := d.sendFrame_eq peer env
    refine ⟨health, sentPath, ?_⟩
    simp only [hsend, decide_eq_true_eq, Except.toOption]

/-- What the handler of a first message does: it may give up the initiator for the sender, and it
may hold a new responder for the sender that has answered the message. -/
theorem handleMsg1_spec (d : MeshData σ) (source : UInt32) (payload : Bytes) (env : CallEnv) :
    ∃ event initiators responders health sentPath sent, d.handleMsg1 N C source payload env =
        { event := event, sent := sent, node := { d with
          initiators := initiators, responders := responders
          pathHealth := health, lastSentPath := sentPath } } ∧
      (∀ peer, event ≠ .established peer) ∧
      (initiators = d.initiators ∨ initiators = d.initiators.erase source) ∧
      (responders = d.responders ∨ ∃ ctx r₀ r₁ r₂ msg2, d.ctx = some ctx ∧
        HandshakeResponder.new N ctx.localStatic ctx.networkId ctx.version d.selfNodeId env.ephemeral =
          .ok r₀ ∧ r₀.readMsg1 N payload = .ok r₁ ∧ r₁.writeMsg2 N = .ok (msg2, r₂) ∧
        responders = d.responders.insert source r₂) := by
  unfold handleMsg1
  split
  · exact ⟨_, _, _, _, _, _, rfl, by simp, Or.inl rfl, Or.inl rfl⟩
  · dsimp only
    split
    · exact ⟨_, _, _, _, _, _, rfl, by simp, Or.inr rfl, Or.inl rfl⟩
    · rename_i ctx hctx
      split
      · exact ⟨_, _, _, _, _, _, rfl, by simp, Or.inr rfl, Or.inl rfl⟩
      · rename_i r₀ hnew
        split
        · exact ⟨_, _, _, _, _, _, rfl, by simp, Or.inr rfl, Or.inl rfl⟩
        · rename_i r₁ hread
          split
          · exact ⟨_, _, _, _, _, _, rfl, by simp, Or.inr rfl, Or.inl rfl⟩
          · rename_i msg2 r₂ hwrite
            obtain ⟨health, sentPath, hsend⟩ := sendResponse_eq (C := C)
              { d with
                initiators := d.initiators.erase source
                responders := d.responders.insert source r₂ } source msg2 env
            rw [hsend]
            split
            all_goals
              rename_i heq
              obtain ⟨-, rfl⟩ := Prod.mk.inj heq
              exact ⟨_, _, _, health, sentPath, _, rfl, by simp, Or.inr rfl,
                Or.inr ⟨ctx, r₀, r₁, r₂, msg2, hctx, hnew, hread, hwrite, rfl⟩⟩

/-- What the handler of a second message does: it uses up the initiator for the sender, and where
that finishes and its answer leaves the node has the session. -/
theorem handleMsg2_spec (d : MeshData σ) (source : UInt32) (payload : Bytes) (env : CallEnv) :
    ∃ event initiators sessions health sentPath sent, d.handleMsg2 N C source payload env =
        { event := event, sent := sent, node := { d with
          initiators := initiators, sessions := sessions
          pathHealth := health, lastSentPath := sentPath } } ∧
      (initiators = d.initiators ∨ initiators = d.initiators.erase source) ∧
      ((∀ peer, event ≠ .established peer) ∧ sessions = d.sessions ∨
        event = .established source ∧ ∃ i i' msg3 keys, d.initiators[source]? = some i ∧
          i.readMsg2 N payload = .ok (msg3, i') ∧ i'.finish N C = .ok keys ∧
          sessions = d.sessions.insert source (Session.new source keys)) := by
  unfold handleMsg2
  split
  · exact ⟨_, _, _, _, _, _, rfl, Or.inl rfl, Or.inl ⟨by simp, rfl⟩⟩
  · rename_i i hi
    dsimp only
    split
    · exact ⟨_, _, _, _, _, _, rfl, Or.inr rfl, Or.inl ⟨by simp, rfl⟩⟩
    · rename_i msg3 i' hread
      split
      · exact ⟨_, _, _, _, _, _, rfl, Or.inr rfl, Or.inl ⟨by simp, rfl⟩⟩
      · rename_i keys hfinish
        split
        · exact ⟨_, _, _, _, _, _, rfl, Or.inr rfl, Or.inl ⟨by simp, rfl⟩⟩
        · obtain ⟨health, sentPath, hsend⟩ := sendFrame_eq
            { d with initiators := d.initiators.erase source } source env
          rw [hsend]
          split
          · rename_i heq
            obtain ⟨-, rfl⟩ := Prod.mk.inj heq
            exact ⟨_, _, _, health, sentPath, _, rfl, Or.inr rfl,
              Or.inr ⟨rfl, i, i', msg3, keys, hi, hread, hfinish, rfl⟩⟩
          · rename_i heq
            obtain ⟨-, rfl⟩ := Prod.mk.inj heq
            exact ⟨_, _, _, health, sentPath, _, rfl, Or.inr rfl, Or.inl ⟨by simp, rfl⟩⟩

/-- What the handler of a third message does: it uses up the responder for the sender, and where
that accepts the node has the session and the claim that the verifier accepted. -/
theorem handleMsg3_spec (d : MeshData σ) (source : UInt32) (payload : Bytes) :
    ∃ event responders claims sessions, d.handleMsg3 N C source payload =
        { event := event, node := { d with
          responders := responders, bindingClaims := claims, sessions := sessions } } ∧
      (responders = d.responders ∨ responders = d.responders.erase source) ∧
      ((∀ peer, event ≠ .established peer) ∧ sessions = d.sessions ∨
        event = .established source ∧ responders = d.responders.erase source ∧
          ∃ r verify keys rs w, d.responders[source]? = some r ∧ d.bindingVerifier = some verify ∧
            r.readMsg3 N C payload source verify = .ok (keys, rs, w) ∧
            claims = d.bindingClaims.insert source ⟨rs, w.binding, w.issuance⟩ ∧
            sessions = d.sessions.insert source (Session.new source keys)) := by
  unfold handleMsg3
  split
  · exact ⟨_, _, _, _, rfl, Or.inl rfl, Or.inl ⟨by simp, rfl⟩⟩
  · rename_i verify hverify
    split
    · exact ⟨_, _, _, _, rfl, Or.inl rfl, Or.inl ⟨by simp, rfl⟩⟩
    · rename_i r hr
      dsimp only
      split
      · exact ⟨_, _, _, _, rfl, Or.inr rfl, Or.inl ⟨by simp, rfl⟩⟩
      · rename_i keys rs w hread
        exact ⟨_, _, _, _, rfl, Or.inr rfl,
          Or.inr ⟨rfl, rfl, r, verify, keys, rs, w, hr, hverify, hread, rfl, rfl⟩⟩

/-- A call that starts a handshake holds a new initiator for the peer, which expects the static key
that the node has of it. -/
theorem initiateHandshake_spec (d : MeshData σ) (peer : UInt32) (env : CallEnv) :
    (d.initiateHandshake N C peer env).2 = d ∨ ∃ ctx peerStatic i₀ i₁ msg1, d.ctx = some ctx ∧
      d.peerStatics[peer]? = some peerStatic ∧
      HandshakeInitiator.new N ctx.localStatic ctx.networkId ctx.version peer ctx.identityBinding
        ctx.bindingIssuance env.salt peerStatic env.ephemeral = .ok i₀ ∧
      i₀.writeMsg1 N = .ok (msg1, i₁) ∧
      (d.initiateHandshake N C peer env).2 = { d with initiators := d.initiators.insert peer i₁ } := by
  unfold initiateHandshake
  split
  · exact Or.inl rfl
  · split
    · exact Or.inl rfl
    · rename_i ctx hctx
      split
      · exact Or.inl rfl
      · rename_i peerStatic hstatic
        split
        · exact Or.inl rfl
        · rename_i i₀ hnew
          split
          · exact Or.inl rfl
          · rename_i msg1 i₁ hwrite
            exact Or.inr ⟨ctx, peerStatic, i₀, i₁, msg1, hctx, hstatic, hnew, hwrite, rfl⟩

theorem initiateHandshake_node (d : MeshData σ) (peer : UInt32) (env : CallEnv) :
    SameSetup d (d.initiateHandshake N C peer env).2 ∧
      (d.initiateHandshake N C peer env).2.responders = d.responders := by
  rcases d.initiateHandshake_spec (N := N) (C := C) peer env with h | ⟨_, _, _, _, _, _, _, _, _, h⟩
  · rw [h]
    exact ⟨.refl d, rfl⟩
  · rw [h]
    exact ⟨⟨rfl, rfl, rfl, rfl, rfl⟩, rfl⟩

/-- A delivered payload leaves the responders as they are, removes the one of the sender, or, as
a first message, sets it. -/
theorem handleHandshake_node (d : MeshData σ) (source : UInt32) (payload : Bytes) (env : CallEnv) :
    SameSetup d (d.handleHandshake N C source payload env).node ∧
      ((d.handleHandshake N C source payload env).node.responders = d.responders ∨
        (d.handleHandshake N C source payload env).node.responders = d.responders.erase source ∨
        payload.length = msg1PayloadLen ∧ ∃ r,
          (d.handleHandshake N C source payload env).node.responders = d.responders.insert source r) := by
  unfold handleHandshake
  split_ifs with h1 h2 h3
  · obtain ⟨_, _, _, _, _, _, heq, -, -, hresp⟩ :=
      d.handleMsg1_spec (N := N) (C := C) source payload env
    rw [heq]
    refine ⟨⟨rfl, rfl, rfl, rfl, rfl⟩, hresp.imp id fun h => Or.inr ⟨h1, ?_⟩⟩
    obtain ⟨_, _, _, r₂, _, _, _, _, _, h⟩ := h
    exact ⟨r₂, h⟩
  · obtain ⟨_, _, _, _, _, _, heq, -, -⟩ := d.handleMsg2_spec (N := N) (C := C) source payload env
    rw [heq]
    exact ⟨⟨rfl, rfl, rfl, rfl, rfl⟩, Or.inl rfl⟩
  · obtain ⟨_, _, _, _, heq, hresp, -⟩ := d.handleMsg3_spec (N := N) (C := C) source payload
    rw [heq]
    exact ⟨⟨rfl, rfl, rfl, rfl, rfl⟩, hresp.imp id Or.inl⟩
  · exact ⟨.refl d, Or.inl rfl⟩

/-- No handshake gets anywhere. -/
def snowless : Snow Unit where
  buildInitiator _ _ _ := none
  buildResponder _ _ _ := none
  writeMessage _ := none
  readMessage _ _ := none
  getRemoteStatic _ := none
  getHandshakeHash _ := []
  getRawSplit _ := ([], [])
  publicKey _ := []

end MeshData

end Rill
