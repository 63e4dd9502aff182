import Rill.MeshHandshake

/-!
# Refused handshake calls

A call that starts a handshake or handles one of its messages may refuse: it returns an error, or
reports the message as rejected or dropped. Each handler first works out its answer from the
setup of the node and only then knows whether it can send it, but it has given up or stored
handshake state by then. `Keeps` says for which calls a refusal leaves the initiators, responders
and sessions alone.
-/

namespace Rill

inductive HandshakeCall where
  | initiate (peer : UInt32)
  | msg1 (source : UInt32) (payload : Bytes)
  | msg2 (source : UInt32) (payload : Bytes)
  | msg3 (source : UInt32) (payload : Bytes)

inductive HandshakeReply where
  | initiated (result : Except SendError (Option Bytes))
  | handled (event : IncomingEvent)
  deriving DecidableEq

def HandshakeReply.refused : HandshakeReply → Bool
  | .initiated (.error _) => true
  | .handled (.rejected _ _) => true
  | .handled (.dropped _) => true
  | _ => false

namespace MeshData
variable {σ : Type} (N : Snow σ) (C : Crypto)

def handshakeCall (d : MeshData σ) (env : CallEnv) : HandshakeCall → HandshakeReply × MeshData σ
  | .initiate peer =>
    let r := d.initiateHandshake N C peer env
    (.initiated r.1, r.2)
  | .msg1 source payload =>
    let r := d.handleMsg1 N C source payload env
    (.handled r.event, r.node)
  | .msg2 source payload =>
    let r := d.handleMsg2 N C source payload env
    (.handled r.event, r.node)
  | .msg3 source payload =>
    let r := d.handleMsg3 N C source payload
    (.handled r.event, r.node)

def handshakeReplies (d : MeshData σ) : List (CallEnv × HandshakeCall) → List HandshakeReply
  | [] => []
  | (env, call) :: calls =>
    (d.handshakeCall N C env call).1 :: (d.handshakeCall N C env call).2.handshakeReplies calls

def handshakeMaps (d : MeshData σ) :
    Table UInt32 (HandshakeInitiator σ) × Table UInt32 (HandshakeResponder σ) ×
      Table UInt32 Session :=
  (d.initiators, d.responders, d.sessions)

/-- The first message to a peer and the initiator that wrote it. -/
def openingFor (d : MeshData σ) (peer : UInt32) (env : CallEnv) :
    Except SendError (Bytes × HandshakeInitiator σ) :=
  match d.ctx with
  | none => .error .noContext
  | some ctx =>
    match d.peerStatics[peer]? with
    | none => .error .noPeerBinding
    | some peerStatic =>
      ((HandshakeInitiator.new N ctx.localStatic ctx.networkId ctx.version peer
        ctx.identityBinding ctx.bindingIssuance env.salt peerStatic env.ephemeral).bind
          fun initiator => initiator.writeMsg1 N).mapError .handshake

/-- The second message that answers a first one, and the responder that wrote it. -/
def answerMsg1 (d : MeshData σ) (payload : Bytes) (env : CallEnv) :
    Except HandshakeError (Bytes × HandshakeResponder σ) :=
  match d.ctx with
  | none => .error .wrongStep
  | some ctx =>
    ((HandshakeResponder.new N ctx.localStatic ctx.networkId ctx.version d.selfNodeId
      env.ephemeral).bind fun responder => responder.readMsg1 N payload).bind
        fun responder => responder.writeMsg2 N

/-- The third message that answers a second one, and the keys of the session. -/
def answerMsg2 (initiator : HandshakeInitiator σ) (payload : Bytes) :
    Except HandshakeError (Bytes × SessionKeys) :=
  (initiator.readMsg2 N payload).bind fun r => (r.2.finish N C).map fun keys => (r.1, keys)

/-- The node is with the peer already, so that it starts no handshake. -/
def engaged (d : MeshData σ) (peer : UInt32) : Bool :=
  (d.sessions[peer]?).isSome || (d.initiators[peer]?).isSome || (d.responders[peer]?).isSome

/-- The node keeps its own handshake with the sender of a first message. -/
def collides (d : MeshData σ) (source : UInt32) : Bool :=
  (d.initiators[source]?).isSome && !(source < d.selfNodeId)

/-- A handshake frame for the peer can be built and leaves through a socket. -/
def delivers (d : MeshData σ) (peer : UInt32) (env : CallEnv) : Bool :=
  (d.keyDstTable[peer]?).isSome && decide (env.outcome = .sent)

/-- The call either succeeds or has touched no handshake state when it refuses. -/
def Keeps (d : MeshData σ) (env : CallEnv) : HandshakeCall → Prop
  | .initiate peer =>
    d.engaged peer = true ∨ (d.openingFor N peer env).isOk = false ∨
      (d.keyDstTable[peer]?).isSome = true
  | .msg1 source payload =>
    d.collides source = true ∨
      match d.answerMsg1 N payload env with
      | .error _ => d.initiators[source]? = none
      | .ok (_, responder) => d.delivers source env = true ∨
          d.initiators[source]? = none ∧ d.responders[source]? = some responder
  | .msg2 source payload =>
    ∀ initiator, d.initiators[source]? = some initiator →
      (answerMsg2 N C initiator payload).isOk = true ∧ d.delivers source env = true
  | .msg3 source payload =>
    ∀ verify responder, d.bindingVerifier = some verify → d.responders[source]? = some responder →
      (responder.readMsg3 N C payload source verify).isOk = true

variable {N C}

section Evaluation
variable (d : MeshData σ) (env : CallEnv)

theorem isOk_buildHandshakeFrame (peer : UInt32) (payload : Bytes) :
    (d.buildHandshakeFrame C peer payload).isOk = (d.keyDstTable[peer]?).isSome := by
  unfold buildHandshakeFrame
  cases d.keyDstTable[peer]? with
  | none => rfl
  | some keyDst => rfl

theorem initiateHandshake_eq (peer : UInt32) :
    d.initiateHandshake N C peer env =
      if d.engaged peer then (.ok none, d)
      else match d.openingFor N peer env with
        | .error e => (.error e, d)
        | .ok (msg1, initiator) =>
          ((d.buildHandshakeFrame C peer msg1).map some,
            { d with initiators := d.initiators.insert peer initiator }) := by
  unfold initiateHandshake openingFor
  rw [engaged]
  split_ifs with hengaged
  · rfl
  · cases d.ctx with
    | none => rfl
    | some ctx =>
      cases d.peerStatics[peer]? with
      | none => rfl
      | some peerStatic =>
        dsimp only
        cases HandshakeInitiator.new N ctx.localStatic ctx.networkId ctx.version peer
            ctx.identityBinding ctx.bindingIssuance env.salt peerStatic env.ephemeral with
        | error e => rfl
        | ok initiator =>
          simp only [Except.bind]
          cases initiator.writeMsg1 N with
          | error e => rfl
          | ok r => rfl

theorem handleMsg1_eq (source : UInt32) (payload : Bytes) :
    ∃ health sentPath sent, d.handleMsg1 N C source payload env =
      if d.collides source then { event := .rejected source .collision, node := d }
      else match d.answerMsg1 N payload env with
        | .error e =>
          { event := .rejected source e
            node := { d with initiators := d.initiators.erase source } }
        | .ok (_, responder) =>
          { event := if d.delivers source env then .responded source else .dropped .noEndpoint
            sent := sent
            node := { d with
              initiators := d.initiators.erase source
              responders := d.responders.insert source responder
              pathHealth := health, lastSentPath := sentPath } } := by
  unfold handleMsg1 answerMsg1
  rw [collides]
  by_cases hcollides : ((d.initiators[source]?).isSome && !(source < d.selfNodeId)) = true
  · exact ⟨∅, ∅, none, by rw [if_pos hcollides, if_pos hcollides]⟩
  · simp only [if_neg hcollides]
    cases d.ctx with
    | none => exact ⟨∅, ∅, none, rfl⟩
    | some ctx =>
      dsimp only
      cases HandshakeResponder.new N ctx.localStatic ctx.networkId ctx.version d.selfNodeId
          env.ephemeral with
      | error e => exact ⟨∅, ∅, none, rfl⟩
      | ok r₀ =>
        simp only [Except.bind]
        cases r₀.readMsg1 N payload with
        | error e => exact ⟨∅, ∅, none, rfl⟩
        | ok r₁ =>
          dsimp only
          cases r₁.writeMsg2 N with
          | error e => exact ⟨∅, ∅, none, rfl⟩
          | ok r =>
            obtain ⟨msg2, r₂⟩ := r
            obtain ⟨health, sentPath, hsend⟩ := sendResponse_eq (C := C)
              { d with
                ctx := some ctx
                initiators := d.initiators.erase source
                responders := d.responders.insert source r₂ } source msg2 env
            dsimp only
            rw [hsend]
            refine ⟨health, sentPath, if env.outcome = .sent then
              (d.buildHandshakeFrame C source msg2).toOption else none, ?_⟩
            rcases Option.eq_none_or_eq_some d.keyDstTable[source]? with hkey | ⟨keyDst, hkey⟩
            · simp [delivers, buildHandshakeFrame, hkey, Except.toOption]
            · by_cases hsent : env.outcome = .sent
              · simp [delivers, buildHandshakeFrame, hkey, Except.toOption, hsent]
              · simp [delivers, hsent]

theorem handleMsg2_eq (source : UInt32) (payload : Bytes) :
    ∃ health sentPath sent, d.handleMsg2 N C source payload env =
      match d.initiators[source]? with
      | none => { event := .rejected source .wrongStep, node := d }
      | some initiator =>
        match answerMsg2 N C initiator payload with
        | .error e =>
          { event := .rejected source e
            node := { d with initiators := d.initiators.erase source } }
        | .ok (_, keys) =>
          { event := if d.delivers source env then .established source
              else .dropped (if (d.keyDstTable[source]?).isSome then .noEndpoint else .noKeyDst)
            sent := sent
            node := { d with
              initiators := d.initiators.erase source
              sessions := if d.delivers source env then
                d.sessions.insert source (Session.new source keys) else d.sessions
              pathHealth := health, lastSentPath := sentPath } } := by
  unfold handleMsg2 answerMsg2
  cases d.initiators[source]? with
  | none => exact ⟨∅, ∅, none, rfl⟩
  | some initiator =>
    dsimp only
    cases initiator.readMsg2 N payload with
    | error e => exact ⟨∅, ∅, none, rfl⟩
    | ok r =>
      obtain ⟨msg3, i⟩ := r
      simp only [Except.bind]
      cases i.finish N C with
      | error e => exact ⟨∅, ∅, none, rfl⟩
      | ok keys =>
        simp only [Except.map]
        rcases Option.eq_none_or_eq_some d.keyDstTable[source]? with hkey | ⟨keyDst, hkey⟩
        · exact ⟨d.pathHealth, d.lastSentPath, none, by
            simp [delivers, buildHandshakeFrame, hkey]⟩
        · obtain ⟨health, sentPath, hsend⟩ := sendFrame_eq
            { d with initiators := d.initiators.erase source } source env
          rw [hsend]
          refine ⟨health, sentPath, if env.outcome = .sent then
            (d.buildHandshakeFrame C source msg3).toOption else none, ?_⟩
          by_cases hsent : env.outcome = .sent
          · simp [delivers, buildHandshakeFrame, hkey, hsent, Except.toOption]
          · simp [delivers, buildHandshakeFrame, hkey, hsent]

end Evaluation

section Refusal
variable (d : MeshData σ) (env : CallEnv)

theorem keeps_initiate_iff (peer : UInt32) :
    ((d.handshakeCall N C env (.initiate peer)).1.refused = true →
      (d.handshakeCall N C env (.initiate peer)).2.handshakeMaps = d.handshakeMaps) ↔
      d.Keeps N C env (.initiate peer) := by
  simp only [handshakeCall, initiateHandshake_eq, Keeps]
  cases hengaged : d.engaged peer with
  | true => simp
  | false =>
    have hfresh : d.initiators[peer]? = none := by
      simp only [engaged, Bool.or_eq_false_iff, Option.isSome_eq_false_iff,
        Option.isNone_iff_eq_none] at hengaged
      exact hengaged.1.2
    cases d.openingFor N peer env with
    | error e => simp [Except.isOk, Except.toBool]
    | ok r =>
      have hsome := d.isOk_buildHandshakeFrame (C := C) peer r.1
      cases hframe : d.buildHandshakeFrame C peer r.1 with
      | ok frame =>
        rw [hframe] at hsome
        simp [hframe, Except.map, HandshakeReply.refused, ← hsome, Except.isOk, Except.toBool]
      | error e =>
        rw [hframe] at hsome
        simp [hframe, Except.map, HandshakeReply.refused, handshakeMaps, ← hsome, Except.isOk,
          Except.toBool, Table.insert_eq_self_iff, hfresh]

theorem keeps_msg1_iff (source : UInt32) (payload : Bytes) :
    ((d.handshakeCall N C env (.msg1 source payload)).1.refused = true →
      (d.handshakeCall N C env (.msg1 source payload)).2.handshakeMaps = d.handshakeMaps) ↔
      d.Keeps N C env (.msg1 source payload) := by
  obtain ⟨health, sentPath, sent, heq⟩ := d.handleMsg1_eq (N := N) (C := C) env source payload
  simp only [handshakeCall, heq, Keeps]
  cases hcollides : d.collides source with
  | true => simp
  | false =>
    cases d.answerMsg1 N payload env with
    | error e =>
      simp [HandshakeReply.refused, handshakeMaps, Table.erase_eq_self_iff]
    | ok r =>
      cases hsent : d.delivers source env with
      | true => simp [HandshakeReply.refused]
      | false =>
        simp [HandshakeReply.refused, handshakeMaps, Table.erase_eq_self_iff,
          Table.insert_eq_self_iff]

theorem keeps_msg2_iff (source : UInt32) (payload : Bytes) :
    ((d.handshakeCall N C env (.msg2 source payload)).1.refused = true →
      (d.handshakeCall N C env (.msg2 source payload)).2.handshakeMaps = d.handshakeMaps) ↔
      d.Keeps N C env (.msg2 source payload) := by
  obtain ⟨health, sentPath, sent, heq⟩ := d.handleMsg2_eq (N := N) (C := C) env source payload
  simp only [handshakeCall, heq, Keeps]
  cases hinit : d.initiators[source]? with
  | none => simp
  | some initiator =>
    cases hanswer : answerMsg2 N C initiator payload with
    | error e =>
      simp [HandshakeReply.refused, handshakeMaps, Table.erase_eq_self_iff, hinit, hanswer,
        Except.isOk, Except.toBool]
    | ok r =>
      cases hsent : d.delivers source env with
      | true => simp [HandshakeReply.refused, hanswer, Except.isOk, Except.toBool]
      | false =>
        simp [HandshakeReply.refused, handshakeMaps, Table.erase_eq_self_iff, hinit, hanswer]

theorem keeps_msg3_iff (source : UInt32) (payload : Bytes) :
    ((d.handshakeCall N C env (.msg3 source payload)).1.refused = true →
      (d.handshakeCall N C env (.msg3 source payload)).2.handshakeMaps = d.handshakeMaps) ↔
      d.Keeps N C env (.msg3 source payload) := by
  simp only [handshakeCall, handleMsg3, Keeps]
  cases hverify : d.bindingVerifier with
  | none => simp
  | some verify =>
    cases hresp : d.responders[source]? with
    | none => simp
    | some responder =>
      cases hread : responder.readMsg3 N C payload source verify with
      | error e =>
        simp [HandshakeReply.refused, handshakeMaps, Table.erase_eq_self_iff, hresp, hread,
          Except.isOk, Except.toBool]
      | ok r => simp [HandshakeReply.refused, hread, Except.isOk, Except.toBool]

end Refusal

/-- Nodes that handshake calls cannot tell apart. -/
structure SameHandshakes (d d' : MeshData σ) : Prop extends SameSetup d d' where
  initiators : d'.initiators = d.initiators
  responders : d'.responders = d.responders
  sessions : d'.sessions = d.sessions

section Congruence
variable {d d' : MeshData σ}

theorem SameHandshakes.openingFor (h : SameHandshakes d d') (peer : UInt32) (env : CallEnv) :
    d'.openingFor N peer env = d.openingFor N peer env := by
  unfold MeshData.openingFor
  rw [h.ctx, h.peerStatics]

theorem SameHandshakes.answerMsg1 (h : SameHandshakes d d') (payload : Bytes) (env : CallEnv) :
    d'.answerMsg1 N payload env = d.answerMsg1 N payload env := by
  unfold MeshData.answerMsg1
  rw [h.ctx, h.selfNodeId]

theorem SameHandshakes.buildHandshakeFrame (h : SameHandshakes d d') (peer : UInt32)
    (payload : Bytes) :
    d'.buildHandshakeFrame C peer payload = d.buildHandshakeFrame C peer payload := by
  unfold MeshData.buildHandshakeFrame
  rw [h.keyDstTable, h.selfNodeId]

theorem handshakeCall_congr (h : SameHandshakes d d') (env : CallEnv) (call : HandshakeCall) :
    (d'.handshakeCall N C env call).1 = (d.handshakeCall N C env call).1 ∧
      SameHandshakes (d.handshakeCall N C env call).2 (d'.handshakeCall N C env call).2 := by
  obtain ⟨⟨hself, hctx, hstatics, hkeys, hverify⟩, hinit, hresp, hsess⟩ := id h
  cases call with
  | initiate peer =>
    have hengaged : d'.engaged peer = d.engaged peer := by
      rw [engaged, engaged, hinit, hresp, hsess]
    simp only [handshakeCall, initiateHandshake_eq, hengaged, h.openingFor]
    split_ifs
    · exact ⟨rfl, h⟩
    · cases d.openingFor N peer env with
      | error e => exact ⟨rfl, h⟩
      | ok r =>
        refine ⟨?_, ⟨hself, hctx, hstatics, hkeys, hverify⟩, ?_, hresp, hsess⟩
        · simp only [h.buildHandshakeFrame]
        · simp only [hinit]
  | msg1 source payload =>
    obtain ⟨health, path, sent, heq⟩ := d.handleMsg1_eq (N := N) (C := C) env source payload
    obtain ⟨health', path', sent', heq'⟩ := d'.handleMsg1_eq (N := N) (C := C) env source payload
    have hcollides : d'.collides source = d.collides source := by
      rw [collides, collides, hinit, hself]
    have hdelivers : d'.delivers source env = d.delivers source env := by
      rw [delivers, delivers, hkeys]
    simp only [handshakeCall, heq, heq', hcollides, h.answerMsg1, hdelivers]
    split_ifs
    · exact ⟨rfl, h⟩
    all_goals
      cases d.answerMsg1 N payload env with
      | error e =>
        exact ⟨rfl, ⟨hself, hctx, hstatics, hkeys, hverify⟩, by simp only [hinit], hresp, hsess⟩
      | ok r =>
        exact ⟨rfl, ⟨hself, hctx, hstatics, hkeys, hverify⟩, by simp only [hinit],
          by simp only [hresp], hsess⟩
  | msg2 source payload =>
    obtain ⟨health, path, sent, heq⟩ := d.handleMsg2_eq (N := N) (C := C) env source payload
    obtain ⟨health', path', sent', heq'⟩ := d'.handleMsg2_eq (N := N) (C := C) env source payload
    have hdelivers : d'.delivers source env = d.delivers source env := by
      rw [delivers, delivers, hkeys]
    simp only [handshakeCall, heq, heq', hinit, hdelivers, hkeys]
    cases d.initiators[source]? with
    | none => exact ⟨rfl, h⟩
    | some initiator =>
      dsimp only
      cases answerMsg2 N C initiator payload with
      | error e => exact ⟨rfl, ⟨hself, hctx, hstatics, rfl, hverify⟩, rfl, hresp, hsess⟩
      | ok r => exact ⟨rfl, ⟨hself, hctx, hstatics, rfl, hverify⟩, rfl, hresp, by simp only [hsess]⟩
  | msg3 source payload =>
    simp only [handshakeCall, handleMsg3, hverify, hresp]
    cases d.bindingVerifier with
    | none => exact ⟨rfl, h⟩
    | some verify =>
      dsimp only
      cases d.responders[source]? with
      | none => exact ⟨rfl, h⟩
      | some responder =>
        dsimp only
        cases responder.readMsg3 N C payload source verify with
        | error e => exact ⟨rfl, ⟨hself, hctx, hstatics, hkeys, rfl⟩, hinit, rfl, hsess⟩
        | ok r => exact ⟨rfl, ⟨hself, hctx, hstatics, hkeys, rfl⟩, hinit, rfl, by simp only [hsess]⟩

theorem handshakeReplies_congr (h : SameHandshakes d d') (calls : List (CallEnv × HandshakeCall)) :
    d'.handshakeReplies N C calls = d.handshakeReplies N C calls := by
  induction calls generalizing d d' with
  | nil => rfl
  | cons c calls ih =>
    obtain ⟨hreply, hsame⟩ := handshakeCall_congr (N := N) (C := C) h c.1 c.2
    rw [handshakeReplies, handshakeReplies, hreply, ih hsame]

end Congruence

theorem SameHandshakes.of_handshakeMaps {d d' : MeshData σ} (hsetup : SameSetup d d')
    (hmaps : d'.handshakeMaps = d.handshakeMaps) : SameHandshakes d d' := by
  obtain ⟨hinit, hrest⟩ := Prod.mk.inj hmaps
  obtain ⟨hresp, hsess⟩ := Prod.mk.inj hrest
  exact ⟨hsetup, hinit, hresp, hsess⟩

theorem handshakeCall_setup (d : MeshData σ) (env : CallEnv) (call : HandshakeCall) :
    SameSetup d (d.handshakeCall N C env call).2 := by
  cases call with
  | initiate peer => exact (d.initiateHandshake_node peer env).1
  | msg1 source payload =>
    obtain ⟨_, _, _, _, _, _, heq, -⟩ := d.handleMsg1_spec (N := N) (C := C) source payload env
    simp only [handshakeCall, heq]
    exact ⟨rfl, rfl, rfl, rfl, rfl⟩
  | msg2 source payload =>
    obtain ⟨_, _, _, _, _, _, heq, -⟩ := d.handleMsg2_spec (N := N) (C := C) source payload env
    simp only [handshakeCall, heq]
    exact ⟨rfl, rfl, rfl, rfl, rfl⟩
  | msg3 source payload =>
    obtain ⟨_, _, _, _, heq, -⟩ := d.handleMsg3_spec (N := N) (C := C) source payload
    simp only [handshakeCall, heq]
    exact ⟨rfl, rfl, rfl, rfl, rfl⟩

/-- A refusal changes no handshake state exactly if the call `Keeps` it, and then no later call
is answered differently. -/
theorem refused_unchanged_iff (d : MeshData σ) (env : CallEnv) (call : HandshakeCall) :
    (((d.handshakeCall N C env call).1.refused = true →
        (d.handshakeCall N C env call).2.handshakeMaps = d.handshakeMaps) ↔ d.Keeps N C env call) ∧
      ((d.handshakeCall N C env call).1.refused = true → d.Keeps N C env call → ∀ calls,
        (d.handshakeCall N C env call).2.handshakeReplies N C calls =
          d.handshakeReplies N C calls) := by
  have hiff : ((d.handshakeCall N C env call).1.refused = true →
      (d.handshakeCall N C env call).2.handshakeMaps = d.handshakeMaps) ↔ d.Keeps N C env call := by
    cases call with
    | initiate peer => exact d.keeps_initiate_iff env peer
    | msg1 source payload => exact d.keeps_msg1_iff env source payload
    | msg2 source payload => exact d.keeps_msg2_iff env source payload
    | msg3 source payload => exact d.keeps_msg3_iff env source payload
  refine ⟨hiff, fun hrefused hkeeps calls => ?_⟩
  exact handshakeReplies_congr
    (.of_handshakeMaps (d.handshakeCall_setup env call) (hiff.mpr hkeeps hrefused)) calls

section Example

/-- Node 1 knows the destination key and the static key of node 2. -/
def opener : MeshData ClearState where
  selfNodeId := 1
  keyDstTable := (∅ : Table UInt32 Bytes).insert 2 [9]
  ctx := some ⟨1, 1, [1], List.replicate 64 0, (0, 0)⟩
  peerStatics := (∅ : Table UInt32 Bytes).insert 2 (pad32 [2])

def opened : MeshData ClearState :=
  (opener.handshakeCall Snow.clear (Crypto.clear 0) {} (.initiate 2)).2

def secondMessage (static : Bytes) : Bytes := pad32 [4] ++ (static ++ List.replicate 32 0)

/-- A second message with a foreign static key is rejected and takes the handshake with it: the
answer of node 2 finds no initiator any more, though alone it would have established the session. -/
theorem opened_loses_handshake :
    let forged := opened.handshakeCall Snow.clear (Crypto.clear 0) {}
      (.msg2 2 (secondMessage (pad32 [3])))
    let genuine := HandshakeCall.msg2 2 (secondMessage (pad32 [2]))
    forged.1 = .handled (.rejected 2 .peerStaticMismatch) ∧
      forged.2.handshakeMaps ≠ opened.handshakeMaps ∧
      (forged.2.handshakeCall Snow.clear (Crypto.clear 0) {} genuine).1 =
        .handled (.rejected 2 .wrongStep) ∧
      (opened.handshakeCall Snow.clear (Crypto.clear 0) {} genuine).1 =
        .handled (.established 2) := by
  refine ⟨by decide, fun h => ?_, by decide, by decide⟩
  have hgone := congrArg (fun maps => (maps.1[(2 : UInt32)]?).isSome) h
  revert hgone
  decide

/-- A second message from a node with which no handshake is open is rejected without a trace. -/
theorem opened_keeps_handshake :
    (opened.handshakeCall Snow.clear (Crypto.clear 0) {} (.msg2 3 [])).1.refused = true ∧
      ∀ calls, (opened.handshakeCall Snow.clear (Crypto.clear 0) {} (.msg2 3 [])).2.handshakeReplies
        Snow.clear (Crypto.clear 0) calls =
          opened.handshakeReplies Snow.clear (Crypto.clear 0) calls := by
  have hrefused : (opened.handshakeCall Snow.clear (Crypto.clear 0) {} (.msg2 3 [])).1.refused =
      true := by
    decide
  have hnone : opened.initiators[(3 : UInt32)]? = none := by
    decide
  refine ⟨hrefused, (refused_unchanged_iff opened {} (.msg2 3 [])).2 hrefused ?_⟩
  intro initiator h
  rw [hnone] at h
  nomatch h

end Example

end MeshData

end Rill
