import Rill.MeshHandshake
import Rill.Transition

/-!
# Two nodes and the handshake messages between them

`HandshakeNet` is a pair of nodes with the handshake payloads on their way. Either node may start
a handshake, give up its initiator or drop its session; a message may be delivered once or more
than once, at any time and in any order, or be lost. Two nodes without sessions are stuck exactly
when each holds a responder for the other.
-/

namespace Rill

structure HandshakeNet (σ : Type) where
  node : Bool → MeshData σ
  inFlight : Multiset (Bool × Bytes) := 0

namespace HandshakeNet
variable {σ : Type} (N : Snow σ) (C : Crypto)

inductive Op where
  | initiate (side : Bool) (env : CallEnv)
  | deliver (side : Bool) (payload : Bytes) (env : CallEnv) (keep : Bool)
  | lose (side : Bool) (payload : Bytes)
  | dropInitiator (side : Bool)
  | dropSession (side : Bool)
  deriving DecidableEq

def peerId (w : HandshakeNet σ) (side : Bool) : UInt32 := (w.node (!side)).selfNodeId

def setNode (w : HandshakeNet σ) (side : Bool) (d : MeshData σ) : HandshakeNet σ :=
  { w with node := Function.update w.node side d }

/-- The handshake payload of a frame that leaves `side`. -/
def outbound (side : Bool) (frame : Option Bytes) : Multiset (Bool × Bytes) :=
  match frame.bind framePayload with
  | some payload => {(!side, payload)}
  | none => 0

def initiate (w : HandshakeNet σ) (side : Bool) (env : CallEnv) : HandshakeNet σ :=
  let r := (w.node side).initiateHandshake N C (w.peerId side) env
  let frame := r.1.toOption.join
  { w.setNode side r.2 with
    inFlight := w.inFlight + outbound side frame }

def receive (w : HandshakeNet σ) (side : Bool) (payload : Bytes) (env : CallEnv) : HandshakeNet σ :=
  let r := (w.node side).handleHandshake N C (w.peerId side) payload env
  { w.setNode side r.node with inFlight := w.inFlight + outbound side r.sent }

def step (w : HandshakeNet σ) : Op → Option (HandshakeNet σ)
  | .initiate side env => some (w.initiate N C side env)
  | .deliver side payload env keep =>
    if (side, payload) ∈ w.inFlight then
      let rest := if keep then w.inFlight else w.inFlight.erase (side, payload)
      some ({ w with inFlight := rest }.receive N C side payload env)
    else none
  | .lose side payload => some { w with inFlight := w.inFlight.erase (side, payload) }
  | .dropInitiator side => some (w.setNode side ((w.node side).dropInitiator (w.peerId side)))
  | .dropSession side => some (w.setNode side ((w.node side).dropSession (w.peerId side)))

/-- The node has its context, and the static key and a routing key of the peer. -/
def Ready (d : MeshData σ) (peer : UInt32) : Prop :=
  ∃ ctx peerStatic keyDst, d.ctx = some ctx ∧ ctx.identityBinding.length = bindingLen ∧
    d.peerStatics[peer]? = some peerStatic ∧ d.keyDstTable[peer]? = some keyDst

/-- The library builds an initiator and lets it write its first message. -/
def CanStart (N : Snow σ) : Prop :=
  ∀ pro priv eph, ∃ st body st', N.buildInitiator pro priv eph = some st ∧
    N.writeMessage st = some (body, st')

/-- Neither node has a session for the other and no message is on its way. -/
def Stalled (w : HandshakeNet σ) : Prop :=
  w.inFlight = 0 ∧ ∀ side, (w.node side).sessions[w.peerId side]? = none

/-- After both nodes give up their initiators, one of them starts a handshake. -/
def Restarts (w : HandshakeNet σ) : Prop :=
  ∃ side, ∀ env, ∃ frame, (((w.node side).dropInitiator (w.peerId side)).initiateHandshake N C
    (w.peerId side) env).1 = .ok (some frame)

def BothRespond (w : HandshakeNet σ) : Prop :=
  ∀ side, ((w.node side).responders[w.peerId side]?).isSome

structure Wired (w : HandshakeNet σ) : Prop where
  ready : ∀ side, Ready (w.node side) (w.peerId side)
  distinct : (w.node true).selfNodeId ≠ (w.node false).selfNodeId

/-- A first message is delivered only to a node for which its peer holds no responder. -/
def FirstMessageAlone (w : HandshakeNet σ) (op : Op) : Prop :=
  ∀ side payload env keep, op = .deliver side payload env keep → payload.length = msg1PayloadLen →
    (w.node (!side)).responders[w.peerId (!side)]? = none

variable {N C}

theorem initiateHandshake_ok_some_iff (hN : CanStart N) {d : MeshData σ} {peer : UInt32}
    (hd : Ready d peer) (env : CallEnv) :
    (∃ frame, (d.initiateHandshake N C peer env).1 = .ok (some frame)) ↔
      d.sessions[peer]? = none ∧ d.initiators[peer]? = none ∧ d.responders[peer]? = none := by
  obtain ⟨ctx, peerStatic, keyDst, hctx, hbind, hstatic, hkey⟩ := hd
  unfold MeshData.initiateHandshake
  by_cases hbusy : ((d.sessions[peer]?).isSome || (d.initiators[peer]?).isSome ||
      (d.responders[peer]?).isSome) = true
  · rw [if_pos hbusy]
    simp only [Except.ok.injEq, reduceCtorEq, exists_false, false_iff, not_and]
    intro hs hi hr
    simp [hs, hi, hr] at hbusy
  · obtain ⟨st, body, st', hbuild, hwrite⟩ := hN (prologue ctx.networkId ctx.version)
      ctx.localStatic env.ephemeral
    have hfree : d.sessions[peer]? = none ∧ d.initiators[peer]? = none ∧
        d.responders[peer]? = none := by simpa [and_assoc] using hbusy
    rw [if_neg hbusy]
    simp [hctx, hstatic, HandshakeInitiator.new, hbind, hbuild, HandshakeInitiator.writeMsg1, hwrite,
      MeshData.buildHandshakeFrame, hkey, Except.map, hfree]

theorem setNode_same {w : HandshakeNet σ} {side : Bool} {d : MeshData σ}
    (hd : MeshData.SameSetup (w.node side) d) (other : Bool) :
    MeshData.SameSetup (w.node other) ((w.setNode side d).node other) := by
  by_cases h : other = side
  · subst h
    simpa [setNode] using hd
  · simpa [setNode, h] using MeshData.SameSetup.refl (w.node other)

theorem setNode_responders_of_ne {w : HandshakeNet σ} {side other : Bool} {d : MeshData σ}
    (h : other ≠ side) : ((w.setNode side d).node other).responders = (w.node other).responders := by
  simp [setNode, h]

theorem step_node {w w' : HandshakeNet σ} {op : Op} (hs : w.step N C op = some w') (side : Bool) :
    MeshData.SameSetup (w.node side) (w'.node side) ∧
      ((w'.node side).responders = (w.node side).responders ∨
        (w'.node side).responders = (w.node side).responders.erase (w.peerId side) ∨
        ∃ payload env keep r, op = .deliver side payload env keep ∧
          payload.length = msg1PayloadLen ∧
          (w'.node side).responders = (w.node side).responders.insert (w.peerId side) r) := by
  have hother : ∀ {s : Bool} {d : MeshData σ}, side ≠ s →
      ((w.setNode s d).node side).responders = (w.node side).responders :=
    fun h => setNode_responders_of_ne h
  cases op with
  | initiate s env =>
    cases hs
    obtain ⟨hsame, hresp⟩ := (w.node s).initiateHandshake_node (N := N) (C := C) (w.peerId s) env
    refine ⟨setNode_same hsame side, Or.inl ?_⟩
    by_cases h : side = s
    · subst h
      simpa [initiate, setNode] using hresp
    · exact hother h
  | deliver s payload env keep =>
    simp only [step] at hs
    split_ifs at hs
    all_goals
      cases hs
      obtain ⟨hsame, hresp⟩ :=
        (w.node s).handleHandshake_node (N := N) (C := C) (w.peerId s) payload env
      refine ⟨setNode_same hsame side, ?_⟩
      by_cases h : side = s
      · subst h
        have hnode : ∀ d, ((w.setNode side d).node side).responders = d.responders := by
          simp [setNode]
        rcases hresp with hresp | hresp | ⟨hlen, r, hresp⟩
        · exact Or.inl ((hnode _).trans hresp)
        · exact Or.inr (Or.inl ((hnode _).trans hresp))
        · exact Or.inr (Or.inr ⟨payload, env, _, r, rfl, hlen, (hnode _).trans hresp⟩)
      · exact Or.inl (hother h)
  | lose s payload =>
    cases hs
    exact ⟨.refl _, Or.inl rfl⟩
  | dropInitiator s =>
    cases hs
    have hsame : MeshData.SameSetup (w.node s) ((w.node s).dropInitiator (w.peerId s)) :=
      ⟨rfl, rfl, rfl, rfl, rfl⟩
    refine ⟨setNode_same hsame side, Or.inl ?_⟩
    by_cases h : side = s
    · subst h
      simp [setNode, MeshData.dropInitiator]
    · exact hother h
  | dropSession s =>
    cases hs
    have hsame : MeshData.SameSetup (w.node s) ((w.node s).dropSession (w.peerId s)) :=
      ⟨rfl, rfl, rfl, rfl, rfl⟩
    refine ⟨setNode_same hsame side, Or.inl ?_⟩
    by_cases h : side = s
    · subst h
      simp [setNode, MeshData.dropSession]
    · exact hother h

theorem step_peerId {w w' : HandshakeNet σ} {op : Op} (hs : w.step N C op = some w') (side : Bool) :
    w'.peerId side = w.peerId side := (step_node hs (!side)).1.selfNodeId

theorem wired_step {w w' : HandshakeNet σ} {op : Op} (hw : w.Wired) (hs : w.step N C op = some w') :
    w'.Wired where
  ready side := by
    obtain ⟨ctx, peerStatic, keyDst, hctx, hbind, hstatic, hkey⟩ := hw.ready side
    have hsame := (step_node hs side).1
    rw [step_peerId hs side]
    exact ⟨ctx, peerStatic, keyDst, by rw [hsame.ctx, hctx], hbind, by rw [hsame.peerStatics, hstatic],
      by rw [hsame.keyDstTable, hkey]⟩
  distinct := by
    rw [(step_node hs true).1.selfNodeId, (step_node hs false).1.selfNodeId]
    exact hw.distinct

theorem restarts_iff (hN : CanStart N) {w : HandshakeNet σ} (hw : w.Wired) (hstall : w.Stalled) :
    w.Restarts N C ↔ ¬ w.BothRespond := by
  have hiff : ∀ side env, (∃ frame, (((w.node side).dropInitiator (w.peerId side)).initiateHandshake
      N C (w.peerId side) env).1 = .ok (some frame)) ↔
      (w.node side).responders[w.peerId side]? = none := by
    intro side env
    have hready : Ready ((w.node side).dropInitiator (w.peerId side)) (w.peerId side) := hw.ready side
    rw [initiateHandshake_ok_some_iff hN hready]
    have hsess := hstall.2 side
    simp [MeshData.dropInitiator, hsess]
  constructor
  · rintro ⟨side, h⟩ hboth
    have hnone := (hiff side {}).mp (h {})
    have hsome := hboth side
    rw [hnone] at hsome
    cases hsome
  · intro hnot
    simp only [BothRespond, not_forall, Bool.not_eq_true, Option.isSome_eq_false_iff,
      Option.isNone_iff_eq_none] at hnot
    obtain ⟨side, hside⟩ := hnot
    exact ⟨side, fun env => (hiff side env).mpr hside⟩

theorem not_bothRespond_step {w w' : HandshakeNet σ} {op : Op} (hw : ¬ w.BothRespond)
    (hg : w.FirstMessageAlone op) (hs : w.step N C op = some w') : ¬ w'.BothRespond := by
  intro hboth
  apply hw
  intro side
  have hsome := hboth side
  rw [step_peerId hs side] at hsome
  rcases (step_node hs side).2 with hresp | hresp | ⟨payload, env, keep, r, rfl, hlen, hresp⟩
  · rwa [hresp] at hsome
  · rw [hresp, Table.getElem?_erase_self] at hsome
    cases hsome
  · have hpeer := hboth (!side)
    rw [step_peerId hs (!side)] at hpeer
    have hnone := hg side payload env keep rfl hlen
    rcases (step_node hs (!side)).2 with hresp' | hresp' | ⟨payload', env', keep', r', hop, -⟩
    · rw [hresp', hnone] at hpeer
      cases hpeer
    · rw [hresp', Table.getElem?_erase_self] at hpeer
      cases hpeer
    · have hside := (Op.deliver.inj hop).1
      exact absurd hside (by cases side <;> decide)

/-- In every reachable stalled state one node restarts exactly when not both hold a responder for
the other; and a run in which first messages reach only nodes for which their peer holds no
responder never gets into a stalled state without a restart. -/
theorem restarts_of_reachable (hN : CanStart N) {w₀ w : HandshakeNet σ} {ops : List Op}
    (hwired : w₀.Wired) (hr : Transition.run (step N C) w₀ ops = some w) (hstall : w.Stalled) :
    (w.Restarts N C ↔ ¬ w.BothRespond) ∧
      (¬ w₀.BothRespond → Transition.Meets (step N C) FirstMessageAlone w₀ ops → w.Restarts N C) := by
  have hw : w.Wired := Transition.reachable (fun _ _ _ hw hs => wired_step hw hs) hwired hr
  have hiff := restarts_iff (C := C) hN hw hstall
  refine ⟨hiff, fun hstart hg => hiff.mpr ?_⟩
  exact Transition.invariant (fun _ _ _ hw hg hs => not_bothRespond_step hw hg hs) hstart hg hr

theorem canStart_of_correct (hN : N.Correct) : CanStart N := by
  intro pro priv eph
  obtain ⟨x⟩ := hN.exchange pro priv eph [] []
  exact ⟨x.i0, x.body1, x.i1, x.build_initiator, x.write1⟩

section Example

def pairId (side : Bool) : UInt32 := if side then 2 else 1

def pairNode (side : Bool) : MeshData ClearState where
  selfNodeId := pairId side
  ctx := some ⟨1, 1, [if side then 2 else 1], List.replicate 64 0, (0, 0)⟩
  peerStatics := (∅ : Table UInt32 Bytes).insert (pairId !side) (pad32 [if side then 1 else 2])
  keyDstTable := (∅ : Table UInt32 Bytes).insert (pairId !side) []
  bindingVerifier := some fun _ _ _ _ _ => true

def pair : HandshakeNet ClearState := { node := pairNode }

theorem pair_wired : pair.Wired where
  ready side := ⟨_, _, _, rfl, rfl, Table.getElem?_insert_self _ _ _, Table.getElem?_insert_self _ _ _⟩
  distinct := by decide

def firstMessage (receiver : Bool) : Bytes := u32be (pairId receiver) ++ List.replicate 32 0

def secondMessage (sender : Bool) : Bytes :=
  List.replicate 32 0 ++ (pad32 [if sender then 2 else 1] ++ List.replicate 32 0)

/-- Node 1 starts and gives up, node 2 starts, both first messages arrive, and so do both answers. -/
def crossed : List Op :=
  [.initiate false {}, .dropInitiator false, .initiate true {},
    .deliver false (firstMessage false) {} false, .deliver true (firstMessage true) {} false,
    .deliver true (secondMessage false) {} false, .deliver false (secondMessage true) {} false]

def quiet (w : HandshakeNet ClearState) : Bool :=
  decide (w.inFlight = 0) && decide (∀ side, (w.node side).sessions[w.peerId side]? = none)

theorem stalled_of_quiet {w : HandshakeNet ClearState} (h : quiet w = true) : w.Stalled := by
  simpa [quiet, Stalled] using h

theorem not_restarts_after_crossed : ∃ w, Transition.run (step Snow.clear (Crypto.clear 0)) pair
    crossed = some w ∧ w.Stalled ∧ ¬ w.Restarts Snow.clear (Crypto.clear 0) := by
  have hrun : (Transition.run (step Snow.clear (Crypto.clear 0)) pair crossed).any (fun w =>
      quiet w && decide (∀ side, ((w.node side).responders[w.peerId side]?).isSome)) = true := by
    decide
  obtain ⟨w, hw, hcheck⟩ := (Option.any_eq_true _ _).mp hrun
  rw [Bool.and_eq_true, decide_eq_true_eq] at hcheck
  have hwired : w.Wired := Transition.reachable (fun _ _ _ hw hs => wired_step hw hs) pair_wired hw
  have hstall := stalled_of_quiet hcheck.1
  have hiff := restarts_iff (C := Crypto.clear 0) (canStart_of_correct Snow.clear_correct) hwired hstall
  exact ⟨w, hw, hstall, fun h => hiff.mp h hcheck.2⟩

/-- Node 1 starts a handshake and its first message is lost. -/
theorem restarts_after_loss : ∃ w, Transition.run (step Snow.clear (Crypto.clear 0)) pair
    [.initiate false {}, .lose true (firstMessage true)] = some w ∧ w.Stalled ∧
      w.Restarts Snow.clear (Crypto.clear 0) := by
  have hrun : (Transition.run (step Snow.clear (Crypto.clear 0)) pair
      [.initiate false {}, .lose true (firstMessage true)]).any quiet = true := by
    decide
  obtain ⟨w, hw, hcheck⟩ := (Option.any_eq_true _ _).mp hrun
  have hstall := stalled_of_quiet hcheck
  have hstart : ¬ pair.BothRespond := fun h => absurd (h true) (by decide)
  refine ⟨w, hw, hstall, (restarts_of_reachable (canStart_of_correct Snow.clear_correct) pair_wired hw
    hstall).2 hstart (Transition.meets_of_forall (fun s a ha side payload env keep h => ?_) _)⟩
  subst h
  simp at ha

end Example

end HandshakeNet

end Rill
