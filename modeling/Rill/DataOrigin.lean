import Rill.BroadcastNonce
import Rill.SessionOrigin

/-!
# The origin of delivered data

Honest nodes, each with a private key of its own, make and answer handshakes, build frames, rekey,
drop sessions, change their tables and restart, in any order. Everything between them belongs to
an adversary: a frame that is delivered to a node is any byte string.

The cipher and the secrecy of the keys enter as `Authentic`: a frame that opens under a receive
key of a session with an honest peer was sealed before by an honest node under that key. From this
follows which node that was, for which destination, and that it was a data frame.
-/

namespace Rill

structure World (ι σ : Type) where
  node : ι → MeshData σ
  bound : ι → Table UInt32 Bytes := fun _ => ∅
  seals : Set SealEvent := ∅
  built : List (ι × UInt32 × Bytes) := []

namespace World
variable {ι σ : Type}

inductive Op (ι σ : Type) where
  | initiate (node : ι) (peer : UInt32) (env : CallEnv)
  | buildData (node : ι) (dest : UInt32) (payload : Bytes) (flowHash nowUnix : UInt64)
  | buildHeartbeat (node : ι) (dest : UInt32)
  | buildBroadcast (node : ι) (payload : Bytes)
  | rekey (node : ι) (peer : UInt32) (now : ℕ)
  | dropSession (node : ι) (peer : UInt32)
  | dropInitiator (node : ι) (peer : UInt32)
  | configure (node : ι) (tables : MeshData σ)
  | restart (node : ι) (tables : MeshData σ)
  | deliver (node : ι) (frame : Bytes) (env : CallEnv)

variable (N : Snow σ) (C : Crypto) (priv : ι → Bytes)

/-- Other tables for a node, whose context keeps the node's private key. -/
def withTables (priv : Bytes) (tables : MeshData σ) : MeshData σ :=
  { tables with ctx := tables.ctx.map fun c => { c with localStatic := priv } }

def start (ids : ι → UInt32) : World ι σ := { node := fun a => { selfNodeId := ids a } }

def setNode [DecidableEq ι] (w : World ι σ) (a : ι) (d : MeshData σ) : World ι σ :=
  { w with node := Function.update w.node a d }

def step [DecidableEq ι] (w : World ι σ) : Op ι σ → World ι σ
  | .initiate a peer env => w.setNode a ((w.node a).initiateHandshake N C peer env).2
  | .buildData a dest payload flowHash nowUnix =>
    { w.setNode a ((w.node a).buildDataFrame C dest payload flowHash nowUnix).2 with
      seals := w.seals ∪ {e | C.Seals
        (fun C => ((w.node a).buildDataFrame C dest payload flowHash nowUnix).1.isOk) e}
      built := w.built ++ [(a, dest, payload)] }
  | .buildHeartbeat a dest =>
    { w.setNode a ((w.node a).buildHeartbeatFrame C dest).2 with
      seals := w.seals ∪
        {e | C.Seals (fun C => ((w.node a).buildHeartbeatFrame C dest).1.isOk) e} }
  | .buildBroadcast a payload =>
    { w.setNode a ((w.node a).buildBroadcastFrame C payload).2 with
      seals := w.seals ∪
        {e | C.Seals (fun C => ((w.node a).buildBroadcastFrame C payload).1.isOk) e} }
  | .rekey a peer now => w.setNode a ((w.node a).rekeySession C peer now)
  | .dropSession a peer => w.setNode a ((w.node a).dropSession peer)
  | .dropInitiator a peer => w.setNode a ((w.node a).dropInitiator peer)
  | .configure a tables => w.setNode a { withTables (priv a) tables with
      initiators := (w.node a).initiators
      responders := (w.node a).responders
      sessions := (w.node a).sessions }
  | .restart a tables => w.setNode a { withTables (priv a) tables with
      initiators := ∅, responders := ∅, sessions := ∅ }
  | .deliver a frame env =>
    let r := (w.node a).handleFrame N C frame env
    { w.setNode a r.node with
      bound := Function.update w.bound a ((w.node a).bindKeys r (w.bound a)) }

/-- A sealed text goes back to a frame header and, where that is one of a data frame, to a call of
`buildDataFrame` by a node that completed the handshake of the key. -/
def Accounted (w : World ι σ) (e : SealEvent) : Prop :=
  ∃ header : MeshFrameHeader, e.aad = Crypto.sealedAad header e.plaintext ∧
    (header.packetType = PacketType.unicast → ∃ a role st n, N.Completed role (priv a) st ∧
      e.key = C.rekeyChain^[n] (C.bindTranscript (N.txSplit role st) (N.getHandshakeHash st)) ∧
      (a, header.toNodeId, e.plaintext) ∈ w.built)

structure Sound (w : World ι σ) : Prop where
  genuine : ∀ a, (w.node a).Genuine N C (priv a) (w.bound a)
  accounted : ∀ e ∈ w.seals, w.Accounted N C priv e

variable {N C priv} {w : World ι σ}

theorem Accounted.mono {w' : World ι σ} {e : SealEvent} (he : w.Accounted N C priv e)
    (hbuilt : ∀ x ∈ w.built, x ∈ w'.built) : w'.Accounted N C priv e := by
  obtain ⟨header, haad, hdata⟩ := he
  refine ⟨header, haad, fun htype => ?_⟩
  obtain ⟨a, role, st, n, hdone, hkey, hmem⟩ := hdata htype
  exact ⟨a, role, st, n, hdone, hkey, hbuilt _ hmem⟩

variable [DecidableEq ι]

section Example

end Example

end World

end Rill
