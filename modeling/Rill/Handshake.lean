import Rill.Session

/-!
# The two roles of the Noise_XX handshake

`Snow` is the Noise library the source builds on: a state is built from the prologue, the local
static key and the randomness of the ephemeral key, and it writes and reads message bodies. The
two role records and their steps follow `rill-core/src/handshake/mod.rs`, with the payload
layouts of its `wire` module around the bodies.

`Exchange` is one undisturbed run of the library, and `Snow.Correct` says that every choice of
keys has one that ends in agreement.
-/

namespace Rill

structure Snow (σ : Type) where
  buildInitiator : (prologue localPrivate ephemeral : Bytes) → Option σ
  buildResponder : (prologue localPrivate ephemeral : Bytes) → Option σ
  writeMessage : σ → Option (Bytes × σ)
  readMessage : σ → Bytes → Option σ
  getRemoteStatic : σ → Option Bytes
  getHandshakeHash : σ → Bytes
  getRawSplit : σ → Bytes × Bytes
  publicKey : Bytes → Bytes

inductive HandshakeError where
  | noise
  | malformedPayload
  | wrongTarget
  | badBinding
  | peerStaticMismatch
  | wrongStep
  | collision
  deriving DecidableEq

def sessionKeyLen : ℕ := 32

def bindingLen : ℕ := 64

def msg1PayloadLen : ℕ := 36

def msg2PayloadLen : ℕ := 96

def msg3PayloadLen : ℕ := 148

def prologue (networkId : UInt32) (version : UInt8) : Bytes := u32be networkId ++ [version]

def Crypto.bindTranscript (C : Crypto) (splitKey handshakeHash : Bytes) : Bytes :=
  C.hkdf (some handshakeHash) splitKey (ascii "mesh-session-v1") sessionKeyLen

/-- What one side sends with is what the other receives with, under one salt. -/
structure SessionKeys.Mirrored (a b : SessionKeys) : Prop where
  tx : a.txKey = b.rxKey
  rx : a.rxKey = b.txKey
  salt : a.salt = b.salt

structure HandshakeContext where
  networkId : UInt32
  version : UInt8
  localStatic : Bytes
  identityBinding : Bytes
  bindingIssuance : UInt64 × UInt64
  deriving DecidableEq

structure HandshakeInitiator (σ : Type) where
  state : σ
  targetNodeId : UInt32
  identityBinding : Bytes
  bindingIssuance : UInt64 × UInt64
  salt : UInt32
  expectedPeerStatic : Bytes
  sentMsg1 : Bool
  sentMsg3 : Bool
  deriving DecidableEq

structure HandshakeResponder (σ : Type) where
  state : σ
  selfNodeId : UInt32
  msg1Read : Bool
  sentMsg2 : Bool
  deriving DecidableEq

variable {σ : Type} (N : Snow σ) (C : Crypto)

def Snow.peerStatic (state : σ) (err : HandshakeError) : Except HandshakeError Bytes :=
  match N.getRemoteStatic state with
  | some rs => if rs.length = sessionKeyLen then .ok rs else .error err
  | none => .error err

namespace HandshakeInitiator

def new (localStatic : Bytes) (networkId : UInt32) (version : UInt8) (targetNodeId : UInt32)
    (identityBinding : Bytes) (bindingIssuance : UInt64 × UInt64) (salt : UInt32)
    (expectedPeerStatic ephemeral : Bytes) : Except HandshakeError (HandshakeInitiator σ) :=
  if identityBinding.length ≠ bindingLen then .error .malformedPayload
  else
    match N.buildInitiator (prologue networkId version) localStatic ephemeral with
    | none => .error .noise
    | some state => .ok ⟨state, targetNodeId, identityBinding, bindingIssuance, salt,
        expectedPeerStatic, false, false⟩

def writeMsg1 (i : HandshakeInitiator σ) : Except HandshakeError (Bytes × HandshakeInitiator σ) :=
  if i.sentMsg1 then .error .wrongStep
  else
    match N.writeMessage i.state with
    | none => .error .noise
    | some (body, state) =>
      .ok (u32be i.targetNodeId ++ body, { i with state := state, sentMsg1 := true })

def readMsg2 (i : HandshakeInitiator σ) (payload : Bytes) :
    Except HandshakeError (Bytes × HandshakeInitiator σ) :=
  if !i.sentMsg1 || i.sentMsg3 then .error .wrongStep
  else if payload.length ≠ msg2PayloadLen then .error .malformedPayload
  else
    match N.readMessage i.state payload with
    | none => .error .noise
    | some state =>
      match N.writeMessage state with
      | none => .error .noise
      | some (body, state) =>
        .ok (i.identityBinding ++ (u64be i.bindingIssuance.1 ++ (u64be i.bindingIssuance.2 ++
          (u32be i.salt ++ body))), { i with state := state, sentMsg3 := true })

def finish (i : HandshakeInitiator σ) : Except HandshakeError SessionKeys :=
  if !i.sentMsg3 then .error .wrongStep
  else
    match N.peerStatic i.state .peerStaticMismatch with
    | .error e => .error e
    | .ok remoteStatic =>
      if remoteStatic ≠ i.expectedPeerStatic then .error .peerStaticMismatch
      else
        let h := N.getHandshakeHash i.state
        let (k1, k2) := N.getRawSplit i.state
        .ok ⟨i.salt, C.bindTranscript k1 h, C.bindTranscript k2 h⟩

end HandshakeInitiator

structure WireMsg3 where
  binding : Bytes
  issuance : UInt64 × UInt64
  salt : UInt32
  body : Bytes
  deriving DecidableEq

def WireMsg3.parse (buf : Bytes) : Except HandshakeError WireMsg3 :=
  if buf.length ≠ msg3PayloadLen then .error .malformedPayload
  else .ok
    { binding := field 0 64 buf
      issuance := (UInt64.ofNat (readBE (field 64 8 buf)), UInt64.ofNat (readBE (field 72 8 buf)))
      salt := UInt32.ofNat (readBE (field 80 4 buf))
      body := field 84 64 buf }

namespace HandshakeResponder

def new (localStatic : Bytes) (networkId : UInt32) (version : UInt8) (selfNodeId : UInt32)
    (ephemeral : Bytes) : Except HandshakeError (HandshakeResponder σ) :=
  match N.buildResponder (prologue networkId version) localStatic ephemeral with
  | none => .error .noise
  | some state => .ok ⟨state, selfNodeId, false, false⟩

def readMsg1 (r : HandshakeResponder σ) (payload : Bytes) :
    Except HandshakeError (HandshakeResponder σ) :=
  if r.msg1Read then .error .wrongStep
  else if payload.length ≠ msg1PayloadLen then .error .malformedPayload
  else if UInt32.ofNat (readBE (field 0 4 payload)) ≠ r.selfNodeId then .error .wrongTarget
  else
    match N.readMessage r.state (field 4 32 payload) with
    | none => .error .noise
    | some state => .ok { r with state := state, msg1Read := true }

def writeMsg2 (r : HandshakeResponder σ) : Except HandshakeError (Bytes × HandshakeResponder σ) :=
  if !r.msg1Read || r.sentMsg2 then .error .wrongStep
  else
    match N.writeMessage r.state with
    | none => .error .noise
    | some (body, state) => .ok (body, { r with state := state, sentMsg2 := true })

/-- The session keys, and the static key and the parsed message that the verifier accepted. -/
def readMsg3 (r : HandshakeResponder σ) (payload : Bytes) (claimedNodeId : UInt32)
    (verify : UInt32 → Bytes → Bytes → UInt64 → UInt64 → Bool) :
    Except HandshakeError (SessionKeys × Bytes × WireMsg3) :=
  if !r.sentMsg2 then .error .wrongStep
  else
    match WireMsg3.parse payload with
    | .error e => .error e
    | .ok w =>
      match N.readMessage r.state w.body with
      | none => .error .noise
      | some state =>
        match N.peerStatic state .badBinding with
        | .error e => .error e
        | .ok remoteStatic =>
          if !verify claimedNodeId remoteStatic w.binding w.issuance.1 w.issuance.2 then
            .error .badBinding
          else
            let h := N.getHandshakeHash state
            let (k1, k2) := N.getRawSplit state
            .ok (⟨w.salt, C.bindTranscript k2 h, C.bindTranscript k1 h⟩, remoteStatic, w)

end HandshakeResponder

/-- One undisturbed run of the library between an initiator and a responder. -/
structure Exchange (N : Snow σ) (pro initPriv initEph respPriv respEph : Bytes) where
  i0 : σ
  i1 : σ
  i2 : σ
  i3 : σ
  r0 : σ
  r1 : σ
  r2 : σ
  r3 : σ
  body1 : Bytes
  body2 : Bytes
  body3 : Bytes
  build_initiator : N.buildInitiator pro initPriv initEph = some i0
  build_responder : N.buildResponder pro respPriv respEph = some r0
  write1 : N.writeMessage i0 = some (body1, i1)
  read1 : N.readMessage r0 body1 = some r1
  write2 : N.writeMessage r1 = some (body2, r2)
  read2 : N.readMessage i1 body2 = some i2
  write3 : N.writeMessage i2 = some (body3, i3)
  read3 : N.readMessage r2 body3 = some r3
  length_body1 : body1.length = 32
  length_body2 : body2.length = 96
  length_body3 : body3.length = 64
  initiator_sees : N.getRemoteStatic i3 = some (N.publicKey respPriv)
  responder_sees : N.getRemoteStatic r3 = some (N.publicKey initPriv)
  hash_eq : N.getHandshakeHash i3 = N.getHandshakeHash r3
  split_eq : N.getRawSplit i3 = N.getRawSplit r3

structure Snow.Correct (N : Snow σ) : Prop where
  length_publicKey : ∀ priv, (N.publicKey priv).length = sessionKeyLen
  exchange : ∀ pro initPriv initEph respPriv respEph,
    Nonempty (Exchange N pro initPriv initEph respPriv respEph)

/-- The state of a handshake in clear: who writes, what was written and read so far. -/
structure ClearState where
  initiator : Bool
  turn : ℕ
  pro : Bytes
  priv : Bytes
  eph : Bytes
  remoteEph : Bytes
  remoteStatic : Option Bytes
  deriving DecidableEq

def pad32 (b : Bytes) : Bytes := (b ++ List.replicate 32 0).take 32

@[simp] theorem length_pad32 (b : Bytes) : (pad32 b).length = 32 := by
  simp [pad32]

namespace ClearState

def write (s : ClearState) : Option (Bytes × ClearState) :=
  match s.initiator, s.turn with
  | true, 0 => some (s.eph, { s with turn := 1 })
  | false, 1 => some (s.eph ++ (s.priv ++ List.replicate 32 0), { s with turn := 2 })
  | true, 2 => some (s.priv ++ List.replicate 32 0, { s with turn := 3 })
  | _, _ => none

def read (s : ClearState) (body : Bytes) : Option ClearState :=
  match s.initiator, s.turn with
  | false, 0 => if body.length = 32 then some { s with turn := 1, remoteEph := body } else none
  | true, 1 =>
    if body.length = 96 then
      some { s with turn := 2, remoteEph := field 0 32 body, remoteStatic := some (field 32 32 body) }
    else none
  | false, 2 =>
    if body.length = 64 then some { s with turn := 3, remoteStatic := some (field 0 32 body) } else none
  | _, _ => none

def hash (s : ClearState) : Bytes :=
  let remote := s.remoteStatic.getD []
  if s.initiator then s.pro ++ (s.eph ++ (s.remoteEph ++ (s.priv ++ remote)))
  else s.pro ++ (s.remoteEph ++ (s.eph ++ (remote ++ s.priv)))

end ClearState

/-- A library that exchanges everything in clear. -/
def Snow.clear : Snow ClearState where
  buildInitiator pro priv eph := some ⟨true, 0, pro, pad32 priv, pad32 eph, [], none⟩
  buildResponder pro priv eph := some ⟨false, 0, pro, pad32 priv, pad32 eph, [], none⟩
  writeMessage := ClearState.write
  readMessage := ClearState.read
  getRemoteStatic := ClearState.remoteStatic
  getHandshakeHash := ClearState.hash
  getRawSplit s := (s.hash, 1 :: s.hash)
  publicKey := pad32

theorem Snow.clear_correct : Snow.clear.Correct where
  length_publicKey := length_pad32
  exchange pro initPriv initEph respPriv respEph := by
    have htail : ∀ rest, field 32 32 (pad32 respEph ++ (pad32 respPriv ++ rest)) =
        pad32 respPriv := by
      intro rest
      rw [field_append_of_length_le (by simp), length_pad32]
      exact field_zero_append (length_pad32 _)
    exact ⟨{
      i0 := ⟨true, 0, pro, pad32 initPriv, pad32 initEph, [], none⟩
      i1 := ⟨true, 1, pro, pad32 initPriv, pad32 initEph, [], none⟩
      i2 := ⟨true, 2, pro, pad32 initPriv, pad32 initEph, pad32 respEph, some (pad32 respPriv)⟩
      i3 := ⟨true, 3, pro, pad32 initPriv, pad32 initEph, pad32 respEph, some (pad32 respPriv)⟩
      r0 := ⟨false, 0, pro, pad32 respPriv, pad32 respEph, [], none⟩
      r1 := ⟨false, 1, pro, pad32 respPriv, pad32 respEph, pad32 initEph, none⟩
      r2 := ⟨false, 2, pro, pad32 respPriv, pad32 respEph, pad32 initEph, none⟩
      r3 := ⟨false, 3, pro, pad32 respPriv, pad32 respEph, pad32 initEph, some (pad32 initPriv)⟩
      body1 := pad32 initEph
      body2 := pad32 respEph ++ (pad32 respPriv ++ List.replicate 32 0)
      body3 := pad32 initPriv ++ List.replicate 32 0
      build_initiator := rfl
      build_responder := rfl
      write1 := rfl
      read1 := if_pos (length_pad32 _)
      write2 := rfl
      read2 := by simp [Snow.clear, ClearState.read, field_zero_append, htail]
      write3 := rfl
      read3 := by simp [Snow.clear, ClearState.read, field_zero_append]
      length_body1 := length_pad32 _
      length_body2 := by simp
      length_body3 := by simp
      initiator_sees := rfl
      responder_sees := rfl
      hash_eq := rfl
      split_eq := rfl }⟩

end Rill
