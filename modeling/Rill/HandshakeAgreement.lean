import Rill.Handshake

/-!
# Agreement of two roles over an active network

A role that ran to its end has taken the library through a whole handshake, whatever bytes it was
given on the way. `Snow.Ideal` is what is assumed of the library there: the handshake hash, which
names the instance, determines the two static keys and the two split keys.

Of the third message the library covers only the last 64 bytes and the coordinator's signature the
first 80. The salt stands between them.
-/

namespace Rill
variable {σ : Type}

inductive Role where
  | initiator
  | responder
  deriving DecidableEq

/-- A library state at the end of a handshake in the given role, with the given private key. -/
inductive Snow.Completed (N : Snow σ) : Role → Bytes → σ → Prop
  | initiator {pro priv eph b₁ b₂ b₃ : Bytes} {s₀ s₁ s₂ s₃ : σ}
      (build : N.buildInitiator pro priv eph = some s₀) (write₁ : N.writeMessage s₀ = some (b₁, s₁))
      (read₂ : N.readMessage s₁ b₂ = some s₂) (write₃ : N.writeMessage s₂ = some (b₃, s₃)) :
      Completed N .initiator priv s₃
  | responder {pro priv eph b₁ b₂ b₃ : Bytes} {s₀ s₁ s₂ s₃ : σ}
      (build : N.buildResponder pro priv eph = some s₀) (read₁ : N.readMessage s₀ b₁ = some s₁)
      (write₂ : N.writeMessage s₁ = some (b₂, s₂)) (read₃ : N.readMessage s₂ b₃ = some s₃) :
      Completed N .responder priv s₃

/-- The static keys of initiator and responder, as the given role knows them. -/
def Snow.statics (N : Snow σ) (role : Role) (priv : Bytes) (st : σ) : Option Bytes × Option Bytes :=
  match role with
  | .initiator => (some (N.publicKey priv), N.getRemoteStatic st)
  | .responder => (N.getRemoteStatic st, some (N.publicKey priv))

structure Snow.Ideal (N : Snow σ) : Prop where
  statics_eq : ∀ {role role' priv priv' st st'}, N.Completed role priv st →
    N.Completed role' priv' st' → N.getHandshakeHash st = N.getHandshakeHash st' →
    N.statics role priv st = N.statics role' priv' st'
  split_eq : ∀ {role role' priv priv' st st'}, N.Completed role priv st →
    N.Completed role' priv' st' → N.getHandshakeHash st = N.getHandshakeHash st' →
    N.getRawSplit st = N.getRawSplit st'
  split_ne : ∀ {role priv st}, N.Completed role priv st →
    (N.getRawSplit st).1 ≠ (N.getRawSplit st).2

variable (N : Snow σ) (C : Crypto)

def Snow.txSplit (role : Role) (st : σ) : Bytes :=
  match role with
  | .initiator => (N.getRawSplit st).1
  | .responder => (N.getRawSplit st).2

def Snow.rxSplit (role : Role) (st : σ) : Bytes :=
  match role with
  | .initiator => (N.getRawSplit st).2
  | .responder => (N.getRawSplit st).1

def Snow.sessionKeys (role : Role) (st : σ) (salt : UInt32) : SessionKeys :=
  ⟨salt, C.bindTranscript (N.txSplit role st) (N.getHandshakeHash st),
    C.bindTranscript (N.rxSplit role st) (N.getHandshakeHash st)⟩

/-- An initiator that has written its first message. -/
def HandshakeInitiator.Opened (priv : Bytes) (i : HandshakeInitiator σ) : Prop :=
  ∃ pro eph body st, N.buildInitiator pro priv eph = some st ∧
    N.writeMessage st = some (body, i.state)

/-- A responder that has written the second message. -/
def HandshakeResponder.Answered (priv : Bytes) (r : HandshakeResponder σ) : Prop :=
  ∃ pro eph b₁ b₂ s₀ s₁, N.buildResponder pro priv eph = some s₀ ∧
    N.readMessage s₀ b₁ = some s₁ ∧ N.writeMessage s₁ = some (b₂, r.state)

variable {N C}

theorem Snow.peerStatic_eq_ok {st : σ} {err : HandshakeError} {rs : Bytes}
    (h : N.peerStatic st err = .ok rs) : N.getRemoteStatic st = some rs := by
  unfold Snow.peerStatic at h
  split at h
  · rename_i rs' hrs
    split_ifs at h
    rw [hrs, Except.ok.inj h]
  · cases h

namespace HandshakeInitiator

theorem opened_of_new {localStatic binding expected eph msg1 : Bytes} {nid target salt : UInt32}
    {ver : UInt8} {issuance : UInt64 × UInt64} {i i' : HandshakeInitiator σ}
    (hnew : HandshakeInitiator.new N localStatic nid ver target binding issuance salt expected eph =
      .ok i) (hwrite : i.writeMsg1 N = .ok (msg1, i')) :
    i'.Opened N localStatic ∧ i'.identityBinding.length = bindingLen ∧
      i'.expectedPeerStatic = expected := by
  unfold HandshakeInitiator.new at hnew
  split_ifs at hnew with hbind
  split at hnew
  · cases hnew
  · rename_i st hbuild
    cases hnew
    simp only [writeMsg1, Bool.false_eq_true, if_false] at hwrite
    split at hwrite
    · cases hwrite
    · rename_i body st' hw
      obtain ⟨-, rfl⟩ := Prod.mk.inj (Except.ok.inj hwrite)
      exact ⟨⟨_, _, body, st, hbuild, hw⟩, not_not.mp hbind, rfl⟩

/-- What an initiator has when it finishes: a completed handshake with the static key it expects. -/
theorem Opened.finish {priv received msg3 : Bytes} {i i' : HandshakeInitiator σ} {keys : SessionKeys}
    (hi : i.Opened N priv) (hread : i.readMsg2 N received = .ok (msg3, i'))
    (hfinish : i'.finish N C = .ok keys) :
    N.Completed .initiator priv i'.state ∧ N.getRemoteStatic i'.state = some i.expectedPeerStatic ∧
      keys = N.sessionKeys C .initiator i'.state i.salt ∧
      ∃ body, msg3 = i.identityBinding ++ (u64be i.bindingIssuance.1 ++
        (u64be i.bindingIssuance.2 ++ (u32be i.salt ++ body))) := by
  obtain ⟨pro, eph, body, st, hbuild, hwrite⟩ := hi
  unfold readMsg2 at hread
  split_ifs at hread
  split at hread
  · cases hread
  · rename_i st₂ hr
    split at hread
    · cases hread
    · rename_i body₃ st₃ hw
      obtain ⟨rfl, rfl⟩ := Prod.mk.inj (Except.ok.inj hread)
      simp only [HandshakeInitiator.finish, Bool.not_true, Bool.false_eq_true, if_false] at hfinish
      split at hfinish
      · cases hfinish
      · rename_i rs hrs
        split_ifs at hfinish with heq
        cases hfinish
        rw [ne_eq, not_not] at heq
        subst heq
        exact ⟨.initiator hbuild hwrite hr hw, Snow.peerStatic_eq_ok hrs, rfl, body₃, rfl⟩

end HandshakeInitiator

namespace HandshakeResponder

theorem answered_of_new {localStatic eph received msg2 : Bytes} {nid selfId : UInt32} {ver : UInt8}
    {r₀ r₁ r₂ : HandshakeResponder σ} (hnew : HandshakeResponder.new N localStatic nid ver selfId eph =
      .ok r₀) (hread : r₀.readMsg1 N received = .ok r₁) (hwrite : r₁.writeMsg2 N = .ok (msg2, r₂)) :
    r₂.Answered N localStatic := by
  unfold HandshakeResponder.new at hnew
  split at hnew
  · cases hnew
  · rename_i st hbuild
    cases hnew
    simp only [readMsg1, Bool.false_eq_true, if_false] at hread
    split_ifs at hread
    split at hread
    · cases hread
    · rename_i st₁ hr
      cases hread
      simp only [writeMsg2, Bool.not_true, Bool.or_self, Bool.false_eq_true, if_false] at hwrite
      split at hwrite
      · cases hwrite
      · rename_i body st₂ hw
        obtain ⟨-, rfl⟩ := Prod.mk.inj (Except.ok.inj hwrite)
        exact ⟨_, _, _, body, st, st₁, hbuild, hr, hw⟩

/-- What a responder has when it accepts: a completed handshake with a static key that the
verifier binds to the claimed node, and the salt of the message. -/
theorem Answered.readMsg3 {priv received rs : Bytes} {r : HandshakeResponder σ} {claimed : UInt32}
    {verify : UInt32 → Bytes → Bytes → UInt64 → UInt64 → Bool} {keys : SessionKeys} {w : WireMsg3}
    (hr : r.Answered N priv) (hread : r.readMsg3 N C received claimed verify = .ok (keys, rs, w)) :
    WireMsg3.parse received = .ok w ∧
      verify claimed rs w.binding w.issuance.1 w.issuance.2 = true ∧
      ∃ st, N.readMessage r.state w.body = some st ∧ N.Completed .responder priv st ∧
        N.getRemoteStatic st = some rs ∧ keys = N.sessionKeys C .responder st w.salt := by
  obtain ⟨pro, eph, b₁, b₂, s₀, s₁, hbuild, hread₁, hwrite⟩ := hr
  unfold HandshakeResponder.readMsg3 at hread
  split_ifs at hread
  split at hread
  · cases hread
  · rename_i w' hw
    split at hread
    · cases hread
    · rename_i st hst
      split at hread
      · cases hread
      · rename_i rs' hrs
        split_ifs at hread with hv
        obtain ⟨rfl, hrest⟩ := Prod.mk.inj (Except.ok.inj hread)
        cases hrest
        exact ⟨hw, by simpa using hv, st, hst, .responder hbuild hread₁ hwrite hst,
          Snow.peerStatic_eq_ok hrs, rfl⟩

end HandshakeResponder

section Clear

theorem length_field {off n : ℕ} {b : Bytes} (h : off + n ≤ b.length) : (field off n b).length = n := by
  rw [field, List.length_take, List.length_drop]
  omega

/-- At the end of a handshake in clear both roles know both ephemeral and both static keys. -/
theorem Snow.clear_completed {role : Role} {priv : Bytes} {st : ClearState}
    (h : Snow.clear.Completed role priv st) : ∃ pro e₁ e₂ s₁ s₂ : Bytes,
      e₁.length = 32 ∧ e₂.length = 32 ∧ s₁.length = 32 ∧ s₂.length = 32 ∧
      Snow.clear.getHandshakeHash st = pro ++ (e₁ ++ (e₂ ++ (s₁ ++ s₂))) ∧
      Snow.clear.statics role priv st = (some s₁, some s₂) := by
  cases h with
  | @initiator pro _ eph b₁ b₂ b₃ _ _ _ _ build write₁ read₂ write₃ =>
    cases build
    cases write₁
    simp only [Snow.clear, ClearState.read] at read₂
    split_ifs at read₂ with hlen
    cases read₂
    cases write₃
    exact ⟨pro, pad32 eph, field 0 32 b₂, pad32 priv, field 32 32 b₂, length_pad32 _,
      length_field (by omega), length_pad32 _, length_field (by omega), rfl, rfl⟩
  | @responder pro _ eph b₁ b₂ b₃ _ _ _ _ build read₁ write₂ read₃ =>
    cases build
    simp only [Snow.clear, ClearState.read] at read₁
    split_ifs at read₁ with hlen₁
    cases read₁
    cases write₂
    simp only [Snow.clear, ClearState.read] at read₃
    split_ifs at read₃ with hlen₃
    cases read₃
    exact ⟨pro, b₁, pad32 eph, field 0 32 b₃, pad32 priv, hlen₁, length_pad32 _,
      length_field (by omega), length_pad32 _, rfl, rfl⟩

theorem Snow.clear_ideal : Snow.clear.Ideal where
  statics_eq h h' hhash := by
    obtain ⟨pro, e₁, e₂, s₁, s₂, he₁, he₂, hs₁, hs₂, hh, hst⟩ := Snow.clear_completed h
    obtain ⟨pro', e₁', e₂', s₁', s₂', he₁', he₂', hs₁', hs₂', hh', hst'⟩ := Snow.clear_completed h'
    rw [hh, hh'] at hhash
    obtain ⟨-, hhash⟩ := List.append_inj' hhash (by simp [*])
    obtain ⟨-, hhash⟩ := List.append_inj hhash (by simp [*])
    obtain ⟨-, hhash⟩ := List.append_inj hhash (by simp [*])
    obtain ⟨rfl, rfl⟩ := List.append_inj hhash (by simp [*])
    rw [hst, hst']
  split_eq _ _ hhash := congrArg (fun h => (h, 1 :: h)) hhash
  split_ne _ h := by simpa [Snow.clear] using congrArg List.length h

end Clear

/-- A run of the initiator to its end. What it received as the second message is arbitrary. -/
structure InitiatorRun (N : Snow σ) (C : Crypto) where
  ctx : HandshakeContext
  target : UInt32
  salt : UInt32
  expected : Bytes
  ephemeral : Bytes
  received : Bytes
  created : HandshakeInitiator σ
  opened : HandshakeInitiator σ
  final : HandshakeInitiator σ
  msg1 : Bytes
  msg3 : Bytes
  keys : SessionKeys
  new_eq : HandshakeInitiator.new N ctx.localStatic ctx.networkId ctx.version target
    ctx.identityBinding ctx.bindingIssuance salt expected ephemeral = .ok created
  writeMsg1_eq : created.writeMsg1 N = .ok (msg1, opened)
  readMsg2_eq : opened.readMsg2 N received = .ok (msg3, final)
  finish_eq : final.finish N C = .ok keys

/-- A run of the responder to its end. What it received as the first and the third message is
arbitrary. -/
structure ResponderRun (N : Snow σ) (C : Crypto) where
  ctx : HandshakeContext
  selfNodeId : UInt32
  ephemeral : Bytes
  claimed : UInt32
  verify : UInt32 → Bytes → Bytes → UInt64 → UInt64 → Bool
  received1 : Bytes
  received3 : Bytes
  created : HandshakeResponder σ
  read : HandshakeResponder σ
  answered : HandshakeResponder σ
  final : σ
  msg2 : Bytes
  keys : SessionKeys
  remoteStatic : Bytes
  wire : WireMsg3
  new_eq : HandshakeResponder.new N ctx.localStatic ctx.networkId ctx.version selfNodeId ephemeral =
    .ok created
  readMsg1_eq : created.readMsg1 N received1 = .ok read
  writeMsg2_eq : read.writeMsg2 N = .ok (msg2, answered)
  readMsg3_eq : answered.readMsg3 N C received3 claimed verify = .ok (keys, remoteStatic, wire)
  final_eq : N.readMessage answered.state wire.body = some final

/-- The two runs belong to one handshake instance. -/
def SameInstance (I : InitiatorRun N C) (R : ResponderRun N C) : Prop :=
  N.getHandshakeHash I.final.state = N.getHandshakeHash R.final

def saltBytes (msg3 : Bytes) : Bytes := field 80 4 msg3

theorem InitiatorRun.completed (I : InitiatorRun N C) :
    N.Completed .initiator I.ctx.localStatic I.final.state ∧
      I.keys = N.sessionKeys C .initiator I.final.state I.opened.salt ∧
      saltBytes I.msg3 = u32be I.opened.salt := by
  obtain ⟨hopened, hbind, -⟩ := HandshakeInitiator.opened_of_new I.new_eq I.writeMsg1_eq
  obtain ⟨hdone, -, hkeys, body, hmsg3⟩ := hopened.finish I.readMsg2_eq I.finish_eq
  have hbind' : I.opened.identityBinding.length = 64 := hbind
  refine ⟨hdone, hkeys, ?_⟩
  simp [hmsg3, saltBytes, field_append_of_length_le, field_zero_append, hbind']

theorem ResponderRun.completed (R : ResponderRun N C) :
    N.Completed .responder R.ctx.localStatic R.final ∧
      R.keys = N.sessionKeys C .responder R.final R.wire.salt ∧
      saltBytes R.received3 = u32be R.wire.salt := by
  have hanswered := HandshakeResponder.answered_of_new R.new_eq R.readMsg1_eq R.writeMsg2_eq
  obtain ⟨hparse, -, st, hst, hdone, -, hkeys⟩ := hanswered.readMsg3 R.readMsg3_eq
  cases hst.symm.trans R.final_eq
  refine ⟨hdone, hkeys, ?_⟩
  unfold WireMsg3.parse at hparse
  split_ifs at hparse with hlen
  rw [not_not] at hlen
  have hsalt : (saltBytes R.received3).length = 4 := by
    simp [saltBytes, field, hlen, msg3PayloadLen]
  rw [← Except.ok.inj hparse]
  exact (u32be_ofNat_readBE hsalt).symm

/-- Two runs of one instance have mirrored keys, and equal salts exactly when the salt bytes of the
third message arrived as they were sent. -/
theorem keys_agree (hN : N.Ideal) (I : InitiatorRun N C) (R : ResponderRun N C)
    (hinst : SameInstance I R) : R.keys.txKey = I.keys.rxKey ∧ R.keys.rxKey = I.keys.txKey ∧
      (R.keys.Mirrored I.keys ↔ saltBytes R.received3 = saltBytes I.msg3) := by
  obtain ⟨hI, hIkeys, hIsalt⟩ := I.completed
  obtain ⟨hR, hRkeys, hRsalt⟩ := R.completed
  have hsplit := hN.split_eq hI hR hinst
  have htx : R.keys.txKey = I.keys.rxKey := by
    simp only [hIkeys, hRkeys, Snow.sessionKeys, Snow.txSplit, Snow.rxSplit, hsplit]
    rw [hinst]
  have hrx : R.keys.rxKey = I.keys.txKey := by
    simp only [hIkeys, hRkeys, Snow.sessionKeys, Snow.txSplit, Snow.rxSplit, hsplit]
    rw [hinst]
  have hsalt : R.keys.salt = I.keys.salt ↔ saltBytes R.received3 = saltBytes I.msg3 := by
    rw [hIsalt, hRsalt, u32be_injective.eq_iff, hIkeys, hRkeys]
    rfl
  exact ⟨htx, hrx, fun h => hsalt.mp h.salt, fun h => ⟨htx, hrx, hsalt.mpr h⟩⟩

section Example

def aliceState (turn : ℕ) (remoteEph : Bytes) (remote : Option Bytes) : ClearState :=
  ⟨true, turn, prologue 1 1, pad32 [1], pad32 [3], remoteEph, remote⟩

def bobState (turn : ℕ) (remoteEph : Bytes) (remote : Option Bytes) : ClearState :=
  ⟨false, turn, prologue 1 1, pad32 [2], pad32 [4], remoteEph, remote⟩

def aliceFinal : ClearState := aliceState 3 (pad32 [4]) (some (pad32 [2]))

def bobFinal : ClearState := bobState 3 (pad32 [3]) (some (pad32 [1]))

def aliceMsg3 (salt : UInt32) : Bytes :=
  List.replicate 64 0 ++ (u64be 0 ++ (u64be 0 ++ (u32be salt ++ (pad32 [1] ++ List.replicate 32 0))))

/-- Node 1 runs a handshake with node 2 to its end, with salt 7. -/
def aliceRun : InitiatorRun Snow.clear (Crypto.clear 0) where
  ctx := ⟨1, 1, [1], List.replicate 64 0, (0, 0)⟩
  target := 2
  salt := 7
  expected := pad32 [2]
  ephemeral := [3]
  received := pad32 [4] ++ (pad32 [2] ++ List.replicate 32 0)
  created := ⟨aliceState 0 [] none, 2, List.replicate 64 0, (0, 0), 7, pad32 [2], false, false⟩
  opened := ⟨aliceState 1 [] none, 2, List.replicate 64 0, (0, 0), 7, pad32 [2], true, false⟩
  final := ⟨aliceFinal, 2, List.replicate 64 0, (0, 0), 7, pad32 [2], true, true⟩
  msg1 := u32be 2 ++ pad32 [3]
  msg3 := aliceMsg3 7
  keys := Snow.clear.sessionKeys (Crypto.clear 0) .initiator aliceFinal 7
  new_eq := rfl
  writeMsg1_eq := rfl
  readMsg2_eq := by decide
  finish_eq := by decide

/-- Node 2 answers it; the third message reaches it with the given salt. -/
def bobRun (salt : UInt32) : ResponderRun Snow.clear (Crypto.clear 0) where
  ctx := ⟨1, 1, [2], List.replicate 64 0, (0, 0)⟩
  selfNodeId := 2
  ephemeral := [4]
  claimed := 1
  verify := fun _ _ _ _ _ => true
  received1 := u32be 2 ++ pad32 [3]
  received3 := aliceMsg3 salt
  created := ⟨bobState 0 [] none, 2, false, false⟩
  read := ⟨bobState 1 (pad32 [3]) none, 2, true, false⟩
  answered := ⟨bobState 2 (pad32 [3]) none, 2, true, true⟩
  final := bobFinal
  msg2 := pad32 [4] ++ (pad32 [2] ++ List.replicate 32 0)
  keys := Snow.clear.sessionKeys (Crypto.clear 0) .responder bobFinal salt
  remoteStatic := pad32 [1]
  wire := ⟨List.replicate 64 0, (0, 0), salt, pad32 [1] ++ List.replicate 32 0⟩
  new_eq := rfl
  readMsg1_eq := by decide
  writeMsg2_eq := rfl
  readMsg3_eq := by
    have hparse : WireMsg3.parse (aliceMsg3 salt) =
        .ok ⟨List.replicate 64 0, (0, 0), salt, pad32 [1] ++ List.replicate 32 0⟩ := by
      have hbody : field 0 64 (pad32 [1] ++ List.replicate 32 0) = pad32 [1] ++ List.replicate 32 0 := by
        decide
      simp [-List.reduceReplicate, WireMsg3.parse, aliceMsg3, msg3PayloadLen, field_zero_append,
        field_append_of_length_le, hbody]
    have hread : Snow.clear.readMessage (bobState 2 (pad32 [3]) none) (pad32 [1] ++ List.replicate 32 0) =
        some bobFinal := by decide
    have hstatic : Snow.clear.peerStatic bobFinal .badBinding = .ok (pad32 [1]) := by decide
    simp only [HandshakeResponder.readMsg3, hparse, hread, hstatic]
    rfl
  final_eq := rfl

theorem keys_not_mirrored : SameInstance aliceRun (bobRun 8) ∧
    ¬ (bobRun 8).keys.Mirrored aliceRun.keys := by
  refine ⟨?_, fun h => absurd h.salt (by decide)⟩
  change Snow.clear.getHandshakeHash aliceFinal = Snow.clear.getHandshakeHash bobFinal
  decide

theorem keys_mirrored : SameInstance aliceRun (bobRun 7) ∧
    (bobRun 7).keys.Mirrored aliceRun.keys := by
  have hinst : SameInstance aliceRun (bobRun 7) := by
    change Snow.clear.getHandshakeHash aliceFinal = Snow.clear.getHandshakeHash bobFinal
    decide
  exact ⟨hinst, (keys_agree Snow.clear_ideal aliceRun (bobRun 7) hinst).2.2.mpr rfl⟩

end Example

end Rill
