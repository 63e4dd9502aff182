import Rill.Frame
import Rill.ReplayWindow

/-!
# Established sessions

A session holds one key per direction, a transmit counter, a replay window for the receive
direction and, for a while after a rekey, the previous receive key with the window it had.
`openWith` is the common body of the source's `open` and `open_in_place`; the two members differ
in the call that decrypts, and each branch of it has one evaluation lemma.
-/

namespace Rill

def rekeyResidue : ℕ := 5000000000

structure SessionKeys where
  salt : UInt32
  txKey : Bytes
  rxKey : Bytes
  deriving DecidableEq

inductive OpenError where
  | decode
  | version
  | routeMac
  | truncatedPayload
  | aead
  | replay
  deriving DecidableEq

def OpenError.ofFrame : FrameOpenError → OpenError
  | .decode _ => .decode
  | .version => .version
  | .routeMac => .routeMac
  | .truncatedPayload => .truncatedPayload
  | .aead _ => .aead

def Crypto.rekeyChain (C : Crypto) (key : Bytes) : Bytes := C.hkdf none key (ascii "mesh-rekey-v1") 32

structure OldRx where
  key : Bytes
  window : ReplayWindow
  expiresAt : ℕ
  deriving DecidableEq

structure Session where
  peerNodeId : UInt32
  keys : SessionKeys
  txCounter : UInt32
  rxWindow : ReplayWindow
  oldRx : Option OldRx
  deriving DecidableEq

namespace Session

def new (peerNodeId : UInt32) (keys : SessionKeys) : Session :=
  ⟨peerNodeId, keys, 0, ReplayWindow.new, none⟩

def nextSeq (s : Session) : UInt32 × Session := (s.txCounter, { s with txCounter := s.txCounter + 1 })

def openWith {α : Type} (s : Session) (tryKey : Bytes → Except FrameOpenError (MeshFrameHeader × α))
    (now : ℕ) : Except OpenError (MeshFrameHeader × α) × Session :=
  match tryKey s.keys.rxKey with
  | .ok (h, p) =>
    let (fresh, window) := s.rxWindow.checkAndMark h.seq
    (if fresh then .ok (h, p) else .error .replay, { s with rxWindow := window })
  | .error (.aead _) =>
    match s.oldRx with
    | none => (.error .aead, s)
    | some old =>
      if old.expiresAt ≤ now then (.error .aead, { s with oldRx := none })
      else
        match tryKey old.key with
        | .ok (h, p) =>
          let (fresh, window) := old.window.checkAndMark h.seq
          (if fresh then .ok (h, p) else .error .replay,
            { s with oldRx := some { old with window := window } })
        | .error _ => (.error .aead, s)
  | .error e => (.error (OpenError.ofFrame e), s)

variable (C : Crypto)

def openFrame (s : Session) (frame keyDst : Bytes) (now : ℕ) :
    Except OpenError (MeshFrameHeader × Bytes) × Session :=
  s.openWith (fun key => C.openFrame frame keyDst key s.keys.salt) now

/-- The length of the plaintext and the frame buffer after the call. -/
def openFrameInPlace (s : Session) (frame keyDst : Bytes) (now : ℕ) :
    Except OpenError (MeshFrameHeader × ℕ × Bytes) × Session :=
  s.openWith (fun key => (C.openFrameInPlace frame keyDst key s.keys.salt).map
    fun r => (r.1, r.2.1.length, r.2.2)) now

def rekey (s : Session) (now : ℕ) : Session :=
  { s with
    keys := { s.keys with
      txKey := C.rekeyChain s.keys.txKey
      rxKey := C.rekeyChain s.keys.rxKey }
    rxWindow := ReplayWindow.new
    oldRx := some ⟨s.keys.rxKey, s.rxWindow, now + rekeyResidue⟩ }

section OpenWith
variable {α β : Type} {s : Session} {tryKey : Bytes → Except FrameOpenError (MeshFrameHeader × α)}
  {now : ℕ} {h : MeshFrameHeader} {p : α} {e : AeadError} {old : OldRx}

theorem openWith_current (hk : tryKey s.keys.rxKey = .ok (h, p)) : s.openWith tryKey now =
    (if (s.rxWindow.checkAndMark h.seq).1 then .ok (h, p) else .error .replay,
      { s with rxWindow := (s.rxWindow.checkAndMark h.seq).2 }) := by
  simp only [openWith, hk]

theorem openWith_rejected {e : FrameOpenError} (hk : tryKey s.keys.rxKey = .error e)
    (he : ∀ a, e ≠ .aead a) : s.openWith tryKey now = (.error (OpenError.ofFrame e), s) := by
  cases e with
  | aead a => exact absurd rfl (he a)
  | _ => simp only [openWith, hk]

theorem openWith_no_old (hk : tryKey s.keys.rxKey = .error (.aead e)) (ho : s.oldRx = none) :
    s.openWith tryKey now = (.error .aead, s) := by
  simp only [openWith, hk, ho]

theorem openWith_expired (hk : tryKey s.keys.rxKey = .error (.aead e)) (ho : s.oldRx = some old)
    (hexp : old.expiresAt ≤ now) :
    s.openWith tryKey now = (.error .aead, { s with oldRx := none }) := by
  simp only [openWith, hk, ho, if_pos hexp]

theorem openWith_old (hk : tryKey s.keys.rxKey = .error (.aead e)) (ho : s.oldRx = some old)
    (hexp : ¬ old.expiresAt ≤ now) (hq : tryKey old.key = .ok (h, p)) : s.openWith tryKey now =
    (if (old.window.checkAndMark h.seq).1 then .ok (h, p) else .error .replay,
      { s with oldRx := some { old with window := (old.window.checkAndMark h.seq).2 } }) := by
  simp only [openWith, hk, ho, if_neg hexp, hq]

theorem openWith_old_rejected {e' : FrameOpenError} (hk : tryKey s.keys.rxKey = .error (.aead e))
    (ho : s.oldRx = some old) (hexp : ¬ old.expiresAt ≤ now) (hq : tryKey old.key = .error e') :
    s.openWith tryKey now = (.error .aead, s) := by
  simp only [openWith, hk, ho, if_neg hexp, hq]

theorem map_ite_replay (f : α → β) (fresh : Bool) :
    (if fresh then .ok (h, f p) else .error .replay : Except OpenError (MeshFrameHeader × β)) =
      (if fresh then .ok (h, p) else .error .replay : Except OpenError (MeshFrameHeader × α)).map
        fun r => (r.1, f r.2) := by
  cases fresh <;> rfl

theorem openWith_map (f : α → β) (s : Session)
    (tryKey : Bytes → Except FrameOpenError (MeshFrameHeader × α)) (now : ℕ) :
    s.openWith (fun key => (tryKey key).map fun r => (r.1, f r.2)) now =
      ((s.openWith tryKey now).1.map (fun r => (r.1, f r.2)), (s.openWith tryKey now).2) := by
  have hmap : ∀ key r, tryKey key = r → (tryKey key).map (fun r => (r.1, f r.2)) =
      r.map fun r => (r.1, f r.2) := fun key r hr => by rw [hr]
  cases hk : tryKey s.keys.rxKey with
  | ok r => rw [openWith_current hk, openWith_current (hmap _ _ hk), map_ite_replay]
  | error e =>
    by_cases he : ∃ a, e = .aead a
    · obtain ⟨a, rfl⟩ := he
      cases ho : s.oldRx with
      | none =>
        rw [openWith_no_old hk ho, openWith_no_old (hmap _ _ hk) ho]
        rfl
      | some old =>
        by_cases hexp : old.expiresAt ≤ now
        · rw [openWith_expired hk ho hexp, openWith_expired (hmap _ _ hk) ho hexp]
          rfl
        · cases hq : tryKey old.key with
          | ok r =>
            rw [openWith_old hk ho hexp hq, openWith_old (hmap _ _ hk) ho hexp (hmap _ _ hq),
              map_ite_replay]
          | error e =>
            rw [openWith_old_rejected hk ho hexp hq,
              openWith_old_rejected (hmap _ _ hk) ho hexp (hmap _ _ hq)]
            rfl
    · rw [openWith_rejected hk (fun a ha => he ⟨a, ha⟩),
        openWith_rejected (hmap _ _ hk) (fun a ha => he ⟨a, ha⟩)]
      rfl

end OpenWith

section Serve
variable (C : Crypto)

structure OpenCall where
  inPlace : Bool
  frame : Bytes
  keyDst : Bytes
  now : ℕ
  deriving DecidableEq

/-- The header of the frame, if the call returns `Ok`, and the session after it. -/
def serve (s : Session) (c : OpenCall) : Option MeshFrameHeader × Session :=
  if c.inPlace then
    let r := s.openFrameInPlace C c.frame c.keyDst c.now
    (r.1.toOption.map Prod.fst, r.2)
  else
    let r := s.openFrame C c.frame c.keyDst c.now
    (r.1.toOption.map Prod.fst, r.2)

variable {C}

theorem serve_eq_openFrame (s : Session) (c : OpenCall) :
    s.serve C c = ((s.openFrame C c.frame c.keyDst c.now).1.toOption.map Prod.fst,
      (s.openFrame C c.frame c.keyDst c.now).2) := by
  cases hplace : c.inPlace with
  | false => simp [serve, hplace]
  | true =>
    have hopen : (fun key => C.openFrame c.frame c.keyDst key s.keys.salt) =
        fun key => (C.openFrameInPlace c.frame c.keyDst key s.keys.salt).map fun r => (r.1, r.2.1) :=
      funext fun key => (Crypto.openFrameInPlace_map _ _ _ _).symm
    rw [openFrame, hopen, openWith_map (fun r : Bytes × Bytes => r.1)]
    simp only [serve, hplace, if_true, openFrameInPlace]
    rw [openWith_map (fun r : Bytes × Bytes => (r.1.length, r.2))]
    cases (s.openWith (fun key => C.openFrameInPlace c.frame c.keyDst key s.keys.salt) c.now).1 <;> rfl

end Serve

end Session

end Rill
