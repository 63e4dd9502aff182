import Rill.SessionOrigin
import Rill.RekeyOverlap

/-!
# Decryption in the caller's buffer

The cipher's own call works on a buffer: it says whether the tag was accepted and leaves the
buffer in some state. Here the buffer is passed along explicitly, through the two attempts of
`open_in_place` with the current and the previous key, so that what the second attempt reads is
what the first one left. The fresh-vector form `openFrame` never shows that buffer.
-/

namespace Rill

/-- The detached call of the cipher `C` on a message buffer: whether the tag was accepted, and the
buffer after the call. -/
structure InPlaceCipher (C : Crypto) where
  decryptInPlace : (key nonce aad msg tag : Bytes) → Bool × Bytes
  decrypt_eq : ∀ key nonce aad msg tag, C.decrypt key nonce aad msg tag =
    if (decryptInPlace key nonce aad msg tag).1 then
      some (decryptInPlace key nonce aad msg tag).2
    else none

namespace InPlaceCipher
variable {C : Crypto} (D : InPlaceCipher C)

/-- The tag is verified before the buffer is touched. -/
def KeepsRejected : Prop := ∀ key nonce aad msg tag,
  (D.decryptInPlace key nonce aad msg tag).1 = false →
    (D.decryptInPlace key nonce aad msg tag).2 = msg

def openInPlace (key : Bytes) (salt : UInt32) (counter : UInt64) (aad buf : Bytes) (ctLen : ℕ) :
    Except AeadError ℕ × Bytes :=
  if buf.length < ctLen ∨ ctLen < tagLen then (.error {}, buf)
  else
    let ptLen := ctLen - tagLen
    let rest := buf.drop ptLen
    let (accepted, msg) :=
      D.decryptInPlace key (nonce salt counter) aad (buf.take ptLen) (rest.take tagLen)
    (if accepted then .ok ptLen else .error {}, msg ++ rest)

def openFrameInPlace (frame keyDst sessionKey : Bytes) (salt : UInt32) :
    Except FrameOpenError (MeshFrameHeader × Bytes) × Bytes :=
  match C.validateFrame frame keyDst with
  | .error e => (.error e, frame)
  | .ok (header, hlen, stop) =>
    let ai := header.authInput
    let (opened, buf) := D.openInPlace sessionKey salt header.seq.toUInt64 ai
      (field hlen (stop - hlen) frame) (stop - hlen)
    let frame := frame.take hlen ++ (buf ++ frame.drop stop)
    match opened with
    | .error e => (.error (.aead e), frame)
    | .ok ptLen => (.ok (header, field hlen ptLen frame), frame)

/-- The call that writes the plaintext of `C` and nothing else. -/
def ofCrypto (C : Crypto) : InPlaceCipher C where
  decryptInPlace key nonce aad msg tag :=
    match C.decrypt key nonce aad msg tag with
    | some plain => (true, plain)
    | none => (false, msg)
  decrypt_eq key nonce aad msg tag := by
    cases C.decrypt key nonce aad msg tag <;> rfl

theorem ofCrypto_keepsRejected (C : Crypto) : (ofCrypto C).KeepsRejected := by
  intro key nonce aad msg tag
  simp only [ofCrypto]
  cases C.decrypt key nonce aad msg tag <;> simp

variable {D}

theorem openInPlace_eq (hkeep : D.KeepsRejected) (key : Bytes) (salt : UInt32) (counter : UInt64)
    (aad buf : Bytes) (ctLen : ℕ) : D.openInPlace key salt counter aad buf ctLen =
      match C.openInPlace key salt counter aad buf ctLen with
      | .error e => (.error e, buf)
      | .ok (after, ptLen) => (.ok ptLen, after) := by
  unfold openInPlace Crypto.openInPlace
  split_ifs with hlen
  · rfl
  · have hspec := D.decrypt_eq key (nonce salt counter) aad (buf.take (ctLen - tagLen))
      (field (ctLen - tagLen) tagLen buf)
    have hrejected := hkeep key (nonce salt counter) aad (buf.take (ctLen - tagLen))
      (field (ctLen - tagLen) tagLen buf)
    have hfield : (buf.drop (ctLen - tagLen)).take tagLen = field (ctLen - tagLen) tagLen buf := rfl
    simp only [hfield, hspec]
    cases hd : (D.decryptInPlace key (nonce salt counter) aad (buf.take (ctLen - tagLen))
      (field (ctLen - tagLen) tagLen buf)).1 with
    | false => simp [hrejected hd]
    | true => simp

theorem openFrameInPlace_eq (hkeep : D.KeepsRejected) (frame keyDst key : Bytes) (salt : UInt32) :
    D.openFrameInPlace frame keyDst key salt =
      match C.openFrameInPlace frame keyDst key salt with
      | .error e => (.error e, frame)
      | .ok (h, plain, after) => (.ok (h, plain), after) := by
  unfold openFrameInPlace
  cases hv : C.validateFrame frame keyDst with
  | error e => simp [Crypto.openFrameInPlace, hv, bind, Except.bind]
  | ok r =>
    obtain ⟨h, -, -, -, hstop, rfl⟩ := Crypto.validateFrame_eq_ok.mp hv
    have hframe : frame.take headerLen ++ (field headerLen h.len.toNat frame ++
        frame.drop (headerLen + h.len.toNat)) = frame := by
      rw [field, ← List.drop_drop, List.take_append_drop, List.take_append_drop]
    cases hopen : C.openFrameInPlace frame keyDst key salt with
    | error e =>
      simp only [Crypto.openFrameInPlace, hv, bind, Except.bind, Nat.add_sub_cancel_left] at hopen
      split at hopen
      · rename_i e' he
        cases hopen
        simp only [openInPlace_eq hkeep, Nat.add_sub_cancel_left, he, hframe]
      · cases hopen
    | ok r =>
      obtain ⟨h', plain, after⟩ := r
      simp only [Crypto.openFrameInPlace, hv, bind, Except.bind, Nat.add_sub_cancel_left] at hopen
      split at hopen
      · cases hopen
      · rename_i buf ptLen he
        obtain ⟨rfl, hrest⟩ := Prod.mk.inj (Except.ok.inj hopen)
        cases hrest
        have hhead : (frame.take headerLen).length = headerLen := by
          rw [List.length_take]
          omega
        have hlen := Crypto.length_openInPlace he
        have hslice : field headerLen ptLen (frame.take headerLen ++
            (buf ++ frame.drop (headerLen + h.len.toNat))) = buf.take ptLen := by
          rw [field_append_of_length_le hhead.le, hhead, Nat.sub_self, field, List.drop_zero,
            List.take_append_of_le_length (hlen.2.trans hlen.1.ge)]
        simp only [openInPlace_eq hkeep, Nat.add_sub_cancel_left, he, hslice]

end InPlaceCipher

theorem Crypto.length_openFrameInPlace {C : Crypto} {frame keyDst key plain buf : Bytes} {salt : UInt32}
    {h : MeshFrameHeader} (hopen : C.openFrameInPlace frame keyDst key salt = .ok (h, plain, buf)) :
    headerLen + plain.length ≤ buf.length := by
  unfold Crypto.openFrameInPlace at hopen
  cases hv : C.validateFrame frame keyDst with
  | error e => simp [hv, bind, Except.bind] at hopen
  | ok r =>
    obtain ⟨w, -, -, -, hstop, rfl⟩ := Crypto.validateFrame_eq_ok.mp hv
    simp only [hv, bind, Except.bind] at hopen
    split at hopen
    · nomatch hopen
    · obtain ⟨-, hrest⟩ := Prod.mk.inj (Except.ok.inj hopen)
      cases hrest
      simp only [List.length_append, List.length_take]
      omega

namespace Session
variable {C : Crypto} (D : InPlaceCipher C)

theorem openFrameInPlace_length {C : Crypto} {s : Session} {frame keyDst buf : Bytes} {now ptLen : ℕ}
    {h : MeshFrameHeader} (hopen : (s.openFrameInPlace C frame keyDst now).1 = .ok (h, ptLen, buf)) :
    headerLen + ptLen ≤ buf.length := by
  obtain ⟨key, -, hkey⟩ := (s.openWith_spec _ now).2.2 _ hopen
  cases hframe : C.openFrameInPlace frame keyDst key s.keys.salt with
  | error e => simp [hframe, Except.map] at hkey
  | ok r =>
    obtain ⟨h', plain, buf'⟩ := r
    simp only [hframe, Except.map, Except.ok.injEq, Prod.mk.injEq] at hkey
    obtain ⟨-, rfl, rfl⟩ := hkey
    exact Crypto.length_openFrameInPlace hframe

def openInPlace (s : Session) (frame keyDst : Bytes) (now : ℕ) :
    Except OpenError (MeshFrameHeader × ℕ) × Session × Bytes :=
  match D.openFrameInPlace frame keyDst s.keys.rxKey s.keys.salt with
  | (.ok (h, p), frame) =>
    let ptLen := p.length
    let (fresh, window) := s.rxWindow.checkAndMark h.seq
    (if fresh then .ok (h, ptLen) else .error .replay, { s with rxWindow := window }, frame)
  | (.error (.aead _), frame) =>
    match s.oldRx with
    | none => (.error .aead, s, frame)
    | some old =>
      if old.expiresAt ≤ now then (.error .aead, { s with oldRx := none }, frame)
      else
        -- The second attempt reads the buffer that the first one left.
        match D.openFrameInPlace frame keyDst old.key s.keys.salt with
        | (.ok (h, p), frame) =>
          let ptLen := p.length
          let (fresh, window) := old.window.checkAndMark h.seq
          (if fresh then .ok (h, ptLen) else .error .replay,
            { s with oldRx := some { old with window := window } }, frame)
        | (.error _, frame) => (.error .aead, s, frame)
  | (.error e, frame) => (.error (OpenError.ofFrame e), s, frame)

variable {D}

theorem openInPlace_spec (hkeep : D.KeepsRejected) (s : Session) (frame keyDst : Bytes) (now : ℕ) :
    (s.openInPlace D frame keyDst now).2.1 = (s.openFrameInPlace C frame keyDst now).2 ∧
      (s.openInPlace D frame keyDst now).1 =
        (s.openFrameInPlace C frame keyDst now).1.map (fun r => (r.1, r.2.1)) ∧
      ∀ h n buf, (s.openFrameInPlace C frame keyDst now).1 = .ok (h, n, buf) →
        (s.openInPlace D frame keyDst now).2.2 = buf := by
  have hcall := InPlaceCipher.openFrameInPlace_eq hkeep frame keyDst
  unfold openInPlace openFrameInPlace
  cases hcur : C.openFrameInPlace frame keyDst s.keys.rxKey s.keys.salt with
  | ok r =>
    obtain ⟨h, plain, after⟩ := r
    rw [openWith_current (by rw [hcur]; rfl), hcall, hcur]
    cases hfresh : (s.rxWindow.checkAndMark h.seq).1 <;> simp [hfresh, Except.map]
  | error e =>
    by_cases haead : ∃ a, e = .aead a
    · obtain ⟨a, rfl⟩ := haead
      cases hold : s.oldRx with
      | none =>
        rw [openWith_no_old (by rw [hcur]; rfl) hold, hcall, hcur]
        simp [Except.map]
      | some old =>
        by_cases hexp : old.expiresAt ≤ now
        · rw [openWith_expired (by rw [hcur]; rfl) hold hexp, hcall, hcur]
          simp [hexp, Except.map]
        · cases hprev : C.openFrameInPlace frame keyDst old.key s.keys.salt with
          | ok r =>
            obtain ⟨h, plain, after⟩ := r
            rw [openWith_old (by rw [hcur]; rfl) hold hexp (by rw [hprev]; rfl), hcall, hcur]
            simp only [if_neg hexp, hcall, hprev]
            cases (old.window.checkAndMark h.seq).1 <;> simp [Except.map]
          | error e =>
            rw [openWith_old_rejected (by rw [hcur]; rfl) hold hexp (by rw [hprev]; rfl), hcall,
              hcur]
            simp [if_neg hexp, hcall, hprev, Except.map]
    · have hne : ∀ a, e ≠ .aead a := fun a ha => haead ⟨a, ha⟩
      rw [openWith_rejected (by rw [hcur]; rfl) hne, hcall, hcur]
      cases e with
      | aead a => exact absurd rfl (hne a)
      | _ => simp [Except.map]

theorem openFrame_eq_map (s : Session) (frame keyDst : Bytes) (now : ℕ) :
    (s.openFrame C frame keyDst now).2 = (s.openFrameInPlace C frame keyDst now).2 ∧
      (s.openFrame C frame keyDst now).1 = (s.openFrameInPlace C frame keyDst now).1.map
        (fun r => (r.1, field headerLen r.2.1 r.2.2)) := by
  have htry : (fun key => C.openFrame frame keyDst key s.keys.salt) = fun key =>
      ((C.openFrameInPlace frame keyDst key s.keys.salt).map
        fun r => (r.1, r.2.1.length, r.2.2)).map fun r => (r.1, field headerLen r.2.1 r.2.2) := by
    funext key
    rw [← Crypto.openFrameInPlace_map]
    cases hopen : C.openFrameInPlace frame keyDst key s.keys.salt with
    | error e => rfl
    | ok r => simp [Except.map, Crypto.field_openFrameInPlace hopen]
  unfold openFrame openFrameInPlace
  rw [htry, openWith_map (fun r : ℕ × Bytes => field headerLen r.1 r.2) s]
  exact ⟨rfl, rfl⟩

/-- Opening in the caller's buffer and into a fresh vector change the session alike and answer
alike: the same error, or the same header with the plaintext in the buffer behind the header. -/
theorem openInPlace_equivalent (hkeep : D.KeepsRejected) (s : Session) (frame keyDst : Bytes)
    (now : ℕ) : (s.openInPlace D frame keyDst now).2.1 = (s.openFrame C frame keyDst now).2 ∧
      (∀ e, (s.openInPlace D frame keyDst now).1 = .error e ↔
        (s.openFrame C frame keyDst now).1 = .error e) ∧
      ∀ h plain, (s.openFrame C frame keyDst now).1 = .ok (h, plain) →
        (s.openInPlace D frame keyDst now).1 = .ok (h, plain.length) ∧
          field headerLen plain.length (s.openInPlace D frame keyDst now).2.2 = plain := by
  obtain ⟨hstate, hresult, hbuf⟩ := openInPlace_spec hkeep s frame keyDst now
  obtain ⟨hstate', hresult'⟩ := s.openFrame_eq_map (C := C) frame keyDst now
  rw [hstate, hstate', hresult, hresult']
  refine ⟨rfl, fun e => ?_, fun h plain hok => ?_⟩
  · cases (s.openFrameInPlace C frame keyDst now).1 <;> simp [Except.map]
  · cases hopen : (s.openFrameInPlace C frame keyDst now).1 with
    | error e => simp [hopen, Except.map] at hok
    | ok r =>
      obtain ⟨h', n, buf⟩ := r
      simp only [hopen, Except.map, Except.ok.injEq, Prod.mk.injEq] at hok
      obtain ⟨rfl, rfl⟩ := hok
      have hlen : (field headerLen n buf).length = n := by
        have := openFrameInPlace_length hopen
        rw [field, List.length_take, List.length_drop]
        omega
      rw [hlen, hbuf h' n buf hopen]
      exact ⟨rfl, rfl⟩

/-- A frame that the current key rejects and the previous one opens. -/
theorem openInPlace_after_rekey :
    let s := Link.run (Crypto.keyed 64) Link.keyedStart [(.responder, .rekey 0)] .responder
    let r := s.openInPlace (InPlaceCipher.ofCrypto (Crypto.keyed 64))
      (Link.keyedFrame (Link.keyedStart .initiator)) [] (Link.seconds 4)
    r.1 = .ok ((Crypto.keyed 64).sealedHeader {} [] [7], 1) ∧ field headerLen 1 r.2.2 = [7] := by
  have hopen : ((Link.run (Crypto.keyed 64) Link.keyedStart
      [(.responder, .rekey 0)] .responder).openFrame (Crypto.keyed 64)
      (Link.keyedFrame (Link.keyedStart .initiator)) [] (Link.seconds 4)).1 =
        .ok ((Crypto.keyed 64).sealedHeader {} [] [7], [7]) := by decide +kernel
  exact (openInPlace_equivalent (InPlaceCipher.ofCrypto_keepsRejected _) _ _ _ _).2.2 _ _ hopen

end Session

end Rill
