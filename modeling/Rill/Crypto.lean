import Rill.Bytes

/-!
# Symmetric primitives of the data plane

`Crypto` collects what `rill-core/src/crypto/mod.rs` takes from other crates: the
ChaCha20-Poly1305 detached calls and HKDF-SHA256. What the module itself computes on top of them is
defined here: the nonce layout, SipHash-2-4 and the route MAC, the key derivations, and sealing and
opening a buffer in place.

`Crypto.Lawful` adds what the crate documents: encryption succeeds exactly up to a maximal length,
and decryption inverts it.
-/

namespace Rill

structure Crypto where
  encrypt : (key nonce aad msg : Bytes) → Option (Bytes × Bytes)
  decrypt : (key nonce aad ct tag : Bytes) → Option Bytes
  hkdf : (salt : Option Bytes) → (ikm info : Bytes) → ℕ → Bytes
  encrypt_length : ∀ {key nonce aad msg ct tag}, encrypt key nonce aad msg = some (ct, tag) →
    ct.length = msg.length ∧ tag.length = 16
  decrypt_length : ∀ {key nonce aad ct tag msg}, decrypt key nonce aad ct tag = some msg →
    msg.length = ct.length

structure Crypto.Lawful (C : Crypto) (maxLen : ℕ) : Prop where
  encrypt_isSome : ∀ key nonce aad msg, (C.encrypt key nonce aad msg).isSome ↔ msg.length ≤ maxLen
  decrypt_encrypt : ∀ {key nonce aad msg ct tag}, C.encrypt key nonce aad msg = some (ct, tag) →
    C.decrypt key nonce aad ct tag = some msg

/-- The cipher that leaves every text of at most `maxLen` bytes in clear under a zero tag. -/
def Crypto.clear (maxLen : ℕ) : Crypto where
  encrypt _ _ _ msg := if msg.length ≤ maxLen then some (msg, List.replicate 16 0) else none
  decrypt _ _ _ ct tag := if tag = List.replicate 16 0 then some ct else none
  hkdf _ ikm info n := (ikm ++ info ++ List.replicate n 0).take n
  encrypt_length h := by
    split_ifs at h
    cases h
    exact ⟨rfl, List.length_replicate⟩
  decrypt_length h := by
    split_ifs at h
    rw [Option.some.inj h]

theorem Crypto.clear_lawful (maxLen : ℕ) : (Crypto.clear maxLen).Lawful maxLen where
  encrypt_isSome key nonce aad msg := by
    simp only [Crypto.clear]
    split_ifs with h <;> simp [h]
  decrypt_encrypt h := by
    simp only [Crypto.clear] at h ⊢
    split_ifs at h
    cases h
    exact if_pos rfl

def tagLen : ℕ := 16

structure AeadError where
  deriving DecidableEq

def ascii (s : String) : Bytes := s.toList.map fun c => UInt8.ofNat c.toNat

def nonce (salt : UInt32) (counter : UInt64) : Bytes := u32be salt ++ u64be counter

structure SipState where
  v0 : UInt64
  v1 : UInt64
  v2 : UInt64
  v3 : UInt64

def rotateLeft (x : UInt64) (n : UInt64) : UInt64 := (x <<< n) ||| (x >>> (64 - n))

def sipRound (s : SipState) : SipState :=
  let v0 := s.v0 + s.v1
  let v1 := rotateLeft s.v1 13 ^^^ v0
  let v0 := rotateLeft v0 32
  let v2 := s.v2 + s.v3
  let v3 := rotateLeft s.v3 16 ^^^ v2
  let v0 := v0 + v3
  let v3 := rotateLeft v3 21 ^^^ v0
  let v2 := v2 + v1
  let v1 := rotateLeft v1 17 ^^^ v2
  let v2 := rotateLeft v2 32
  ⟨v0, v1, v2, v3⟩

def sipAbsorb (s : SipState) (m : UInt64) : SipState :=
  let s := sipRound (sipRound { s with v3 := s.v3 ^^^ m })
  { s with v0 := s.v0 ^^^ m }

def sipBlocks : ℕ → SipState → Bytes → SipState × Bytes
  | 0, s, data => (s, data)
  | n + 1, s, data => sipBlocks n (sipAbsorb s (UInt64.ofNat (readLE (data.take 8)))) (data.drop 8)

def siphash24 (key data : Bytes) : UInt64 :=
  let k0 := UInt64.ofNat (readLE (field 0 8 key))
  let k1 := UInt64.ofNat (readLE (field 8 8 key))
  let init : SipState := ⟨0x736f6d6570736575 ^^^ k0, 0x646f72616e646f6d ^^^ k1,
    0x6c7967656e657261 ^^^ k0, 0x7465646279746573 ^^^ k1⟩
  let (s, rest) := sipBlocks (data.length / 8) init data
  let b := (UInt64.ofNat data.length <<< 56) ||| UInt64.ofNat (readLE rest)
  let s := sipAbsorb s b
  let s := sipRound (sipRound (sipRound (sipRound { s with v2 := s.v2 ^^^ 0xff })))
  s.v0 ^^^ s.v1 ^^^ s.v2 ^^^ s.v3

namespace Crypto
variable (C : Crypto)

def deriveKeyDst (masterKey : Bytes) (toNodeId : UInt32) : Bytes :=
  C.hkdf none masterKey (ascii "key_dst" ++ u32be toNodeId) 32

def deriveKeyPath (masterKey : Bytes) (pathId : UInt64) (pathEpoch : UInt32) : Bytes :=
  C.hkdf none masterKey (ascii "key_path" ++ u64be pathId ++ u32be pathEpoch) 32

def deriveSipKey (keyDst : Bytes) (index : UInt8) : Bytes :=
  (C.hkdf none keyDst (ascii "sipkey" ++ [index]) 32).take 16

def routeMac (keyDst authInput : Bytes) : Vector UInt8 16 :=
  ⟨(leBytes 8 (siphash24 (C.deriveSipKey keyDst 0) authInput).toNat ++
    leBytes 8 (siphash24 (C.deriveSipKey keyDst 1) authInput).toNat).toArray, by simp [leBytes]⟩

/-- Encrypts the first `ptLen` bytes of `buf` and writes the tag behind them; the result is the
buffer after the call and the length of the ciphertext. -/
def sealInPlace (key : Bytes) (salt : UInt32) (counter : UInt64) (aad buf : Bytes) (ptLen : ℕ) :
    Except AeadError (Bytes × ℕ) :=
  if buf.length < ptLen ∨ buf.length - ptLen < tagLen then .error {}
  else
    match C.encrypt key (nonce salt counter) aad (buf.take ptLen) with
    | none => .error {}
    | some (ct, tag) => .ok (ct ++ (tag ++ buf.drop (ptLen + tagLen)), ptLen + tagLen)

/-- Decrypts the first `ctLen` bytes of `buf`, whose last 16 are the tag; the result is the
buffer after the call and the length of the plaintext. -/
def openInPlace (key : Bytes) (salt : UInt32) (counter : UInt64) (aad buf : Bytes) (ctLen : ℕ) :
    Except AeadError (Bytes × ℕ) :=
  if buf.length < ctLen ∨ ctLen < tagLen then .error {}
  else
    let ptLen := ctLen - tagLen
    match C.decrypt key (nonce salt counter) aad (buf.take ptLen) (field ptLen tagLen buf) with
    | none => .error {}
    | some msg => .ok (msg ++ buf.drop ptLen, ptLen)

def openVec (key : Bytes) (salt : UInt32) (counter : UInt64) (aad ciphertext : Bytes) :
    Except AeadError Bytes :=
  (C.openInPlace key salt counter aad ciphertext ciphertext.length).map fun r => r.1.take r.2

variable {C}

theorem openVec_eq (key : Bytes) (salt : UInt32) (counter : UInt64) (aad ciphertext : Bytes) :
    C.openVec key salt counter aad ciphertext =
      if ciphertext.length < tagLen then .error {}
      else match C.decrypt key (nonce salt counter) aad (ciphertext.take (ciphertext.length - tagLen))
          (ciphertext.drop (ciphertext.length - tagLen)) with
        | none => .error {}
        | some msg => .ok msg := by
  by_cases hshort : ciphertext.length < tagLen
  · simp [openVec, openInPlace, hshort, Except.map]
  · have htag : field (ciphertext.length - tagLen) tagLen ciphertext =
        ciphertext.drop (ciphertext.length - tagLen) :=
      List.take_of_length_le (by rw [List.length_drop]; omega)
    simp only [openVec, openInPlace, lt_irrefl, hshort, or_self, if_false, htag]
    split
    · rfl
    · rename_i msg hmsg
      have hlen := C.decrypt_length hmsg
      rw [List.length_take, min_eq_left (Nat.sub_le _ _)] at hlen
      simp [Except.map, ← hlen]

theorem length_openInPlace {key aad buf buf' : Bytes} {salt : UInt32} {counter : UInt64}
    {ctLen ptLen : ℕ} (h : C.openInPlace key salt counter aad buf ctLen = .ok (buf', ptLen)) :
    buf'.length = buf.length ∧ ptLen ≤ buf.length := by
  unfold openInPlace at h
  split_ifs at h with hlen
  dsimp only at h
  split at h
  · nomatch h
  · rename_i msg hmsg
    obtain ⟨rfl, rfl⟩ := Prod.mk.inj (Except.ok.inj h)
    have hsame := C.decrypt_length hmsg
    rw [List.length_take] at hsame
    rw [List.length_append, List.length_drop]
    omega

end Crypto

end Rill
