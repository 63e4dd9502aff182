import Rill.Crypto

/-!
# The 42-byte mesh frame header and frame sealing

The header layout of `rill-core/src/frame`: fixed-width big-endian fields followed by the
16-byte route MAC. `authInput` is the part of the header that the route MAC and the associated
data cover, the first 26 bytes with the TTL zeroed.

What `build_frame` returns opens under the same keys, whatever the TTL byte has become, as long as
its length field can hold the length. A longer payload is not refused: its length is cut to 16 bits.
-/

namespace Rill

def headerLen : ℕ := 42

def version : UInt8 := 0x01

def authInputLen : ℕ := 26

def broadcastNodeId : UInt32 := 0xFFFFFFFF

def pathIdDefault : UInt64 := 0

namespace PacketType

def unicast : UInt8 := 0x01

def handshake : UInt8 := 0x02

def heartbeat : UInt8 := 0x03

def pathProbe : UInt8 := 0x05

def broadcast : UInt8 := 0xFF

end PacketType

structure MeshFrameHeader where
  version : UInt8 := Rill.version
  packetType : UInt8 := PacketType.unicast
  flags : UInt8 := 0
  ttl : UInt8 := 64
  toNodeId : UInt32 := 0
  fromNodeId : UInt32 := 0
  seq : UInt32 := 0
  len : UInt16 := 0
  pathId : UInt64 := pathIdDefault
  routeMac : Vector UInt8 16 := Vector.replicate 16 0
  deriving DecidableEq

inductive DecodeError where
  | truncated
  deriving DecidableEq

inductive FrameOpenError where
  | decode (e : DecodeError)
  | version
  | routeMac
  | truncatedPayload
  | aead (e : AeadError)
  deriving DecidableEq

namespace MeshFrameHeader

def encode (h : MeshFrameHeader) : Bytes :=
  [h.version, h.packetType, h.flags, h.ttl] ++ (u32be h.toNodeId ++ (u32be h.fromNodeId ++
    (u32be h.seq ++ (u16be h.len ++ (u64be h.pathId ++ h.routeMac.toList)))))

def decode (buf : Bytes) : Except DecodeError MeshFrameHeader :=
  if buf.length < headerLen then .error .truncated
  else .ok
    { version := buf.getD 0 0
      packetType := buf.getD 1 0
      flags := buf.getD 2 0
      ttl := buf.getD 3 0
      toNodeId := UInt32.ofNat (readBE (field 4 4 buf))
      fromNodeId := UInt32.ofNat (readBE (field 8 4 buf))
      seq := UInt32.ofNat (readBE (field 12 4 buf))
      len := UInt16.ofNat (readBE (field 16 2 buf))
      pathId := UInt64.ofNat (readBE (field 18 8 buf))
      routeMac := Vector.ofFn fun i : Fin 16 => buf.getD (26 + i) 0 }

def authInput (h : MeshFrameHeader) : Bytes := (h.encode.take authInputLen).set 3 0

@[simp] theorem length_encode (h : MeshFrameHeader) : h.encode.length = headerLen := by
  simp [encode, headerLen]

theorem authInput_eq (h : MeshFrameHeader) : h.authInput =
    [h.version, h.packetType, h.flags, 0] ++ (u32be h.toNodeId ++ (u32be h.fromNodeId ++
      (u32be h.seq ++ (u16be h.len ++ u64be h.pathId)))) := by
  have hsplit : h.encode = ([h.version, h.packetType, h.flags, h.ttl] ++ (u32be h.toNodeId ++
      (u32be h.fromNodeId ++ (u32be h.seq ++ (u16be h.len ++ u64be h.pathId))))) ++
      h.routeMac.toList := by
    simp [encode]
  rw [authInput, hsplit, List.take_append_of_le_length (by simp [authInputLen]),
    List.take_of_length_le (by simp [authInputLen])]
  rfl

/-- The header up to its TTL and its route MAC. -/
def Authenticated (h h' : MeshFrameHeader) : Prop :=
  h.version = h'.version ∧ h.packetType = h'.packetType ∧ h.flags = h'.flags ∧
    h.toNodeId = h'.toNodeId ∧ h.fromNodeId = h'.fromNodeId ∧ h.seq = h'.seq ∧ h.len = h'.len ∧
    h.pathId = h'.pathId

theorem authInput_eq_iff (h h' : MeshFrameHeader) :
    h.authInput = h'.authInput ↔ h.Authenticated h' := by
  constructor
  · intro heq
    rw [authInput_eq, authInput_eq] at heq
    obtain ⟨hhead, heq⟩ := List.append_inj heq rfl
    obtain ⟨hto, heq⟩ := List.append_inj heq (by simp)
    obtain ⟨hfrom, heq⟩ := List.append_inj heq (by simp)
    obtain ⟨hseq, heq⟩ := List.append_inj heq (by simp)
    obtain ⟨hlen, hpath⟩ := List.append_inj heq (by simp)
    simp only [List.cons.injEq, and_true] at hhead
    exact ⟨hhead.1, hhead.2.1, hhead.2.2, u32be_injective hto, u32be_injective hfrom,
      u32be_injective hseq, u16be_injective hlen, u64be_injective hpath⟩
  · rintro ⟨hv, hp, hf, hto, hfrom, hseq, hlen, hpath⟩
    rw [authInput_eq, authInput_eq, hv, hp, hf, hto, hfrom, hseq, hlen, hpath]

theorem encode_split (h : MeshFrameHeader) :
    ∃ fields : Bytes, fields.length = 26 ∧ h.encode = fields ++ h.routeMac.toList :=
  ⟨[h.version, h.packetType, h.flags, h.ttl] ++ (u32be h.toNodeId ++ (u32be h.fromNodeId ++
    (u32be h.seq ++ (u16be h.len ++ u64be h.pathId)))), by simp, by simp [encode]⟩

theorem getD_encode_routeMac (h : MeshFrameHeader) (rest : Bytes) (i : Fin 16) :
    (h.encode ++ rest).getD (26 + i) 0 = h.routeMac[i] := by
  obtain ⟨fields, hlen, hsplit⟩ := h.encode_split
  rw [hsplit, List.append_assoc, List.getD_append_right _ _ _ _ (by omega), hlen,
    Nat.add_sub_cancel_left, List.getD_append _ _ _ _ (by simp)]
  simp

theorem decode_encode_append (h : MeshFrameHeader) (rest : Bytes) :
    decode (h.encode ++ rest) = .ok h := by
  have hlen : ¬ (h.encode ++ rest).length < headerLen := by simp
  have hmac : (Vector.ofFn fun i : Fin 16 => (h.encode ++ rest).getD (26 + i) 0) = h.routeMac := by
    ext i hi
    rw [Vector.getElem_ofFn, getD_encode_routeMac]
    rfl
  rw [decode, if_neg hlen, hmac]
  simp [encode, field_append_of_length_le, field_zero_append]

end MeshFrameHeader

namespace Crypto
variable (C : Crypto)

def buildFrame (header : MeshFrameHeader) (keyDst sessionKey : Bytes) (salt : UInt32)
    (payload : Bytes) : Except AeadError Bytes :=
  let h := { header with len := UInt16.ofNat (payload.length + tagLen) }
  let ai := h.authInput
  let h := { h with routeMac := C.routeMac keyDst ai }
  (C.sealInPlace sessionKey salt h.seq.toUInt64 ai (payload ++ List.replicate tagLen 0)
    payload.length).map fun r => h.encode ++ r.1

def buildUnsealedFrame (header : MeshFrameHeader) (routeKey payload : Bytes) : Bytes :=
  let h := { header with len := UInt16.ofNat payload.length }
  let ai := h.authInput
  let h := { h with routeMac := C.routeMac routeKey ai }
  h.encode ++ payload

def buildHandshakeFrame (header : MeshFrameHeader) (keyDst payload : Bytes) : Bytes :=
  C.buildUnsealedFrame { header with pathId := pathIdDefault, packetType := PacketType.handshake }
    keyDst payload

def validateFrame (frame keyDst : Bytes) : Except FrameOpenError (MeshFrameHeader × ℕ × ℕ) :=
  match MeshFrameHeader.decode frame with
  | .error e => .error (.decode e)
  | .ok w =>
    if w.version ≠ Rill.version then .error .version
    else if C.routeMac keyDst w.authInput ≠ w.routeMac then .error .routeMac
    else
      let stop := headerLen + w.len.toNat
      if frame.length < stop then .error .truncatedPayload else .ok (w, headerLen, stop)

def openFrame (frame keyDst sessionKey : Bytes) (salt : UInt32) :
    Except FrameOpenError (MeshFrameHeader × Bytes) := do
  let (header, hlen, stop) ← C.validateFrame frame keyDst
  let ai := header.authInput
  match C.openVec sessionKey salt header.seq.toUInt64 ai (field hlen (stop - hlen) frame) with
  | .error e => .error (.aead e)
  | .ok payload => .ok (header, payload)

/-- The header, the plaintext slice and the frame buffer after the call. The buffer of a failed
call is the one given: the tag is verified before anything is decrypted. -/
def openFrameInPlace (frame keyDst sessionKey : Bytes) (salt : UInt32) :
    Except FrameOpenError (MeshFrameHeader × Bytes × Bytes) := do
  let (header, hlen, stop) ← C.validateFrame frame keyDst
  let ai := header.authInput
  match C.openInPlace sessionKey salt header.seq.toUInt64 ai (field hlen (stop - hlen) frame)
      (stop - hlen) with
  | .error e => .error (.aead e)
  | .ok (buf, ptLen) => .ok (header, buf.take ptLen, frame.take hlen ++ (buf ++ frame.drop stop))

end Crypto

def framePayload (frame : Bytes) : Option Bytes :=
  match MeshFrameHeader.decode frame with
  | .error _ => none
  | .ok h =>
    let rest := frame.drop headerLen
    if rest.length < h.len.toNat then none else some (rest.take h.len.toNat)

def decrementTtl (frame : Bytes) : Bytes :=
  if frame.length < headerLen then frame else frame.set 3 (frame.getD 3 0 - 1)

structure SealEvent where
  key : Bytes
  nonce : Bytes
  aad : Bytes
  plaintext : Bytes
  deriving DecidableEq

namespace Crypto
variable {C : Crypto}

/-- The header that `buildFrame` puts in front of the ciphertext. -/
def sealedHeader (C : Crypto) (header : MeshFrameHeader) (keyDst payload : Bytes) :
    MeshFrameHeader :=
  let h := { header with len := UInt16.ofNat (payload.length + tagLen) }
  { h with routeMac := C.routeMac keyDst h.authInput }

def sealedAad (header : MeshFrameHeader) (payload : Bytes) : Bytes :=
  { header with len := UInt16.ofNat (payload.length + tagLen) : MeshFrameHeader }.authInput

theorem authInput_sealedHeader (header : MeshFrameHeader) (keyDst payload : Bytes) :
    (C.sealedHeader header keyDst payload).authInput = sealedAad header payload :=
  (MeshFrameHeader.authInput_eq_iff _ _).mpr ⟨rfl, rfl, rfl, rfl, rfl, rfl, rfl, rfl⟩

theorem buildFrame_eq (header : MeshFrameHeader) (keyDst key : Bytes) (salt : UInt32)
    (payload : Bytes) : C.buildFrame header keyDst key salt payload =
      match C.encrypt key (nonce salt header.seq.toUInt64) (sealedAad header payload) payload with
      | none => .error {}
      | some (ct, tag) => .ok ((C.sealedHeader header keyDst payload).encode ++ (ct ++ tag)) := by
  have hlen : ¬ ((payload ++ List.replicate tagLen 0).length < payload.length ∨
      (payload ++ List.replicate tagLen 0).length - payload.length < tagLen) := by simp
  simp only [buildFrame, sealInPlace, if_neg hlen, List.take_left, sealedAad]
  split <;> simp_all [Except.map, sealedHeader, tagLen]

theorem buildFrame_isOk_iff {maxLen : ℕ} (hC : C.Lawful maxLen) (header : MeshFrameHeader)
    (keyDst key : Bytes) (salt : UInt32) (payload : Bytes) :
    (∃ f, C.buildFrame header keyDst key salt payload = .ok f) ↔ payload.length ≤ maxLen := by
  rw [buildFrame_eq, ← hC.encrypt_isSome key (nonce salt header.seq.toUInt64)
    (sealedAad header payload) payload]
  split <;> simp_all

/-- The cipher that refuses to encrypt `e` and is `C` everywhere else. -/
def refusing (C : Crypto) (e : SealEvent) : Crypto :=
  { C with
    encrypt := fun key nonce aad msg =>
      if (⟨key, nonce, aad, msg⟩ : SealEvent) = e then none else C.encrypt key nonce aad msg
    encrypt_length := fun h => by
      split_ifs at h
      exact C.encrypt_length h }

/-- What a call gives to the cipher on the way to its result: the call succeeds, and it would not
with a cipher that refuses `e` alone. -/
def Seals (C : Crypto) (call : Crypto → Bool) (e : SealEvent) : Prop :=
  call C = true ∧ call (C.refusing e) = false

instance (call : Crypto → Bool) (e : SealEvent) : Decidable (C.Seals call e) :=
  inferInstanceAs (Decidable (_ ∧ _))

theorem seals_buildFrame_iff {header : MeshFrameHeader} {keyDst key : Bytes} {salt : UInt32}
    {payload : Bytes} {e : SealEvent} :
    C.Seals (fun C => (C.buildFrame header keyDst key salt payload).isOk) e ↔
      (C.buildFrame header keyDst key salt payload).isOk = true ∧
        e = ⟨key, nonce salt header.seq.toUInt64, sealedAad header payload, payload⟩ := by
  refine and_congr_right fun hok => ?_
  dsimp only at hok ⊢
  rw [buildFrame_eq] at hok ⊢
  simp only [refusing]
  by_cases he : (⟨key, nonce salt header.seq.toUInt64, sealedAad header payload, payload⟩ :
      SealEvent) = e
  · rw [if_pos he]
    exact iff_of_true rfl he.symm
  · rw [if_neg he]
    refine iff_of_false ?_ (Ne.symm he)
    cases henc : C.encrypt key (nonce salt header.seq.toUInt64) (sealedAad header payload) payload with
    | none => simp [henc, Except.isOk, Except.toBool] at hok
    | some r => simp [Except.isOk, Except.toBool]

theorem nonce_eq_iff (salt seq seq' : UInt32) :
    nonce salt seq.toUInt64 = nonce salt seq'.toUInt64 ↔ seq = seq' := by
  constructor
  · intro h
    have htail := u64be_injective (List.append_cancel_left h)
    exact UInt32.toNat_inj.mp (by simpa using congrArg UInt64.toNat htail)
  · rintro rfl
    rfl

theorem validateFrame_eq_ok {frame keyDst : Bytes} {r : MeshFrameHeader × ℕ × ℕ} :
    C.validateFrame frame keyDst = .ok r ↔ ∃ h, MeshFrameHeader.decode frame = .ok h ∧
      h.version = Rill.version ∧ C.routeMac keyDst h.authInput = h.routeMac ∧
      headerLen + h.len.toNat ≤ frame.length ∧ r = (h, headerLen, headerLen + h.len.toNat) := by
  unfold validateFrame
  cases hd : MeshFrameHeader.decode frame with
  | error e => simp
  | ok h =>
    simp only [Except.ok.injEq, exists_eq_left']
    split_ifs with hv hm ht
    · simp [hv]
    · simp [hm]
    · have hlt : ¬ headerLen + h.len.toNat ≤ frame.length := by omega
      simp [hlt]
    · simp only [ne_eq, not_not] at hv hm
      simp [hv, hm, not_lt.mp ht, eq_comm]

def sealedPart (frame : Bytes) (h : MeshFrameHeader) : Bytes := field headerLen h.len.toNat frame

theorem openFrame_eq_ok {frame keyDst key : Bytes} {salt : UInt32} {h : MeshFrameHeader}
    {payload : Bytes} : C.openFrame frame keyDst key salt = .ok (h, payload) ↔
      MeshFrameHeader.decode frame = .ok h ∧ h.version = Rill.version ∧
      C.routeMac keyDst h.authInput = h.routeMac ∧ headerLen + h.len.toNat ≤ frame.length ∧
      C.openVec key salt h.seq.toUInt64 h.authInput (sealedPart frame h) = .ok payload := by
  unfold openFrame
  cases hv : C.validateFrame frame keyDst with
  | error e =>
    have hno := fun r => (@validateFrame_eq_ok C frame keyDst r).not.mp (by simp [hv])
    simp only [bind, Except.bind, reduceCtorEq, false_iff]
    rintro ⟨hd, hver, hm, ht, -⟩
    exact hno _ ⟨h, hd, hver, hm, ht, rfl⟩
  | ok r =>
    obtain ⟨w, hd, hver, hm, ht, rfl⟩ := validateFrame_eq_ok.mp hv
    simp only [bind, Except.bind, Nat.add_sub_cancel_left]
    constructor
    · intro hok
      split at hok
      · cases hok
      · rename_i p hp
        obtain ⟨rfl, rfl⟩ := Prod.mk.inj (Except.ok.inj hok)
        exact ⟨hd, hver, hm, ht, hp⟩
    · rintro ⟨hd', -, -, -, hp⟩
      cases hd.symm.trans hd'
      simp only [sealedPart] at hp
      rw [hp]

theorem openFrameInPlace_map (frame keyDst key : Bytes) (salt : UInt32) :
    (C.openFrameInPlace frame keyDst key salt).map (fun r => (r.1, r.2.1)) =
      C.openFrame frame keyDst key salt := by
  unfold openFrameInPlace openFrame
  cases hv : C.validateFrame frame keyDst with
  | error e => rfl
  | ok r =>
    obtain ⟨h, -, -, -, ht, rfl⟩ := validateFrame_eq_ok.mp hv
    have hlen : (field headerLen h.len.toNat frame).length = h.len.toNat := by
      rw [field, List.length_take, List.length_drop]
      omega
    simp only [bind, Except.bind, Nat.add_sub_cancel_left, openVec, hlen]
    cases C.openInPlace key salt h.seq.toUInt64 h.authInput (field headerLen h.len.toNat frame)
      h.len.toNat <;> rfl

theorem field_openFrameInPlace {frame keyDst key plain buf : Bytes} {salt : UInt32}
    {h : MeshFrameHeader} (hopen : C.openFrameInPlace frame keyDst key salt = .ok (h, plain, buf)) :
    field headerLen plain.length buf = plain := by
  unfold openFrameInPlace at hopen
  cases hv : C.validateFrame frame keyDst with
  | error e => simp [hv, bind, Except.bind] at hopen
  | ok r =>
    obtain ⟨w, -, -, -, ht, rfl⟩ := validateFrame_eq_ok.mp hv
    have hhead : (frame.take headerLen).length = headerLen := by
      rw [List.length_take]
      omega
    simp only [hv, bind, Except.bind] at hopen
    split at hopen
    · cases hopen
    · rename_i b n _
      obtain ⟨-, hrest⟩ := Prod.mk.inj (Except.ok.inj hopen)
      cases hrest
      rw [field_append_of_length_le hhead.le, hhead, Nat.sub_self, field, List.drop_zero,
        List.length_take, List.take_append_of_le_length (min_le_right _ _), List.take_eq_take_iff]
      omega

theorem openFrame_sealed {header : MeshFrameHeader} {payload ct tag : Bytes}
    (hver : header.version = Rill.version) (hlen : payload.length + tagLen < 65536)
    (hct : ct.length = payload.length) (htag : tag.length = 16) (keyDst key : Bytes)
    (salt : UInt32) :
    C.openFrame ((C.sealedHeader header keyDst payload).encode ++ (ct ++ tag)) keyDst key salt =
      match C.decrypt key (nonce salt header.seq.toUInt64) (sealedAad header payload) ct tag with
      | none => .error (.aead {})
      | some msg => .ok (C.sealedHeader header keyDst payload, msg) := by
  have hn : (C.sealedHeader header keyDst payload).len.toNat = payload.length + tagLen := by
    simpa [sealedHeader] using hlen
  have hpart : field headerLen (C.sealedHeader header keyDst payload).len.toNat
      ((C.sealedHeader header keyDst payload).encode ++ (ct ++ tag)) = ct ++ tag := by
    rw [field_append_of_length_le (by simp), hn]
    simp [field, hct, htag, tagLen]
  have hvalid : C.validateFrame ((C.sealedHeader header keyDst payload).encode ++ (ct ++ tag)) keyDst =
      .ok (C.sealedHeader header keyDst payload, headerLen,
        headerLen + (C.sealedHeader header keyDst payload).len.toNat) := by
    refine validateFrame_eq_ok.mpr
      ⟨_, MeshFrameHeader.decode_encode_append _ _, hver, ?_, ?_, rfl⟩
    · rw [authInput_sealedHeader]
      rfl
    · rw [hn]
      simp [hct, htag, tagLen]
  have hcut : (ct ++ tag).length - tagLen = ct.length := by simp [htag, tagLen]
  have hlong : ¬ (ct ++ tag).length < tagLen := by simp [htag, tagLen]
  simp only [openFrame, hvalid, bind, Except.bind, Nat.add_sub_cancel_left, hpart]
  rw [openVec_eq, if_neg hlong, hcut, List.take_left, List.drop_left,
    show (C.sealedHeader header keyDst payload).seq = header.seq from rfl, authInput_sealedHeader]
  cases C.decrypt key (nonce salt header.seq.toUInt64) (sealedAad header payload) ct tag <;> rfl

/-- A frame that `buildFrame` returns opens under the same keys to the payload it carries, as
long as the length field holds the length of the ciphertext. -/
theorem openFrame_buildFrame {maxLen : ℕ} (hC : C.Lawful maxLen) {header : MeshFrameHeader}
    {keyDst key payload f : Bytes} {salt : UInt32} (hver : header.version = Rill.version)
    (hlen : payload.length + tagLen < 65536)
    (hf : C.buildFrame header keyDst key salt payload = .ok f) :
    C.openFrame f keyDst key salt = .ok (C.sealedHeader header keyDst payload, payload) := by
  rw [buildFrame_eq] at hf
  split at hf
  · cases hf
  · rename_i ct tag henc
    cases hf
    obtain ⟨hct, htag⟩ := C.encrypt_length henc
    rw [openFrame_sealed hver hlen hct htag, hC.decrypt_encrypt henc]

end Crypto

/-! ## Sealing and opening a frame -/

theorem MeshFrameHeader.set_ttl_encode (h : MeshFrameHeader) (ttl : UInt8) (rest : Bytes) :
    (h.encode ++ rest).set 3 ttl = { h with ttl }.encode ++ rest := rfl

theorem MeshFrameHeader.getD_ttl_encode (h : MeshFrameHeader) (rest : Bytes) :
    (h.encode ++ rest).getD 3 0 = h.ttl := rfl

theorem decrementTtl_encode (h : MeshFrameHeader) (rest : Bytes) :
    decrementTtl (h.encode ++ rest) = { h with ttl := h.ttl - 1 }.encode ++ rest := by
  have hlen : ¬ (h.encode ++ rest).length < headerLen := by simp
  rw [decrementTtl, if_neg hlen, h.getD_ttl_encode, h.set_ttl_encode]

theorem iterate_decrementTtl_encode (h : MeshFrameHeader) (rest : Bytes) (n : ℕ) :
    decrementTtl^[n] (h.encode ++ rest) =
      { h with ttl := h.ttl - UInt8.ofNat n }.encode ++ rest := by
  induction n with
  | zero => simp
  | succ n ih =>
    have hnext : h.ttl - UInt8.ofNat n - 1 = h.ttl - UInt8.ofNat (n + 1) := by
      rw [UInt8.ofNat_add, sub_sub]
      rfl
    rw [Function.iterate_succ_apply', ih, decrementTtl_encode, hnext]

namespace Crypto
variable {C : Crypto}

/-- The frame is opened to the payload and to the header with this TTL, the length of the ciphertext
and the route MAC that `build_frame` filled in. -/
def OpensTo (C : Crypto) (frame keyDst key : Bytes) (salt : UInt32) (header : MeshFrameHeader)
    (ttl : UInt8) (payload : Bytes) : Prop :=
  ∃ opened : MeshFrameHeader, C.openFrame frame keyDst key salt = .ok (opened, payload) ∧
    opened.len.toNat = payload.length + tagLen ∧
    opened = { header with
      ttl
      len := opened.len
      routeMac := (C.sealedHeader header keyDst payload).routeMac }

/-- Building a frame and opening it is the identity, and what does not fit is refused. -/
structure RoundTrip (C : Crypto) (header : MeshFrameHeader) (keyDst key : Bytes) (salt : UInt32)
    (payload : Bytes) : Prop where
  opens : ∀ f, C.buildFrame header keyDst key salt payload = .ok f →
    (∀ ttl, C.OpensTo (f.set 3 ttl) keyDst key salt header ttl payload) ∧
    ∀ n, C.OpensTo (decrementTtl^[n] f) keyDst key salt header (header.ttl - UInt8.ofNat n) payload
  refused : 65535 < payload.length + tagLen →
    ∃ e, C.buildFrame header keyDst key salt payload = .error e

theorem opensTo_sealed {maxLen : ℕ} (hC : C.Lawful maxLen) {header : MeshFrameHeader}
    {keyDst key payload ct tag : Bytes} {salt : UInt32} (hver : header.version = Rill.version)
    (hlen : payload.length + tagLen ≤ 65535)
    (henc : C.encrypt key (nonce salt header.seq.toUInt64) (sealedAad header payload) payload =
      some (ct, tag)) (ttl : UInt8) :
    C.OpensTo ({ C.sealedHeader header keyDst payload with ttl }.encode ++ (ct ++ tag)) keyDst key
      salt header ttl payload := by
  obtain ⟨hct, htag⟩ := C.encrypt_length henc
  have hopen := @openFrame_sealed C { header with ttl } payload ct tag hver (Nat.lt_succ_of_le hlen)
    hct htag keyDst key salt
  have haad : sealedAad { header with ttl } payload = sealedAad header payload := rfl
  rw [haad, hC.decrypt_encrypt henc] at hopen
  refine ⟨C.sealedHeader { header with ttl } keyDst payload, hopen, ?_, rfl⟩
  have hsmall : payload.length + tagLen < 2 ^ 16 := Nat.lt_succ_of_le hlen
  exact UInt16.toNat_ofNat_of_lt' hsmall

theorem opens_of_fits {maxLen : ℕ} (hC : C.Lawful maxLen) {header : MeshFrameHeader}
    {keyDst key payload : Bytes} {salt : UInt32} (hver : header.version = Rill.version)
    (hlen : payload.length + tagLen ≤ 65535) : C.RoundTrip header keyDst key salt payload := by
  refine ⟨fun f hf => ?_, fun hlong => absurd hlong (by omega)⟩
  rw [buildFrame_eq] at hf
  split at hf
  · cases hf
  · rename_i ct tag henc
    cases hf
    refine ⟨fun ttl => ?_, fun n => ?_⟩
    · rw [MeshFrameHeader.set_ttl_encode]
      exact opensTo_sealed hC hver hlen henc ttl
    · rw [iterate_decrementTtl_encode]
      exact opensTo_sealed hC hver hlen henc _

theorem OpensTo.version_eq {header : MeshFrameHeader} {frame keyDst key payload : Bytes}
    {salt : UInt32} {ttl : UInt8} (h : C.OpensTo frame keyDst key salt header ttl payload) :
    header.version = Rill.version := by
  obtain ⟨opened, hopen, -, heq⟩ := h
  obtain ⟨-, hver, -⟩ := openFrame_eq_ok.mp hopen
  rw [heq] at hver
  exact hver

theorem OpensTo.length_le {header : MeshFrameHeader} {frame keyDst key payload : Bytes}
    {salt : UInt32} {ttl : UInt8} (h : C.OpensTo frame keyDst key salt header ttl payload) :
    payload.length + tagLen ≤ 65535 := by
  obtain ⟨opened, -, hlen, -⟩ := h
  rw [← hlen]
  exact Nat.le_of_lt_succ opened.len.toNat_lt

/-- The round trip holds for the version that is opened and payloads whose length the header can
hold, and for those that the cipher refuses. -/
theorem roundTrip_iff {maxLen : ℕ} (hC : C.Lawful maxLen) (header : MeshFrameHeader)
    (keyDst key : Bytes) (salt : UInt32) (payload : Bytes) :
    C.RoundTrip header keyDst key salt payload ↔
      maxLen < payload.length ∨
        header.version = Rill.version ∧ payload.length + tagLen ≤ 65535 := by
  have hbuilt := buildFrame_isOk_iff hC header keyDst key salt payload
  constructor
  · intro h
    refine or_iff_not_imp_left.mpr fun hmax => ?_
    obtain ⟨f, hf⟩ := hbuilt.mpr (not_lt.mp hmax)
    have hopens := (h.opens f hf).1 header.ttl
    exact ⟨hopens.version_eq, hopens.length_le⟩
  · rintro (hmax | ⟨hver, hlen⟩)
    · have hnone : ∀ f, C.buildFrame header keyDst key salt payload ≠ .ok f :=
        fun f hf => absurd (hbuilt.mp ⟨f, hf⟩) (not_le.mpr hmax)
      refine ⟨fun f hf => absurd hf (hnone f), fun _ => ?_⟩
      cases hres : C.buildFrame header keyDst key salt payload with
      | error e => exact ⟨e, rfl⟩
      | ok f => exact absurd hres (hnone f)
    · exact opens_of_fits hC hver hlen

theorem roundTrip_iff_lab :
    (Crypto.clear 100000).RoundTrip { ttl := 9 } [1] [2] 3 [7, 7] :=
  (roundTrip_iff (Crypto.clear_lawful 100000) { ttl := 9 } [1] [2] 3 [7, 7]).mpr
    (.inr ⟨rfl, by decide⟩)

/-- A payload of 65520 bytes is sealed under a length of 0. -/
theorem long_payload_not_opened :
    ∃ f, (Crypto.clear 100000).buildFrame {} [1] [2] 3 (List.replicate 65520 7) = .ok f ∧
      ∀ ttl, ¬ (Crypto.clear 100000).OpensTo (f.set 3 ttl) [1] [2] 3 {} ttl
        (List.replicate 65520 7) := by
  have hlen : (List.replicate 65520 (7 : UInt8)).length = 65520 := List.length_replicate
  obtain ⟨f, hf⟩ := (buildFrame_isOk_iff (Crypto.clear_lawful 100000) {} [1] [2] 3
    (List.replicate 65520 7)).mpr (by rw [hlen]; decide)
  refine ⟨f, hf, fun ttl h => ?_⟩
  have hle := h.length_le
  rw [hlen] at hle
  exact absurd hle (by decide)

end Crypto

end Rill
