import Rill.BitGroups
import Rill.Text

/-!
# Auth keys

`rill-coord/src/authkey/mod.rs`: an auth key is `lrk-<network>-<expiry>-<secret>` with a decimal
expiry in unix seconds, zero for none, and 32 secret bytes in unpadded base32.

`base32_encode` writes bytes in characters of five bits, and fills the last one up with zeros;
`base32_decode` refuses a text whose last bits are not zero. What was written is read back, and of
the texts that a key may have there is one for each secret.
-/

namespace Rill

inductive AuthKeyError where
  | badPrefix
  | badFormat
  | badNetwork
  | badExpiry
  | badSecretLen
  | badSecret
  deriving DecidableEq

namespace AuthKey

def secretLen : ℕ := 32

def secretChars : ℕ := 52

def base32Alphabet : Text := ascii "ABCDEFGHIJKLMNOPQRSTUVWXYZ234567"

/-- One character of `base32_decode`: five more bits, and a byte out of the buffer once it holds
eight. The buffer is a 64-bit word whose upper bits fall off. -/
def base32Step (st : UInt64 × UInt64 × Bytes) (c : UInt8) : Option (UInt64 × UInt64 × Bytes) :=
  (base32Alphabet.idxOf? c).map fun v =>
    let buffer := (st.1 <<< 5) ||| UInt64.ofNat v
    let bits := st.2.1 + 5
    if 8 ≤ bits then (buffer, bits - 8, st.2.2 ++ [(buffer >>> (bits - 8)).toUInt8])
    else (buffer, bits, st.2.2)

def base32Decode (text : Text) : Option Bytes :=
  (text.foldlM base32Step (0, 0, [])).bind fun st =>
    if 0 < st.2.1 ∧ st.1 &&& ((1 <<< st.2.1) - 1) ≠ 0 then none else some st.2.2

def validateNetwork (network : Text) : Except AuthKeyError Unit :=
  if network.isEmpty || !network.all fun b => Text.isLower b || Text.isDigit b then
    .error .badNetwork
  else .ok ()

def parse (key : Text) : Except AuthKeyError (Text × UInt64 × Text) := do
  let rest ← (Text.strip (ascii "lrk-") key).elim (.error .badPrefix) .ok
  let (network, tail) ← (Text.splitOnce 45 rest).elim (.error .badFormat) .ok
  let (expiry, secret) ← (Text.splitOnce 45 tail).elim (.error .badFormat) .ok
  validateNetwork network
  let expiry ← (Text.parseUnsigned 64 expiry).elim (.error .badExpiry) .ok
  if secret.length ≠ secretChars then .error .badSecretLen
  else do
    let decoded ← (base32Decode secret).elim (.error .badSecret) .ok
    if decoded.length ≠ secretLen then .error .badSecretLen
    else .ok (network, UInt64.ofNat expiry, secret)

example : parse (ascii "lrk-lab-0-AAAAAAAAAAAAAAAAAAAAAAAAAAAAAAAAAAAAAAAAAAAAAAAAAAAA") =
    .ok (ascii "lab", 0, ascii "AAAAAAAAAAAAAAAAAAAAAAAAAAAAAAAAAAAAAAAAAAAAAAAAAAAA") := by
  decide +kernel

end AuthKey

/-! ## The secret of an auth key as text -/

namespace AuthKey
open BitGroups

/-- The character of the last five bits. -/
def base32Char (x : UInt64) : UInt8 := base32Alphabet.getD (x &&& 0x1f).toNat 0

/-- The inner loop of `base32_encode`. -/
def base32Drain (buffer : UInt64) (bits : ℕ) (out : Text) : ℕ × Text :=
  if 5 ≤ bits then
    base32Drain buffer (bits - 5) (out ++ [base32Char (buffer >>> UInt64.ofNat (bits - 5))])
  else (bits, out)
termination_by bits

def base32EncodeStep (st : UInt64 × ℕ × Text) (b : UInt8) : UInt64 × ℕ × Text :=
  let buffer := (st.1 <<< 8) ||| b.toUInt64
  (buffer, base32Drain buffer (st.2.1 + 8) st.2.2)

def base32Encode (data : Bytes) : Text :=
  let st := data.foldl base32EncodeStep (0, 0, [])
  if 0 < st.2.1 then st.2.2 ++ [base32Char (st.1 <<< UInt64.ofNat (5 - st.2.1))] else st.2.2

def digitText (ds : List ℕ) : Text := ds.map fun d => base32Alphabet.getD d 0

def Digits (ds : List ℕ) : Prop := ∀ d ∈ ds, d < 2 ^ 5

theorem digits_nil : Digits [] := List.forall_mem_nil _

theorem digits_concat {ds : List ℕ} (hds : Digits ds) {d : ℕ} (hd : d < 2 ^ 5) :
    Digits (ds ++ [d]) := List.forall_mem_append.mpr ⟨hds, List.forall_mem_singleton.mpr hd⟩

theorem digitText_concat (ds : List ℕ) (d : ℕ) :
    digitText (ds ++ [d]) = digitText ds ++ [base32Alphabet.getD d 0] := List.map_append

section Alphabet

theorem idxOf?_digit : ∀ d < 32, base32Alphabet.idxOf? (base32Alphabet.getD d 0) = some d := by
  decide

theorem digit_of_idxOf? {c : UInt8} {d : ℕ} (h : base32Alphabet.idxOf? c = some d) :
    d < 2 ^ 5 ∧ base32Alphabet.getD d 0 = c := by
  obtain ⟨hd, hc, -⟩ := List.findIdx?_eq_some_iff_getElem.mp h
  have hlen : base32Alphabet.length = 2 ^ 5 := by decide
  refine ⟨hlen ▸ hd, ?_⟩
  rw [List.getD_eq_getElem _ _ hd]
  exact eq_of_beq hc

end Alphabet

section Decode

/-- `base32Step` on the digit of a character. -/
def collect (st : UInt64 × UInt64 × Bytes) (v : ℕ) : UInt64 × UInt64 × Bytes :=
  let buffer := (st.1 <<< 5) ||| UInt64.ofNat v
  let bits := st.2.1 + 5
  if 8 ≤ bits then (buffer, bits - 8, st.2.2 ++ [(buffer >>> (bits - 8)).toUInt8])
  else (buffer, bits, st.2.2)

theorem foldlM_digitText {ds : List ℕ} (hds : Digits ds) (st : UInt64 × UInt64 × Bytes) :
    (digitText ds).foldlM base32Step st = some (ds.foldl collect st) := by
  induction ds generalizing st with
  | nil => rfl
  | cons d ds ih =>
    have hstep : base32Step st (base32Alphabet.getD d 0) = some (collect st d) := by
      rw [base32Step, idxOf?_digit d (hds d List.mem_cons_self)]
      rfl
    rw [digitText, List.map_cons, List.foldlM_cons, hstep, Option.bind_eq_bind, Option.bind_some]
    exact ih (fun e he => hds e (List.mem_cons_of_mem d he)) (collect st d)

theorem exists_digits {text : Text} {st st' : UInt64 × UInt64 × Bytes}
    (h : text.foldlM base32Step st = some st') : ∃ ds, Digits ds ∧ text = digitText ds := by
  induction text generalizing st with
  | nil => exact ⟨[], digits_nil, rfl⟩
  | cons c text ih =>
    rw [List.foldlM_cons] at h
    obtain ⟨mid, hmid, hrest⟩ := Option.bind_eq_some_iff.mp h
    obtain ⟨d, hd, -⟩ := Option.map_eq_some_iff.mp hmid
    obtain ⟨hlt, rfl⟩ := digit_of_idxOf? hd
    obtain ⟨ds, hds, rfl⟩ := ih hrest
    exact ⟨d :: ds, List.forall_mem_cons.mpr ⟨hlt, hds⟩, rfl⟩

/-- The state of the decoder behind the digits `ds`. -/
structure Collected (ds : List ℕ) (st : UInt64 × UInt64 × Bytes) : Prop where
  bits_lt : st.2.1.toNat < 8
  regrouped : Regrouped 5 8 ds (st.2.2.map UInt8.toNat) st.2.1.toNat
    (st.1.toNat % 2 ^ st.2.1.toNat)

theorem toNat_shiftIn_five (buffer : UInt64) {v : ℕ} (hv : v < 2 ^ 5) :
    ((buffer <<< 5) ||| UInt64.ofNat v).toNat = (buffer.toNat * 2 ^ 5 % 2 ^ 64) ||| v := by
  have hmod : v % 2 ^ 64 = v := Nat.mod_eq_of_lt (by omega)
  rw [UInt64.toNat_or, UInt64.toNat_shiftLeft, UInt64.toNat_ofNat', hmod, Nat.shiftLeft_eq]
  rfl

theorem collected_collect {ds : List ℕ} {st : UInt64 × UInt64 × Bytes} (h : Collected ds st) {v : ℕ}
    (hv : v < 2 ^ 5) : Collected (ds ++ [v]) (collect st v) := by
  obtain ⟨buffer, bits, out⟩ := st
  obtain ⟨hbits, hregrouped⟩ := h
  dsimp only at hbits hregrouped
  have hsum : (bits + 5).toNat = bits.toNat + 5 := by
    rw [UInt64.toNat_add, Nat.mod_eq_of_lt]
    · rfl
    · change bits.toNat + 5 < 2 ^ 64
      omega
  have hfed := hregrouped.feed_word (W := 64) hv (by omega)
  rw [← toNat_shiftIn_five buffer hv] at hfed
  rw [collect]
  split_ifs with hfull
  · have hge : 8 ≤ bits.toNat + 5 := by
      rw [← hsum]
      exact UInt64.le_iff_toNat_le.mp hfull
    have hsub : (bits + 5 - 8).toNat = bits.toNat + 5 - 8 := by
      rw [UInt64.toNat_sub_of_le _ _ hfull, hsum]
      rfl
    refine ⟨by dsimp only; omega, ?_⟩
    dsimp only
    have hemit := @Regrouped.emit_word 5 8 (bits.toNat + 5 - 8) (ds ++ [v]) (out.map UInt8.toNat)
      ((buffer <<< 5) ||| UInt64.ofNat v).toNat (by rwa [Nat.sub_add_cancel hge])
    have hbyte : (((buffer <<< 5) ||| UInt64.ofNat v) >>> (bits + 5 - 8)).toUInt8.toNat =
        ((buffer <<< 5) ||| UInt64.ofNat v).toNat / 2 ^ (bits.toNat + 5 - 8) % 2 ^ 8 := by
      rw [UInt64.toNat_toUInt8, UInt64.toNat_shiftRight, hsub, Nat.shiftRight_eq_div_pow,
        Nat.mod_eq_of_lt (by omega : bits.toNat + 5 - 8 < 64)]
    rw [List.map_append, List.map_singleton, hbyte, hsub]
    exact hemit
  · have hlt : bits.toNat + 5 < 8 := by
      rw [← hsum]
      exact UInt64.lt_iff_toNat_lt.mp (UInt64.not_le.mp hfull)
    refine ⟨by dsimp only; omega, ?_⟩
    dsimp only
    rw [hsum]
    exact hfed

theorem collected_foldl {ds : List ℕ} (hds : Digits ds) :
    Collected ds (ds.foldl collect (0, 0, [])) := by
  induction ds using List.reverseRecOn with
  | nil => exact ⟨by decide, Regrouped.nil 5 8⟩
  | append_singleton ds d ih =>
    rw [List.foldl_append]
    exact collected_collect (ih fun e he => hds e (List.mem_append_left _ he))
      (hds d (List.mem_append_right ds List.mem_cons_self))

theorem toNat_and_mask (buffer bits : UInt64) (h : bits.toNat < 8) :
    (buffer &&& ((1 <<< bits) - 1)).toNat = buffer.toNat % 2 ^ bits.toNat := by
  have hone : ((1 : UInt64) <<< bits).toNat = 2 ^ bits.toNat := by
    have hpow : 2 ^ bits.toNat < 2 ^ 64 := Nat.pow_lt_pow_right (by decide) (by omega)
    rw [UInt64.toNat_shiftLeft, Nat.mod_eq_of_lt (by omega : bits.toNat < 64), Nat.shiftLeft_eq]
    simpa using Nat.mod_eq_of_lt hpow
  have hle : (1 : UInt64) ≤ 1 <<< bits := by
    rw [UInt64.le_iff_toNat_le, hone]
    exact Nat.one_le_two_pow
  rw [UInt64.toNat_and, UInt64.toNat_sub_of_le _ _ hle, hone]
  exact Nat.and_two_pow_sub_one_eq_mod _ _

theorem base32Decode_eq_some_iff {text : Text} {data : Bytes} :
    base32Decode text = some data ↔
      ∃ ds bits, Digits ds ∧ text = digitText ds ∧ bits < 8 ∧
        Regrouped 5 8 ds (data.map UInt8.toNat) bits 0 := by
  constructor
  · intro h
    obtain ⟨st, hst, hend⟩ := Option.bind_eq_some_iff.mp h
    obtain ⟨ds, hds, rfl⟩ := exists_digits hst
    rw [foldlM_digitText hds] at hst
    have hcollected := collected_foldl hds
    rw [Option.some.inj hst] at hcollected
    split_ifs at hend with hrest
    cases hend
    refine ⟨ds, st.2.1.toNat, hds, rfl, hcollected.bits_lt, ?_⟩
    have hzero : st.1.toNat % 2 ^ st.2.1.toNat = 0 := by
      by_cases hbits : 0 < st.2.1
      · have hmask : st.1 &&& ((1 <<< st.2.1) - 1) = 0 := by
          by_contra hne
          exact hrest ⟨hbits, hne⟩
        rw [← toNat_and_mask _ _ hcollected.bits_lt, hmask]
        rfl
      · have hbits : st.2.1.toNat = 0 := by
          have hnot := UInt64.lt_iff_toNat_lt.not.mp hbits
          change ¬ 0 < st.2.1.toNat at hnot
          omega
        rw [hbits, pow_zero, Nat.mod_one]
    rw [← hzero]
    exact hcollected.regrouped
  · rintro ⟨ds, bits, hds, rfl, hbits, hregrouped⟩
    have hcollected := collected_foldl hds
    obtain ⟨hout, hcount, hzero⟩ := hcollected.regrouped.unique hregrouped hcollected.bits_lt hbits
      (byte_lt _) (byte_lt _)
    have hdata : (ds.foldl collect (0, 0, [])).2.2 = data :=
      List.map_injective_iff.mpr (fun _ _ h => UInt8.toNat_inj.mp h) hout
    rw [base32Decode, foldlM_digitText hds, Option.bind_some, if_neg, hdata]
    rintro ⟨-, hne⟩
    refine hne (UInt64.toNat_inj.mp ?_)
    rw [toNat_and_mask _ _ hcollected.bits_lt, hzero]
    rfl

end Decode

section Encode

theorem base32Char_eq (x : UInt64) : base32Char x = base32Alphabet.getD (x.toNat % 2 ^ 5) 0 := by
  have hand : (x &&& 0x1f).toNat = x.toNat % 2 ^ 5 := by
    rw [UInt64.toNat_and]
    exact Nat.and_two_pow_sub_one_eq_mod x.toNat 5
  rw [base32Char, hand]

/-- The state of the encoder behind the bytes `data`. -/
structure Spread (data : Bytes) (buffer : UInt64) (bits : ℕ) (out : Text) : Prop where
  digits : ∃ ds, Digits ds ∧ out = digitText ds ∧
    Regrouped 8 5 (data.map UInt8.toNat) ds bits (buffer.toNat % 2 ^ bits)

theorem spread_drain {data : Bytes} {buffer : UInt64} {bits : ℕ} {out : Text} (hbits : bits < 64)
    (h : Spread data buffer bits out) :
    (base32Drain buffer bits out).1 < 5 ∧
      Spread data buffer (base32Drain buffer bits out).1 (base32Drain buffer bits out).2 := by
  fun_induction base32Drain buffer bits out with
  | case1 bits out hfull ih =>
    refine ih (by omega) ?_
    obtain ⟨ds, hds, rfl, hregrouped⟩ := h.digits
    have hchar : base32Char (buffer >>> UInt64.ofNat (bits - 5)) =
        base32Alphabet.getD (buffer.toNat / 2 ^ (bits - 5) % 2 ^ 5) 0 := by
      rw [base32Char_eq, UInt64.toNat_shiftRight, Nat.shiftRight_eq_div_pow, UInt64.toNat_ofNat',
        Nat.mod_eq_of_lt (by omega : bits - 5 < 2 ^ 64),
        Nat.mod_eq_of_lt (by omega : bits - 5 < 64)]
    refine ⟨ds ++ [buffer.toNat / 2 ^ (bits - 5) % 2 ^ 5], digits_concat hds ?_, ?_, ?_⟩
    · exact Nat.mod_lt _ (by decide)
    · rw [hchar, digitText_concat]
    · exact Regrouped.emit_word (by rwa [Nat.sub_add_cancel hfull])
  | case2 bits out hfull => exact ⟨by omega, h⟩

theorem spread_step {data : Bytes} {st : UInt64 × ℕ × Text} (hbits : st.2.1 < 5)
    (h : Spread data st.1 st.2.1 st.2.2) (b : UInt8) :
    (base32EncodeStep st b).2.1 < 5 ∧ Spread (data ++ [b]) (base32EncodeStep st b).1
      (base32EncodeStep st b).2.1 (base32EncodeStep st b).2.2 := by
  obtain ⟨ds, hds, hout, hregrouped⟩ := h.digits
  refine spread_drain (by omega) ⟨ds, hds, hout, ?_⟩
  have hfed := hregrouped.feed_word (W := 64) b.toNat_lt (by omega)
  have hbuffer : ((st.1 <<< 8) ||| b.toUInt64).toNat =
      (st.1.toNat * 2 ^ 8 % 2 ^ 64) ||| b.toNat := by
    rw [UInt64.toNat_or, UInt64.toNat_shiftLeft, UInt8.toNat_toUInt64, Nat.shiftLeft_eq]
    rfl
  rw [hbuffer, List.map_append, List.map_singleton]
  exact hfed

theorem spread_foldl (data : Bytes) :
    (data.foldl base32EncodeStep (0, 0, [])).2.1 < 5 ∧
      Spread data (data.foldl base32EncodeStep (0, 0, [])).1
        (data.foldl base32EncodeStep (0, 0, [])).2.1
        (data.foldl base32EncodeStep (0, 0, [])).2.2 := by
  induction data using List.reverseRecOn with
  | nil => exact ⟨by decide, [], digits_nil, rfl, Regrouped.nil 8 5⟩
  | append_singleton data b ih =>
    rw [List.foldl_append]
    exact spread_step ih.1 ih.2 b

theorem exists_base32Encode (data : Bytes) :
    ∃ ds bits, Digits ds ∧ base32Encode data = digitText ds ∧ bits < 8 ∧
      Regrouped 5 8 ds (data.map UInt8.toNat) bits 0 := by
  obtain ⟨hbits, ⟨ds, hds, hout, hregrouped⟩⟩ := spread_foldl data
  rw [base32Encode]
  generalize data.foldl base32EncodeStep (0, 0, []) = st at hbits hout hregrouped
  obtain ⟨buffer, bits, out⟩ := st
  dsimp only at hbits hout hregrouped ⊢
  subst hout
  split_ifs with hpos
  · have hlast : (buffer <<< UInt64.ofNat (5 - bits)).toNat % 2 ^ 5 =
        buffer.toNat % 2 ^ bits * 2 ^ (5 - bits) := by
      have hpow : 2 ^ 5 = 2 ^ bits * 2 ^ (5 - bits) := by
        rw [← pow_add, Nat.add_sub_cancel' (by omega)]
      rw [UInt64.toNat_shiftLeft, UInt64.toNat_ofNat', Nat.shiftLeft_eq,
        Nat.mod_eq_of_lt (by omega : 5 - bits < 2 ^ 64),
        Nat.mod_eq_of_lt (by omega : 5 - bits < 64),
        Nat.mod_mod_of_dvd _ (pow_dvd_pow 2 (by decide : 5 ≤ 64)), hpow, Nat.mul_mod_mul_right]
    refine ⟨ds ++ [buffer.toNat % 2 ^ bits * 2 ^ (5 - bits)], 5 - bits, digits_concat hds ?_, ?_,
      by omega, hregrouped.pad (by omega)⟩
    · rw [← hlast]
      exact Nat.mod_lt _ (by decide)
    · rw [base32Char_eq, hlast, digitText_concat]
  · obtain rfl : bits = 0 := by omega
    exact ⟨ds, 0, hds, rfl, by decide, hregrouped.symm_of_empty⟩

end Encode

theorem base32Decode_base32Encode (data : Bytes) :
    base32Decode (base32Encode data) = some data := by
  obtain ⟨ds, bits, hds, htext, hbits, hregrouped⟩ := exists_base32Encode data
  exact base32Decode_eq_some_iff.mpr ⟨ds, bits, hds, htext, hbits, hregrouped⟩

/-- Texts of one length that are read as the same bytes are the same. -/
theorem base32Decode_injective {s t : Text} {data : Bytes} (hlen : s.length = t.length)
    (hs : base32Decode s = some data) (ht : base32Decode t = some data) : s = t := by
  obtain ⟨ds, bits, hds, rfl, -, hregrouped⟩ := base32Decode_eq_some_iff.mp hs
  obtain ⟨es, bits', hes, rfl, -, hregrouped'⟩ := base32Decode_eq_some_iff.mp ht
  have hcount : ds.length = es.length := by simpa [digitText] using hlen
  obtain rfl : bits = bits' := by
    have h := hregrouped.length_eq
    have h' := hregrouped'.length_eq
    omega
  rw [hregrouped.injective hregrouped' (by decide) hds hes]

theorem exists_ok_of_bind {ε α β : Type} {x : Except ε α} {f : α → Except ε β} {b : β}
    (h : x >>= f = .ok b) : ∃ a, x = .ok a ∧ f a = .ok b := by
  cases x with
  | error e => cases h
  | ok a => exact ⟨a, rfl, h⟩

theorem secret_of_parse {key network secret : Text} {expiry : UInt64}
    (h : parse key = .ok (network, expiry, secret)) :
    secret.length = secretChars ∧
      ∃ decoded, base32Decode secret = some decoded ∧ decoded.length = secretLen := by
  unfold parse at h
  obtain ⟨rest, -, h⟩ := exists_ok_of_bind h
  obtain ⟨⟨network, tail⟩, -, h⟩ := exists_ok_of_bind h
  obtain ⟨⟨expiry, text⟩, -, h⟩ := exists_ok_of_bind h
  obtain ⟨-, -, h⟩ := exists_ok_of_bind h
  obtain ⟨seconds, -, h⟩ := exists_ok_of_bind h
  split_ifs at h with hlen
  obtain ⟨decoded, hdecoded, h⟩ := exists_ok_of_bind h
  split_ifs at h with hsize
  simp only [Except.ok.injEq, Prod.mk.injEq] at h
  obtain ⟨-, -, rfl⟩ := h
  refine ⟨not_not.mp hlen, decoded, ?_, not_not.mp hsize⟩
  cases hdecode : base32Decode text with
  | none =>
    rw [hdecode] at hdecoded
    cases hdecoded
  | some bytes =>
    rw [hdecode] at hdecoded
    exact congrArg some (Except.ok.inj hdecoded)

/-- What is encoded is decoded again, and no two secrets of accepted keys decode to the same
bytes. -/
theorem secret_text_canonical :
    (∀ data, base32Decode (base32Encode data) = some data) ∧
    ∀ {key key' network network' secret secret' : Text} {expiry expiry' : UInt64},
      parse key = .ok (network, expiry, secret) → parse key' = .ok (network', expiry', secret') →
        base32Decode secret = base32Decode secret' → secret = secret' := by
  refine ⟨base32Decode_base32Encode, fun hparse hparse' hsame => ?_⟩
  obtain ⟨hlen, decoded, hdecode, -⟩ := secret_of_parse hparse
  obtain ⟨hlen', -⟩ := secret_of_parse hparse'
  exact base32Decode_injective (hlen.trans hlen'.symm) hdecode (hsame ▸ hdecode)

/-- The secret 1, as it is written for a key and as the encoder writes it. -/
theorem secret_text_canonical_one :
    base32Decode (base32Encode (.replicate 31 0 ++ [1])) = some (.replicate 31 0 ++ [1]) ∧
      ascii "AAAAAAAAAAAAAAAAAAAAAAAAAAAAAAAAAAAAAAAAAAAAAAAAAAAQ" =
        base32Encode (.replicate 31 0 ++ [1]) := by
  have hlab : parse (ascii "lrk-lab-0-AAAAAAAAAAAAAAAAAAAAAAAAAAAAAAAAAAAAAAAAAAAAAAAAAAAQ") =
      .ok (ascii "lab", 0, ascii "AAAAAAAAAAAAAAAAAAAAAAAAAAAAAAAAAAAAAAAAAAAAAAAAAAAQ") := by
    decide +kernel
  have hlan : parse (ascii "lrk-lan-7-" ++ base32Encode (.replicate 31 0 ++ [1])) =
      .ok (ascii "lan", 7, base32Encode (.replicate 31 0 ++ [1])) := by
    decide +kernel
  exact ⟨secret_text_canonical.1 _, secret_text_canonical.2 hlab hlan (by decide +kernel)⟩

end AuthKey

end Rill
