import Rill.BgpWire

/-!
# Where the decoder of BGP messages panics

Everything that the decoder slices is checked before, with one exception: the octets of a prefix
are copied into an array of sixteen before the length of the prefix is looked at. So the decoder
panics where it comes by a length above 128 whose octets are all there, and nowhere else.
-/

namespace Rill.Bgp
open Attempt

theorem safe_u16At {b : Bytes} {i : ℕ} {β : Type} {f : UInt16 → Attempt WireError β}
    {Q : β → Prop} (hi : i + 2 ≤ b.length) (h : ∀ x, Safe (f x) Q) : Safe (u16At b i >>= f) Q := by
  rw [u16At, slice_eq (Nat.le_add_right _ _) hi]
  exact h _

theorem safe_u32At {b : Bytes} {i : ℕ} {β : Type} {f : UInt32 → Attempt WireError β}
    {Q : β → Prop} (hi : i + 4 ≤ b.length) (h : ∀ x, Safe (f x) Q) : Safe (u32At b i >>= f) Q := by
  rw [u32At, slice_eq (Nat.le_add_right _ _) hi]
  exact h _

theorem safe_ipv4At {b : Bytes} {i : ℕ} {β : Type} {f : BitVec 32 → Attempt WireError β}
    {Q : β → Prop} (hi : i + 4 ≤ b.length) (h : ∀ x, Safe (f x) Q) : Safe (ipv4At b i >>= f) Q := by
  rw [ipv4At, slice_eq (Nat.le_add_right _ _) hi]
  exact h _

theorem safe_decodeCapability {clen : UInt8} {cvalue : Bytes} (h : 2 ≤ cvalue.length) :
    Safe (decodeCapability clen cvalue) fun _ => True := by
  refine safe_index (by omega) fun code => ?_
  split
  · exact safe_u16At (by omega) fun afi => safe_index (by omega) fun safi => trivial
  split
  · trivial
  split
  · exact safe_u32At (by omega) fun asn => trivial
  · trivial

theorem safe_readCapability : SafeItem readCapability := by
  intro caps
  refine safe_ensure fun hlen => safe_index (by omega) fun clen => ?_
  refine safe_ensure fun hclen => ?_
  refine safe_slice (by omega) hclen fun cvalue hcvalue => ?_
  refine safe_sliceFrom hclen fun ctail hctail => ?_
  refine (safe_decodeCapability (by omega)).bind fun cap _ => ?_
  show ctail.length < caps.length
  omega

theorem safe_readParam : SafeItem readParam := by
  intro rest
  refine safe_ensure fun hlen => safe_index (by omega) fun plen => ?_
  refine safe_ensure fun hplen => ?_
  refine safe_slice (by omega) hplen fun value hvalue => ?_
  refine safe_sliceFrom hplen fun tail htail => ?_
  refine safe_index (by omega) fun ty => ?_
  have hlt : tail.length < rest.length := by omega
  split
  · refine safe_sliceFrom (by omega) fun caps _ => ?_
    exact (safe_of_ne_panics (safe_readCapability.readAll_ne_panics caps)).bind fun _ _ => hlt
  · exact hlt

theorem decodeOpen_ne_panics (body : Bytes) : decodeOpen body ≠ .panics := by
  have hsafe : Safe (decodeOpen body) fun _ => True := by
    refine safe_ensure fun hlen => ?_
    refine safe_u16At (by omega) fun myAs => safe_u16At (by omega) fun holdTime => ?_
    refine safe_ipv4At (by omega) fun bgpId => safe_index (by omega) fun optLen => ?_
    refine safe_ensure fun hopt => safe_slice (by omega) hopt fun rest _ => ?_
    exact (safe_of_ne_panics (safe_readParam.readAll_ne_panics rest)).bind fun _ _ => trivial
  exact hsafe.ne_panics

theorem safe_readSegment (wide : Bool) : SafeItem (readSegment wide) := by
  intro buf
  refine safe_ensure fun hlen => ?_
  refine safe_index (by omega) fun kind => safe_index (by omega) fun count => ?_
  refine safe_ensure fun hcount => ?_
  refine safe_slice (by omega) hcount fun asns _ => ?_
  refine safe_sliceFrom hcount fun rest hrest => ?_
  show rest.length < buf.length
  omega

theorem decodeSegmentsExact_ne_panics (buf : Bytes) (wide : Bool) :
    decodeSegmentsExact buf wide ≠ .panics := (safe_readSegment wide).readAll_ne_panics buf

theorem safe_decodeNextHop (bytes : Bytes) : Safe (decodeNextHop bytes) fun _ => True := by
  unfold decodeNextHop
  split
  · exact safe_ipv4At (by omega) fun _ => trivial
  split
  · refine safe_slice (by omega) (by omega) fun bits hbits => ?_
    split
    · exact safe_ipv4At (by omega) fun _ => trivial
    · trivial
  · trivial

theorem safe_attrLen {ext : Bool} {buf : Bytes} (h : (if ext then 4 else 3) ≤ buf.length) :
    Safe (attrLen ext buf) fun _ => True := by
  cases ext with
  | true => exact safe_u16At h fun _ => trivial
  | false => exact safe_index h fun _ => trivial

theorem safe_splitAttr : SafeItem splitAttr := by
  intro buf
  refine safe_ensure fun hlen => ?_
  refine safe_index (by omega) fun flags => safe_index (by omega) fun ty => ?_
  refine safe_ensure fun hhdr => ?_
  refine (safe_attrLen hhdr).bind fun len _ => safe_ensure fun hle => ?_
  refine safe_slice (by omega) hle fun value _ => ?_
  refine safe_sliceFrom hle fun rest hrest => ?_
  show rest.length < buf.length
  split at hrest <;> omega

theorem consumes_readAttr : Consumes readAttr := by
  intro buf item rest h
  obtain ⟨⟨⟨flags, ty, value⟩, rest'⟩, hsplit, h⟩ := bind_eq_ok.mp h
  obtain ⟨item', -, h⟩ := bind_eq_ok.mp h
  obtain ⟨-, rfl⟩ := Prod.mk.inj (Attempt.ok.inj h)
  exact safe_splitAttr.consumes _ _ _ hsplit

/-! ## Prefixes -/

/-- A length above 128, with all of its octets behind it. -/
def OverlongAt : Bytes → Prop
  | [] => False
  | bits :: rest => 128 < bits.toNat ∧ octets bits ≤ rest.length

/-- The loop over a field of prefixes comes by such a length. -/
def Overlong (v4 : Bool) (buf : Bytes) : Prop :=
  ∃ rest, Visits (readNlri v4) buf rest ∧ OverlongAt rest

theorem octets_le_sixteen_iff (bits : UInt8) : octets bits ≤ 16 ↔ bits.toNat ≤ 128 := by
  unfold octets
  split <;> omega

theorem consumes_readNlri (v4 : Bool) : Consumes (readNlri v4) := by
  intro buf p rest h
  obtain ⟨bits, -, h⟩ := bind_eq_ok.mp h
  obtain ⟨hle, h⟩ := ensure_bind_eq_ok.mp h
  obtain ⟨rear, -, h⟩ := bind_eq_ok.mp h
  obtain ⟨front, -, h⟩ := bind_eq_ok.mp h
  obtain ⟨p', -, h⟩ := bind_eq_ok.mp h
  rw [sliceFrom_eq hle] at h
  obtain ⟨-, rfl⟩ := Prod.mk.inj (Attempt.ok.inj h)
  rw [List.length_drop]
  omega

theorem readNlri_eq_panics_iff {v4 : Bool} {buf : Bytes} (hbuf : buf ≠ []) :
    readNlri v4 buf = .panics ↔ OverlongAt buf := by
  cases buf with
  | nil => exact absurd rfl hbuf
  | cons bits rest =>
    rw [readNlri, index_zero, ok_bind, ensure_bind_eq_panics, OverlongAt, ← Nat.not_le,
      ← octets_le_sixteen_iff, and_comm, List.length_cons, Nat.add_comm 1, Nat.add_le_add_iff_right]
    refine and_congr_left fun hle => ?_
    by_cases h16 : octets bits ≤ 16
    · refine iff_of_false ?_ (not_not.mpr h16)
      rw [sliceFrom_eq (by simpa using h16), ok_bind,
        slice_eq (by omega) (by rw [List.length_cons]; omega), ok_bind]
      refine ((safe_of_ne_panics (ofOption_ne_panics _ _)).bind fun p _ => ?_ :
        Safe _ fun _ => True).ne_panics
      exact safe_sliceFrom (by rw [List.length_cons]; omega) fun _ _ => trivial
    · refine iff_of_true ?_ h16
      rw [sliceFrom, if_neg (by simpa using h16)]
      rfl

theorem readNlris_eq_panics_iff {buf : Bytes} {v4 : Bool} :
    readNlris buf v4 = .panics ↔ Overlong v4 buf := by
  rw [readNlris, readAll_eq_panics_iff (consumes_readNlri v4)]
  refine exists_congr fun rest => and_congr_right fun _ => ?_
  constructor
  · rintro ⟨hne, hrest⟩
    exact (readNlri_eq_panics_iff hne).mp hrest
  · intro hrest
    have hne : rest ≠ [] := by
      rintro rfl
      exact hrest
    exact ⟨hne, (readNlri_eq_panics_iff hne).mpr hrest⟩

/-! ## Attributes -/

/-- The field of prefixes of a multiprotocol attribute, and whether they are read as IPv4. -/
def mpPrefixes (ty : UInt8) (v : Bytes) : Option (Bool × Bytes) :=
  let hop := (v.getD 3 0).toNat
  let v4 := UInt16.ofNat (readBE (v.take 2)) == afiIpv4
  if ty = 14 then
    if (hop = 4 ∨ hop = 16 ∨ hop = 32) ∧ 5 + hop ≤ v.length then some (v4, v.drop (5 + hop))
    else none
  else if ty = 15 then
    if 3 ≤ v.length then some (v4, v.drop 3) else none
  else none

theorem u16At_eq {b : Bytes} {i : ℕ} (h : i + 2 ≤ b.length) :
    u16At b i = .ok (UInt16.ofNat (readBE (field i 2 b))) := by
  rw [u16At, slice_eq (by omega) h, Nat.add_sub_cancel_left]
  rfl

theorem u16At_zero {b : Bytes} (h : 2 ≤ b.length) :
    u16At b 0 = .ok (UInt16.ofNat (readBE (b.take 2))) := u16At_eq h

theorem exists_decodeNextHop {bytes : Bytes}
    (h : bytes.length = 4 ∨ bytes.length = 16 ∨ bytes.length = 32) :
    ∃ hop, decodeNextHop bytes = .ok hop := by
  cases hhop : decodeNextHop bytes with
  | ok hop => exact ⟨hop, rfl⟩
  | panics => exact absurd hhop (safe_decodeNextHop bytes).ne_panics
  | error e =>
    exfalso
    unfold decodeNextHop at hhop
    split at hhop
    · rw [ipv4At, slice_eq (by omega) (by omega)] at hhop
      nomatch hhop
    rw [if_pos (by omega), slice_eq (by omega) (by omega), ok_bind] at hhop
    split at hhop
    · rw [ipv4At, slice_eq (by omega) (by simp; omega)] at hhop
      nomatch hhop
    · nomatch hhop

theorem decodeNextHop_of_length_ne {bytes : Bytes}
    (h : ¬ (bytes.length = 4 ∨ bytes.length = 16 ∨ bytes.length = 32)) :
    decodeNextHop bytes = .error .badUpdate := by
  rw [decodeNextHop, if_neg (by omega), if_neg (by omega)]

theorem bind_ok_eq_panics {α β : Type} {x : Attempt WireError α} {f : α → β} :
    (x >>= fun a => .ok (f a)) = .panics ↔ x = .panics := by
  rw [bind_eq_panics]
  exact or_iff_left fun ⟨_, _, h⟩ => nomatch h

theorem decodeMpReach_eq (v : Bytes) : decodeMpReach v = (do
    ensure (3 ≤ v.length) .truncated
    ensure (4 ≤ v.length) .truncated
    ensure (5 + (v.getD 3 0).toNat ≤ v.length) .truncated
    let hop ← decodeNextHop (field 4 (v.getD 3 0).toNat v)
    let nlri ← readNlris (v.drop (5 + (v.getD 3 0).toNat))
      (UInt16.ofNat (readBE (v.take 2)) == afiIpv4)
    .ok (.mpReach (UInt16.ofNat (readBE (v.take 2))) (v.getD 2 0) hop nlri)) := by
  unfold decodeMpReach
  by_cases h3 : 3 ≤ v.length
  swap
  · rw [ensure_bind, ensure_bind, if_neg h3, if_neg h3]
  rw [ensure_bind_of h3, ensure_bind_of h3, u16At_zero (by omega), ok_bind, index_eq h3, ok_bind]
  by_cases h4 : 4 ≤ v.length
  swap
  · rw [ensure_bind, ensure_bind, if_neg h4, if_neg h4]
  rw [ensure_bind_of h4, ensure_bind_of h4, index_eq h4, ok_bind,
    List.getD_eq_getElem _ _ h3, List.getD_eq_getElem _ _ h4, Nat.add_right_comm 4]
  by_cases h5 : 5 + v[3].toNat ≤ v.length
  swap
  · rw [ensure_bind, ensure_bind, if_neg h5, if_neg h5]
  rw [ensure_bind_of h5, ensure_bind_of h5, slice_eq (by omega) (by omega), ok_bind,
    Nat.add_sub_cancel_left]
  refine congrArg _ (funext fun hop => ?_)
  rw [sliceFrom_eq h5, ok_bind]

theorem decodeMpReach_eq_panics_iff {v : Bytes} : decodeMpReach v = .panics ↔
    ∃ v4 f, mpPrefixes 14 v = some (v4, f) ∧ Overlong v4 f := by
  rw [decodeMpReach_eq, ensure_bind_eq_panics, ensure_bind_eq_panics, ensure_bind_eq_panics]
  simp only [mpPrefixes, if_true]
  generalize (v.getD 3 0).toNat = n
  by_cases hlen : 5 + n ≤ v.length
  · have hfield : (field 4 n v).length = n := by
      rw [field, List.length_take, List.length_drop]
      omega
    by_cases hn : n = 4 ∨ n = 16 ∨ n = 32
    · obtain ⟨hop, hhop⟩ := exists_decodeNextHop (hfield.symm ▸ hn)
      rw [hhop, ok_bind, bind_ok_eq_panics, readNlris_eq_panics_iff, if_pos ⟨hn, hlen⟩]
      constructor
      · rintro ⟨-, -, -, hover⟩
        exact ⟨_, _, rfl, hover⟩
      · rintro ⟨_, _, heq, hover⟩
        cases heq
        exact ⟨by omega, by omega, hlen, hover⟩
    · rw [decodeNextHop_of_length_ne (hfield.symm ▸ hn), if_neg fun h => hn h.1]
      refine iff_of_false (fun h => ?_) ?_
      · cases h.2.2.2
      · rintro ⟨_, _, ⟨⟩, _⟩
  · rw [if_neg fun h => hlen h.2]
    refine iff_of_false (fun h => hlen h.2.2.1) ?_
    rintro ⟨_, _, ⟨⟩, _⟩

theorem decodeMpUnreach_eq_panics_iff {v : Bytes} : decodeMpUnreach v = .panics ↔
    ∃ v4 f, mpPrefixes 15 v = some (v4, f) ∧ Overlong v4 f := by
  have hty : ¬ (15 : UInt8) = 14 := by decide
  rw [decodeMpUnreach, ensure_bind_eq_panics]
  simp only [mpPrefixes, if_neg hty, if_true]
  by_cases h3 : 3 ≤ v.length
  · rw [u16At_zero (by omega), ok_bind, index_eq h3, ok_bind, sliceFrom_eq h3, ok_bind,
      bind_ok_eq_panics, readNlris_eq_panics_iff, if_pos h3]
    constructor
    · rintro ⟨-, hover⟩
      exact ⟨_, _, rfl, hover⟩
    · rintro ⟨_, _, heq, hover⟩
      cases heq
      exact ⟨h3, hover⟩
  · rw [if_neg h3]
    exact iff_of_false (fun h => h3 h.1) fun ⟨_, _, h, _⟩ => nomatch h

theorem decodeAttr_eq_panics_iff {flags ty : UInt8} {value : Bytes} :
    decodeAttr flags ty value = .panics ↔
      ∃ v4 f, mpPrefixes ty value = some (v4, f) ∧ Overlong v4 f := by
  by_cases h14 : ty = 14
  · subst h14
    exact bind_ok_eq_panics.trans decodeMpReach_eq_panics_iff
  by_cases h15 : ty = 15
  · subst h15
    exact bind_ok_eq_panics.trans decodeMpUnreach_eq_panics_iff
  refine iff_of_false ?_ ?_
  · refine (?_ : Safe (decodeAttr flags ty value) fun _ => True).ne_panics
    unfold decodeAttr
    split
    · exact safe_index (by omega) fun _ => trivial
    split
    · refine Safe.bind (P := fun _ => True) ?_ fun _ _ => trivial
      exact safe_orElse (safe_of_ne_panics (decodeSegmentsExact_ne_panics _ _))
        (safe_of_ne_panics (decodeSegmentsExact_ne_panics _ _))
    split
    · exact safe_ipv4At (by omega) fun _ => trivial
    split
    · split <;> trivial
    split
    · exact (safe_of_ne_panics (decodeSegmentsExact_ne_panics _ _)).bind fun _ _ => trivial
    split <;> trivial
  · rintro ⟨v4, f, h, -⟩
    rw [mpPrefixes, if_neg h14, if_neg h15] at h
    nomatch h

theorem readAttr_eq_panics_iff {buf : Bytes} : readAttr buf = .panics ↔
    ∃ flags ty value rest, splitAttr buf = .ok ((flags, ty, value), rest) ∧
      ∃ v4 f, mpPrefixes ty value = some (v4, f) ∧ Overlong v4 f := by
  rw [readAttr, bind_eq_panics, or_iff_right (safe_splitAttr buf).ne_panics]
  constructor
  · rintro ⟨⟨⟨flags, ty, value⟩, rest⟩, hsplit, h⟩
    exact ⟨flags, ty, value, rest, hsplit, decodeAttr_eq_panics_iff.mp (bind_ok_eq_panics.mp h)⟩
  · rintro ⟨flags, ty, value, rest, hsplit, h⟩
    exact ⟨_, hsplit, bind_ok_eq_panics.mpr (decodeAttr_eq_panics_iff.mpr h)⟩

/-! ## Messages -/

def withdrawnLen (body : Bytes) : ℕ := readBE (body.take 2)

def attrsLen (body : Bytes) : ℕ := readBE (field (2 + withdrawnLen body) 2 body)

theorem toNat_ofNat_readBE {b : Bytes} (h : b.length ≤ 2) :
    (UInt16.ofNat (readBE b)).toNat = readBE b := by
  refine UInt16.toNat_ofNat_of_lt' (lt_of_lt_of_le (readBE_lt b) ?_)
  exact Nat.pow_le_pow_right (by omega) h

theorem decodeUpdate_eq (body : Bytes) : decodeUpdate body = (do
    ensure (4 ≤ body.length) .truncated
    ensure (4 + withdrawnLen body ≤ body.length) .truncated
    let withdrawn ← readNlris (field 2 (withdrawnLen body) body) true
    ensure (4 + withdrawnLen body + attrsLen body ≤ body.length) .truncated
    let attrs ← decodeAttrs (field (4 + withdrawnLen body) (attrsLen body) body)
    let announced ← readNlris (body.drop (4 + withdrawnLen body + attrsLen body)) true
    .ok (.update { withdrawn, attrs, announced })) := by
  unfold decodeUpdate
  by_cases h4 : 4 ≤ body.length
  swap
  · rw [ensure_bind, ensure_bind, if_neg h4, if_neg h4]
  have hwlen : (UInt16.ofNat (readBE (body.take 2))).toNat = withdrawnLen body :=
    toNat_ofNat_readBE (List.length_take_le _ _)
  have halen : (UInt16.ofNat (readBE (field (2 + withdrawnLen body) 2 body))).toNat =
      attrsLen body := toNat_ofNat_readBE (List.length_take_le _ _)
  rw [ensure_bind_of h4, ensure_bind_of h4, u16At_zero (by omega), ok_bind, hwlen,
    (by omega : 2 + withdrawnLen body + 2 = 4 + withdrawnLen body)]
  by_cases hw : 4 + withdrawnLen body ≤ body.length
  swap
  · rw [ensure_bind, ensure_bind, if_neg hw, if_neg hw]
  rw [ensure_bind_of hw, ensure_bind_of hw, slice_eq (by omega) (by omega), ok_bind,
    Nat.add_sub_cancel_left]
  refine congrArg _ (funext fun withdrawn => ?_)
  rw [u16At_eq (by omega), ok_bind, halen]
  by_cases ha : 4 + withdrawnLen body + attrsLen body ≤ body.length
  swap
  · rw [ensure_bind, ensure_bind, if_neg ha, if_neg ha]
  rw [ensure_bind_of ha, ensure_bind_of ha, slice_eq (by omega) ha, ok_bind,
    Nat.add_sub_cancel_left]
  refine congrArg _ (funext fun attrs => ?_)
  rw [sliceFrom_eq ha, ok_bind]

/-- The fields of prefixes that the decoder of an UPDATE comes to, and whether it reads them as
IPv4: it comes to a field when everything before it has been read. -/
inductive PrefixField (body : Bytes) : Bool → Bytes → Prop where
  | withdrawn (hlen : 4 + withdrawnLen body ≤ body.length) :
      PrefixField body true (field 2 (withdrawnLen body) body)
  | inAttr {withdrawn : List Prefix} {buf rest value f : Bytes} {flags ty : UInt8} {v4 : Bool}
      (hlen : 4 + withdrawnLen body + attrsLen body ≤ body.length)
      (hwithdrawn : readNlris (field 2 (withdrawnLen body) body) true = .ok withdrawn)
      (hvisits : Visits readAttr (field (4 + withdrawnLen body) (attrsLen body) body) buf)
      (hsplit : splitAttr buf = .ok ((flags, ty, value), rest))
      (hprefixes : mpPrefixes ty value = some (v4, f)) : PrefixField body v4 f
  | announced {withdrawn : List Prefix} {attrs : List PathAttr}
      (hlen : 4 + withdrawnLen body + attrsLen body ≤ body.length)
      (hwithdrawn : readNlris (field 2 (withdrawnLen body) body) true = .ok withdrawn)
      (hattrs : decodeAttrs (field (4 + withdrawnLen body) (attrsLen body) body) = .ok attrs) :
      PrefixField body true (body.drop (4 + withdrawnLen body + attrsLen body))

theorem decodeAttrs_eq_panics_iff {buf : Bytes} : decodeAttrs buf = .panics ↔
    ∃ buf' flags ty value rest v4 f, Visits readAttr buf buf' ∧
      splitAttr buf' = .ok ((flags, ty, value), rest) ∧ mpPrefixes ty value = some (v4, f) ∧
        Overlong v4 f := by
  rw [decodeAttrs, bind_ok_eq_panics, readAll_eq_panics_iff consumes_readAttr]
  constructor
  · rintro ⟨buf', hvisits, -, hpanics⟩
    obtain ⟨flags, ty, value, rest, hsplit, v4, f, hf, hover⟩ := readAttr_eq_panics_iff.mp hpanics
    exact ⟨buf', flags, ty, value, rest, v4, f, hvisits, hsplit, hf, hover⟩
  · rintro ⟨buf', flags, ty, value, rest, v4, f, hvisits, hsplit, hf, hover⟩
    refine ⟨buf', hvisits, ?_, ?_⟩
    · rintro rfl
      nomatch hsplit
    · exact readAttr_eq_panics_iff.mpr ⟨flags, ty, value, rest, hsplit, v4, f, hf, hover⟩

theorem decodeUpdate_eq_panics_iff {body : Bytes} : decodeUpdate body = .panics ↔
    4 ≤ body.length ∧ ∃ v4 f, PrefixField body v4 f ∧ Overlong v4 f := by
  rw [decodeUpdate_eq, ensure_bind_eq_panics]
  refine and_congr_right fun h4 => ?_
  rw [ensure_bind_eq_panics, bind_eq_panics, readNlris_eq_panics_iff]
  simp only [ensure_bind_eq_panics]
  simp only [bind_eq_panics, readNlris_eq_panics_iff, decodeAttrs_eq_panics_iff, reduceCtorEq,
    and_false, exists_false, or_false]
  constructor
  · rintro ⟨hw, hover | ⟨withdrawn, hwithdrawn, ha, hattr | ⟨attrs, hattrs, hover⟩⟩⟩
    · exact ⟨_, _, .withdrawn hw, hover⟩
    · obtain ⟨buf, flags, ty, value, rest, v4, f, hvisits, hsplit, hf, hover⟩ := hattr
      exact ⟨v4, f, .inAttr ha hwithdrawn hvisits hsplit hf, hover⟩
    · exact ⟨_, _, .announced ha hwithdrawn hattrs, hover⟩
  · rintro ⟨v4, f, hfield, hover⟩
    cases hfield with
    | withdrawn hw => exact ⟨hw, Or.inl hover⟩
    | inAttr ha hwithdrawn hvisits hsplit hf =>
      refine ⟨by omega, Or.inr ⟨_, hwithdrawn, ha, Or.inl ?_⟩⟩
      exact ⟨_, _, _, _, _, _, _, hvisits, hsplit, hf, hover⟩
    | announced ha hwithdrawn hattrs =>
      exact ⟨by omega, Or.inr ⟨_, hwithdrawn, ha, Or.inr ⟨_, hattrs, hover⟩⟩⟩

theorem decodeBody_eq_panics_iff {ty : UInt8} {body : Bytes} : decodeBody ty body = .panics ↔
    ty = typeUpdate ∧ 4 ≤ body.length ∧ ∃ v4 f, PrefixField body v4 f ∧ Overlong v4 f := by
  by_cases hty : ty = typeUpdate
  · subst hty
    rw [← decodeUpdate_eq_panics_iff]
    exact ⟨fun h => ⟨rfl, h⟩, And.right⟩
  refine iff_of_false ?_ fun h => hty h.1
  unfold decodeBody
  split
  · exact (nomatch ·)
  split
  · exact decodeOpen_ne_panics body
  split
  · refine (?_ : Safe (decodeNotification body) fun _ => True).ne_panics
    refine (safe_of_ne_panics (ofOption_ne_panics _ _)).bind fun code _ => ?_
    exact (safe_of_ne_panics (ofOption_ne_panics _ _)).bind fun _ _ => trivial
  split
  · refine (?_ : Safe (decodeRouteRefresh body) fun _ => True).ne_panics
    refine safe_ensure fun hlen => safe_u16At (by omega) fun afi => ?_
    exact safe_index (by omega) fun _ => trivial
  · exact (nomatch ·)

/-- The header of a message that is a single frame. -/
def HeaderOk (buf : Bytes) : Prop :=
  headerLen ≤ buf.length ∧ (buf.take 16).all (· == 0xff) = true ∧
    readBE (field 16 2 buf) = buf.length

theorem decode_eq (buf : Bytes) : decode buf = (do
    ensure (headerLen ≤ buf.length) .truncated
    ensure ((buf.take 16).all (· == 0xff) = true) .badMarker
    ensure (readBE (field 16 2 buf) = buf.length)
      (.badLength (UInt16.ofNat (readBE (field 16 2 buf))))
    decodeBody (buf.getD 18 0) (buf.drop headerLen)) := by
  unfold decode
  by_cases hlen : headerLen ≤ buf.length
  swap
  · rw [ensure_bind, ensure_bind, if_neg hlen, if_neg hlen]
  have h19 : 19 ≤ buf.length := hlen
  rw [ensure_bind_of hlen, ensure_bind_of hlen, slice_eq (by omega) (by omega), ok_bind,
    List.drop_zero, u16At_eq (by omega), ok_bind, sliceFrom_eq hlen, ok_bind, index_eq h19, ok_bind,
    List.getD_eq_getElem _ _ h19]
  have hfield : (UInt16.ofNat (readBE (field 16 2 buf))).toNat = readBE (field 16 2 buf) :=
    toNat_ofNat_readBE (List.length_take_le _ _)
  simp only [hfield, Nat.sub_zero]

/-- The decoder panics on an UPDATE that has an overlong prefix in a field it comes to. -/
def PanicFrame (buf : Bytes) : Prop :=
  HeaderOk buf ∧ buf.getD 18 0 = typeUpdate ∧
    ∃ v4 f, PrefixField (buf.drop headerLen) v4 f ∧ Overlong v4 f

theorem decode_eq_panics_iff {buf : Bytes} : decode buf = .panics ↔ PanicFrame buf := by
  rw [decode_eq, ensure_bind_eq_panics, ensure_bind_eq_panics, ensure_bind_eq_panics,
    decodeBody_eq_panics_iff, PanicFrame, HeaderOk]
  constructor
  · rintro ⟨hlen, hmarker, hfield, hty, -, hover⟩
    exact ⟨⟨hlen, hmarker, hfield⟩, hty, hover⟩
  · rintro ⟨⟨hlen, hmarker, hfield⟩, hty, v4, f, hf, hover⟩
    have h4 : 4 ≤ (buf.drop headerLen).length := by
      cases hf <;> omega
    exact ⟨hlen, hmarker, hfield, hty, h4, v4, f, hf, hover⟩

end Rill.Bgp
