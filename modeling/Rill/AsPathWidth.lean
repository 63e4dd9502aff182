import Rill.BgpStream

/-!
# The width of the AS numbers in an AS_PATH

The value of an AS_PATH does not say whether its AS numbers have two or four octets. The decoder
takes it for four octets where the bytes are a list of such segments, and for two octets only where
they are not. So a path of two-octet numbers is read as another one where its bytes happen to be
segments of four-octet numbers as well.
-/

namespace Rill.Bgp
open Attempt

section Segments

theorem readWords_flatMap (xs : List UInt32) : readWords 4 xs.length (xs.flatMap u32be) = xs := by
  induction xs with
  | nil => rfl
  | cons x xs ih =>
    rw [List.flatMap_cons, List.length_cons, readWords, List.take_left' (length_u32be x),
      List.drop_left' (length_u32be x), ih, ofNat_readBE_u32be]

theorem length_flatMap_u32be (xs : List UInt32) : (xs.flatMap u32be).length = 4 * xs.length := by
  induction xs with
  | nil => rfl
  | cons x xs ih =>
    rw [List.flatMap_cons, List.length_append, ih, length_u32be, List.length_cons]
    omega

def writeSegment (seg : Segment) : Bytes :=
  [if seg.set then asSet else asSequence, UInt8.ofNat seg.asns.length] ++ seg.asns.flatMap u32be

theorem writeSegments_eq (segs : List Segment) :
    writeSegments segs true = segs.flatMap writeSegment := by
  rfl

theorem toNat_ofNat_u8 {n : ℕ} (h : n ≤ 255) : (UInt8.ofNat n).toNat = n :=
  UInt8.toNat_ofNat_of_lt' (Nat.lt_succ_of_le h)

theorem readSegment_append {wide : Bool} (kind : UInt8) {count : UInt8} {asns : Bytes}
    (hlen : asns.length = count.toNat * if wide then 4 else 2) (rest : Bytes) :
    readSegment wide (kind :: count :: (asns ++ rest)) =
      .ok (⟨kind == asSet, readWords (if wide then 4 else 2) count.toNat asns⟩, rest) := by
  have hasns : (slice (kind :: count :: (asns ++ rest)) 2
      (2 + count.toNat * if wide then 4 else 2) : Attempt WireError Bytes) = .ok asns :=
    slice_append (a := [kind, count]) rfl (by rw [hlen]; rfl)
  have hrest : (sliceFrom (kind :: count :: (asns ++ rest))
      (2 + count.toNat * if wide then 4 else 2) : Attempt WireError Bytes) = .ok rest :=
    sliceFrom_append (a := kind :: count :: asns)
      (by rw [List.length_cons, List.length_cons, hlen]; omega)
  rw [readSegment, ensure_bind_of (by simp only [List.length_cons]; omega)]
  simp only [index_zero, index_succ, ok_bind]
  rw [ensure_bind_of (by simp only [List.length_cons, List.length_append, hlen]; omega), hasns,
    ok_bind, hrest, ok_bind]

theorem kind_beq_asSet (set : Bool) : ((if set then asSet else asSequence) == asSet) = set := by
  cases set <;> rfl

theorem readSegment_writeSegment {seg : Segment} (h : seg.asns.length ≤ 255) (rest : Bytes) :
    readSegment true (writeSegment seg ++ rest) = .ok (seg, rest) := by
  have hcount := toNat_ofNat_u8 h
  have hlen : (seg.asns.flatMap u32be).length =
      (UInt8.ofNat seg.asns.length).toNat * if true then 4 else 2 := by
    rw [length_flatMap_u32be, hcount, if_pos rfl, Nat.mul_comm]
  have hread : readSegment true (writeSegment seg ++ rest) = _ := readSegment_append _ hlen rest
  rw [hread, kind_beq_asSet, hcount, if_pos rfl, readWords_flatMap]

theorem decodeSegmentsExact_writeSegments {segs : List Segment}
    (h : ∀ seg ∈ segs, seg.asns.length ≤ 255) :
    decodeSegmentsExact (writeSegments segs true) true = .ok segs := by
  rw [writeSegments_eq]
  exact readAll_flatMap (safe_readSegment true).consumes writeSegment fun seg hseg rest =>
    readSegment_writeSegment (h seg hseg) rest

end Segments

abbrev asnLen (wide : Bool) : ℕ := if wide then 4 else 2

/-- Bytes that are whole segments: a kind, a count and that many AS numbers of `w` octets. -/
inductive Segmented (w : ℕ) : Bytes → Prop
  | nil : Segmented w []
  | cons (kind count : UInt8) {asns rest : Bytes} (hlen : asns.length = count.toNat * w)
      (hrest : Segmented w rest) : Segmented w (kind :: count :: (asns ++ rest))

theorem Segmented.count_le {w : ℕ} (kind count : UInt8) (tail : Bytes)
    (h : Segmented w (kind :: count :: tail)) : count.toNat * w ≤ tail.length := by
  cases h with
  | cons kind count hlen =>
    rw [List.length_append, hlen]
    exact Nat.le_add_right _ _

def segmentOctets (w : ℕ) (segs : List Segment) : ℕ :=
  (segs.map fun seg => 2 + seg.asns.length * w).sum

theorem length_readWords (w n : ℕ) (b : Bytes) : (readWords w n b).length = n := by
  induction n generalizing b with
  | zero => rfl
  | succ n ih => exact congrArg (· + 1) (ih _)

theorem readSegment_eq_ok {wide : Bool} {buf rest : Bytes} {seg : Segment}
    (h : readSegment wide buf = .ok (seg, rest)) :
    ∃ kind count asns, buf = kind :: count :: (asns ++ rest) ∧
      asns.length = count.toNat * asnLen wide ∧ seg.asns.length = count.toNat := by
  obtain ⟨hbuf, hread⟩ := ensure_bind_eq_ok.mp h
  match buf, hbuf with
  | kind :: count :: tail, _ =>
    simp only [index_zero, index_succ, ok_bind] at hread
    obtain ⟨hlen, -⟩ := ensure_bind_eq_ok.mp hread
    change 2 + count.toNat * asnLen wide ≤ tail.length + 1 + 1 at hlen
    have hasns : (tail.take (count.toNat * asnLen wide)).length = count.toNat * asnLen wide := by
      rw [List.length_take]
      omega
    rw [← List.take_append_drop (count.toNat * asnLen wide) tail] at h
    rw [readSegment_append kind hasns] at h
    obtain ⟨rfl, rfl⟩ := Prod.mk.inj (Attempt.ok.inj h)
    exact ⟨kind, count, _, by rw [List.take_append_drop], hasns, length_readWords _ _ _⟩

theorem fits_of_decodeSegmentsExact {wide : Bool} {buf : Bytes} {segs : List Segment}
    (h : decodeSegmentsExact buf wide = .ok segs) : ∀ seg ∈ segs, seg.asns.length ≤ 255 := by
  refine readAll_forall (safe_readSegment wide).consumes (fun _ _ _ hseg => ?_) h
  obtain ⟨kind, count, asns, -, -, hcount⟩ := readSegment_eq_ok hseg
  rw [hcount]
  exact Nat.le_of_lt_succ count.toNat_lt

theorem decodeSegmentsExact_nil {wide : Bool} {buf : Bytes}
    (h : decodeSegmentsExact buf wide = .ok []) : buf = [] := by
  by_contra hbuf
  rw [decodeSegmentsExact, readAll_of_ne_nil (safe_readSegment wide).consumes hbuf] at h
  obtain ⟨⟨seg, rest⟩, -, h⟩ := bind_eq_ok.mp h
  obtain ⟨segs, -, h⟩ := bind_eq_ok.mp h
  nomatch h

theorem length_of_decodeSegmentsExact {wide : Bool} {buf : Bytes} {segs : List Segment}
    (h : decodeSegmentsExact buf wide = .ok segs) :
    buf.length = segmentOctets (asnLen wide) segs := by
  induction segs generalizing buf with
  | nil =>
    rw [decodeSegmentsExact_nil h]
    rfl
  | cons seg segs ih =>
    obtain ⟨rest, hseg, hrest⟩ := readAll_eq_cons (safe_readSegment wide).consumes h
    obtain ⟨kind, count, asns, rfl, hasns, hcount⟩ := readSegment_eq_ok hseg
    have htail := ih hrest
    simp only [segmentOctets, List.map_cons, List.sum_cons, List.length_cons, List.length_append,
      hasns, hcount] at htail ⊢
    omega

theorem segmented_of_decodeSegmentsExact {wide : Bool} {buf : Bytes} {segs : List Segment}
    (h : decodeSegmentsExact buf wide = .ok segs) : Segmented (asnLen wide) buf := by
  induction segs generalizing buf with
  | nil =>
    rw [decodeSegmentsExact_nil h]
    exact .nil
  | cons seg segs ih =>
    obtain ⟨rest, hseg, hrest⟩ := readAll_eq_cons (safe_readSegment wide).consumes h
    obtain ⟨kind, count, asns, rfl, hasns, -⟩ := readSegment_eq_ok hseg
    exact .cons kind count hasns (ih hrest)

theorem decodeSegmentsExact_of_segmented (wide : Bool) {buf : Bytes}
    (h : Segmented (asnLen wide) buf) : ∃ segs, decodeSegmentsExact buf wide = .ok segs := by
  induction h with
  | nil => exact ⟨[], rfl⟩
  | @cons kind count asns rest hlen _ ih =>
    obtain ⟨segs, hsegs⟩ := ih
    have hread := readAll_of_item (safe_readSegment wide).consumes
      (readSegment_append kind hlen rest)
    exact ⟨_, hread.trans (congrArg (· >>= _) hsegs)⟩

theorem decodeSegmentsExact_eq_error (wide : Bool) {buf : Bytes}
    (h : ¬ Segmented (asnLen wide) buf) : ∃ e, decodeSegmentsExact buf wide = .error e := by
  cases hread : decodeSegmentsExact buf wide with
  | ok segs => exact absurd (segmented_of_decodeSegmentsExact hread) h
  | error e => exact ⟨e, rfl⟩
  | panics => exact absurd hread (decodeSegmentsExact_ne_panics buf wide)

/-! ## AS numbers of two octets -/

/-- Every AS number of the segments fits in two octets. -/
def TwoOctet (segs : List Segment) : Prop := ∀ seg ∈ segs, ∀ asn ∈ seg.asns, asn.toNat ≤ 65535

/-- Every count of the segments fits in its octet. -/
def Counted (segs : List Segment) : Prop := ∀ seg ∈ segs, seg.asns.length ≤ 255

/-- The two octets of an AS number, or of the one that stands for a larger number. -/
def narrowAsn (asn : UInt32) : Bytes :=
  if 65535 < asn.toNat then u16be asTrans else u16be (UInt16.ofNat asn.toNat)

theorem length_narrowAsn (asn : UInt32) : (narrowAsn asn).length = 2 := by
  unfold narrowAsn
  split <;> exact length_u16be _

theorem readBE_narrowAsn {asn : UInt32} (h : asn.toNat ≤ 65535) :
    UInt32.ofNat (readBE (narrowAsn asn)) = asn := by
  rw [narrowAsn, if_neg (by omega), u16be, readBE_beBytes,
    UInt16.toNat_ofNat_of_lt' (Nat.lt_succ_of_le h), Nat.mod_eq_of_lt (by omega),
    UInt32.ofNat_toNat]

theorem readWords_narrow {asns : List UInt32} (h : ∀ asn ∈ asns, asn.toNat ≤ 65535) :
    readWords 2 asns.length (asns.flatMap narrowAsn) = asns := by
  induction asns with
  | nil => rfl
  | cons asn asns ih =>
    obtain ⟨hasn, hasns⟩ := List.forall_mem_cons.mp h
    rw [List.flatMap_cons, List.length_cons, readWords, List.take_left' (length_narrowAsn asn),
      List.drop_left' (length_narrowAsn asn), ih hasns, readBE_narrowAsn hasn]

theorem length_flatMap_narrowAsn (asns : List UInt32) :
    (asns.flatMap narrowAsn).length = asns.length * 2 := by
  induction asns with
  | nil => rfl
  | cons asn asns ih =>
    rw [List.flatMap_cons, List.length_append, ih, length_narrowAsn, List.length_cons]
    omega

def writeNarrow (seg : Segment) : Bytes :=
  [if seg.set then asSet else asSequence, UInt8.ofNat seg.asns.length] ++
    seg.asns.flatMap narrowAsn

theorem writeSegments_narrow (segs : List Segment) :
    writeSegments segs false = segs.flatMap writeNarrow := rfl

theorem length_writeSegments_narrow (segs : List Segment) :
    (writeSegments segs false).length = segmentOctets 2 segs := by
  rw [writeSegments_narrow]
  induction segs with
  | nil => rfl
  | cons seg segs ih =>
    rw [List.flatMap_cons, List.length_append, ih, writeNarrow, List.length_append,
      length_flatMap_narrowAsn]
    rfl

theorem readSegment_writeNarrow {seg : Segment} (hfit : ∀ asn ∈ seg.asns, asn.toNat ≤ 65535)
    (h : seg.asns.length ≤ 255) (rest : Bytes) :
    readSegment false (writeNarrow seg ++ rest) = .ok (seg, rest) := by
  have hcount := toNat_ofNat_u8 h
  have hlen : (seg.asns.flatMap narrowAsn).length =
      (UInt8.ofNat seg.asns.length).toNat * if false then 4 else 2 := by
    rw [length_flatMap_narrowAsn, hcount]
    rfl
  have hread : readSegment false (writeNarrow seg ++ rest) = _ := readSegment_append _ hlen rest
  rw [hread, kind_beq_asSet, hcount]
  exact congrArg (fun asns => Attempt.ok (Segment.mk seg.set asns, rest)) (readWords_narrow hfit)

theorem decodeSegmentsExact_narrow {segs : List Segment} (hfit : TwoOctet segs)
    (h : Counted segs) : decodeSegmentsExact (writeSegments segs false) false = .ok segs :=
  readAll_flatMap (safe_readSegment false).consumes writeNarrow fun seg hseg rest =>
    readSegment_writeNarrow (hfit seg hseg) (h seg hseg) rest

/-! ## The guess of the width -/

theorem empty_of_octets {segs : List Segment} (h : segmentOctets 4 segs ≤ segmentOctets 2 segs) :
    ∀ seg ∈ segs, seg.asns = [] := by
  have hle : ∀ segs, segmentOctets 2 segs ≤ segmentOctets 4 segs := fun segs =>
    List.sum_le_sum fun seg _ => by omega
  induction segs with
  | nil => exact fun _ hmem => nomatch hmem
  | cons seg segs ih =>
    have hsegs := hle segs
    simp only [segmentOctets, List.map_cons, List.sum_cons] at h hsegs ih
    refine List.forall_mem_cons.mpr ⟨List.eq_nil_of_length_eq_zero (by omega), ih (by omega)⟩

theorem writeSegments_of_empty {segs : List Segment} (h : ∀ seg ∈ segs, seg.asns = []) :
    writeSegments segs false = writeSegments segs true := by
  refine List.flatMap_congr fun seg hseg => ?_
  rw [h seg hseg]
  rfl

/-- The bytes of the path with two octets for each AS number are no segments of four-octet numbers,
unless the path has no AS number. -/
def Unmistakable (segs : List Segment) : Prop :=
  Segmented 4 (writeSegments segs false) → ∀ seg ∈ segs, seg.asns = []

theorem guess_narrow_iff {segs : List Segment} (hfit : TwoOctet segs) :
    orElse (decodeSegmentsExact (writeSegments segs false) true)
        (decodeSegmentsExact (writeSegments segs false) false) = .ok segs ↔
      Counted segs ∧ Unmistakable segs := by
  constructor
  · intro h
    cases hwide : decodeSegmentsExact (writeSegments segs false) true with
    | ok segs' =>
      rw [hwide] at h
      obtain rfl : segs' = segs := Attempt.ok.inj h
      have hlen := length_of_decodeSegmentsExact hwide
      rw [length_writeSegments_narrow] at hlen
      exact ⟨fits_of_decodeSegmentsExact hwide, fun _ => empty_of_octets hlen.ge⟩
    | error e =>
      rw [hwide] at h
      refine ⟨fits_of_decodeSegmentsExact h, fun hsegmented => ?_⟩
      obtain ⟨segs', hsegs'⟩ := decodeSegmentsExact_of_segmented true hsegmented
      nomatch hwide.symm.trans hsegs'
    | panics => exact absurd hwide (decodeSegmentsExact_ne_panics _ _)
  · rintro ⟨hcounted, hplain⟩
    by_cases hsegmented : Segmented 4 (writeSegments segs false)
    · rw [writeSegments_of_empty (hplain hsegmented), decodeSegmentsExact_writeSegments hcounted]
      rfl
    · obtain ⟨e, he⟩ := decodeSegmentsExact_eq_error true hsegmented
      rw [he]
      exact decodeSegmentsExact_narrow hfit hcounted

theorem guess_wide_iff {segs : List Segment} :
    orElse (decodeSegmentsExact (writeSegments segs true) true)
        (decodeSegmentsExact (writeSegments segs true) false) = .ok segs ↔ Counted segs := by
  constructor
  · intro h
    cases hwide : decodeSegmentsExact (writeSegments segs true) true with
    | ok segs' =>
      rw [hwide] at h
      obtain rfl : segs' = segs := Attempt.ok.inj h
      exact fits_of_decodeSegmentsExact hwide
    | error e =>
      rw [hwide] at h
      exact fits_of_decodeSegmentsExact h
    | panics => exact absurd hwide (decodeSegmentsExact_ne_panics _ _)
  · intro hcounted
    rw [decodeSegmentsExact_writeSegments hcounted]
    rfl

theorem readAttr_asPath_iff {buf value rest : Bytes} {flags : UInt8} {segs : List Segment}
    (hbuf : splitAttr buf = .ok ((flags, 2, value), rest)) :
    readAttr buf = .ok (.attr (.asPath segs), rest) ↔
      orElse (decodeSegmentsExact value true) (decodeSegmentsExact value false) = .ok segs := by
  have hdecode : decodeAttr flags 2 value = (orElse (decodeSegmentsExact value true)
      (decodeSegmentsExact value false) >>= fun segs => .ok (.attr (.asPath segs))) := by
    rw [decodeAttr, if_neg fun h => absurd h.1 (by decide), if_pos rfl]
  rw [readAttr, hbuf, ok_bind]
  simp only [hdecode]
  cases orElse (decodeSegmentsExact value true) (decodeSegmentsExact value false) with
  | ok segs' => simp
  | error e => exact iff_of_false (by rintro ⟨⟩) (by rintro ⟨⟩)
  | panics => exact iff_of_false (by rintro ⟨⟩) (by rintro ⟨⟩)

/-- An AS_PATH attribute in either width comes back as its segments exactly when their counts fit
and, with two octets for each AS number, it cannot be taken for one of four octets. -/
theorem as_path_unambiguous_iff (segs : List Segment) (buf rest : Bytes) (flags : UInt8) :
    (TwoOctet segs → splitAttr buf = .ok ((flags, 2, writeSegments segs false), rest) →
      (readAttr buf = .ok (.attr (.asPath segs), rest) ↔ Counted segs ∧ Unmistakable segs)) ∧
    (splitAttr buf = .ok ((flags, 2, writeSegments segs true), rest) →
      (readAttr buf = .ok (.attr (.asPath segs), rest) ↔ Counted segs)) :=
  ⟨fun hfit hbuf => (readAttr_asPath_iff hbuf).trans (guess_narrow_iff hfit),
    fun hbuf => (readAttr_asPath_iff hbuf).trans guess_wide_iff⟩

theorem as_path_both_widths :
    readAttr [0x40, 2, 6, 2, 2, 0xFC, 0, 0xFC, 1] =
      .ok (.attr (.asPath [⟨false, [64512, 64513]⟩]), []) ∧
    readAttr [0x40, 2, 10, 2, 2, 0, 0, 0xFC, 0, 0, 0, 0xFC, 1] =
      .ok (.attr (.asPath [⟨false, [64512, 64513]⟩]), []) := by
  have hcounted : Counted [⟨false, [64512, 64513]⟩] := by
    simp [Counted]
  have hplain : Unmistakable [⟨false, [64512, 64513]⟩] := by
    intro h
    exact absurd (Segmented.count_le 2 2 [0xFC, 0, 0xFC, 1] h)
      (by decide)
  refine ⟨?_, ?_⟩
  · exact ((as_path_unambiguous_iff [⟨false, [64512, 64513]⟩] _ [] 0x40).1
      (by simp [TwoOctet]) rfl).mpr ⟨hcounted, hplain⟩
  · exact ((as_path_unambiguous_iff [⟨false, [64512, 64513]⟩] _ [] 0x40).2 rfl).mpr hcounted

/-- The path of AS 64512 and, in a segment of its own, AS 512: its two-octet form is read as one
four-octet number and an empty segment. -/
theorem as_path_mistaken :
    writeSegments [⟨false, [64512]⟩, ⟨false, [512]⟩] false = [2, 1, 0xFC, 0, 2, 1, 2, 0] ∧
    readAttr [0x40, 2, 8, 2, 1, 0xFC, 0, 2, 1, 2, 0] =
      .ok (.attr (.asPath [⟨false, [0xFC000201]⟩, ⟨false, []⟩]), []) := ⟨rfl, rfl⟩

end Rill.Bgp
