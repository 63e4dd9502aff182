import Rill.PrefixText

/-!
# Addresses as text

The standard library's text of an address and its parser. The parser goes over the bytes and fails
without consuming; the whole text has to be consumed. An IPv6 address is written with its first
longest run of zero groups left out, and one that stands for an IPv4 address ends in that address.
Every address is read back from its text.
-/

namespace Rill
namespace IpText

/-- `char::to_digit`. -/
def digit (radix : ℕ) (b : UInt8) : Option ℕ :=
  (if 48 ≤ b ∧ b ≤ 57 then some (b.toNat - 48)
    else if 97 ≤ b ∧ b ≤ 122 then some (b.toNat - 87)
    else if 65 ≤ b ∧ b ≤ 90 then some (b.toNat - 55)
    else none).filter (· < radix)

def isDigit (radix : ℕ) (b : UInt8) : Bool := (digit radix b).isSome

def value (radix : ℕ) (digits : Text) : ℕ :=
  digits.foldl (fun v b => radix * v + (digit radix b).getD 0) 0

/-- The digits are read as far as they go; too many of them, a zero in front or a number that does
not fit is an error. -/
def readNumber (radix bound : ℕ) (maxDigits : Option ℕ) (zeroPrefix : Bool) (s : Text) :
    Option (ℕ × Text) :=
  let digits := s.takeWhile (isDigit radix)
  if digits = [] ∨ (maxDigits.any (· < digits.length)) = true ∨
      zeroPrefix = false ∧ digits.head? = some 48 ∧ 1 < digits.length ∨
      bound ≤ value radix digits then none
  else some (value radix digits, s.dropWhile (isDigit radix))

def readChar (c : UInt8) : Text → Option Text
  | b :: s => if b = c then some s else none
  | [] => none

def readOctet (s : Text) : Option (ℕ × Text) := readNumber 10 256 (some 3) false s

def readIpv4 (s : Text) : Option (BitVec 32 × Text) := do
  let (a, s) ← readOctet s
  let (b, s) ← (readChar 46 s).bind readOctet
  let (c, s) ← (readChar 46 s).bind readOctet
  let (d, s) ← (readChar 46 s).bind readOctet
  some (BitVec.ofNat 32 (((a * 256 + b) * 256 + c) * 256 + d), s)

def separated {α : Type} (sep : Bool) (inner : Text → Option α) (s : Text) : Option α :=
  if sep then (readChar 58 s).bind inner else inner s

def readGroup (s : Text) : Option (ℕ × Text) := readNumber 16 65536 (some 4) true s

/-- Up to so many groups, where an IPv4 address counts for two and is the last. -/
def readGroups : ℕ → Bool → Text → List ℕ × Bool × Text
  | 0, _, s => ([], false, s)
  | left + 1, sep, s =>
    match if 0 < left then separated sep readIpv4 s else none with
    | some (v4, s) => ([v4.toNat / 65536, v4.toNat % 65536], true, s)
    | none =>
      match separated sep readGroup s with
      | none => ([], false, s)
      | some (g, s) =>
        let r := readGroups left true s
        (g :: r.1, r.2)

def ofGroups (gs : List ℕ) : ℕ := gs.foldl (fun v g => 65536 * v + g) 0

def readIpv6 (s : Text) : Option (BitVec 128 × Text) :=
  let (head, ipv4, s) := readGroups 8 false s
  if head.length = 8 then some (BitVec.ofNat 128 (ofGroups head), s)
  else if ipv4 then none
  else
    ((readChar 58 s).bind (readChar 58)).map fun s =>
      let (tail, _, s) := readGroups (7 - head.length) false s
      (BitVec.ofNat 128
        (ofGroups (head ++ (List.replicate (8 - head.length - tail.length) 0 ++ tail))), s)

def readIpAddr (s : Text) : Option (IpAddr × Text) :=
  match readIpv4 s with
  | some (octets, s) => some (.v4 octets, s)
  | none => (readIpv6 s).map fun r => (.v6 r.1, r.2)

/-- `IpAddr::from_str`. -/
def parseIp (s : Text) : Option IpAddr :=
  match readIpAddr s with
  | some (ip, []) => some ip
  | _ => none

def hexByte (d : ℕ) : UInt8 := UInt8.ofNat (if d < 10 then 48 + d else 87 + d)

/-- A group in hexadecimal, without zeros in front. -/
def showHex (g : ℕ) : Text :=
  (if g < 4096 then [] else [hexByte (g / 4096)]) ++
    ((if g < 256 then [] else [hexByte (g / 256 % 16)]) ++
      ((if g < 16 then [] else [hexByte (g / 16 % 16)]) ++ [hexByte (g % 16)]))

def showIpv4 (octets : BitVec 32) : Text :=
  let n := octets.toNat
  Text.ofNat (n / 16777216) ++ 46 :: (Text.ofNat (n / 65536 % 256) ++
    46 :: (Text.ofNat (n / 256 % 256) ++ 46 :: Text.ofNat (n % 256)))

def groups : ℕ → ℕ → List ℕ
  | 0, _ => []
  | k + 1, n => groups k (n / 65536) ++ [n % 65536]

def showTail (gs : List ℕ) : Text := gs.flatMap fun g => 58 :: showHex g

def showGroups : List ℕ → Text
  | [] => []
  | g :: gs => showHex g ++ showTail gs

def zeroRun (gs : List ℕ) (start : ℕ) : ℕ := ((gs.drop start).takeWhile (· == 0)).length

/-- Where the first of the longest runs of zeros starts. -/
def zeroStart (gs : List ℕ) : ℕ :=
  (List.range gs.length).foldl (fun best i => if zeroRun gs best < zeroRun gs i then i else best) 0

def showIpv6 (octets : BitVec 128) : Text :=
  let gs := groups 8 octets.toNat
  let start := zeroStart gs
  if octets.toNat / 2 ^ 32 = 0xFFFF then
    ascii "::ffff:" ++ showIpv4 (BitVec.ofNat 32 octets.toNat)
  else if 1 < zeroRun gs start then
    showGroups (gs.take start) ++ 58 :: 58 :: showGroups (gs.drop (start + zeroRun gs start))
  else showGroups gs

/-- `Display` of an address. -/
def showIp : IpAddr → Text
  | .v4 octets => showIpv4 octets
  | .v6 octets => showIpv6 octets

/-! ## Numbers -/

theorem readNumber_append {radix bound : ℕ} {maxDigits : Option ℕ} {zeroPrefix : Bool}
    {digits rest : Text} (hdigits : ∀ b ∈ digits, isDigit radix b = true)
    (hrest : ∀ b ∈ rest.head?, isDigit radix b = false) :
    readNumber radix bound maxDigits zeroPrefix (digits ++ rest) =
      if digits = [] ∨ (maxDigits.any (· < digits.length)) = true ∨
        zeroPrefix = false ∧ digits.head? = some 48 ∧ 1 < digits.length ∨
        bound ≤ value radix digits then none
      else some (value radix digits, rest) := by
  have htake : rest.takeWhile (isDigit radix) = [] ∧ rest.dropWhile (isDigit radix) = rest := by
    cases rest with
    | nil => exact ⟨rfl, rfl⟩
    | cons b rest => simp [hrest b rfl]
  rw [readNumber, List.takeWhile_append_of_pos hdigits, List.dropWhile_append_of_pos hdigits,
    htake.1, htake.2, List.append_nil]

theorem readNumber_digits {radix bound : ℕ} {maxDigits : Option ℕ} {zeroPrefix : Bool}
    {digits : Text} (hdigits : ∀ b ∈ digits, isDigit radix b = true) :
    readNumber radix bound maxDigits zeroPrefix digits =
      if digits = [] ∨ (maxDigits.any (· < digits.length)) = true ∨
        zeroPrefix = false ∧ digits.head? = some 48 ∧ 1 < digits.length ∨
        bound ≤ value radix digits then none
      else some (value radix digits, []) := by
  nth_rewrite 1 [← List.append_nil digits]
  exact readNumber_append hdigits (by simp)

theorem value_lt {radix : ℕ} {digits : Text} (h : ∀ b ∈ digits, isDigit radix b = true) :
    value radix digits < radix ^ digits.length := by
  induction digits using List.reverseRecOn with
  | nil => simp [value]
  | append_singleton digits b ih =>
    have hb : (digit radix b).getD 0 < radix := by
      obtain ⟨d, hd⟩ := Option.isSome_iff_exists.mp (h b (by simp))
      rw [hd, Option.getD_some]
      simpa using (Option.filter_eq_some_iff.mp hd).2
    have hlt := ih fun b hb => h b (List.mem_append_left _ hb)
    rw [value, List.foldl_append, ← value, List.foldl_cons, List.foldl_nil, List.length_append,
      List.length_singleton, pow_succ']
    calc radix * value radix digits + (digit radix b).getD 0
        < radix * (value radix digits + 1) := by rw [Nat.mul_add]; omega
      _ ≤ radix * radix ^ digits.length := Nat.mul_le_mul_left _ hlt

theorem digit_hexByte {d : ℕ} (h : d < 16) : digit 16 (hexByte d) = some d := by
  interval_cases d <;> rfl

theorem showHex_spec {g : ℕ} (h : g < 65536) : (∀ b ∈ showHex g, isDigit 16 b = true) ∧
    showHex g ≠ [] ∧ (showHex g).length ≤ 4 ∧ value 16 (showHex g) = g := by
  have h₁ := digit_hexByte (show g / 4096 < 16 by omega)
  have h₂ := digit_hexByte (Nat.mod_lt (g / 256) (by omega : 16 > 0))
  have h₃ := digit_hexByte (Nat.mod_lt (g / 16) (by omega : 16 > 0))
  have h₄ := digit_hexByte (Nat.mod_lt g (by omega : 16 > 0))
  unfold showHex value
  refine ⟨?_, by simp, ?_, ?_⟩
  · split_ifs <;> simp [isDigit, h₁, h₂, h₃, h₄]
  · split_ifs <;> simp
  · split_ifs <;> simp [h₁, h₂, h₃, h₄] <;> omega

theorem readGroup_showHex {g : ℕ} (h : g < 65536) {rest : Text}
    (hrest : ∀ b ∈ rest.head?, isDigit 16 b = false) :
    readGroup (showHex g ++ rest) = some (g, rest) := by
  obtain ⟨hdigits, hne, hlen, hvalue⟩ := showHex_spec h
  rw [readGroup, readNumber_append hdigits hrest, hvalue, if_neg]
  simp [hne]
  omega

theorem digit_of_isDigit {radix : ℕ} (hradix : 10 ≤ radix) {b : UInt8}
    (h : Text.isDigit b = true) : digit radix b = some (b.toNat - 48) := by
  simp only [Text.isDigit, Bool.and_eq_true, decide_eq_true_eq] at h
  have hle := UInt8.le_iff_toNat_le.mp h.2
  have hlt : b.toNat - 48 < radix := by
    simp only [UInt8.reduceToNat] at hle
    omega
  simp [digit, h, hlt]

theorem isDigit_of_mem_ofNat {radix : ℕ} (hradix : 10 ≤ radix) {n : ℕ} :
    ∀ b ∈ Text.ofNat n, isDigit radix b = true := by
  intro b hb
  rw [isDigit, digit_of_isDigit hradix (Text.isDigit_of_mem_ofNat b hb), Option.isSome_some]

theorem value_ofNat {radix : ℕ} (hradix : 10 ≤ radix) (n : ℕ) : value radix (Text.ofNat n) =
    (Text.ofNat n).foldl (fun v b => radix * v + (b.toNat - 48)) 0 := by
  refine List.foldl_ext _ _ _ fun v b hb => ?_
  rw [digit_of_isDigit hradix (Text.isDigit_of_mem_ofNat b hb), Option.getD_some]

theorem readOctet_ofNat {n : ℕ} (h : n < 256) {rest : Text}
    (hrest : ∀ b ∈ rest.head?, isDigit 10 b = false) :
    readOctet (Text.ofNat n ++ rest) = some (n, rest) := by
  have hall : ∀ n < 256, (Text.ofNat n).length ≤ 3 ∧
      ¬ ((Text.ofNat n).head? = some 48 ∧ 1 < (Text.ofNat n).length) := by decide +kernel
  obtain ⟨hlen, hzero⟩ := hall n h
  rw [readOctet, readNumber_append (isDigit_of_mem_ofNat le_rfl) hrest, value_ofNat le_rfl,
    Text.foldl_ofNat, if_neg]
  rintro (hnil | hlong | ⟨-, hhead⟩ | hbound)
  · exact Text.ofNat_ne_nil n hnil
  · simp only [Option.any_some, decide_eq_true_eq] at hlong
    omega
  · exact hzero hhead
  · omega

/-! ## The four octets -/

theorem isDigit_dot (s : Text) : ∀ b ∈ (46 :: s : Text).head?, isDigit 10 b = false := by
  intro b hb
  rw [← Option.some.inj hb]
  rfl

theorem readIpv4_show (octets : BitVec 32) {rest : Text}
    (hrest : ∀ b ∈ rest.head?, isDigit 10 b = false) :
    readIpv4 (showIpv4 octets ++ rest) = some (octets, rest) := by
  have hn := octets.isLt
  simp only [readIpv4, showIpv4, List.append_assoc, List.cons_append]
  rw [readOctet_ofNat (by omega) (isDigit_dot _)]
  simp only [readChar, if_true, Option.bind_eq_bind, Option.bind_some,
    readOctet_ofNat (Nat.mod_lt _ (by omega : 256 > 0)) (isDigit_dot _),
    readOctet_ofNat (Nat.mod_lt _ (by omega : 256 > 0)) hrest, Option.some.injEq, Prod.mk.injEq,
    and_true]
  apply BitVec.eq_of_toNat_eq
  rw [BitVec.toNat_ofNat]
  omega

theorem isDigit_mono {b : UInt8} (h : isDigit 10 b = true) : isDigit 16 b = true := by
  rw [isDigit, Option.isSome_iff_exists] at h ⊢
  obtain ⟨d, hd⟩ := h
  obtain ⟨hsome, hlt⟩ := Option.filter_eq_some_iff.mp hd
  exact ⟨d, Option.filter_eq_some_iff.mpr ⟨hsome, by simp at hlt ⊢; omega⟩⟩

/-- What is read as four octets has a dot behind its first digits. -/
theorem dot_of_readIpv4 {s : Text} {r : BitVec 32 × Text} (h : readIpv4 s = some r) :
    (s.dropWhile (isDigit 16)).head? = some 46 := by
  obtain ⟨⟨a, s₁⟩, hfirst, h⟩ := Option.bind_eq_some_iff.mp h
  obtain ⟨_, hsecond, -⟩ := Option.bind_eq_some_iff.mp h
  obtain ⟨s₂, hdot, -⟩ := Option.bind_eq_some_iff.mp hsecond
  have hs₁ : s.dropWhile (isDigit 10) = s₁ := by
    unfold readOctet readNumber at hfirst
    dsimp only at hfirst
    split_ifs at hfirst
    exact (Prod.mk.inj (Option.some.inj hfirst)).2
  cases s₁ with
  | nil => cases hdot
  | cons b rest =>
    rw [readChar] at hdot
    split_ifs at hdot with hb
    have hdigits : ∀ b ∈ s.takeWhile (isDigit 10), isDigit 16 b = true :=
      fun b hmem => isDigit_mono (List.mem_takeWhile_imp hmem)
    rw [← List.takeWhile_append_dropWhile (p := isDigit 10) (l := s), hs₁, hb,
      List.dropWhile_append_of_pos hdigits]
    rfl

theorem readIpv4_of_group {digits rest : Text} (hdigits : ∀ b ∈ digits, isDigit 16 b = true)
    (hrest : ∀ b ∈ rest.head?, isDigit 16 b = false ∧ b ≠ 46) :
    readIpv4 (digits ++ rest) = none := by
  cases h : readIpv4 (digits ++ rest) with
  | none => rfl
  | some r =>
    have hdot := dot_of_readIpv4 h
    rw [List.dropWhile_append_of_pos hdigits] at hdot
    cases rest with
    | nil => cases hdot
    | cons b rest =>
      obtain ⟨hno, hne⟩ := hrest b rfl
      simp only [List.dropWhile_cons, hno, Bool.false_eq_true, if_false, List.head?_cons,
        Option.some.injEq] at hdot
      exact absurd hdot hne

/-! ## The groups -/

/-- Where the groups end: at the end of the text or at two colons. -/
def Stops (rest : Text) : Prop := rest = [] ∨ ∃ s, rest = 58 :: 58 :: s

theorem head_showTail (gs : List ℕ) {rest : Text} (hrest : Stops rest) :
    ∀ b ∈ (showTail gs ++ rest).head?, isDigit 16 b = false ∧ b ≠ 46 := by
  intro b hb
  obtain rfl : b = 58 := by
    cases gs with
    | cons g gs => exact (Option.some.inj hb).symm
    | nil =>
      rcases hrest with rfl | ⟨s, rfl⟩
      · cases hb
      · exact (Option.some.inj hb).symm
  exact ⟨rfl, by decide⟩

/-- One group is read off, with the colon before it or without. -/
theorem readGroups_step {g : ℕ} (hg : g < 65536) {rest : Text}
    (hrest : ∀ b ∈ rest.head?, isDigit 16 b = false ∧ b ≠ 46) {sep : Bool} {s : Text}
    (hs : s = (if sep then [58] else []) ++ (showHex g ++ rest)) (left : ℕ) :
    readGroups (left + 1) sep s =
      (g :: (readGroups left true rest).1, (readGroups left true rest).2) := by
  have hv4 := readIpv4_of_group (showHex_spec hg).1 hrest
  have hgroup := readGroup_showHex hg fun b hb => (hrest b hb).1
  have hinner : ∀ {α : Type} (inner : Text → Option α),
      separated sep inner s = inner (showHex g ++ rest) := by
    intro α inner
    rw [hs]
    cases sep <;> rfl
  rw [readGroups, hinner, hinner, hv4, hgroup, ite_self]

theorem readGroups_stops {rest : Text} (hrest : Stops rest) (sep : Bool) (left : ℕ) :
    readGroups left sep rest = ([], false, rest) := by
  rcases hrest with rfl | ⟨s, rfl⟩
  · rcases left with _ | _ | left <;> cases sep <;> rfl
  · rcases left with _ | _ | left <;> cases sep <;> rfl

theorem readGroups_tail {gs : List ℕ} (hgs : ∀ g ∈ gs, g < 65536) {rest : Text}
    (hrest : Stops rest) {left : ℕ} (hleft : gs.length ≤ left) :
    readGroups left true (showTail gs ++ rest) = (gs, false, rest) := by
  induction gs generalizing left with
  | nil => exact readGroups_stops hrest true left
  | cons g gs ih =>
    obtain ⟨left, rfl⟩ := Nat.exists_eq_add_one_of_ne_zero (Nat.ne_zero_of_lt hleft)
    rw [readGroups_step (hgs g List.mem_cons_self) (head_showTail gs hrest) (by simp [showTail]),
      ih (fun g hg => hgs g (List.mem_cons_of_mem _ hg)) (Nat.le_of_succ_le_succ hleft)]

theorem readGroups_show {gs : List ℕ} (hgs : ∀ g ∈ gs, g < 65536) {rest : Text}
    (hrest : Stops rest) {left : ℕ} (hleft : gs.length ≤ left) :
    readGroups left false (showGroups gs ++ rest) = (gs, false, rest) := by
  cases gs with
  | nil => exact readGroups_stops hrest false left
  | cons g gs =>
    obtain ⟨left, rfl⟩ := Nat.exists_eq_add_one_of_ne_zero (Nat.ne_zero_of_lt hleft)
    rw [readGroups_step (hgs g List.mem_cons_self) (head_showTail gs hrest) (by simp [showGroups]),
      readGroups_tail (fun g hg => hgs g (List.mem_cons_of_mem _ hg)) hrest
        (Nat.le_of_succ_le_succ hleft)]

theorem length_groups (k n : ℕ) : (groups k n).length = k := by
  induction k generalizing n with
  | zero => rfl
  | succ k ih => rw [groups, List.length_append, ih, List.length_singleton]

theorem lt_of_mem_groups {k n g : ℕ} (h : g ∈ groups k n) : g < 65536 := by
  induction k generalizing n with
  | zero => cases h
  | succ k ih =>
    rcases List.mem_append.mp h with h | h
    · exact ih h
    · rw [List.mem_singleton.mp h]
      exact Nat.mod_lt _ (by omega)

theorem ofGroups_groups (k n : ℕ) : ofGroups (groups k n) = n % 65536 ^ k := by
  induction k generalizing n with
  | zero => rw [pow_zero, Nat.mod_one]; rfl
  | succ k ih =>
    rw [ofGroups, groups, List.foldl_append, ← ofGroups, ih, List.foldl_cons, List.foldl_nil,
      pow_succ', Nat.mod_mul, Nat.add_comm]

/-! ## The whole text -/

theorem ofNat_ofGroups (octets : BitVec 128) :
    BitVec.ofNat 128 (ofGroups (groups 8 octets.toNat)) = octets := by
  have hpow : (65536 : ℕ) ^ 8 = 2 ^ 128 := by norm_num
  rw [ofGroups_groups, hpow, Nat.mod_eq_of_lt octets.isLt, BitVec.ofNat_toNat, BitVec.setWidth_eq]

/-- The run of zeros from a place on, between the groups before and behind it. -/
theorem split_zeroRun (gs : List ℕ) (start : ℕ) : gs = gs.take start ++
    (List.replicate (zeroRun gs start) 0 ++ gs.drop (start + zeroRun gs start)) := by
  have hzeros : (gs.drop start).takeWhile (· == 0) = List.replicate (zeroRun gs start) 0 := by
    refine List.eq_replicate_iff.mpr ⟨rfl, fun g hg => ?_⟩
    simpa using List.mem_takeWhile_imp hg
  have htail : (gs.drop start).drop (zeroRun gs start) = (gs.drop start).dropWhile (· == 0) := by
    conv_lhs => rw [← List.takeWhile_append_dropWhile (p := (· == 0)) (l := gs.drop start)]
    exact List.drop_left
  rw [← hzeros, ← List.drop_drop, htail, List.takeWhile_append_dropWhile, List.take_append_drop]

theorem readIpv6_compressed {octets : BitVec 128} {pre post : List ℕ} {k : ℕ} (hk : 1 < k)
    (hgs : groups 8 octets.toNat = pre ++ (List.replicate k 0 ++ post)) :
    readIpv6 (showGroups pre ++ 58 :: 58 :: showGroups post) = some (octets, []) := by
  have hlen := length_groups 8 octets.toNat
  have hlt : ∀ g ∈ pre ++ (List.replicate k 0 ++ post), g < 65536 := by
    rw [← hgs]
    exact fun g hg => lt_of_mem_groups hg
  rw [hgs] at hlen
  simp only [List.length_append, List.length_replicate] at hlen
  have hpre := readGroups_show (fun g hg => hlt g (List.mem_append_left _ hg))
    (.inr ⟨showGroups post, rfl⟩ : Stops (58 :: 58 :: showGroups post)) (by omega : pre.length ≤ 8)
  have hpost := readGroups_show (fun g hg => hlt g (List.mem_append_right _ (List.mem_append_right _ hg)))
    (.inl rfl : Stops []) (by omega : post.length ≤ 7 - pre.length)
  rw [List.append_nil] at hpost
  have hzeros : 8 - pre.length - post.length = k := by omega
  rw [readIpv6, hpre]
  simp only [if_neg (by omega : ¬ pre.length = 8), Bool.false_eq_true, if_false, readChar, if_true,
    Option.bind_some, Option.map_some, hpost, hzeros, ← hgs, ofNat_ofGroups]

theorem readIpv6_mapped {octets : BitVec 128} (h : octets.toNat / 2 ^ 32 = 0xFFFF) :
    readIpv6 (ascii "::ffff:" ++ showIpv4 (BitVec.ofNat 32 octets.toNat)) = some (octets, []) := by
  have hv4 := readIpv4_show (BitVec.ofNat 32 octets.toNat) (show ∀ b ∈ ([] : Text).head?, _ by simp)
  rw [List.append_nil] at hv4
  generalize showIpv4 (BitVec.ofNat 32 octets.toNat) = v4 at hv4 ⊢
  have hhead : readGroups 8 false (ascii "::ffff:" ++ v4) = ([], false, ascii "::ffff:" ++ v4) := rfl
  have hcolon : ∀ b ∈ (58 :: v4 : Text).head?, isDigit 16 b = false ∧ b ≠ 46 := by
    rintro b hb
    cases hb
    exact ⟨rfl, by decide⟩
  have htail : readGroups 6 true (58 :: v4) = ([(BitVec.ofNat 32 octets.toNat).toNat / 65536,
      (BitVec.ofNat 32 octets.toNat).toNat % 65536], true, []) := by
    rw [readGroups, if_pos (by omega), separated, if_pos rfl, readChar, if_pos rfl, Option.bind_some,
      hv4]
  have hgroups : readGroups 7 false (ascii "ffff:" ++ v4) = _ :=
    readGroups_step (show 0xFFFF < 65536 by omega) hcolon rfl 6
  rw [htail] at hgroups
  rw [readIpv6, hhead]
  change some (BitVec.ofNat 128 (ofGroups ([] ++ (List.replicate (8 - 0 -
    (readGroups 7 false (ascii "ffff:" ++ v4)).1.length) 0 ++
      (readGroups 7 false (ascii "ffff:" ++ v4)).1))),
    (readGroups 7 false (ascii "ffff:" ++ v4)).2.2) = _
  have hn : BitVec.ofNat 128 (ofGroups (List.replicate 5 0 ++
      [0xFFFF, (BitVec.ofNat 32 octets.toNat).toNat / 65536,
        (BitVec.ofNat 32 octets.toNat).toNat % 65536])) = octets := by
    apply BitVec.eq_of_toNat_eq
    have hlt := octets.isLt
    simp only [ofGroups, List.replicate_succ, List.replicate_zero, List.cons_append, List.nil_append,
      List.foldl_cons, List.foldl_nil, BitVec.toNat_ofNat]
    omega
  rw [hgroups]
  exact congrArg (fun o => some (o, [])) hn

theorem readIpv4_showGroups {gs : List ℕ} (hgs : ∀ g ∈ gs, g < 65536) {rest : Text}
    (hrest : Stops rest) : readIpv4 (showGroups gs ++ rest) = none := by
  cases gs with
  | nil => exact readIpv4_of_group (List.forall_mem_nil _) (head_showTail [] hrest)
  | cons g gs =>
    rw [showGroups, List.append_assoc]
    exact readIpv4_of_group (showHex_spec (hgs g List.mem_cons_self)).1 (head_showTail gs hrest)

theorem readIpv6_show (octets : BitVec 128) : readIpv6 (showIpv6 octets) = some (octets, []) := by
  unfold showIpv6
  dsimp only
  split_ifs with hmapped hrun
  · exact readIpv6_mapped hmapped
  · exact readIpv6_compressed hrun (split_zeroRun _ _)
  · have hread := readGroups_show (fun g hg => lt_of_mem_groups hg) (.inl rfl : Stops [])
      (length_groups 8 octets.toNat).le
    rw [List.append_nil] at hread
    rw [readIpv6, hread]
    simp only [length_groups, if_true, ofNat_ofGroups]

theorem readIpv4_showIpv6 (octets : BitVec 128) : readIpv4 (showIpv6 octets) = none := by
  unfold showIpv6
  dsimp only
  split_ifs
  · rfl
  · exact readIpv4_showGroups (fun g hg => lt_of_mem_groups (List.mem_of_mem_take hg))
      (.inr ⟨_, rfl⟩)
  · have hnone := readIpv4_showGroups (fun g (hg : g ∈ groups 8 octets.toNat) => lt_of_mem_groups hg)
      (.inl rfl : Stops [])
    rwa [List.append_nil] at hnone

/-- Every address is read back from its text. -/
theorem parseIp_showIp (ip : IpAddr) : parseIp (showIp ip) = some ip := by
  cases ip with
  | v4 octets =>
    have hread := readIpv4_show octets (show ∀ b ∈ ([] : Text).head?, _ by simp)
    rw [List.append_nil] at hread
    simp only [parseIp, showIp, readIpAddr, hread]
  | v6 octets =>
    simp only [parseIp, showIp, readIpAddr, readIpv4_showIpv6, readIpv6_show, Option.map_some]

/-! ## No slash -/

theorem slash_notMem_showHex {g : ℕ} (h : g < 65536) : 47 ∉ showHex g := by
  intro hmem
  exact absurd ((showHex_spec h).1 47 hmem) (by decide)

theorem slash_notMem_showGroups {gs : List ℕ} (hgs : ∀ g ∈ gs, g < 65536) : 47 ∉ showGroups gs := by
  have htail : ∀ {gs : List ℕ}, (∀ g ∈ gs, g < 65536) → 47 ∉ showTail gs := by
    intro gs hgs hmem
    obtain ⟨g, hg, hmem⟩ := List.mem_flatMap.mp hmem
    rcases List.mem_cons.mp hmem with h | h
    · exact absurd h (by decide)
    · exact slash_notMem_showHex (hgs g hg) h
  cases gs with
  | nil => exact List.not_mem_nil
  | cons g gs =>
    rw [showGroups, List.mem_append, not_or]
    exact ⟨slash_notMem_showHex (hgs g List.mem_cons_self),
      htail fun g hg => hgs g (List.mem_cons_of_mem _ hg)⟩

theorem slash_notMem_showIpv4 (octets : BitVec 32) : 47 ∉ showIpv4 octets := by
  have hall : ∀ n, 47 ∉ Text.ofNat n := by
    intro n hmem
    cases Text.isDigit_of_mem_ofNat 47 hmem
  simp only [showIpv4, List.mem_append, List.mem_cons, not_or]
  exact ⟨hall _, by decide, hall _, by decide, hall _, by decide, hall _⟩

theorem slash_notMem_showIp (ip : IpAddr) : 47 ∉ showIp ip := by
  cases ip with
  | v4 octets => exact slash_notMem_showIpv4 octets
  | v6 octets =>
    have hlt : ∀ g ∈ groups 8 octets.toNat, g < 65536 := fun g hg => lt_of_mem_groups hg
    simp only [showIp, showIpv6]
    split_ifs
    · rw [List.mem_append, not_or]
      exact ⟨by decide, slash_notMem_showIpv4 _⟩
    · simp only [List.mem_append, List.mem_cons, not_or]
      exact ⟨slash_notMem_showGroups fun g hg => hlt g (List.mem_of_mem_take hg), by decide, by decide,
        slash_notMem_showGroups fun g hg => hlt g (List.mem_of_mem_drop hg)⟩
    · exact slash_notMem_showGroups hlt

end IpText

/-- A prefix is read back from its text. -/
theorem Prefix.parse_toCidr (p : Prefix) :
    parse IpText.parseIp (p.toCidr IpText.showIp) = some p := by
  have hlen : p.len.toNat < 2 ^ 8 := p.len.toNat_lt
  rw [parse, toCidr, Text.splitOnce_append (IpText.slash_notMem_showIp _)]
  simp only [Option.bind_eq_bind, Option.bind_some, Text.parseUnsigned_ofNat hlen,
    IpText.parseIp_showIp, addrBits_toIp, isV4_toIp, UInt8.ofNat_toNat, new_self]

end Rill
