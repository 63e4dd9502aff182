import Rill.TsServer

/-!
# Keys in hexadecimal

`parse_key_hex` cuts the text behind the prefix into pairs of bytes and reads each with
`u8::from_str_radix`. The cut panics inside a character of more than one byte, and the number parser
takes a plus sign in front of a single digit. On the texts where neither comes into play, the keys
that are read are exactly those written with 64 hexadecimal digits.
-/

namespace Rill
namespace Ts2021

/-- The digits write the bytes, two digits a byte. -/
inductive Spells : Bytes → Bytes → Prop
  | nil : Spells [] []
  | cons {a b high low : UInt8} {digits key : Bytes} : hexValue a = some high →
    hexValue b = some low → Spells digits key → Spells (a :: b :: digits) ((high * 16 + low) :: key)

/-- There is no panic, and a key is read exactly if it is written behind the prefix. -/
def ReadsExactly (start text : Text) : Prop :=
  ∃ result, parseKeyHex start text = some result ∧
    ∀ key, result = some key ↔ ∃ digits, text = start ++ digits ∧ Spells digits key.toList

/-- Behind pairs that are numbers a pair ends inside a character. -/
inductive Torn : Bytes → Prop
  | here {a b c : UInt8} {rest : Bytes} : isContinuation c = true → Torn (a :: b :: c :: rest)
  | behind {a b : UInt8} {rest : Bytes} : (hexPair a b).isSome → Torn rest → Torn (a :: b :: rest)

def pairs : Bytes → List (UInt8 × UInt8)
  | a :: b :: rest => (a, b) :: pairs rest
  | _ => []

def Numerals (digits : Bytes) : Prop := ∀ p ∈ pairs digits, (hexPair p.1 p.2).isSome

/-- All pairs are numbers, one of them with a sign. -/
def Signed (digits : Bytes) : Prop := Numerals digits ∧ ∃ p ∈ pairs digits, p.1 = 43

theorem numerals_cons {a b : UInt8} {rest : Bytes} :
    Numerals (a :: b :: rest) ↔ (hexPair a b).isSome ∧ Numerals rest := List.forall_mem_cons

section Bytes

theorem isContinuation_of_hexValue {b v : UInt8} (h : hexValue b = some v) :
    isContinuation b = false := by
  refine isContinuation_eq_false ?_
  rw [hexValue] at h
  split_ifs at h with hdigit hlower hupper
  · exact UInt8.lt_of_le_of_lt hdigit.2 (by decide)
  · exact UInt8.lt_of_le_of_lt hlower.2 (by decide)
  · exact UInt8.lt_of_le_of_lt hupper.2 (by decide)

theorem hexPair_unsigned {a b v : UInt8} (ha : a ≠ 43) :
    hexPair a b = some v ↔
      ∃ high low, hexValue a = some high ∧ hexValue b = some low ∧ high * 16 + low = v := by
  rw [hexPair, if_neg ha]
  simp [Option.bind_eq_some_iff]

theorem isContinuation_of_hexPair {a b : UInt8} (h : (hexPair a b).isSome) :
    isContinuation a = false := by
  by_cases ha : a = 43
  · rw [ha]
    rfl
  · obtain ⟨v, hv⟩ := Option.isSome_iff_exists.mp h
    obtain ⟨high, -, hhigh, -⟩ := (hexPair_unsigned ha).mp hv
    exact isContinuation_of_hexValue hhigh

end Bytes

theorem hexPairs_eq_none_iff {digits : Bytes} : hexPairs digits = none ↔ Torn digits := by
  fun_induction hexPairs digits with
  | case1 a b rest hcut =>
    cases rest with
    | nil => cases hcut
    | cons c rest => exact iff_of_true rfl (.here hcut)
  | case2 a b rest hcut hnone =>
    refine iff_of_false (by simp) fun htorn => ?_
    cases htorn with
    | here hc => exact hcut hc
    | behind hsome => simp [hnone] at hsome
  | case3 a b rest hcut v hv ih =>
    rw [Option.map_eq_none_iff, ih]
    refine ⟨.behind (Option.isSome_of_eq_some hv), fun htorn => ?_⟩
    cases htorn with
    | here hc => exact absurd hc hcut
    | behind _ hrest => exact hrest
  | case4 digits hpair =>
    refine iff_of_false (by simp) fun htorn => ?_
    cases htorn with
    | here => exact hpair _ _ _ rfl
    | behind => exact hpair _ _ _ rfl

theorem numerals_of_hexPairs {digits key : Bytes} (h : hexPairs digits = some (some key)) :
    Numerals digits := by
  fun_induction hexPairs digits generalizing key with
  | case1 => cases h
  | case2 => cases h
  | case3 a b rest hcut v hv ih =>
    obtain ⟨more, hmore, hkey⟩ := Option.map_eq_some_iff.mp h
    obtain ⟨tail, rfl, -⟩ := Option.map_eq_some_iff.mp hkey
    exact numerals_cons.mpr ⟨Option.isSome_of_eq_some hv, ih hmore⟩
  | case4 digits hpair =>
    rcases digits with _ | ⟨a, _ | ⟨b, rest⟩⟩
    · exact List.forall_mem_nil _
    · exact List.forall_mem_nil _
    · exact absurd rfl (hpair a b rest)

theorem hexPairs_of_numerals (n : ℕ) {digits : Bytes} (hlen : digits.length = 2 * n)
    (h : Numerals digits) : ∃ key, hexPairs digits = some (some key) ∧ key.length = n := by
  induction n generalizing digits with
  | zero =>
    obtain rfl := List.length_eq_zero_iff.mp hlen
    exact ⟨[], rfl, rfl⟩
  | succ n ih =>
    match digits, hlen, h with
    | a :: b :: rest, hlen, h =>
      obtain ⟨hpair, hrest⟩ := numerals_cons.mp h
      obtain ⟨v, hv⟩ := Option.isSome_iff_exists.mp hpair
      obtain ⟨key, hkey, hcount⟩ := ih (by simpa [Nat.mul_add] using hlen) hrest
      refine ⟨v :: key, ?_, congrArg (· + 1) hcount⟩
      have hwhole : ¬ rest.head?.any isContinuation = true := by
        match rest, hrest with
        | [], _ => simp
        | [c], _ =>
          simp only [List.length_cons, List.length_nil] at hlen
          omega
        | c :: d :: rest, hrest => simp [isContinuation_of_hexPair (numerals_cons.mp hrest).1]
      rw [hexPairs, if_neg hwhole, hv, hkey]
      rfl

theorem Spells.length_eq {digits key : Bytes} (h : Spells digits key) :
    digits.length = 2 * key.length := by
  induction h with
  | nil => rfl
  | cons _ _ _ ih => simp only [List.length_cons, ih, Nat.mul_add]

theorem Spells.numerals {digits key : Bytes} (h : Spells digits key) :
    Numerals digits ∧ ∀ p ∈ pairs digits, p.1 ≠ 43 := by
  induction h with
  | nil => exact ⟨fun p hp => (nomatch hp), fun p hp => (nomatch hp)⟩
  | @cons a b high low digits key ha hb _ ih =>
    have hne : a ≠ 43 := by
      rintro rfl
      cases ha
    have hpair := (hexPair_unsigned hne).mpr ⟨high, low, ha, hb, rfl⟩
    exact ⟨numerals_cons.mpr ⟨Option.isSome_of_eq_some hpair, ih.1⟩,
      List.forall_mem_cons.mpr ⟨hne, ih.2⟩⟩

theorem spells_of_hexPairs (n : ℕ) {digits key : Bytes} (hlen : digits.length = 2 * n)
    (h : hexPairs digits = some (some key)) (hplain : ∀ p ∈ pairs digits, p.1 ≠ 43) :
    Spells digits key := by
  fun_induction hexPairs digits generalizing key n with
  | case1 => cases h
  | case2 => cases h
  | case3 a b rest hcut v hv ih =>
    obtain ⟨more, hmore, hkey⟩ := Option.map_eq_some_iff.mp h
    obtain ⟨tail, rfl, rfl⟩ := Option.map_eq_some_iff.mp hkey
    obtain ⟨hne, hplain⟩ := List.forall_mem_cons.mp hplain
    obtain ⟨high, low, hhigh, hlow, rfl⟩ := (hexPair_unsigned hne).mp hv
    rw [List.length_cons, List.length_cons] at hlen
    exact .cons hhigh hlow (ih (n - 1) (by omega) hmore hplain)
  | case4 digits hpair =>
    cases Option.some.inj h
    rcases digits with _ | ⟨a, _ | ⟨b, rest⟩⟩
    · exact .nil
    · rw [List.length_singleton] at hlen
      omega
    · exact absurd rfl (hpair a b rest)

theorem spells_unique {digits key key' : Bytes} (h : Spells digits key) (h' : Spells digits key') :
    key = key' := by
  induction h generalizing key' with
  | nil =>
    cases h'
    rfl
  | cons ha hb _ ih =>
    cases h' with
    | cons ha' hb' hrest =>
      rw [Option.some.inj (ha.symm.trans ha'), Option.some.inj (hb.symm.trans hb'), ih hrest]

theorem toKey32_eq_some {bytes : Bytes} {key : Key32} :
    toKey32 bytes = some key ↔ bytes = key.toList := by
  rw [toKey32]
  constructor
  · intro h
    split_ifs at h with hlen
    rw [← Option.some.inj h]
    rfl
  · rintro rfl
    rw [dif_pos Vector.length_toList]
    exact congrArg some (Vector.toArray_inj.mp (Array.toArray_toList ..))

theorem readsExactly_digits {start digits : Bytes} (hlen : digits.length = 64) :
    ReadsExactly start (start ++ digits) ↔ ¬ Torn digits ∧ ¬ Signed digits := by
  have hparse : parseKeyHex start (start ++ digits) =
      (hexPairs digits).map fun key => key.bind toKey32 := by
    rw [parseKeyHex, Text.strip_eq_some.mpr rfl]
    dsimp only
    rw [if_neg (not_not.mpr hlen)]
  have hsame : ∀ key, (∃ ds, start ++ digits = start ++ ds ∧ Spells ds key) ↔ Spells digits key :=
    fun key => by simp only [List.append_cancel_left_eq, exists_eq_left']
  rw [ReadsExactly, hparse]
  simp only [hsame]
  constructor
  · rintro ⟨result, hresult, hexact⟩
    obtain ⟨read, hread, rfl⟩ := Option.map_eq_some_iff.mp hresult
    constructor
    · intro htorn
      rw [hexPairs_eq_none_iff.mpr htorn] at hread
      cases hread
    · rintro ⟨hnum, p, hp, hplus⟩
      obtain ⟨bytes, hbytes, hcount⟩ := hexPairs_of_numerals 32 hlen hnum
      cases hread.symm.trans hbytes
      have hkey : toKey32 bytes = some ⟨bytes.toArray, hcount⟩ := by rw [toKey32, dif_pos hcount]
      exact ((hexact _).mp hkey).numerals.2 p hp hplus
  · rintro ⟨htorn, hsigned⟩
    obtain ⟨read, hread⟩ := Option.ne_none_iff_exists'.mp fun h =>
      htorn (hexPairs_eq_none_iff.mp h)
    refine ⟨_, by rw [hread]; rfl, fun key => ⟨fun hkey => ?_, fun hspells => ?_⟩⟩
    · obtain ⟨bytes, rfl, hkey⟩ := Option.bind_eq_some_iff.mp hkey
      obtain rfl := toKey32_eq_some.mp hkey
      refine spells_of_hexPairs 32 hlen hread fun p hp hplus => ?_
      exact hsigned ⟨numerals_of_hexPairs hread, p, hp, hplus⟩
    · obtain ⟨hnum, hplain⟩ := hspells.numerals
      obtain ⟨bytes, hbytes, hcount⟩ := hexPairs_of_numerals 32 hlen hnum
      cases hread.symm.trans hbytes
      have hagain := spells_of_hexPairs 32 hlen hbytes hplain
      exact toKey32_eq_some.mpr (spells_unique hagain hspells)

/-- The parser is exact on a text unless 64 bytes stand behind the prefix, and they are cut inside a
character or are numbers of which one has a sign. -/
theorem parse_key_hex_exact_iff (start text : Text) :
    ReadsExactly start text ↔
      ∀ digits, text = start ++ digits → digits.length = 64 → ¬ Torn digits ∧ ¬ Signed digits := by
  by_cases hwhole : ∃ digits, text = start ++ digits ∧ digits.length = 64
  · obtain ⟨digits, rfl, hlen⟩ := hwhole
    rw [readsExactly_digits hlen]
    exact ⟨fun h ds heq _ => List.append_cancel_left heq ▸ h, fun h => h digits rfl hlen⟩
  · refine iff_of_true ⟨none, ?_, fun key => iff_of_false (by simp) ?_⟩ fun ds heq hlen =>
      absurd ⟨ds, heq, hlen⟩ hwhole
    · rw [parseKeyHex]
      cases hstrip : Text.strip start text with
      | none => rfl
      | some digits =>
        dsimp only
        rw [if_pos fun hlen => hwhole ⟨digits, Text.strip_eq_some.mp hstrip, hlen⟩]
    · rintro ⟨digits, heq, hspells⟩
      exact hwhole ⟨digits, heq, by rw [hspells.length_eq, Vector.length_toList]⟩

/-- A character of two bytes lies across the end of a pair; and a first byte is written `+f`. -/
theorem parse_key_hex_panics :
    parseKeyHex (ascii "nodekey:") (ascii "nodekey:" ++ .replicate 61 48 ++ [195, 169, 48]) = none ∧
      parseKeyHex (ascii "nodekey:") (ascii "nodekey:+f" ++ .replicate 62 48) =
        some (some ⟨#[15] ++ .replicate 31 0, rfl⟩) := by
  decide

end Ts2021

end Rill
