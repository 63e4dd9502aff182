import Rill.Crypto

/-!
# Text

A string of the source is the list of its UTF-8 bytes: lengths, searches and comparisons of the
source are on bytes, and every separator it looks for is ASCII.
-/

namespace Rill

abbrev Text := Bytes

namespace Text

/-- `str::split_once` at an ASCII separator: the text before and after its first occurrence. -/
def splitOnce (sep : UInt8) : Text → Option (Text × Text)
  | [] => none
  | b :: rest =>
    if b = sep then some ([], rest) else (splitOnce sep rest).map fun s => (b :: s.1, s.2)

def strip (start : Text) (text : Text) : Option Text :=
  if start.isPrefixOf text then some (text.drop start.length) else none

def isDigit (b : UInt8) : Bool := 48 ≤ b && b ≤ 57

def isLower (b : UInt8) : Bool := 97 ≤ b && b ≤ 122

/-- `str::parse` at an unsigned integer type of `width` bits: an optional plus sign and digits. -/
def parseUnsigned (width : ℕ) (text : Text) : Option ℕ :=
  let digits := if text.head? = some 43 then text.tail else text
  let value := digits.foldl (fun n b => 10 * n + (b.toNat - 48)) 0
  if digits.isEmpty || !digits.all isDigit || 2 ^ width ≤ value then none else some value

def ofNat (n : ℕ) : Text := (Nat.toDigits 10 n).map fun c => UInt8.ofNat c.toNat

/-- The order of strings, byte by byte. -/
def rank (text : Text) : List ℕ := text.map UInt8.toNat

theorem strip_eq_some {start text rest : Text} :
    strip start text = some rest ↔ text = start ++ rest := by
  rw [strip]
  constructor
  · intro h
    split_ifs at h with hstart
    obtain ⟨tail, rfl⟩ := List.isPrefixOf_iff_prefix.mp hstart
    rw [← Option.some.inj h, List.drop_left]
  · rintro rfl
    rw [if_pos (List.isPrefixOf_iff_prefix.mpr (List.prefix_append ..)), List.drop_left]

theorem strip_append (start rest : Text) : strip start (start ++ rest) = some rest :=
  strip_eq_some.mpr rfl

end Text

end Rill
