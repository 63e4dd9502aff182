import Rill.AuthKey
import Rill.MeshData
import Rill.PrefixText

/-!
# Issued auth keys

`generate_auth_key` writes a key for a network with the time it takes from the clock and the secret
it draws. Such a key is read back with what it was made of, and expires when it should.
-/

namespace Rill.AuthKey

def expiryOf (ttlSecs now : UInt64) : UInt64 :=
  if ttlSecs = 0 then 0 else saturatingAdd64 now ttlSecs

def generate (network : Text) (ttlSecs now : UInt64) (secret : Vector UInt8 32) :
    Except AuthKeyError Text := do
  validateNetwork network
  .ok (ascii "lrk-" ++ (network ++ 45 :: (Text.ofNat (expiryOf ttlSecs now).toNat ++
    45 :: base32Encode secret.toList)))

def isExpired (key : Text) (now : UInt64) : Bool :=
  match parse key with
  | .ok (_, expiry, _) => expiry != 0 && expiry < now
  | .error _ => false

theorem length_base32Encode (secret : Vector UInt8 32) :
    (base32Encode secret.toList).length = secretChars := by
  obtain ⟨ds, bits, -, htext, hbits, hregrouped⟩ := exists_base32Encode secret.toList
  have hlength := hregrouped.length_eq
  rw [List.length_map, Vector.length_toList] at hlength
  rw [htext, digitText, List.length_map, secretChars]
  omega

theorem dash_notMem {network : Text} (h : validateNetwork network = .ok ()) : 45 ∉ network := by
  intro hmem
  rw [validateNetwork] at h
  split_ifs at h with hbad
  rw [Bool.or_eq_true, not_or, Bool.not_eq_true', Bool.not_eq_false] at hbad
  have hdash := List.all_eq_true.mp hbad.2 45 hmem
  revert hdash
  decide

theorem dash_notMem_ofNat (n : ℕ) : 45 ∉ Text.ofNat n := by
  intro hmem
  have hdigit := Text.isDigit_of_mem_ofNat 45 hmem
  revert hdigit
  decide

theorem saturatingAdd64_ne_zero {x y : UInt64} (hy : y ≠ 0) : saturatingAdd64 x y ≠ 0 := by
  rw [saturatingAdd64]
  split_ifs with h
  · decide
  · intro hsum
    rw [hsum, UInt64.lt_iff_toNat_lt, UInt64.toNat_zero, Nat.not_lt, Nat.le_zero] at h
    obtain rfl : x = 0 := UInt64.toNat_inj.mp h
    exact hy (by rwa [UInt64.zero_add] at hsum)

theorem parse_issued {network : Text} (h : validateNetwork network = .ok ()) (expiry : UInt64)
    (secret : Vector UInt8 32) :
    parse (ascii "lrk-" ++ (network ++ 45 :: (Text.ofNat expiry.toNat ++
      45 :: base32Encode secret.toList))) = .ok (network, expiry, base32Encode secret.toList) := by
  have hlen : secret.toList.length = secretLen := secret.length_toList
  simp only [parse, Text.strip_append, Text.splitOnce_append (dash_notMem h),
    Text.splitOnce_append (dash_notMem_ofNat _), h, Text.parseUnsigned_ofNat expiry.toNat_lt,
    length_base32Encode, base32Decode_base32Encode, hlen, Option.elim_some, bind, Except.bind,
    ne_eq, not_true, if_false, UInt64.ofNat_toNat]

/-- A key can be issued for every network with a name, and for no other text. It is read as what it
was made of, its secret as the bytes that were drawn, and it has expired when its time is over. -/
theorem issued_key_read (network : Text) (ttlSecs now t : UInt64) (secret : Vector UInt8 32) :
    (generate network ttlSecs now secret >>= parse) = (validateNetwork network).map
        (fun _ => (network, expiryOf ttlSecs now, base32Encode secret.toList)) ∧
      base32Decode (base32Encode secret.toList) = some secret.toList ∧
      (generate network ttlSecs now secret).map (isExpired · t) = (validateNetwork network).map
        fun _ => decide (ttlSecs ≠ 0 ∧ saturatingAdd64 now ttlSecs < t) := by
  cases h : validateNetwork network with
  | error e =>
    rw [generate, h]
    exact ⟨rfl, base32Decode_base32Encode _, rfl⟩
  | ok _ =>
    have hparse := parse_issued h (expiryOf ttlSecs now) secret
    rw [generate, h]
    refine ⟨hparse, base32Decode_base32Encode _, congrArg Except.ok ?_⟩
    simp only [isExpired, hparse]
    by_cases hzero : ttlSecs = 0
    · simp [expiryOf, hzero]
    · simp [expiryOf, hzero, saturatingAdd64_ne_zero hzero]

end Rill.AuthKey
