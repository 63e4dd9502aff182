import Rill.IpText
import Rill.TsRegistryRuns

/-!
# The addresses of the nodes of the ts2021 server

A node's two addresses end in its address number, which is written in decimal. The last part of an
IPv4 address takes a number up to 255 and the last group of an IPv6 address four digits, which are
read as hexadecimal ones. So the addresses are those the server means to give out up to the 255th
new node, and from the 256th on there is a node with a text that is no address.
-/

namespace Rill
namespace Ts2021
open IpText (parseIp)

/-- The number that the decimal digits of `n` stand for in an IPv6 group. -/
def hexReading (n : ℕ) : ℕ := (Text.ofNat n).foldl (fun v b => 16 * v + (b.toNat - 48)) 0

def sharedRange : Prefix := (Prefix.new (0x64400000#32 ++ 0#96) 10 true).get (by decide)

def localRange : Prefix :=
  (Prefix.new 0xfd7a115ca1e000000000000000000000#128 48 false).get (by decide)

/-- The addresses of the nodes are addresses, lie in the two ranges and are not shared. -/
structure Registry.Addressed (r : Registry) : Prop where
  valid : ∀ (nid : ℤ) (e : NodeEntry), r.nodes[nid]? = some e →
    ∃ v4 v6, e.addresses.map (Prefix.parse parseIp) = [some v4, some v6] ∧
      v4.Within sharedRange ∧ v6.Within localRange
  distinct : ∀ (nid nid' : ℤ) (e e' : NodeEntry), r.nodes[nid]? = some e →
    r.nodes[nid']? = some e' → nid ≠ nid' → ∀ a ∈ e.addresses, ∀ b ∈ e'.addresses,
      Prefix.parse parseIp a ≠ Prefix.parse parseIp b

/-- The addresses of the `n`-th node as they are read. -/
def sharedAddr (n : ℕ) : IpAddr := .v4 (0x64400000#32 + BitVec.ofNat 32 n)

def localAddr (n : ℕ) : IpAddr :=
  .v6 (0xfd7a115ca1e000000000000000000000#128 + BitVec.ofNat 128 (hexReading n))

theorem slash_notMem {start : Text} (hstart : 47 ∉ start) (n : ℕ) : 47 ∉ start ++ Text.ofNat n := by
  rw [List.mem_append, not_or]
  exact ⟨hstart, fun hmem => nomatch Text.isDigit_of_mem_ofNat 47 hmem⟩

theorem parse_append {addr len : Text} (hslash : 47 ∉ addr) {width : ℕ}
    (hlen : Text.parseUnsigned 8 len = some width) :
    Prefix.parse parseIp (addr ++ 47 :: len) = (parseIp addr).bind fun ip =>
      Prefix.new (Prefix.addrBits ip) (UInt8.ofNat width) (Prefix.isV4 ip) := by
  rw [Prefix.parse, Text.splitOnce_append hslash]
  simp only [Option.bind_eq_bind, Option.bind_some, hlen]

theorem length_ofNat_le_iff (n k : ℕ) : (Text.ofNat n).length ≤ k + 1 ↔ n < 10 ^ (k + 1) := by
  induction k generalizing n with
  | zero =>
    rw [Text.ofNat_eq]
    split_ifs with hn
    · simpa using hn
    · have hne := List.length_pos_iff.mpr (Text.ofNat_ne_nil (n / 10))
      rw [List.length_append, List.length_singleton]
      omega
  | succ k ih =>
    rw [Text.ofNat_eq]
    split_ifs with hn
    · have hpow : 10 ≤ 10 ^ (k + 1 + 1) := Nat.le_self_pow (by omega) 10
      simp
      omega
    · rw [List.length_append, List.length_singleton, Nat.add_le_add_iff_right, ih (n / 10),
        Nat.div_lt_iff_lt_mul (by omega), Nat.pow_succ 10 (k + 1)]

theorem showIp_sharedAddr {n : ℕ} (hn : n ≤ 255) :
    IpText.showIp (sharedAddr n) = ascii "100.64.0." ++ Text.ofNat n := by
  have hnat : (0x64400000#32 + BitVec.ofNat 32 n).toNat = 0x64400000 + n := by
    rw [BitVec.toNat_add, BitVec.toNat_ofNat, BitVec.toNat_ofNat]
    omega
  have h₁ : (0x64400000 + n) / 16777216 = 100 := by omega
  have h₂ : (0x64400000 + n) / 65536 % 256 = 64 := by omega
  have h₃ : (0x64400000 + n) / 256 % 256 = 0 := by omega
  have h₄ : (0x64400000 + n) % 256 = n := by omega
  simp only [sharedAddr, IpText.showIp, IpText.showIpv4, hnat, h₁, h₂, h₃, h₄]
  rfl

theorem readIpv4_large {n : ℕ} (hn : 255 < n) :
    IpText.readIpv4 (ascii "100.64.0." ++ Text.ofNat n) = none := by
  have hlast : IpText.readOctet (Text.ofNat n) = none := by
    rw [IpText.readOctet, IpText.readNumber_digits (IpText.isDigit_of_mem_ofNat le_rfl),
      IpText.value_ofNat le_rfl, Text.foldl_ofNat, if_pos (.inr (.inr (.inr hn)))]
  change IpText.readIpv4 (Text.ofNat 100 ++ 46 :: (Text.ofNat 64 ++ 46 ::
    (Text.ofNat 0 ++ 46 :: Text.ofNat n))) = none
  simp only [IpText.readIpv4, IpText.readOctet_ofNat (show 100 < 256 by omega) (IpText.isDigit_dot _),
    IpText.readOctet_ofNat (show 64 < 256 by omega) (IpText.isDigit_dot _),
    IpText.readOctet_ofNat (show 0 < 256 by omega) (IpText.isDigit_dot _), IpText.readChar, if_true,
    Option.bind_eq_bind, Option.bind_some, Option.bind_none, hlast]

/-- A text that ends behind its last dot in more than an octet is no IPv6 address either. -/
theorem readIpv6_large {n : ℕ} (hn : 255 < n) :
    IpText.readIpv6 (ascii "100.64.0." ++ Text.ofNat n) = none := by
  have hdot : ∀ b ∈ (46 :: (ascii "64.0." ++ Text.ofNat n) : Text).head?,
      IpText.isDigit 16 b = false := by
    intro b hb
    rw [← Option.some.inj hb]
    rfl
  have hgroup : IpText.readGroup (ascii "100.64.0." ++ Text.ofNat n) = _ :=
    IpText.readGroup_showHex (show 256 < 65536 by omega) hdot
  have hgroups : IpText.readGroups 8 false (ascii "100.64.0." ++ Text.ofNat n) =
      ([256], false, 46 :: (ascii "64.0." ++ Text.ofNat n)) := by
    simp only [IpText.readGroups, IpText.separated, Bool.false_eq_true, if_false,
      readIpv4_large hn, ite_self, hgroup]
    rfl
  rw [IpText.readIpv6, hgroups]
  rfl

theorem parseIp_shared (n : ℕ) : parseIp (ascii "100.64.0." ++ Text.ofNat n) =
    if n ≤ 255 then some (sharedAddr n) else none := by
  split_ifs with hn
  · rw [← showIp_sharedAddr hn, IpText.parseIp_showIp]
  · rw [parseIp, IpText.readIpAddr, readIpv4_large (not_le.mp hn), readIpv6_large (not_le.mp hn)]
    rfl

theorem readGroup_ofNat (n : ℕ) : IpText.readGroup (Text.ofNat n) =
    if n < 10000 then some (hexReading n, []) else none := by
  have hdigits := IpText.isDigit_of_mem_ofNat (show 10 ≤ 16 by omega) (n := n)
  have hlen := length_ofNat_le_iff n 3
  have hvalue : IpText.value 16 (Text.ofNat n) = hexReading n := IpText.value_ofNat (by omega) n
  rw [IpText.readGroup, IpText.readNumber_digits hdigits, hvalue]
  by_cases hn : n < 10000
  · have hlt := IpText.value_lt hdigits
    have hpow : 16 ^ (Text.ofNat n).length ≤ 16 ^ 4 := Nat.pow_le_pow_right (by omega) (hlen.mpr hn)
    rw [hvalue] at hlt
    rw [if_pos hn, if_neg]
    rintro (hnil | hlong | ⟨hzero, -⟩ | hbound)
    · exact Text.ofNat_ne_nil n hnil
    · simp only [Option.any_some, decide_eq_true_eq] at hlong
      omega
    · cases hzero
    · omega
  · rw [if_neg hn, if_pos]
    refine .inr (.inl ?_)
    simp only [Option.any_some, decide_eq_true_eq]
    omega

theorem parseIp_local (n : ℕ) : parseIp (ascii "fd7a:115c:a1e0::" ++ Text.ofNat n) =
    if n < 10000 then some (localAddr n) else none := by
  have hv4 : IpText.readIpv4 (Text.ofNat n) = none := by
    have hnone := IpText.readIpv4_of_group
      (IpText.isDigit_of_mem_ofNat (show 10 ≤ 16 by omega) (n := n))
      (show ∀ b ∈ ([] : Text).head?, _ by simp)
    rwa [List.append_nil] at hnone
  have hhead : IpText.readGroups 8 false (ascii "fd7a:115c:a1e0::" ++ Text.ofNat n) = _ :=
    IpText.readGroups_show (show ∀ g ∈ [0xfd7a, 0x115c, 0xa1e0], g < 65536 by decide)
      (.inr ⟨Text.ofNat n, rfl⟩) (show 3 ≤ 8 by omega)
  have htail : IpText.readGroups 4 false (Text.ofNat n) =
      if n < 10000 then ([hexReading n], false, []) else ([], false, Text.ofNat n) := by
    simp only [IpText.readGroups, IpText.separated, Bool.false_eq_true, if_false, hv4, ite_self,
      readGroup_ofNat]
    split_ifs <;> rfl
  have hnone : IpText.readIpv4 (ascii "fd7a:115c:a1e0::" ++ Text.ofNat n) = none := rfl
  have hsum : BitVec.ofNat 128 (IpText.ofGroups ([0xfd7a, 0x115c, 0xa1e0] ++
      (List.replicate 4 0 ++ [hexReading n]))) =
      0xfd7a115ca1e000000000000000000000#128 + BitVec.ofNat 128 (hexReading n) := by
    apply BitVec.eq_of_toNat_eq
    simp only [IpText.ofGroups, List.replicate_succ, List.replicate_zero, List.cons_append,
      List.nil_append, List.foldl_cons, List.foldl_nil, BitVec.toNat_add, BitVec.toNat_ofNat]
    omega
  have hread : IpText.readIpv6 (ascii "fd7a:115c:a1e0::" ++ Text.ofNat n) =
      some (BitVec.ofNat 128 (IpText.ofGroups ([0xfd7a, 0x115c, 0xa1e0] ++ (List.replicate
        (5 - (IpText.readGroups 4 false (Text.ofNat n)).1.length) 0 ++
          (IpText.readGroups 4 false (Text.ofNat n)).1))),
        (IpText.readGroups 4 false (Text.ofNat n)).2.2) := by
    rw [IpText.readIpv6, hhead]
    rfl
  rw [parseIp, IpText.readIpAddr, hnone, hread, htail]
  split_ifs
  · exact congrArg (fun octets => some (IpAddr.v6 octets)) hsum
  · cases htext : Text.ofNat n with
    | nil => exact absurd htext (Text.ofNat_ne_nil n)
    | cons b text => rfl

theorem parse_v4 (n : ℕ) :
    Prefix.parse parseIp (ascii "100.64.0." ++ Text.ofNat n ++ ascii "/32") =
      if n ≤ 255 then some (.fromIp (sharedAddr n)) else none := by
  have hslash : 47 ∉ ascii "100.64.0." ++ Text.ofNat n := slash_notMem (by decide) n
  have hlen : Text.parseUnsigned 8 (ascii "32") = some 32 := by decide
  refine (parse_append hslash hlen).trans ?_
  rw [parseIp_shared]
  split_ifs
  · rw [Option.bind_some]
    exact (Option.some_get _).symm
  · rfl

theorem parse_v6 (n : ℕ) :
    Prefix.parse parseIp (ascii "fd7a:115c:a1e0::" ++ Text.ofNat n ++ ascii "/128") =
      if n < 10000 then some (.fromIp (localAddr n)) else none := by
  have hslash : 47 ∉ ascii "fd7a:115c:a1e0::" ++ Text.ofNat n := slash_notMem (by decide) n
  have hlen : Text.parseUnsigned 8 (ascii "128") = some 128 := by decide
  refine (parse_append hslash hlen).trans ?_
  rw [parseIp_local]
  split_ifs
  · rw [Option.bind_some]
    exact (Option.some_get _).symm
  · rfl

theorem parse_addresses {e : NodeEntry} (he : e.suffix.toNat ≤ 255) :
    e.addresses.map (Prefix.parse parseIp) =
      [some (.fromIp (sharedAddr e.suffix.toNat)), some (.fromIp (localAddr e.suffix.toNat))] := by
  rw [NodeEntry.addresses, List.map_cons, List.map_singleton, parse_v4, parse_v6, if_pos he,
    if_pos (by omega)]

theorem toIp_fromIp (ip : IpAddr) : (Prefix.fromIp ip).toIp = ip := by
  cases ip with
  | v4 octets =>
    refine congrArg IpAddr.v4 ?_
    change (((octets ++ 0#96 : BitVec 128) >>> 96) <<< 96).extractLsb' 96 32 = octets
    ext i hi
    rw [BitVec.getElem_extractLsb', BitVec.getLsbD_shiftLeft, BitVec.getLsbD_ushiftRight,
      Nat.add_sub_cancel_left, BitVec.getLsbD_append, if_neg (by omega), Nat.add_sub_cancel_left,
      BitVec.getLsbD_eq_getElem hi, decide_eq_true (by omega), decide_eq_false (by omega)]
    rfl
  | v6 octets => simp [Prefix.fromIp, Prefix.new, Prefix.isV4, Prefix.addrBits, Prefix.toIp]

theorem fromIp_injective : Function.Injective Prefix.fromIp :=
  Function.LeftInverse.injective toIp_fromIp

theorem sharedAddr_inj {n m : ℕ} (hn : n ≤ 255) (hm : m ≤ 255) (h : sharedAddr n = sharedAddr m) :
    n = m := by
  have hnat := congrArg BitVec.toNat ((BitVec.add_right_inj _).mp (IpAddr.v4.inj h))
  rw [BitVec.toNat_ofNat, BitVec.toNat_ofNat] at hnat
  omega

theorem localAddr_inj {n m : ℕ} (hn : n ≤ 255) (hm : m ≤ 255) (h : localAddr n = localAddr m) :
    n = m := by
  have hread : ∀ n < 256,
      hexReading n / 256 * 100 + hexReading n / 16 % 16 * 10 + hexReading n % 16 = n ∧
        hexReading n < 2 ^ 128 := by decide +kernel
  obtain ⟨hn', hltn⟩ := hread n (by omega)
  obtain ⟨hm', hltm⟩ := hread m (by omega)
  have hnat := congrArg BitVec.toNat ((BitVec.add_right_inj _).mp (IpAddr.v6.inj h))
  rw [BitVec.toNat_ofNat, BitVec.toNat_ofNat, Nat.mod_eq_of_lt hltn, Nat.mod_eq_of_lt hltm] at hnat
  rw [← hn', ← hm', hnat]

theorem within_shared {n : ℕ} (hn : n ≤ 255) :
    (Prefix.fromIp (sharedAddr n)).Within sharedRange := by
  have hall : ∀ n < 256, (Prefix.fromIp (sharedAddr n)).isCoveredBy sharedRange = true := by
    decide +kernel
  exact Prefix.within_of_isCoveredBy (hall n (by omega))

theorem within_local {n : ℕ} (hn : n ≤ 255) : (Prefix.fromIp (localAddr n)).Within localRange := by
  have hall : ∀ n < 256, (Prefix.fromIp (localAddr n)).isCoveredBy localRange = true := by
    decide +kernel
  exact Prefix.within_of_isCoveredBy (hall n (by omega))

namespace Registry
variable {r r' : Registry} {k : ℕ}

theorem Sound.suffix_toNat (h : r.Sound k) (hk : k ≤ 255) {nid : ℤ} {e : NodeEntry}
    (he : r.nodes[nid]? = some e) : (e.suffix.toNat : ℤ) = nid ∧ e.suffix.toNat ≤ 255 := by
  obtain ⟨-, hpos, hle, hsuffix⟩ := h.numbered nid e he
  have hnat : e.suffix.toNat = nid.toNat := by
    rw [hsuffix, UInt32.toNat_ofNat']
    exact Nat.mod_eq_of_lt (by omega)
  omega

theorem Sound.addressed (h : r.Sound k) (hk : k ≤ 255) : r.Addressed where
  valid := by
    intro nid e he
    have hsmall := (h.suffix_toNat hk he).2
    exact ⟨_, _, parse_addresses hsmall, within_shared hsmall, within_local hsmall⟩
  distinct := by
    intro nid nid' e e' he he' hne a ha b hb heq
    obtain ⟨hnid, hsmall⟩ := h.suffix_toNat hk he
    obtain ⟨hnid', hsmall'⟩ := h.suffix_toNat hk he'
    have hsuffix : e.suffix.toNat ≠ e'.suffix.toNat := by omega
    have hread := List.mem_map_of_mem (f := Prefix.parse parseIp) ha
    have hread' := List.mem_map_of_mem (f := Prefix.parse parseIp) hb
    rw [parse_addresses hsmall, List.mem_pair] at hread
    rw [parse_addresses hsmall', List.mem_pair, ← heq] at hread'
    -- Within a family the numbers differ, and the families differ.
    rcases hread with hread | hread <;> rcases hread' with hread' | hread' <;>
      have hip := fromIp_injective (Option.some.inj (hread.symm.trans hread'))
    · exact hsuffix (sharedAddr_inj hsmall hsmall' hip)
    · nomatch hip
    · nomatch hip
    · exact hsuffix (localAddr_inj hsmall hsmall' hip)

theorem not_addressed {nid : ℤ} {e : NodeEntry} (he : r.nodes[nid]? = some e)
    (hsuffix : e.suffix = 256) : ¬ r.Addressed := by
  intro haddressed
  obtain ⟨v4, v6, hparse, -, -⟩ := haddressed.valid nid e he
  rw [NodeEntry.addresses, List.map_cons, parse_v4, hsuffix] at hparse
  cases (List.cons.inj hparse).1

theorem Sound.exists_large (h : r.Sound k) (hk : k ≤ 255) {calls : List RegistryCall}
    (hmany : 255 < k + r.newNodes parseIp calls) :
    ∃ (pre : List RegistryCall) (r' : Registry) (nid : ℤ) (e : NodeEntry), pre <+: calls ∧
      Transition.run (step parseIp) r pre = some r' ∧ r'.nodes[nid]? = some e ∧ e.suffix = 256 := by
  induction calls generalizing r k with
  | nil =>
    rw [newNodes] at hmany
    omega
  | cons a as ih =>
    obtain ⟨t, ht⟩ : ∃ t, r.step parseIp a = some t := h.step_isSome a
    rw [newNodes_cons ht] at hmany
    have hchange := change_of_step ht
    have hbit := (r.admits a).toNat_le
    by_cases hlast : k + (r.admits a).toNat ≤ 255
    · obtain ⟨pre, r', nid, e, hpre, hrun, he, hsuffix⟩ :=
        ih (h.change hchange (by omega)) hlast (by omega)
      refine ⟨a :: pre, r', nid, e, List.cons_prefix_cons.mpr ⟨rfl, hpre⟩, ?_, he, hsuffix⟩
      rw [Transition.run, ht]
      exact hrun
    · obtain ⟨hadmits, rfl⟩ : r.admits a = true ∧ k = 255 := by
        cases hadmits : r.admits a with
        | true => exact ⟨rfl, by omega⟩
        | false =>
          rw [hadmits, Bool.toNat_false] at hlast
          omega
      rw [hadmits] at hchange
      refine ⟨[a], t, r.nextId, ?_⟩
      cases hchange with
      | @add machine nodeKey hostname now hmachine hfree events =>
        refine ⟨r.newEntry machine nodeKey hostname now, List.prefix_append [a] as, ?_,
          Table.getElem?_insert_self _ _ _, h.nextSuffix⟩
        rw [Transition.run, ht]
        rfl

/-- The server that has given out at most 2^22 - 2 addresses has only ever had addresses that are
valid, in range and not shared exactly if these were at most 255. -/
theorem addresses_valid_iff (authKeys : List Text) (whitelist : RoutesWhitelist)
    (calls : List RegistryCall)
    (hfew : (new authKeys whitelist).newNodes parseIp calls < 2 ^ 22 - 1) :
    (∀ pre r, pre <+: calls →
        Transition.run (step parseIp) (new authKeys whitelist) pre = some r →
          r.Addressed) ↔
      (new authKeys whitelist).newNodes parseIp calls ≤ 255 := by
  have hstart := sound_new authKeys whitelist
  constructor
  · intro hall
    by_contra hmany
    have hlarge : 255 < 0 + (new authKeys whitelist).newNodes parseIp calls := by omega
    obtain ⟨pre, r, nid, e, hpre, hrun, he, hsuffix⟩ := hstart.exists_large (by omega) hlarge
    exact not_addressed he hsuffix (hall pre r hpre hrun)
  · intro hsmall pre r hpre hrun
    have hcount : 0 + (new authKeys whitelist).newNodes parseIp pre ≤ _ :=
      (Nat.zero_add _).trans_le (newNodes_mono hpre)
    obtain ⟨r', hr', hsound⟩ := hstart.run (hcount.trans_lt (by omega))
    cases hr'.symm.trans hrun
    exact hsound.addressed (by omega)

section Lab

theorem addresses_valid_iff_lab :
    labRegistry.newNodes parseIp [labRegister 1, labRegister 2] = 2 ∧
      ∀ pre r, pre <+: [labRegister 1, labRegister 2] →
        Transition.run (step parseIp) labRegistry pre = some r → r.Addressed := by
  have hcount : labRegistry.newNodes parseIp [labRegister 1, labRegister 2] = 2 := by
    decide +kernel
  exact ⟨hcount, (addresses_valid_iff _ _ _ (hcount.trans_lt (by decide))).mpr
    (hcount.trans_le (by decide))⟩

/-- The 256th new node of a server is given a text that is no address. -/
theorem text_no_address :
    ∃ r e, Transition.run (step parseIp) labRegistry
        (labRegister 1 :: labPassings 254 ++ [labRegister 2]) = some r ∧
      labRegistry.newNodes parseIp (labRegister 1 :: labPassings 254 ++ [labRegister 2]) <
          2 ^ 22 - 1 ∧
        r.nodes[(256 : ℤ)]? = some e ∧
          e.addresses = [ascii "100.64.0.256/32", ascii "fd7a:115c:a1e0::256/128"] ∧
            Prefix.parse parseIp (ascii "100.64.0.256/32") = none ∧ ¬ r.Addressed := by
  obtain ⟨events, hrun⟩ : ∃ events, Transition.run (step parseIp) labRegistry
      (labRegister 1 :: labPassings 254 ++ [labRegister 2]) = some _ := run_labReturn (by decide)
  have he : ((labPassed 254 events).joined (labMachine 2) (labMachine 2)
      (ascii "m2") 0).nodes[(256 : ℤ)]? = some ((labPassed 254 events).newEntry
        (labMachine 2) (labMachine 2) (ascii "m2") 0) := Table.getElem?_insert_self _ _ _
  have hlength : (labRegister 1 :: labPassings 254 ++ [labRegister 2]).length = 510 := by
    decide +kernel
  have haddresses : ∀ e : NodeEntry, e.suffix = 256 →
      e.addresses = [ascii "100.64.0.256/32", ascii "fd7a:115c:a1e0::256/128"] := by
    intro e hsuffix
    rw [NodeEntry.addresses, hsuffix]
    decide
  refine ⟨_, _, hrun, ?_, he, haddresses _ rfl, by decide, ?_⟩
  · exact (newNodes_le_length _).trans_lt (by omega)
  · exact not_addressed he rfl

end Lab

end Registry

end Ts2021

end Rill
