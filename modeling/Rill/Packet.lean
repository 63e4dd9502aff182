import Rill.Bytes
import Rill.Prefix

/-!
# The packets inside the mesh

Parsing of inner packets (`rill-node/src/packet/mod.rs`) and the clamping of the segment size that
a TCP SYN announces (`packet/mtu.rs`). An index or a slice out of bounds panics in the source; here
the result is then `none`.
-/

namespace Rill

inductive TransportProto where
  | tcp
  | udp
  | icmp
  | icmpv6
  | other (v : UInt8)
  deriving DecidableEq

structure PacketInfo where
  src : IpAddr
  dst : IpAddr
  proto : TransportProto
  totalLen : ℕ
  deriving DecidableEq

inductive PacketError where
  | notIp
  | truncated
  deriving DecidableEq

def IpAddr.isMulticast : IpAddr → Bool
  | .v4 octets => octets >>> 28 == 0xe#32
  | .v6 octets => octets >>> 120 == 0xff#128

def slice (off n : ℕ) (buf : Bytes) : Option Bytes :=
  if off + n ≤ buf.length then some (field off n buf) else none

def overwrite (off : ℕ) (bytes buf : Bytes) : Option Bytes :=
  if off + bytes.length ≤ buf.length then
    some (buf.take off ++ (bytes ++ buf.drop (off + bytes.length)))
  else none

def addrV4 (octets : Bytes) : IpAddr := .v4 (BitVec.ofNat 32 (readBE octets))

def addrV6 (octets : Bytes) : IpAddr := .v6 (BitVec.ofNat 128 (readBE octets))

def protoFromU8 (v : UInt8) : TransportProto :=
  if v = 6 then .tcp
  else if v = 17 then .udp
  else if v = 1 then .icmp
  else if v = 58 then .icmpv6
  else .other v

def ipVersion (first : UInt8) : ℕ := first.toNat / 16

def ihlBytes (first : UInt8) : ℕ := first.toNat % 16 * 4

def parseV4 (buf : Bytes) : Option (Except PacketError PacketInfo) :=
  if buf.length < 20 then some (.error .truncated)
  else do
    let first ← buf[0]?
    if ihlBytes first < 20 ∨ buf.length < ihlBytes first then some (.error .truncated)
    else
      let src ← slice 12 4 buf
      let dst ← slice 16 4 buf
      let proto ← buf[9]?
      let len ← slice 2 2 buf
      some (.ok
        { src := addrV4 src, dst := addrV4 dst, proto := protoFromU8 proto, totalLen := readBE len })

def parseV6 (buf : Bytes) : Option (Except PacketError PacketInfo) :=
  if buf.length < 40 then some (.error .truncated)
  else do
    let src ← slice 8 16 buf
    let dst ← slice 24 16 buf
    let proto ← buf[6]?
    let len ← slice 4 2 buf
    some (.ok
      { src := addrV6 src, dst := addrV6 dst, proto := protoFromU8 proto,
        totalLen := 40 + readBE len })

def parsePacket (buf : Bytes) : Option (Except PacketError PacketInfo) :=
  if buf.isEmpty then some (.error .notIp)
  else do
    let first ← buf[0]?
    if ipVersion first = 4 then parseV4 buf
    else if ipVersion first = 6 then parseV6 buf
    else some (.error .notIp)

def defaultEgressMtu : UInt16 := 1500

def meshEncapOverheadV6 : UInt16 := 106

def tunConservativeMtu : UInt16 := defaultEgressMtu - meshEncapOverheadV6

def l3Proto (pkt : Bytes) : Option ℕ := do
  let first ← pkt[0]?
  some (if ipVersion first = 4 then 9 else 6)

/-- Where the transport header starts, if the packet has one. -/
def l4Offset (pkt : Bytes) : Option (Option ℕ) := do
  let first ← pkt[0]?
  if ipVersion first = 4 then
    some (if 20 ≤ ihlBytes first ∧ ihlBytes first ≤ pkt.length then some (ihlBytes first) else none)
  else if ipVersion first = 6 then some (if 40 ≤ pkt.length then some 40 else none)
  else some none

def isTcpSyn (pkt : Bytes) : Option Bool := do
  match ← l4Offset pkt with
  | none => some false
  | some l4 =>
    if pkt.length < l4 + 14 then some false
    else
      let proto ← pkt[← l3Proto pkt]?
      if proto ≠ 6 then some false
      else
        let flags ← pkt[l4 + 13]?
        some (flags &&& 0x02 != 0)

def saturatingSub16 (x y : UInt16) : UInt16 := if x ≤ y then 0 else x - y

/-- Folds the carries of a sum back in. -/
def foldCarry (s : ℕ) : ℕ := if s / 65536 = 0 then s else foldCarry (s % 65536 + s / 65536)
termination_by s

def onesComplementAdd (a b : UInt16) : UInt16 := UInt16.ofNat (foldCarry (a.toNat + b.toNat))

/-- The offset of the last segment size option before `stop`; a malformed option ends the scan. -/
def scanMss (pkt : Bytes) (stop i : ℕ) (found : Option ℕ) : Option (Option ℕ) :=
  if _h : i + 1 < stop then
    match pkt[i]? with
    | none => none
    | some kind =>
      if kind = 0 then some found
      else if kind = 1 then scanMss pkt stop (i + 1) found
      else
        match pkt[i + 1]? with
        | none => none
        | some len =>
          if _hlen : len.toNat < 2 ∨ stop < i + len.toNat then some found
          else scanMss pkt stop (i + len.toNat) (if kind = 2 ∧ len = 4 then some i else found)
  else some found
termination_by stop - i

/-- Lowers the segment size in the option at `pos`; the checksum follows incrementally. -/
def lowerMss (pkt : Bytes) (l4 pos : ℕ) (maxMss : UInt16) : Option (Bool × Bytes) := do
  let old := UInt16.ofNat (readBE (← slice (pos + 2) 2 pkt))
  if old ≤ maxMss then some (false, pkt)
  else
    let pkt ← overwrite (pos + 2) (u16be maxMss) pkt
    let hc := UInt16.ofNat (readBE (← slice (l4 + 16) 2 pkt))
    let hc := ~~~ onesComplementAdd (~~~hc) (onesComplementAdd (~~~old) maxMss)
    let pkt ← overwrite (l4 + 16) (u16be hc) pkt
    some (true, pkt)

/-- Whether the segment size was lowered, and the packet after the call. -/
def clampMss (pkt : Bytes) (mtu : UInt16) : Option (Bool × Bytes) := do
  match ← l4Offset pkt with
  | none => some (false, pkt)
  | some l4 =>
    if pkt.length < l4 + 20 then some (false, pkt)
    else if !(← isTcpSyn pkt) then some (false, pkt)
    else
      let offset ← pkt[l4 + 12]?
      let doff := offset.toNat / 16 * 4
      if doff < 20 ∨ pkt.length < l4 + doff then some (false, pkt)
      else
        let first ← pkt[0]?
        if ipVersion first ≠ 4 ∧ ipVersion first ≠ 6 then some (false, pkt)
        else
          let maxMss := saturatingSub16 mtu (if ipVersion first = 4 then 40 else 60)
          match ← scanMss pkt (l4 + doff) (l4 + 20) none with
          | none => some (false, pkt)
          | some pos => lowerMss pkt l4 pos maxMss

end Rill
