import Rill.Attempt
import Rill.Bytes
import Rill.Prefix

/-!
# BGP messages on the wire

`rill-dn42/src/wire/mod.rs`. The decoder slices its input, so a decoded buffer comes to a message,
an error or a panic; each `while` loop of the source is `Attempt.readAll` of its body. The encoder
has no slice that can be out of range.
-/

namespace Rill.Bgp

def version : UInt8 := 4
def headerLen : ℕ := 19
def maxMsgLen : ℕ := 4096
def asTrans : UInt16 := 23456

def typeOpen : UInt8 := 1
def typeUpdate : UInt8 := 2
def typeNotification : UInt8 := 3
def typeKeepalive : UInt8 := 4
def typeRouteRefresh : UInt8 := 5

def afiIpv4 : UInt16 := 1
def afiIpv6 : UInt16 := 2
def safiUnicast : UInt8 := 1

def capMpBgp : UInt8 := 1
def capRouteRefresh : UInt8 := 2
def capFourOctetAs : UInt8 := 65

def asSet : UInt8 := 1
def asSequence : UInt8 := 2

inductive WireError where
  | badMarker
  | badLength (len : UInt16)
  | truncated
  | badOpen
  | badUpdate
  | unknownWellKnown (ty : UInt8)
  | tooLong
  | badType (ty : UInt8)
  deriving DecidableEq

inductive Capability where
  | mpBgp (afi : UInt16) (safi : UInt8)
  | routeRefresh
  | fourOctetAs (asn : UInt32)
  deriving DecidableEq

structure OpenMsg where
  as4 : UInt32
  holdTime : UInt16
  bgpId : BitVec 32
  capabilities : List Capability
  deriving DecidableEq

structure Segment where
  set : Bool
  asns : List UInt32
  deriving DecidableEq

inductive PathAttr where
  | origin (value : UInt8)
  | asPath (segs : List Segment)
  | as4Path (segs : List Segment)
  | nextHop (ip : BitVec 32)
  | communities (cs : List UInt32)
  | mpReach (afi : UInt16) (safi : UInt8) (hop : IpAddr) (nlri : List Prefix)
  | mpUnreach (afi : UInt16) (safi : UInt8) (nlri : List Prefix)
  deriving DecidableEq

structure UpdateMsg where
  withdrawn : List Prefix
  attrs : List PathAttr
  announced : List Prefix
  deriving DecidableEq

structure NotificationMsg where
  code : UInt8
  subcode : UInt8
  data : Bytes
  deriving DecidableEq

structure RouteRefreshMsg where
  afi : UInt16
  safi : UInt8
  deriving DecidableEq

inductive Message where
  | open (m : OpenMsg)
  | update (m : UpdateMsg)
  | notification (m : NotificationMsg)
  | keepalive
  | routeRefresh (m : RouteRefreshMsg)
  deriving DecidableEq

/-! ## Encoding -/

def Capability.encode : Capability → Bytes
  | .mpBgp afi safi => [capMpBgp, 4] ++ u16be afi ++ [0, safi]
  | .routeRefresh => [capRouteRefresh, 0]
  | .fourOctetAs asn => [capFourOctetAs, 4] ++ u32be asn

def octets (bits : UInt8) : ℕ := bits.toNat / 8 + if bits.toNat % 8 = 0 then 0 else 1

def writeNlri (p : Prefix) : Bytes :=
  p.len :: (beBytes 16 p.bits.toNat).take (min (octets p.len) (if p.v4 then 4 else 16))

/-- `write_segments`; its callers ask for four octets each (`wide`). -/
def writeSegments (segs : List Segment) (wide : Bool) : Bytes :=
  segs.flatMap fun seg =>
    (if seg.set then asSet else asSequence) :: UInt8.ofNat seg.asns.length ::
      seg.asns.flatMap fun asn =>
        if wide then u32be asn
        else if 65535 < asn.toNat then u16be asTrans else u16be (UInt16.ofNat asn.toNat)

def writeMpNlris (nlri : List Prefix) : Except WireError Bytes :=
  if nlri.any (·.v4) then .error .badUpdate else .ok (nlri.flatMap writeNlri)

def writeNextHop : IpAddr → Bytes
  | .v4 ip => 4 :: beBytes 4 ip.toNat
  | .v6 ip => 16 :: beBytes 16 ip.toNat

def PathAttr.value : PathAttr → Except WireError Bytes
  | .origin o => .ok [o]
  | .asPath segs => .ok (writeSegments segs true)
  | .as4Path segs => .ok (writeSegments segs true)
  | .nextHop ip => .ok (beBytes 4 ip.toNat)
  | .communities cs => .ok (cs.flatMap u32be)
  | .mpReach afi safi hop nlri => do
    let nlri ← writeMpNlris nlri
    .ok (u16be afi ++ [safi] ++ writeNextHop hop ++ [0] ++ nlri)
  | .mpUnreach afi safi nlri => do
    let nlri ← writeMpNlris nlri
    .ok (u16be afi ++ [safi] ++ nlri)

def PathAttr.ty : PathAttr → UInt8
  | .origin _ => 1
  | .asPath _ => 2
  | .as4Path _ => 17
  | .nextHop _ => 3
  | .communities _ => 8
  | .mpReach .. => 14
  | .mpUnreach .. => 15

def PathAttr.flags : PathAttr → UInt8
  | .as4Path _ => 0xC0
  | .communities _ | .mpReach .. | .mpUnreach .. => 0x80
  | .origin _ | .asPath _ | .nextHop _ => 0x40

def writeAttr (attr : PathAttr) : Except WireError Bytes := do
  let value ← attr.value
  if 255 < value.length then
    .ok ([attr.flags ||| 0x10, attr.ty] ++ u16be (UInt16.ofNat value.length) ++ value)
  else
    .ok ([attr.flags, attr.ty, UInt8.ofNat value.length] ++ value)

def writeAttrs : List PathAttr → Except WireError Bytes
  | [] => .ok []
  | attr :: attrs => do
    let head ← writeAttr attr
    let tail ← writeAttrs attrs
    .ok (head ++ tail)

def OpenMsg.myAs (m : OpenMsg) : UInt16 :=
  if 65535 < m.as4.toNat then asTrans else UInt16.ofNat m.as4.toNat

def OpenMsg.encode (m : OpenMsg) : Except WireError Bytes :=
  let caps := m.capabilities.flatMap Capability.encode
  if 255 < caps.length then .error .tooLong
  else .ok (version :: (u16be m.myAs ++ u16be m.holdTime ++ beBytes 4 m.bgpId.toNat ++
    [UInt8.ofNat (caps.length + 2), 2, UInt8.ofNat caps.length] ++ caps))

def UpdateMsg.encode (m : UpdateMsg) : Except WireError Bytes := do
  if m.withdrawn.any (!·.v4) || m.announced.any (!·.v4) then .error .badUpdate
  else
    let w := m.withdrawn.flatMap writeNlri
    if 65535 < w.length then .error .tooLong
    else
      let attrs ← writeAttrs m.attrs
      if 65535 < attrs.length then .error .tooLong
      else .ok (u16be (UInt16.ofNat w.length) ++ w ++ u16be (UInt16.ofNat attrs.length) ++ attrs ++
        m.announced.flatMap writeNlri)

def Message.ty : Message → UInt8
  | .open _ => typeOpen
  | .update _ => typeUpdate
  | .notification _ => typeNotification
  | .keepalive => typeKeepalive
  | .routeRefresh _ => typeRouteRefresh

def Message.body : Message → Except WireError Bytes
  | .open m => m.encode
  | .update m => m.encode
  | .notification m => .ok (m.code :: m.subcode :: m.data)
  | .keepalive => .ok []
  | .routeRefresh m => .ok (u16be m.afi ++ [0, m.safi])

def frame (ty : UInt8) (body : Bytes) : Bytes :=
  List.replicate 16 0xff ++ u16be (UInt16.ofNat (headerLen + body.length)) ++ ty :: body

def Message.encode (m : Message) : Except WireError Bytes := do
  let body ← m.body
  if maxMsgLen < headerLen + body.length then .error .tooLong else .ok (frame m.ty body)

/-! ## Decoding -/

open Attempt

def u16At (b : Bytes) (i : ℕ) : Attempt WireError UInt16 := do
  let w ← slice b i (i + 2)
  .ok (UInt16.ofNat (readBE w))

def u32At (b : Bytes) (i : ℕ) : Attempt WireError UInt32 := do
  let w ← slice b i (i + 4)
  .ok (UInt32.ofNat (readBE w))

def ipv4At (b : Bytes) (i : ℕ) : Attempt WireError (BitVec 32) := do
  let w ← slice b i (i + 4)
  .ok (BitVec.ofNat 32 (readBE w))

/-- A capability of its code and length octets and its value; unknown ones are skipped. -/
def decodeCapability (clen : UInt8) (cvalue : Bytes) : Attempt WireError (Option Capability) := do
  let code ← index cvalue 0
  if code = capMpBgp ∧ cvalue.length = 6 then
    let afi ← u16At cvalue 2
    let safi ← index cvalue 5
    .ok (some (.mpBgp afi safi))
  else if code = capRouteRefresh ∧ clen = 0 then .ok (some .routeRefresh)
  else if code = capFourOctetAs ∧ cvalue.length = 6 then
    let asn ← u32At cvalue 2
    .ok (some (.fourOctetAs asn))
  else .ok none

def readCapability (caps : Bytes) : Attempt WireError (Option Capability × Bytes) := do
  ensure (2 ≤ caps.length) .badOpen
  let clen ← index caps 1
  ensure (2 + clen.toNat ≤ caps.length) .badOpen
  let cvalue ← slice caps 0 (2 + clen.toNat)
  let ctail ← sliceFrom caps (2 + clen.toNat)
  let cap ← decodeCapability clen cvalue
  .ok (cap, ctail)

def readParam (rest : Bytes) : Attempt WireError (List Capability × Bytes) := do
  ensure (2 ≤ rest.length) .badOpen
  let plen ← index rest 1
  ensure (2 + plen.toNat ≤ rest.length) .badOpen
  let value ← slice rest 0 (2 + plen.toNat)
  let tail ← sliceFrom rest (2 + plen.toNat)
  let ty ← index value 0
  if ty = 2 then
    let caps ← sliceFrom value 2
    let caps ← readAll readCapability caps
    .ok (caps.reduceOption, tail)
  else .ok ([], tail)

/-- The last four-octet AS number in place of the two-octet one. -/
def lastAs4 (myAs : UInt32) (caps : List Capability) : UInt32 :=
  caps.foldl (fun as4 cap => match cap with | .fourOctetAs asn => asn | _ => as4) myAs

def decodeOpen (body : Bytes) : Attempt WireError Message := do
  ensure (10 ≤ body.length) .truncated
  let myAs ← u16At body 1
  let holdTime ← u16At body 3
  let bgpId ← ipv4At body 5
  let optLen ← index body 9
  ensure (10 + optLen.toNat ≤ body.length) .truncated
  let rest ← slice body 10 (10 + optLen.toNat)
  let params ← readAll readParam rest
  let capabilities := params.flatten
  .ok (.open { as4 := lastAs4 (UInt32.ofNat myAs.toNat) capabilities, holdTime, bgpId,
               capabilities })

/-- One prefix. Its octets are copied to the front of an array of sixteen. -/
def readNlri (v4 : Bool) (buf : Bytes) : Attempt WireError (Prefix × Bytes) := do
  let bits ← index buf 0
  ensure (1 + octets bits ≤ buf.length) .truncated
  let rear ← sliceFrom (List.replicate 16 0) (octets bits)
  let front ← slice buf 1 (1 + octets bits)
  let p ← ofOption .badUpdate (Prefix.new (BitVec.ofNat 128 (readBE (front ++ rear))) bits v4)
  let rest ← sliceFrom buf (1 + octets bits)
  .ok (p, rest)

def readNlris (buf : Bytes) (v4 : Bool) : Attempt WireError (List Prefix) :=
  readAll (readNlri v4) buf

def readWords (w : ℕ) : ℕ → Bytes → List UInt32
  | 0, _ => []
  | count + 1, b => UInt32.ofNat (readBE (b.take w)) :: readWords w count (b.drop w)

def readSegment (wide : Bool) (buf : Bytes) : Attempt WireError (Segment × Bytes) := do
  ensure (2 ≤ buf.length) .truncated
  let kind ← index buf 0
  let count ← index buf 1
  let asnLen := if wide then 4 else 2
  ensure (2 + count.toNat * asnLen ≤ buf.length) .truncated
  let asns ← slice buf 2 (2 + count.toNat * asnLen)
  let rest ← sliceFrom buf (2 + count.toNat * asnLen)
  .ok ({ set := kind == asSet, asns := readWords asnLen count.toNat asns }, rest)

def decodeSegmentsExact (buf : Bytes) (wide : Bool) : Attempt WireError (List Segment) :=
  readAll (readSegment wide) buf

/-- The sixteen octets of an IPv6 address carry an IPv4 address. -/
def isMapped (bits : Bytes) : Bool := bits.take 12 == List.replicate 10 0 ++ [0xff, 0xff]

def decodeNextHop (bytes : Bytes) : Attempt WireError IpAddr :=
  if bytes.length = 4 then do
    let ip ← ipv4At bytes 0
    .ok (.v4 ip)
  else if bytes.length = 16 ∨ bytes.length = 32 then do
    let bits ← slice bytes 0 16
    if isMapped bits then
      let ip ← ipv4At bits 12
      .ok (.v4 ip)
    else .ok (.v6 (BitVec.ofNat 128 (readBE bits)))
  else .error .badUpdate

def decodeMpReach (v : Bytes) : Attempt WireError PathAttr := do
  ensure (3 ≤ v.length) .truncated
  let afi ← u16At v 0
  let safi ← index v 2
  ensure (4 ≤ v.length) .truncated
  let nhLen ← index v 3
  ensure (4 + nhLen.toNat + 1 ≤ v.length) .truncated
  let nhBytes ← slice v 4 (4 + nhLen.toNat)
  let nextHop ← decodeNextHop nhBytes
  let rest ← sliceFrom v (5 + nhLen.toNat)
  let nlri ← readNlris rest (afi == afiIpv4)
  .ok (.mpReach afi safi nextHop nlri)

def decodeMpUnreach (v : Bytes) : Attempt WireError PathAttr := do
  ensure (3 ≤ v.length) .truncated
  let afi ← u16At v 0
  let safi ← index v 2
  let rest ← sliceFrom v 3
  let nlri ← readNlris rest (afi == afiIpv4)
  .ok (.mpUnreach afi safi nlri)

/-- What one turn of the loop over the attributes adds: communities are collected apart. -/
inductive AttrItem where
  | attr (a : PathAttr)
  | communities (cs : List UInt32)
  | skipped

def decodeAttr (flags ty : UInt8) (value : Bytes) : Attempt WireError AttrItem :=
  if ty = 1 ∧ value.length = 1 then do
    let o ← index value 0
    .ok (.attr (.origin o))
  else if ty = 2 then do
    let segs ← orElse (decodeSegmentsExact value true) (decodeSegmentsExact value false)
    .ok (.attr (.asPath segs))
  else if ty = 3 ∧ value.length = 4 then do
    let ip ← ipv4At value 0
    .ok (.attr (.nextHop ip))
  else if ty = 8 then
    if value.length % 4 = 0 then .ok (.communities (readWords 4 (value.length / 4) value))
    else .error .badUpdate
  else if ty = 14 then do
    let a ← decodeMpReach value
    .ok (.attr a)
  else if ty = 15 then do
    let a ← decodeMpUnreach value
    .ok (.attr a)
  else if ty = 17 then do
    let segs ← decodeSegmentsExact value true
    .ok (.attr (.as4Path segs))
  else if flags &&& 0x80 ≠ 0 then .ok .skipped
  else .error (.unknownWellKnown ty)

/-- The length field of an attribute, which is of two octets in the extended form. -/
def attrLen (ext : Bool) (buf : Bytes) : Attempt WireError ℕ :=
  if ext then do
    let len ← u16At buf 2
    .ok len.toNat
  else do
    let len ← index buf 2
    .ok len.toNat

/-- The flags, the type and the value of the attribute at the front, and what is behind it. -/
def splitAttr (buf : Bytes) : Attempt WireError ((UInt8 × UInt8 × Bytes) × Bytes) := do
  ensure (2 ≤ buf.length) .truncated
  let flags ← index buf 0
  let ty ← index buf 1
  let ext := flags &&& 0x10 != 0
  let hdr := if ext then 4 else 3
  ensure (hdr ≤ buf.length) .truncated
  let len ← attrLen ext buf
  ensure (hdr + len ≤ buf.length) .truncated
  let value ← slice buf hdr (hdr + len)
  let rest ← sliceFrom buf (hdr + len)
  .ok ((flags, ty, value), rest)

def readAttr (buf : Bytes) : Attempt WireError (AttrItem × Bytes) := do
  let ((flags, ty, value), rest) ← splitAttr buf
  let item ← decodeAttr flags ty value
  .ok (item, rest)

/-- The attributes in their order, and the communities of all of them in one at the end. -/
def collectAttrs (items : List AttrItem) : List PathAttr :=
  let attrs := items.filterMap fun item => match item with | .attr a => some a | _ => none
  let communities := items.flatMap fun item => match item with | .communities cs => cs | _ => []
  if communities = [] then attrs else attrs ++ [.communities communities]

def decodeAttrs (buf : Bytes) : Attempt WireError (List PathAttr) := do
  let items ← readAll readAttr buf
  .ok (collectAttrs items)

def decodeUpdate (body : Bytes) : Attempt WireError Message := do
  ensure (4 ≤ body.length) .truncated
  let wlen ← u16At body 0
  ensure (2 + wlen.toNat + 2 ≤ body.length) .truncated
  let w ← slice body 2 (2 + wlen.toNat)
  let withdrawn ← readNlris w true
  let alen ← u16At body (2 + wlen.toNat)
  ensure (2 + wlen.toNat + 2 + alen.toNat ≤ body.length) .truncated
  let attrs ← slice body (4 + wlen.toNat) (4 + wlen.toNat + alen.toNat)
  let attrs ← decodeAttrs attrs
  let rest ← sliceFrom body (4 + wlen.toNat + alen.toNat)
  let announced ← readNlris rest true
  .ok (.update { withdrawn, attrs, announced })

def decodeNotification (body : Bytes) : Attempt WireError Message := do
  let code ← ofOption .truncated body[0]?
  let subcode ← ofOption .truncated body[1]?
  .ok (.notification { code, subcode, data := body.drop 2 })

def decodeRouteRefresh (body : Bytes) : Attempt WireError Message := do
  ensure (body.length = 4) .truncated
  let afi ← u16At body 0
  let safi ← index body 3
  .ok (.routeRefresh { afi, safi })

def decodeBody (ty : UInt8) (body : Bytes) : Attempt WireError Message :=
  if ty = typeKeepalive then .ok .keepalive
  else if ty = typeOpen then decodeOpen body
  else if ty = typeUpdate then decodeUpdate body
  else if ty = typeNotification then decodeNotification body
  else if ty = typeRouteRefresh then decodeRouteRefresh body
  else .error (.badType ty)

def decode (buf : Bytes) : Attempt WireError Message := do
  ensure (headerLen ≤ buf.length) .truncated
  let marker ← slice buf 0 16
  ensure (marker.all (· == 0xff)) .badMarker
  let len ← u16At buf 16
  ensure (len.toNat = buf.length) (.badLength len)
  let body ← sliceFrom buf headerLen
  let ty ← index buf 18
  decodeBody ty body

end Rill.Bgp
