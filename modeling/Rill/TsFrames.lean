import Rill.Bytes
import Rill.TsRegistry

/-!
# Frames of a map stream

`rill-ts2021/src/server/netmap.rs`: the netmap of a node as JSON, in a frame with its length, and
for a client that asks for it inside a raw zstd block. Writing JSON out is the library's and a
parameter. A raw block takes less than 2^17 bytes; `none` is the panic of the assertion on that.
-/

namespace Rill
namespace Ts2021

inductive Json where
  | null
  | bool (b : Bool)
  | num (n : ℤ)
  | str (s : Text)
  | arr (items : List Json)
  | obj (fields : List (Text × Json))

structure NetmapCtx where
  user : Text
  dnsDomain : Text
  domain : Text
  derpRegion : UInt16
  derpHostname : Text
  derpPort : UInt16

def padded (width n : ℕ) : Text :=
  List.replicate (width - (Text.ofNat n).length) 48 ++ Text.ofNat n

/-- A time in UTC; the date is counted from the first of March of the year 0. -/
def rfc3339 (unix : UInt64) : Text :=
  let secs := unix.toNat % 86400
  let z := unix.toNat / 86400 + 719468
  let era := z / 146097
  let doe := z % 146097
  let yoe := (doe - doe / 1460 + doe / 36524 - doe / 146096) / 365
  let doy := doe - (365 * yoe + yoe / 4 - yoe / 100)
  let mp := (5 * doy + 2) / 153
  let d := doy - (153 * mp + 2) / 5 + 1
  let m := if mp < 10 then mp + 3 else mp - 9
  let y := if m ≤ 2 then yoe + era * 400 + 1 else yoe + era * 400
  padded 4 y ++ ascii "-" ++ padded 2 m ++ ascii "-" ++ padded 2 d ++ ascii "T" ++
    padded 2 (secs / 3600) ++ ascii ":" ++ padded 2 (secs / 60 % 60) ++ ascii ":" ++
    padded 2 (secs % 60) ++ ascii "Z"

def hexDigit (n : ℕ) : UInt8 := if n < 10 then UInt8.ofNat (48 + n) else UInt8.ofNat (87 + n)

def hex (key : Key32) : Text :=
  key.toList.flatMap fun b => [hexDigit (b.toNat / 16), hexDigit (b.toNat % 16)]

def intText (n : ℤ) : Text :=
  if n < 0 then 45 :: Text.ofNat n.natAbs else Text.ofNat n.natAbs

namespace Json

def texts (items : List Text) : Json := .arr (items.map .str)

def node (ctx : NetmapCtx) (e : NodeEntry) : Json :=
  .obj [
    (ascii "ID", .num e.nid),
    (ascii "StableID", .str (intText e.nid)),
    (ascii "Name", .str (e.hostname ++ ascii "." ++ ctx.user ++ ascii "." ++ ctx.dnsDomain ++
      ascii ".")),
    (ascii "User", .num 1),
    (ascii "Key", .str (ascii "nodekey:" ++ hex e.nodeKey)),
    (ascii "Machine", .str (ascii "mkey:" ++ hex e.machine)),
    (ascii "DiscoKey", .str (ascii "discokey:" ++ hex e.discoKey)),
    (ascii "Addresses", texts e.addresses),
    (ascii "AllowedIPs", texts (e.addresses ++ e.approvedRoutes)),
    (ascii "Endpoints", texts e.endpoints),
    (ascii "HomeDERP", .num (e.preferredDerp.getD ctx.derpRegion).toNat),
    (ascii "Hostinfo", .obj [
      (ascii "Hostname", .str e.hostname),
      (ascii "RoutableIPs", texts e.announcedRoutes)]),
    (ascii "Created", .str (rfc3339 e.created)),
    (ascii "LastSeen", .str (rfc3339 e.lastSeen)),
    (ascii "Cap", .num 141),
    (ascii "Online", .bool e.online),
    (ascii "MachineAuthorized", .bool true),
    (ascii "PrimaryRoutes", texts e.approvedRoutes),
    (ascii "CapMap", .obj [
      (ascii "default-auto-update", .arr [.bool false]),
      (ascii "https://tailscale.com/cap/file-sharing", .arr []),
      (ascii "https://tailscale.com/cap/is-admin", .arr []),
      (ascii "https://tailscale.com/cap/ssh", .arr [])])]

def derpMap (ctx : NetmapCtx) : Json :=
  let region := Text.ofNat ctx.derpRegion.toNat
  .obj [(ascii "Regions", .obj [(region, .obj [
    (ascii "RegionID", .num ctx.derpRegion.toNat),
    (ascii "RegionCode", .str ctx.derpHostname),
    (ascii "RegionName", .str (ascii "landscape-rill embedded DERP")),
    (ascii "Nodes", .arr [.obj [
      (ascii "Name", .str region),
      (ascii "RegionID", .num ctx.derpRegion.toNat),
      (ascii "HostName", .str ctx.derpHostname),
      (ascii "DERPPort", .num ctx.derpPort.toNat),
      (ascii "STUNPort", .num (-1))]])])])]

end Json

/-- What a map stream sends. -/
inductive MapFrame where
  | full (self : NodeEntry) (peers : List NodeEntry) (now : UInt64)
  | delta (changed : List NodeEntry) (removed : List ℤ) (now : UInt64)
  | keepalive (now : UInt64)

namespace MapFrame

def json (ctx : NetmapCtx) : MapFrame → Json
  | .full self peers now => .obj [
      (ascii "Node", .node ctx self),
      (ascii "Peers", .arr (peers.map (.node ctx))),
      (ascii "DERPMap", .derpMap ctx),
      (ascii "DNSConfig", .obj [(ascii "Domains", .arr [.str ctx.dnsDomain])]),
      (ascii "Domain", .str ctx.domain),
      (ascii "PacketFilters", .obj [(ascii "base", .arr [.obj [
        (ascii "SrcIPs", .arr [.str (ascii "*")]),
        (ascii "DstPorts", .arr [.obj [
          (ascii "IP", .str (ascii "*")),
          (ascii "Ports", .obj [(ascii "First", .num 0), (ascii "Last", .num 65535)])]])]])]),
      (ascii "UserProfiles", .arr [.obj [
        (ascii "ID", .num 1),
        (ascii "LoginName", .str ctx.user),
        (ascii "DisplayName", .str ctx.user)]]),
      (ascii "ControlTime", .str (rfc3339 now))]
  | .delta changed removed now => .obj (
      [(ascii "ControlTime", .str (rfc3339 now))] ++
      (if changed.isEmpty then [] else
        [(ascii "PeersChanged", .arr (changed.map (.node ctx)))]) ++
      (if removed.isEmpty then [] else [(ascii "PeersRemoved", .arr (removed.map .num))]))
  | .keepalive now => .obj [
      (ascii "KeepAlive", .bool true),
      (ascii "ControlTime", .str (rfc3339 now))]

def zstdRawFrame (data : Bytes) : Option Bytes :=
  if data.length < 2 ^ 17 then
    some ([0x28, 0xb5, 0x2f, 0xfd] ++ [0xa0] ++ leBytes 4 data.length ++
      (leBytes 4 (data.length * 8 + 1)).take 3 ++ data)
  else none

/-- `frame`: the length, little endian, and the JSON or its zstd frame. -/
def encode (toVec : Json → Bytes) (ctx : NetmapCtx) (compress : Bool) (f : MapFrame) :
    Option Bytes :=
  let json := toVec (f.json ctx)
  (if compress then zstdRawFrame json else some json).map fun payload =>
    leBytes 4 (payload.length % 2 ^ 32) ++ payload

def Fits (toVec : Json → Bytes) (ctx : NetmapCtx) (compress : Bool) (f : MapFrame) : Prop :=
  compress = true → (toVec (f.json ctx)).length < 2 ^ 17

theorem encode_isSome_iff {toVec : Json → Bytes} {ctx : NetmapCtx} {compress : Bool}
    {f : MapFrame} : (f.encode toVec ctx compress).isSome ↔ f.Fits toVec ctx compress := by
  rw [encode, Fits, Option.isSome_map]
  cases compress with
  | false => simp
  | true => simp [zstdRawFrame]

end MapFrame

mutual

/-- A writer for examples, which puts every text between quotes as it is. -/
def labWriter : Json → Text
  | .null => ascii "null"
  | .bool b => if b then ascii "true" else ascii "false"
  | .num n => Text.ofNat n.toNat
  | .str s => 34 :: s ++ [34]
  | .arr items => 91 :: labItems items ++ [93]
  | .obj fields => 123 :: labFields fields ++ [125]

def labItems : List Json → Text
  | [] => []
  | [x] => labWriter x
  | x :: y :: rest => labWriter x ++ 44 :: labItems (y :: rest)

def labFields : List (Text × Json) → Text
  | [] => []
  | [(k, v)] => labWriter (.str k) ++ 58 :: labWriter v
  | (k, v) :: y :: rest => labWriter (.str k) ++ 58 :: labWriter v ++ 44 :: labFields (y :: rest)

end

end Ts2021

end Rill
