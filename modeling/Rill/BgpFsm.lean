import Rill.BgpWire

/-!
# The BGP state machine

`BgpFsm` of `rill-dn42/src/fsm/mod.rs`: events in, actions out. The reason texts of its
notifications are not sent and are left out.
-/

namespace Rill.Bgp

def errOpen : UInt8 := 2
def errHoldTimer : UInt8 := 4
def errFsm : UInt8 := 5
def errCease : UInt8 := 6
def subBadPeerAs : UInt8 := 2
def subBadBgpId : UInt8 := 3
def subUnacceptableHold : UInt8 := 6
def subUnsupportedCapability : UInt8 := 7
def subMaxPrefixes : UInt8 := 1

inductive State where
  | idle
  | connect
  | openSent
  | openConfirm
  | established
  deriving DecidableEq

structure LocalConfig where
  as4 : UInt32
  bgpId : BitVec 32
  holdTime : UInt16
  peerAs4 : Option UInt32
  deriving DecidableEq

inductive Action where
  | send (m : Message)
  | close
  deriving DecidableEq

structure BgpFsm where
  state : State
  localConfig : LocalConfig
  negotiatedHold : UInt16
  deriving DecidableEq

namespace BgpFsm

def new (localConfig : LocalConfig) : BgpFsm :=
  { state := .idle, localConfig, negotiatedHold := localConfig.holdTime }

def notify (code subcode : UInt8) : Action := .send (.notification { code, subcode, data := [] })

def reject (fsm : BgpFsm) (code subcode : UInt8) : BgpFsm × List Action :=
  ({ fsm with state := .idle }, [notify code subcode, .close])

def notifyFsmError (fsm : BgpFsm) : BgpFsm × List Action := fsm.reject errFsm 1

def start (fsm : BgpFsm) : BgpFsm := { fsm with state := .connect }

def localOpen (localConfig : LocalConfig) : OpenMsg :=
  { as4 := localConfig.as4, holdTime := localConfig.holdTime, bgpId := localConfig.bgpId,
    capabilities := [.mpBgp afiIpv4 safiUnicast, .mpBgp afiIpv6 safiUnicast, .routeRefresh,
                     .fourOctetAs localConfig.as4] }

def onTcpEstablished (fsm : BgpFsm) : BgpFsm × List Action :=
  match fsm.state with
  | .connect | .idle =>
    ({ fsm with state := .openSent, negotiatedHold := fsm.localConfig.holdTime },
      [.send (.open (localOpen fsm.localConfig))])
  | .openSent | .openConfirm | .established => fsm.notifyFsmError

def onTcpClosed (fsm : BgpFsm) : BgpFsm := { fsm with state := .idle }

def onHoldTimer (fsm : BgpFsm) : BgpFsm × List Action :=
  match fsm.state with
  | .openConfirm | .established => fsm.reject errHoldTimer 0
  | _ => (fsm, [])

def hasMp (caps : List Capability) : Bool :=
  caps.any fun cap => match cap with
    | .mpBgp afi safi => safi == safiUnicast && (afi == afiIpv4 || afi == afiIpv6)
    | _ => false

def hasAs4 (caps : List Capability) : Bool :=
  caps.any fun cap => match cap with | .fourOctetAs _ => true | _ => false

def hasRr (caps : List Capability) : Bool :=
  caps.any fun cap => match cap with | .routeRefresh => true | _ => false

def negotiate (mine theirs : UInt16) : UInt16 :=
  if mine = 0 ∨ theirs = 0 then 0 else min mine theirs

def onOpen (fsm : BgpFsm) (m : OpenMsg) : BgpFsm × List Action :=
  if fsm.state ≠ .openSent then fsm.notifyFsmError
  else if 0 < m.holdTime ∧ m.holdTime < 3 then fsm.reject errOpen subUnacceptableHold
  else if fsm.localConfig.peerAs4.any (m.as4 ≠ ·) then fsm.reject errOpen subBadPeerAs
  else if m.bgpId = 0 then fsm.reject errOpen subBadBgpId
  else if !hasMp m.capabilities || !hasAs4 m.capabilities || !hasRr m.capabilities then
    fsm.reject errOpen subUnsupportedCapability
  else
    ({ fsm with state := .openConfirm,
                negotiatedHold := negotiate fsm.localConfig.holdTime m.holdTime },
      [.send .keepalive])

def onKeepalive (fsm : BgpFsm) : BgpFsm × List Action :=
  match fsm.state with
  | .openConfirm => ({ fsm with state := .established }, [])
  | .established => (fsm, [])
  | _ => fsm.notifyFsmError

/-- `on_update`, and the handling of a route refresh: legal in an established session only. -/
def whenEstablished (fsm : BgpFsm) : BgpFsm × List Action :=
  if fsm.state = .established then (fsm, []) else fsm.notifyFsmError

def onMessage (fsm : BgpFsm) : Message → BgpFsm × List Action
  | .open m => fsm.onOpen m
  | .keepalive => fsm.onKeepalive
  | .update _ => fsm.whenEstablished
  | .notification _ => ({ fsm with state := .idle }, [.close])
  | .routeRefresh _ => fsm.whenEstablished

def cease (fsm : BgpFsm) : BgpFsm × List Action :=
  ({ fsm with state := .idle }, [notify errCease 0])

def notifyMaxPrefix (fsm : BgpFsm) : BgpFsm × List Action := fsm.reject errCease subMaxPrefixes

end BgpFsm

end Rill.Bgp

