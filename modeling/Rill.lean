import Rill.Bytes
import Rill.ReplayWindow
import Rill.Crypto
import Rill.Frame
import Rill.Session
import Rill.Table
import Rill.Handshake
import Rill.MeshData
import Rill.SessionNonce
import Rill.BroadcastNonce
import Rill.Transition
import Rill.Framing
import Rill.RaftRpc
import Rill.MeshHandshake
import Rill.MeshDispatch
import Rill.HandshakeNet
import Rill.HandshakeAgreement
import Rill.SessionOrigin
import Rill.DataOrigin
import Rill.StableSort
import Rill.HashOrder
import Rill.PathService
import Rill.PathOrder
import Rill.PathExpansion
import Rill.Text
import Rill.AuthKey
import Rill.Prefix
import Rill.Registry
import Rill.RouteMap
import Rill.Domain
import Rill.Coordinator
import Rill.Machine
import Rill.ReplicaStep
import Rill.ReplicaDeterminism
import Rill.UnloggedOps
import Rill.HandshakeRejection
import Rill.MeshCalls
import Rill.MeshVerdicts
import Rill.Packet
import Rill.RouteEngine
import Rill.Node
import Rill.NodeDelivery
import Rill.MeshEffects
import Rill.NodeEffects
import Rill.SessionNetmap
import Rill.BroadcastOnce
import Rill.PacketClamp
import Rill.AclMediation
import Rill.RekeyOverlap
import Rill.RegistryEffects
import Rill.RegistryInvariant
import Rill.Restore
import Rill.StoredCoordinator
import Rill.NodeIdentity
import Rill.OneTimeKeys
import Rill.CoordinatorViews
import Rill.PathEffects
import Rill.PathNames
import Rill.DomainEffects
import Rill.NamedNodes
import Rill.RevocationFinal
import Rill.Interaction
import Rill.ControlMessages
import Rill.ControlServer
import Rill.ServerEffects
import Rill.HandlerCalls
import Rill.NetworkMandate
import Rill.AclGate
import Rill.Membership
import Rill.PushRules
import Rill.PathConfinement
import Rill.PathKeys
import Rill.NetworkIsolation
import Rill.BroadcastKey
import Rill.Attempt
import Rill.BgpWire
import Rill.BgpPanics
import Rill.Incremental
import Rill.BgpStream
import Rill.BgpAdmission
import Rill.BgpRib
import Rill.RibChanges
import Rill.RibStored
import Rill.RibInvariant
import Rill.LatestPath
import Rill.AsLoop
import Rill.TokenBucket
import Rill.RateLimit
import Rill.BatchWindow
import Rill.RevokeBatch
import Rill.PrefixText
import Rill.AclWire
import Rill.PathNumbers
import Rill.PathIssue
import Rill.DefaultRoute
import Rill.TransitPath
import Rill.TableAssign
import Rill.TsRegistry
import Rill.TsRegistryRuns
import Rill.TsAddresses
import Rill.TsExitGate
import Rill.TsFrames
import Rill.TsServer
import Rill.TsServerSteps
import Rill.TsAvailability
import Rill.DerpHub
import Rill.FramedReader
import Rill.TsReaders
import Rill.NoiseStream
import Rill.NoiseFailure
import Rill.PrefixBlocks
import Rill.RouteSelection
import Rill.RosterPaths
import Rill.PathFreshness
import Rill.RosterProposal
import Rill.PathChoice
import Rill.RaftLog
import Rill.SnapshotTransport
import Rill.Incoming
import Rill.ProbeAnswers
import Rill.PathForwarding
import Rill.InPlaceOpen
import Rill.AsPathWidth
import Rill.UnderlayFraming
import Rill.BitGroups
import Rill.HexKeys
import Rill.Calendar
import Rill.Rfc3339
import Rill.ClientSession
import Rill.BgpFsm
import Rill.PathQueues
import Rill.Leases
import Rill.IssuedKeys
import Rill.NoiseRecords
import Rill.IpText
