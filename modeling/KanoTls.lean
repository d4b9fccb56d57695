import KanoTls.Machine
import KanoTls.Tasks
import KanoTls.Pending
import KanoTls.PendingExact
import KanoTls.Receive
import KanoTls.ReceiveMove
import KanoTls.ReceiveStep
import KanoTls.ReceiveShape
import KanoTls.ReceiveCapacity
import KanoTls.ReceiveLine
import KanoTls.ReceiveOrder
import KanoTls.ReceiveHeard
import KanoTls.ReceivePrefix
import KanoTls.ReceiveFin
import KanoTls.ReceiveEof
import KanoTls.ReceiveWake
import KanoTls.ReceiveRefusal
import KanoTls.Window
import KanoTls.WindowCredit
import KanoTls.WindowClose
import KanoTls.Link
import KanoTls.LinkMove
import KanoTls.LinkFlow
import KanoTls.LinkCredit
import KanoTls.LinkStream
import KanoTls.LinkSize
import KanoTls.Uot
import KanoTls.Relay
import KanoTls.RelayCredit
import KanoTls.RelayWrite
import KanoTls.RelayProgress
import KanoTls.RelayDeadlock
import KanoTls.ReceiveOverflow
import KanoTls.ReceiveMetered
import KanoTls.Frame
import KanoTls.Shaper
import KanoTls.Writer
import KanoTls.WriterLine
import KanoTls.WriterTurn
import KanoTls.WriterStep
import KanoTls.WriterFrames
import KanoTls.WriterRest
import KanoTls.WriterProgress
import KanoTls.WriterStream
import KanoTls.WriterOrder
import KanoTls.WriterLead
import KanoTls.WriterAcks
import KanoTls.WriterBacked
import KanoTls.WriterAnswers
import KanoTls.Entries
import KanoTls.Registry
import KanoTls.RegistryCount
import KanoTls.RegistryInbound
import KanoTls.RegistryLimit
import KanoTls.Retry
import KanoTls.Teardown
import KanoTls.TeardownClient
import KanoTls.TeardownOnce
import KanoTls.Lifecycle
import KanoTls.Pool
import KanoTls.PoolSpawn
import KanoTls.FrameStream
import KanoTls.Record
import KanoTls.RecordStream
import KanoTls.Patch
import KanoTls.Hello
import KanoTls.HelloInstance
import KanoTls.HelloLayout
import KanoTls.HelloAuth
import KanoTls.HelloLike
import KanoTls.HelloFingerprint
import KanoTls.HelloTwin
import KanoTls.Lru
import KanoTls.Replay
import KanoTls.TlsRecord
import KanoTls.Camouflage
import KanoTls.CamouflageClient
import KanoTls.CamouflageFlight
import KanoTls.CamouflageReplay
import KanoTls.Datagram
import KanoTls.Text
import KanoTls.IpText
import KanoTls.Target
import KanoTls.Inbound
import KanoTls.InboundExact
import KanoTls.Buffered
import KanoTls.Transport
import KanoTls.RecordWrite
import KanoTls.Config
import KanoTls.Flight3
import KanoTls.ShaperSizes
import KanoTls.StreamRead
import KanoTls.WriterPlain
import KanoTls.WriterCalm
import KanoTls.WriterOnce
import KanoTls.Number
import KanoTls.Script
import KanoTls.ScriptUsable
import KanoTls.ShaperFakes
import KanoTls.WriterDrain
import KanoTls.PaddingFrame
import KanoTls.ControlPacket
import KanoTls.Chunks
import KanoTls.HelloPatch
import KanoTls.HelloMessage
import KanoTls.HelloRelocate
import KanoTls.HelloName
import KanoTls.HelloAccept
import KanoTls.Outcome
import KanoTls.HelloChecked
import KanoTls.HelloPasses
import KanoTls.CamouflageChecked
import KanoTls.Fallback
import KanoTls.FallbackLine
import KanoTls.Coalesce
import KanoTls.ReadLoop
import KanoTls.CamouflagePool
import KanoTls.GreasePlaces
import KanoTls.GreaseRotation
import KanoTls.Stride
import KanoTls.ServerHelloPatch
import KanoTls.PoolGrowth
import KanoTls.PoolCall
import KanoTls.Destination
import KanoTls.Outbound
import KanoTls.Program
import KanoTls.CamouflageFetch
import KanoTls.CamouflageGate
import KanoTls.CamouflageRuns
import KanoTls.CamouflageLeader
import KanoTls.Dns
import KanoTls.Admission
import KanoTls.Socks5
import KanoTls.UdpAssociation
import KanoTls.Tunnel
import KanoTls.HandshakeAgreement
