import MuQuinet.Lib.Machines
import MuQuinet.ReassemblyRoundTrip
import MuQuinet.DeliveryIsolation
import MuQuinet.PacketBounds
import MuQuinet.TcpIntegrity
import MuQuinet.StaleNotifications
import MuQuinet.WakeUpDelivery
import MuQuinet.FdTable
import MuQuinet.DaemonSurvival
import MuQuinet.ReceiveBound
import MuQuinet.LiveChannels
import MuQuinet.DatagramIsolation
import MuQuinet.HandshakeSafety
import MuQuinet.SendWindow
import MuQuinet.AcknowledgedKept
import MuQuinet.StreamNumbering
import MuQuinet.Checksums
import MuQuinet.Transmit
import MuQuinet.EmittedHeaders
import MuQuinet.WireRoundTrip
import MuQuinet.HandlerEffects
import MuQuinet.PacketEffects
import MuQuinet.ReplyShape
import MuQuinet.ErrnoEncoding
import MuQuinet.Lib.Exchanges
import MuQuinet.ReplyMatching
import MuQuinet.PcbSelection
import MuQuinet.DefragRuns
import MuQuinet.Lib.OrderedLists
import MuQuinet.InsertionOrder
import MuQuinet.LengthRewrite
import MuQuinet.ReplyOverflow
import MuQuinet.PortUniqueness
import MuQuinet.AddressLeak
import MuQuinet.Lib.Lockstep
import MuQuinet.ClosingRaces
import MuQuinet.PassThrough
import MuQuinet.DescriptorLeaks
import MuQuinet.ServedChannels
import MuQuinet.DuplicateFragments
import MuQuinet.TransportLocation
import MuQuinet.ReassemblyTimers
import MuQuinet.PeerlessSends
import MuQuinet.SendtoFrame
import MuQuinet.ConnectAnswers
import MuQuinet.ConnectCompletions
import MuQuinet.DeferredReceives
import MuQuinet.DeadDescriptors
import MuQuinet.LengthFields
import MuQuinet.Lib.Registries
import MuQuinet.PollSet
import MuQuinet.Lib.Loops
import MuQuinet.InternetChecksum
import MuQuinet.Lib.Base128
import MuQuinet.RequestCodec
import MuQuinet.FieldSizes
import MuQuinet.ByteExchanges
import MuQuinet.ClientIsolation
import MuQuinet.ConnectionLives
import MuQuinet.SocketInvariants
import MuQuinet.BufferAccounts
import MuQuinet.SentSegments
import MuQuinet.DevicePackets
import MuQuinet.ReceiveQueue
import MuQuinet.Network
