import IpTcp.Lib.Run
import IpTcp.Lib.Stream
import IpTcp.Lib.Heap
import IpTcp.Lib.HeapOrder
import IpTcp.Tcp.Types
import IpTcp.Tcp.RingBuffer
import IpTcp.Tcp.Checksum
import IpTcp.Tcp.Socket
import IpTcp.Tcp.PacketActions
import IpTcp.Tcp.Endpoint
import IpTcp.Tcp.Sender
import IpTcp.Tcp.EndpointMoves
import IpTcp.Tcp.Receiver
import IpTcp.Tcp.AckProcessing
import IpTcp.Tcp.FlowControl
import IpTcp.Tcp.Connection
import IpTcp.Tcp.Teardown
import IpTcp.Tcp.Flow
import IpTcp.Tcp.FlowSteps
import IpTcp.Tcp.Joint
import IpTcp.Tcp.Acknowledgement
import IpTcp.Tcp.Closing
import IpTcp.Tcp.ReceiveHalf
import IpTcp.Tcp.StreamIntegrity
import IpTcp.Tcp.IsnShift
import IpTcp.Tcp.Handshake
import IpTcp.Tcp.HandshakeAgreement
import IpTcp.Tcp.HandshakeCalls
import IpTcp.Tcp.SendFailure
import IpTcp.Lib.GoMap
import IpTcp.Network.FwdTable
import IpTcp.Rip.Packet
import IpTcp.Rip.Handler
import IpTcp.Network.HandlePacket
import IpTcp.Network.Locking
import IpTcp.Network.NodeSteps
import IpTcp.Network.NextHop
import IpTcp.Network.Isolation
import IpTcp.Rip.Emission
import IpTcp.Network.Forwarding
import IpTcp.Network.HeaderChecksum
import IpTcp.Network.SliceBounds
import IpTcp.Network.OwnRoutes
import IpTcp.Rip.UpdateRule
import IpTcp.Rip.Topology
import IpTcp.Rip.Delivery
import IpTcp.Rip.Soundness
import IpTcp.Rip.Settled
import IpTcp.Rip.Triggered
import IpTcp.Tcp.Ports
import IpTcp.Tcp.EarlyArrivals
import IpTcp.Tcp.DeliveryOrder
import IpTcp.Tcp.InFlight
import IpTcp.Tcp.ReadFile
import IpTcp.Tcp.WriteShutdown
import IpTcp.Tcp.ItemQueue
import IpTcp.Rip.WireFormat
import IpTcp.Tcp.SegmentFormat
import IpTcp.Network.SameRoute
import IpTcp.Rip.PoisonedReverse
import IpTcp.Tcp.InFlightSize
import IpTcp.Tcp.ReadLoop
import IpTcp.Tcp.AckNumbers
import IpTcp.Internet.Routes
import IpTcp.Internet.Epochs
import IpTcp.Internet.Convergence
import IpTcp.Internet.Travel
import IpTcp.Internet.Stack
import IpTcp.Internet.StackRefinement
import IpTcp.Internet.Staleness
import IpTcp.Internet.Running
import IpTcp.Goroutines.Points
import IpTcp.Goroutines.Waiting
import IpTcp.Goroutines.Paths
import IpTcp.Tcp.FullBuffer
import IpTcp.Tcp.WindowStall
import IpTcp.Tcp.LostSegment
import IpTcp.Tcp.FileTransfer
