import RadioHead.Lib.Run
import RadioHead.Lib.Memory
import RadioHead.Wire
import RadioHead.Firmware
import RadioHead.Bridge
import RadioHead.RF95
import RadioHead.Views
import RadioHead.Answers
import RadioHead.Radio
import RadioHead.RecvBounds
import RadioHead.Reception
import RadioHead.ModeShadow
import RadioHead.LostEvents
import RadioHead.RoundTrip
import RadioHead.Rig
import RadioHead.ReliableDatagram
import RadioHead.ReliableNetwork
import RadioHead.Acknowledged
import RadioHead.InOrder
import RadioHead.RoutingTable
import RadioHead.Lib.FifoMap
import RadioHead.RouteOrder
import RadioHead.Router
import RadioHead.WaitLoop
import RadioHead.Lib.Clock
import RadioHead.Lib.Polling
import RadioHead.Lib.Feed
import RadioHead.UartDriver
import RadioHead.ShortReads
import RadioHead.ReceiveTimeout
import RadioHead.TimedDatagram
import RadioHead.Retransmission
import RadioHead.AckFlags
import RadioHead.TimedReceive
import RadioHead.Mesh
import RadioHead.Sends
import RadioHead.EndToEnd
import RadioHead.MeshBounds
import RadioHead.Lib.NextHop
import RadioHead.Lib.Medium
import RadioHead.Discovery
import RadioHead.RouteLearning
import RadioHead.RouteFailure
import RadioHead.HopLimit
import RadioHead.Flooding
import RadioHead.Resolution
import RadioHead.MeshNetwork
import RadioHead.LoopFreedom
import RadioHead.ChainDiscovery
import RadioHead.MeshSend
import RadioHead.Swallowed
import RadioHead.Provenance
import RadioHead.Neighbours
import RadioHead.MeshDelivery
import RadioHead.Conversation
import RadioHead.LinkIds
import RadioHead.ChainDelivery
import RadioHead.TreeDiscovery
import RadioHead.FloodBound
