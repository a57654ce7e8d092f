import Metaflow.Cache.DropHistory
import Metaflow.Grpc.PlatformCache
import Metaflow.Hmap.IdMap.U128IdMapRefinement
import Metaflow.Hmap.Lru.DoubleKeyRefinement
import Metaflow.Hmap.Lru.U128Lru
import Metaflow.Receiver.Udp
import Metaflow.AgentPolicy.FastPathOrigins
import Metaflow.AgentPolicy.InterestTable
import Metaflow.FlowGenerator.SeqList
import Metaflow.Queue.OverwriteQueueRuns
import Metaflow.Geo.NetmaskQuery
import Metaflow.Segmenttree.Clear
import Metaflow.Segmenttree.SegmentTree
import Metaflow.FlowGenerator.FlowConservation
import Metaflow.FlowGenerator.FlowTimeKeys
import Metaflow.AgentCommon.DecapsulateSafety
import Metaflow.AgentCommon.PacketTags
import Metaflow.ProtocolLogs.DnsNameEnd
import Metaflow.ProtocolLogs.DnsSafety
import Metaflow.ProtocolLogs.SessionKey
import Metaflow.Pcap.Worker
import Metaflow.Sender.Delivery
import Metaflow.Collector.FlowAggrConservation
import Metaflow.Collector.LifetimeTotals
import Metaflow.Datatype.PortUnion
import Metaflow.Policy.AclReading
import Metaflow.Datatype.MergeCover
import Metaflow.Datatype.RangeConvert
import Metaflow.Grpc.EpcInWan
import Metaflow.Policy.CidrTable
import Metaflow.Policy.WanInterface
import Metaflow.Policy.AclUpdate
import Metaflow.AgentCommon.NpbAction
import Metaflow.AgentCommon.PortRangeList
import Metaflow.AgentPolicy.NetmaskTable
import Metaflow.AgentPolicy.LabelerCidrs
import Metaflow.FlowGenerator.FlowMatch
import Metaflow.FlowGenerator.L7Rrt
import Metaflow.FlowGenerator.TcpPerf
import Metaflow.FlowGenerator.FlowMapKeys
import Metaflow.ProtocolLogs.RedisValues
import Metaflow.Querier.TimeFill
import Metaflow.Querier.IpFilter
