import OpcuaEdge.ReadYourWrites
import OpcuaEdge.Overlap
import OpcuaEdge.Keys
import OpcuaEdge.Records
import OpcuaEdge.AssetTree
import OpcuaEdge.Agreement
import OpcuaEdge.ModbusLink
import OpcuaEdge.Backoff
import OpcuaEdge.EventHistory
import OpcuaEdge.SchemaVersion
import OpcuaEdge.SchemaGrowth
import OpcuaEdge.Migration
import OpcuaEdge.StoreTxn
import OpcuaEdge.LatestValues
import OpcuaEdge.Persistable
import OpcuaEdge.Snapshot
import OpcuaEdge.Refusal
import OpcuaEdge.Codec
import OpcuaEdge.FailedReads
import OpcuaEdge.EventIsolation
import OpcuaEdge.Addresses
import OpcuaEdge.AddressBits
import OpcuaEdge.UsableNumbers
import OpcuaEdge.ParentChain
import OpcuaEdge.NodePartition
import OpcuaEdge.RestoreRange
import OpcuaEdge.AlarmText
import OpcuaEdge.AlarmRecords
import OpcuaEdge.Lifecycle
import OpcuaEdge.Integrity
import OpcuaEdge.Recency
import OpcuaEdge.Controller
import OpcuaEdge.Recovery
import OpcuaEdge.Counters
import OpcuaEdge.Expressible
import OpcuaEdge.SyntheticPlant
import OpcuaEdge.SyntheticTemplate
import OpcuaEdge.Benchmark
import OpcuaEdge.BenchmarkWrites
import OpcuaEdge.AlarmLog
