import PacketFilter.Contracts.AccessWidths
import PacketFilter.Contracts.Addressing
import PacketFilter.Contracts.Box
import PacketFilter.Contracts.Bubbles
import PacketFilter.Contracts.Callbacks
import PacketFilter.Contracts.CommandLine
import PacketFilter.Contracts.Completion
import PacketFilter.Contracts.Construction
import PacketFilter.Contracts.CounterReads
import PacketFilter.Contracts.Counters
import PacketFilter.Contracts.Delivery
import PacketFilter.Contracts.Exposure
import PacketFilter.Contracts.FilterStrings
import PacketFilter.Contracts.HandlerMessages
import PacketFilter.Contracts.HandlerReads
import PacketFilter.Contracts.HashBalance
import PacketFilter.Contracts.HeaderCodec
import PacketFilter.Contracts.Installation
import PacketFilter.Contracts.KeptBytes
import PacketFilter.Contracts.LogRecords
import PacketFilter.Contracts.LoggedAddresses
import PacketFilter.Contracts.PacketVerdicts
import PacketFilter.Contracts.ReceiveBuffers
import PacketFilter.Contracts.ReceiveThreads
import PacketFilter.Contracts.Registration
import PacketFilter.Contracts.RuleUpdates
import PacketFilter.Contracts.Server
import PacketFilter.Contracts.ServerAndCard
import PacketFilter.Contracts.Service
import PacketFilter.Contracts.Shutdown
import PacketFilter.Contracts.Signals
import PacketFilter.Contracts.Snapshot
import PacketFilter.Contracts.TableSizes
import PacketFilter.Contracts.ThreadAssignment
import PacketFilter.Contracts.TimeFormat
import PacketFilter.Contracts.Updates
import PacketFilter.Contracts.WireFields
import PacketFilter.Contracts.WordReports
import PacketFilter.Foundation.Bank
import PacketFilter.Foundation.CBuffer
import PacketFilter.Foundation.Getopt
import PacketFilter.Foundation.Messages
import PacketFilter.Foundation.Splitting
import PacketFilter.Foundation.Tokens
import PacketFilter.Foundation.WordStore
import PacketFilter.Hardware.AddressMap
import PacketFilter.Platform.Box
import PacketFilter.Software.Arguments
import PacketFilter.Software.Logging
import PacketFilter.Software.RegisterFile
