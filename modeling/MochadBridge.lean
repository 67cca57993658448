import MochadBridge.ActionCounters
import MochadBridge.ActionSpec
import MochadBridge.AddressRecognisers
import MochadBridge.Bridge
import MochadBridge.BridgeAnswers
import MochadBridge.BridgeEffects
import MochadBridge.BridgeOutcomes
import MochadBridge.BridgeSteps
import MochadBridge.CleanupRun
import MochadBridge.CleanupTool
import MochadBridge.ClientShutdown
import MochadBridge.CommandLedger
import MochadBridge.CommandQueue
import MochadBridge.Config
import MochadBridge.ConfigEdits
import MochadBridge.ConfigFile
import MochadBridge.ConfigLoading
import MochadBridge.Confirmation
import MochadBridge.ConnectionThreads
import MochadBridge.Controls
import MochadBridge.DeviceHistory
import MochadBridge.DeviceNames
import MochadBridge.DeviceRecords
import MochadBridge.DeviceRegistry
import MochadBridge.DeviceSyntaxes
import MochadBridge.DeviceTables
import MochadBridge.DiscoveredFlag
import MochadBridge.Discovery
import MochadBridge.DiscoveryCleanup
import MochadBridge.DiscoveryOrder
import MochadBridge.DiscoveryShape
import MochadBridge.DiscoveryTopics
import MochadBridge.HouseCommands
import MochadBridge.HouseFilter
import MochadBridge.Housecodes
import MochadBridge.LastWriterWins
import MochadBridge.Lib.Broker
import MochadBridge.Lib.Dict
import MochadBridge.Lib.Directory
import MochadBridge.Lib.Effect
import MochadBridge.Lib.Fifo
import MochadBridge.Lib.Json
import MochadBridge.Lib.JsonCompact
import MochadBridge.Lib.JsonDump
import MochadBridge.Lib.JsonText
import MochadBridge.Lib.Ledger
import MochadBridge.Lib.Register
import MochadBridge.Lib.Run
import MochadBridge.Lib.Text
import MochadBridge.Lib.TextFile
import MochadBridge.Lib.TopicFilter
import MochadBridge.Lib.TwoRuns
import MochadBridge.Lib.Utf8
import MochadBridge.Lib.Wildcard
import MochadBridge.Lib.Words
import MochadBridge.MaintenanceGate
import MochadBridge.MochadClient
import MochadBridge.Models
import MochadBridge.MqttPayloads
import MochadBridge.MqttSession
import MochadBridge.ParserSafety
import MochadBridge.PendingCommands
import MochadBridge.Protocol
import MochadBridge.Registry
import MochadBridge.RegistryCoverage
import MochadBridge.RegistryQuarantine
import MochadBridge.RegistryStore
import MochadBridge.RejectedCommands
import MochadBridge.Reload
import MochadBridge.Removal
import MochadBridge.Retained
import MochadBridge.State
import MochadBridge.StateAgreement
import MochadBridge.StatePayloads
import MochadBridge.StateRefinement
import MochadBridge.StateSpec
import MochadBridge.StatusStream
import MochadBridge.TlsConfig
import MochadBridge.TopicShape
import MochadBridge.Topics
import MochadBridge.TwoBridges
import MochadBridge.WireLines
