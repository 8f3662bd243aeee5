import Anna.Lib.Multimap
import Anna.Lib.Crossbar
import Anna.Lib.CrossbarHistory
import Anna.Lib.Pipeline
import Anna.Lib.Progress
import Anna.Lib.Chunks
import Anna.Lib.BitFields
import Anna.Lib.FieldTokens
import Anna.Lib.Records
import Anna.Lib.Outcome
import Anna.Lib.Window
import Anna.Lib.Sums
import Anna.Config
import Anna.AddressMap
import Anna.AddressMapSound
import Anna.AddressMapper
import Anna.AddressMapperSound
import Anna.MemorySwitch
import Anna.SwitchTraffic
import Anna.MultiMemory
import Anna.MultiMemoryParallel
import Anna.MultiMemorySteps
import Anna.MultiMemorySound
import Anna.MultiMemoryOrder
import Anna.MultiMemoryRoute
import Anna.MemoryReader
import Anna.MemoryReaderSound
import Anna.SharedReaders
import Anna.Layout
import Anna.LoadCsv
import Anna.LoadCsvSound
import Anna.Dramsim3.Controller
import Anna.Dramsim3.ControllerSteps
import Anna.Dramsim3.ControllerSound
import Anna.Dramsim3.LineSound
import Anna.Dramsim3.ControllerSafe
import Anna.Dramsim3.AddressMappingSound
import Anna.Dramsim3.TraceSound
import Anna.Dramsim3.ControllerAnswers
import Anna.Dramsim3.RefreshSound
import Anna.Dramsim3.PendingSound
import Anna.Dramsim3.ChannelProgress
import Anna.Dramsim3.CommandQueueProgress
import Anna.Dramsim3.ControllerBooked
import Anna.Dramsim3.ControllerEffort
import Anna.Dramsim3.ControllerProgress
import Anna.Dramsim3.ControllerDrains
import Anna.Dramsim3.IdealDramSystem
import Anna.Dramsim3.Stack
import Anna.Dramsim3.DramSystem
import Anna.Dramsim3.DramSystemSound
import Anna.Dramsim3.DramSystemDrains
import Anna.ComputeModules
import Anna.ComputeModulesSound
import Anna.CodebookRounds
import Anna.VectorFetch
import Anna.VectorFetchSound
import Anna.VectorFetchOrder
import Anna.Core
import Anna.CoreSteps
import Anna.CoreSound
import Anna.CoreFetch
import Anna.CoreStart
import Anna.CoreScan
import Anna.CoreProgress
import Anna.MultiAnna
import Anna.Grouping
import Anna.WorkPartition
import Anna.MultiAnnaSound
import Anna.MultiAnnaProgress
import Anna.QueryClocks
import Anna.VectorCount
