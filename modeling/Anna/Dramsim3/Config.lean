import Anna.AddressMapper

/-!
# The DRAM simulator: configuration and timing

The types of `common.h`, the part of the configuration that the controllers
read, and the tables of `timing.cc` that say how long after a command another
one has to wait. An invalid command, `Command()`, is `none` everywhere.
-/

namespace Anna

namespace Dramsim3

structure Address where
  channel : Int
  rank : Int
  bankgroup : Int
  bank : Int
  row : Int
  column : Int
  deriving DecidableEq, Repr

inductive CommandType
  | read
  | readPrecharge
  | write
  | writePrecharge
  | activate
  | precharge
  | refreshBank
  | refresh
  | srefEnter
  | srefExit
  deriving DecidableEq, Repr

namespace CommandType

def isRefresh : CommandType → Bool
  | refresh | refreshBank => true
  | _ => false

def isRead : CommandType → Bool
  | read | readPrecharge => true
  | _ => false

def isWrite : CommandType → Bool
  | write | writePrecharge => true
  | _ => false

def isReadWrite (c : CommandType) : Bool := c.isRead || c.isWrite

/-- The commands that go to all banks of a rank. -/
def isRankCMD : CommandType → Bool
  | refresh | srefEnter | srefExit => true
  | _ => false

end CommandType

structure Command where
  cmdType : CommandType
  addr : Address
  hexAddr : UInt64
  deriving DecidableEq, Repr

structure Transaction where
  addr : UInt64
  addedCycle : Nat
  completeCycle : Nat
  isWrite : Bool
  deriving DecidableEq, Repr

/-- Where the simulator ends the process. -/
inductive Exit
  /-- `Unknown type!`, in `BankState::GetReadyCommand`. -/
  | unknownType
  /-- `In unknown state`, in `BankState::GetReadyCommand`. -/
  | unknownState
  /-- A command that the state of its bank does not allow, in `BankState::UpdateState`. -/
  | illegalCommand
  /-- `cannot find cmd!`, in `CommandQueue::EraseRWCommand`. -/
  | cannotFindCmd
  /-- ` not in read queue! `, in `Controller::IssueCommand`. -/
  | notInReadQueue (hexAddr : UInt64)
  /-- ` not in write queue!`, in `Controller::IssueCommand`. -/
  | notInWriteQueue (hexAddr : UInt64)
  /-- The remainder by `refresh_interval_`, in `Refresh::ClockTick`, or by `epoch_period`, in
  `JedecDRAMSystem::ClockTick`. -/
  | divisionByZero
  /-- `assert(ok)`, in `JedecDRAMSystem::AddTransaction`. -/
  | notAccepted
  /-- `Unknown address mapping (6 fields each 2 chars required)`, in `Config::SetAddressMapping`. -/
  | unknownAddressMapping
  /-- `Unrecognized field: ` and the token, in `Config::SetAddressMapping`. -/
  | unrecognizedField (token : List Char)
  /-- `std::out_of_range`, thrown by `map::at`. -/
  | outOfRange
  /-- `1 << field_widths.at("co")` with fewer columns than `BL`, in `Config::SetAddressMapping`: undefined. -/
  | negativeShift
  deriving DecidableEq, Repr

inductive DRAMProtocol
  | ddr3
  | ddr4
  | gddr5
  | gddr5x
  | gddr6
  | lpddr
  | lpddr3
  | lpddr4
  | hbm
  | hbm2
  | hmc
  deriving DecidableEq, Repr

inductive RefreshPolicy
  | rankLevelSimultaneous
  | rankLevelStaggered
  | bankLevelStaggered
  deriving DecidableEq, Repr

inductive QueueStructure
  | perRank
  | perBank
  deriving DecidableEq, Repr

inductive RowBufPolicy
  | openPage
  | closePage
  deriving DecidableEq, Repr

/-- The fields that `address_mapping` orders. -/
inductive AddressField
  | ch
  | ra
  | bg
  | ba
  | ro
  | co
  deriving DecidableEq, Repr

structure Config where
  protocol : DRAMProtocol
  channels : Nat
  ranks : Nat
  bankgroups : Nat
  banksPerGroup : Nat
  -- what `SetAddressMapping` computes
  shiftBits : Nat
  pos : AddressField → Nat
  mask : AddressField → UInt64
  -- the timing parameters, in cycles
  burstCycle : Int
  al : Int
  cl : Int
  cwl : Int
  tCCDL : Int
  tCCDS : Int
  tRTRS : Int
  tRTP : Int
  tWTRL : Int
  tWTRS : Int
  tWR : Int
  tRP : Int
  tRRDL : Int
  tRRDS : Int
  tRAS : Int
  tRCD : Int
  tRFC : Int
  tCKESR : Int
  tXS : Int
  tRFCb : Int
  tREFI : Int
  tREFIb : Int
  tFAW : Int
  tPPD : Int
  t32AW : Int
  tRCDRD : Int
  tRCDWR : Int
  -- the organisation of the controller
  queueStructure : QueueStructure
  rowBufPolicy : RowBufPolicy
  refreshPolicy : RefreshPolicy
  cmdQueueSize : Nat
  transQueueSize : Nat
  unifiedQueue : Bool
  enableSelfRefresh : Bool
  srefThreshold : Int
  hbmDualCmd : Bool
  -- the cycles between two outputs
  epochPeriod : Int

namespace Config

variable (config : Config)

def isGDDR : Bool :=
  config.protocol == .gddr5 || config.protocol == .gddr5x || config.protocol == .gddr6

def isHBM : Bool := config.protocol == .hbm || config.protocol == .hbm2

def banks : Nat := config.bankgroups * config.banksPerGroup

def enableHbmDualCmd : Bool := config.hbmDualCmd && config.isHBM

def tRC : Int := config.tRAS + config.tRP

def rl : Int := config.al + config.cl

def wl : Int := config.al + config.cwl

def readDelay : Int := config.rl + config.burstCycle

def writeDelay : Int := config.wl + config.burstCycle

/-- A field of a shifted address, as an `int`. -/
def field (hexAddr : UInt64) (f : AddressField) : Int :=
  (intOfUint64 ((hexAddr >>> UInt64.ofNat (config.pos f)) &&& config.mask f)).toInt

def addressMapping (hexAddr : UInt64) : Address :=
  let hexAddr := hexAddr >>> UInt64.ofNat config.shiftBits
  { channel := config.field hexAddr .ch
    rank := config.field hexAddr .ra
    bankgroup := config.field hexAddr .bg
    bank := config.field hexAddr .ba
    row := config.field hexAddr .ro
    column := config.field hexAddr .co }

end Config

/-! ## The address mapping -/

namespace AddressField

def token : AddressField → List Char
  | ch => ['c', 'h']
  | ra => ['r', 'a']
  | bg => ['b', 'g']
  | ba => ['b', 'a']
  | ro => ['r', 'o']
  | co => ['c', 'o']

/-- The key of `field_widths` that a token is, if it is one. -/
def find? : List Char → Option AddressField := findKey token [ch, ra, bg, ba, ro, co]

end AddressField

/-- What `SetAddressMapping` reads besides the organisation of a channel. -/
structure DeviceParams where
  rows : Int
  columns : Int
  busWidth : Int
  bl : Int
  addressMapping : List Char

namespace Config

/-- The width of the column is not negative where `setAddressMapping` has a result. -/
def fieldWidths (config : Config) (device : DeviceParams) : AddressField → Nat
  | .ch => AddressMapper.logBase2 config.channels
  | .ra => AddressMapper.logBase2 config.ranks
  | .bg => AddressMapper.logBase2 config.bankgroups
  | .ba => AddressMapper.logBase2 config.banksPerGroup
  | .ro => AddressMapper.logBase2 device.rows
  | .co => AddressMapper.logBase2 device.columns - AddressMapper.logBase2 device.bl

/-- The loop over `fields`. -/
def placeFields (widths : AddressField → Nat) :
    List (List Char) → Nat → (AddressField → Option Nat) → Except Exit (AddressField → Option Nat) :=
  placeTokens AddressField.find? .unrecognizedField widths

/-- `field_pos.at(f)`. -/
def posAt : (AddressField → Option Nat) → AddressField → Except Exit Nat := placeAt .outOfRange

def setAddressMapping (config : Config) (device : DeviceParams) : Except Exit Config := do
  let requestSizeBytes := device.busWidth.tdiv 8 * device.bl
  if device.addressMapping.length ≠ 12 then throw .unknownAddressMapping
  let widths := config.fieldWidths device
  let fieldPos ← placeFields widths (tokens device.addressMapping).reverse 0 fun _ => none
  let chPos ← posAt fieldPos .ch
  let raPos ← posAt fieldPos .ra
  let bgPos ← posAt fieldPos .bg
  let baPos ← posAt fieldPos .ba
  let roPos ← posAt fieldPos .ro
  let coPos ← posAt fieldPos .co
  if AddressMapper.logBase2 device.columns < AddressMapper.logBase2 device.bl then throw .negativeShift
  return { config with
    shiftBits := AddressMapper.logBase2 requestSizeBytes
    pos := fun
      | .ch => chPos
      | .ra => raPos
      | .bg => bgPos
      | .ba => baPos
      | .ro => roPos
      | .co => coPos
    mask := fun f => UInt64.ofNat (2 ^ widths f - 1) }

end Config

/-- A `uint64_t` clock and an `int`: a negative sum wraps. -/
def later (clk : Nat) (cycles : Int) : Nat := (((clk : Int) + cycles) % 2 ^ 64).toNat

/-- Unless the sum exceeds 64 bits, what is waited for is not too early. -/
theorem le_later {clk : Nat} {cycles : Int} (h : (clk : Int) + cycles < 2 ^ 64) :
    (clk : Int) + cycles ≤ later clk cycles := by
  unfold later
  omega

/-! ## Timing -/

namespace Timing

variable (config : Config)

-- with one bank group the values of the short distances stand for the long ones
def readToReadL : Int := max config.burstCycle (if config.bankgroups = 1 then config.tCCDS else config.tCCDL)
def readToReadS : Int := max config.burstCycle config.tCCDS
def readToReadO : Int := config.burstCycle + config.tRTRS
def readToWrite : Int := config.rl + config.burstCycle - config.wl + config.tRTRS
def readToWriteO : Int := config.readDelay + config.burstCycle + config.tRTRS - config.writeDelay
def readToPrecharge : Int := config.al + config.tRTP
def readpToAct : Int := config.al + config.burstCycle + config.tRTP + config.tRP

def writeToReadL : Int := config.writeDelay + if config.bankgroups = 1 then config.tWTRS else config.tWTRL
def writeToReadS : Int := config.writeDelay + config.tWTRS
def writeToReadO : Int := config.writeDelay + config.burstCycle + config.tRTRS - config.readDelay
def writeToWriteL : Int := max config.burstCycle (if config.bankgroups = 1 then config.tCCDS else config.tCCDL)
def writeToWriteS : Int := max config.burstCycle config.tCCDS
def writeToWriteO : Int := config.burstCycle
def writeToPrecharge : Int := config.wl + config.burstCycle + config.tWR

def prechargeToActivate : Int := config.tRP
def prechargeToPrecharge : Int := config.tPPD
def readToActivate : Int := readToPrecharge config + prechargeToActivate config
def writeToActivate : Int := writeToPrecharge config + prechargeToActivate config

def activateToActivate : Int := config.tRC
def activateToActivateL : Int := if config.bankgroups = 1 then config.tRRDS else config.tRRDL
def activateToActivateS : Int := config.tRRDS
def activateToPrecharge : Int := config.tRAS
def activateToRead : Int := if config.isGDDR || config.isHBM then config.tRCDRD else config.tRCD - config.al
def activateToWrite : Int := if config.isGDDR || config.isHBM then config.tRCDWR else config.tRCD - config.al
def activateToRefresh : Int := config.tRC

def refreshToRefresh : Int := config.tREFI
def refreshToActivate : Int := config.tRFC
def refreshToActivateBank : Int := config.tRFCb

def selfRefreshEntryToExit : Int := config.tCKESR
def selfRefreshExit : Int := config.tXS

/-- Reads and writes wait `toRead` and `toWrite`, with or without their precharge. -/
def column (toRead toWrite : Int) : List (CommandType × Int) :=
  [(.read, toRead), (.write, toWrite), (.readPrecharge, toRead), (.writePrecharge, toWrite)]

/-- What has to wait until a bank is closed. -/
def row (toActivate toRefresh : Int) : List (CommandType × Int) :=
  [(.activate, toActivate), (.refresh, toRefresh), (.refreshBank, toRefresh), (.srefEnter, toRefresh)]

def sameBank : CommandType → List (CommandType × Int)
  | .read => column (readToReadL config) (readToWrite config) ++ [(.precharge, readToPrecharge config)]
  | .write => column (writeToReadL config) (writeToWriteL config) ++ [(.precharge, writeToPrecharge config)]
  | .readPrecharge => row (readpToAct config) (readToActivate config)
  | .writePrecharge => row (writeToActivate config) (writeToActivate config)
  | .activate =>
    (.activate, activateToActivate config) :: column (activateToRead config) (activateToWrite config) ++
      [(.precharge, activateToPrecharge config)]
  | .precharge => row (prechargeToActivate config) (prechargeToActivate config)
  | _ => []

def otherBanksSameBankgroup : CommandType → List (CommandType × Int)
  | .read | .readPrecharge => column (readToReadL config) (readToWrite config)
  | .write | .writePrecharge => column (writeToReadL config) (writeToWriteL config)
  | .activate => [(.activate, activateToActivateL config), (.refreshBank, activateToRefresh config)]
  | .precharge =>
    if config.isGDDR || config.protocol == .lpddr4 then [(.precharge, prechargeToPrecharge config)] else []
  | .refreshBank => [(.activate, refreshToActivate config), (.refreshBank, refreshToRefresh config)]
  | _ => []

def otherBankgroupsSameRank : CommandType → List (CommandType × Int)
  | .read | .readPrecharge => column (readToReadS config) (readToWrite config)
  | .write | .writePrecharge => column (writeToReadS config) (writeToWriteS config)
  | .activate => [(.activate, activateToActivateS config), (.refreshBank, activateToRefresh config)]
  | .precharge =>
    if config.isGDDR || config.protocol == .lpddr4 then [(.precharge, prechargeToPrecharge config)] else []
  | .refreshBank => [(.activate, refreshToActivate config), (.refreshBank, refreshToRefresh config)]
  | _ => []

def otherRanks : CommandType → List (CommandType × Int)
  | .read | .readPrecharge => column (readToReadO config) (readToWriteO config)
  | .write | .writePrecharge => column (writeToReadO config) (writeToWriteO config)
  | _ => []

def sameRank : CommandType → List (CommandType × Int)
  | .refreshBank => row (refreshToActivateBank config) (refreshToActivateBank config)
  | .refresh =>
    [(.activate, refreshToActivate config), (.refresh, refreshToActivate config),
      (.srefEnter, refreshToActivate config)]
  | .srefEnter => [(.srefExit, selfRefreshEntryToExit config)]
  | .srefExit => row (selfRefreshExit config) (selfRefreshExit config)
  | _ => []

end Timing

end Dramsim3

end Anna
