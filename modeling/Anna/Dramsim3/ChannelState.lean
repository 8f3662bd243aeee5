import Anna.Dramsim3.Config
import Mathlib.Logic.Function.Basic

/-!
# Banks and channels

A bank is open, closed or in self-refresh, and knows for every command the
earliest clock at which it may be executed. The state of a channel is that of
its banks, with the refreshes that wait and the windows of the activations.
The vectors of the source are functions of the rank and of the bank.
-/

namespace Anna

namespace Dramsim3

/-- `SIZE` of the enumeration is no state. -/
inductive BankState.State
  | opened
  | closed
  | sref
  | pd
  deriving DecidableEq, Repr

structure BankState where
  state : BankState.State
  cmdTiming : CommandType → Nat
  openRow : Int
  rowHitCount : Nat

namespace BankState

def new : BankState := ⟨.closed, fun _ => 0, -1, 0⟩

/-- The command that has to be executed next for `cmd` to be executed in the end. -/
def requiredType (b : BankState) (cmd : Command) : Except Exit CommandType :=
  match b.state with
  | .closed =>
    match cmd.cmdType with
    | .read | .readPrecharge | .write | .writePrecharge => .ok .activate
    | .refresh | .refreshBank | .srefEnter => .ok cmd.cmdType
    | _ => .error .unknownType
  | .opened =>
    match cmd.cmdType with
    | .read | .readPrecharge | .write | .writePrecharge =>
      if cmd.addr.row = b.openRow then .ok cmd.cmdType else .ok .precharge
    | .refresh | .refreshBank | .srefEnter => .ok .precharge
    | _ => .error .unknownType
  | .sref =>
    match cmd.cmdType with
    | .read | .readPrecharge | .write | .writePrecharge => .ok .srefExit
    | _ => .error .unknownType
  | .pd => .error .unknownState

def getReadyCommand (b : BankState) (cmd : Command) (clk : Nat) : Except Exit (Option Command) := do
  let requiredType ← b.requiredType cmd
  if b.cmdTiming requiredType ≤ clk then return some { cmd with cmdType := requiredType } else return none

def updateState (b : BankState) (cmd : Command) : Except Exit BankState :=
  match b.state with
  | .opened =>
    match cmd.cmdType with
    | .read | .write => .ok { b with rowHitCount := b.rowHitCount + 1 }
    | .readPrecharge | .writePrecharge | .precharge =>
      .ok { b with state := .closed, openRow := -1, rowHitCount := 0 }
    | _ => .error .illegalCommand
  | .closed =>
    match cmd.cmdType with
    | .refresh | .refreshBank => .ok b
    | .activate => .ok { b with state := .opened, openRow := cmd.addr.row }
    | .srefEnter => .ok { b with state := .sref }
    | _ => .error .illegalCommand
  | .sref =>
    match cmd.cmdType with
    | .srefExit => .ok { b with state := .closed }
    | _ => .error .illegalCommand
  | .pd => .error .illegalCommand

def updateTiming (b : BankState) (cmdType : CommandType) (time : Nat) : BankState :=
  { b with cmdTiming := Function.update b.cmdTiming cmdType (max (b.cmdTiming cmdType) time) }

/-- The loop over a list of the timing tables. -/
def wait (b : BankState) (cmdTimingList : List (CommandType × Int)) (clk : Nat) : BankState :=
  cmdTimingList.foldl (fun b cmdTiming => b.updateTiming cmdTiming.1 (later clk cmdTiming.2)) b

def isRowOpen (b : BankState) : Bool := b.state == .opened

end BankState

structure BankId where
  rank : Int
  bankgroup : Int
  bank : Int
  deriving DecidableEq, Repr

def Address.bankId (addr : Address) : BankId := ⟨addr.rank, addr.bankgroup, addr.bank⟩

structure ChannelState where
  rankIdleCycles : Int → Nat
  rankIsSref : Int → Bool
  bankStates : BankId → BankState
  refreshQ : List Command
  fourAw : Int → List Nat
  thirtyTwoAw : Int → List Nat

/-- The values of `i` in `for (auto i = 0; i < n; i++)`. -/
def upTo (n : Nat) : List Int := (List.range n).map Nat.cast

theorem mem_upTo {n : Nat} {i : Int} : i ∈ upTo n ↔ 0 ≤ i ∧ i < n := by
  simp only [upTo, List.mem_map, List.mem_range]
  constructor
  · rintro ⟨k, hk, rfl⟩
    omega
  · intro h
    exact ⟨i.toNat, by omega, by omega⟩

/-- The banks of a rank, as the loops over bank groups and banks visit them. -/
def Config.banksOfRank (config : Config) (rank : Int) : List BankId :=
  (upTo config.bankgroups).flatMap fun j => (upTo config.banksPerGroup).map fun k => ⟨rank, j, k⟩

namespace ChannelState

def new : ChannelState where
  rankIdleCycles := fun _ => 0
  rankIsSref := fun _ => false
  bankStates := fun _ => .new
  refreshQ := []
  fourAw := fun _ => []
  thirtyTwoAw := fun _ => []

def isRowOpen (c : ChannelState) (b : BankId) : Bool := (c.bankStates b).isRowOpen

def isAllBankIdleInRank (config : Config) (c : ChannelState) (rank : Int) : Bool :=
  (config.banksOfRank rank).all fun b => !c.isRowOpen b

/-! ## Refreshes that wait -/

/-- `BankNeedRefresh(rank, bankgroup, bank, true)`. -/
def bankNeedsRefresh (c : ChannelState) (rank bankgroup bank : Int) : ChannelState :=
  { c with refreshQ := c.refreshQ ++ [⟨.refreshBank, ⟨-1, rank, bankgroup, bank, -1, -1⟩, -1⟩] }

/-- `BankNeedRefresh(rank, bankgroup, bank, false)`. -/
def bankRefreshed (c : ChannelState) (b : BankId) : ChannelState :=
  { c with refreshQ := c.refreshQ.eraseP fun r => r.addr.bankId = b }

/-- `RankNeedRefresh(rank, true)`. -/
def rankNeedsRefresh (c : ChannelState) (rank : Int) : ChannelState :=
  { c with refreshQ := c.refreshQ ++ [⟨.refresh, ⟨-1, rank, -1, -1, -1, -1⟩, -1⟩] }

/-- `RankNeedRefresh(rank, false)`. -/
def rankRefreshed (c : ChannelState) (rank : Int) : ChannelState :=
  { c with refreshQ := c.refreshQ.eraseP fun r => r.addr.rank = rank }

/-! ## Activation windows -/

def isFAWReady (c : ChannelState) (rank : Int) (currTime : Nat) : Bool :=
  match c.fourAw rank with
  | [] => true
  | t :: ts => !(currTime < t && 4 ≤ (t :: ts).length)

def is32AWReady (c : ChannelState) (rank : Int) (currTime : Nat) : Bool :=
  match c.thirtyTwoAw rank with
  | [] => true
  | t :: ts => !(currTime < t && 32 ≤ (t :: ts).length)

def activationWindowOk (config : Config) (c : ChannelState) (rank : Int) (currTime : Nat) : Bool :=
  c.isFAWReady rank currTime && (!config.isGDDR || c.is32AWReady rank currTime)

/-- A window without its front if that has expired, and the end of the new activation. -/
def slide (window : List Nat) (currTime : Nat) (cycles : Int) : List Nat :=
  (match window with
    | [] => []
    | t :: ts => if t ≤ currTime then ts else t :: ts) ++ [later currTime cycles]

def updateActivationTimes (config : Config) (c : ChannelState) (rank : Int) (currTime : Nat) : ChannelState :=
  let c := { c with fourAw := Function.update c.fourAw rank (slide (c.fourAw rank) currTime config.tFAW) }
  if config.isGDDR then
    { c with thirtyTwoAw :=
        Function.update c.thirtyTwoAw rank (slide (c.thirtyTwoAw rank) currTime config.t32AW) }
  else c

/-! ## Commands -/

/-- The loop of `GetReadyCommand` over the banks of a rank: one that has to be
precharged first ends it, else all have to be ready. -/
def scanRank (config : Config) (c : ChannelState) (cmd : Command) (clk : Nat) :
    List BankId → Nat → Option Command → Except Exit (Option Command)
  | [], numReady, readyCmd => .ok (if numReady = config.banks then readyCmd else none)
  | b :: bs, numReady, _ => do
    match ← (c.bankStates b).getReadyCommand cmd clk with
    | none => scanRank config c cmd clk bs numReady none
    | some ready =>
      if ready.cmdType ≠ cmd.cmdType then
        return some { ready with addr := ⟨-1, cmd.addr.rank, b.bankgroup, b.bank, -1, -1⟩ }
      else scanRank config c cmd clk bs (numReady + 1) (some ready)

def getReadyCommand (config : Config) (c : ChannelState) (cmd : Command) (clk : Nat) :
    Except Exit (Option Command) :=
  if cmd.cmdType.isRankCMD then scanRank config c cmd clk (config.banksOfRank cmd.addr.rank) 0 none
  else do
    match ← (c.bankStates cmd.addr.bankId).getReadyCommand cmd clk with
    | none => return none
    | some ready =>
      if ready.cmdType = .activate ∧ c.activationWindowOk config ready.addr.rank clk = false then return none
      else return some ready

def updateStates (c : ChannelState) (cmd : Command) : List BankId → Except Exit ChannelState
  | [] => .ok c
  | b :: bs => do
    let state ← (c.bankStates b).updateState cmd
    updateStates { c with bankStates := Function.update c.bankStates b state } cmd bs

def updateState (config : Config) (c : ChannelState) (cmd : Command) : Except Exit ChannelState :=
  if cmd.cmdType.isRankCMD then do
    let c ← c.updateStates cmd (config.banksOfRank cmd.addr.rank)
    if cmd.cmdType.isRefresh then return c.rankRefreshed cmd.addr.rank
    else if cmd.cmdType = .srefEnter then
      return { c with rankIsSref := Function.update c.rankIsSref cmd.addr.rank true }
    else return { c with rankIsSref := Function.update c.rankIsSref cmd.addr.rank false }
  else do
    let c ← c.updateStates cmd [cmd.addr.bankId]
    if cmd.cmdType.isRefresh then return c.bankRefreshed cmd.addr.bankId else return c

/-! ## Timing -/

/-- The banks in `bs` have to wait as `cmdTimingList` says. -/
def updateBanksTiming (c : ChannelState) (bs : List BankId) (cmdTimingList : List (CommandType × Int))
    (clk : Nat) : ChannelState :=
  { c with bankStates :=
      bs.foldl (fun states b => Function.update states b ((states b).wait cmdTimingList clk)) c.bankStates }

def otherBanks (config : Config) (addr : Address) : List BankId :=
  ((upTo config.banksPerGroup).filter fun k => k ≠ addr.bank).map fun k => ⟨addr.rank, addr.bankgroup, k⟩

def otherBankgroups (config : Config) (addr : Address) : List BankId :=
  ((upTo config.bankgroups).filter fun j => j ≠ addr.bankgroup).flatMap fun j =>
    (upTo config.banksPerGroup).map fun k => ⟨addr.rank, j, k⟩

def otherRanks (config : Config) (addr : Address) : List BankId :=
  ((upTo config.ranks).filter fun i => i ≠ addr.rank).flatMap fun i => config.banksOfRank i

def updateTiming (config : Config) (c : ChannelState) (cmd : Command) (clk : Nat) : ChannelState :=
  if cmd.cmdType.isRankCMD then
    c.updateBanksTiming (config.banksOfRank cmd.addr.rank) (Timing.sameRank config cmd.cmdType) clk
  else
    let c := if cmd.cmdType = .activate then c.updateActivationTimes config cmd.addr.rank clk else c
    let c := c.updateBanksTiming [cmd.addr.bankId] (Timing.sameBank config cmd.cmdType) clk
    let c := c.updateBanksTiming (otherBanks config cmd.addr) (Timing.otherBanksSameBankgroup config cmd.cmdType) clk
    let c := c.updateBanksTiming (otherBankgroups config cmd.addr)
      (Timing.otherBankgroupsSameRank config cmd.cmdType) clk
    c.updateBanksTiming (otherRanks config cmd.addr) (Timing.otherRanks config cmd.cmdType) clk

def updateTimingAndStates (config : Config) (c : ChannelState) (cmd : Command) (clk : Nat) :
    Except Exit ChannelState := do
  let c ← c.updateState config cmd
  return c.updateTiming config cmd clk

end ChannelState

end Dramsim3

end Anna
