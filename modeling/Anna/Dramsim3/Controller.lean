import Anna.Dramsim3.CommandQueue
import Anna.Lib.Multimap

/-!
# The controller of a channel

Transactions wait in the queues of the controller until the command queues
have room; a read stays in `pending_rd_q_` until its command is issued and in
the return queue until its data is there. `trace` is what the source writes
under `CMD_TRACE`: every issued command with the clock. No function reads it.
-/

namespace Anna

namespace Dramsim3

structure Refresh where
  clk : Nat
  nextRank : Nat
  nextBg : Nat
  nextBank : Nat
  deriving DecidableEq, Repr

namespace Refresh

def new : Refresh := ⟨0, 0, 0, 0⟩

/-- The remainder takes `refresh_interval_` as unsigned. -/
def refreshInterval (config : Config) : Nat :=
  let refreshInterval : Int :=
    match config.refreshPolicy with
    | .rankLevelSimultaneous => config.tREFI
    | .bankLevelStaggered => config.tREFIb
    | .rankLevelStaggered => config.tREFI.tdiv config.ranks
  (refreshInterval % 2 ^ 64).toNat

def iterateNext (config : Config) (r : Refresh) : Refresh :=
  match config.refreshPolicy with
  | .rankLevelStaggered => { r with nextRank := (r.nextRank + 1) % config.ranks }
  | .bankLevelStaggered =>
    let r := { r with nextBg := (r.nextBg + 1) % config.bankgroups }
    if r.nextBg = 0 then
      let r := { r with nextBank := (r.nextBank + 1) % config.banksPerGroup }
      if r.nextBank = 0 then { r with nextRank := (r.nextRank + 1) % config.ranks } else r
    else r
  | .rankLevelSimultaneous => r

def insertRefresh (config : Config) (r : Refresh) (ch : ChannelState) : Refresh × ChannelState :=
  match config.refreshPolicy with
  | .rankLevelSimultaneous =>
    -- the loop over the ranks ends with the first one that it refreshes
    match (upTo config.ranks).find? fun i => !ch.rankIsSref i with
    | some i => (r, ch.rankNeedsRefresh i)
    | none => (r, ch)
  | .rankLevelStaggered =>
    (r.iterateNext config, if ch.rankIsSref r.nextRank then ch else ch.rankNeedsRefresh r.nextRank)
  | .bankLevelStaggered =>
    (r.iterateNext config,
      if ch.rankIsSref r.nextRank then ch else ch.bankNeedsRefresh r.nextRank r.nextBg r.nextBank)

def elapse (config : Config) (r : Refresh) (ch : ChannelState) : Refresh × ChannelState :=
  let t := if r.clk % refreshInterval config = 0 ∧ 0 < r.clk then r.insertRefresh config ch else (r, ch)
  ({ t.1 with clk := t.1.clk + 1 }, t.2)

def clockTick (config : Config) (r : Refresh) (ch : ChannelState) : Except Exit (Refresh × ChannelState) :=
  if refreshInterval config = 0 then .error .divisionByZero else .ok (r.elapse config ch)

end Refresh

structure Controller where
  clk : Nat
  channelState : ChannelState
  cmdQueue : CommandQueue
  refresh : Refresh
  unifiedQueue : List Transaction
  readQueue : List Transaction
  writeBuffer : List Transaction
  pendingRdQ : Multimap UInt64 Transaction
  pendingWrQ : Multimap UInt64 Transaction
  returnQueue : List Transaction
  writeDraining : Int
  trace : List (Nat × Command)

namespace Controller

def new : Controller where
  clk := 0
  channelState := .new
  cmdQueue := .new
  refresh := .new
  unifiedQueue := []
  readQueue := []
  writeBuffer := []
  pendingRdQ := []
  pendingWrQ := []
  returnQueue := []
  writeDraining := 0
  trace := []

/-! ## Transactions -/

/-- The capacity of a queue is what its constructor reserves. -/
def willAcceptTransaction (config : Config) (c : Controller) (isWrite : Bool) : Bool :=
  if config.unifiedQueue then c.unifiedQueue.length < config.transQueueSize
  else if !isWrite then c.readQueue.length < config.transQueueSize
  else c.writeBuffer.length < config.transQueueSize

/-- A write is answered at once. A read is answered at once if a write to its
address is pending, and waits for the command of another read of its address
if there is one. -/
def addTransaction (config : Config) (c : Controller) (trans : Transaction) : Controller :=
  let trans := { trans with addedCycle := c.clk }
  if trans.isWrite then
    let c :=
      if c.pendingWrQ.keyCount trans.addr = 0 then
        let c := { c with pendingWrQ := c.pendingWrQ.insert trans.addr trans }
        if config.unifiedQueue then { c with unifiedQueue := c.unifiedQueue ++ [trans] }
        else { c with writeBuffer := c.writeBuffer ++ [trans] }
      else c
    { c with returnQueue := c.returnQueue ++ [{ trans with completeCycle := c.clk + 1 }] }
  else if 0 < c.pendingWrQ.keyCount trans.addr then
    { c with returnQueue := c.returnQueue ++ [{ trans with completeCycle := c.clk + 1 }] }
  else
    let c := { c with pendingRdQ := c.pendingRdQ.insert trans.addr trans }
    if c.pendingRdQ.keyCount trans.addr = 1 then
      if config.unifiedQueue then { c with unifiedQueue := c.unifiedQueue ++ [trans] }
      else { c with readQueue := c.readQueue ++ [trans] }
    else c

/-- The first transaction that is complete leaves the return queue. -/
def returnDoneTrans (c : Controller) (clk : Nat) : Option Transaction × Controller :=
  (c.returnQueue.find? fun it => it.completeCycle ≤ clk,
    { c with returnQueue := c.returnQueue.eraseP fun it => it.completeCycle ≤ clk })

def transToCommand (config : Config) (trans : Transaction) : Command where
  cmdType :=
    match config.rowBufPolicy with
    | .openPage => if trans.isWrite then .write else .read
    | .closePage => if trans.isWrite then .writePrecharge else .readPrecharge
  addr := config.addressMapping trans.addr
  hexAddr := trans.addr

/-- The upper threshold of the write buffer, or the lower one when there is nothing else to do. -/
def startDraining (config : Config) (c : Controller) : Controller :=
  if c.writeDraining = 0 ∧ config.unifiedQueue = false ∧
      (config.transQueueSize ≤ c.writeBuffer.length ∨
        8 < c.writeBuffer.length ∧ c.cmdQueue.queueEmpty config = true) then
    { c with writeDraining := c.writeBuffer.length }
  else c

/-- The loop over a queue ends after its first transaction. -/
def scheduleTransaction (config : Config) (c : Controller) : Controller :=
  let c := c.startDraining config
  if config.unifiedQueue then
    match c.unifiedQueue with
    | [] => c
    | it :: queue =>
      let cmd := transToCommand config it
      if c.cmdQueue.willAcceptCommand config cmd.addr.bankId then
        { c with cmdQueue := (c.cmdQueue.addCommand config cmd).2, unifiedQueue := queue }
      else c
  else if 0 < c.writeDraining then
    match c.writeBuffer with
    | [] => c
    | it :: queue =>
      let cmd := transToCommand config it
      if c.cmdQueue.willAcceptCommand config cmd.addr.bankId then
        -- a write waits for the reads of its address
        if 0 < c.pendingRdQ.keyCount it.addr then { c with writeDraining := 0 }
        else
          { c with
            writeDraining := c.writeDraining - 1
            cmdQueue := (c.cmdQueue.addCommand config cmd).2
            writeBuffer := queue }
      else c
  else
    match c.readQueue with
    | [] => c
    | it :: queue =>
      let cmd := transToCommand config it
      if c.cmdQueue.willAcceptCommand config cmd.addr.bankId then
        { c with cmdQueue := (c.cmdQueue.addCommand config cmd).2, readQueue := queue }
      else c

/-! ## Commands -/

/-- All reads of the address are answered; there are `n` of them. -/
def returnReads (config : Config) (hexAddr : UInt64) : Nat → Controller → Controller
  | 0, c => c
  | n + 1, c =>
    match c.pendingRdQ.find? hexAddr with
    | none => c
    | some it => returnReads config hexAddr n
        { c with
          returnQueue := c.returnQueue ++ [{ it with completeCycle := later c.clk config.readDelay }]
          pendingRdQ := c.pendingRdQ.erase hexAddr }

/-- The part of `IssueCommand` before the state of the channel: what the command is about is no longer pending. -/
def complete (config : Config) (c : Controller) (cmd : Command) : Except Exit Controller :=
  if cmd.cmdType.isRead then
    let numReads := c.pendingRdQ.keyCount cmd.hexAddr
    if numReads = 0 then .error (.notInReadQueue cmd.hexAddr)
    else .ok (c.returnReads config cmd.hexAddr numReads)
  else if cmd.cmdType.isWrite then
    match c.pendingWrQ.find? cmd.hexAddr with
    | none => .error (.notInWriteQueue cmd.hexAddr)
    | some _ => .ok { c with pendingWrQ := c.pendingWrQ.erase cmd.hexAddr }
  else .ok c

def issueCommand (config : Config) (c : Controller) (cmd : Command) : Except Exit Controller := do
  let c ← c.complete config cmd
  let channelState ← c.channelState.updateTimingAndStates config cmd c.clk
  return { c with channelState := channelState, trace := c.trace ++ [(c.clk, cmd)] }

def getCommandToIssue (config : Config) (c : Controller) : Except Exit (Option Command × Controller) := do
  let t ← c.cmdQueue.getCommandToIssue config c.channelState
  return (t.1, { c with cmdQueue := t.2 })

/-- A refresh that waits (`IsRefreshWaiting`) goes first; where it has to wait itself, the queues are asked. -/
def selectCommand (config : Config) (c : Controller) : Except Exit (Option Command × Controller) := do
  match c.channelState.refreshQ with
  | [] => c.getCommandToIssue config
  | ref :: _ =>
    let t ← c.cmdQueue.finishRefresh config c.channelState ref
    let c := { c with cmdQueue := t.2 }
    match t.1 with
    | some cmd => return (some cmd, c)
    | none => c.getCommandToIssue config

/-- A second command in the same cycle. If both transfer data it is not issued,
but has been taken from its queue. -/
def issueSecond (config : Config) (c : Controller) (cmd : Command) : Except Exit Controller := do
  let t ← c.getCommandToIssue config
  match t.1 with
  | none => return t.2
  | some second =>
    if second.cmdType.isReadWrite ≠ cmd.cmdType.isReadWrite then t.2.issueCommand config second
    else return t.2

/-- What `ClockTick` issues, and whether it does. -/
def issueCommands (config : Config) (c : Controller) : Except Exit (Bool × Controller) := do
  let t ← c.selectCommand config
  match t.1 with
  | none => return (false, t.2)
  | some cmd =>
    let c ← t.2.issueCommand config cmd
    if config.enableHbmDualCmd then
      let c ← c.issueSecond config cmd
      return (true, c)
    else return (true, c)

/-! ## Self-refresh -/

/-- Part 1 of the power updates: how long a rank has been idle. -/
def updateIdleCycles (config : Config) (c : Controller) : Controller :=
  let ch := c.channelState
  let idleCycles (i : Int) : Nat :=
    if i < 0 ∨ config.ranks ≤ i ∨ ch.rankIsSref i then ch.rankIdleCycles i
    else if ch.isAllBankIdleInRank config i then ch.rankIdleCycles i + 1
    else 0
  { c with channelState := { ch with rankIdleCycles := idleCycles } }

/-- Part 2 of the power updates: the first rank that can enter or leave self-refresh does. -/
def updateSelfRefresh (config : Config) (c : Controller) : List Int → Except Exit Controller
  | [] => .ok c
  | i :: ranks => do
    let addr : Address := ⟨-1, i, -1, -1, -1, -1⟩
    let wanted : Option CommandType :=
      if c.channelState.rankIsSref i then
        if c.cmdQueue.rankQEmpty i then none else some .srefExit
      else if c.cmdQueue.rankQEmpty i ∧ config.srefThreshold ≤ c.channelState.rankIdleCycles i then some .srefEnter
      else none
    match wanted with
    | none => updateSelfRefresh config c ranks
    | some cmdType =>
      match ← c.channelState.getReadyCommand config ⟨cmdType, addr, -1⟩ c.clk with
      | none => updateSelfRefresh config c ranks
      | some cmd => c.issueCommand config cmd

def updatePower (config : Config) (c : Controller) (cmdIssued : Bool) : Except Exit Controller :=
  let c := c.updateIdleCycles config
  if config.enableSelfRefresh ∧ cmdIssued = false then c.updateSelfRefresh config (upTo config.ranks) else .ok c

/-! ## The clock -/

def tickRefresh (config : Config) (c : Controller) : Controller :=
  let t := c.refresh.elapse config c.channelState
  { c with refresh := t.1, channelState := t.2 }

def advance (c : Controller) : Controller :=
  { c with clk := c.clk + 1, cmdQueue := { c.cmdQueue with clk := c.cmdQueue.clk + 1 } }

def clockTick (config : Config) (c : Controller) : Except Exit Controller := do
  let r ← c.refresh.clockTick config c.channelState
  let t ← issueCommands config { c with refresh := r.1, channelState := r.2 }
  let c ← t.2.updatePower config t.1
  return (c.scheduleTransaction config).advance

end Controller

end Dramsim3

end Anna
