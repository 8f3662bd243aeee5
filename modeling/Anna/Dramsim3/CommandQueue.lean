import Anna.Dramsim3.ChannelState

/-!
# Command queues

The commands of a channel wait in one queue for each bank or each rank. In a
tick the queues are asked in turn for the first command that is ready; a
refresh that waits goes before them and closes the queues it is about.
-/

namespace Anna

namespace Dramsim3

structure CommandQueue where
  rankQEmpty : Int → Bool
  queues : Int → List Command
  refQIndices : List Int
  isInRef : Bool
  queueIdx : Int
  clk : Nat

namespace CommandQueue

def new : CommandQueue := ⟨fun _ => true, fun _ => [], [], false, 0, 0⟩

def numQueues (config : Config) : Nat :=
  match config.queueStructure with
  | .perBank => config.banks * config.ranks
  | .perRank => config.ranks

def getQueueIndex (config : Config) (b : BankId) : Int :=
  match config.queueStructure with
  | .perRank => b.rank
  | .perBank => b.rank * config.banks + b.bankgroup * config.banksPerGroup + b.bank

def willAcceptCommand (config : Config) (q : CommandQueue) (b : BankId) : Bool :=
  (q.queues (getQueueIndex config b)).length < config.cmdQueueSize

def queueEmpty (config : Config) (q : CommandQueue) : Bool :=
  (upTo (numQueues config)).all fun i => (q.queues i).isEmpty

def addCommand (config : Config) (q : CommandQueue) (cmd : Command) : Bool × CommandQueue :=
  let index := getQueueIndex config cmd.addr.bankId
  if q.willAcceptCommand config cmd.addr.bankId then
    (true, { q with
      queues := Function.update q.queues index (q.queues index ++ [cmd])
      rankQEmpty := Function.update q.rankQEmpty cmd.addr.rank false })
  else (false, q)

/-! ## The next command -/

/-- `cmd` stands between `before` and `after` in its queue. It may close its
bank if it is the first there, unless there are row hits left. -/
def arbitratePrecharge (ch : ChannelState) (before : List Command) (cmd : Command) (after : List Command) : Bool :=
  let bank := ch.bankStates cmd.addr.bankId
  let pendingRowHitsExist := (cmd :: after).any fun pending =>
    pending.addr.row = bank.openRow ∧ pending.addr.bankId = cmd.addr.bankId
  let rowhitLimitReached := 4 ≤ bank.rowHitCount
  (!before.any fun prev => prev.addr.bankId = cmd.addr.bankId) && (!pendingRowHitsExist || rowhitLimitReached)

/-- The ranks are not compared. -/
def hasRWDependency (before : List Command) (cmd : Command) : Bool :=
  before.any fun it => it.cmdType.isRead ∧ it.addr.row = cmd.addr.row ∧ it.addr.column = cmd.addr.column ∧
    it.addr.bank = cmd.addr.bank ∧ it.addr.bankgroup = cmd.addr.bankgroup

/-- The loop of `GetFirstReadyInQueue`, with the commands it has passed. -/
def getFirstReady (config : Config) (ch : ChannelState) (clk : Nat) (before : List Command) :
    List Command → Except Exit (Option Command)
  | [] => .ok none
  | cmd :: after => do
    match ← ch.getReadyCommand config cmd clk with
    | none => getFirstReady config ch clk (before ++ [cmd]) after
    | some ready =>
      if ready.cmdType = .precharge ∧ arbitratePrecharge ch before cmd after = false ∨
          ready.cmdType.isWrite ∧ hasRWDependency before cmd then
        getFirstReady config ch clk (before ++ [cmd]) after
      else return some ready

def getNextQueue (config : Config) (q : CommandQueue) : CommandQueue :=
  { q with queueIdx := if q.queueIdx + 1 = numQueues config then 0 else q.queueIdx + 1 }

def eraseRWCommand (config : Config) (q : CommandQueue) (cmd : Command) : Except Exit CommandQueue :=
  let index := getQueueIndex config cmd.addr.bankId
  let same (it : Command) : Bool := cmd.hexAddr = it.hexAddr ∧ cmd.cmdType = it.cmdType
  if (q.queues index).any same then
    .ok { q with queues := Function.update q.queues index ((q.queues index).eraseP same) }
  else .error .cannotFindCmd

/-- The loop of `GetCommandToIssue`, which visits every queue once. -/
def issueFrom (config : Config) (ch : ChannelState) : Nat → CommandQueue → Except Exit (Option Command × CommandQueue)
  | 0, q => .ok (none, q)
  | fuel + 1, q => do
    let q := q.getNextQueue config
    -- the queues that a refresh is about are skipped
    if q.isInRef ∧ q.queueIdx ∈ q.refQIndices then issueFrom config ch fuel q
    else
      match ← getFirstReady config ch q.clk [] (q.queues q.queueIdx) with
      | none => issueFrom config ch fuel q
      | some cmd =>
        if cmd.cmdType.isReadWrite then
          let q ← q.eraseRWCommand config cmd
          return (some cmd, q)
        else return (some cmd, q)

def getCommandToIssue (config : Config) (ch : ChannelState) (q : CommandQueue) :
    Except Exit (Option Command × CommandQueue) :=
  issueFrom config ch (numQueues config) q

/-! ## Refresh -/

def getRefQIndices (config : Config) (ref : Command) : List Int :=
  if ref.cmdType = .refresh then
    match config.queueStructure with
    | .perBank => (upTo (numQueues config)).filter fun i => i / config.banks = ref.addr.rank
    | .perRank => [ref.addr.rank]
  else [getQueueIndex config ref.addr.bankId]

/-- The queues that `ref` is about are closed, unless that has been done. -/
def startRefresh (config : Config) (q : CommandQueue) (ref : Command) : CommandQueue :=
  if q.isInRef then q else { q with refQIndices := q.refQIndices ++ getRefQIndices config ref, isInRef := true }

/-- The first refresh that waits is `ref`. -/
def finishRefresh (config : Config) (ch : ChannelState) (q : CommandQueue) (ref : Command) :
    Except Exit (Option Command × CommandQueue) := do
  let q := q.startRefresh config ref
  match ← ch.getReadyCommand config ref q.clk with
  | none => return (none, q)
  | some cmd =>
    if cmd.cmdType.isRefresh then return (some cmd, { q with refQIndices := [], isInRef := false })
    else return (some cmd, q)

end CommandQueue

end Dramsim3

end Anna
