import Anna.Dramsim3.Controller

/-!
# The DRAM system

`JedecDRAMSystem` has a controller for each channel and calls back for the
transactions that are complete before it lets the controllers tick. What a
tick yields besides the new state are the transactions that it calls back for,
in order.
-/

namespace Anna

namespace Dramsim3

/-- The vector of the controllers is a function of the channel. -/
structure JedecDRAMSystem where
  clk : Nat
  ctrls : Int → Controller

namespace JedecDRAMSystem

def new : JedecDRAMSystem := ⟨0, fun _ => .new⟩

def getChannel (config : Config) (hexAddr : UInt64) : Int :=
  config.field (hexAddr >>> UInt64.ofNat config.shiftBits) .ch

def willAcceptTransaction (config : Config) (s : JedecDRAMSystem) (hexAddr : UInt64) (isWrite : Bool) : Bool :=
  (s.ctrls (getChannel config hexAddr)).willAcceptTransaction config isWrite

/-- A transaction goes to the controller of its channel. -/
def accept (config : Config) (s : JedecDRAMSystem) (hexAddr : UInt64) (isWrite : Bool) : JedecDRAMSystem :=
  let channel := getChannel config hexAddr
  { s with ctrls :=
      Function.update s.ctrls channel ((s.ctrls channel).addTransaction config ⟨hexAddr, 0, 0, isWrite⟩) }

def addTransaction (config : Config) (s : JedecDRAMSystem) (hexAddr : UInt64) (isWrite : Bool) :
    Except Exit JedecDRAMSystem :=
  if s.willAcceptTransaction config hexAddr isWrite then .ok (s.accept config hexAddr isWrite) else .error .notAccepted

/-- The loop `while (true)` around `ReturnDoneTrans`; it runs at most once for each transaction in the return queue,
`fuel`. -/
def returnDone (clk : Nat) : Nat → Controller → List Transaction × Controller
  | 0, c => ([], c)
  | fuel + 1, c =>
    match c.returnDoneTrans clk with
    | (none, c) => ([], c)
    | (some t, c) =>
      let r := returnDone clk fuel c
      (t :: r.1, r.2)

def returnAll (s : JedecDRAMSystem) : List Int → List Transaction × JedecDRAMSystem
  | [] => ([], s)
  | i :: channels =>
    let d := returnDone s.clk (s.ctrls i).returnQueue.length (s.ctrls i)
    let r := returnAll { s with ctrls := Function.update s.ctrls i d.2 } channels
    (d.1 ++ r.1, r.2)

def tickAll (config : Config) (s : JedecDRAMSystem) : List Int → Except Exit JedecDRAMSystem
  | [] => .ok s
  | i :: channels => do
    let c ← (s.ctrls i).clockTick config
    tickAll config { s with ctrls := Function.update s.ctrls i c } channels

def clockTick (config : Config) (s : JedecDRAMSystem) : Except Exit (List Transaction × JedecDRAMSystem) := do
  let r := s.returnAll (upTo config.channels)
  let s ← r.2.tickAll config (upTo config.channels)
  -- the remainder of the clock tells whether there is an output
  if config.epochPeriod = 0 then throw .divisionByZero
  return (r.1, { s with clk := s.clk + 1 })

end JedecDRAMSystem

end Dramsim3

end Anna
