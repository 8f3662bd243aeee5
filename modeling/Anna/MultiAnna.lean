import Anna.Core
import Anna.MemoryReaderSound

/-!
# The accelerator

`MultiANNA` is eight cores on one memory interface. `Run` groups the queries
by window and cluster, deals the groups out to the cores in turn, and ticks
until every core is finished. Both of its loops are run with fuel: `none`
stands for a loop that has not ended.
-/

namespace Anna

/-! ## Grouping the queries -/

/-- The windows `[l, r)` of the outer loop of `Run`; it is entered with `l = r`. -/
def windows (batchSize total : Nat) : Nat → Nat → Option (List (Nat × Nat))
  | 0, _ => none
  | fuel + 1, l =>
    if l < total then
      (windows batchSize total fuel (min (l + batchSize) total)).map ((l, min (l + batchSize) total) :: ·)
    else some []

/-- `for (auto c : queries[i]) now[c].push_back(i)`. -/
def pushQuery (now : Nat → List Nat) (i : Nat) (clusters : List Nat) : Nat → List Nat :=
  clusters.foldl (fun now c => Function.update now c (now c ++ [i])) now

def bucket (queries : List (List Nat)) (l r : Nat) : Nat → List Nat :=
  (List.range' l (r - l)).foldl (fun now i => pushQuery now i (queries.getD i [])) (fun _ => [])

def groupsOf (now : Nat → List Nat) : List (Nat × List Nat) :=
  (List.range clusterNum).filterMap fun i => if now i = [] then none else some (i, now i)

/-- What `Run` appends to `cluster_list` and `query_set_list`. -/
def groups (queries : List (List Nat)) (ws : List (Nat × Nat)) : List (Nat × List Nat) :=
  ws.flatMap fun w => groupsOf (bucket queries w.1 w.2)

/-- Entry number `i` goes to core `i % core_num`. -/
def dealFrom {α : Type} (coreNum : Nat) : Nat → List α → (Nat → List α) → Nat → List α
  | _, [], hands => hands
  | i, x :: xs, hands =>
    dealFrom coreNum (i + 1) xs (Function.update hands (i % coreNum) (hands (i % coreNum) ++ [x]))

def deal {α : Type} (coreNum : Nat) (xs : List α) : Nat → List α := dealFrom coreNum 0 xs fun _ => []

/-! ## The system -/

structure MultiANNA (δ : Type) where
  memory : MultiMemoryInterface δ
  annaCoreList : List ANNACore
  clusterList : List Nat
  querySetList : List (List Nat)
  queries : List (List Nat)
  clock : Nat
  testValue : TestValue

namespace MultiANNA

variable {δ : Type}

def coreNum : Nat := 8

/-- Construct a core on the interface: each of its three readers registers an id.
The members that the constructor leaves without a value are an argument. -/
def addCore (unset : Port → Nat × Nat) (s : MultiMemoryInterface δ × List ANNACore) (coreId : Port) :
    MultiMemoryInterface δ × List ANNACore :=
  (((s.1.registerId coreId).registerId coreId).registerId coreId,
   s.2 ++ [ANNACore.new s.1.idNum (s.1.idNum + 1) (s.1.idNum + 2) (unset coreId).1 (unset coreId).2])

def new (useMemorySwitch : Bool) (mem : Port → δ) (unset : Port → Nat × Nat) : MultiANNA δ :=
  let s := (List.finRange coreNum).foldl (addCore unset) (MultiMemoryInterface.new useMemorySwitch mem, [])
  { memory := s.1
    annaCoreList := s.2
    clusterList := []
    querySetList := []
    queries := []
    clock := 0
    testValue := TestValue.initial }

def setup (s : MultiANNA δ) (queries : List (List Nat)) : MultiANNA δ := { s with queries := queries }

def getClockNum (s : MultiANNA δ) : Nat := s.clock

section
variable [MemorySystem δ] (clusterAddr : Nat → Cluster)

def tickCores {μ : Type} [MemoryPort μ] : List ANNACore → World μ → List ANNACore × World μ
  | [], w => ([], w)
  | c :: cs, w =>
    let t := c.clockTick clusterAddr w
    let u := tickCores cs t.2
    (t.1 :: u.1, u.2)

def clockTick (s : MultiANNA δ) : MultiANNA δ :=
  let t := tickCores clusterAddr s.annaCoreList ⟨s.memory.clockTick, s.testValue⟩
  { s with clock := s.clock + 1, memory := t.2.memory, testValue := t.2.testValue, annaCoreList := t.1 }

def loop : Nat → MultiANNA δ → Option (MultiANNA δ)
  | 0, _ => none
  | fuel + 1, s =>
    let s := s.clockTick clusterAddr
    if s.annaCoreList.all ANNACore.isFinished then some s else loop fuel s

/-- The cores take the `uint64_t` of `Run` as an `int`. -/
def setupCores (s : MultiANNA δ) (batchSize : UInt64) (ws : List (Nat × Nat)) : MultiANNA δ :=
  let clusterList := s.clusterList ++ (groups s.queries ws).map Prod.fst
  let querySetList := s.querySetList ++ (groups s.queries ws).map Prod.snd
  { s with
    clusterList := clusterList
    querySetList := querySetList
    annaCoreList := s.annaCoreList.mapIdx fun i c =>
      c.setup (deal coreNum clusterList i) (deal coreNum querySetList i) (intOfUint64 batchSize) }

def run (fuel : Nat) (batchSize : UInt64) (s : MultiANNA δ) : Option (MultiANNA δ) :=
  (windows batchSize.toNat s.queries.length fuel 0).bind fun ws => loop clusterAddr fuel (s.setupCores batchSize ws)

end

end MultiANNA

end Anna
