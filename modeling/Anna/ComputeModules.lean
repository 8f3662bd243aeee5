import Anna.MemoryReader

/-!
# The compute modules of a core

The cluster codebook processing module (CPM) reads centroids and counts down
its computation, the similarity computation module (SCM) only counts down.
Both write the global counters of `test_value`, so a module's tick takes the
memory and the counters and gives both back.
-/

namespace Anna

/-- The counters that the modelled code writes. The two clock arrays start filled with -1,
which is `none` here. -/
structure TestValue where
  cpmComputingCycleCnt : Nat
  scmComputingCycleCnt : Nat
  efmBlockedCycleCnt : Nat
  efmMemoryReaderRead : Nat
  efmEncodedVectorBufferRead : Nat
  efmEncodedVectorBufferWrite : Nat
  queriesStartClock : Nat → Option Nat
  queriesEndClock : Nat → Option Nat

def TestValue.initial : TestValue := ⟨0, 0, 0, 0, 0, 0, fun _ => none, fun _ => none⟩

structure World (μ : Type) where
  memory : μ
  testValue : TestValue

/-! ## Cluster codebook processing -/

structure ClusterCodebookProcessingModule where
  memoryReader : MemoryReader
  computingRemind : Nat
  waitAddr : List UInt64
  deriving DecidableEq, Repr

namespace ClusterCodebookProcessingModule

def computingCycleNum : Nat := (nScm * kStar * dim + nCu - 1) / nCu

def computingInvalidNum : Nat := 2 ^ 64 - 1

def new (id : Nat) : ClusterCodebookProcessingModule := ⟨MemoryReader.new id, 0, []⟩

def isReadySubmit (c : ClusterCodebookProcessingModule) : Bool := c.waitAddr.isEmpty

def isFinished (c : ClusterCodebookProcessingModule) : Bool := c.waitAddr.isEmpty && c.computingRemind == 0

def submitClusterRequest (c : ClusterCodebookProcessingModule) (centroidList : List Nat) :
    ClusterCodebookProcessingModule :=
  { c with waitAddr := c.waitAddr ++ centroidList.map clusterCentroid }

def readRound (c : ClusterCodebookProcessingModule) : ClusterCodebookProcessingModule where
  memoryReader := (c.waitAddr.take nCu).foldl
    (fun r addr => r.submitReadRequest addr (UInt64.ofNat vectorSize)) c.memoryReader
  computingRemind := computingInvalidNum
  waitAddr := c.waitAddr.drop nCu

def clockTick {μ : Type} [MemoryPort μ] (c : ClusterCodebookProcessingModule) (w : World μ) :
    ClusterCodebookProcessingModule × World μ :=
  let t := c.memoryReader.clockTick w.memory
  let c := { c with memoryReader := t.1 }
  let w := { w with memory := t.2 }
  if c.computingRemind ≤ computingCycleNum ∧ 0 < c.computingRemind then
    ({ c with computingRemind := c.computingRemind - 1 }, w)
  else
    let c := { c with memoryReader := c.memoryReader.finishAndReset.2 }
    if c.memoryReader.isReady then
      if c.computingRemind = computingInvalidNum then
        ({ c with computingRemind := computingCycleNum },
         { w with testValue := { w.testValue with
            cpmComputingCycleCnt := w.testValue.cpmComputingCycleCnt + computingCycleNum } })
      else if c.waitAddr ≠ [] then (c.readRound, w)
      else (c, w)
    else (c, w)

end ClusterCodebookProcessingModule

/-! ## Similarity computation -/

structure SimilarityComputationModule where
  computingRemind : UInt64
  deriving DecidableEq, Repr

namespace SimilarityComputationModule

def new : SimilarityComputationModule := ⟨0⟩

def isReady (s : SimilarityComputationModule) : Bool := s.computingRemind == 0

def clockTick (s : SimilarityComputationModule) : SimilarityComputationModule :=
  if s.computingRemind ≠ 0 then ⟨s.computingRemind - 1⟩ else s

/-- The ceiling of `vector_num / N_scm` as the source writes it, on 64 bits. -/
def submit (_ : SimilarityComputationModule) (vectorNum : UInt64) (t : TestValue) :
    SimilarityComputationModule × TestValue :=
  let computingRemind := UInt64.ofNat scmCyclesPerQuery * (1 + (vectorNum - 1) / UInt64.ofNat nScm)
  (⟨computingRemind⟩, { t with scmComputingCycleCnt := t.scmComputingCycleCnt + computingRemind.toNat })

end SimilarityComputationModule

end Anna
