import Anna.VectorFetch

/-!
# A core

`ANNACore` works through a list of clusters, each with a set of queries, in
slices of at most `batch_size` queries. A slice is handed to the CPM, then to
the EFM, then to the SCM, and its queries are recorded when the SCM is done
with it; each of the three holds at most one slice. Indices that are -1 in the
source are `none` here.
-/

namespace Anna

/-- The queries at the positions `l ≤ i < r` of set number `k`. -/
structure Slice where
  k : Nat
  l : Nat
  r : Nat
  deriving DecidableEq, Repr

/-- History: the slices as the core hands them on, with the core's clock, and
the vector count that a slice is charged for. -/
inductive CoreEvent where
  | cpm (s : Slice) (clock : Nat)
  | efm (s : Slice)
  | scm (s : Slice) (vectorNum : Nat)
  | save (s : Slice) (clock : Nat)
  deriving DecidableEq, Repr

structure ANNACore where
  cpm : ClusterCodebookProcessingModule
  efm : EncodedVectorFetchModule
  scm : SimilarityComputationModule
  cpmProcessingIndex : Option Nat
  efmProcessingIndex : Option Nat
  scmProcessingIndex : Option Nat
  efmFetchingRequestNum : Nat
  slice : Nat
  sliceChanged : Bool
  batchSize : Nat
  clusterList : List Nat
  querySetList : List (List Nat)
  nextQueriesL : Nat
  nextQueriesR : Nat
  processQueriesL : Nat
  processQueriesR : Nat
  savingQueriesL : Nat
  savingQueriesR : Nat
  sliceQueries : Nat
  preEfmProcessingIndex : Option Nat
  finished : Bool
  clock : Nat
  log : List CoreEvent

namespace ANNACore

/-- The constructor leaves most members without a value. Those that `Setup` does
not write either are arguments; the others are given the values of `Setup`. -/
def new (cpmId metadataId vectorId efmFetchingRequestNum sliceQueries : Nat) : ANNACore where
  cpm := ClusterCodebookProcessingModule.new cpmId
  efm := EncodedVectorFetchModule.new metadataId vectorId
  scm := SimilarityComputationModule.new
  cpmProcessingIndex := none
  efmProcessingIndex := none
  scmProcessingIndex := none
  efmFetchingRequestNum := efmFetchingRequestNum
  slice := 0
  sliceChanged := true
  batchSize := 0
  clusterList := []
  querySetList := []
  nextQueriesL := wsub 0 1
  nextQueriesR := wsub 0 1
  processQueriesL := wsub 0 1
  processQueriesR := wsub 0 1
  savingQueriesL := wsub 0 1
  savingQueriesR := wsub 0 1
  sliceQueries := sliceQueries
  preEfmProcessingIndex := none
  finished := false
  clock := 0
  log := []

/-- `batch_size` comes as an `int` and is kept as a `uint64_t`. -/
def batchOfInt (batchSize : Int32) : Nat := (uint64OfInt batchSize).toNat

def setup (c : ANNACore) (clusterList : List Nat) (querySetList : List (List Nat)) (batchSize : Int32) : ANNACore :=
  { c with
    finished := false
    batchSize := batchOfInt batchSize
    clusterList := clusterList
    querySetList := querySetList
    slice := 0
    cpmProcessingIndex := none
    efmProcessingIndex := none
    scmProcessingIndex := none
    nextQueriesL := wsub 0 1
    nextQueriesR := wsub 0 1
    processQueriesL := wsub 0 1
    processQueriesR := wsub 0 1
    savingQueriesL := wsub 0 1
    savingQueriesR := wsub 0 1
    sliceChanged := true
    preEfmProcessingIndex := none }

def isFinished (c : ANNACore) : Bool := c.finished

def querySet (c : ANNACore) (k : Nat) : List Nat := c.querySetList.getD k []

def queriesOf (c : ANNACore) (s : Slice) : List Nat := ((c.querySet s.k).take s.r).drop s.l

/-! ## The parts of a tick, in order -/

section
variable {μ : Type} [MemoryPort μ] (clusterAddr : Nat → Cluster)

def tickModules (c : ANNACore) (w : World μ) : ANNACore × World μ :=
  let t := c.cpm.clockTick w
  let u := c.efm.clockTick clusterAddr t.2
  ({ c with clock := c.clock + 1, cpm := t.1, efm := u.1, scm := c.scm.clockTick }, u.2)

end

/-- The SCM is done with its slice: the queries of the slice are recorded. -/
def saveSlice (c : ANNACore) (t : TestValue) (k : Nat) : ANNACore × TestValue :=
  let s : Slice := ⟨k, c.savingQueriesL, c.savingQueriesR⟩
  ({ c with
     finished := c.finished || (k == wsub c.clusterList.length 1 && c.savingQueriesR == (c.querySet k).length)
     scmProcessingIndex := none
     log := c.log ++ [.save s c.clock] },
   { t with queriesEndClock := fun q => if q ∈ c.queriesOf s then some c.clock else t.queriesEndClock q })

def save (c : ANNACore) (t : TestValue) : ANNACore × TestValue :=
  match c.scmProcessingIndex with
  | none => (c, t)
  | some k => if c.scm.isReady then c.saveSlice t k else (c, t)

section
variable (clusterAddr : Nat → Cluster)

/-- The slice goes on to the SCM. The vectors are those of entry number `k` of
`cluster_addr`, and all queries of the set are charged, whatever the slice. -/
def scanSlice (c : ANNACore) (t : TestValue) (k : Nat) : ANNACore × TestValue :=
  let size := (c.querySet k).length
  let u := c.scm.submit ((clusterAddr k).vectorNum * UInt64.ofNat size) t
  ({ c with
     scm := u.1
     scmProcessingIndex := some k
     savingQueriesL := c.processQueriesL
     savingQueriesR := c.processQueriesR
     efmProcessingIndex := none
     log := c.log ++ [.scm ⟨k, c.processQueriesL, c.processQueriesR⟩ ((clusterAddr k).vectorNum.toNat * size)] },
   { u.2 with efmEncodedVectorBufferRead := u.2.efmEncodedVectorBufferRead + (clusterAddr k).bytes.toNat * size })

def scmProcess (c : ANNACore) (t : TestValue) : ANNACore × TestValue :=
  match c.efmProcessingIndex with
  | none => (c, t)
  | some k =>
    if c.scmProcessingIndex = none ∧ c.efm.getFetchedRequestNum = c.efmFetchingRequestNum ∧ c.scm.isReady then
      c.scanSlice clusterAddr t k
    else (c, t)

end

/-- `efm.SubmitRequest`, unless the slice before was of the same index. -/
def requestCluster (c : ANNACore) (k : Nat) : ANNACore :=
  if c.preEfmProcessingIndex = some k then c
  else
    let u := c.efm.submitRequest [c.clusterList.getD k 0]
    { c with efmFetchingRequestNum := u.1, efm := u.2 }

def fetchSlice (c : ANNACore) (k : Nat) : ANNACore :=
  { c.requestCluster k with
    efmProcessingIndex := some k
    preEfmProcessingIndex := some k
    processQueriesL := c.nextQueriesL
    processQueriesR := c.nextQueriesR
    cpmProcessingIndex := none
    log := c.log ++ [.efm ⟨k, c.nextQueriesL, c.nextQueriesR⟩] }

def preFetch (c : ANNACore) : ANNACore :=
  match c.cpmProcessingIndex with
  | none => c
  | some k => if c.efmProcessingIndex = none ∧ c.cpm.isFinished ∧ c.efm.isReadySubmit then c.fetchSlice k else c

def nextL (c : ANNACore) : Nat := if c.sliceChanged then 0 else c.sliceQueries + c.batchSize

def nextR (c : ANNACore) : Nat := min (c.nextL + c.batchSize) (c.querySet c.slice).length

def handSlice (c : ANNACore) (t : TestValue) : ANNACore × TestValue :=
  let s : Slice := ⟨c.slice, c.nextL, c.nextR⟩
  let last := c.nextR == (c.querySet c.slice).length
  ({ c with
     cpmProcessingIndex := some c.slice
     nextQueriesL := c.nextL
     nextQueriesR := c.nextR
     sliceQueries := c.nextL
     sliceChanged := last
     slice := if last then c.slice + 1 else c.slice
     cpm := c.cpm.submitClusterRequest [c.clusterList.getD c.slice 0]
     log := c.log ++ [.cpm s c.clock] },
   { t with queriesStartClock := fun q =>
       if q ∈ c.queriesOf s ∧ t.queriesStartClock q = none then some c.clock else t.queriesStartClock q })

def nextSlice (c : ANNACore) (t : TestValue) : ANNACore × TestValue :=
  if c.cpmProcessingIndex = none ∧ c.cpm.isReadySubmit ∧ c.slice < c.clusterList.length then c.handSlice t else (c, t)

section
variable {μ : Type} [MemoryPort μ] (clusterAddr : Nat → Cluster)

def clockTick (c : ANNACore) (w : World μ) : ANNACore × World μ :=
  let a := c.tickModules clusterAddr w
  let b := a.1.save a.2.testValue
  let p := b.1.scmProcess clusterAddr b.2
  let n := p.1.preFetch.nextSlice p.2
  (n.1, { memory := a.2.memory, testValue := n.2 })

end

end ANNACore

end Anna
