import Anna.ComputeModules

/-!
# The encoded vector fetch module

A request is a list of clusters. Its metadata are read first; the clusters
then wait in `cluster_queue` until the metadata of the next request are
issued, move to `vector_queue` and have their vectors read. Requests are
counted at three points (submitted, metadata back, vectors back) and two
equalities between the counts open the reads.
-/

namespace Anna

/-- History that no function reads: the requests, the reads issued for their
clusters in order, and how many of these have come back. -/
structure FetchHistory where
  submitted : List (List Nat)
  metadataReads : List Nat
  vectorReads : List Nat
  metadataBack : Nat
  vectorBack : Nat
  deriving DecidableEq, Repr

def FetchHistory.requestEnd (h : FetchHistory) (n : Nat) : Nat := (h.submitted.take (n + 1)).flatten.length

structure EncodedVectorFetchModule where
  metadataReader : MemoryReader
  vectorReader : MemoryReader
  metadataQueue : List Nat
  vectorQueue : List Nat
  clusterQueue : List Nat
  fetchedRequestNum : Nat
  submitedRequestNum : Nat
  fetchingRequestNum : Nat
  assertFailed : Bool
  history : FetchHistory
  deriving DecidableEq, Repr

namespace EncodedVectorFetchModule

def new (metadataId vectorId : Nat) : EncodedVectorFetchModule where
  metadataReader := MemoryReader.new metadataId
  vectorReader := MemoryReader.new vectorId
  metadataQueue := []
  vectorQueue := []
  clusterQueue := []
  fetchedRequestNum := 0
  submitedRequestNum := 0
  fetchingRequestNum := 0
  assertFailed := false
  history := ⟨[], [], [], 0, 0⟩

def isReadySubmit (e : EncodedVectorFetchModule) : Bool := e.metadataQueue.isEmpty

def getFetchedRequestNum (e : EncodedVectorFetchModule) : Nat := e.fetchedRequestNum

/-- The number of the request, counted from 0, and the module after it. -/
def submitRequest (e : EncodedVectorFetchModule) (clusters : List Nat) : Nat × EncodedVectorFetchModule :=
  (wsub (e.submitedRequestNum + 1) 1,
   { e with
     assertFailed := e.assertFailed || !e.metadataQueue.isEmpty
     metadataQueue := e.metadataQueue ++ clusters
     submitedRequestNum := e.submitedRequestNum + 1
     history := { e.history with submitted := e.history.submitted ++ [clusters] } })

/-! ## The parts of a tick, in order -/

section
variable {μ : Type} [MemoryPort μ]

def tickReaders (e : EncodedVectorFetchModule) (m : μ) : EncodedVectorFetchModule × μ :=
  let t := e.metadataReader.clockTick m
  let u := e.vectorReader.clockTick t.2
  ({ e with
     metadataReader := t.1
     vectorReader := u.1
     history := { e.history with
       metadataBack := if t.1.isReady then e.history.metadataReads.length else e.history.metadataBack
       vectorBack := if u.1.isReady then e.history.vectorReads.length else e.history.vectorBack } }, u.2)

end

def countMetadata (e : EncodedVectorFetchModule) : EncodedVectorFetchModule :=
  let t := e.metadataReader.finishAndReset
  { e with
    metadataReader := t.2
    fetchingRequestNum := if t.1 then e.fetchingRequestNum + 1 else e.fetchingRequestNum }

def isBlocked (e : EncodedVectorFetchModule) : Bool := !e.metadataReader.isReady || !e.vectorReader.isReady

def metadataGate (e : EncodedVectorFetchModule) : Bool :=
  e.fetchingRequestNum == wsub e.submitedRequestNum 1 && e.metadataReader.isReady

def readMetadata (e : EncodedVectorFetchModule) : EncodedVectorFetchModule :=
  if e.metadataGate then
    { e with
      metadataReader := e.metadataQueue.foldl
        (fun r cluster => r.submitReadRequest (metadataAddr cluster).1 (metadataAddr cluster).2) e.metadataReader
      vectorQueue := e.vectorQueue ++ e.clusterQueue
      clusterQueue := e.metadataQueue
      metadataQueue := []
      history := { e.history with metadataReads := e.history.metadataReads ++ e.metadataQueue } }
  else e

def countVectors (e : EncodedVectorFetchModule) : EncodedVectorFetchModule :=
  let t := e.vectorReader.finishAndReset
  { e with
    vectorReader := t.2
    fetchedRequestNum := if t.1 then e.fetchedRequestNum + 1 else e.fetchedRequestNum }

def vectorGate (e : EncodedVectorFetchModule) : Bool :=
  e.fetchedRequestNum == wsub e.fetchingRequestNum 1 && e.vectorReader.isReady

section
variable (clusterAddr : Nat → Cluster)

def readVectors (e : EncodedVectorFetchModule) : EncodedVectorFetchModule :=
  if e.vectorGate then
    { e with
      vectorReader := e.vectorQueue.foldl
        (fun r v => r.submitReadRequest (clusterAddr v).startAddr (clusterAddr v).bytes) e.vectorReader
      vectorQueue := []
      history := { e.history with vectorReads := e.history.vectorReads ++ e.vectorQueue } }
  else e

def metadataBytes (e : EncodedVectorFetchModule) : Nat :=
  if e.metadataGate then (e.metadataQueue.map fun cluster => (metadataAddr cluster).2.toNat).sum else 0

def vectorBytes (e : EncodedVectorFetchModule) : Nat :=
  if e.vectorGate then (e.vectorQueue.map fun v => (clusterAddr v).bytes.toNat).sum else 0

def clockTick {μ : Type} [MemoryPort μ] (e : EncodedVectorFetchModule) (w : World μ) :
    EncodedVectorFetchModule × World μ :=
  let t := e.tickReaders w.memory
  let e₁ := t.1.countMetadata
  let e₂ := e₁.readMetadata.countVectors
  (e₂.readVectors clusterAddr,
   { memory := t.2
     testValue := { w.testValue with
       efmBlockedCycleCnt := w.testValue.efmBlockedCycleCnt + if e₁.isBlocked then 1 else 0
       efmMemoryReaderRead := w.testValue.efmMemoryReaderRead + e₁.metadataBytes + e₂.vectorBytes clusterAddr
       efmEncodedVectorBufferWrite := w.testValue.efmEncodedVectorBufferWrite + e₂.vectorBytes clusterAddr } })

end

/-- The first `num` of the reads issued through `r` are back: they were issued,
and the reader has been ready since or is ready now. -/
def gotBack (r : MemoryReader) (reads : List Nat) (back num : Nat) : Prop :=
  num ≤ reads.length ∧ (num ≤ back ∨ r.isReady = true)

/-- All reads of request `n` are back. Reads are issued in the order of submission. -/
def Fetched (e : EncodedVectorFetchModule) (n : Nat) : Prop :=
  n < e.history.submitted.length ∧
    gotBack e.metadataReader e.history.metadataReads e.history.metadataBack (e.history.requestEnd n) ∧
    gotBack e.vectorReader e.history.vectorReads e.history.vectorBack (e.history.requestEnd n)

end EncodedVectorFetchModule

end Anna
