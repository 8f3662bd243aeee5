import Anna.Core
import Mathlib.Logic.Relation

/-!
# The steps of a core

After its modules have ticked, a core moves slices on: `Part` lists what a
tick can do to them. A run is a sequence of ticks, with any change of the
memory in between that leaves the reads of this core's readers in flight, so
it covers every timing of the answers and whatever the other cores do.
-/

namespace Anna

namespace ANNACore

inductive Part (clusterAddr : Nat → Cluster) : ANNACore × TestValue → ANNACore × TestValue → Prop
  | save {c : ANNACore} {t : TestValue} (k : Nat) : c.scmProcessingIndex = some k → c.scm.isReady = true →
      Part clusterAddr (c, t) (c.saveSlice t k)
  | scan {c : ANNACore} {t : TestValue} (k : Nat) : c.efmProcessingIndex = some k → c.scmProcessingIndex = none →
      c.efm.getFetchedRequestNum = c.efmFetchingRequestNum → Part clusterAddr (c, t) (c.scanSlice clusterAddr t k)
  | fetch {c : ANNACore} {t : TestValue} (k : Nat) : c.cpmProcessingIndex = some k → c.efmProcessingIndex = none →
      c.cpm.isFinished = true → c.efm.isReadySubmit = true → Part clusterAddr (c, t) (c.fetchSlice k, t)
  | hand {c : ANNACore} {t : TestValue} : c.cpmProcessingIndex = none → c.cpm.isReadySubmit = true →
      c.slice < c.clusterList.length → Part clusterAddr (c, t) (c.handSlice t)

section
variable {clusterAddr : Nat → Cluster}

abbrev Parts (clusterAddr : Nat → Cluster) := Relation.ReflTransGen (Part clusterAddr)

theorem save_parts (c : ANNACore) (t : TestValue) : Parts clusterAddr (c, t) (c.save t) := by
  unfold save
  cases hk : c.scmProcessingIndex with
  | none => exact .refl
  | some k =>
    show Parts clusterAddr (c, t) (if _ then _ else _)
    split
    · rename_i hr
      exact .single (.save k hk hr)
    · exact .refl

theorem scmProcess_parts (c : ANNACore) (t : TestValue) : Parts clusterAddr (c, t) (c.scmProcess clusterAddr t) := by
  unfold scmProcess
  cases hk : c.efmProcessingIndex with
  | none => exact .refl
  | some k =>
    show Parts clusterAddr (c, t) (if _ then _ else _)
    split
    · rename_i hg
      exact .single (.scan k hk hg.1 hg.2.1)
    · exact .refl

theorem preFetch_parts (c : ANNACore) (t : TestValue) : Parts clusterAddr (c, t) (c.preFetch, t) := by
  unfold preFetch
  cases hk : c.cpmProcessingIndex with
  | none => exact .refl
  | some k =>
    show Parts clusterAddr (c, t) (if _ then _ else _, t)
    split
    · rename_i hg
      exact .single (.fetch k hk hg.1 hg.2.1 hg.2.2)
    · exact .refl

theorem nextSlice_parts (c : ANNACore) (t : TestValue) : Parts clusterAddr (c, t) (c.nextSlice t) := by
  unfold nextSlice
  split
  · rename_i hg
    exact .single (.hand hg.1 hg.2.1 hg.2.2)
  · exact .refl

variable {μ : Type} [MemoryPort μ]

theorem clockTick_parts (clusterAddr : Nat → Cluster) (c : ANNACore) (w : World μ) :
    Parts clusterAddr ((c.tickModules clusterAddr w).1, (c.tickModules clusterAddr w).2.testValue)
      ((c.clockTick clusterAddr w).1, (c.clockTick clusterAddr w).2.testValue) := by
  apply Relation.ReflTransGen.trans (save_parts _ _)
  apply Relation.ReflTransGen.trans (scmProcess_parts _ _)
  apply Relation.ReflTransGen.trans (preFetch_parts _ _)
  exact nextSlice_parts _ _

/-! ## Runs -/

def readerIds (c : ANNACore) : List Nat :=
  [c.cpm.memoryReader.id, c.efm.metadataReader.id, c.efm.vectorReader.id]

inductive Reach (clusterAddr : Nat → Cluster) (clusterList : List Nat) (querySetList : List (List Nat))
    (batchSize : Int32) : ANNACore → World μ → Prop
  | setup {cpmId metadataId vectorId : Nat} (efmFetchingRequestNum sliceQueries : Nat) (w : World μ) :
      [cpmId, metadataId, vectorId].Nodup →
      (∀ id ∈ [cpmId, metadataId, vectorId], MemoryPort.inflight w.memory id = 0) →
      Reach clusterAddr clusterList querySetList batchSize
        ((new cpmId metadataId vectorId efmFetchingRequestNum sliceQueries).setup clusterList querySetList batchSize) w
  | clockTick {c : ANNACore} {w : World μ} : Reach clusterAddr clusterList querySetList batchSize c w →
      Reach clusterAddr clusterList querySetList batchSize (c.clockTick clusterAddr w).1 (c.clockTick clusterAddr w).2
  | environment {c : ANNACore} {w : World μ} (w' : World μ) :
      Reach clusterAddr clusterList querySetList batchSize c w →
      (∀ id ∈ c.readerIds, MemoryPort.inflight w'.memory id = MemoryPort.inflight w.memory id) →
      Reach clusterAddr clusterList querySetList batchSize c w'

variable {clusterList : List Nat} {querySetList : List (List Nat)} {batchSize : Int32}

theorem parts_invariant {I : ANNACore → Prop} {p q : ANNACore × TestValue} (h : Parts clusterAddr p q)
    (hpart : ∀ {p q}, Part clusterAddr p q → I p.1 → I q.1) (hi : I p.1) : I q.1 := by
  induction h with
  | refl => exact hi
  | tail _ hs ih => exact hpart hs ih

/-- An invariant of the core holds at `Setup` and is kept by the modules' tick and by each part. -/
theorem reach_invariant {I : ANNACore → Prop} {c : ANNACore} {w : World μ}
    (h : Reach clusterAddr clusterList querySetList batchSize c w)
    (hsetup : ∀ i j v e s, I ((new i j v e s).setup clusterList querySetList batchSize))
    (hmodules : ∀ c (w : World μ), I c → I (c.tickModules clusterAddr w).1)
    (hpart : ∀ {p q}, Part clusterAddr p q → I p.1 → I q.1) : I c := by
  induction h with
  | setup e s w _ _ => exact hsetup _ _ _ e s
  | clockTick _ ih => exact parts_invariant (clockTick_parts _ _ _) hpart (hmodules _ _ ih)
  | environment w' _ _ ih => exact ih

end

end ANNACore

end Anna
