import Anna.ComputeModulesSound
import Anna.CoreFetch
import Anna.Lib.Progress

/-!
# How a core starts

The first tick hands the first slice to the CPM, the second prepares the reads
of its centroid and the third makes them. When they are back the CPM counts
down, whatever the memory does, and the core makes its first request.
-/

namespace Anna

namespace MemoryReader

theorem clockTick_new {μ : Type} [MemoryPort μ] {m : μ} {id : Nat} (h : MemoryPort.inflight m id = 0) :
    ((new id).clockTick m).1 = new id := by
  have hproc : ((new id).clockTick m).1.processingNum + (new id).collected m = 0 :=
    (sound_new h).consistent.processingNum_clockTick
  have hzero : ((new id).clockTick m).1.processingNum = 0 := by omega
  show MemoryReader.mk _ _ ((new id).clockTick m).1.processingNum _ = _
  rw [hzero]
  rfl

end MemoryReader

/-! ## The first round of the CPM -/

namespace ClusterCodebookProcessingModule

theorem isFinished_busy {c : ClusterCodebookProcessingModule} (h : c.computingRemind ≠ 0) : c.isFinished = false := by
  simp [isFinished, h]

theorem clockTick_countdown {μ : Type} [MemoryPort μ] {c : ClusterCodebookProcessingModule} {w : World μ} {n : Nat}
    (h : c.computingRemind = n + 1) (hn : n + 1 ≤ computingCycleNum) :
    (c.clockTick w).1.computingRemind = n ∧ (c.clockTick w).1.waitAddr = c.waitAddr := by
  unfold clockTick
  dsimp only
  rw [if_pos ⟨by rw [h]; exact hn, by rw [h]; exact Nat.succ_pos n⟩]
  exact ⟨by rw [h]; rfl, rfl⟩

theorem clockTick_read {μ : Type} [MemoryPort μ] {w : World μ} {id : Nat} (addr : UInt64)
    (h : MemoryPort.inflight w.memory id = 0) :
    ((⟨MemoryReader.new id, 0, [addr]⟩ : ClusterCodebookProcessingModule).clockTick w).1 =
      ⟨(MemoryReader.new id).submitReadRequest addr (UInt64.ofNat vectorSize), computingInvalidNum, []⟩ := by
  have hnew := MemoryReader.clockTick_new h
  unfold clockTick
  dsimp only
  rw [hnew, if_neg (fun hand => absurd hand.2 (Nat.lt_irrefl 0))]
  rfl

section
variable {μ : Type} [MemoryPort μ] {c : ClusterCodebookProcessingModule} {w : World μ}

/-- The CPM computes and has at most `j` ticks of its computation behind it. -/
structure Counting (j : Nat) (c : ClusterCodebookProcessingModule) : Prop where
  wait : c.waitAddr = []
  low : computingCycleNum ≤ c.computingRemind + j
  high : c.computingRemind ≤ computingCycleNum

/-- The reads of the last round can all be issued in one tick, or are back. -/
structure Loading (j : Nat) (c : ClusterCodebookProcessingModule) : Prop where
  queue : c.memoryReader.requestQueue.length ≤ 17
  wait : c.waitAddr = []
  phase : c.computingRemind = computingInvalidNum ∨ c.Counting j

theorem Loading.busy {j : Nat} (h : c.Loading j) (hj : j < computingCycleNum) : c.computingRemind ≠ 0 := by
  rcases h.phase with hp | hp
  · rw [hp]
    decide
  · have := hp.low
    omega

theorem Loading.clockTick {j : Nat} (h : c.Loading j) (hj : j < computingCycleNum) :
    (c.clockTick w).1.Loading (j + 1) ∧ (c.clockTick w).1.memoryReader.requestQueue = [] ∧
      ((c.memoryReader.clockTick w.memory).1.isReady = true → (c.clockTick w).1.Counting (j + 1)) := by
  have hq : (c.memoryReader.clockTick w.memory).1.requestQueue = [] := MemoryReader.issue_all _ _ h.queue
  have hq' : (c.memoryReader.clockTick w.memory).1.finishAndReset.2.requestQueue = [] :=
    (MemoryReader.finishAndReset_queue _).trans hq
  have hlen : ∀ q : List UInt64, q = [] → q.length ≤ 17 := by
    rintro q rfl
    exact Nat.zero_le _
  rcases h.phase with hp | hp
  · have hinv : ¬ (c.computingRemind ≤ computingCycleNum ∧ 0 < c.computingRemind) := by
      rw [hp]
      decide
    unfold ClusterCodebookProcessingModule.clockTick
    dsimp only
    rw [if_neg hinv, MemoryReader.finishAndReset_isReady]
    by_cases hready : (c.memoryReader.clockTick w.memory).1.isReady = true
    · rw [if_pos hready, if_pos hp]
      have hcount : Counting (j + 1) { c with
          memoryReader := (c.memoryReader.clockTick w.memory).1.finishAndReset.2
          computingRemind := computingCycleNum } := ⟨h.wait, Nat.le_add_right _ _, Nat.le_refl _⟩
      exact ⟨⟨hlen _ hq', h.wait, Or.inr hcount⟩, hq', fun _ => hcount⟩
    · rw [if_neg hready]
      exact ⟨⟨hlen _ hq', h.wait, Or.inl hp⟩, hq', fun hr => absurd hr hready⟩
  · have hlow := hp.low
    have hcount : c.computingRemind ≤ computingCycleNum ∧ 0 < c.computingRemind := ⟨hp.high, by omega⟩
    unfold ClusterCodebookProcessingModule.clockTick
    dsimp only
    rw [if_pos hcount]
    have hnext : Counting (j + 1) { c with
        memoryReader := (c.memoryReader.clockTick w.memory).1
        computingRemind := c.computingRemind - 1 } :=
      ⟨h.wait, by dsimp only; omega, Nat.le_trans (Nat.sub_le _ _) hp.high⟩
    exact ⟨⟨hlen _ hq, h.wait, Or.inr hnext⟩, hq, fun _ => hnext⟩

end

end ClusterCodebookProcessingModule

namespace ANNACore

section
variable {μ : Type} [MemoryPort μ] {clusterAddr : Nat → Cluster} {clusterList : List Nat}
  {querySetList : List (List Nat)} {batchSize : Int32} {c : ANNACore} {t : TestValue} {w : World μ}

theorem part_cpmReader {p q : ANNACore × TestValue} (h : Part clusterAddr p q) :
    q.1.cpm.memoryReader = p.1.cpm.memoryReader := by
  cases h with
  | save k _ _ => rfl
  | scan k _ _ _ => rfl
  | @fetch c t k _ _ _ _ =>
    show (c.requestCluster k).cpm.memoryReader = _
    unfold requestCluster
    split <;> rfl
  | hand _ _ _ => rfl

theorem reach_cpmSound (h : Reach clusterAddr clusterList querySetList batchSize c w) :
    c.cpm.memoryReader.Sound w.memory := by
  induction h with
  | setup _ _ w _ hfly => exact MemoryReader.sound_new (hfly _ List.mem_cons_self)
  | @clockTick c w h ih =>
    have hids := (reach_fetchSound h).ids
    simp only [readerIds, List.nodup_cons, List.mem_cons, List.not_mem_nil, or_false, not_or] at hids
    obtain ⟨⟨hm, hv⟩, -⟩ := hids
    apply parts_invariant (I := fun d => d.cpm.memoryReader.Sound (c.clockTick clusterAddr w).2.memory)
      (clockTick_parts clusterAddr c w)
    · intro p q hp hd
      rw [part_cpmReader hp]
      exact hd
    · apply (ClusterCodebookProcessingModule.sound_clockTick ih).frame
      rw [show (c.cpm.clockTick w).1.memoryReader.id = c.cpm.memoryReader.id from
        ClusterCodebookProcessingModule.clockTick_id _ _]
      refine (MemoryReader.clockTick_inflight_other _ _ (Ne.symm hv)).trans ?_
      exact MemoryReader.clockTick_inflight_other _ _ (Ne.symm hm)
  | environment w' h hfly ih => exact ih.frame (hfly _ List.mem_cons_self)

/-! ## Ticks in which nothing moves on -/

theorem save_none (h : c.scmProcessingIndex = none) : c.save t = (c, t) := by
  unfold save
  rw [h]

theorem scmProcess_none (h : c.efmProcessingIndex = none) : c.scmProcess clusterAddr t = (c, t) := by
  unfold scmProcess
  rw [h]

theorem preFetch_busy (h : c.cpm.isFinished = false) : c.preFetch = c := by
  unfold preFetch
  rw [h]
  cases c.cpmProcessingIndex with
  | none => rfl
  | some k => simp

theorem preFetch_none (h : c.cpmProcessingIndex = none) : c.preFetch = c := by
  unfold preFetch
  rw [h]

theorem nextSlice_busy (h : c.cpmProcessingIndex ≠ none) : c.nextSlice t = (c, t) := by
  unfold nextSlice
  rw [if_neg (fun hand => h hand.1)]

/-- The first slice is in the CPM and nothing else has happened. -/
structure Starting (c : ANNACore) : Prop where
  cpmIndex : c.cpmProcessingIndex = some 0
  efmIndex : c.efmProcessingIndex = none
  scmIndex : c.scmProcessingIndex = none
  scm : c.scm.isReady = true
  unused : c.efm.submitedRequestNum = 0

theorem scm_clockTick_ready {s : SimilarityComputationModule} (h : s.isReady = true) : s.clockTick.isReady = true := by
  unfold SimilarityComputationModule.clockTick
  unfold SimilarityComputationModule.isReady at *
  rw [beq_iff_eq] at h
  simp [h]

theorem Starting.clockTick (clusterAddr : Nat → Cluster) (h : c.Starting)
    (hcpm : (c.cpm.clockTick w).1.isFinished = false) :
    (c.clockTick clusterAddr w).1.Starting ∧ (c.clockTick clusterAddr w).1.cpm = (c.cpm.clockTick w).1 := by
  have hsub := (EncodedVectorFetchModule.clockTick_nums clusterAddr c.efm (c.cpm.clockTick w).2).1
  have htick : (c.clockTick clusterAddr w).1 = (c.tickModules clusterAddr w).1 := by
    unfold ANNACore.clockTick
    dsimp only
    have h1 : (c.tickModules clusterAddr w).1.scmProcessingIndex = none := h.scmIndex
    have h2 : (c.tickModules clusterAddr w).1.efmProcessingIndex = none := h.efmIndex
    have h3 : (c.tickModules clusterAddr w).1.cpmProcessingIndex ≠ none := by
      rw [show (c.tickModules clusterAddr w).1.cpmProcessingIndex = some 0 from h.cpmIndex]
      exact Option.some_ne_none 0
    rw [save_none h1, scmProcess_none h2, preFetch_busy hcpm, nextSlice_busy h3]
  rw [htick]
  exact ⟨⟨h.cpmIndex, h.efmIndex, h.scmIndex, scm_clockTick_ready h.scm, hsub.trans h.unused⟩, rfl⟩

/-- The first request is made and the SCM is free. -/
structure Requested (c : ANNACore) : Prop where
  efmIndex : c.efmProcessingIndex = some 0
  scmIndex : c.scmProcessingIndex = none
  scm : c.scm.isReady = true
  first : c.efm.submitedRequestNum = 1
  waiting : c.efm.metadataQueue ≠ []

theorem nextSlice_efm (c : ANNACore) (t : TestValue) : (c.nextSlice t).1.efm = c.efm ∧
    (c.nextSlice t).1.efmProcessingIndex = c.efmProcessingIndex ∧
    (c.nextSlice t).1.scmProcessingIndex = c.scmProcessingIndex ∧ (c.nextSlice t).1.scm = c.scm := by
  unfold nextSlice
  split <;> exact ⟨rfl, rfl, rfl, rfl⟩

theorem requestCluster_first {k : Nat} (h : c.preEfmProcessingIndex ≠ some k) :
    (c.requestCluster k).efm = (c.efm.submitRequest [c.clusterList.getD k 0]).2 ∧ (c.requestCluster k).scm = c.scm ∧
      (c.requestCluster k).scmProcessingIndex = c.scmProcessingIndex := by
  unfold requestCluster
  rw [if_neg h]
  exact ⟨rfl, rfl, rfl⟩

theorem Starting.request (h : c.Starting) (hs : c.FetchSound w.memory)
    (hcpm : (c.cpm.clockTick w).1.isFinished = true) : (c.clockTick clusterAddr w).1.Requested := by
  have hs' := hs.tickModules clusterAddr
  have hsub : (c.tickModules clusterAddr w).1.efm.submitedRequestNum = 0 :=
    (EncodedVectorFetchModule.clockTick_nums clusterAddr c.efm (c.cpm.clockTick w).2).1.trans h.unused
  have hq : (c.tickModules clusterAddr w).1.efm.metadataQueue = [] := by
    cases hs'.paced.phase with
    | unused h1 _ _ _ _ => exact h1
    | first _ _ h3 _ _ => omega
    | waiting _ _ h3 _ => omega
    | asked h1 _ _ => exact h1
  have hpre : (c.tickModules clusterAddr w).1.preEfmProcessingIndex = none := hs'.gated.pre.mpr hsub
  have hfetch : (c.tickModules clusterAddr w).1.preFetch = (c.tickModules clusterAddr w).1.fetchSlice 0 := by
    unfold preFetch
    rw [show (c.tickModules clusterAddr w).1.cpmProcessingIndex = some 0 from h.cpmIndex]
    have hr : (c.tickModules clusterAddr w).1.efm.isReadySubmit = true := by
      unfold EncodedVectorFetchModule.isReadySubmit
      rw [hq]
      rfl
    exact if_pos ⟨h.efmIndex, hcpm, hr⟩
  have htick : (c.clockTick clusterAddr w).1 =
      (((c.tickModules clusterAddr w).1.fetchSlice 0).nextSlice (c.tickModules clusterAddr w).2.testValue).1 := by
    unfold ANNACore.clockTick
    dsimp only
    have h1 : (c.tickModules clusterAddr w).1.scmProcessingIndex = none := h.scmIndex
    have h2 : (c.tickModules clusterAddr w).1.efmProcessingIndex = none := h.efmIndex
    rw [save_none h1, scmProcess_none h2, hfetch]
  obtain ⟨e1, e2, e3, e4⟩ := nextSlice_efm ((c.tickModules clusterAddr w).1.fetchSlice 0)
    (c.tickModules clusterAddr w).2.testValue
  obtain ⟨r1, r2, r3⟩ := requestCluster_first (k := 0) (c := (c.tickModules clusterAddr w).1)
    (by rw [hpre]; exact (Option.some_ne_none 0).symm)
  rw [htick]
  refine ⟨e2, ?_, ?_, ?_, ?_⟩
  · exact e3.trans (r3.trans h.scmIndex)
  · rw [e4]
    show ((c.tickModules clusterAddr w).1.requestCluster 0).scm.isReady = true
    rw [r2]
    exact scm_clockTick_ready h.scm
  · rw [e1]
    show ((c.tickModules clusterAddr w).1.requestCluster 0).efm.submitedRequestNum = 1
    rw [r1]
    show (c.tickModules clusterAddr w).1.efm.submitedRequestNum + 1 = 1
    rw [hsub]
  · rw [e1]
    show ((c.tickModules clusterAddr w).1.requestCluster 0).efm.metadataQueue ≠ []
    rw [r1]
    simp [EncodedVectorFetchModule.submitRequest]

/-! ## The first slice on its way -/

theorem setup_clockTick (clusterAddr : Nat → Cluster) (querySetList : List (List Nat)) (batchSize : Int32)
    {i j v e s : Nat} (hw : MemoryPort.inflight w.memory i = 0) (hne : clusterList ≠ []) :
    let c := ((new i j v e s).setup clusterList querySetList batchSize).clockTick clusterAddr w
    c.1.Starting ∧ c.1.cpm = ⟨MemoryReader.new i, 0, [clusterCentroid (clusterList.getD 0 0)]⟩ := by
  intro c
  have hcpm : ((ClusterCodebookProcessingModule.new i).clockTick w).1 = ClusterCodebookProcessingModule.new i := by
    have hnew : ((MemoryReader.new i).clockTick w.memory).1 = MemoryReader.new i := MemoryReader.clockTick_new hw
    unfold ClusterCodebookProcessingModule.clockTick
    dsimp only [ClusterCodebookProcessingModule.new]
    rw [hnew]
    rfl
  let d := (((new i j v e s).setup clusterList querySetList batchSize).tickModules clusterAddr w).1
  have hd : d.cpm = ClusterCodebookProcessingModule.new i := hcpm
  have htick : c.1 = (d.handSlice (((new i j v e s).setup clusterList querySetList batchSize).tickModules clusterAddr
      w).2.testValue).1 := by
    have h1 : d.scmProcessingIndex = none := rfl
    have h2 : d.efmProcessingIndex = none := rfl
    have h3 : d.cpmProcessingIndex = none := rfl
    have hguard : d.cpmProcessingIndex = none ∧ d.cpm.isReadySubmit = true ∧ d.slice < d.clusterList.length :=
      ⟨h3, by rw [hd]; rfl, List.length_pos_of_ne_nil hne⟩
    show (nextSlice (preFetch (scmProcess clusterAddr (save d _).1 _).1) _).1 = _
    rw [save_none h1, scmProcess_none h2, preFetch_none h3, nextSlice, if_pos hguard]
  have hsub := (EncodedVectorFetchModule.clockTick_nums clusterAddr (EncodedVectorFetchModule.new j v)
    ((ClusterCodebookProcessingModule.new i).clockTick w).2).1
  rw [htick]
  refine ⟨⟨rfl, rfl, rfl, rfl, hsub⟩, ?_⟩
  show d.cpm.submitClusterRequest _ = _
  rw [hd]
  rfl

-- the stages of the first slice: set up, handed to the CPM, its reads prepared, all requested, all back;
-- `j` bounds the ticks that the computation may have been running

def SetUp (c : ANNACore) : Prop := ∃ i j v e q clusterList querySetList batchSize, clusterList ≠ [] ∧
  c = (ANNACore.new i j v e q).setup clusterList querySetList batchSize

def Handed (c : ANNACore) : Prop := c.Starting ∧ ∃ id addr, c.cpm = ⟨MemoryReader.new id, 0, [addr]⟩

def Reading (j : Nat) (c : ANNACore) : Prop := c.Starting ∧ c.cpm.Loading j

def Asked (j : Nat) (c : ANNACore) : Prop := Reading j c ∧ c.cpm.memoryReader.requestQueue = []

def Computing (j : Nat) (c : ANNACore) : Prop := c.Starting ∧ c.cpm.Counting j

theorem SetUp.clockTick (hr : Reach clusterAddr clusterList querySetList batchSize c w) (h : SetUp c) :
    Handed (c.clockTick clusterAddr w).1 := by
  have hs := (reach_cpmSound hr).consistent
  obtain ⟨i, j, v, e, q, cl, qs, bs, hne, rfl⟩ := h
  have hzero : MemoryPort.inflight w.memory i = 0 := by
    have hs' : 0 = 0 + MemoryPort.inflight w.memory i := hs
    omega
  obtain ⟨hstart, hcpm⟩ := setup_clockTick clusterAddr qs bs hzero hne
  exact ⟨hstart, i, _, hcpm⟩

theorem Handed.clockTick (hr : Reach clusterAddr clusterList querySetList batchSize c w) (h : Handed c) :
    Reading 0 (c.clockTick clusterAddr w).1 := by
  obtain ⟨hstart, id, addr, hcpm⟩ := h
  have hs := (reach_cpmSound hr).consistent
  have hzero : MemoryPort.inflight w.memory id = 0 := by
    rw [hcpm] at hs
    have hs' : 0 = 0 + MemoryPort.inflight w.memory id := hs
    omega
  have hread := ClusterCodebookProcessingModule.clockTick_read addr hzero
  rw [← hcpm] at hread
  obtain ⟨hstart', hcpm'⟩ := hstart.clockTick clusterAddr
    (ClusterCodebookProcessingModule.isFinished_busy (by rw [hread]; exact Nat.succ_ne_zero _))
  refine ⟨hstart', ?_⟩
  rw [hcpm', hread]
  refine ⟨?_, rfl, Or.inl rfl⟩
  simp [MemoryReader.submitReadRequest, MemoryReader.new, MemoryReader.chunks, vectorSize, dim, vectorElementSize]

theorem Reading.clockTick (clusterAddr : Nat → Cluster) {j : Nat}
    (hj : j + 1 < ClusterCodebookProcessingModule.computingCycleNum) (h : Reading j c) (w : World μ) :
    Asked (j + 1) (c.clockTick clusterAddr w).1 ∧
      ((c.cpm.memoryReader.clockTick w.memory).1.isReady = true →
        Computing (j + 1) (c.clockTick clusterAddr w).1) := by
  obtain ⟨hload, hq, hready⟩ := h.2.clockTick (w := w) (Nat.lt_of_succ_lt hj)
  obtain ⟨hstart, hcpm⟩ := h.1.clockTick clusterAddr (ClusterCodebookProcessingModule.isFinished_busy (hload.busy hj))
  refine ⟨⟨⟨hstart, ?_⟩, ?_⟩, ?_⟩
  · rw [hcpm]
    exact hload
  · rw [hcpm]
    exact hq
  · intro hr
    refine ⟨hstart, ?_⟩
    rw [hcpm]
    exact hready hr

def Tick (μ : Type) [MemoryPort μ] (clusterAddr : Nat → Cluster) (clusterList : List Nat)
    (querySetList : List (List Nat)) (batchSize : Int32) (c d : ANNACore) : Prop :=
  ∃ w : World μ, Reach clusterAddr clusterList querySetList batchSize c w ∧ d = (c.clockTick clusterAddr w).1

theorem Computing.within_requested {j : Nat} (h : Computing j c)
    (hj : j < ClusterCodebookProcessingModule.computingCycleNum) :
    Within (Tick μ clusterAddr clusterList querySetList batchSize) Requested
      (ClusterCodebookProcessingModule.computingCycleNum + 1) c := by
  have hlow := h.2.low
  apply Within.rank (I := fun c => c.Starting ∧ c.cpm.waitAddr = [] ∧ 0 < c.cpm.computingRemind ∧
    c.cpm.computingRemind ≤ ClusterCodebookProcessingModule.computingCycleNum) (f := fun c => c.cpm.computingRemind)
    _ ⟨h.1, h.2.wait, by omega, h.2.high⟩ (Nat.lt_succ_of_le h.2.high)
  rintro c _ ⟨hstart, hwait, hpos, hle⟩ ⟨w, hreach, rfl⟩
  obtain ⟨n, hn⟩ := Nat.exists_eq_succ_of_ne_zero (Nat.pos_iff_ne_zero.mp hpos)
  have hle' : n + 1 ≤ ClusterCodebookProcessingModule.computingCycleNum := Nat.le_trans (Nat.le_of_eq hn.symm) hle
  obtain ⟨h1, h2⟩ := ClusterCodebookProcessingModule.clockTick_countdown (w := w) hn hle'
  cases n with
  | zero =>
    refine Or.inl (hstart.request (reach_fetchSound hreach) ?_)
    simp [ClusterCodebookProcessingModule.isFinished, h1, h2, hwait]
  | succ n =>
    obtain ⟨hstart', hcpm⟩ := hstart.clockTick clusterAddr (w := w)
      (ClusterCodebookProcessingModule.isFinished_busy (by rw [h1]; exact Nat.succ_ne_zero n))
    refine Or.inr ⟨⟨hstart', ?_, ?_, ?_⟩, ?_⟩
    · rw [hcpm, h2, hwait]
    · rw [hcpm, h1]
      exact Nat.succ_pos n
    · rw [hcpm, h1]
      omega
    · rw [hcpm, h1, hn]
      exact Nat.lt_succ_self _

end

end ANNACore

end Anna
