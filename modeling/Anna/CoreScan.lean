import Anna.CoreStart

/-!
# When the SCM starts

`SubmitRequest` numbers requests from 0, `fetched_request_num` counts the
completed ones, and the core compares the two for equality. For the first
request the comparison holds from the start, so the SCM is given the first
slice in the tick that asks for its metadata. Every core with work does this,
as soon as the memory answers the CPM at all.
-/

namespace Anna

/-- A memory that hands back every read in the tick it was requested. -/
structure PromptMemory where
  reads : Nat → Nat

instance : MemoryPort PromptMemory where
  requestRead m id _ := ⟨Function.update m.reads id (m.reads id + 1)⟩
  getAllReadyReadRequest m id := (m.reads id, ⟨Function.update m.reads id 0⟩)
  inflight m id := m.reads id
  inflight_requestRead m id addr j := by
    by_cases hj : id = j
    · subst hj; simp
    · simp [hj, Function.update_of_ne (Ne.symm hj)]
  inflight_getAll m id j := by
    by_cases hj : id = j
    · subst hj; simp
    · simp [hj, Function.update_of_ne (Ne.symm hj)]

namespace MemoryReader

theorem isReady_prompt {r : MemoryReader} {m : PromptMemory} (h : r.Consistent m) (hq : r.requestQueue.length ≤ 17) :
    (r.clockTick m).1.isReady = true := by
  have hc : (r.clockTick m).1.processingNum = (issue r.id 17 r.requestQueue m).1.length +
      MemoryPort.inflight (r.clockTick m).2 r.id := h.clockTick
  rw [issue_all r.id _ hq] at hc
  have hz : MemoryPort.inflight (r.clockTick m).2 r.id = 0 := Function.update_self ..
  simp [isReady, hc, hz]

end MemoryReader

namespace EncodedVectorFetchModule

theorem submitAll_metadata (cs : List Nat) (r : MemoryReader) :
    (cs.foldl (fun r c => r.submitReadRequest (metadataAddr c).1 (metadataAddr c).2) r).processingNum =
      r.processingNum + cs.length := by
  induction cs generalizing r with
  | nil => rfl
  | cons c cs ih =>
    have hone : (MemoryReader.chunks (metadataAddr c).1 (metadataAddr c).2 64).length = 1 := by
      simp [MemoryReader.chunks, metadataAddr, metadataLen]
    rw [List.foldl_cons, ih, List.length_cons]
    show r.processingNum + (MemoryReader.chunks _ _ _).length + cs.length = _
    rw [hone]
    omega

theorem clockTick_asks {μ : Type} [MemoryPort μ] (clusterAddr : Nat → Cluster) {e : EncodedVectorFetchModule}
    {w : World μ} (hh : e.Held) (hr : e.Readers w.memory) (hq : e.metadataQueue ≠ [])
    (hready : (e.metadataReader.clockTick w.memory).1.isReady = true) :
    (e.clockTick clusterAddr w).1.history.metadataBack = e.history.metadataReads.length ∧
      (e.clockTick clusterAddr w).1.metadataReader.isReady = false := by
  have hread : ∀ e : EncodedVectorFetchModule,
      (e.readVectors clusterAddr).history.metadataBack = e.history.metadataBack ∧
        (e.readVectors clusterAddr).metadataReader = e.metadataReader := by
    intro e
    unfold readVectors
    split <;> exact ⟨rfl, rfl⟩
  have hgate := (hh.tickReaders (m := w.memory)).countMetadata.metadataGate_eq (finished_countMetadata hr.tickReaders)
  have hready' : (e.tickReaders w.memory).1.countMetadata.metadataReader.isReady = true :=
    (MemoryReader.finishAndReset_isReady _).trans hready
  have hq' : (e.tickReaders w.memory).1.countMetadata.metadataQueue = e.metadataQueue := rfl
  rw [hready', hq', List.isEmpty_eq_false_iff.mpr hq] at hgate
  have hmeta : (e.tickReaders w.memory).1.countMetadata.readMetadata.history.metadataBack =
        (e.tickReaders w.memory).1.history.metadataBack ∧
      (e.tickReaders w.memory).1.countMetadata.readMetadata.metadataReader = e.metadataQueue.foldl
        (fun r cluster => r.submitReadRequest (metadataAddr cluster).1 (metadataAddr cluster).2)
        (e.tickReaders w.memory).1.countMetadata.metadataReader := by
    unfold readMetadata
    rw [hgate]
    exact ⟨rfl, rfl⟩
  obtain ⟨h1, h2⟩ := hread (e.tickReaders w.memory).1.countMetadata.readMetadata.countVectors
  refine ⟨(h1.trans hmeta.1).trans (if_pos hready), ?_⟩
  show MemoryReader.isReady (readVectors clusterAddr _).metadataReader = false
  rw [h2]
  show MemoryReader.isReady (EncodedVectorFetchModule.metadataReader (readMetadata _)) = false
  rw [hmeta.2]
  have hpos := List.length_pos_of_ne_nil hq
  simp only [MemoryReader.isReady, submitAll_metadata, beq_eq_false_iff_ne]
  omega

end EncodedVectorFetchModule

namespace ANNACore

section
variable {μ : Type} [MemoryPort μ] {clusterAddr : Nat → Cluster} {c : ANNACore} {t : TestValue} {w : World μ}

/-! ## The first slice -/

/-- The guard of "scm process" when the tick comes to it. -/
def Scans (clusterAddr : Nat → Cluster) (c : ANNACore) (w : World μ) (k : Nat) : Prop :=
  let d := ((c.tickModules clusterAddr w).1.save (c.tickModules clusterAddr w).2.testValue).1
  d.efmProcessingIndex = some k ∧ d.scmProcessingIndex = none ∧
    d.efm.getFetchedRequestNum = d.efmFetchingRequestNum ∧ d.scm.isReady = true

theorem Requested.phase (h : c.Requested) (hs : c.FetchSound w.memory) :
    c.efm.fetchedRequestNum = 0 ∧ c.efmFetchingRequestNum = 0 ∧ c.efm.vectorReader.finished = true ∧
      c.efm.metadataReader.finished = true := by
  have hnum := hs.gated.number (by rw [h.first]; exact Nat.one_ne_zero)
  rw [h.first] at hnum
  have hlag := hs.held.lag
  unfold EncodedVectorFetchModule.metadataLag at hlag
  rw [if_neg h.waiting, h.first] at hlag
  have hfin : c.efm.metadataReader.finished = true := by
    by_contra hf
    rw [if_neg hf] at hlag
    omega
  have hfirst := h.first
  cases hs.paced.phase with
  | unused _ _ h3 _ _ => omega
  | first _ _ _ h4 h5 => exact ⟨h4, by omega, h5, hfin⟩
  | waiting _ _ h3 _ => omega
  | asked h1 _ _ => exact absurd h1 h.waiting

theorem Requested.scans (h : c.Requested) (hs : c.FetchSound w.memory) : Scans clusterAddr c w 0 := by
  obtain ⟨hfd, hnum, hv, -⟩ := h.phase hs
  have hfd' := (EncodedVectorFetchModule.clockTick_nums clusterAddr c.efm (c.cpm.clockTick w).2).2.2 hv
  have hscm : (c.tickModules clusterAddr w).1.scmProcessingIndex = none := h.scmIndex
  unfold Scans
  rw [save_none hscm]
  exact ⟨h.efmIndex, h.scmIndex, (hfd'.trans hfd).trans hnum.symm, scm_clockTick_ready h.scm⟩

/-- The tick finds the metadata reader ready. -/
theorem Requested.ready (h : c.Requested) (hs : c.FetchSound w.memory) :
    (c.efm.metadataReader.clockTick (c.cpm.clockTick w).2.memory).1.isReady = true := by
  obtain ⟨-, -, -, hfin⟩ := h.phase hs
  have := hs.readers_after_cpm.metadata.clockTick.settled hfin
  simp [MemoryReader.isReady, this]

theorem Requested.not_fetched (h : c.Requested) (hs : c.FetchSound w.memory) :
    ¬ (c.tickModules clusterAddr w).1.efm.Fetched c.efmFetchingRequestNum := by
  obtain ⟨-, hnum, -, -⟩ := h.phase hs
  -- the tick asks for the metadata
  obtain ⟨hback, hbusy⟩ :=
    EncodedVectorFetchModule.clockTick_asks clusterAddr hs.held hs.readers_after_cpm h.waiting (h.ready hs)
  have hsubm := (EncodedVectorFetchModule.clockTick_nums clusterAddr c.efm (c.cpm.clockTick w).2).2.1
  have hend : (c.tickModules clusterAddr w).1.efm.history.requestEnd 0 =
      c.efm.history.metadataReads.length + c.efm.metadataQueue.length := by
    show ((c.efm.clockTick clusterAddr (c.cpm.clockTick w).2).1.history.submitted.take 1).flatten.length = _
    have hone : c.efm.history.submitted.length = 1 := hs.held.number.trans h.first
    rw [hsubm, List.take_of_length_le (Nat.le_of_eq hone), hs.held.metadata, List.length_append]
  rintro ⟨-, ⟨-, hgot⟩, -⟩
  rcases hgot with hgot | hgot
  · rw [hnum, hend] at hgot
    have hle := hgot.trans (Nat.le_of_eq hback)
    have := List.length_pos_of_ne_nil h.waiting
    omega
  · exact Bool.false_ne_true (hbusy.symm.trans hgot)

end

section
variable {clusterAddr : Nat → Cluster} {clusterList : List Nat} {querySetList : List (List Nat)} {batchSize : Int32}

theorem exists_requested (clusterAddr : Nat → Cluster) (querySetList : List (List Nat)) (batchSize : Int32)
    (hne : clusterList ≠ []) : ∃ (c : ANNACore) (w : World PromptMemory),
    Reach clusterAddr clusterList querySetList batchSize c w ∧ c.Requested := by
  let w : World PromptMemory := ⟨⟨fun _ => 0⟩, TestValue.initial⟩
  have h₀ : Reach clusterAddr clusterList querySetList batchSize
      ((new 0 1 2 0 0).setup clusterList querySetList batchSize) w := .setup 0 0 w (by decide) (fun _ _ => rfl)
  have hsetup : SetUp ((new 0 1 2 0 0).setup clusterList querySetList batchSize) :=
    ⟨0, 1, 2, 0, 0, clusterList, querySetList, batchSize, hne, rfl⟩
  -- the first tick hands the slice over, the second asks for the centroid, the third has it
  have h₁ := h₀.clockTick
  have h₂ := h₁.clockTick
  have hreading := (hsetup.clockTick h₀).clockTick h₁
  have hready := MemoryReader.isReady_prompt (reach_cpmSound h₂).consistent hreading.2.queue
  have hcomputing := (hreading.clockTick clusterAddr (by decide) _).2 hready
  have hwithin : Within (Tick PromptMemory clusterAddr clusterList querySetList batchSize) Requested _ _ :=
    hcomputing.within_requested (by decide)
  obtain ⟨c, ⟨w, h⟩, hreq⟩ := hwithin.exists_goal
    (I := fun c => ∃ w : World PromptMemory, Reach clusterAddr clusterList querySetList batchSize c w)
    (fun c ⟨w, h⟩ => ⟨_, ⟨_, h.clockTick⟩, w, h, rfl⟩) ⟨_, h₂.clockTick⟩
  exact ⟨c, w, h, hreq⟩

-- a request of the core waits, and the next tick takes it
theorem fetch_in_step_requested : ∃ (c : ANNACore) (w : World PromptMemory),
    Reach (fun _ => ⟨clusterAddrStart, 32, 1⟩) [3, 5] [[0], [1]] 1 c w ∧ c.efm.submitedRequestNum = 1 ∧
      c.efm.metadataQueue ≠ [] ∧ (c.efm.metadataQueue.length ≤ 1 ∧ c.efm.vectorQueue = []) ∧
      (c.tickModules (fun _ => ⟨clusterAddrStart, 32, 1⟩) w).1.efm.metadataQueue = [] := by
  obtain ⟨c, w, h, hreq⟩ := exists_requested (fun _ => ⟨clusterAddrStart, 32, 1⟩) [[0], [1]] 1 (List.cons_ne_nil 3 [5])
  have hstep := fetch_in_step h
  refine ⟨c, w, h, hreq.first, hreq.waiting, ⟨hstep.2.2.1, hstep.2.1⟩, ?_⟩
  exact hstep.2.2.2.2.2.1 (hreq.ready (reach_fetchSound h))

/-- Whenever the SCM is given a slice, the request of the slice is completely fetched. -/
def FetchedWhenScanned (clusterList : List Nat) (querySetList : List (List Nat)) (batchSize : Int32) : Prop :=
  ∀ (μ : Type) [MemoryPort μ] (clusterAddr : Nat → Cluster) (c : ANNACore) (w : World μ),
    Reach clusterAddr clusterList querySetList batchSize c w → ∀ k, Scans clusterAddr c w k →
      (c.tickModules clusterAddr w).1.efm.Fetched c.efmFetchingRequestNum

theorem not_fetchedWhenScanned (hne : clusterList ≠ []) :
    ¬ FetchedWhenScanned clusterList querySetList batchSize := by
  intro hall
  obtain ⟨c, w, h, hreq⟩ := exists_requested (fun _ => ⟨0, 0, 0⟩) querySetList batchSize hne
  have hs := reach_fetchSound h
  exact hreq.not_fetched hs (hall _ _ c w h 0 (hreq.scans hs))

/-- Only a core without work never starts the SCM on a cluster that it does not have. -/
theorem fetchedWhenScanned_iff (clusterList : List Nat) (querySetList : List (List Nat)) (batchSize : Int32) :
    FetchedWhenScanned clusterList querySetList batchSize ↔ clusterList = [] := by
  constructor
  · intro hall
    by_contra hne
    exact not_fetchedWhenScanned hne hall
  · intro hnil μ _ clusterAddr c w h k hk
    subst hnil
    obtain ⟨-, -, -, -, hefm, hscm⟩ := reach_empty h
    have hidle : (c.tickModules clusterAddr w).1.scmProcessingIndex = none := hscm
    unfold Scans at hk
    rw [save_none hidle] at hk
    exact absurd (hk.1.symm.trans hefm) (Option.some_ne_none k)

theorem scanned_before_fetched : ¬ FetchedWhenScanned [0] [[0]] 1 := not_fetchedWhenScanned (List.cons_ne_nil _ _)

end

end ANNACore

end Anna
