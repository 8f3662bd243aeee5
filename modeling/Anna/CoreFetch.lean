import Anna.CoreSound
import Anna.VectorFetchSound

/-!
# Fetching inside a core

A core submits one cluster at a time, and only after the slice before it has
gone on to the SCM. The fetch module on its own would let the metadata side
run ahead of the vector side for good; with this client the two stay in step
(`Paced`).
-/

namespace Anna

namespace EncodedVectorFetchModule

/-- How far the vector side is. No request has been made; or one waits for its
metadata, and the one before waits for it; or the last request's metadata are
asked for, and the vectors of the one before are being read or back. -/
inductive Phase (e : EncodedVectorFetchModule) : Prop
  | unused : e.metadataQueue = [] → e.clusterQueue = [] → e.submitedRequestNum = 0 → e.fetchedRequestNum = 0 →
      e.vectorReader.finished = true → Phase e
  | first : e.metadataQueue ≠ [] → e.clusterQueue = [] → e.submitedRequestNum = 1 → e.fetchedRequestNum = 0 →
      e.vectorReader.finished = true → Phase e
  | waiting : e.metadataQueue ≠ [] → e.clusterQueue ≠ [] → e.fetchedRequestNum + 2 = e.submitedRequestNum →
      e.vectorReader.finished = true → Phase e
  | asked : e.metadataQueue = [] → e.clusterQueue ≠ [] →
      e.fetchedRequestNum + 1 + (if e.vectorReader.finished then 0 else 1) = e.submitedRequestNum → Phase e

structure Paced (e : EncodedVectorFetchModule) : Prop where
  metadataOne : e.metadataQueue.length ≤ 1
  clusterOne : e.clusterQueue.length ≤ 1
  vectorNone : e.vectorQueue = []
  phase : e.Phase

theorem paced_new (metadataId vectorId : Nat) : Paced (new metadataId vectorId) :=
  ⟨Nat.zero_le _, Nat.zero_le _, rfl, .unused rfl rfl rfl rfl rfl⟩

section
variable {μ : Type} [MemoryPort μ] {e : EncodedVectorFetchModule} {m : μ}

theorem Paced.submitRequest (h : e.Paced) (hr : e.isReadySubmit = true) (x : Nat)
    (hs : e.submitedRequestNum = 0 ∨ e.fetchedRequestNum + 1 = e.submitedRequestNum) :
    (e.submitRequest [x]).2.Paced := by
  have hq : e.metadataQueue = [] := List.isEmpty_iff.mp hr
  have hq' : (e.submitRequest [x]).2.metadataQueue = [x] := by simp [EncodedVectorFetchModule.submitRequest, hq]
  refine ⟨by rw [hq']; exact Nat.le_refl 1, h.clusterOne, h.vectorNone, ?_⟩
  cases h.phase with
  | unused _ hc hsub hf hv =>
    have hone : e.submitedRequestNum + 1 = 1 := by rw [hsub]
    exact .first (by rw [hq']; simp) hc hone hf hv
  | first hne _ _ _ _ => exact absurd hq hne
  | waiting hne _ _ _ => exact absurd hq hne
  | asked _ hc hsub =>
    -- the vectors of the request before are back
    have hv : e.vectorReader.finished = true := by
      by_contra hv
      rw [if_neg hv] at hsub
      omega
    rw [if_pos hv] at hsub
    exact .waiting (by rw [hq']; simp) hc (by show e.fetchedRequestNum + 2 = e.submitedRequestNum + 1; omega) hv

theorem Paced.countMetadata (h : e.Paced) : (e.tickReaders m).1.countMetadata.Paced := by
  refine ⟨h.metadataOne, h.clusterOne, h.vectorNone, ?_⟩
  cases h.phase with
  | unused h1 h2 h3 h4 h5 => exact .unused h1 h2 h3 h4 h5
  | first h1 h2 h3 h4 h5 => exact .first h1 h2 h3 h4 h5
  | waiting h1 h2 h3 h4 => exact .waiting h1 h2 h3 h4
  | asked h1 h2 h3 => exact .asked h1 h2 h3

theorem readVectors_nil (clusterAddr : Nat → Cluster) (h : e.vectorQueue = []) : e.readVectors clusterAddr = e := by
  unfold readVectors
  split
  · rw [h]
    simp only [List.foldl_nil, List.append_nil]
    rw [← h]
  · rfl

theorem countVectors_finished (h : e.vectorReader.finished = true) : e.countVectors = e := by
  simp [countVectors, MemoryReader.finishAndReset, h]

theorem Paced.countVectors (h : e.Paced) : e.countVectors.Paced := by
  refine ⟨h.metadataOne, h.clusterOne, h.vectorNone, ?_⟩
  cases h.phase with
  | unused h1 h2 h3 h4 h5 => rw [countVectors_finished h5]; exact .unused h1 h2 h3 h4 h5
  | first h1 h2 h3 h4 h5 => rw [countVectors_finished h5]; exact .first h1 h2 h3 h4 h5
  | waiting h1 h2 h3 h4 => rw [countVectors_finished h4]; exact .waiting h1 h2 h3 h4
  | asked h1 h2 h3 =>
    refine .asked h1 h2 ?_
    cases hv : e.vectorReader.finished with
    | true =>
      rw [countVectors_finished hv]
      exact h3
    | false =>
      rw [hv] at h3
      cases hz : e.vectorReader.processingNum == 0 with
      | true =>
        simp only [EncodedVectorFetchModule.countVectors, MemoryReader.finishAndReset, hv, hz, Bool.not_false,
          Bool.and_self, if_true]
        simpa using h3
      | false =>
        simp only [EncodedVectorFetchModule.countVectors, MemoryReader.finishAndReset, hv, hz, Bool.false_and,
          Bool.false_eq_true, if_false]
        simpa using h3

/-- When the metadata of a request are asked for, so are the vectors of the one before it. -/
theorem Paced.read (clusterAddr : Nat → Cluster) (h : e.Paced) (hh : e.Held) (hr : e.Readers m)
    (hf : e.metadataReader.finished = e.metadataReader.isReady) :
    (e.readMetadata.countVectors.readVectors clusterAddr).Paced := by
  cases hg : e.metadataGate with
  | false =>
    have he : e.readMetadata = e := by
      unfold EncodedVectorFetchModule.readMetadata
      rw [hg]
      rfl
    rw [he, readVectors_nil clusterAddr h.countVectors.vectorNone]
    exact h.countVectors
  | true =>
    have hgate := hg
    rw [hh.metadataGate_eq hf, Bool.and_eq_true, Bool.not_eq_true', List.isEmpty_eq_false_iff] at hgate
    obtain ⟨hready, hq⟩ := hgate
    have hlag := hh.lag
    simp only [metadataLag, hq, if_false, hf, hready, if_true, Nat.add_zero] at hlag
    have hvq : e.readMetadata.vectorQueue = e.clusterQueue := by
      simp [EncodedVectorFetchModule.readMetadata, hg, h.vectorNone]
    have hcq : e.readMetadata.clusterQueue = e.metadataQueue := by
      simp [EncodedVectorFetchModule.readMetadata, hg]
    have hmq : e.readMetadata.metadataQueue = [] := by simp [EncodedVectorFetchModule.readMetadata, hg]
    have hsame : e.readMetadata.vectorReader = e.vectorReader ∧
        e.readMetadata.fetchedRequestNum = e.fetchedRequestNum ∧
        e.readMetadata.fetchingRequestNum = e.fetchingRequestNum ∧
        e.readMetadata.submitedRequestNum = e.submitedRequestNum := by
      simp [EncodedVectorFetchModule.readMetadata, hg]
    obtain ⟨hv, hfd, hfg, hsub⟩ := hsame
    cases h.phase with
    | unused h1 _ _ _ _ => exact absurd h1 hq
    | asked h1 _ _ => exact absurd h1 hq
    | first _ hc h3 h4 h5 =>
      rw [countVectors_finished (hv ▸ h5), readVectors_nil clusterAddr (hvq.trans hc)]
      refine ⟨by rw [hmq]; exact Nat.zero_le _, by rw [hcq]; exact h.metadataOne, hvq.trans hc, ?_⟩
      refine .asked hmq (by rw [hcq]; exact hq) ?_
      rw [hv, hfd, hsub, h5, h3, h4]
      rfl
    | waiting _ hc h3 h4 =>
      rw [countVectors_finished (hv ▸ h4)]
      have hvr : e.vectorReader.isReady = true := by
        have := hr.vector.settled h4
        simp [MemoryReader.isReady, this]
      have hvg : e.readMetadata.vectorGate = true := by
        have : e.fetchedRequestNum = wsub e.fetchingRequestNum 1 := by
          rw [wsub_of_le (by omega)]
          omega
        simp [vectorGate, hv, hfd, hfg, hvr, ← this]
      have hread : e.readMetadata.readVectors clusterAddr =
          { e.readMetadata with
            vectorReader := e.readMetadata.vectorQueue.foldl
              (fun r v => r.submitReadRequest (clusterAddr v).startAddr (clusterAddr v).bytes) e.readMetadata.vectorReader
            vectorQueue := []
            history := { e.readMetadata.history with
              vectorReads := e.readMetadata.history.vectorReads ++ e.readMetadata.vectorQueue } } := by
        simp [EncodedVectorFetchModule.readVectors, hvg]
      rw [hread]
      refine ⟨by rw [hmq]; exact Nat.zero_le _, by rw [hcq]; exact h.metadataOne, rfl, ?_⟩
      refine .asked hmq (by rw [hcq]; exact hq) ?_
      show e.readMetadata.fetchedRequestNum + 1 + (if MemoryReader.finished _ then 0 else 1) =
        e.readMetadata.submitedRequestNum
      rw [MemoryReader.submitAll_finished (fun v => ((clusterAddr v).startAddr, (clusterAddr v).bytes))
        (by rw [hvq]; exact hc), hfd, hsub]
      exact h3

theorem Paced.clockTick (clusterAddr : Nat → Cluster) {w : World μ} (h : e.Paced) (hh : e.Held)
    (hr : e.Readers w.memory) : (e.clockTick clusterAddr w).1.Paced :=
  (h.countMetadata (m := w.memory)).read clusterAddr (hh.tickReaders (m := w.memory)).countMetadata
    hr.tickReaders.countMetadata (finished_countMetadata hr.tickReaders)

theorem Paced.settled (h : e.Paced) (hs : e.submitedRequestNum = 0 ∨ e.fetchedRequestNum + 1 = e.submitedRequestNum) :
    e.vectorReader.finished = true := by
  cases h.phase with
  | unused _ _ _ _ h5 => exact h5
  | first _ _ _ _ h5 => exact h5
  | waiting _ _ _ h4 => exact h4
  | asked _ _ h3 =>
    by_contra hv
    rw [if_neg hv] at h3
    omega

theorem clockTick_nums (clusterAddr : Nat → Cluster) (e : EncodedVectorFetchModule) (w : World μ) :
    (e.clockTick clusterAddr w).1.submitedRequestNum = e.submitedRequestNum ∧
      (e.clockTick clusterAddr w).1.history.submitted = e.history.submitted ∧
      (e.vectorReader.finished = true → (e.clockTick clusterAddr w).1.fetchedRequestNum = e.fetchedRequestNum) := by
  have hread : ∀ e : EncodedVectorFetchModule, (e.readVectors clusterAddr).submitedRequestNum = e.submitedRequestNum ∧
      (e.readVectors clusterAddr).history.submitted = e.history.submitted ∧
      (e.readVectors clusterAddr).fetchedRequestNum = e.fetchedRequestNum := by
    intro e
    unfold EncodedVectorFetchModule.readVectors
    split <;> exact ⟨rfl, rfl, rfl⟩
  have hmeta : ∀ e : EncodedVectorFetchModule, e.readMetadata.submitedRequestNum = e.submitedRequestNum ∧
      e.readMetadata.history.submitted = e.history.submitted ∧
      e.readMetadata.fetchedRequestNum = e.fetchedRequestNum ∧ e.readMetadata.vectorReader = e.vectorReader := by
    intro e
    unfold EncodedVectorFetchModule.readMetadata
    split <;> exact ⟨rfl, rfl, rfl, rfl⟩
  obtain ⟨h1, h2, h3⟩ := hread (e.tickReaders w.memory).1.countMetadata.readMetadata.countVectors
  obtain ⟨k1, k2, k3, k4⟩ := hmeta (e.tickReaders w.memory).1.countMetadata
  refine ⟨h1.trans k1, h2.trans k2, ?_⟩
  intro hv
  refine h3.trans ?_
  rw [countVectors_finished (k4 ▸ hv)]
  exact k3

theorem clockTick_ids (clusterAddr : Nat → Cluster) (e : EncodedVectorFetchModule) (w : World μ) :
    (e.clockTick clusterAddr w).1.metadataReader.id = e.metadataReader.id ∧
      (e.clockTick clusterAddr w).1.vectorReader.id = e.vectorReader.id := by
  have hread : ∀ e : EncodedVectorFetchModule,
      (e.readVectors clusterAddr).metadataReader.id = e.metadataReader.id ∧
        (e.readVectors clusterAddr).vectorReader.id = e.vectorReader.id := by
    intro e
    unfold EncodedVectorFetchModule.readVectors
    split
    · exact ⟨rfl, MemoryReader.submitAll_id (fun v => ((clusterAddr v).startAddr, (clusterAddr v).bytes)) _ _⟩
    · exact ⟨rfl, rfl⟩
  have hmeta : ∀ e : EncodedVectorFetchModule, e.readMetadata.metadataReader.id = e.metadataReader.id ∧
      e.readMetadata.vectorReader.id = e.vectorReader.id := by
    intro e
    unfold EncodedVectorFetchModule.readMetadata
    split
    · exact ⟨MemoryReader.submitAll_id metadataAddr _ _, rfl⟩
    · exact ⟨rfl, rfl⟩
  obtain ⟨h1, h2⟩ := hread (e.tickReaders w.memory).1.countMetadata.readMetadata.countVectors
  obtain ⟨k1, k2⟩ := hmeta (e.tickReaders w.memory).1.countMetadata
  constructor
  · exact h1.trans (k1.trans (MemoryReader.finishAndReset_id _))
  · exact h2.trans ((MemoryReader.finishAndReset_id _).trans k2)

theorem metadataQueue_clockTick (clusterAddr : Nat → Cluster) {w : World μ} (hh : e.Held) (hr : e.Readers w.memory)
    (hready : (e.metadataReader.clockTick w.memory).1.isReady = true) :
    (e.clockTick clusterAddr w).1.metadataQueue = [] := by
  have hread : ∀ e : EncodedVectorFetchModule, (e.readVectors clusterAddr).metadataQueue = e.metadataQueue := by
    intro e
    unfold EncodedVectorFetchModule.readVectors
    split <;> rfl
  refine (hread _).trans ?_
  show (e.tickReaders w.memory).1.countMetadata.readMetadata.metadataQueue = []
  have hgate := (hh.tickReaders (m := w.memory)).countMetadata.metadataGate_eq (finished_countMetadata hr.tickReaders)
  have hready' : (e.tickReaders w.memory).1.countMetadata.metadataReader.isReady = true :=
    (MemoryReader.finishAndReset_isReady _).trans hready
  rw [hready', Bool.true_and] at hgate
  unfold EncodedVectorFetchModule.readMetadata
  rw [hgate]
  cases hq : (e.tickReaders w.memory).1.countMetadata.metadataQueue with
  | nil => exact hq
  | cons x q => rfl

end

end EncodedVectorFetchModule

/-! ## The core as a client -/

theorem ClusterCodebookProcessingModule.clockTick_memory {μ : Type} [MemoryPort μ]
    (c : ClusterCodebookProcessingModule) (w : World μ) :
    (c.clockTick w).2.memory = (c.memoryReader.clockTick w.memory).2 := by
  unfold ClusterCodebookProcessingModule.clockTick
  dsimp only
  split
  · rfl
  · split
    · split
      · rfl
      · split <;> rfl
    · rfl

theorem ClusterCodebookProcessingModule.clockTick_id {μ : Type} [MemoryPort μ]
    (c : ClusterCodebookProcessingModule) (w : World μ) :
    (c.clockTick w).1.memoryReader.id = c.memoryReader.id := by
  have hread : ∀ (as : List UInt64) (r : MemoryReader),
      (as.foldl (fun r addr => r.submitReadRequest addr (UInt64.ofNat vectorSize)) r).id = r.id := by
    intro as
    induction as with
    | nil => intro r; rfl
    | cons a as ih => intro r; exact ih _
  unfold ClusterCodebookProcessingModule.clockTick
  dsimp only
  split
  · rfl
  · split
    · split
      · exact MemoryReader.finishAndReset_id _
      · split
        · exact (hread _ _).trans (MemoryReader.finishAndReset_id _)
        · exact MemoryReader.finishAndReset_id _
    · exact MemoryReader.finishAndReset_id _

namespace ANNACore

open EncodedVectorFetchModule

/-- The request of the slice in the EFM is the last one, and a slice leaves the
EFM only when the request before the last is counted as fetched. -/
structure Gated (c : ANNACore) : Prop where
  pre : c.preEfmProcessingIndex = none ↔ c.efm.submitedRequestNum = 0
  number : c.efm.submitedRequestNum ≠ 0 → c.efmFetchingRequestNum + 1 = c.efm.submitedRequestNum
  busy : c.efmProcessingIndex ≠ none → c.efm.submitedRequestNum ≠ 0
  idle : c.efmProcessingIndex = none →
    c.efm.submitedRequestNum = 0 ∨ c.efm.fetchedRequestNum + 1 = c.efm.submitedRequestNum

structure FetchSound {μ : Type} [MemoryPort μ] (c : ANNACore) (m : μ) : Prop where
  ids : c.readerIds.Nodup
  readers : c.efm.Readers m
  held : c.efm.Held
  paced : c.efm.Paced
  gated : c.Gated

section
variable {μ : Type} [MemoryPort μ] {clusterAddr : Nat → Cluster} {c : ANNACore} {p q : ANNACore × TestValue}

theorem tickModules_readerIds (c : ANNACore) (w : World μ) :
    (c.tickModules clusterAddr w).1.readerIds = c.readerIds := by
  obtain ⟨hm, hv⟩ := clockTick_ids clusterAddr c.efm (c.cpm.clockTick w).2
  show [(c.cpm.clockTick w).1.memoryReader.id, _, _] = [c.cpm.memoryReader.id, _, _]
  rw [ClusterCodebookProcessingModule.clockTick_id]
  exact congrArg (c.cpm.memoryReader.id :: ·) (by rw [← hm, ← hv]; rfl)

theorem FetchSound.readers_after_cpm {w : World μ} (h : c.FetchSound w.memory) :
    c.efm.Readers (c.cpm.clockTick w).2.memory := by
  have hids := h.ids
  simp only [readerIds, List.nodup_cons, List.mem_cons, List.not_mem_nil, or_false, not_or] at hids
  obtain ⟨⟨hm, hv⟩, -⟩ := hids
  rw [ClusterCodebookProcessingModule.clockTick_memory]
  exact ⟨h.readers.ids, h.readers.metadata.frame (MemoryReader.clockTick_inflight_other _ _ hm),
    h.readers.vector.frame (MemoryReader.clockTick_inflight_other _ _ hv)⟩

theorem FetchSound.tickModules (clusterAddr : Nat → Cluster) {w : World μ} (h : c.FetchSound w.memory) :
    (c.tickModules clusterAddr w).1.FetchSound (c.tickModules clusterAddr w).2.memory := by
  have hr := h.readers_after_cpm
  have hr' := hr.clockTick clusterAddr
  obtain ⟨hsub, -, hfd⟩ := clockTick_nums clusterAddr c.efm (c.cpm.clockTick w).2
  refine ⟨?_, hr', h.held.clockTick clusterAddr hr, h.paced.clockTick clusterAddr h.held hr, ?_⟩
  · rw [tickModules_readerIds]
    exact h.ids
  · refine ⟨?_, ?_, ?_, ?_⟩
    · show c.preEfmProcessingIndex = none ↔ (c.efm.clockTick clusterAddr (c.cpm.clockTick w).2).1.submitedRequestNum = 0
      rw [hsub]
      exact h.gated.pre
    · show (c.efm.clockTick clusterAddr (c.cpm.clockTick w).2).1.submitedRequestNum ≠ 0 →
        c.efmFetchingRequestNum + 1 = (c.efm.clockTick clusterAddr (c.cpm.clockTick w).2).1.submitedRequestNum
      rw [hsub]
      exact h.gated.number
    · show c.efmProcessingIndex ≠ none →
        (c.efm.clockTick clusterAddr (c.cpm.clockTick w).2).1.submitedRequestNum ≠ 0
      rw [hsub]
      exact h.gated.busy
    · intro hidle
      have hs := h.gated.idle hidle
      show (c.efm.clockTick clusterAddr (c.cpm.clockTick w).2).1.submitedRequestNum = 0 ∨
        (c.efm.clockTick clusterAddr (c.cpm.clockTick w).2).1.fetchedRequestNum + 1 =
          (c.efm.clockTick clusterAddr (c.cpm.clockTick w).2).1.submitedRequestNum
      rw [hsub, hfd (h.paced.settled hs)]
      exact hs

theorem Gated.requestCluster {k : Nat} (h : c.Gated) (hp : c.efm.Paced) (hh : c.efm.Held)
    (hidle : c.efmProcessingIndex = none) (hr : c.efm.isReadySubmit = true) :
    (c.requestCluster k).efm.Paced ∧ (c.requestCluster k).efm.Held ∧ (c.requestCluster k).efm.submitedRequestNum ≠ 0 ∧
      (c.requestCluster k).efmFetchingRequestNum + 1 = (c.requestCluster k).efm.submitedRequestNum := by
  unfold ANNACore.requestCluster
  split
  · rename_i hpre
    have hne : c.efm.submitedRequestNum ≠ 0 := by
      intro h0
      rw [h.pre.mpr h0] at hpre
      cases hpre
    exact ⟨hp, hh, hne, h.number hne⟩
  · refine ⟨hp.submitRequest hr _ (h.idle hidle), hh.submitRequest (List.cons_ne_nil _ _) hr, Nat.succ_ne_zero _, ?_⟩
    show wsub (c.efm.submitedRequestNum + 1) 1 + 1 = c.efm.submitedRequestNum + 1
    rw [wsub_of_le (Nat.succ_le_succ (Nat.zero_le _))]
    rfl

theorem FetchSound.part {m : μ} (h : p.1.FetchSound m) (hp : Part clusterAddr p q) : q.1.FetchSound m := by
  cases hp with
  | save k _ _ =>
    exact ⟨h.ids, h.readers, h.held, h.paced, ⟨h.gated.pre, h.gated.number, h.gated.busy, h.gated.idle⟩⟩
  | scan k hk _ hfd =>
    have hne : _ := h.gated.busy (by rw [hk]; exact Option.some_ne_none k)
    refine ⟨h.ids, h.readers, h.held, h.paced, ⟨h.gated.pre, h.gated.number, fun hb => absurd rfl hb, fun _ => ?_⟩⟩
    refine Or.inr ?_
    have := h.gated.number hne
    rw [← hfd] at this
    exact this
  | @fetch c t k hk hidle _ hr =>
    obtain ⟨hpaced, hheld, hne, hnum⟩ := h.gated.requestCluster (k := k) h.paced h.held hidle hr
    have hreaders : (c.requestCluster k).efm.metadataReader = c.efm.metadataReader ∧
        (c.requestCluster k).efm.vectorReader = c.efm.vectorReader ∧ (c.requestCluster k).cpm = c.cpm := by
      unfold ANNACore.requestCluster
      split <;> exact ⟨rfl, rfl, rfl⟩
    obtain ⟨h1, h2, h3⟩ := hreaders
    refine ⟨?_, ⟨?_, ?_, ?_⟩, hheld, hpaced, ⟨?_, fun _ => hnum, fun _ => hne, fun hn => ?_⟩⟩
    · show [(c.requestCluster k).cpm.memoryReader.id, (c.requestCluster k).efm.metadataReader.id,
        (c.requestCluster k).efm.vectorReader.id].Nodup
      rw [h1, h2, h3]
      exact h.ids
    · show (c.requestCluster k).efm.metadataReader.id ≠ (c.requestCluster k).efm.vectorReader.id
      rw [h1, h2]
      exact h.readers.ids
    · show (c.requestCluster k).efm.metadataReader.Sound m
      rw [h1]
      exact h.readers.metadata
    · show (c.requestCluster k).efm.vectorReader.Sound m
      rw [h2]
      exact h.readers.vector
    · constructor
      · intro hn
        cases hn
      · intro h0
        exact absurd h0 hne
    · cases hn
  | hand _ _ _ =>
    exact ⟨h.ids, h.readers, h.held, h.paced, ⟨h.gated.pre, h.gated.number, h.gated.busy, h.gated.idle⟩⟩

theorem FetchSound.parts {m : μ} (h : p.1.FetchSound m) (hp : Parts clusterAddr p q) : q.1.FetchSound m :=
  parts_invariant (I := fun c => c.FetchSound m) hp (fun hp h => h.part hp) h

variable {clusterList : List Nat} {querySetList : List (List Nat)} {batchSize : Int32} {w : World μ}

theorem reach_fetchSound (h : Reach clusterAddr clusterList querySetList batchSize c w) : c.FetchSound w.memory := by
  induction h with
  | setup e s w hids hz =>
    refine ⟨hids, ⟨?_, MemoryReader.sound_new (hz _ (by simp)), MemoryReader.sound_new (hz _ (by simp))⟩,
      held_new _ _, paced_new _ _, ⟨⟨fun _ => rfl, fun _ => rfl⟩, ?_, ?_, fun _ => Or.inl rfl⟩⟩
    · simp only [List.nodup_cons, List.mem_cons, List.not_mem_nil, or_false] at hids
      exact hids.2.1
    · intro hne
      exact absurd rfl hne
    · intro hne
      exact absurd rfl hne
  | clockTick _ ih => exact (ih.tickModules _).parts (clockTick_parts _ _ _)
  | environment w' _ hw ih =>
    refine ⟨ih.ids, ⟨ih.readers.ids, ?_, ?_⟩, ih.held, ih.paced, ih.gated⟩
    · exact ih.readers.metadata.frame (hw _ (by simp [readerIds]))
    · exact ih.readers.vector.frame (hw _ (by simp [readerIds]))

/-- In every run of a core the two sides of the EFM stay in step: the counters
are at most two apart, nothing waits for the vector side, a waiting request is
taken as soon as the metadata reader is ready, and the vectors are read in the
order of submission. -/
theorem fetch_in_step (h : Reach clusterAddr clusterList querySetList batchSize c w) :
    (c.efm.fetchedRequestNum ≤ c.efm.fetchingRequestNum ∧ c.efm.fetchingRequestNum ≤ c.efm.submitedRequestNum ∧
        c.efm.submitedRequestNum ≤ c.efm.fetchedRequestNum + 2) ∧
      c.efm.vectorQueue = [] ∧ c.efm.metadataQueue.length ≤ 1 ∧ c.efm.clusterQueue.length ≤ 1 ∧
      c.efm.assertFailed = false ∧
      ((c.efm.metadataReader.clockTick (c.cpm.clockTick w).2.memory).1.isReady = true →
        (c.tickModules clusterAddr w).1.efm.metadataQueue = []) ∧
      c.efm.history.vectorReads <+: c.efm.history.submitted.flatten := by
  have hs := reach_fetchSound h
  have hlag := hs.held.lag
  refine ⟨?_, hs.paced.vectorNone, hs.paced.metadataOne, hs.paced.clusterOne, hs.held.asserted, ?_, ?_⟩
  · unfold metadataLag at hlag
    cases hs.paced.phase with
    | unused h1 _ h3 h4 _ => rw [if_pos h1] at hlag; omega
    | first h1 _ h3 h4 _ => rw [if_neg h1] at hlag; omega
    | waiting h1 _ h3 _ => rw [if_neg h1] at hlag; split at hlag <;> omega
    | asked h1 _ h3 => rw [if_pos h1] at hlag; split at hlag <;> split at h3 <;> omega
  · intro hready
    exact metadataQueue_clockTick clusterAddr hs.held (hs.readers_after_cpm) hready
  · exact ⟨_, hs.held.flatten_eq.symm⟩

end

end ANNACore

end Anna
