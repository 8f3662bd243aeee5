import Anna.VectorFetch
import Anna.MemoryReaderSound

/-!
# What the fetch module keeps

A client submits non-empty requests, only while `IsReadySubmit` holds, and the
memory answers at any time. The metadata side is then never more than one
request behind (`metadataLag`), every submitted cluster stands in one of the
queues until its vectors are requested, and `cluster_queue` is emptied only by
the metadata of a later request. So a module that has come to rest still holds
the clusters of the last request.
-/

namespace Anna

def World.memoryTick {δ : Type} [MemorySystem δ] (w : World (MultiMemoryInterface δ)) :
    World (MultiMemoryInterface δ) := { w with memory := w.memory.clockTick }

namespace EncodedVectorFetchModule

variable {μ : Type} [MemoryPort μ]

inductive Reach (clusterAddr : Nat → Cluster) : EncodedVectorFetchModule → World μ → Prop
  | new {metadataId vectorId : Nat} (w : World μ) : metadataId ≠ vectorId →
      MemoryPort.inflight w.memory metadataId = 0 → MemoryPort.inflight w.memory vectorId = 0 →
      Reach clusterAddr (new metadataId vectorId) w
  | submitRequest {e : EncodedVectorFetchModule} {w : World μ} (clusters : List Nat) : Reach clusterAddr e w →
      clusters ≠ [] → e.isReadySubmit = true → Reach clusterAddr (e.submitRequest clusters).2 w
  | clockTick {e : EncodedVectorFetchModule} {w : World μ} : Reach clusterAddr e w →
      Reach clusterAddr (e.clockTick clusterAddr w).1 (e.clockTick clusterAddr w).2
  | environment {e : EncodedVectorFetchModule} {w : World μ} (w' : World μ) : Reach clusterAddr e w →
      MemoryPort.inflight w'.memory e.metadataReader.id = MemoryPort.inflight w.memory e.metadataReader.id →
      MemoryPort.inflight w'.memory e.vectorReader.id = MemoryPort.inflight w.memory e.vectorReader.id →
      Reach clusterAddr e w'

theorem Reach.memoryTick {δ : Type} [MemorySystem δ] {clusterAddr : Nat → Cluster} {e : EncodedVectorFetchModule}
    {w : World (MultiMemoryInterface δ)} (h : Reach clusterAddr e w) : Reach clusterAddr e w.memoryTick :=
  .environment _ h (MultiMemoryInterface.clockTick_counts w.memory _).1
    (MultiMemoryInterface.clockTick_counts w.memory _).1

/-! ## The readers -/

structure Readers (e : EncodedVectorFetchModule) (m : μ) : Prop where
  ids : e.metadataReader.id ≠ e.vectorReader.id
  metadata : e.metadataReader.Sound m
  vector : e.vectorReader.Sound m

section
variable {e : EncodedVectorFetchModule} {m : μ}

theorem Readers.tickReaders (h : e.Readers m) : (e.tickReaders m).1.Readers (e.tickReaders m).2 := by
  have hm := h.metadata.clockTick
  have hv : e.vectorReader.Sound (e.metadataReader.clockTick m).2 :=
    h.vector.frame (MemoryReader.clockTick_inflight_other _ _ h.ids)
  refine ⟨h.ids, ?_, hv.clockTick⟩
  apply hm.frame
  exact MemoryReader.clockTick_inflight_other _ _ (Ne.symm h.ids)

theorem Readers.countMetadata (h : e.Readers m) : e.countMetadata.Readers m := by
  refine ⟨?_, h.metadata.finishAndReset, h.vector⟩
  show e.metadataReader.finishAndReset.2.id ≠ e.vectorReader.id
  rw [MemoryReader.finishAndReset_id]
  exact h.ids

theorem Readers.readMetadata (h : e.Readers m) : e.readMetadata.Readers m := by
  unfold EncodedVectorFetchModule.readMetadata
  split
  · refine ⟨?_, h.metadata.submitAll metadataAddr e.metadataQueue, h.vector⟩
    show (e.metadataQueue.foldl _ e.metadataReader).id ≠ _
    rw [MemoryReader.submitAll_id metadataAddr]
    exact h.ids
  · exact h

theorem Readers.countVectors (h : e.Readers m) : e.countVectors.Readers m := by
  refine ⟨?_, h.metadata, h.vector.finishAndReset⟩
  show e.metadataReader.id ≠ e.vectorReader.finishAndReset.2.id
  rw [MemoryReader.finishAndReset_id]
  exact h.ids

theorem Readers.readVectors (clusterAddr : Nat → Cluster) (h : e.Readers m) :
    (e.readVectors clusterAddr).Readers m := by
  unfold EncodedVectorFetchModule.readVectors
  split
  · refine ⟨?_, h.metadata, h.vector.submitAll (fun v => ((clusterAddr v).startAddr, (clusterAddr v).bytes)) _⟩
    show e.metadataReader.id ≠ (e.vectorQueue.foldl _ e.vectorReader).id
    rw [MemoryReader.submitAll_id fun v => ((clusterAddr v).startAddr, (clusterAddr v).bytes)]
    exact h.ids
  · exact h

theorem Readers.clockTick (clusterAddr : Nat → Cluster) {w : World μ} (h : e.Readers w.memory) :
    (e.clockTick clusterAddr w).1.Readers (e.clockTick clusterAddr w).2.memory :=
  (h.tickReaders.countMetadata.readMetadata.countVectors).readVectors clusterAddr

end

/-! ## The metadata side -/

/-- The requests whose metadata are not back: one in the queue, one being read. -/
def metadataLag (e : EncodedVectorFetchModule) : Nat :=
  (if e.metadataQueue = [] then 0 else 1) + if e.metadataReader.finished then 0 else 1

/-- Where the clusters of the requests are. -/
structure Held (e : EncodedVectorFetchModule) : Prop where
  number : e.history.submitted.length = e.submitedRequestNum
  lag : e.fetchingRequestNum + e.metadataLag = e.submitedRequestNum
  metadata : e.history.submitted.flatten = e.history.metadataReads ++ e.metadataQueue
  vectors : e.history.metadataReads = e.history.vectorReads ++ e.vectorQueue ++ e.clusterQueue
  waiting : e.history.submitted ≠ [] → e.clusterQueue ++ e.metadataQueue ≠ []
  unused : e.history.submitted = [] → e.fetchedRequestNum = 0 ∧ e.vectorReader.finished = true
  asserted : e.assertFailed = false

theorem held_new (metadataId vectorId : Nat) : Held (new metadataId vectorId) :=
  ⟨rfl, rfl, rfl, rfl, fun h => absurd rfl h, fun _ => ⟨rfl, rfl⟩, rfl⟩

section
variable {e : EncodedVectorFetchModule}

theorem Held.submitRequest (h : e.Held) {clusters : List Nat} (hne : clusters ≠ []) (hr : e.isReadySubmit = true) :
    (e.submitRequest clusters).2.Held := by
  have hq : e.metadataQueue = [] := List.isEmpty_iff.mp hr
  have hlag := h.lag
  simp only [metadataLag, hq, if_true] at hlag
  refine ⟨?_, ?_, ?_, h.vectors, ?_, ?_, ?_⟩
  · show (e.history.submitted ++ [clusters]).length = e.submitedRequestNum + 1
    rw [List.length_append, h.number]
    rfl
  · simp only [EncodedVectorFetchModule.submitRequest, metadataLag, hq, List.nil_append, hne, if_false]
    omega
  · show (e.history.submitted ++ [clusters]).flatten = e.history.metadataReads ++ (e.metadataQueue ++ clusters)
    rw [List.flatten_append, h.metadata, List.append_assoc]
    simp
  · intro _
    show e.clusterQueue ++ (e.metadataQueue ++ clusters) ≠ []
    simp [hne]
  · intro hnil
    exact absurd hnil (by simp [EncodedVectorFetchModule.submitRequest])
  · show (e.assertFailed || !e.metadataQueue.isEmpty) = false
    rw [h.asserted, hq]
    rfl

theorem Held.tickReaders {m : μ} (h : e.Held) : (e.tickReaders m).1.Held :=
  ⟨h.number, h.lag, h.metadata, h.vectors, h.waiting, h.unused, h.asserted⟩

theorem Held.countMetadata (h : e.Held) : e.countMetadata.Held := by
  refine ⟨h.number, ?_, h.metadata, h.vectors, h.waiting, h.unused, h.asserted⟩
  have hlag := h.lag
  unfold metadataLag EncodedVectorFetchModule.countMetadata MemoryReader.finishAndReset at *
  cases hf : e.metadataReader.finished with
  | true => simpa [hf] using hlag
  | false =>
    simp only [hf, Bool.not_false, Bool.and_true] at hlag ⊢
    cases hz : e.metadataReader.processingNum == 0 with
    | true => simp only [Bool.false_eq_true, if_true, if_false] at hlag ⊢; omega
    | false => simpa [hf] using hlag

/-- Between `FinishAndReset` and the reads of a tick the gate is open when the
reader is ready and a request waits. -/
theorem Held.metadataGate_eq (h : e.Held) (hf : e.metadataReader.finished = e.metadataReader.isReady) :
    e.metadataGate = (e.metadataReader.isReady && !e.metadataQueue.isEmpty) := by
  have hlag := h.lag
  unfold metadataGate metadataLag at *
  rw [hf] at hlag
  cases hr : e.metadataReader.isReady with
  | false => simp
  | true =>
    simp only [hr, if_true, Bool.and_true, Bool.true_and] at hlag ⊢
    cases hq : e.metadataQueue with
    | nil =>
      simp only [hq, if_true] at hlag
      simp only [List.isEmpty_nil, Bool.not_true, beq_eq_false_iff_ne, wsub]
      split <;> omega
    | cons c q =>
      simp only [hq, List.cons_ne_nil, if_false] at hlag
      simp only [List.isEmpty_cons, Bool.not_false, beq_iff_eq, wsub]
      split <;> omega

theorem Held.readMetadata (h : e.Held) (hf : e.metadataReader.finished = e.metadataReader.isReady) :
    e.readMetadata.Held := by
  unfold EncodedVectorFetchModule.readMetadata
  split
  · rename_i hg
    rw [h.metadataGate_eq hf, Bool.and_eq_true, Bool.not_eq_true', List.isEmpty_eq_false_iff] at hg
    obtain ⟨hready, hq⟩ := hg
    have hlag := h.lag
    simp only [metadataLag, hq, if_false, hf, hready, if_true] at hlag
    refine ⟨h.number, ?_, ?_, ?_, fun _ => ?_, h.unused, h.asserted⟩
    · simp only [metadataLag, if_true]
      rw [MemoryReader.submitAll_finished metadataAddr hq]
      simpa using hlag
    · rw [h.metadata]; simp
    · rw [h.vectors, List.append_assoc e.history.vectorReads]
    · simp [hq]
  · exact h

theorem Held.countVectors (h : e.Held) : e.countVectors.Held := by
  refine ⟨h.number, h.lag, h.metadata, h.vectors, h.waiting, ?_, h.asserted⟩
  intro hnil
  obtain ⟨hzero, hfin⟩ := h.unused hnil
  simp [EncodedVectorFetchModule.countVectors, MemoryReader.finishAndReset, hzero, hfin]

theorem Held.flatten_eq (h : e.Held) : e.history.submitted.flatten =
    e.history.vectorReads ++ (e.vectorQueue ++ (e.clusterQueue ++ e.metadataQueue)) := by
  rw [h.metadata, h.vectors]
  simp only [List.append_assoc]

theorem Held.readVectors (clusterAddr : Nat → Cluster) (h : e.Held) : (e.readVectors clusterAddr).Held := by
  unfold EncodedVectorFetchModule.readVectors
  split
  · refine ⟨h.number, h.lag, h.metadata, ?_, h.waiting, ?_, h.asserted⟩
    · show e.history.metadataReads = e.history.vectorReads ++ e.vectorQueue ++ [] ++ e.clusterQueue
      rw [List.append_nil]
      exact h.vectors
    · intro hnil
      have hq : e.vectorQueue = [] := by
        have := h.flatten_eq
        rw [show e.history.submitted = [] from hnil] at this
        simp only [List.flatten_nil, List.nil_eq, List.append_eq_nil_iff] at this
        exact this.2.1
      simp only [hq, List.foldl_nil]
      exact h.unused hnil
  · exact h

theorem finished_countMetadata {m : μ} (h : e.Readers m) :
    e.countMetadata.metadataReader.finished = e.countMetadata.metadataReader.isReady := by
  show e.metadataReader.finishAndReset.2.finished = e.metadataReader.finishAndReset.2.isReady
  rw [h.metadata.finished_finishAndReset, MemoryReader.finishAndReset_isReady]

theorem Held.clockTick (clusterAddr : Nat → Cluster) {w : World μ} (h : e.Held) (hr : e.Readers w.memory) :
    (e.clockTick clusterAddr w).1.Held := by
  have hc := h.tickReaders (m := w.memory) |>.countMetadata
  have hread := hc.readMetadata (finished_countMetadata hr.tickReaders)
  exact hread.countVectors.readVectors clusterAddr

end

theorem reach_invariants {clusterAddr : Nat → Cluster} {e : EncodedVectorFetchModule} {w : World μ}
    (h : Reach clusterAddr e w) : e.Readers w.memory ∧ e.Held := by
  induction h with
  | new w hne h0 h1 =>
    exact ⟨⟨hne, MemoryReader.sound_new h0, MemoryReader.sound_new h1⟩, held_new _ _⟩
  | submitRequest clusters _ hne hr ih =>
    exact ⟨⟨ih.1.ids, ih.1.metadata, ih.1.vector⟩, ih.2.submitRequest hne hr⟩
  | clockTick _ ih => exact ⟨ih.1.clockTick clusterAddr, ih.2.clockTick clusterAddr ih.1⟩
  | environment w' _ h0 h1 ih => exact ⟨⟨ih.1.ids, ih.1.metadata.frame h0, ih.1.vector.frame h1⟩, ih.2⟩

/-! ## At rest -/

/-- Nothing is queued in the readers or in flight, and a tick changes no queue
and no counter. -/
def Quiescent (clusterAddr : Nat → Cluster) (e : EncodedVectorFetchModule) (w : World μ) : Prop :=
  (e.metadataReader.requestQueue = [] ∧ MemoryPort.inflight w.memory e.metadataReader.id = 0) ∧
    (e.vectorReader.requestQueue = [] ∧ MemoryPort.inflight w.memory e.vectorReader.id = 0) ∧
    (e.clockTick clusterAddr w).1.metadataQueue = e.metadataQueue ∧
    (e.clockTick clusterAddr w).1.clusterQueue = e.clusterQueue ∧
    (e.clockTick clusterAddr w).1.vectorQueue = e.vectorQueue ∧
    (e.clockTick clusterAddr w).1.submitedRequestNum = e.submitedRequestNum ∧
    (e.clockTick clusterAddr w).1.fetchingRequestNum = e.fetchingRequestNum ∧
    (e.clockTick clusterAddr w).1.fetchedRequestNum = e.fetchedRequestNum

/-- Every request is counted as fetched and the vectors of every submitted cluster were read once. -/
def AllRead (e : EncodedVectorFetchModule) : Prop :=
  e.fetchedRequestNum = e.submitedRequestNum ∧
    ∀ c, e.history.vectorReads.count c = e.history.submitted.flatten.count c

/-- A module at rest has read everything only if it was never given anything:
the clusters of the last request wait for a request that does not come. -/
theorem allRead_at_rest {clusterAddr : Nat → Cluster} {e : EncodedVectorFetchModule} {w : World μ}
    (h : Reach clusterAddr e w) (_ : Quiescent clusterAddr e w) : e.AllRead ↔ e.history.submitted = [] := by
  have hheld := (reach_invariants h).2
  constructor
  · intro hall
    by_contra hne
    have hwait := hheld.waiting hne
    have hlen : e.history.vectorReads.length = e.history.submitted.flatten.length :=
      (List.perm_iff_count.mpr hall.2).length_eq
    rw [hheld.flatten_eq] at hlen
    simp only [List.length_append] at hlen
    apply hwait
    rw [List.append_eq_nil_iff]
    constructor <;> apply List.eq_nil_of_length_eq_zero <;> omega
  · intro hnil
    have hnum := hheld.number
    have hflat := hheld.flatten_eq
    rw [hnil] at hnum hflat
    simp only [List.flatten_nil, List.nil_eq, List.append_eq_nil_iff] at hflat
    refine ⟨?_, ?_⟩
    · rw [(hheld.unused hnil).1, ← hnum]
      rfl
    · rw [hflat.1, hnil]
      intro c
      rfl

/-! A single request on the memory interface with ideal stacks: its metadata
come back and nothing moves any more. -/

def oneRequest : EncodedVectorFetchModule × World (MultiMemoryInterface IdealDram) :=
  let w : World (MultiMemoryInterface IdealDram) :=
    ⟨((MultiMemoryInterface.new true fun _ => []).registerId 1).registerId 1, TestValue.initial⟩
  let s₁ := ((new 0 1).submitRequest [0]).2.clockTick (fun _ => ⟨clusterAddrStart, 32, 1⟩) w
  let s₂ := s₁.1.clockTick (fun _ => ⟨clusterAddrStart, 32, 1⟩) s₁.2
  s₂.1.clockTick (fun _ => ⟨clusterAddrStart, 32, 1⟩) s₂.2.memoryTick.memoryTick

theorem reach_oneRequest : Reach (fun _ => ⟨clusterAddrStart, 32, 1⟩) oneRequest.1 oneRequest.2 := by
  apply Reach.clockTick
  apply Reach.memoryTick
  apply Reach.memoryTick
  apply Reach.clockTick
  apply Reach.clockTick
  apply Reach.submitRequest
  · exact Reach.new _ (by decide) (by decide +kernel) (by decide +kernel)
  · exact List.cons_ne_nil _ _
  · rfl

theorem quiescent_oneRequest : Quiescent (fun _ => ⟨clusterAddrStart, 32, 1⟩) oneRequest.1 oneRequest.2 := by
  unfold Quiescent
  decide +kernel

theorem allRead_at_rest_oneRequest : ¬ oneRequest.1.AllRead := by
  rw [allRead_at_rest reach_oneRequest quiescent_oneRequest]
  decide +kernel

theorem last_request_left : ∃ (clusterAddr : Nat → Cluster) (e : EncodedVectorFetchModule)
    (w : World (MultiMemoryInterface IdealDram)), Reach clusterAddr e w ∧ Quiescent clusterAddr e w ∧
      e.history.submitted = [[0]] ∧ e.fetchedRequestNum ≠ e.submitedRequestNum ∧ e.clusterQueue = [0] ∧
      e.history.vectorReads = [] := by
  refine ⟨_, oneRequest.1, oneRequest.2, reach_oneRequest, quiescent_oneRequest, ?_⟩
  decide +kernel

end EncodedVectorFetchModule

end Anna
