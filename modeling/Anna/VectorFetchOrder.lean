import Anna.VectorFetchSound

/-!
# The order of the fetches

Clusters reach `vector_queue` only when the metadata reader is idle, and then
in whole requests: the vectors asked for never run ahead of the metadata that
are back, and the clusters in front of `cluster_queue` are those of complete
requests.
-/

namespace Anna

namespace FetchHistory

/-- The clusters submitted before request `n`. -/
def requestStart (h : FetchHistory) (n : Nat) : Nat := (h.submitted.take n).flatten.length

variable {h : FetchHistory}

theorem requestStart_succ (n : Nat) : h.requestStart (n + 1) = h.requestEnd n := rfl

theorem requestStart_mono {m n : Nat} (hmn : m ≤ n) : h.requestStart m ≤ h.requestStart n := by
  obtain ⟨k, rfl⟩ := Nat.exists_eq_add_of_le hmn
  unfold requestStart
  rw [List.take_add, List.flatten_append, List.length_append]
  exact Nat.le_add_right _ _

/-- `num` clusters are those of the first requests. -/
def Whole (h : FetchHistory) (num : Nat) : Prop := ∃ m ≤ h.submitted.length, num = h.requestStart m

theorem whole_all (h : FetchHistory) : h.Whole h.submitted.flatten.length :=
  ⟨_, Nat.le_refl _, by rw [requestStart, List.take_length]⟩

theorem Whole.submit {num : Nat} {h' : FetchHistory} (hw : h.Whole num) (clusters : List Nat)
    (hs : h'.submitted = h.submitted ++ [clusters]) : h'.Whole num := by
  obtain ⟨m, hm, rfl⟩ := hw
  refine ⟨m, ?_, ?_⟩
  · rw [hs, List.length_append]
    exact Nat.le_succ_of_le hm
  · rw [requestStart, requestStart, hs, List.take_append_of_le_length hm]

theorem Whole.requestEnd_le {num n : Nat} (hw : h.Whole num) (hn : h.requestStart n < num) : h.requestEnd n ≤ num := by
  obtain ⟨m, -, rfl⟩ := hw
  rw [← requestStart_succ]
  apply requestStart_mono
  by_contra hlt
  exact absurd (requestStart_mono (h := h) (show m ≤ n by omega)) (by omega)

end FetchHistory

namespace EncodedVectorFetchModule

variable {μ : Type} [MemoryPort μ]

/-- The clusters whose vectors were asked for or wait for it. -/
def released (e : EncodedVectorFetchModule) : Nat := e.history.vectorReads.length + e.vectorQueue.length

structure Ordered (e : EncodedVectorFetchModule) : Prop where
  metadata : e.history.Whole e.history.metadataReads.length
  vectors : e.history.Whole e.released
  back : e.released ≤ e.history.metadataBack

section
variable {e : EncodedVectorFetchModule}

theorem Ordered.submitRequest (h : e.Ordered) (clusters : List Nat) : (e.submitRequest clusters).2.Ordered :=
  ⟨h.metadata.submit clusters rfl, h.vectors.submit clusters rfl, h.back⟩

theorem Held.released_le (h : e.Held) : e.released ≤ e.history.metadataReads.length := by
  rw [h.vectors, released]
  simp only [List.length_append]
  omega

theorem Ordered.tickReaders {m : μ} (h : e.Ordered) (hh : e.Held) : (e.tickReaders m).1.Ordered := by
  refine ⟨h.metadata, h.vectors, ?_⟩
  show e.released ≤ if (e.metadataReader.clockTick m).1.isReady then e.history.metadataReads.length
    else e.history.metadataBack
  split
  · exact hh.released_le
  · exact h.back

/-- After the readers' tick, a ready metadata reader has everything back. -/
theorem back_tickReaders {m : μ} (h : (e.tickReaders m).1.countMetadata.metadataReader.isReady = true) :
    (e.tickReaders m).1.countMetadata.history.metadataBack =
      (e.tickReaders m).1.countMetadata.history.metadataReads.length := by
  have hready : (e.metadataReader.clockTick m).1.isReady = true := by
    rw [← MemoryReader.finishAndReset_isReady]
    exact h
  show (if (e.metadataReader.clockTick m).1.isReady then e.history.metadataReads.length
    else e.history.metadataBack) = _
  rw [if_pos hready]
  rfl

theorem Ordered.readMetadata (h : e.Ordered) (hh : e.Held)
    (hback : e.metadataReader.isReady = true → e.history.metadataBack = e.history.metadataReads.length) :
    e.readMetadata.Ordered := by
  unfold EncodedVectorFetchModule.readMetadata
  split
  · rename_i hgate
    have hready : e.metadataReader.isReady = true := by
      unfold metadataGate at hgate
      exact (Bool.and_eq_true _ _ ▸ hgate).2
    -- the clusters of `cluster_queue` join: all whose metadata were read before
    have hreleased : e.history.vectorReads.length + (e.vectorQueue ++ e.clusterQueue).length =
        e.history.metadataReads.length := by
      rw [hh.vectors]
      simp only [List.length_append]
      omega
    refine ⟨?_, ?_, ?_⟩
    · show e.history.Whole (e.history.metadataReads ++ e.metadataQueue).length
      rw [← hh.metadata]
      exact e.history.whole_all
    · show e.history.Whole (e.history.vectorReads.length + (e.vectorQueue ++ e.clusterQueue).length)
      rw [hreleased]
      exact h.metadata
    · show e.history.vectorReads.length + (e.vectorQueue ++ e.clusterQueue).length ≤ e.history.metadataBack
      rw [hreleased, hback hready]
  · exact h

theorem Ordered.readVectors (clusterAddr : Nat → Cluster) (h : e.Ordered) : (e.readVectors clusterAddr).Ordered := by
  unfold EncodedVectorFetchModule.readVectors
  split
  · have hreleased : (e.history.vectorReads ++ e.vectorQueue).length + ([] : List Nat).length = e.released := by
      rw [released]
      simp
    refine ⟨h.metadata, ?_, ?_⟩
    · show e.history.Whole ((e.history.vectorReads ++ e.vectorQueue).length + ([] : List Nat).length)
      rw [hreleased]
      exact h.vectors
    · show (e.history.vectorReads ++ e.vectorQueue).length + ([] : List Nat).length ≤ e.history.metadataBack
      rw [hreleased]
      exact h.back
  · exact h

theorem Ordered.clockTick (clusterAddr : Nat → Cluster) {w : World μ} (h : e.Ordered) (hh : e.Held) :
    (e.clockTick clusterAddr w).1.Ordered := by
  have hcount : (e.tickReaders w.memory).1.countMetadata.Ordered := by
    obtain ⟨hm, hv, hb⟩ := h.tickReaders (m := w.memory) hh
    exact ⟨hm, hv, hb⟩
  have hread := hcount.readMetadata (hh.tickReaders (m := w.memory)).countMetadata back_tickReaders
  have hvec : (e.tickReaders w.memory).1.countMetadata.readMetadata.countVectors.Ordered :=
    ⟨hread.metadata, hread.vectors, hread.back⟩
  exact hvec.readVectors clusterAddr

end

theorem reach_ordered {clusterAddr : Nat → Cluster} {e : EncodedVectorFetchModule} {w : World μ}
    (h : Reach clusterAddr e w) : e.Ordered := by
  induction h with
  | new => exact ⟨⟨0, Nat.le_refl _, rfl⟩, ⟨0, Nat.le_refl _, rfl⟩, Nat.le_refl _⟩
  | submitRequest clusters _ _ _ ih => exact ih.submitRequest clusters
  | clockTick hr ih => exact ih.clockTick clusterAddr (reach_invariants hr).2
  | environment _ _ _ _ ih => exact ih

/-- The reads of both kinds follow the submitted clusters one by one, and a
vector read is made only when the metadata of its whole request are back. -/
theorem vectors_after_metadata {clusterAddr : Nat → Cluster} {e : EncodedVectorFetchModule} {w : World μ}
    (h : Reach clusterAddr e w) :
    e.history.metadataReads.IsPrefix e.history.submitted.flatten ∧
      e.history.vectorReads.IsPrefix e.history.submitted.flatten ∧
      ∀ n, e.history.requestStart n < e.history.vectorReads.length →
        e.history.requestEnd n ≤ e.history.metadataBack := by
  have hheld := (reach_invariants h).2
  have hord := reach_ordered h
  refine ⟨?_, ?_, fun n hn => ?_⟩
  · rw [hheld.metadata]
    exact List.prefix_append _ _
  · rw [hheld.flatten_eq]
    exact List.prefix_append _ _
  · exact (hord.vectors.requestEnd_le (Nat.lt_of_lt_of_le hn (Nat.le_add_right _ _))).trans hord.back

/-- A second request after `oneRequest` lets the vectors of the first be read. -/
def twoRequests : EncodedVectorFetchModule × World (MultiMemoryInterface IdealDram) :=
  (oneRequest.1.submitRequest [1]).2.clockTick (fun _ => ⟨clusterAddrStart, 32, 1⟩) oneRequest.2

theorem reach_twoRequests : Reach (fun _ => ⟨clusterAddrStart, 32, 1⟩) twoRequests.1 twoRequests.2 := by
  apply Reach.clockTick
  apply Reach.submitRequest
  · exact reach_oneRequest
  · exact List.cons_ne_nil _ _
  · decide +kernel

theorem vectors_after_metadata_two :
    twoRequests.1.history.vectorReads = [0] ∧ twoRequests.1.history.requestEnd 0 ≤ twoRequests.1.history.metadataBack :=
  ⟨by decide +kernel, (vectors_after_metadata reach_twoRequests).2.2 0 (by decide +kernel)⟩

end EncodedVectorFetchModule

end Anna
