import Anna.CoreSteps
import Anna.MemoryReaderSound
import Anna.Lib.Pipeline
import Anna.Lib.Chunks

/-!
# Slices through a core

The three modules of a core are a pipeline of one-item stages: each part of a
tick is a step of it. What is fed into it are the slices of the work list in
order (`slices`), and `Finished` is set with the last of them.
-/

namespace Anna

/-! ## The slices of a work list -/

/-- The slices of the query sets from number `k` on, in chunks of `b` queries. -/
def slicesFrom (b : Nat) : Nat → List (List Nat) → List Slice
  | _, [] => []
  | k, set :: sets => (chunksFrom b set.length 0).map (fun p => ⟨k, p.1, p.2⟩) ++ slicesFrom b (k + 1) sets

def slices (b : Nat) (querySetList : List (List Nat)) : List Slice := slicesFrom b 0 querySetList

namespace Slice

def Before (s t : Slice) : Prop := s.k < t.k ∨ s.k = t.k ∧ s.r ≤ t.l

def covers (k i : Nat) (s : Slice) : Bool := s.k == k && (decide (s.l ≤ i) && decide (i < s.r))

end Slice

section
variable {b k : Nat} {sets : List (List Nat)}

theorem slicesFrom_bounds {s : Slice} (h : s ∈ slicesFrom b k sets) :
    k ≤ s.k ∧ s.k < k + sets.length ∧ s.l < s.r ∧ s.r ≤ (sets.getD (s.k - k) []).length := by
  induction sets generalizing k with
  | nil => cases h
  | cons set sets ih =>
    rw [slicesFrom, List.mem_append, List.mem_map] at h
    rcases h with ⟨p, hp, rfl⟩ | h
    · have := chunksFrom_bounds hp
      simp only [Nat.sub_self, List.getD_cons_zero, List.length_cons]
      omega
    · obtain ⟨h1, h2, h3, h4⟩ := ih h
      rw [List.length_cons]
      have hk : s.k - k = (s.k - (k + 1)) + 1 := by omega
      rw [hk, List.getD_cons_succ]
      omega

theorem slicesFrom_sorted : (slicesFrom b k sets).Pairwise Slice.Before := by
  induction sets generalizing k with
  | nil => exact List.Pairwise.nil
  | cons set sets ih =>
    rw [slicesFrom, List.pairwise_append]
    refine ⟨?_, ih, ?_⟩
    · rw [List.pairwise_map]
      apply List.Pairwise.imp _ chunksFrom_sorted
      intro p q hpq
      exact Or.inr ⟨rfl, hpq⟩
    · intro s hs t ht
      obtain ⟨p, -, rfl⟩ := List.mem_map.mp hs
      exact Or.inl (slicesFrom_bounds ht).1

theorem slicesFrom_covers (hb : 0 < b) (k : Nat) (sets : List (List Nat)) (k' i : Nat) :
    (slicesFrom b k sets).countP (Slice.covers k' i) =
      if k ≤ k' ∧ k' < k + sets.length ∧ i < (sets.getD (k' - k) []).length then 1 else 0 := by
  induction sets generalizing k with
  | nil => simp [slicesFrom]
  | cons set sets ih =>
    rw [slicesFrom, List.countP_append, List.countP_map, ih]
    by_cases hk : k = k'
    · subst hk
      have h1 : (Slice.covers k i ∘ fun p : Nat × Nat => (⟨k, p.1, p.2⟩ : Slice)) =
          fun p => decide (p.1 ≤ i) && decide (i < p.2) := by
        funext p
        simp [Slice.covers]
      rw [h1, chunksFrom_covers hb]
      simp
    · have h1 : (Slice.covers k' i ∘ fun p : Nat × Nat => (⟨k, p.1, p.2⟩ : Slice)) = fun _ => false := by
        funext p
        simp [Slice.covers, hk]
      rw [h1]
      by_cases hlt : k < k'
      · have h2 : k' - k = (k' - (k + 1)) + 1 := by omega
        rw [h2, List.getD_cons_succ, List.length_cons]
        have h3 : k + 1 ≤ k' := hlt
        have h4 : k ≤ k' := Nat.le_of_lt hlt
        have h5 : k' < k + 1 + sets.length ↔ k' < k + (sets.length + 1) := by omega
        simp only [List.countP_false, Function.const_apply, Nat.zero_add, h3, h4, h5, true_and]
      · have h2 : ¬ k + 1 ≤ k' := by omega
        have h3 : ¬ k ≤ k' := by omega
        simp [h2, h3]

end

namespace CoreEvent

def cpmSlice : CoreEvent → Option Slice
  | .cpm s _ => some s
  | _ => none

def efmSlice : CoreEvent → Option Slice
  | .efm s => some s
  | _ => none

def scmSlice : CoreEvent → Option Slice
  | .scm s _ => some s
  | _ => none

def savedSlice : CoreEvent → Option Slice
  | .save s _ => some s
  | _ => none

def clock? : CoreEvent → Option Nat
  | .cpm _ t => some t
  | .save _ t => some t
  | _ => none

end CoreEvent

namespace ANNACore

def cpmSlices (c : ANNACore) : List Slice := c.log.filterMap CoreEvent.cpmSlice

def efmSlices (c : ANNACore) : List Slice := c.log.filterMap CoreEvent.efmSlice

def scmSlices (c : ANNACore) : List Slice := c.log.filterMap CoreEvent.scmSlice

def savedSlices (c : ANNACore) : List Slice := c.log.filterMap CoreEvent.savedSlice

def cpmSlot (c : ANNACore) : Option Slice := c.cpmProcessingIndex.map fun k => ⟨k, c.nextQueriesL, c.nextQueriesR⟩

def efmSlot (c : ANNACore) : Option Slice := c.efmProcessingIndex.map fun k => ⟨k, c.processQueriesL, c.processQueriesR⟩

def scmSlot (c : ANNACore) : Option Slice := c.scmProcessingIndex.map fun k => ⟨k, c.savingQueriesL, c.savingQueriesR⟩

def pipeline (c : ANNACore) : Pipeline Slice where
  entered
    | 0 => c.cpmSlices
    | 1 => c.efmSlices
    | 2 => c.scmSlices
    | 3 => c.savedSlices
    | _ => []
  slot
    | 0 => c.cpmSlot
    | 1 => c.efmSlot
    | 2 => c.scmSlot
    | _ => none

section
variable {clusterAddr : Nat → Cluster} {c c' : ANNACore} {t : TestValue} {p q : ANNACore × TestValue}

/-! ## Each part is a step of the pipeline -/

theorem saveSlice_pipeline {k : Nat} (hk : c.scmProcessingIndex = some k) :
    Pipeline.Step 3 c.pipeline (c.saveSlice t k).1.pipeline := by
  have hs : c.pipeline.slot 2 = some ⟨k, c.savingQueriesL, c.savingQueriesR⟩ := by
    simp [pipeline, scmSlot, hk]
  have := Pipeline.Step.exit (n := 3) 2 _ rfl hs
  convert this using 1
  ext1
  · funext i
    rcases i with _ | _ | _ | _ | i <;>
      simp [pipeline, saveSlice, cpmSlices, efmSlices, scmSlices, savedSlices, CoreEvent.cpmSlice, CoreEvent.efmSlice,
        CoreEvent.scmSlice, CoreEvent.savedSlice]
  · funext i
    rcases i with _ | _ | _ | i <;> simp [pipeline, saveSlice, Pipeline.leave, cpmSlot, efmSlot, scmSlot]

theorem scanSlice_pipeline {k : Nat} (hk : c.efmProcessingIndex = some k) (hn : c.scmProcessingIndex = none) :
    Pipeline.Step 3 c.pipeline (c.scanSlice clusterAddr t k).1.pipeline := by
  have hs : c.pipeline.slot 1 = some ⟨k, c.processQueriesL, c.processQueriesR⟩ := by
    simp [pipeline, efmSlot, hk]
  have hn' : c.pipeline.slot 2 = none := by simp [pipeline, scmSlot, hn]
  have := Pipeline.Step.advance (n := 3) 1 _ (by decide) hs hn'
  convert this using 1
  ext1
  · funext i
    rcases i with _ | _ | _ | _ | i <;>
      simp [pipeline, scanSlice, Pipeline.leave, Pipeline.enter, cpmSlices, efmSlices, scmSlices, savedSlices,
        CoreEvent.cpmSlice, CoreEvent.efmSlice, CoreEvent.scmSlice, CoreEvent.savedSlice]
  · funext i
    rcases i with _ | _ | _ | i <;>
      simp [pipeline, scanSlice, Pipeline.leave, Pipeline.enter, cpmSlot, efmSlot, scmSlot]

theorem fetchSlice_pipeline {k : Nat} (hk : c.cpmProcessingIndex = some k) (hn : c.efmProcessingIndex = none) :
    Pipeline.Step 3 c.pipeline (c.fetchSlice k).pipeline := by
  have hs : c.pipeline.slot 0 = some ⟨k, c.nextQueriesL, c.nextQueriesR⟩ := by
    simp [pipeline, cpmSlot, hk]
  have hn' : c.pipeline.slot 1 = none := by simp [pipeline, efmSlot, hn]
  have := Pipeline.Step.advance (n := 3) 0 _ (by decide) hs hn'
  convert this using 1
  ext1
  · funext i
    rcases i with _ | _ | _ | _ | i <;>
      simp [pipeline, fetchSlice, Pipeline.leave, Pipeline.enter, cpmSlices, efmSlices, scmSlices, savedSlices,
        CoreEvent.cpmSlice, CoreEvent.efmSlice, CoreEvent.scmSlice, CoreEvent.savedSlice]
  · funext i
    have hreq : (c.requestCluster k).scmProcessingIndex = c.scmProcessingIndex ∧
        (c.requestCluster k).savingQueriesL = c.savingQueriesL ∧
        (c.requestCluster k).savingQueriesR = c.savingQueriesR := by
      unfold requestCluster
      split <;> exact ⟨rfl, rfl, rfl⟩
    rcases i with _ | _ | _ | i <;>
      simp [pipeline, fetchSlice, Pipeline.leave, Pipeline.enter, cpmSlot, efmSlot, scmSlot, hreq]

theorem handSlice_pipeline (hn : c.cpmProcessingIndex = none) :
    Pipeline.Step 3 c.pipeline (c.handSlice t).1.pipeline := by
  have hn' : c.pipeline.slot 0 = none := by simp [pipeline, cpmSlot, hn]
  have := Pipeline.Step.feed (n := 3) (⟨c.slice, c.nextL, c.nextR⟩ : Slice) (by decide) hn'
  convert this using 1
  ext1
  · funext i
    rcases i with _ | _ | _ | _ | i <;>
      simp [pipeline, handSlice, Pipeline.enter, cpmSlices, efmSlices, scmSlices, savedSlices,
        CoreEvent.cpmSlice, CoreEvent.efmSlice, CoreEvent.scmSlice, CoreEvent.savedSlice]
  · funext i
    rcases i with _ | _ | _ | i <;> simp [pipeline, handSlice, Pipeline.enter, cpmSlot, efmSlot, scmSlot]

theorem part_pipeline (h : Part clusterAddr p q) : Pipeline.Step 3 p.1.pipeline q.1.pipeline := by
  cases h with
  | save k hk _ => exact saveSlice_pipeline hk
  | scan k hk hn _ => exact scanSlice_pipeline hk hn
  | fetch k hk hn _ _ => exact fetchSlice_pipeline hk hn
  | hand hn _ _ => exact handSlice_pipeline hn

/-! ## The slices that are fed -/

/-- What the core has still to hand to the CPM. -/
def remaining (c : ANNACore) : List Slice :=
  if c.sliceChanged then slicesFrom c.batchSize c.slice (c.querySetList.drop c.slice)
  else (chunksFrom c.batchSize (c.querySet c.slice).length (c.sliceQueries + c.batchSize)).map
      (fun p => ⟨c.slice, p.1, p.2⟩) ++
    slicesFrom c.batchSize (c.slice + 1) (c.querySetList.drop (c.slice + 1))

/-- A work list as `Run` builds it. -/
structure Workable (c : ANNACore) : Prop where
  length : c.querySetList.length = c.clusterList.length
  sets : ∀ set ∈ c.querySetList, set ≠ []
  batch : 0 < c.batchSize

structure Sliced (c : ANNACore) : Prop where
  fed : c.cpmSlices ++ c.remaining = slices c.batchSize c.querySetList
  bound : c.slice ≤ c.clusterList.length
  inside : c.sliceChanged = false →
    c.slice < c.clusterList.length ∧ c.sliceQueries + c.batchSize < (c.querySet c.slice).length

theorem querySet_pos (h : c.Workable) {k : Nat} (hk : k < c.clusterList.length) : 0 < (c.querySet k).length := by
  have hk' : k < c.querySetList.length := h.length ▸ hk
  have : c.querySet k = c.querySetList[k] := List.getD_eq_getElem _ _ hk'
  rw [this]
  exact List.length_pos_of_ne_nil (h.sets _ (List.getElem_mem hk'))

theorem remaining_eq (hw : c.Workable) (h : c.Sliced) (hk : c.slice < c.clusterList.length) :
    c.nextL < (c.querySet c.slice).length ∧
      c.remaining = ⟨c.slice, c.nextL, c.nextR⟩ ::
        ((chunksFrom c.batchSize (c.querySet c.slice).length (c.nextL + c.batchSize)).map
          (fun p => ⟨c.slice, p.1, p.2⟩) ++
        slicesFrom c.batchSize (c.slice + 1) (c.querySetList.drop (c.slice + 1))) := by
  have hk' : c.slice < c.querySetList.length := hw.length ▸ hk
  have hset : c.querySetList[c.slice] = c.querySet c.slice := (List.getD_eq_getElem _ _ hk').symm
  cases hch : c.sliceChanged with
  | true =>
    have hl : c.nextL = 0 := by simp [nextL, hch]
    have hpos := querySet_pos hw hk
    refine ⟨by rw [hl]; exact hpos, ?_⟩
    rw [remaining, hch, if_pos rfl, List.drop_eq_getElem_cons hk', slicesFrom, hset, chunksFrom_cons hpos hw.batch,
      nextR, hl]
    rfl
  | false =>
    have hl : c.nextL = c.sliceQueries + c.batchSize := by simp [nextL, hch]
    have hin := (h.inside hch).2
    refine ⟨by rw [hl]; exact hin, ?_⟩
    rw [remaining, hch, if_neg Bool.false_ne_true, chunksFrom_cons hin hw.batch, nextR, hl]
    rfl

theorem Sliced.hand (hw : c.Workable) (h : c.Sliced) (hk : c.slice < c.clusterList.length) :
    (c.handSlice t).1.Sliced := by
  obtain ⟨hlt, hrem⟩ := remaining_eq hw h hk
  have hfed := h.fed
  rw [hrem] at hfed
  have hcpm : (c.handSlice t).1.cpmSlices = c.cpmSlices ++ [⟨c.slice, c.nextL, c.nextR⟩] := by
    simp [handSlice, cpmSlices, CoreEvent.cpmSlice]
  by_cases hlast : c.nextR = (c.querySet c.slice).length
  · -- the set is used up: its last chunk was handed over
    have hnil : (c.querySet c.slice).length ≤ c.nextL + c.batchSize := by
      unfold nextR at hlast
      omega
    rw [chunksFrom_nil hnil] at hfed
    refine ⟨?_, ?_, ?_⟩
    · have hr : (c.handSlice t).1.remaining =
          slicesFrom c.batchSize (c.slice + 1) (c.querySetList.drop (c.slice + 1)) := by
        simp [remaining, handSlice, hlast]
      rw [hcpm, hr, List.append_assoc]
      exact hfed
    · have hs : (c.handSlice t).1.slice = c.slice + 1 := by simp [handSlice, hlast]
      rw [hs]
      exact hk
    · intro hch
      simp [handSlice, hlast] at hch
  · have hin : c.nextL + c.batchSize < (c.querySet c.slice).length := by
      unfold nextR at hlast
      omega
    have hs : (c.handSlice t).1.slice = c.slice := by simp [handSlice, hlast]
    have hch : (c.handSlice t).1.sliceChanged = false := by simp [handSlice, hlast]
    refine ⟨?_, hs ▸ h.bound, ?_⟩
    · have hr : (c.handSlice t).1.remaining =
          (chunksFrom c.batchSize (c.querySet c.slice).length (c.nextL + c.batchSize)).map
            (fun p => ⟨c.slice, p.1, p.2⟩) ++
          slicesFrom c.batchSize (c.slice + 1) (c.querySetList.drop (c.slice + 1)) := by
        rw [remaining, hch, if_neg Bool.false_ne_true, hs]
        rfl
      rw [hcpm, hr, List.append_assoc]
      exact hfed
    · intro _
      rw [hs]
      exact ⟨hk, hin⟩

def generator (c : ANNACore) : Nat × Bool × Nat × Nat × List Nat × List (List Nat) :=
  (c.slice, c.sliceChanged, c.sliceQueries, c.batchSize, c.clusterList, c.querySetList)

@[simp] theorem requestCluster_generator (c : ANNACore) (k : Nat) : (c.requestCluster k).generator = c.generator := by
  unfold requestCluster
  split <;> rfl

theorem fetchSlice_generator (c : ANNACore) (k : Nat) : (c.fetchSlice k).generator = c.generator :=
  requestCluster_generator c k

theorem Sliced.frame (h : c.Sliced) (hgen : c'.generator = c.generator) (hcpm : c'.cpmSlices = c.cpmSlices) :
    c'.Sliced := by
  simp only [generator, Prod.mk.injEq] at hgen
  obtain ⟨h1, h2, h3, h4, h5, h6⟩ := hgen
  refine ⟨?_, ?_, ?_⟩
  · rw [hcpm, remaining, querySet, h1, h2, h3, h4, h6]
    exact h.fed
  · rw [h1, h5]
    exact h.bound
  · rw [querySet, h1, h2, h3, h4, h5, h6]
    exact h.inside

theorem part_generator (h : Part clusterAddr p q) :
    q.1.generator = p.1.generator ∧ q.1.cpmSlices = p.1.cpmSlices ∨
      p.1.slice < p.1.clusterList.length ∧ q = p.1.handSlice p.2 := by
  cases h with
  | save k _ _ =>
    refine Or.inl ⟨rfl, ?_⟩
    simp [saveSlice, cpmSlices, CoreEvent.cpmSlice]
  | scan k _ _ _ =>
    refine Or.inl ⟨rfl, ?_⟩
    simp [scanSlice, cpmSlices, CoreEvent.cpmSlice]
  | fetch k _ _ _ _ =>
    refine Or.inl ⟨fetchSlice_generator _ k, ?_⟩
    simp [fetchSlice, cpmSlices, CoreEvent.cpmSlice]
  | hand _ _ hk => exact Or.inr ⟨hk, rfl⟩

theorem part_work (h : Part clusterAddr p q) : q.1.clusterList = p.1.clusterList ∧
    q.1.querySetList = p.1.querySetList ∧ q.1.batchSize = p.1.batchSize := by
  rcases part_generator h with ⟨hgen, -⟩ | ⟨-, rfl⟩
  · simp only [generator, Prod.mk.injEq] at hgen
    exact ⟨hgen.2.2.2.2.1, hgen.2.2.2.2.2, hgen.2.2.2.1⟩
  · exact ⟨rfl, rfl, rfl⟩

theorem Workable.part (hw : p.1.Workable) (h : Part clusterAddr p q) : q.1.Workable := by
  obtain ⟨h1, h2, h3⟩ := part_work h
  exact ⟨by rw [h1, h2]; exact hw.length, by rw [h2]; exact hw.sets, by rw [h3]; exact hw.batch⟩

theorem Sliced.part (hw : p.1.Workable) (hs : p.1.Sliced) (h : Part clusterAddr p q) : q.1.Sliced := by
  rcases part_generator h with ⟨hgen, hcpm⟩ | ⟨hk, rfl⟩
  · exact hs.frame hgen hcpm
  · exact hs.hand hw hk

/-! ## The last slice -/

def Closing (c : ANNACore) (s : Slice) : Prop :=
  s.k + 1 = c.clusterList.length ∧ s.r = (c.querySet s.k).length

/-- `Finished` is set by a closing slice and by no other. -/
def FinishedByClosing (c : ANNACore) : Prop := c.finished = true ↔ ∃ s ∈ c.savedSlices, c.Closing s

theorem FinishedByClosing.part (hne : p.1.clusterList ≠ []) (hf : p.1.FinishedByClosing)
    (h : Part clusterAddr p q) : q.1.FinishedByClosing := by
  cases h with
  | @save c t k _ _ =>
    have hsaved : (c.saveSlice t k).1.savedSlices =
        c.savedSlices ++ [⟨k, c.savingQueriesL, c.savingQueriesR⟩] := by
      simp [saveSlice, savedSlices, CoreEvent.savedSlice]
    have hk : k = wsub c.clusterList.length 1 ↔ k + 1 = c.clusterList.length := by
      have : 0 < c.clusterList.length := List.length_pos_of_ne_nil hne
      rw [wsub_of_le this]
      omega
    unfold FinishedByClosing at hf ⊢
    rw [hsaved]
    have hcl : ∀ s, (c.saveSlice t k).1.Closing s ↔ c.Closing s := fun s => Iff.rfl
    simp only [hcl, List.mem_append, List.mem_singleton, or_and_right, exists_or, exists_eq_left]
    rw [← hf]
    simp only [saveSlice, Closing, Bool.or_eq_true, Bool.and_eq_true, beq_iff_eq, hk]
  | @scan c t k _ _ _ =>
    have : (c.scanSlice clusterAddr t k).1.savedSlices = c.savedSlices := by
      simp [scanSlice, savedSlices, CoreEvent.savedSlice]
    unfold FinishedByClosing at hf ⊢
    rw [this]
    exact hf
  | @fetch c t k _ _ _ _ =>
    have h1 : (c.fetchSlice k).savedSlices = c.savedSlices := by
      simp [fetchSlice, savedSlices, CoreEvent.savedSlice]
    have h2 : (c.fetchSlice k).finished = c.finished := by
      unfold fetchSlice requestCluster
      split <;> rfl
    have h3 := fetchSlice_generator c k
    simp only [generator, Prod.mk.injEq] at h3
    unfold FinishedByClosing at hf ⊢
    simp only [Closing, querySet] at hf ⊢
    rw [h1, h2, h3.2.2.2.2.1, h3.2.2.2.2.2]
    exact hf
  | @hand c t _ _ _ =>
    have : (c.handSlice t).1.savedSlices = c.savedSlices := by
      simp [handSlice, savedSlices, CoreEvent.savedSlice]
    unfold FinishedByClosing at hf ⊢
    rw [this]
    exact hf

theorem closing_last {s : Slice} {xs ys : List Slice} (hw : c.Workable)
    (h : slices c.batchSize c.querySetList = xs ++ s :: ys) (hc : c.Closing s) : ys = [] := by
  cases ys with
  | nil => rfl
  | cons u ys =>
    have hsorted : (slices c.batchSize c.querySetList).Pairwise Slice.Before := slicesFrom_sorted
    rw [h, List.pairwise_append, List.pairwise_cons] at hsorted
    have hbefore := hsorted.2.1.1 u List.mem_cons_self
    have hu : u ∈ slices c.batchSize c.querySetList := by
      rw [h]
      exact List.mem_append_right _ (List.mem_cons_of_mem _ List.mem_cons_self)
    obtain ⟨-, h1, h2, h3⟩ := slicesFrom_bounds hu
    obtain ⟨hk, hr⟩ := hc
    rw [hw.length] at h1
    simp only [Nat.sub_zero] at h3
    rcases hbefore with hlt | ⟨heq, hle⟩
    · omega
    · have hsize : (c.querySet s.k).length = (c.querySetList.getD u.k []).length := by rw [heq]; rfl
      omega

theorem exists_closing (hw : c.Workable) (hne : c.clusterList ≠ []) :
    ∃ s ∈ slices c.batchSize c.querySetList, c.Closing s := by
  have hlen := List.length_pos_of_ne_nil hne
  have hpos := querySet_pos hw (k := c.clusterList.length - 1) (by omega)
  have hcov := slicesFrom_covers hw.batch 0 c.querySetList (c.clusterList.length - 1)
    ((c.querySet (c.clusterList.length - 1)).length - 1)
  rw [if_pos ⟨Nat.zero_le _, by rw [hw.length]; omega, Nat.sub_lt hpos Nat.one_pos⟩] at hcov
  obtain ⟨s, hs, hsc⟩ := List.countP_pos_iff.mp (hcov ▸ Nat.one_pos)
  simp only [Slice.covers, Bool.and_eq_true, beq_iff_eq, decide_eq_true_eq] at hsc
  obtain ⟨hk, -, hr⟩ := hsc
  have hb := (slicesFrom_bounds hs).2.2.2
  simp only [Nat.sub_zero] at hb
  have hq : (c.querySetList.getD s.k []).length = (c.querySet s.k).length := rfl
  refine ⟨s, hs, by omega, ?_⟩
  rw [hk] at hb hq ⊢
  omega

/-! ## The log -/

theorem part_log (h : Part clusterAddr p q) : q.1.clock = p.1.clock ∧
    ∃ e, q.1.log = p.1.log ++ [e] ∧ ∀ u, e.clock? = some u → u = p.1.clock := by
  cases h with
  | save k _ _ =>
    refine ⟨rfl, _, rfl, ?_⟩
    intro u hu
    exact (Option.some.inj hu).symm
  | scan k _ _ _ =>
    refine ⟨rfl, _, rfl, ?_⟩
    intro u hu
    cases hu
  | @fetch c t k _ _ _ _ =>
    refine ⟨?_, _, rfl, ?_⟩
    · show (c.requestCluster k).clock = c.clock
      unfold requestCluster
      split <;> rfl
    · intro u hu
      cases hu
  | hand _ _ _ =>
    refine ⟨rfl, _, rfl, ?_⟩
    intro u hu
    exact (Option.some.inj hu).symm

theorem parts_log (h : Parts clusterAddr p q) : q.1.clock = p.1.clock ∧
    ∃ es, q.1.log = p.1.log ++ es ∧ ∀ e ∈ es, ∀ u, e.clock? = some u → u = p.1.clock := by
  induction h with
  | refl =>
    refine ⟨rfl, [], (List.append_nil _).symm, ?_⟩
    intro e he
    cases he
  | tail _ hp ih =>
    obtain ⟨hc, es, hes, hclock⟩ := ih
    obtain ⟨hc', e, he, heclock⟩ := part_log hp
    refine ⟨hc'.trans hc, es ++ [e], ?_, ?_⟩
    · rw [he, hes, List.append_assoc]
    · intro e' he' u hu
      rcases List.mem_append.mp he' with h1 | h1
      · exact hclock e' h1 u hu
      · rw [List.mem_singleton] at h1
        subst h1
        exact (heclock u hu).trans hc

theorem clockTick_log {μ : Type} [MemoryPort μ] (clusterAddr : Nat → Cluster) (c : ANNACore) (w : World μ) :
    (c.clockTick clusterAddr w).1.clock = c.clock + 1 ∧
      ∃ es, (c.clockTick clusterAddr w).1.log = c.log ++ es ∧
        ∀ e ∈ es, ∀ u, e.clock? = some u → u = c.clock + 1 :=
  parts_log (clockTick_parts clusterAddr c w)

def Timed (c : ANNACore) : Prop := ∀ e ∈ c.log, ∀ u, e.clock? = some u → 0 < u ∧ u ≤ c.clock

theorem Timed.clockTick {μ : Type} [MemoryPort μ] (h : c.Timed) (w : World μ) :
    (c.clockTick clusterAddr w).1.Timed := by
  obtain ⟨hclock, es, hes, hnew⟩ := clockTick_log clusterAddr c w
  intro e he u hu
  rw [hes, List.mem_append] at he
  rw [hclock]
  rcases he with he | he
  · have := h e he u hu
    omega
  · have := hnew e he u hu
    omega

/-! ## Whole runs -/

/-- The invariant of a core with a work list of `Run`. -/
structure Orderly (c : ANNACore) : Prop where
  workable : c.Workable
  flow : Pipeline.Flow 3 c.pipeline
  sliced : c.Sliced
  finish : c.clusterList ≠ [] → c.FinishedByClosing

theorem Orderly.saved_isPrefix (ho : c.Orderly) : c.savedSlices <+: slices c.batchSize c.querySetList := by
  have h1 : c.savedSlices <+: c.cpmSlices := ho.flow.entered_isPrefix (i := 0) (j := 3) (by decide) (by decide)
  exact h1.trans ⟨_, ho.sliced.fed⟩

theorem Orderly.finished_iff (ho : c.Orderly) (hne : c.clusterList ≠ []) :
    c.finished = true ↔ c.savedSlices = slices c.batchSize c.querySetList := by
  refine (ho.finish hne).trans ?_
  constructor
  · rintro ⟨s, hs, hc⟩
    obtain ⟨xs, ys, hxy⟩ := List.append_of_mem hs
    obtain ⟨rest, hrest⟩ := ho.saved_isPrefix
    have hall : slices c.batchSize c.querySetList = xs ++ s :: (ys ++ rest) := by
      rw [← hrest, hxy, List.append_assoc]
      rfl
    have hnil := closing_last ho.workable hall hc
    rw [List.append_eq_nil_iff] at hnil
    rw [← hrest, hnil.2, List.append_nil]
  · intro hall
    rw [hall]
    exact exists_closing ho.workable hne

theorem Orderly.drained_iff (ho : c.Orderly) : c.savedSlices = slices c.batchSize c.querySetList ↔
    c.slice = c.clusterList.length ∧ c.cpmProcessingIndex = none ∧ c.efmProcessingIndex = none ∧
      c.scmProcessingIndex = none := by
  have h0 : c.cpmSlices = c.efmSlices ++ c.cpmSlot.toList := ho.flow 0 (by decide)
  have h1 : c.efmSlices = c.scmSlices ++ c.efmSlot.toList := ho.flow 1 (by decide)
  have h2 : c.scmSlices = c.savedSlices ++ c.scmSlot.toList := ho.flow 2 (by decide)
  have hfed := ho.sliced.fed
  constructor
  · intro hall
    rw [h0, h1, h2, hall] at hfed
    simp only [List.append_assoc, List.append_right_eq_self, List.append_eq_nil_iff] at hfed
    obtain ⟨hscm, hefm, hcpm, hrem⟩ := hfed
    refine ⟨?_, ?_, ?_, ?_⟩
    · by_contra hne
      have hlt : c.slice < c.clusterList.length := Nat.lt_of_le_of_ne ho.sliced.bound hne
      rw [(remaining_eq ho.workable ho.sliced hlt).2] at hrem
      cases hrem
    · simpa [cpmSlot] using hcpm
    · simpa [efmSlot] using hefm
    · simpa [scmSlot] using hscm
  · rintro ⟨hslice, hcpm, hefm, hscm⟩
    have hch : c.sliceChanged = true := by
      by_contra hne
      have := (ho.sliced.inside (by simpa using hne)).1
      omega
    have hrem : c.remaining = [] := by
      rw [remaining, hch, if_pos rfl, hslice, ← ho.workable.length, List.drop_length]
      rfl
    have hdrained : c.savedSlices = c.cpmSlices := by
      apply ho.flow.drained
      intro i hi
      rcases i with _ | _ | _ | i
      · simp [pipeline, cpmSlot, hcpm]
      · simp [pipeline, efmSlot, hefm]
      · simp [pipeline, scmSlot, hscm]
      · omega
    rw [hdrained, ← hfed, hrem, List.append_nil]

end

theorem batchOfInt_pos {b : Int32} (h : 0 < b) : 0 < batchOfInt b := by
  have hpos : 0 < b.toInt := Int32.lt_iff_toInt_lt.mp h
  rw [batchOfInt, toNat_uint64OfInt (Int.le_of_lt hpos)]
  omega

section
variable {μ : Type} [MemoryPort μ] {clusterAddr : Nat → Cluster} {clusterList : List Nat}
  {querySetList : List (List Nat)} {batchSize : Int32} {c : ANNACore} {w : World μ}

theorem reach_work (h : Reach clusterAddr clusterList querySetList batchSize c w) :
    c.clusterList = clusterList ∧ c.querySetList = querySetList ∧ c.batchSize = batchOfInt batchSize := by
  apply reach_invariant (I := fun c =>
    c.clusterList = clusterList ∧ c.querySetList = querySetList ∧ c.batchSize = batchOfInt batchSize) h
  · intro _ _ _ _ _
    exact ⟨rfl, rfl, rfl⟩
  · intro c w hc
    exact hc
  · intro p q hp hc
    obtain ⟨h1, h2, h3⟩ := part_work hp
    rw [h1, h2, h3]
    exact hc

theorem reach_finish (h : Reach clusterAddr clusterList querySetList batchSize c w) (hne : clusterList ≠ []) :
    c.FinishedByClosing := by
  have := reach_invariant (I := fun c => c.clusterList = clusterList ∧ c.FinishedByClosing) h ?_ ?_ ?_
  · exact this.2
  · intro _ _ _ _ _
    refine ⟨rfl, ?_⟩
    constructor
    · intro hf
      cases hf
    · rintro ⟨s, hs, -⟩
      cases hs
  · intro c w hc
    exact hc
  · intro p q hp hc
    exact ⟨(part_work hp).1.trans hc.1, hc.2.part (by rw [hc.1]; exact hne) hp⟩

theorem reach_flow (h : Reach clusterAddr clusterList querySetList batchSize c w) : Pipeline.Flow 3 c.pipeline := by
  apply reach_invariant (I := fun c => Pipeline.Flow 3 c.pipeline) h
  · intro _ _ _ _ _ i _
    rcases i with _ | _ | _ | _ | i <;> rfl
  · intro c w hc
    exact hc
  · intro p q hp hc
    exact Pipeline.flow_step (part_pipeline hp) hc

theorem reach_orderly (h : Reach clusterAddr clusterList querySetList batchSize c w)
    (hlen : querySetList.length = clusterList.length) (hsets : ∀ set ∈ querySetList, set ≠ [])
    (hb : 0 < batchOfInt batchSize) : c.Orderly := by
  have hsliced := reach_invariant (I := fun c => c.Workable ∧ c.Sliced) h ?_ ?_ ?_
  · refine ⟨hsliced.1, reach_flow h, hsliced.2, ?_⟩
    rw [(reach_work h).1]
    exact reach_finish h
  · intro _ _ _ _ _
    refine ⟨⟨hlen, hsets, hb⟩, ⟨rfl, Nat.zero_le _, ?_⟩⟩
    intro hch
    cases hch
  · intro c w hc
    exact ⟨⟨hc.1.length, hc.1.sets, hc.1.batch⟩, hc.2.frame rfl rfl⟩
  · intro p q hp hc
    exact ⟨hc.1.part hp, hc.2.part hc.1 hp⟩

theorem reach_timed (h : Reach clusterAddr clusterList querySetList batchSize c w) : c.Timed := by
  induction h with
  | setup e s w _ _ =>
    intro e he
    cases he
  | clockTick _ ih => exact ih.clockTick _
  | environment w' _ _ ih => exact ih

theorem clockTick_work (clusterAddr : Nat → Cluster) (c : ANNACore) (w : World μ) :
    (c.clockTick clusterAddr w).1.clusterList = c.clusterList ∧
    (c.clockTick clusterAddr w).1.querySetList = c.querySetList ∧
    (c.clockTick clusterAddr w).1.batchSize = c.batchSize := by
  apply parts_invariant (I := fun d =>
    d.clusterList = c.clusterList ∧ d.querySetList = c.querySetList ∧ d.batchSize = c.batchSize)
    (clockTick_parts clusterAddr c w)
  · intro p q hp hd
    obtain ⟨h1, h2, h3⟩ := part_work hp
    rw [h1, h2, h3]
    exact hd
  · exact ⟨rfl, rfl, rfl⟩

theorem last_closing (ho : c.Orderly) (hne : c.clusterList ≠ []) {s : Slice} {xs : List Slice}
    (hs : slices c.batchSize c.querySetList = xs ++ [s]) : c.Closing s := by
  obtain ⟨s', hmem, hc⟩ := exists_closing ho.workable hne
  obtain ⟨as, bs, hab⟩ := List.append_of_mem hmem
  have hnil := closing_last ho.workable hab hc
  rw [hab, hnil] at hs
  have := (List.append_inj' hs rfl).2
  rw [List.cons.injEq] at this
  exact this.1 ▸ hc

theorem finished_in_tick (ho : c.Orderly) (ho' : (c.clockTick clusterAddr w).1.Orderly) (ht : c.Timed)
    (hne : c.clusterList ≠ []) {s : Slice} {xs : List Slice} (hs : slices c.batchSize c.querySetList = xs ++ [s]) :
    (c.finished = false ∧ (c.clockTick clusterAddr w).1.finished = true) ↔
      CoreEvent.save s (c.clock + 1) ∈ (c.clockTick clusterAddr w).1.log := by
  obtain ⟨-, es, hes, hnew⟩ := clockTick_log clusterAddr c w
  obtain ⟨hw1, hw2, hw3⟩ := clockTick_work clusterAddr c w
  have hsaved : (c.clockTick clusterAddr w).1.savedSlices = c.savedSlices ++ es.filterMap CoreEvent.savedSlice := by
    rw [savedSlices, hes, List.filterMap_append]
    rfl
  have hfin := ho.finished_iff hne
  have hfin' := ho'.finished_iff (by rw [hw1]; exact hne)
  rw [hw2, hw3, hs] at hfin'
  constructor
  · rintro ⟨hf, hf'⟩
    have hmem : s ∈ c.savedSlices ++ es.filterMap CoreEvent.savedSlice := by
      rw [← hsaved, hfin'.mp hf']
      exact List.mem_append_right _ (List.mem_singleton_self s)
    rcases List.mem_append.mp hmem with hold | hnew'
    · have := (ho.finish hne).mpr ⟨s, hold, last_closing ho hne hs⟩
      rw [hf] at this
      cases this
    · obtain ⟨e, he, hes'⟩ := List.mem_filterMap.mp hnew'
      cases e with
      | save s' u =>
        have hs' : s' = s := Option.some.inj hes'
        have hu : u = c.clock + 1 := hnew _ he u rfl
        subst hs' hu
        rw [hes]
        exact List.mem_append_right _ he
      | cpm _ _ => cases hes'
      | efm _ => cases hes'
      | scm _ _ => cases hes'
  · intro hmem
    rw [hes, List.mem_append] at hmem
    have hin : CoreEvent.save s (c.clock + 1) ∈ es := by
      rcases hmem with hold | hin
      · have := ht _ hold (c.clock + 1) rfl
        omega
      · exact hin
    have hsin : s ∈ es.filterMap CoreEvent.savedSlice := List.mem_filterMap.mpr ⟨_, hin, rfl⟩
    constructor
    · -- had it been recorded before, it would be recorded twice
      rw [Bool.eq_false_iff]
      intro hf
      have hle := ho'.saved_isPrefix.length_le
      rw [hsaved, hw2, hw3, hfin.mp hf, List.length_append] at hle
      have := List.length_pos_of_mem hsin
      omega
    · refine (ho'.finish (by rw [hw1]; exact hne)).mpr ⟨s, ?_, ?_⟩
      · rw [hsaved]
        exact List.mem_append_right _ hsin
      · have hc := last_closing ho hne hs
        unfold Closing querySet at hc ⊢
        rw [hw1, hw2]
        exact hc

/-- The slices pass the three modules in order, none is lost or repeated, and
`Finished` is set with the last one. -/
theorem slices_in_order (h : Reach clusterAddr clusterList querySetList batchSize c w) (hne : clusterList ≠ [])
    (hlen : querySetList.length = clusterList.length) (hsets : ∀ set ∈ querySetList, set ≠ []) (hb : 0 < batchSize) :
    c.cpmSlices <+: slices (batchOfInt batchSize) querySetList ∧
      (c.cpmSlices = c.efmSlices ++ c.cpmSlot.toList ∧ c.efmSlices = c.scmSlices ++ c.efmSlot.toList ∧
        c.scmSlices = c.savedSlices ++ c.scmSlot.toList) ∧
      (∀ k i, c.savedSlices.countP (Slice.covers k i) ≤ 1) ∧
      (∀ s, (slices (batchOfInt batchSize) querySetList).getLast? = some s →
        ((c.isFinished = false ∧ (c.clockTick clusterAddr w).1.isFinished = true) ↔
          CoreEvent.save s (c.clock + 1) ∈ (c.clockTick clusterAddr w).1.log)) ∧
      (c.isFinished = true → ∀ k < clusterList.length, ∀ i < (querySetList.getD k []).length,
        c.savedSlices.countP (Slice.covers k i) = 1) := by
  have hpos := batchOfInt_pos hb
  have ho := reach_orderly h hlen hsets hpos
  have ho' := reach_orderly (.clockTick h) hlen hsets hpos
  obtain ⟨h1, h2, h3⟩ := reach_work h
  have hcov := fun k i => slicesFrom_covers hpos 0 querySetList k i
  have hpre : c.savedSlices <+: slices (batchOfInt batchSize) querySetList := by
    have := ho.saved_isPrefix
    rw [h2, h3] at this
    exact this
  refine ⟨?_, ⟨ho.flow 0 (by decide), ho.flow 1 (by decide), ho.flow 2 (by decide)⟩, ?_, ?_, ?_⟩
  · rw [← h2, ← h3]
    exact ⟨_, ho.sliced.fed⟩
  · intro k i
    have hle : c.savedSlices.countP (Slice.covers k i) ≤
        (slicesFrom (batchOfInt batchSize) 0 querySetList).countP (Slice.covers k i) := hpre.sublist.countP_le
    rw [hcov k i] at hle
    split at hle <;> omega
  · intro s hs
    obtain ⟨xs, hxs⟩ := List.getLast?_eq_some_iff.mp hs
    rw [← h2, ← h3] at hxs
    exact finished_in_tick ho ho' (reach_timed h) (h1 ▸ hne) hxs
  · intro hf k hk i hi
    have hall := (ho.finished_iff (h1 ▸ hne)).mp hf
    rw [h2, h3] at hall
    rw [hall]
    refine (hcov k i).trans (if_pos ⟨Nat.zero_le _, ?_, ?_⟩)
    · rw [Nat.zero_add, hlen]
      exact hk
    · exact hi

theorem reach_empty (h : Reach clusterAddr [] querySetList batchSize c w) :
    c.clusterList = [] ∧ c.finished = false ∧ c.slice = 0 ∧ c.cpmProcessingIndex = none ∧
      c.efmProcessingIndex = none ∧ c.scmProcessingIndex = none := by
  apply reach_invariant (I := fun c => c.clusterList = [] ∧ c.finished = false ∧ c.slice = 0 ∧
    c.cpmProcessingIndex = none ∧ c.efmProcessingIndex = none ∧ c.scmProcessingIndex = none) h
  · intro _ _ _ _ _
    exact ⟨rfl, rfl, rfl, rfl, rfl, rfl⟩
  · intro c w hc
    exact hc
  · intro p q hp hc
    obtain ⟨hl, -, -, h0, h1, h2⟩ := hc
    cases hp with
    | save k hk _ => exact absurd (hk.symm.trans h2) (Option.some_ne_none k)
    | scan k hk _ _ => exact absurd (hk.symm.trans h1) (Option.some_ne_none k)
    | fetch k hk _ _ _ => exact absurd (hk.symm.trans h0) (Option.some_ne_none k)
    | hand _ _ hk =>
      rw [hl] at hk
      exact absurd hk (Nat.not_lt_zero _)

end

/-- After a tick the core is finished when nothing is left to hand on and no module holds a slice. -/
def FinishedWhenDone (clusterList : List Nat) (querySetList : List (List Nat)) (batchSize : Int32) : Prop :=
  ∀ (μ : Type) [MemoryPort μ] (clusterAddr : Nat → Cluster) (c : ANNACore) (w : World μ),
    Reach clusterAddr clusterList querySetList batchSize c w →
    ((c.clockTick clusterAddr w).1.isFinished = true ↔
      (c.clockTick clusterAddr w).1.slice = clusterList.length ∧
        (c.clockTick clusterAddr w).1.cpmProcessingIndex = none ∧
        (c.clockTick clusterAddr w).1.efmProcessingIndex = none ∧
        (c.clockTick clusterAddr w).1.scmProcessingIndex = none)

def freshWorld : World (MultiMemoryInterface IdealDram) where
  memory := (((MultiMemoryInterface.new true fun _ => []).registerId 0).registerId 0).registerId 0
  testValue := TestValue.initial

theorem reach_fresh (clusterAddr : Nat → Cluster) (clusterList : List Nat) (querySetList : List (List Nat))
    (batchSize : Int32) : Reach clusterAddr clusterList querySetList batchSize
      ((new 0 1 2 0 0).setup clusterList querySetList batchSize) freshWorld :=
  .setup 0 0 freshWorld (by decide) (by decide +kernel)

theorem not_finishedWhenDone_nil (querySetList : List (List Nat)) (batchSize : Int32) :
    ¬ FinishedWhenDone [] querySetList batchSize := by
  intro hdone
  have hr := reach_fresh (fun _ => ⟨0, 0, 0⟩) [] querySetList batchSize
  obtain ⟨-, hf, hs, h0, h1, h2⟩ := reach_empty hr.clockTick
  have := (hdone _ _ _ _ hr).mpr ⟨hs, h0, h1, h2⟩
  exact absurd (hf.symm.trans this) Bool.false_ne_true

theorem finishedWhenDone_iff {clusterList : List Nat} {querySetList : List (List Nat)} {batchSize : Int32}
    (hlen : querySetList.length = clusterList.length) (hsets : ∀ set ∈ querySetList, set ≠ []) (hb : 0 < batchSize) :
    FinishedWhenDone clusterList querySetList batchSize ↔ clusterList ≠ [] := by
  constructor
  · intro hdone hnil
    subst hnil
    exact not_finishedWhenDone_nil querySetList batchSize hdone
  · intro hne μ _ clusterAddr c w h
    have ho := reach_orderly h.clockTick hlen hsets (batchOfInt_pos hb)
    have hl := (reach_work h.clockTick).1
    rw [← hl] at hne ⊢
    exact (ho.finished_iff hne).trans ho.drained_iff

theorem finishedWhenDone_single : FinishedWhenDone [0] [[0]] 1 ↔ [0] ≠ [] :=
  finishedWhenDone_iff rfl (by decide) (by decide)

theorem never_finished_without_work : ¬ FinishedWhenDone [] [] 1 := not_finishedWhenDone_nil [] 1

end ANNACore

end Anna
