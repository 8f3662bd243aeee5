import Anna.ComputeModules
import Mathlib.Logic.Function.Iterate

/-!
# What the compute modules count

The SCM is busy for as many ticks as it charges, and the charge is the ceiling
that `Submit` means except for an empty submission, where the subtraction
wraps.
-/

namespace Anna

/-! ## Cluster codebook processing -/

namespace ClusterCodebookProcessingModule

variable {μ : Type} [MemoryPort μ]

theorem clockTick_computing {c : ClusterCodebookProcessingModule} (hpos : 0 < c.computingRemind)
    (hle : c.computingRemind ≤ computingCycleNum) (w : World μ) :
    c.clockTick w = ({ c with
      memoryReader := (c.memoryReader.clockTick w.memory).1
      computingRemind := c.computingRemind - 1 }, { w with memory := (c.memoryReader.clockTick w.memory).2 }) := by
  unfold clockTick
  dsimp only
  rw [if_pos ⟨hle, hpos⟩]

/-- The four things a tick does: it counts down, starts to compute, reads the
next round, or waits. -/
theorem clockTick_cases (c : ClusterCodebookProcessingModule) (w : World μ) :
    let r := (c.memoryReader.clockTick w.memory).1
    let w' : World μ := { w with memory := (c.memoryReader.clockTick w.memory).2 }
    (0 < c.computingRemind ∧ c.computingRemind ≤ computingCycleNum ∧
      c.clockTick w = ({ c with memoryReader := r, computingRemind := c.computingRemind - 1 }, w')) ∨
    (r.isReady = true ∧ c.computingRemind = computingInvalidNum ∧
      c.clockTick w = ({ c with memoryReader := r.finishAndReset.2, computingRemind := computingCycleNum },
        { w' with testValue := { w.testValue with
          cpmComputingCycleCnt := w.testValue.cpmComputingCycleCnt + computingCycleNum } })) ∨
    (r.isReady = true ∧ ¬ (0 < c.computingRemind ∧ c.computingRemind ≤ computingCycleNum) ∧
      c.computingRemind ≠ computingInvalidNum ∧ c.waitAddr ≠ [] ∧
      c.clockTick w = (readRound { c with memoryReader := r.finishAndReset.2 }, w')) ∨
    (¬ (0 < c.computingRemind ∧ c.computingRemind ≤ computingCycleNum) ∧
      (r.isReady = true → c.computingRemind ≠ computingInvalidNum ∧ c.waitAddr = []) ∧
      c.clockTick w = ({ c with memoryReader := r.finishAndReset.2 }, w')) := by
  dsimp only
  by_cases hcount : 0 < c.computingRemind ∧ c.computingRemind ≤ computingCycleNum
  · exact Or.inl ⟨hcount.1, hcount.2, clockTick_computing hcount.1 hcount.2 w⟩
  · unfold clockTick
    dsimp only
    rw [MemoryReader.finishAndReset_isReady, if_neg fun h => hcount h.symm]
    by_cases hready : (c.memoryReader.clockTick w.memory).1.isReady = true
    · rw [if_pos hready]
      by_cases hinv : c.computingRemind = computingInvalidNum
      · rw [if_pos hinv]
        exact Or.inr (Or.inl ⟨hready, hinv, rfl⟩)
      · rw [if_neg hinv]
        by_cases hwait : c.waitAddr = []
        · rw [if_neg (not_not.mpr hwait)]
          exact Or.inr (Or.inr (Or.inr ⟨hcount, fun _ => ⟨hinv, hwait⟩, rfl⟩))
        · rw [if_pos hwait]
          exact Or.inr (Or.inr (Or.inl ⟨hready, hcount, hinv, hwait, rfl⟩))
    · rw [if_neg hready]
      exact Or.inr (Or.inr (Or.inr ⟨hcount, fun h => absurd h hready, rfl⟩))

theorem sound_clockTick {c : ClusterCodebookProcessingModule} {w : World μ} (h : c.memoryReader.Sound w.memory) :
    (c.clockTick w).1.memoryReader.Sound (c.clockTick w).2.memory := by
  have ht := h.clockTick
  obtain ⟨-, -, heq⟩ | ⟨-, -, heq⟩ | ⟨-, -, -, -, heq⟩ | ⟨-, -, heq⟩ := clockTick_cases c w
  · rw [heq]; exact ht
  · rw [heq]; exact ht.finishAndReset
  · rw [heq]; exact ht.finishAndReset.submitAll (fun addr => (addr, UInt64.ofNat vectorSize)) _
  · rw [heq]; exact ht.finishAndReset

end ClusterCodebookProcessingModule

/-! ## Similarity computation -/

namespace SimilarityComputationModule

theorem toNat_pos {n : UInt64} (h : n ≠ 0) : 0 < n.toNat :=
  Nat.pos_of_ne_zero fun h0 => h (UInt64.toNat_inj.mp (h0.trans UInt64.toNat_zero.symm))

theorem toNat_pred {n : UInt64} (h : n ≠ 0) : (n - 1).toNat = n.toNat - 1 :=
  UInt64.toNat_sub_of_le _ _ (by rw [UInt64.le_iff_toNat_le]; exact toNat_pos h)

theorem clockTick_remind (s : SimilarityComputationModule) :
    s.clockTick.computingRemind.toNat = s.computingRemind.toNat - 1 := by
  unfold clockTick
  split
  · rename_i h
    exact toNat_pred h
  · rename_i h
    simp only [ne_eq, not_not] at h
    simp [h]

theorem iterate_remind (s : SimilarityComputationModule) (j : Nat) :
    (clockTick^[j] s).computingRemind.toNat = s.computingRemind.toNat - j := by
  induction j generalizing s with
  | zero => rfl
  | succ j ih => rw [Function.iterate_succ_apply, ih, clockTick_remind]; omega

theorem isReady_iff (s : SimilarityComputationModule) : s.isReady = true ↔ s.computingRemind.toNat = 0 := by
  rw [isReady, beq_iff_eq, ← UInt64.toNat_inj, UInt64.toNat_zero]

/-- The module is ready after `k` ticks and not before. -/
def ReadyAfter (s : SimilarityComputationModule) (k : Nat) : Prop :=
  (∀ j < k, (clockTick^[j] s).isReady = false) ∧ (clockTick^[k] s).isReady = true

theorem readyAfter_iff (s : SimilarityComputationModule) (k : Nat) :
    s.ReadyAfter k ↔ s.computingRemind.toNat = k := by
  unfold ReadyAfter
  simp only [← Bool.not_eq_true, isReady_iff, iterate_remind]
  constructor
  · rintro ⟨hbefore, hready⟩
    by_contra hne
    exact hbefore s.computingRemind.toNat (by omega) (by omega)
  · rintro rfl
    exact ⟨fun j hj => by omega, by omega⟩

/-- What a submission of `n` vectors means to take. -/
def cyclesFor (n : Nat) : Nat := scmCyclesPerQuery * ((n + nScm - 1) / nScm)

theorem submit_remind (s : SimilarityComputationModule) (n : UInt64) (t : TestValue) :
    (s.submit n t).1.computingRemind.toNat = if n = 0 then 1 + (2 ^ 64 - 1) / nScm else cyclesFor n.toNat := by
  have hval : (s.submit n t).1.computingRemind.toNat = 1 + (n - 1).toNat / 36 := by
    have hdiv : (n - 1).toNat / 36 < 2 ^ 64 - 1 := by have := (n - 1).toNat_lt; omega
    simp only [submit, scmCyclesPerQuery, subVectorNum, nU, nScm, UInt64.toNat_mul, UInt64.toNat_add, UInt64.toNat_div]
    simp
    omega
  rw [hval]
  split
  · rename_i h
    subst h
    decide
  · rename_i h
    have hpos := toNat_pos h
    rw [toNat_pred h]
    simp only [cyclesFor, scmCyclesPerQuery, subVectorNum, nU, nScm]
    omega

theorem toNat_mul_ofNat {vectorNum : UInt64} {queries : Nat} (h : vectorNum.toNat * queries < 2 ^ 64) :
    (vectorNum * UInt64.ofNat queries).toNat = vectorNum.toNat * queries := by
  rw [UInt64.toNat_mul]
  rcases Nat.eq_zero_or_pos vectorNum.toNat with h0 | h0
  · simp [h0]
  · have hq : queries < 2 ^ 64 := lt_of_le_of_lt (Nat.le_mul_of_pos_left queries h0) h
    rw [UInt64.toNat_ofNat_of_lt' hq, Nat.mod_eq_of_lt h]

/-- The submission takes what it means to take, and charges it, unless there
is no vector or no query. -/
theorem submit_readyAfter_iff (s : SimilarityComputationModule) (t : TestValue) (vectorNum : UInt64) (queries : Nat)
    (h : vectorNum.toNat * queries < 2 ^ 64) :
    ((s.submit (vectorNum * UInt64.ofNat queries) t).1.ReadyAfter (cyclesFor (vectorNum.toNat * queries)) ∧
      (s.submit (vectorNum * UInt64.ofNat queries) t).2.scmComputingCycleCnt =
        t.scmComputingCycleCnt + cyclesFor (vectorNum.toNat * queries)) ↔
      vectorNum ≠ 0 ∧ queries ≠ 0 := by
  have hn := toNat_mul_ofNat h
  have hzero : vectorNum * UInt64.ofNat queries = 0 ↔ ¬ (vectorNum ≠ 0 ∧ queries ≠ 0) := by
    rw [← UInt64.toNat_inj, hn, UInt64.toNat_zero, Nat.mul_eq_zero, ← UInt64.toNat_zero, UInt64.toNat_inj]
    tauto
  have hcharge : (s.submit (vectorNum * UInt64.ofNat queries) t).2.scmComputingCycleCnt =
      t.scmComputingCycleCnt + (s.submit (vectorNum * UInt64.ofNat queries) t).1.computingRemind.toNat := rfl
  rw [readyAfter_iff, hcharge, submit_remind, hn]
  by_cases hne : vectorNum ≠ 0 ∧ queries ≠ 0
  · have hsome : vectorNum * UInt64.ofNat queries ≠ 0 := fun h0 => hzero.mp h0 hne
    simp [hsome, hne]
  · have hnone := hzero.mpr hne
    have hprod : vectorNum.toNat * queries = 0 := by rw [← hn, hnone, UInt64.toNat_zero]
    -- the wrapped quotient is not the empty submission's zero
    have hwrap : 1 + (2 ^ 64 - 1) / nScm ≠ cyclesFor 0 := by decide
    rw [if_pos hnone, hprod]
    exact iff_of_false (fun hready => hwrap hready.1) hne

theorem submit_readyAfter_two :
    ((new.submit (100 * UInt64.ofNat 2) .initial).1.ReadyAfter (cyclesFor 200) ∧
      (new.submit (100 * UInt64.ofNat 2) .initial).2.scmComputingCycleCnt = 0 + cyclesFor 200) ↔
      (100 : UInt64) ≠ 0 ∧ 2 ≠ 0 :=
  submit_readyAfter_iff new .initial 100 2 (by decide)

/-- An empty cluster should take no tick, and keeps the module busy for `512409557603043101`. -/
theorem submit_empty_busy :
    new.isReady = true ∧ (0 : UInt64).toNat * 1 < 2 ^ 64 ∧ cyclesFor ((0 : UInt64).toNat * 1) = 0 ∧
      ¬ ((new.submit (0 * UInt64.ofNat 1) .initial).1.ReadyAfter (cyclesFor ((0 : UInt64).toNat * 1)) ∧
        (new.submit (0 * UInt64.ofNat 1) .initial).2.scmComputingCycleCnt =
          TestValue.initial.scmComputingCycleCnt + cyclesFor ((0 : UInt64).toNat * 1)) ∧
      (new.submit (0 * UInt64.ofNat 1) .initial).1.ReadyAfter 512409557603043101 := by
  refine ⟨rfl, by decide, by decide, fun h => ?_, ?_⟩
  · exact absurd ((readyAfter_iff _ _).mp h.1) (by decide)
  · exact (readyAfter_iff _ _).mpr (by decide)

end SimilarityComputationModule

end Anna
