import Mathlib.Data.List.Basic
import Mathlib.Data.List.Pairwise

/-!
# Cutting a range into chunks

`chunksFrom b n l` cuts `[l, n)` into pieces of width `b`, the last one
shorter if need be: the pieces follow each other, and every position lies in
one of them.
-/

namespace Anna

def chunksFrom (b n l : Nat) : List (Nat × Nat) :=
  if l < n ∧ 0 < b then (l, min (l + b) n) :: chunksFrom b n (l + b) else []
termination_by n - l

variable {b n l : Nat}

theorem chunksFrom_cons (hl : l < n) (hb : 0 < b) :
    chunksFrom b n l = (l, min (l + b) n) :: chunksFrom b n (l + b) := by
  rw [chunksFrom, if_pos ⟨hl, hb⟩]

theorem chunksFrom_nil (hl : n ≤ l) : chunksFrom b n l = [] := by
  rw [chunksFrom, if_neg (by omega)]

theorem chunksFrom_bounds {p : Nat × Nat} (h : p ∈ chunksFrom b n l) : l ≤ p.1 ∧ p.1 < p.2 ∧ p.2 ≤ n := by
  induction l using chunksFrom.induct (b := b) (n := n) with
  | case1 l hl ih =>
    rw [chunksFrom_cons hl.1 hl.2, List.mem_cons] at h
    rcases h with rfl | h
    · simp only [Nat.le_refl, true_and]; omega
    · have := ih h; omega
  | case2 l hl => rw [chunksFrom, if_neg hl] at h; cases h

theorem chunksFrom_sorted : (chunksFrom b n l).Pairwise fun p q => p.2 ≤ q.1 := by
  induction l using chunksFrom.induct (b := b) (n := n) with
  | case1 l hl ih =>
    rw [chunksFrom_cons hl.1 hl.2, List.pairwise_cons]
    refine ⟨fun q hq => ?_, ih⟩
    have := (chunksFrom_bounds hq).1
    show min (l + b) n ≤ q.1
    omega
  | case2 l hl => rw [chunksFrom, if_neg hl]; exact List.Pairwise.nil

theorem chunksFrom_covers (hb : 0 < b) (i : Nat) :
    (chunksFrom b n l).countP (fun p => decide (p.1 ≤ i) && decide (i < p.2)) = if l ≤ i ∧ i < n then 1 else 0 := by
  induction l using chunksFrom.induct (b := b) (n := n) with
  | case1 l hl ih =>
    rw [chunksFrom_cons hl.1 hb, List.countP_cons, ih]
    by_cases h1 : l + b ≤ i
    · have h2 : ¬ i < min (l + b) n := by omega
      have h3 : l ≤ i := by omega
      simp only [h1, h2, h3, decide_true, decide_false, Bool.and_false, true_and, Bool.false_eq_true, if_false,
        Nat.add_zero]
    · have h2 : ¬ (l + b ≤ i ∧ i < n) := fun h => h1 h.1
      rw [if_neg h2]
      by_cases h3 : l ≤ i
      · by_cases h4 : i < n
        · have h5 : i < min (l + b) n := by omega
          simp only [h3, h4, h5, decide_true, Bool.and_self, and_self, if_true]
        · have h5 : ¬ i < min (l + b) n := by omega
          simp [h4, h5]
      · simp [h3]
  | case2 l hl =>
    rw [chunksFrom, if_neg hl]
    have : ¬ (l ≤ i ∧ i < n) := by omega
    rw [if_neg this]
    rfl

end Anna
