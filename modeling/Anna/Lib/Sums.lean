import Mathlib.Algebra.BigOperators.Group.List.Basic
import Mathlib.Algebra.Ring.Nat

/-!
# Sums that change at one place
-/

namespace Anna

section
variable {α : Type} {l : List α} {f g : α → Nat} {a : α}

/-- A sum over different places changes by as much as the value at the one place that changes. -/
theorem sum_map_single [DecidableEq α] (hl : l.Nodup) (ha : a ∈ l) (h : ∀ b ∈ l, b ≠ a → g b = f b) :
    (l.map g).sum + f a = (l.map f).sum + g a := by
  have hrest : ((l.erase a).map g).sum = ((l.erase a).map f).sum := by
    refine congrArg List.sum (List.map_congr_left fun b hb => ?_)
    obtain ⟨hne, hmem⟩ := hl.mem_erase_iff.mp hb
    exact h b hmem hne
  have hperm := List.perm_cons_erase ha
  have hf := (hperm.map f).sum_nat
  have hg := (hperm.map g).sum_nat
  rw [List.map_cons, List.sum_cons] at hf hg
  omega

theorem countP_single [DecidableEq α] {p q : α → Bool} (hl : l.Nodup) (ha : a ∈ l) (hp : p a = true)
    (hq : q a = false) (h : ∀ b ∈ l, b ≠ a → q b = p b) : l.countP q + 1 = l.countP p := by
  have hrest : (l.erase a).countP q = (l.erase a).countP p := by
    refine List.countP_congr fun b hb => ?_
    obtain ⟨hne, hmem⟩ := hl.mem_erase_iff.mp hb
    rw [h b hmem hne]
  have hperm := List.perm_cons_erase ha
  rw [hperm.countP_eq q, hperm.countP_eq p, List.countP_cons_of_neg (by simp [hq]), List.countP_cons_of_pos hp, hrest]

end

end Anna
