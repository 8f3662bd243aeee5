import Mathlib.Algebra.GroupWithZero.Nat
import Mathlib.Order.Basic

/-!
# Reaching a goal

`Within R G n a`: every path of `R`-steps from `a` meets the goal `G` after at
most `n` of them. Paths that end earlier are not excluded; the relation is
meant to be total where the rules are used. Where no such bound is at hand,
two ranks do, also for many parties that step together.
-/

namespace Anna

inductive Within {α : Type} (R : α → α → Prop) (G : α → Prop) : Nat → α → Prop
  | here {n : Nat} {a : α} : G a → Within R G n a
  | next {n : Nat} {a : α} : (∀ b, R a b → Within R G n b) → Within R G (n + 1) a

namespace Within

variable {α : Type} {R : α → α → Prop} {G : α → Prop} {n : Nat} {a : α}

/-- A rank that falls until the goal is met. -/
theorem rank {I : α → Prop} {f : α → Nat} (hstep : ∀ a b, I a → R a b → G b ∨ I b ∧ f b < f a) :
    ∀ {n : Nat} {a : α}, I a → f a < n → Within R G n a := by
  intro n
  induction n with
  | zero => intro a _ hlt; exact absurd hlt (Nat.not_lt_zero _)
  | succ n ih =>
    intro a ha hlt
    apply Within.next
    intro b hab
    rcases hstep a b ha hab with hg | ⟨hb, hfall⟩
    · exact .here hg
    · exact ih hb (Nat.lt_of_lt_of_le hfall (Nat.le_of_lt_succ hlt))

theorem exists_goal {I : α → Prop} (htotal : ∀ a, I a → ∃ b, I b ∧ R a b) (h : Within R G n a) (ha : I a) :
    ∃ b, I b ∧ G b := by
  induction h with
  | here hg => exact ⟨_, ha, hg⟩
  | next _ ih =>
    obtain ⟨b, hb, hab⟩ := htotal _ ha
    exact ih b hab hb

end Within

/-! ## Two ranks -/

section
variable {α : Type} {f : α → Nat}

/-- A goal that each step carries back is met if the steps lower two ranks, the first before the second. -/
theorem goal_of_ranks {g : α → Nat} {I E : α → Prop}
    (hstep : ∀ a, I a → E a ∨ ∃ b, I b ∧ (E b → E a) ∧ (f b < f a ∨ f b = f a ∧ g b < g a)) (a : α) (ha : I a) :
    E a := by
  rcases hstep a ha with he | ⟨b, hb, hback, hfall⟩
  · exact he
  · exact hback (goal_of_ranks hstep b hb)
termination_by (f a, g a)
decreasing_by
  rcases hfall with hlt | ⟨heq, hlt⟩
  · exact Prod.Lex.left _ _ hlt
  · rw [heq]
    exact Prod.Lex.right _ hlt

/-- In a step from `cs` to `ds` every party lowers its first rank, or keeps it and lowers the second, which looks at two
states in a row; a party whose second rank is used up is done. Then the sums fall as well, or all are done. -/
theorem ranks_fall {g : α → α → Nat} {D : α → Prop} : ∀ {as cs ds : List α}, ds.length = cs.length →
    (∀ (i : Nat) d, ds[i]? = some d → ∃ a c, as[i]? = some a ∧ cs[i]? = some c ∧
      (f d < f c ∨ f d = f c ∧ g c d ≤ g a c - 1 ∧ (g a c = 0 → D d))) →
    (ds.map f).sum < (cs.map f).sum ∨ (ds.map f).sum = (cs.map f).sum ∧
      ((cs.zipWith g ds).sum < (as.zipWith g cs).sum ∨
        (cs.zipWith g ds).sum = (as.zipWith g cs).sum ∧ ∀ d ∈ ds, D d) := by
  intro as cs ds
  induction ds generalizing as cs with
  | nil =>
    intro hlen _
    obtain rfl := List.eq_nil_of_length_eq_zero hlen.symm
    refine Or.inr ⟨rfl, Or.inr ⟨by simp, ?_⟩⟩
    intro d hd
    cases hd
  | cons d ds ih =>
    intro hlen h
    obtain ⟨a, c, ha, hc, hd⟩ := h 0 d rfl
    cases cs with
    | nil => cases hc
    | cons c' cs =>
      cases as with
      | nil => cases ha
      | cons a' as =>
        obtain rfl := Option.some.inj hc
        obtain rfl := Option.some.inj ha
        have hrest := ih (Nat.succ.inj hlen) fun i e he => h (i + 1) e he
        simp only [List.map_cons, List.sum_cons, List.zipWith_cons_cons, List.mem_cons, forall_eq_or_imp]
        rcases hrest with hlt | ⟨heq, hlt | ⟨hsame, hall⟩⟩
        · omega
        · omega
        · by_cases hz : g a' c' = 0
          · rcases hd with hf | ⟨hf, hg, hdone⟩
            · omega
            · exact Or.inr ⟨by omega, Or.inr ⟨by omega, hdone hz, hall⟩⟩
          · omega

end

end Anna
