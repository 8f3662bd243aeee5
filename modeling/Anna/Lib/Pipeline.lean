import Mathlib.Data.List.Infix
import Mathlib.Logic.Function.Basic
import Mathlib.Logic.Relation

/-!
# Pipelines of one-item stages

`n` stages in a row hold at most one item each. `entered i` lists what has
entered stage `i` in order, `entered n` what has left the last stage. An item
moves on only into an empty stage, so no stage drops, repeats or reorders.
-/

namespace Anna

@[ext] structure Pipeline (α : Type) where
  entered : Nat → List α
  slot : Nat → Option α

namespace Pipeline

variable {α : Type} {n : Nat} {p q : Pipeline α}

def enter (p : Pipeline α) (i : Nat) (x : α) : Pipeline α where
  entered := Function.update p.entered i (p.entered i ++ [x])
  slot := Function.update p.slot i (some x)

def leave (p : Pipeline α) (i : Nat) : Pipeline α := { p with slot := Function.update p.slot i none }

/-- An item is fed into the first stage, moves from stage `i` to the next, or leaves the last stage. -/
inductive Step (n : Nat) : Pipeline α → Pipeline α → Prop
  | feed {p : Pipeline α} (x : α) : 0 < n → p.slot 0 = none → Step n p (p.enter 0 x)
  | advance {p : Pipeline α} (i : Nat) (x : α) : i + 1 < n → p.slot i = some x → p.slot (i + 1) = none →
      Step n p ((p.leave i).enter (i + 1) x)
  | exit {p : Pipeline α} (i : Nat) (x : α) : i + 1 = n → p.slot i = some x →
      Step n p { p.leave i with entered := Function.update p.entered (i + 1) (p.entered (i + 1) ++ [x]) }

/-- What entered a stage has entered the next one, but for the item it holds. -/
def Flow (n : Nat) (p : Pipeline α) : Prop := ∀ i < n, p.entered i = p.entered (i + 1) ++ (p.slot i).toList

theorem flow_step (h : Step n p q) (hf : Flow n p) : Flow n q := by
  intro i hi
  have hi' := hf i hi
  cases h with
  | feed x _ hs =>
    by_cases h0 : i = 0
    · subst h0
      rw [hs] at hi'
      simp only [enter, Function.update_self, Function.update_of_ne (Nat.succ_ne_zero 0)]
      rw [hi']
      simp
    · simp only [enter, Function.update_of_ne h0, Function.update_of_ne (Nat.succ_ne_zero i)]
      exact hi'
  | advance j x hj hs hn =>
    by_cases hij : i = j
    · subst hij
      rw [hs] at hi'
      simp [enter, leave, hi']
    · by_cases hij' : i = j + 1
      · subst hij'
        rw [hn] at hi'
        simp [enter, leave, hi']
      · have h1 : i + 1 ≠ j + 1 := fun e => hij (Nat.succ.inj e)
        simp only [enter, leave, Function.update_of_ne hij, Function.update_of_ne hij', Function.update_of_ne h1]
        exact hi'
  | exit j x hj hs =>
    by_cases hij : i = j
    · subst hij
      rw [hs] at hi'
      simp [leave, hi']
    · have h1 : i + 1 ≠ j + 1 := fun e => hij (Nat.succ.inj e)
      have h2 : i ≠ j + 1 := by omega
      simp only [leave, Function.update_of_ne hij, Function.update_of_ne h1, Function.update_of_ne h2]
      exact hi'

theorem Flow.entered_isPrefix (hf : Flow n p) {i j : Nat} (hij : i ≤ j) (hj : j ≤ n) : p.entered j <+: p.entered i := by
  induction j, hij using Nat.le_induction with
  | base => exact List.prefix_rfl
  | succ j hij ih =>
    apply List.IsPrefix.trans _ (ih (by omega))
    rw [hf j (by omega)]
    exact List.prefix_append _ _

theorem Flow.drained (hf : Flow n p) (h : ∀ i < n, p.slot i = none) : p.entered n = p.entered 0 := by
  have hall : ∀ i ≤ n, p.entered i = p.entered 0 := by
    intro i
    induction i with
    | zero => intro _; rfl
    | succ i ih =>
      intro hi
      have := hf i (by omega)
      rw [h i (by omega), Option.toList_none, List.append_nil] at this
      rw [← this]
      exact ih (by omega)
  exact hall n (Nat.le_refl n)

end Pipeline

end Anna
