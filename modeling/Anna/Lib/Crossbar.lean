import Mathlib.Algebra.BigOperators.Fin
import Mathlib.Algebra.Order.BigOperators.Group.Finset
import Mathlib.Data.List.FinRange
import Mathlib.Logic.Function.Basic

/-!
# A crossbar with batched inputs

`n` sources feed `n` destinations. An item waits in its source's input queue
with its destination, is moved by a tick to the destination's output queue
with its source, and leaves there. Whatever the other sources do, the items
from one source to one destination keep their order: `transit` is the queue
between the two, which sending extends at the back, a tick leaves unchanged,
and receiving pops at the front.
-/

namespace Anna

structure Crossbar (n : Nat) (α : Type) where
  input : Fin n → List (Fin n × α)
  output : Fin n → List (Fin n × α)

namespace Crossbar

variable {n : Nat} {α : Type}

def empty : Crossbar n α := ⟨fun _ => [], fun _ => []⟩

def send (x : Crossbar n α) (src dst : Fin n) (a : α) : Crossbar n α :=
  { x with input := Function.update x.input src (x.input src ++ [(dst, a)]) }

def move (src : Fin n) (x : Crossbar n α) : Crossbar n α :=
  match x.input src with
  | [] => x
  | (dst, a) :: q =>
    { input := Function.update x.input src q
      output := Function.update x.output dst (x.output dst ++ [(src, a)]) }

def serve (batch : Nat) (x : Crossbar n α) (src : Fin n) : Crossbar n α := (move src)^[batch] x

def tick (batch : Nat) (x : Crossbar n α) : Crossbar n α := (List.finRange n).foldl (serve batch) x

def receive (x : Crossbar n α) (dst : Fin n) : Option (Fin n × α) × Crossbar n α :=
  match x.output dst with
  | [] => (none, x)
  | e :: q => (some e, { x with output := Function.update x.output dst q })

/-- The items on their way from `src` to `dst`, oldest first. -/
def transit (x : Crossbar n α) (src dst : Fin n) : List α :=
  ((x.output dst).filter (fun e => e.1 = src)).map Prod.snd ++
    ((x.input src).filter (fun e => e.1 = dst)).map Prod.snd

@[simp] theorem transit_empty (src dst : Fin n) : transit (empty : Crossbar n α) src dst = [] := rfl

theorem transit_send (x : Crossbar n α) (src dst s d : Fin n) (a : α) :
    (x.send src dst a).transit s d = x.transit s d ++ if src = s ∧ dst = d then [a] else [] := by
  by_cases hs : src = s
  · subst hs
    by_cases hd : dst = d <;> simp [transit, send, hd]
  · simp [transit, send, hs, Function.update_of_ne (Ne.symm hs)]

theorem transit_move (x : Crossbar n α) (src s d : Fin n) : (x.move src).transit s d = x.transit s d := by
  unfold move
  split
  · rfl
  · rename_i dst a q hq
    by_cases hd : dst = d
    · subst hd
      by_cases hs : src = s
      · subst hs; simp [transit, hq]
      · simp [transit, hs, Function.update_of_ne (Ne.symm hs)]
    · by_cases hs : src = s
      · subst hs; simp [transit, hq, hd, Function.update_of_ne (Ne.symm hd)]
      · simp [transit, Function.update_of_ne (Ne.symm hd), Function.update_of_ne (Ne.symm hs)]

theorem transit_serve (batch : Nat) (x : Crossbar n α) (src s d : Fin n) :
    (x.serve batch src).transit s d = x.transit s d := by
  unfold serve
  induction batch generalizing x with
  | zero => rfl
  | succ b ih => rw [Function.iterate_succ_apply, ih, transit_move]

theorem transit_tick (batch : Nat) (x : Crossbar n α) (s d : Fin n) :
    (x.tick batch).transit s d = x.transit s d := by
  unfold tick
  induction List.finRange n generalizing x with
  | nil => rfl
  | cons src l ih => rw [List.foldl_cons, ih, transit_serve]

/-- What leaves at `dst` is the front of the queue from its source. -/
theorem receive_some {x y : Crossbar n α} {dst src : Fin n} {a : α} (h : x.receive dst = (some (src, a), y)) :
    x.transit src dst = a :: y.transit src dst ∧
      (∀ s d, ¬ (s = src ∧ d = dst) → y.transit s d = x.transit s d) ∧
      x.output dst = (src, a) :: y.output dst := by
  unfold receive at h
  split at h
  · cases h
  · rename_i e q hq
    simp only [Prod.mk.injEq, Option.some.injEq] at h
    obtain ⟨rfl, rfl⟩ := h
    refine ⟨by simp [transit, hq], fun s d hsd => ?_, by simp [hq]⟩
    by_cases hd : d = dst
    · subst hd
      have : src ≠ s := fun e => hsd ⟨e.symm, rfl⟩
      simp [transit, hq, this]
    · simp [transit, Function.update_of_ne hd]

section
variable [DecidableEq α]

def bound (x : Crossbar n α) (dst : Fin n) (a : α) : Nat := ∑ src, (x.transit src dst).count a

def sent (x : Crossbar n α) (src : Fin n) (a : α) : Nat := ∑ dst, (x.transit src dst).count a

@[simp] theorem bound_empty (dst : Fin n) (a : α) : bound (empty : Crossbar n α) dst a = 0 := by
  simp [bound]

@[simp] theorem sent_empty (src : Fin n) (a : α) : sent (empty : Crossbar n α) src a = 0 := by
  simp [sent]

theorem sent_pos {x : Crossbar n α} {src dst : Fin n} {a : α} (h : a ∈ x.transit src dst) : 0 < x.sent src a :=
  Finset.sum_pos' (fun _ _ => Nat.zero_le _) ⟨dst, Finset.mem_univ dst, List.count_pos_iff.mpr h⟩

theorem bound_send (x : Crossbar n α) (src dst d : Fin n) (a b : α) :
    (x.send src dst a).bound d b = x.bound d b + if dst = d ∧ a = b then 1 else 0 := by
  unfold bound
  simp only [transit_send, List.count_append, Finset.sum_add_distrib]
  congr 1
  by_cases hd : dst = d
  · by_cases ha : a = b
    · simp [hd, ha, apply_ite (List.count b)]
    · simp [hd, ha, apply_ite (List.count b)]
  · simp [hd]

theorem sent_send (x : Crossbar n α) (src dst s : Fin n) (a b : α) :
    (x.send src dst a).sent s b = x.sent s b + if src = s ∧ a = b then 1 else 0 := by
  unfold sent
  simp only [transit_send, List.count_append, Finset.sum_add_distrib]
  congr 1
  by_cases hs : src = s
  · by_cases ha : a = b
    · simp [hs, ha, apply_ite (List.count b)]
    · simp [hs, ha, apply_ite (List.count b)]
  · simp [hs]

theorem bound_tick (batch : Nat) (x : Crossbar n α) (d : Fin n) (a : α) :
    (x.tick batch).bound d a = x.bound d a := by
  simp only [bound, transit_tick]

theorem sent_tick (batch : Nat) (x : Crossbar n α) (s : Fin n) (a : α) :
    (x.tick batch).sent s a = x.sent s a := by
  simp only [sent, transit_tick]

theorem bound_receive {x y : Crossbar n α} {dst src : Fin n} {a : α} (h : x.receive dst = (some (src, a), y))
    (d : Fin n) (b : α) : x.bound d b = y.bound d b + if dst = d ∧ a = b then 1 else 0 := by
  obtain ⟨hfront, hrest, -⟩ := receive_some h
  unfold bound
  have hone : ∀ s, (x.transit s d).count b =
      (y.transit s d).count b + if s = src then (if dst = d ∧ a = b then 1 else 0) else 0 := by
    intro s
    by_cases hs : s = src
    · subst hs
      by_cases hd : dst = d
      · subst hd
        rw [hfront, List.count_cons]
        simp
      · rw [hrest s d fun e => hd e.2.symm]; simp [hd]
    · rw [hrest s d fun e => hs e.1]; simp [hs]
  simp only [hone, Finset.sum_add_distrib, Finset.sum_ite_eq', Finset.mem_univ, if_true]

theorem sent_receive {x y : Crossbar n α} {dst src : Fin n} {a : α} (h : x.receive dst = (some (src, a), y))
    (s : Fin n) (b : α) : x.sent s b = y.sent s b + if src = s ∧ a = b then 1 else 0 := by
  obtain ⟨hfront, hrest, -⟩ := receive_some h
  unfold sent
  have hone : ∀ d, (x.transit s d).count b =
      (y.transit s d).count b + if d = dst then (if src = s ∧ a = b then 1 else 0) else 0 := by
    intro d
    by_cases hd : d = dst
    · subst hd
      by_cases hs : src = s
      · subst hs
        rw [hfront, List.count_cons]
        simp
      · rw [hrest s d fun e => hs e.1.symm]; simp [hs]
    · rw [hrest s d fun e => hd e.2]; simp [hd]
  simp only [hone, Finset.sum_add_distrib, Finset.sum_ite_eq', Finset.mem_univ, if_true]

end

end Crossbar

end Anna
