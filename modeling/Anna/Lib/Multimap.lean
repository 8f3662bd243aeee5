import Mathlib.Data.List.Basic
import Mathlib.Data.List.Count

/-!
# Multimaps as lists of entries

A multimap keeps its entries in the order of insertion. `find?` and `erase`
use the oldest entry of a key, so the values of one key form a queue
(`vals_insert`, `vals_erase`); `tagged` counts the entries of one value.
-/

namespace Anna

abbrev Multimap (κ ν : Type) := List (κ × ν)

namespace Multimap

variable {κ ν : Type} [DecidableEq κ] [DecidableEq ν]

def insert (m : Multimap κ ν) (k : κ) (v : ν) : Multimap κ ν := m ++ [(k, v)]

def find? (m : Multimap κ ν) (k : κ) : Option ν := (List.find? (fun e => e.1 = k) m).map Prod.snd

def erase (m : Multimap κ ν) (k : κ) : Multimap κ ν := m.eraseP (fun e => e.1 = k)

def vals (m : Multimap κ ν) (k : κ) : List ν := (m.filter (fun e => e.1 = k)).map Prod.snd

def keyCount (m : Multimap κ ν) (k : κ) : Nat := (m.vals k).length

def tagged (m : Multimap κ ν) (v : ν) : Nat := m.countP (fun e => e.2 = v)

omit [DecidableEq ν]

@[simp] theorem vals_nil (k : κ) : vals ([] : Multimap κ ν) k = [] := rfl

theorem vals_cons (e : κ × ν) (m : Multimap κ ν) (k : κ) :
    vals (e :: m) k = if e.1 = k then e.2 :: vals m k else vals m k := by
  by_cases h : e.1 = k <;> simp [vals, h]

theorem vals_insert (m : Multimap κ ν) (k k' : κ) (v : ν) :
    vals (m.insert k v) k' = vals m k' ++ if k = k' then [v] else [] := by
  by_cases h : k = k' <;> simp [vals, insert, h]

theorem find?_cons (e : κ × ν) (m : Multimap κ ν) (k : κ) :
    find? (e :: m) k = if e.1 = k then some e.2 else find? m k := by
  by_cases h : e.1 = k <;> simp [find?, h]

theorem find?_eq_head (m : Multimap κ ν) (k : κ) : find? m k = (vals m k).head? := by
  induction m with
  | nil => rfl
  | cons e m ih =>
    rw [find?_cons, vals_cons]
    by_cases h : e.1 = k <;> simp [h, ih]

theorem erase_cons (e : κ × ν) (m : Multimap κ ν) (k : κ) :
    erase (e :: m) k = if e.1 = k then m else e :: erase m k := by
  by_cases h : e.1 = k <;> simp [erase, h]

theorem vals_erase (m : Multimap κ ν) (k k' : κ) :
    vals (m.erase k) k' = if k = k' then (vals m k').tail else vals m k' := by
  induction m with
  | nil => simp [erase]
  | cons e m ih =>
    rw [erase_cons, vals_cons]
    by_cases h : e.1 = k
    · by_cases hk : k = k'
      · subst hk; simp [h]
      · have : e.1 ≠ k' := fun e => hk (h ▸ e)
        simp [h, hk]
    · rw [if_neg h, vals_cons, ih]
      by_cases hk : k = k'
      · subst hk; simp [h]
      · simp [hk]

theorem find?_isSome_iff (m : Multimap κ ν) (k : κ) : (find? m k).isSome ↔ 0 < keyCount m k := by
  rw [find?_eq_head, keyCount]
  cases vals m k <;> simp

theorem keyCount_insert (m : Multimap κ ν) (k k' : κ) (v : ν) :
    keyCount (m.insert k v) k' = keyCount m k' + if k = k' then 1 else 0 := by
  unfold keyCount
  rw [vals_insert, List.length_append]
  by_cases h : k = k' <;> simp [h]

theorem keyCount_erase (m : Multimap κ ν) (k k' : κ) :
    keyCount (m.erase k) k' = keyCount m k' - if k = k' then 1 else 0 := by
  unfold keyCount
  rw [vals_erase]
  by_cases h : k = k' <;> simp [h]

theorem eq_nil_of_keyCount {m : Multimap κ ν} (h : ∀ k, keyCount m k = 0) : m = [] := by
  cases m with
  | nil => rfl
  | cons e m =>
    have hzero := h e.1
    rw [keyCount, vals_cons] at hzero
    simp at hzero

/-- Without one of its keys a multimap keeps the values of the others. -/
theorem vals_filter_ne (m : Multimap κ ν) (k k' : κ) :
    vals (m.filter fun e => e.1 ≠ k) k' = if k = k' then [] else vals m k' := by
  by_cases h : k = k'
  · subst h
    simp [vals, List.filter_filter]
  · rw [if_neg h, vals, vals, List.filter_filter]
    congr 1
    refine List.filter_congr fun e _ => ?_
    by_cases he : e.1 = k'
    · simp [he, Ne.symm h]
    · simp [he]

theorem keyCount_filter_ne (m : Multimap κ ν) (k k' : κ) :
    keyCount (m.filter fun e => e.1 ≠ k) k' = if k = k' then 0 else keyCount m k' := by
  unfold keyCount
  rw [vals_filter_ne]
  split <;> rfl

theorem filter_ne_erase (m : Multimap κ ν) (k : κ) :
    (m.erase k).filter (fun e => e.1 ≠ k) = m.filter fun e => e.1 ≠ k := by
  induction m with
  | nil => rfl
  | cons e m ih =>
    rw [erase_cons]
    by_cases h : e.1 = k
    · simp [h]
    · rw [if_neg h, List.filter_cons, List.filter_cons, ih]

variable [DecidableEq ν]

omit [DecidableEq κ] in
theorem tagged_insert (m : Multimap κ ν) (k : κ) (v w : ν) :
    tagged (m.insert k v) w = tagged m w + if v = w then 1 else 0 := by
  by_cases h : v = w <;> simp [tagged, insert, h]

theorem tagged_erase {m : Multimap κ ν} {k : κ} {v : ν} (h : find? m k = some v) (w : ν) :
    tagged (m.erase k) w + (if v = w then 1 else 0) = tagged m w := by
  induction m with
  | nil => simp [find?] at h
  | cons e m ih =>
    rw [find?_cons] at h
    rw [erase_cons]
    by_cases hk : e.1 = k
    · rw [if_pos hk, Option.some.injEq] at h
      subst h
      simp [hk, tagged, List.countP_cons]
    · rw [if_neg hk] at h ⊢
      have := ih h
      simp only [tagged, List.countP_cons] at this ⊢
      omega

end Multimap

end Anna
