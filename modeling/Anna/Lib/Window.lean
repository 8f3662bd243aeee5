import Mathlib.Data.List.Basic
import Mathlib.Order.Basic

/-!
# Windows of events

A window keeps, oldest first, when the latest events expire. An event enters
only if the window has less than `n` entries or its front has expired; one
expired front leaves with each event that enters. So of any `n + 1` events in
a row the first has expired when the last one enters.
-/

namespace Anna

namespace Window

variable {α : Type} [Preorder α] [DecidableLE α]

/-- The window after an event at time `t` that expires at `e`. -/
def slide (window : List α) (t e : α) : List α :=
  (match window with
    | [] => []
    | front :: rest => if front ≤ t then rest else front :: rest) ++ [e]

/-- An event may enter at time `t`. -/
def Admits (n : Nat) (window : List α) (t : α) : Prop := n ≤ window.length → ∀ front ∈ window.head?, front ≤ t

/-- The events that have entered, each with the time at which it expires, and the window they leave. -/
inductive Slides (n : Nat) : List (α × α) → List α → Prop
  | nil : Slides n [] []
  | snoc {events window t e} : Slides n events window → Admits n window t → (∀ x ∈ events, x.1 ≤ t) →
      Slides n (events ++ [(t, e)]) (slide window t e)

variable {n : Nat} {events : List (α × α)} {window : List α}

/-- What has left the window had expired at the time of an event, and the window never has more than `n` entries. -/
theorem Slides.left (hn : 0 < n) (h : Slides n events window) : window.length ≤ n ∧
    ∃ gone, events.map Prod.snd = gone ++ window ∧ ∀ e ∈ gone, ∃ x ∈ events, e ≤ x.1 := by
  induction h with
  | nil => exact ⟨Nat.zero_le _, [], rfl, fun _ h => absurd h List.not_mem_nil⟩
  | @snoc events window t e _ hadmits _ ih =>
    obtain ⟨hlen, gone, hgone, hexpired⟩ := ih
    have hmap : (events ++ [(t, e)]).map Prod.snd = gone ++ (window ++ [e]) := by
      rw [List.map_append, hgone, List.append_assoc]
      rfl
    have hold : ∀ e' ∈ gone, ∃ x ∈ events ++ [(t, e)], e' ≤ x.1 := by
      intro e' he'
      obtain ⟨x, hx, hle⟩ := hexpired e' he'
      exact ⟨x, List.mem_append_left _ hx, hle⟩
    cases window with
    | nil => exact ⟨hn, gone, hmap, hold⟩
    | cons front rest =>
      unfold slide
      dsimp only
      split
      · rename_i hfront
        refine ⟨?_, gone ++ [front], ?_, ?_⟩
        · simpa using hlen
        · rw [hmap]
          simp
        · intro e' he'
          rcases List.mem_append.mp he' with he' | he'
          · exact hold e' he'
          · rw [List.mem_singleton.mp he']
            exact ⟨(t, e), List.mem_append_right _ List.mem_cons_self, hfront⟩
      · rename_i hfront
        have hroom : ¬ n ≤ (front :: rest).length := fun hfull => hfront (hadmits hfull front rfl)
        refine ⟨?_, gone, hmap, hold⟩
        rw [List.length_append]
        exact Nat.lt_of_not_le hroom

/-- Of `n + 1` events in a row the first has expired when the last one enters. -/
theorem Slides.expired (hn : 0 < n) (h : Slides n events window) {before between after : List (α × α)} {x y : α × α}
    (hevents : events = before ++ x :: (between ++ y :: after)) (hlen : n ≤ between.length + 1) : x.2 ≤ y.1 := by
  induction h generalizing after with
  | nil => simp at hevents
  | @snoc events window t e h hadmits hlast ih =>
    rcases List.eq_nil_or_concat after with rfl | ⟨after, z, rfl⟩
    · -- the last event is the one that enters
      have hsplit : events ++ [(t, e)] = (before ++ x :: between) ++ [y] := by
        rw [hevents]
        simp
      obtain ⟨rfl, hy⟩ := List.append_inj' hsplit rfl
      obtain rfl := (List.cons.inj hy).1
      obtain ⟨hwindow, gone, hgone, hexpired⟩ := h.left hn
      have hmem : x.2 ∈ gone ∨ window.length = n ∧ window.head? = some x.2 := by
        rw [List.map_append, List.map_cons, List.append_eq_append_iff] at hgone
        rcases hgone with ⟨as, has, hrest⟩ | ⟨cs, hcs, hrest⟩
        · cases as with
          | nil =>
            refine Or.inr ?_
            rw [List.nil_append] at hrest
            rw [← hrest] at hwindow ⊢
            simp only [List.length_cons, List.length_map] at hwindow ⊢
            exact ⟨by omega, rfl⟩
          | cons a as =>
            refine Or.inl ?_
            rw [List.cons_append] at hrest
            rw [has, (List.cons.inj hrest).1]
            exact List.mem_append_right _ List.mem_cons_self
        · refine Or.inr ?_
          rw [hrest] at hwindow ⊢
          simp only [List.length_append, List.length_cons, List.length_map] at hwindow ⊢
          have hcs : cs = [] := List.eq_nil_of_length_eq_zero (by omega)
          subst hcs
          exact ⟨by simp at hwindow ⊢; omega, rfl⟩
      rcases hmem with hmem | ⟨hfull, hhead⟩
      · obtain ⟨z, hz, hle⟩ := hexpired x.2 hmem
        exact le_trans hle (hlast z hz)
      · exact hadmits (Nat.le_of_eq hfull.symm) x.2 hhead
    · have hsplit : events ++ [(t, e)] = (before ++ x :: (between ++ y :: after)) ++ [z] := by
        rw [hevents]
        simp
      exact ih (List.append_inj' hsplit rfl).1

end Window

end Anna
