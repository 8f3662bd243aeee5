import Mathlib.Data.List.TakeWhile

/-!
# Records of a text

A reader takes a text record by record: a record reaches up to the next
delimiter, or to the end of the text. A delimiter at the very end ends the
last record and begins none, which is all that sets the records apart from
`List.splitOn`; one who skips empty records does not see it.
-/

namespace Anna

section
variable {α : Type} [DecidableEq α] (d : α)

/-- The next record and the text after its delimiter, `none` at the end of the text. -/
def getline (text : List α) : Option (List α × List α) :=
  if text = [] then none else some (text.takeWhile (· ≠ d), (text.dropWhile (· ≠ d)).tail)

variable {d}

theorem getline_some {text line rest : List α} (h : getline d text = some (line, rest)) :
    d ∉ line ∧ (text = line ++ d :: rest ∨ text = line ∧ line ≠ [] ∧ rest = []) := by
  unfold getline at h
  split at h
  · cases h
  · rename_i hne
    obtain ⟨rfl, rfl⟩ := Prod.mk.inj (Option.some.inj h)
    have hcut := List.takeWhile_append_dropWhile (p := fun c => decide (c ≠ d)) (l := text)
    refine ⟨fun hmem => ?_, ?_⟩
    · have := List.mem_takeWhile_imp hmem
      simp at this
    · cases hdrop : text.dropWhile (fun c => decide (c ≠ d)) with
      | nil =>
        rw [hdrop, List.append_nil] at hcut
        exact Or.inr ⟨hcut.symm, by rw [hcut]; exact hne, rfl⟩
      | cons c rest =>
        have hc : c = d := by
          have := List.head?_dropWhile_not (fun c => decide (c ≠ d)) text
          rw [hdrop] at this
          simpa using this
        rw [hdrop, hc] at hcut
        exact Or.inl hcut.symm

theorem getline_length {text line rest : List α} (h : getline d text = some (line, rest)) :
    rest.length < text.length := by
  rcases (getline_some h).2 with htext | ⟨htext, hne, hrest⟩
  · rw [htext, List.length_append, List.length_cons]
    omega
  · rw [htext, hrest]
    exact List.length_pos_iff.mpr hne

variable (d) in
/-- What a loop over `getline` reads. -/
def records (text : List α) : List (List α) :=
  match _h : getline d text with
  | none => []
  | some (line, rest) => line :: records rest
termination_by text.length
decreasing_by exact getline_length _h

theorem records_nil : records d ([] : List α) = [] := by
  rw [records]
  rfl

/-- Splitting finds the same pieces, and one more at the end if there is nothing behind the last delimiter. -/
theorem splitOn_eq_records (text : List α) :
    ∃ tail, (∀ t ∈ tail, t = []) ∧ text.splitOn d = records d text ++ tail := by
  induction text using records.induct (d := d) with
  | case1 text hnone =>
    have hnil : text = [] := by
      by_contra hne
      rw [getline, if_neg hne] at hnone
      cases hnone
    refine ⟨[[]], by simp, ?_⟩
    rw [hnil, records_nil, List.splitOn_nil, List.nil_append]
  | case2 text line rest hsome ih =>
    obtain ⟨tail, htail, heq⟩ := ih
    have hrec : records d text = line :: records d rest := by
      rw [records]
      split
      · rename_i hnone
        rw [hsome] at hnone
        cases hnone
      · rename_i hsome'
        rw [hsome] at hsome'
        obtain ⟨rfl, rfl⟩ := Prod.mk.inj (Option.some.inj hsome')
        rfl
    obtain ⟨hline, htext | ⟨htext, -, hrest⟩⟩ := getline_some hsome
    · refine ⟨tail, htail, ?_⟩
      rw [hrec, htext, List.splitOn_append_cons_self_of_not_mem hline, heq, List.cons_append]
    · refine ⟨[], by simp, ?_⟩
      rw [hrec, htext, hrest, records_nil, List.splitOn_eq_singleton hline, List.append_nil]

end

section
variable {α : Type} {p : List α → Bool}

theorem filter_take_append (hp : p [] = false) {ls tail : List (List α)} (htail : ∀ t ∈ tail, t = []) (n : Nat) :
    ((ls ++ tail).take n).filter p = (ls.take n).filter p := by
  have hnone : (tail.take (n - ls.length)).filter p = [] := by
    rw [List.filter_eq_nil_iff]
    intro t ht
    rw [htail t (List.mem_of_mem_take ht), hp]
    exact Bool.false_ne_true
  rw [List.take_append, List.filter_append, hnone, List.append_nil]

variable [DecidableEq α] {d : α}

theorem filter_take_records (hp : p [] = false) (text : List α) (n : Nat) :
    ((records d text).take n).filter p = ((text.splitOn d).take n).filter p := by
  obtain ⟨tail, htail, heq⟩ := splitOn_eq_records (d := d) text
  rw [heq, filter_take_append hp htail]

theorem filter_records (hp : p [] = false) (text : List α) :
    (records d text).filter p = (text.splitOn d).filter p := by
  have h := filter_take_records (d := d) hp text ((records d text).length + (text.splitOn d).length)
  rwa [List.take_of_length_le (Nat.le_add_right _ _), List.take_of_length_le (Nat.le_add_left _ _)] at h

end

end Anna
