import Anna.MultiAnna

/-!
# The work of a run

Every cluster that a query names becomes an entry of some core's work list,
with the query in its set, and no set is empty.
-/

namespace Anna

/-! ## Windows -/

theorem windows_cover {batchSize total : Nat} : ∀ {fuel l : Nat} {ws : List (Nat × Nat)},
    windows batchSize total fuel l = some ws → ∀ q, l ≤ q → q < total → ∃ w ∈ ws, w.1 ≤ q ∧ q < w.2 := by
  intro fuel
  induction fuel with
  | zero => intro l ws h; cases h
  | succ fuel ih =>
    intro l ws h q hl hq
    rw [windows, if_pos (Nat.lt_of_le_of_lt hl hq), Option.map_eq_some_iff] at h
    obtain ⟨rest, hrest, rfl⟩ := h
    by_cases hin : q < min (l + batchSize) total
    · exact ⟨_, List.mem_cons_self, hl, hin⟩
    · obtain ⟨w, hw, hcov⟩ := ih hrest q (Nat.le_of_not_lt hin) hq
      exact ⟨w, List.mem_cons_of_mem _ hw, hcov⟩

theorem windows_mono {batchSize total : Nat} : ∀ {fuel fuel' l : Nat} {ws : List (Nat × Nat)}, fuel ≤ fuel' →
    windows batchSize total fuel l = some ws → windows batchSize total fuel' l = some ws := by
  intro fuel
  induction fuel with
  | zero => intro fuel' l ws _ h; cases h
  | succ fuel ih =>
    intro fuel' l ws hle h
    obtain ⟨n, rfl⟩ := Nat.exists_eq_add_of_le hle
    rw [Nat.add_right_comm, windows]
    rw [windows] at h
    by_cases hl : l < total
    · rw [if_pos hl, Option.map_eq_some_iff] at h
      obtain ⟨rest, hrest, rfl⟩ := h
      rw [if_pos hl, ih (Nat.le_add_right fuel n) hrest]
      rfl
    · rw [if_neg hl] at h ⊢
      exact h

/-! ## Buckets -/

theorem count_pushQuery (now : Nat → List Nat) (i : Nat) (clusters : List Nat) (c q : Nat) :
    (pushQuery now i clusters c).count q = (now c).count q + if q = i then clusters.count c else 0 := by
  induction clusters generalizing now with
  | nil => simp [pushQuery]
  | cons d clusters ih =>
    show (pushQuery (Function.update now d (now d ++ [i])) i clusters c).count q = _
    rw [ih]
    by_cases hd : c = d
    · subst hd
      rw [Function.update_self, List.count_append, List.count_singleton, List.count_cons_self]
      by_cases hq : q = i
      · subst hq; simp only [beq_self_eq_true, if_true]; omega
      · have hq' : i ≠ q := Ne.symm hq
        simp [hq, hq']
    · rw [Function.update_of_ne hd, List.count_cons_of_ne (Ne.symm hd)]

/-- A bucket holds a query as often as the query names the cluster. -/
theorem count_bucket (queries : List (List Nat)) (l r c q : Nat) :
    (bucket queries l r c).count q = if l ≤ q ∧ q < r then (queries.getD q []).count c else 0 := by
  have hfold : ∀ (n l : Nat) (now : Nat → List Nat),
      ((List.range' l n).foldl (fun now i => pushQuery now i (queries.getD i [])) now c).count q =
        (now c).count q + if l ≤ q ∧ q < l + n then (queries.getD q []).count c else 0 := by
    intro n
    induction n with
    | zero =>
      intro l now
      have : ¬ (l ≤ q ∧ q < l + 0) := by omega
      rw [if_neg this]
      rfl
    | succ n ih =>
      intro l now
      rw [List.range'_succ, List.foldl_cons, ih, count_pushQuery]
      by_cases hq : q = l
      · subst hq
        have h1 : ¬ (q + 1 ≤ q ∧ q < q + 1 + n) := by omega
        have h2 : q ≤ q ∧ q < q + (n + 1) := by omega
        rw [if_neg h1, if_pos h2, if_pos rfl, Nat.add_zero]
      · have h1 : (l + 1 ≤ q ∧ q < l + 1 + n) ↔ (l ≤ q ∧ q < l + (n + 1)) := by omega
        simp only [h1, if_neg hq, Nat.add_zero]
  unfold bucket
  rw [hfold]
  have h1 : (l ≤ q ∧ q < l + (r - l)) ↔ (l ≤ q ∧ q < r) := by omega
  simp only [h1, List.count_nil, Nat.zero_add]

theorem exists_mem_of_mem_getD {queries : List (List Nat)} {q c : Nat} (h : c ∈ queries.getD q []) :
    ∃ clusters ∈ queries, c ∈ clusters := by
  rw [List.getD_eq_getElem?_getD] at h
  cases hget : queries[q]? with
  | none => rw [hget] at h; cases h
  | some clusters =>
    rw [hget] at h
    exact ⟨clusters, List.mem_of_getElem? hget, h⟩

theorem groupsOf_bucket {queries : List (List Nat)} {l r n : Nat} (hn : n ≤ clusterNum)
    (h : ∀ clusters ∈ queries, ∀ c ∈ clusters, c < n) : groupsOf (bucket queries l r) =
      (List.range n).filterMap fun i => if bucket queries l r i = [] then none else some (i, bucket queries l r i) := by
  have hempty : ∀ c, n ≤ c → bucket queries l r c = [] := by
    intro c hc
    apply List.eq_nil_iff_forall_not_mem.mpr
    intro q hq
    rw [← List.count_pos_iff, count_bucket] at hq
    split at hq
    · obtain ⟨clusters, hmem, hcl⟩ := exists_mem_of_mem_getD (List.count_pos_iff.mp hq)
      have := h clusters hmem c hcl
      omega
    · cases hq
  obtain ⟨m, hm⟩ := Nat.exists_eq_add_of_le hn
  unfold groupsOf
  rw [hm, List.range_add, List.filterMap_append, List.append_right_eq_self, List.filterMap_eq_nil_iff]
  intro c hc
  obtain ⟨k, -, rfl⟩ := List.mem_map.mp hc
  exact if_pos (hempty _ (Nat.le_add_right n k))

section
variable {queries : List (List Nat)} {ws : List (Nat × Nat)}

theorem groups_ne_nil {g : Nat × List Nat} (h : g ∈ groups queries ws) : g.2 ≠ [] := by
  obtain ⟨w, -, hg⟩ := List.mem_flatMap.mp h
  obtain ⟨i, -, hi⟩ := List.mem_filterMap.mp hg
  by_cases hnil : bucket queries w.1 w.2 i = []
  · rw [if_pos hnil] at hi
    cases hi
  · rw [if_neg hnil] at hi
    rw [← Option.some.inj hi]
    exact hnil

/-- Every cluster named by a query of a window is in a group with that query. -/
theorem exists_group {w : Nat × Nat} {q c : Nat} (hw : w ∈ ws) (hl : w.1 ≤ q) (hr : q < w.2)
    (hc : c ∈ queries.getD q []) (hlt : c < clusterNum) :
    ∃ g ∈ groups queries ws, g.1 = c ∧ q ∈ g.2 := by
  have hmem : q ∈ bucket queries w.1 w.2 c := by
    rw [← List.count_pos_iff, count_bucket, if_pos ⟨hl, hr⟩]
    exact List.count_pos_iff.mpr hc
  refine ⟨(c, bucket queries w.1 w.2 c), ?_, rfl, hmem⟩
  apply List.mem_flatMap.mpr
  refine ⟨w, hw, List.mem_filterMap.mpr ⟨c, List.mem_range.mpr hlt, ?_⟩⟩
  rw [if_neg (List.ne_nil_of_mem hmem)]

end

/-! ## Dealing -/

theorem dealFrom_map {α β : Type} (n : Nat) (f : α → β) (j : Nat) : ∀ (xs : List α) (i : Nat) (hands : Nat → List α),
    dealFrom n i (xs.map f) (fun k => (hands k).map f) j = (dealFrom n i xs hands j).map f
  | [], _, _ => rfl
  | x :: xs, i, hands => by
    rw [List.map_cons, dealFrom, dealFrom, ← dealFrom_map n f j xs]
    congr 1
    funext k
    by_cases hk : k = i % n
    · subst hk; simp
    · simp [Function.update_of_ne hk]

theorem deal_map {α β : Type} (n : Nat) (f : α → β) (xs : List α) (j : Nat) :
    deal n (xs.map f) j = (deal n xs j).map f := dealFrom_map n f j xs 0 fun _ => []

theorem mem_dealFrom {α : Type} (n : Nat) {x : α} : ∀ (xs : List α) (i : Nat) (hands : Nat → List α) (j : Nat),
    x ∈ dealFrom n i xs hands j ↔ x ∈ hands j ∨ ∃ m, xs[m]? = some x ∧ (i + m) % n = j := by
  intro xs
  induction xs with
  | nil => intro i hands j; simp [dealFrom]
  | cons y xs ih =>
    intro i hands j
    rw [dealFrom, ih]
    constructor
    · rintro (h | ⟨m, hm, hj⟩)
      · by_cases hij : j = i % n
        · subst hij
          rw [Function.update_self, List.mem_append, List.mem_singleton] at h
          rcases h with h | rfl
          · exact Or.inl h
          · exact Or.inr ⟨0, rfl, rfl⟩
        · rw [Function.update_of_ne hij] at h
          exact Or.inl h
      · refine Or.inr ⟨m + 1, hm, ?_⟩
        rw [← hj]
        congr 1
        omega
    · rintro (h | ⟨m, hm, hj⟩)
      · refine Or.inl ?_
        by_cases hij : j = i % n
        · subst hij
          rw [Function.update_self]
          exact List.mem_append_left _ h
        · rw [Function.update_of_ne hij]
          exact h
      · cases m with
        | zero =>
          have hy : y = x := Option.some.inj hm
          rw [Nat.add_zero] at hj
          refine Or.inl ?_
          rw [← hj, Function.update_self, hy]
          exact List.mem_append_right _ (List.mem_singleton_self x)
        | succ m =>
          refine Or.inr ⟨m, hm, ?_⟩
          rw [← hj]
          congr 1
          omega

theorem mem_of_mem_deal {α : Type} {n j : Nat} {x : α} {xs : List α} (h : x ∈ deal n xs j) : x ∈ xs := by
  rcases (mem_dealFrom n xs 0 _ j).mp h with h | ⟨m, hm, -⟩
  · cases h
  · exact List.mem_of_getElem? hm

theorem exists_deal {α : Type} {n : Nat} (hn : 0 < n) {x : α} {xs : List α} (h : x ∈ xs) :
    ∃ j < n, x ∈ deal n xs j := by
  obtain ⟨m, hm⟩ := List.mem_iff_getElem?.mp h
  refine ⟨m % n, Nat.mod_lt _ hn, (mem_dealFrom n xs 0 _ _).mpr (Or.inr ⟨m, hm, ?_⟩)⟩
  rw [Nat.zero_add]

end Anna
