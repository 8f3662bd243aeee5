import Anna.Grouping
import Mathlib.Algebra.BigOperators.Group.Finset.Basic
import Mathlib.Data.Int.CardIntervalMod

/-!
# The work is a partition

`Run` cuts the queries into windows, sorts the queries of a window into a set
for each cluster, and deals the sets out to the cores in turn. Whatever the
numbers of queries and cores and the batch size, nothing is lost or repeated
on the way and the cores get almost equally many sets.
-/

namespace Anna

/-! ## The windows -/

def window (batchSize total k : Nat) : Nat × Nat := (k * batchSize, min ((k + 1) * batchSize) total)

def windowNum (batchSize total : Nat) : Nat := (total + batchSize - 1) / batchSize

def allWindows (batchSize total : Nat) : List (Nat × Nat) :=
  (List.range (windowNum batchSize total)).map (window batchSize total)

theorem windows_from {batchSize total : Nat} : ∀ (m k : Nat), total ≤ (k + m) * batchSize →
    (∀ j < m, (k + j) * batchSize < total) →
    windows batchSize total (m + 1) (min (k * batchSize) total) =
      some ((List.range' k m).map (window batchSize total)) := by
  intro m
  induction m with
  | zero =>
    intro k hle _
    rw [Nat.add_zero] at hle
    rw [windows, if_neg (by omega)]
    rfl
  | succ m ih =>
    intro k hle hlt
    have hk : k * batchSize < total := by simpa using hlt 0 (Nat.succ_pos m)
    have hmin : min (k * batchSize) total = k * batchSize := by omega
    have hnext : k * batchSize + batchSize = (k + 1) * batchSize := (Nat.succ_mul _ _).symm
    rw [windows, hmin, if_pos hk, hnext, ih (k + 1)]
    · rw [List.range'_succ, List.map_cons]
      rfl
    · rw [Nat.add_right_comm]
      exact hle
    · intro j hj
      rw [Nat.add_right_comm]
      exact hlt (j + 1) (Nat.succ_lt_succ hj)

/-- The windowing loop ends, and gives the windows in order. -/
theorem windows_eq {batchSize : Nat} (total : Nat) (hb : 0 < batchSize) :
    windows batchSize total (windowNum batchSize total + 1) 0 = some (allWindows batchSize total) := by
  have hdiv := Nat.div_add_mod (total + batchSize - 1) batchSize
  have hmod := Nat.mod_lt (total + batchSize - 1) hb
  have h := @windows_from batchSize total (windowNum batchSize total) 0 ?_ ?_
  · simpa [allWindows, List.range_eq_range'] using h
  · rw [Nat.zero_add, windowNum, Nat.mul_comm]
    omega
  · intro j hj
    have hmul : (j + 1) * batchSize ≤ windowNum batchSize total * batchSize := Nat.mul_le_mul_right _ hj
    rw [Nat.succ_mul, windowNum, Nat.mul_comm (_ / _)] at hmul
    rw [Nat.zero_add]
    omega

theorem windows_unique {batchSize total fuel : Nat} {ws : List (Nat × Nat)} (hb : 0 < batchSize)
    (h : windows batchSize total fuel 0 = some ws) : ws = allWindows batchSize total := by
  have h1 := windows_mono (Nat.le_max_left fuel (windowNum batchSize total + 1)) h
  have h2 := windows_mono (Nat.le_max_right fuel (windowNum batchSize total + 1)) (windows_eq total hb)
  exact Option.some.inj (h1.symm.trans h2)

/-! ## Dealing -/

section
variable {α : Type} {n : Nat}

theorem dealFrom_concat (x : α) : ∀ (xs : List α) (i : Nat) (hands : Nat → List α) (j : Nat),
    dealFrom n i (xs ++ [x]) hands j = dealFrom n i xs hands j ++ if (i + xs.length) % n = j then [x] else []
  | [], i, hands, j => by
    by_cases hj : i % n = j
    · subst hj
      simp [dealFrom]
    · simp [dealFrom, hj, Function.update_of_ne (Ne.symm hj)]
  | y :: xs, i, hands, j => by
    rw [List.cons_append, dealFrom, dealFrom_concat x xs, dealFrom, List.length_cons]
    have hindex : i + 1 + xs.length = i + (xs.length + 1) := by omega
    rw [hindex]

theorem deal_concat (xs : List α) (x : α) (j : Nat) :
    deal n (xs ++ [x]) j = deal n xs j ++ if xs.length % n = j then [x] else [] := by
  rw [deal, dealFrom_concat, Nat.zero_add]
  rfl

/-- Whatever is counted, the hands together have what was dealt. -/
theorem sum_deal (hn : 0 < n) (f : α → Nat) (xs : List α) :
    ∑ j ∈ Finset.range n, ((deal n xs j).map f).sum = (xs.map f).sum := by
  induction xs using List.reverseRecOn with
  | nil => exact Finset.sum_eq_zero fun _ _ => rfl
  | append_singleton xs x ih =>
    have hstep : ∀ j, ((deal n (xs ++ [x]) j).map f).sum =
        ((deal n xs j).map f).sum + if j = xs.length % n then f x else 0 := by
      intro j
      rw [deal_concat]
      by_cases hj : xs.length % n = j
      · simp [hj]
      · simp [hj, Ne.symm hj]
    simp only [hstep, Finset.sum_add_distrib, ih, Finset.sum_ite_eq', Finset.mem_range, Nat.mod_lt _ hn, if_true]
    simp

theorem length_deal (xs : List α) (j : Nat) : (deal n xs j).length = xs.length.count (fun m => m % n = j) := by
  induction xs using List.reverseRecOn with
  | nil => rfl
  | append_singleton xs x ih =>
    rw [deal_concat, List.length_append, List.length_append, ih, List.length_singleton, Nat.count_succ]
    split <;> rfl

theorem deal_eq_nil_iff (xs : List α) {j : Nat} (hj : j < n) : deal n xs j = [] ↔ xs.length ≤ j := by
  rw [← List.length_eq_zero_iff, length_deal, Nat.count_iff_forall_not]
  constructor
  · intro h
    by_contra hlt
    exact h j (Nat.lt_of_not_le hlt) (Nat.mod_eq_of_lt hj)
  · intro hle m hm
    rw [Nat.mod_eq_of_lt (by omega)]
    omega

theorem length_deal_le (hn : 0 < n) (xs : List α) {i j : Nat} (hi : i < n) (hj : j < n) :
    (deal n xs i).length ≤ (deal n xs j).length + 1 := by
  have hcount : ∀ k < n, (deal n xs k).length = xs.length / n + if k < xs.length % n then 1 else 0 := by
    intro k hk
    rw [length_deal]
    have hcongr : xs.length.count (fun m => m % n = k) = xs.length.count (fun m => m ≡ k [MOD n]) := by
      simp only [Nat.ModEq, Nat.mod_eq_of_lt hk]
    rw [hcongr, Nat.count_modEq_card _ hn, Nat.mod_eq_of_lt hk]
  rw [hcount i hi, hcount j hj]
  split <;> split <;> omega

end

/-! ## The groups -/

theorem div_eq_iff_mem {batchSize : Nat} (hb : 0 < batchSize) (k q : Nat) :
    q / batchSize = k ↔ k * batchSize ≤ q ∧ q < (k + 1) * batchSize := by
  rw [Nat.div_eq_iff hb, Nat.succ_mul, Nat.mul_comm k]
  omega

theorem mem_window {batchSize : Nat} (total : Nat) (hb : 0 < batchSize) (k q : Nat) :
    ((window batchSize total k).1 ≤ q ∧ q < (window batchSize total k).2) ↔ q / batchSize = k ∧ q < total := by
  show k * batchSize ≤ q ∧ q < min ((k + 1) * batchSize) total ↔ _
  rw [div_eq_iff_mem hb, Nat.lt_min, and_assoc]

theorem lt_windowNum {batchSize total q : Nat} (hb : 0 < batchSize) (hq : q < total) :
    q / batchSize < windowNum batchSize total := by
  rw [windowNum, Nat.div_lt_iff_lt_mul hb]
  have hdiv := Nat.div_add_mod (total + batchSize - 1) batchSize
  have hmod := Nat.mod_lt (total + batchSize - 1) hb
  rw [Nat.mul_comm]
  omega

theorem sum_map_range (f : Nat → Nat) (n : Nat) : ((List.range n).map f).sum = ∑ i ∈ Finset.range n, f i := by
  induction n with
  | zero => rfl
  | succ n ih => simp [List.range_succ, Finset.sum_range_succ, ih]

theorem sum_filterMap (now : Nat → List Nat) (f : Nat × List Nat → Nat) (n : Nat) :
    (((List.range n).filterMap fun i => if now i = [] then none else some (i, now i)).map f).sum =
      ∑ i ∈ Finset.range n, if now i = [] then 0 else f (i, now i) := by
  induction n with
  | zero => rfl
  | succ n ih =>
    rw [List.range_succ, List.filterMap_append, List.map_append, List.sum_append, ih, Finset.sum_range_succ]
    by_cases hn : now n = [] <;> simp [hn]

/-- What is counted of the sets of one cluster, window by window. -/
theorem sum_groups (queries : List (List Nat)) (ws : List (Nat × Nat)) {c : Nat} (hc : c < clusterNum)
    (f : List Nat → Nat) (hf : f [] = 0) :
    ((groups queries ws).map fun g => if g.1 = c then f g.2 else 0).sum =
      (ws.map fun w => f (bucket queries w.1 w.2 c)).sum := by
  have hone : ∀ w : Nat × Nat, ((groupsOf (bucket queries w.1 w.2)).map fun g => if g.1 = c then f g.2 else 0).sum =
      f (bucket queries w.1 w.2 c) := by
    intro w
    rw [groupsOf, sum_filterMap, Finset.sum_eq_single c]
    · rw [if_pos rfl]
      split
      · rename_i hnil; rw [hnil, hf]
      · rfl
    · intro i _ hi
      rw [if_neg hi, ite_self]
    · intro hnot
      exact absurd (Finset.mem_range.mpr hc) hnot
  induction ws with
  | nil => rfl
  | cons w ws ih =>
    rw [groups, List.flatMap_cons, List.map_append, List.sum_append, hone, List.map_cons, List.sum_cons]
    exact congrArg _ ih

/-! ## What the cores are given -/

def coreClusterList (coreNum : Nat) (queries : List (List Nat)) (ws : List (Nat × Nat)) : Nat → List Nat :=
  deal coreNum ((groups queries ws).map Prod.fst)

def coreQuerySetList (coreNum : Nat) (queries : List (List Nat)) (ws : List (Nat × Nat)) : Nat → List (List Nat) :=
  deal coreNum ((groups queries ws).map Prod.snd)

/-- The two lists of a core, entry by entry. -/
def coreWork (coreNum : Nat) (queries : List (List Nat)) (ws : List (Nat × Nat)) (j : Nat) : List (Nat × List Nat) :=
  (coreClusterList coreNum queries ws j).zip (coreQuerySetList coreNum queries ws j)

/-- In a first run the work lists are those that `Setup` gets. -/
theorem setupCores_work {δ : Type} (s : MultiANNA δ) (hc : s.clusterList = []) (hq : s.querySetList = [])
    (batchSize : UInt64) (ws : List (Nat × Nat)) :
    (s.setupCores batchSize ws).annaCoreList = s.annaCoreList.mapIdx fun i c =>
      c.setup (coreClusterList MultiANNA.coreNum s.queries ws i) (coreQuerySetList MultiANNA.coreNum s.queries ws i)
        (intOfUint64 batchSize) := by
  simp only [MultiANNA.setupCores, hc, hq, List.nil_append]
  rfl

section
variable {coreNum : Nat} {queries : List (List Nat)} {ws : List (Nat × Nat)}

theorem coreWork_eq (j : Nat) : coreWork coreNum queries ws j = deal coreNum (groups queries ws) j := by
  rw [coreWork, coreClusterList, coreQuerySetList, deal_map, deal_map, List.zip_map']
  exact List.map_id _

theorem group_bucket {g : Nat × List Nat} (h : g ∈ groups queries ws) :
    g.1 < clusterNum ∧ ∃ w ∈ ws, g.2 = bucket queries w.1 w.2 g.1 := by
  obtain ⟨w, hw, hg⟩ := List.mem_flatMap.mp h
  obtain ⟨i, hi, heq⟩ := List.mem_filterMap.mp hg
  split at heq
  · cases heq
  · rw [← Option.some.inj heq]
    exact ⟨List.mem_range.mp hi, w, hw, rfl⟩

end

section
variable {batchSize : Nat} (queries : List (List Nat))

/-- The set that window `k` makes for cluster `c`. -/
def windowSet (batchSize : Nat) (queries : List (List Nat)) (k c : Nat) : List Nat :=
  bucket queries (window batchSize queries.length k).1 (window batchSize queries.length k).2 c

theorem mem_windowSet (hb : 0 < batchSize) (k c q : Nat) :
    q ∈ windowSet batchSize queries k c ↔ q / batchSize = k ∧ c ∈ queries.getD q [] := by
  rw [windowSet, ← List.count_pos_iff, count_bucket]
  simp only [mem_window queries.length hb]
  constructor
  · intro h
    split at h
    · rename_i hin
      exact ⟨hin.1, List.count_pos_iff.mp h⟩
    · cases h
  · rintro ⟨hk, hc⟩
    have hq : q < queries.length := by
      by_contra hge
      rw [List.getD_eq_default _ _ (Nat.le_of_not_lt hge)] at hc
      cases hc
    rw [if_pos ⟨hk, hq⟩]
    exact List.count_pos_iff.mpr hc

theorem windowSet_eq_nil (hb : 0 < batchSize) {k : Nat} (hk : windowNum batchSize queries.length ≤ k) (c : Nat) :
    windowSet batchSize queries k c = [] := by
  apply List.eq_nil_iff_forall_not_mem.mpr
  intro q hq
  obtain ⟨rfl, hc⟩ := (mem_windowSet queries hb k c q).mp hq
  by_cases hlen : q < queries.length
  · exact absurd (lt_windowNum hb hlen) (Nat.not_lt.mpr hk)
  · rw [List.getD_eq_default _ _ (Nat.le_of_not_lt hlen)] at hc
    cases hc

/-- The groups of a run: the sets of every window, in order. -/
def allGroups (batchSize : Nat) (queries : List (List Nat)) : List (Nat × List Nat) :=
  groups queries (allWindows batchSize queries.length)

theorem sum_allGroups {c : Nat} (hc : c < clusterNum) (f : List Nat → Nat) (hf : f [] = 0) :
    ((allGroups batchSize queries).map fun g => if g.1 = c then f g.2 else 0).sum =
      ∑ k ∈ Finset.range (windowNum batchSize queries.length), f (windowSet batchSize queries k c) := by
  rw [allGroups, sum_groups queries _ hc f hf, allWindows, List.map_map, sum_map_range]
  rfl

/-- How often a query stands in the sets of a cluster. -/
def occurrences (q c : Nat) (work : List (Nat × List Nat)) : Nat :=
  (work.map fun g => if g.1 = c then g.2.count q else 0).sum

theorem occurrences_allGroups (hb : 0 < batchSize) (q : Nat) {c : Nat} (hc : c < clusterNum) :
    occurrences q c (allGroups batchSize queries) = (queries.getD q []).count c := by
  rw [occurrences, sum_allGroups queries hc (fun set => set.count q) rfl]
  simp only [windowSet, count_bucket, mem_window queries.length hb]
  by_cases hq : q < queries.length
  · rw [Finset.sum_eq_single (q / batchSize)]
    · rw [if_pos ⟨rfl, hq⟩]
    · intro k _ hk
      rw [if_neg fun h => hk h.1.symm]
    · intro hnot
      exact absurd (Finset.mem_range.mpr (lt_windowNum hb hq)) hnot
  · rw [List.getD_eq_default _ _ (Nat.le_of_not_lt hq), List.count_nil]
    exact Finset.sum_eq_zero fun k _ => if_neg fun h => hq h.2

theorem countP_eq_sum {α : Type} (p : α → Bool) (xs : List α) :
    xs.countP p = (xs.map fun x => if p x then 1 else 0).sum := by
  induction xs with
  | nil => rfl
  | cons x xs ih => rw [List.countP_cons, List.map_cons, List.sum_cons, ih, Nat.add_comm]

/-- The entries for cluster `c` whose queries are of window `w`. -/
def entries (batchSize w c : Nat) (work : List (Nat × List Nat)) : Nat :=
  work.countP fun g => decide (g.1 = c ∧ ∀ q ∈ g.2, q / batchSize = w)

theorem entries_allGroups (hb : 0 < batchSize) (w : Nat) {c : Nat} (hc : c < clusterNum) :
    entries batchSize w c (allGroups batchSize queries) = if windowSet batchSize queries w c = [] then 0 else 1 := by
  have hset : ∀ g ∈ allGroups batchSize queries,
      (if decide (g.1 = c ∧ ∀ q ∈ g.2, q / batchSize = w) then 1 else 0) =
      if g.1 = c then (if g.2 ≠ [] ∧ ∀ q ∈ g.2, q / batchSize = w then 1 else 0) else 0 := by
    intro g hg
    have hne := groups_ne_nil hg
    by_cases hgc : g.1 = c <;> simp [hgc, hne]
  -- the set of window `k` counts for window `k` only
  have hterm : ∀ k, (if windowSet batchSize queries k c ≠ [] ∧ ∀ q ∈ windowSet batchSize queries k c, q / batchSize = w
      then 1 else 0) = if k = w then (if windowSet batchSize queries w c = [] then 0 else 1) else 0 := by
    intro k
    by_cases hk : k = w
    · subst hk
      have hall : ∀ q ∈ windowSet batchSize queries k c, q / batchSize = k :=
        fun q hq => ((mem_windowSet queries hb k c q).mp hq).1
      by_cases hnil : windowSet batchSize queries k c = []
      · simp [hnil]
      · rw [if_pos ⟨hnil, hall⟩, if_pos rfl, if_neg hnil]
    · rw [if_neg hk, if_neg]
      rintro ⟨hne, hall⟩
      obtain ⟨q, hq⟩ := List.exists_mem_of_ne_nil _ hne
      exact hk (((mem_windowSet queries hb k c q).mp hq).1.symm.trans (hall q hq))
  rw [entries, countP_eq_sum, List.map_congr_left hset,
    sum_allGroups queries hc (fun set => if set ≠ [] ∧ ∀ q ∈ set, q / batchSize = w then 1 else 0) rfl]
  simp only [hterm, Finset.sum_ite_eq', Finset.mem_range]
  by_cases hw : w < windowNum batchSize queries.length
  · rw [if_pos hw]
  · rw [if_neg hw, if_pos (windowSet_eq_nil queries hb (Nat.le_of_not_lt hw) c)]

end

/-- The work that a first run gives to `Setup`, for any number of cores, is the
queries' work cut into sets of one window and one cluster each. -/
theorem work_partition (queries : List (List Nat)) (batchSize coreNum : Nat)
    (hq : ∀ clusters ∈ queries, ∀ c ∈ clusters, c < clusterNum) (hb : 0 < batchSize) (hn : 0 < coreNum) :
    ∃ fuel ws, windows batchSize queries.length fuel 0 = some ws ∧
      (∀ (δ : Type) (s : MultiANNA δ) (batch : UInt64), MultiANNA.coreNum = coreNum → s.queries = queries →
        s.clusterList = [] → s.querySetList = [] →
        (s.setupCores batch ws).annaCoreList = s.annaCoreList.mapIdx fun j c =>
          c.setup (coreClusterList coreNum queries ws j) (coreQuerySetList coreNum queries ws j) (intOfUint64 batch)) ∧
      (∀ j, (coreClusterList coreNum queries ws j).length = (coreQuerySetList coreNum queries ws j).length) ∧
      (∀ q c, ∑ j ∈ Finset.range coreNum, occurrences q c (coreWork coreNum queries ws j) =
        (queries.getD q []).count c) ∧
      (∀ j, ∀ g ∈ coreWork coreNum queries ws j, g.2 ≠ [] ∧
        ∃ w, ∀ q ∈ g.2, w * batchSize ≤ q ∧ q < (w + 1) * batchSize) ∧
      (∀ w c, ((∃ q, w * batchSize ≤ q ∧ q < (w + 1) * batchSize ∧ c ∈ queries.getD q []) →
          ∑ j ∈ Finset.range coreNum, entries batchSize w c (coreWork coreNum queries ws j) = 1) ∧
        ((¬ ∃ q, w * batchSize ≤ q ∧ q < (w + 1) * batchSize ∧ c ∈ queries.getD q []) →
          ∑ j ∈ Finset.range coreNum, entries batchSize w c (coreWork coreNum queries ws j) = 0)) ∧
      ∀ i < coreNum, ∀ j < coreNum,
        (coreWork coreNum queries ws i).length ≤ (coreWork coreNum queries ws j).length + 1 := by
  have hnamed : ∀ q c, c ∈ queries.getD q [] → c < clusterNum := by
    intro q c hc
    obtain ⟨clusters, hmem, hcl⟩ := exists_mem_of_mem_getD hc
    exact hq clusters hmem c hcl
  refine ⟨_, _, windows_eq queries.length hb, fun δ s batch hnum hqs hc hs => ?_, fun j => ?_, fun q c => ?_,
    fun j g hg => ?_, fun w c => ?_, fun i hi j hj => ?_⟩
  · subst hnum hqs
    exact setupCores_work s hc hs batch _
  · rw [coreClusterList, coreQuerySetList, deal_map, deal_map, List.length_map, List.length_map]
  · simp only [coreWork_eq, occurrences, sum_deal hn]
    by_cases hc : c < clusterNum
    · exact occurrences_allGroups queries hb q hc
    · rw [List.count_eq_zero.mpr fun h => hc (hnamed q c h)]
      refine List.sum_eq_zero fun x hx => ?_
      obtain ⟨g, hg, rfl⟩ := List.mem_map.mp hx
      show (if g.1 = c then g.2.count q else 0) = 0
      rw [if_neg]
      rintro rfl
      exact hc (group_bucket hg).1
  · rw [coreWork_eq] at hg
    have hmem := mem_of_mem_deal hg
    refine ⟨groups_ne_nil hmem, ?_⟩
    obtain ⟨-, v, hv, hset⟩ := group_bucket hmem
    obtain ⟨k, -, rfl⟩ := List.mem_map.mp hv
    refine ⟨k, fun q hq => ?_⟩
    rw [hset] at hq
    exact (div_eq_iff_mem hb k q).mp ((mem_windowSet queries hb k g.1 q).mp hq).1
  · have hsum : ∑ j ∈ Finset.range coreNum, entries batchSize w c (coreWork coreNum queries
        (allWindows batchSize queries.length) j) = entries batchSize w c (allGroups batchSize queries) := by
      simp only [coreWork_eq, entries, countP_eq_sum, sum_deal hn]
      rfl
    rw [hsum]
    refine ⟨?_, fun hnone => ?_⟩
    · rintro ⟨q, hlo, hhi, hc⟩
      have hmem : q ∈ windowSet batchSize queries w c :=
        (mem_windowSet queries hb w c q).mpr ⟨(div_eq_iff_mem hb w q).mpr ⟨hlo, hhi⟩, hc⟩
      rw [entries_allGroups queries hb w (hnamed q c hc), if_neg (List.ne_nil_of_mem hmem)]
    · refine List.countP_eq_zero.mpr fun g hg => ?_
      rw [decide_eq_true_eq]
      rintro ⟨rfl, hall⟩
      obtain ⟨q, hmem⟩ := List.exists_mem_of_ne_nil _ (groups_ne_nil hg)
      obtain ⟨-, v, hv, hset⟩ := group_bucket hg
      obtain ⟨k, -, rfl⟩ := List.mem_map.mp hv
      have hin : q ∈ windowSet batchSize queries k g.1 := by
        rw [hset] at hmem
        exact hmem
      have hc := ((mem_windowSet queries hb k g.1 q).mp hin).2
      obtain ⟨hlo, hhi⟩ := (div_eq_iff_mem hb w q).mp (hall q hmem)
      exact hnone ⟨q, hlo, hhi, hc⟩
  · rw [coreWork_eq, coreWork_eq]
    exact length_deal_le hn _ hi hj

theorem work_partition_three : ∃ fuel ws, windows 2 3 fuel 0 = some ws ∧
    ∀ q c, ∑ j ∈ Finset.range 3, occurrences q c (coreWork 3 [[0, 1], [1, 1], [2]] ws j) =
      ([[0, 1], [1, 1], [2]].getD q []).count c := by
  obtain ⟨fuel, ws, hws, -, -, hcount, -⟩ := work_partition [[0, 1], [1, 1], [2]] 2 3 (by decide) (by decide) (by decide)
  exact ⟨fuel, ws, hws, hcount⟩

end Anna
