import Anna.Layout
import Anna.QueryClocks
import Anna.WorkPartition

/-!
# The vectors that are counted

`main` adds up the vectors that the queries search straight from the queries.
The cores count them again, slice by slice, as they submit to their SCMs: a
slice is charged for all queries of its set, at the entry of `cluster_addr`
whose number is the position of the set in the core's list.
-/

namespace Anna

namespace CoreEvent

def submitted : CoreEvent → Nat
  | .scm _ vectorNum => vectorNum
  | _ => 0

end CoreEvent

/-! ## Counting in a core -/

namespace ANNACore

def submittedVectors (c : ANNACore) : Nat := (c.log.map CoreEvent.submitted).sum

def scanned (f : Nat → Nat) (c : ANNACore) : Nat := (c.scmSlices.map fun s => f s.k * (c.querySet s.k).length).sum

section
variable (clusterAddr : Nat → Cluster) {A : Nat} {c c' : ANNACore} {t t' : TestValue}

structure Counted (A : Nat) (c : ANNACore) (t : TestValue) : Prop where
  vectors : c.submittedVectors = c.scanned fun k => (clusterAddr k).vectorNum.toNat
  bytes : t.efmEncodedVectorBufferRead = A + c.scanned fun k => (clusterAddr k).bytes.toNat

theorem scanned_append {e : CoreEvent} (f : Nat → Nat) (hl : c'.log = c.log ++ [e])
    (hq : c'.querySetList = c.querySetList) :
    c'.scanned f = c.scanned f + (e.scmSlice.toList.map fun s => f s.k * (c.querySet s.k).length).sum := by
  have hone : [e].filterMap CoreEvent.scmSlice = e.scmSlice.toList := by cases e <;> rfl
  simp only [scanned, scmSlices, querySet, hl, hq, List.filterMap_append, List.map_append, List.sum_append, hone]

variable {clusterAddr}

theorem Counted.event {e : CoreEvent} (h : Counted clusterAddr A c t) (hl : c'.log = c.log ++ [e])
    (hq : c'.querySetList = c.querySetList) (ht : t'.efmEncodedVectorBufferRead = t.efmEncodedVectorBufferRead)
    (he : e.scmSlice = none) : Counted clusterAddr A c' t' := by
  have hsame : ∀ f, c'.scanned f = c.scanned f := by
    intro f
    rw [scanned_append f hl hq]
    simp [he]
  have hnone : e.submitted = 0 := by
    cases e with
    | scm s v => cases he
    | cpm s u => rfl
    | efm s => rfl
    | save s u => rfl
  refine ⟨?_, ?_⟩
  · rw [hsame, ← h.vectors, submittedVectors, hl]
    simp [submittedVectors, hnone]
  · rw [hsame, ht]
    exact h.bytes

theorem Counted.part {p q : ANNACore × TestValue} (h : Counted clusterAddr A p.1 p.2) (hp : Part clusterAddr p q) :
    Counted clusterAddr A q.1 q.2 := by
  have hwork := (part_work hp).2.1
  cases hp with
  | save k _ _ => exact h.event rfl hwork rfl rfl
  | @scan c t k _ _ _ =>
    have hscan : ∀ f, (c.scanSlice clusterAddr t k).1.scanned f = c.scanned f + f k * (c.querySet k).length := by
      intro f
      rw [scanned_append (e := .scm _ _) f rfl hwork]
      simp [CoreEvent.scmSlice]
    refine ⟨?_, ?_⟩
    · rw [hscan, ← h.vectors]
      simp [submittedVectors, scanSlice, CoreEvent.submitted]
    · rw [hscan, ← Nat.add_assoc, ← h.bytes]
      rfl
  | fetch k _ _ _ _ => exact h.event rfl hwork rfl rfl
  | hand _ _ _ => exact h.event rfl hwork rfl rfl

theorem Counted.parts {p q : ANNACore × TestValue} (h : Counted clusterAddr A p.1 p.2) (hp : Parts clusterAddr p q) :
    Counted clusterAddr A q.1 q.2 := by
  induction hp with
  | refl => exact h
  | tail _ hlast ih => exact ih.part hlast

theorem Counted.clockTick {μ : Type} [MemoryPort μ] {w : World μ} (h : Counted clusterAddr A c w.testValue) :
    Counted clusterAddr A (c.clockTick clusterAddr w).1 (c.clockTick clusterAddr w).2.testValue := by
  have hm : Counted clusterAddr A (c.tickModules clusterAddr w).1 (c.tickModules clusterAddr w).2.testValue :=
    ⟨h.vectors, (tickModules_testValue clusterAddr c w).2.2.trans h.bytes⟩
  exact hm.parts (clockTick_parts clusterAddr c w)

end

end ANNACore

/-! ## Counting in all cores -/

namespace MultiANNA

open ANNACore

section
variable {δ : Type} (clusterAddr : Nat → Cluster)

def submittedVectors (s : MultiANNA δ) : Nat := (s.annaCoreList.map ANNACore.submittedVectors).sum

def scannedBytes (cs : List ANNACore) : Nat := (cs.map (scanned fun k => (clusterAddr k).bytes.toNat)).sum

structure CountsKept (s : MultiANNA δ) : Prop where
  vectors : ∀ c ∈ s.annaCoreList, c.submittedVectors = c.scanned fun k => (clusterAddr k).vectorNum.toNat
  bytes : s.testValue.efmEncodedVectorBufferRead = scannedBytes clusterAddr s.annaCoreList

theorem tickCores_counted {μ : Type} [MemoryPort μ] : ∀ {cs : List ANNACore} {w : World μ} {A : Nat},
    (∀ c ∈ cs, c.submittedVectors = c.scanned fun k => (clusterAddr k).vectorNum.toNat) →
    w.testValue.efmEncodedVectorBufferRead = A + scannedBytes clusterAddr cs →
    (∀ c ∈ (tickCores clusterAddr cs w).1, c.submittedVectors = c.scanned fun k => (clusterAddr k).vectorNum.toNat) ∧
      (tickCores clusterAddr cs w).2.testValue.efmEncodedVectorBufferRead =
        A + scannedBytes clusterAddr (tickCores clusterAddr cs w).1 := by
  intro cs
  induction cs with
  | nil => intro w A hv hb; exact ⟨hv, hb⟩
  | cons c cs ih =>
    intro w A hv hb
    have hc : Counted clusterAddr (A + scannedBytes clusterAddr cs) c w.testValue := by
      refine ⟨hv c List.mem_cons_self, hb.trans ?_⟩
      simp only [scannedBytes, List.map_cons, List.sum_cons]
      omega
    obtain ⟨hvec, hbytes⟩ := hc.clockTick
    rw [Nat.add_right_comm] at hbytes
    obtain ⟨hvs, hbs⟩ := ih (fun d hd => hv d (List.mem_cons_of_mem _ hd)) hbytes
    refine ⟨?_, hbs.trans ?_⟩
    · intro d hd
      rcases List.mem_cons.mp hd with rfl | hd
      · exact hvec
      · exact hvs d hd
    · simp only [scannedBytes, tickCores, List.map_cons, List.sum_cons]
      omega

theorem CountsKept.clockTick [MemorySystem δ] {s : MultiANNA δ} (h : CountsKept clusterAddr s) :
    CountsKept clusterAddr (s.clockTick clusterAddr) := by
  have hb : s.testValue.efmEncodedVectorBufferRead = 0 + scannedBytes clusterAddr s.annaCoreList := by
    rw [Nat.zero_add]
    exact h.bytes
  obtain ⟨hv, hb'⟩ := tickCores_counted clusterAddr (w := ⟨s.memory.clockTick, s.testValue⟩) h.vectors hb
  rw [Nat.zero_add] at hb'
  exact ⟨hv, hb'⟩

theorem countsKept_setupCores (useMemorySwitch : Bool) (mem : Port → δ) (unset : Port → Nat × Nat)
    (queries : List (List Nat)) (batchSize : UInt64) (ws : List (Nat × Nat)) :
    CountsKept clusterAddr (((new useMemorySwitch mem unset).setup queries).setupCores batchSize ws) := by
  have hnone : ∀ c ∈ (((new useMemorySwitch mem unset).setup queries).setupCores batchSize ws).annaCoreList,
      c.submittedVectors = 0 ∧ ∀ f, c.scanned f = 0 := by
    intro c hc
    have hlog := setupCores_log c hc
    simp [ANNACore.submittedVectors, scanned, scmSlices, hlog]
  refine ⟨?_, ?_⟩
  · intro c hc
    rw [(hnone c hc).1, (hnone c hc).2]
  · show 0 = scannedBytes clusterAddr _
    symm
    apply List.sum_eq_zero
    intro x hx
    obtain ⟨c, hc, rfl⟩ := List.mem_map.mp hx
    exact (hnone c hc).2 _

end

/-! ## The charge of a whole run -/

/-- What set number `k` of a list is charged, in slices of `b` queries, at one a query. -/
def charges (b : Nat) (querySetList : List (List Nat)) (k : Nat) : Nat :=
  (chunksFrom b (querySetList.getD k []).length 0).length * (querySetList.getD k []).length

theorem charges_eq_zero {b : Nat} {sets : List (List Nat)} {k : Nat} (hk : sets.length ≤ k) : charges b sets k = 0 := by
  rw [charges, List.getD_eq_default _ _ hk, List.length_nil, Nat.mul_zero]

theorem sum_slicesFrom (b : Nat) (g : Nat → Nat) (k : Nat) (sets : List (List Nat)) :
    ((slicesFrom b k sets).map fun s => g s.k).sum =
      ∑ j ∈ Finset.range sets.length, (chunksFrom b (sets.getD j []).length 0).length * g (k + j) := by
  induction sets generalizing k with
  | nil => rfl
  | cons set sets ih =>
    have hset : ((chunksFrom b set.length 0).map fun _ => g k).sum = (chunksFrom b set.length 0).length * g k := by
      simp
    rw [slicesFrom, List.map_append, List.sum_append, ih, List.length_cons, Finset.sum_range_succ', List.map_map]
    simp only [Function.comp_def, hset, List.getD_cons_zero, List.getD_cons_succ, Nat.add_zero, Nat.add_right_comm k,
      ← Nat.add_assoc]
    exact Nat.add_comm _ _

theorem sum_slices (b : Nat) (f : Nat → Nat) (sets : List (List Nat)) {n : Nat} (hn : sets.length ≤ n) :
    ((slices b sets).map fun s => f s.k * (sets.getD s.k []).length).sum =
      ∑ k ∈ Finset.range n, f k * charges b sets k := by
  rw [slices, sum_slicesFrom b (fun k => f k * (sets.getD k []).length)]
  have hterm : ∀ k, (chunksFrom b (sets.getD k []).length 0).length * (f (0 + k) * (sets.getD (0 + k) []).length) =
      f k * charges b sets k := by
    intro k
    rw [Nat.zero_add, charges]
    ring
  simp only [hterm]
  apply Finset.sum_subset (Finset.range_subset_range.mpr hn)
  intro k _ hk
  rw [charges_eq_zero (Nat.le_of_not_lt fun hlt => hk (Finset.mem_range.mpr hlt)), Nat.mul_zero]

theorem sum_map_getElem {α : Type} {xs : List α} {g : α → Nat} {h : Nat → Nat}
    (hgh : ∀ i x, xs[i]? = some x → g x = h i) : (xs.map g).sum = ∑ i ∈ Finset.range xs.length, h i := by
  induction xs generalizing h with
  | nil => rfl
  | cons x xs ih =>
    rw [List.map_cons, List.sum_cons, List.length_cons, Finset.sum_range_succ', hgh 0 x rfl,
      ih fun i y hy => hgh (i + 1) y hy]
    exact Nat.add_comm _ _

section
variable {δ : Type} {clusterAddr : Nat → Cluster} {P : List (Nat × List Nat)} {b : Int32} {s : MultiANNA δ}

theorem Running.scanned_eq (hr : Running clusterAddr P b s) (hP : ∀ g ∈ P, g.2 ≠ []) {i n : Nat} {c : ANNACore}
    (hc : s.annaCoreList[i]? = some c) (hf : c.isFinished = true) (hn : (deal coreNum P i).length ≤ n)
    (f : Nat → Nat) :
    c.scanned f = ∑ k ∈ Finset.range n, f k * charges (batchOfInt b) ((deal coreNum P i).map Prod.snd) k := by
  obtain ⟨-, hqs, hb⟩ := reach_work (hr.reach i c hc)
  obtain ⟨-, ho, hsaved⟩ := hr.all_saved hP hc hf
  have hscm : c.scmSlices = slices c.batchSize c.querySetList := by
    have h2 : c.scmSlices = c.savedSlices ++ c.scmSlot.toList := ho.flow 2 (by decide)
    have hnone := (ho.drained_iff.mp hsaved).2.2.2
    rw [h2, hsaved, scmSlot, hnone]
    simp
  rw [scanned, hscm]
  show ((slices c.batchSize c.querySetList).map fun s => f s.k * (c.querySetList.getD s.k []).length).sum = _
  rw [hb, hqs]
  exact sum_slices _ f _ (by rw [List.length_map]; exact hn)

end

def charged (queries : List (List Nat)) (batchSize : UInt64) (k : Nat) : Nat :=
  ∑ i ∈ Finset.range coreNum, charges (batchOfInt (intOfUint64 batchSize))
    (coreQuerySetList coreNum queries (allWindows batchSize.toNat queries.length) i) k

theorem length_deal_le_length {α : Type} (n : Nat) (xs : List α) (j : Nat) : (deal n xs j).length ≤ xs.length := by
  rw [length_deal]
  exact Nat.count_le _

section
variable {δ : Type} [MemorySystem δ] {clusterAddr : Nat → Cluster} {useMemorySwitch : Bool} {mem : Port → δ}
  {unset : Port → Nat × Nat} {queries : List (List Nat)} {batchSize : UInt64} {fuel : Nat} {s : MultiANNA δ}

/-- When `Run` exits, entry `k` of the table is charged once for each query of each set number `k` and each slice of
the set. -/
theorem run_counts (hb : 0 < batchSize.toNat) {n : Nat} (hn : (allGroups batchSize.toNat queries).length ≤ n)
    (h : run clusterAddr fuel batchSize ((new useMemorySwitch mem unset).setup queries) = some s) :
    s.submittedVectors = ∑ k ∈ Finset.range n, (clusterAddr k).vectorNum.toNat * charged queries batchSize k ∧
      s.testValue.efmEncodedVectorBufferRead =
        ∑ k ∈ Finset.range n, (clusterAddr k).bytes.toNat * charged queries batchSize k := by
  obtain ⟨ws, hws, hr, hkept, hf⟩ := run_running clusterAddr h
    (countsKept_setupCores clusterAddr useMemorySwitch mem unset queries batchSize) fun _ hi => hi.clockTick
  obtain rfl : ws = allWindows batchSize.toNat queries.length := windows_unique hb hws
  have hcore : ∀ (f : Nat → Nat) (i : Nat) (c : ANNACore), s.annaCoreList[i]? = some c → c.scanned f =
      ∑ k ∈ Finset.range n, f k * charges (batchOfInt (intOfUint64 batchSize))
        (coreQuerySetList coreNum queries (allWindows batchSize.toNat queries.length) i) k := by
    intro f i c hc
    rw [coreQuerySetList, deal_map]
    apply hr.scanned_eq (fun _ => groups_ne_nil) hc (hf c (List.mem_of_getElem? hc))
    exact Nat.le_trans (length_deal_le_length _ _ _) hn
  have htotal : ∀ f : Nat → Nat, (s.annaCoreList.map (scanned f)).sum =
      ∑ k ∈ Finset.range n, f k * charged queries batchSize k := by
    intro f
    rw [sum_map_getElem (hcore f), hr.length, Finset.sum_comm]
    simp only [charged, Finset.mul_sum]
  refine ⟨?_, hkept.bytes.trans (htotal _)⟩
  rw [submittedVectors, List.map_congr_left hkept.vectors]
  exact htotal _

end

/-! ## The count of `main` -/

/-- The double loop of `main`, with `f c` added for each cluster `c` that a query names. -/
def countNamed (f : Nat → Nat) (queries : List (List Nat)) : Nat :=
  queries.foldl (fun cnt clusters => clusters.foldl (fun cnt c => cnt + f c) cnt) 0

def clusterVectorCnt (clusterAddr : Nat → Cluster) (queries : List (List Nat)) : Nat :=
  countNamed (fun c => (clusterAddr c).vectorNum.toNat) queries

def clusterBytesCnt (clusterAddr : Nat → Cluster) (queries : List (List Nat)) : Nat :=
  countNamed (fun c => (clusterAddr c).bytes.toNat) queries

def named (queries : List (List Nat)) (c : Nat) : Nat := (queries.map (List.count c)).sum

theorem sum_map_count (f : Nat → Nat) {n : Nat} {clusters : List Nat} (h : ∀ c ∈ clusters, c < n) :
    (clusters.map f).sum = ∑ k ∈ Finset.range n, f k * clusters.count k := by
  induction clusters with
  | nil => simp
  | cons c clusters ih =>
    have hc : c ∈ Finset.range n := Finset.mem_range.mpr (h c List.mem_cons_self)
    rw [List.map_cons, List.sum_cons, ih fun d hd => h d (List.mem_cons_of_mem _ hd)]
    simp only [List.count_cons, Nat.mul_add, Finset.sum_add_distrib, beq_iff_eq, mul_ite, mul_one, mul_zero,
      Finset.sum_ite_eq, hc, if_true]
    exact Nat.add_comm _ _

theorem countNamed_eq (f : Nat → Nat) {n : Nat} {queries : List (List Nat)}
    (h : ∀ clusters ∈ queries, ∀ c ∈ clusters, c < n) :
    countNamed f queries = ∑ k ∈ Finset.range n, f k * named queries k := by
  have hinner : ∀ (clusters : List Nat) (cnt : Nat),
      clusters.foldl (fun cnt c => cnt + f c) cnt = cnt + (clusters.map f).sum := by
    intro clusters
    induction clusters with
    | nil => intro cnt; rfl
    | cons c clusters ih => intro cnt; rw [List.foldl_cons, ih, List.map_cons, List.sum_cons, Nat.add_assoc]
  have houter : ∀ (queries : List (List Nat)) (cnt : Nat), (∀ clusters ∈ queries, ∀ c ∈ clusters, c < n) →
      queries.foldl (fun cnt clusters => clusters.foldl (fun cnt c => cnt + f c) cnt) cnt =
        cnt + ∑ k ∈ Finset.range n, f k * named queries k := by
    intro queries
    induction queries with
    | nil => intro cnt _; simp [named]
    | cons clusters queries ih =>
      intro cnt h
      rw [List.foldl_cons, ih _ fun cl hcl => h cl (List.mem_cons_of_mem _ hcl), hinner,
        sum_map_count f (h clusters List.mem_cons_self), Nat.add_assoc, ← Finset.sum_add_distrib]
      simp only [named, List.map_cons, List.sum_cons, Nat.mul_add]
  rw [countNamed, houter queries 0 h, Nat.zero_add]

/-! ## When the counts agree -/

def setSize (queries : List (List Nat)) (batchSize : UInt64) (k : Nat) : Nat :=
  ∑ i ∈ Finset.range coreNum,
    ((coreQuerySetList coreNum queries (allWindows batchSize.toNat queries.length) i).getD k []).length

/-- Every set is one slice, and the sets number `k` have as many queries as name cluster `k`. -/
structure ChargedAsNamed (queries : List (List Nat)) (batchSize : UInt64) : Prop where
  fits : ∀ g ∈ allGroups batchSize.toNat queries, g.2.length ≤ batchOfInt (intOfUint64 batchSize)
  sizes : ∀ k, setSize queries batchSize k = named queries k

section
variable {queries : List (List Nat)} {batchSize : UInt64}

theorem chunksFrom_one {b n : Nat} (hn : 0 < n) (hb : 0 < b) : (chunksFrom b n 0).length = 1 ↔ n ≤ b := by
  rw [chunksFrom_cons hn hb, Nat.zero_add, List.length_cons]
  by_cases hle : n ≤ b
  · rw [chunksFrom_nil hle]
    simp [hle]
  · rw [chunksFrom_cons (Nat.lt_of_not_le hle) hb]
    simp [hle]

theorem length_le_charges {b : Nat} (hb : 0 < b) (sets : List (List Nat)) (k : Nat) :
    (sets.getD k []).length ≤ charges b sets k := by
  rcases Nat.eq_zero_or_pos (sets.getD k []).length with hzero | hpos
  · rw [hzero]
    exact Nat.zero_le _
  · rw [charges, chunksFrom_cons hpos hb, List.length_cons]
    exact Nat.le_mul_of_pos_left _ (Nat.succ_pos _)

theorem charges_eq_length_iff {b : Nat} (hb : 0 < b) (sets : List (List Nat)) (k : Nat) :
    charges b sets k = (sets.getD k []).length ↔ (sets.getD k []).length ≤ b := by
  rcases Nat.eq_zero_or_pos (sets.getD k []).length with hzero | hpos
  · rw [charges, hzero, Nat.mul_zero]
    exact ⟨fun _ => Nat.zero_le b, fun _ => rfl⟩
  · rw [charges, ← chunksFrom_one hpos hb]
    exact Nat.mul_eq_right (Nat.ne_of_gt hpos)

theorem sum_getD_length (sets : List (List Nat)) {n : Nat} (hn : sets.length ≤ n) :
    ∑ k ∈ Finset.range n, (sets.getD k []).length = (sets.map List.length).sum := by
  have hget : ∀ k set, sets[k]? = some set → set.length = (sets.getD k []).length := by
    intro k set hset
    rw [List.getD_eq_getElem?_getD, hset, Option.getD_some]
  rw [sum_map_getElem hget]
  symm
  apply Finset.sum_subset (Finset.range_subset_range.mpr hn)
  intro k _ hk
  rw [List.getD_eq_default _ _ (Nat.le_of_not_lt fun hlt => hk (Finset.mem_range.mpr hlt))]
  rfl

theorem sum_setSize {n : Nat} (hn : (allGroups batchSize.toNat queries).length ≤ n) :
    ∑ k ∈ Finset.range n, setSize queries batchSize k =
      ((allGroups batchSize.toNat queries).map fun g => g.2.length).sum := by
  have hcore : ∀ i, ∑ k ∈ Finset.range n,
      ((coreQuerySetList coreNum queries (allWindows batchSize.toNat queries.length) i).getD k []).length =
        ((deal coreNum (allGroups batchSize.toNat queries) i).map fun g => g.2.length).sum := by
    intro i
    rw [coreQuerySetList, deal_map, sum_getD_length, List.map_map]
    · rfl
    · rw [List.length_map]
      exact Nat.le_trans (length_deal_le_length _ _ _) hn
  simp only [setSize]
  rw [Finset.sum_comm]
  simp only [hcore]
  exact sum_deal (by decide) _ _

theorem sum_named (hb : 0 < batchSize.toNat) :
    ∑ c ∈ Finset.range clusterNum, named queries c =
      ((allGroups batchSize.toNat queries).map fun g => g.2.length).sum := by
  have hnamed : ∀ c, named queries c = ∑ q ∈ Finset.range queries.length, (queries.getD q []).count c := by
    intro c
    apply sum_map_getElem
    intro q clusters hq
    rw [List.getD_eq_getElem?_getD, hq, Option.getD_some]
  have hlength : ∀ g ∈ allGroups batchSize.toNat queries, g.2.length =
      ∑ c ∈ Finset.range clusterNum, ∑ q ∈ Finset.range queries.length, if g.1 = c then g.2.count q else 0 := by
    intro g hg
    obtain ⟨hc, w, hw, hset⟩ := group_bucket hg
    obtain ⟨k, -, rfl⟩ := List.mem_map.mp hw
    have hlt : ∀ q ∈ (g.2 : Multiset Nat), q ∈ Finset.range queries.length := by
      intro q hq
      have hmem : q ∈ windowSet batchSize.toNat queries k g.1 := by
        rw [Multiset.mem_coe, hset] at hq
        exact hq
      have hname := ((mem_windowSet queries hb k g.1 q).mp hmem).2
      by_contra hge
      rw [List.getD_eq_default _ _ (Nat.le_of_not_lt fun hlt => hge (Finset.mem_range.mpr hlt))] at hname
      cases hname
    rw [Finset.sum_eq_single g.1]
    · have hcard := Multiset.sum_count_eq_card hlt
      simp only [Multiset.coe_count, Multiset.coe_card] at hcard
      simp only [if_true, hcard]
    · intro c _ hne
      exact Finset.sum_eq_zero fun q _ => if_neg (Ne.symm hne)
    · intro hnot
      exact absurd (Finset.mem_range.mpr hc) hnot
  have hoccurs : ∀ c ∈ Finset.range clusterNum, named queries c =
      ∑ q ∈ Finset.range queries.length, occurrences q c (allGroups batchSize.toNat queries) := by
    intro c hc
    rw [hnamed]
    refine Finset.sum_congr rfl fun q _ => ?_
    rw [occurrences_allGroups queries hb q (Finset.mem_range.mp hc)]
  rw [Finset.sum_congr rfl hoccurs, List.map_congr_left hlength]
  have hswap : ∀ (n : Nat) (f : Nat × List Nat → Nat → Nat),
      ((allGroups batchSize.toNat queries).map fun g => ∑ i ∈ Finset.range n, f g i).sum =
        ∑ i ∈ Finset.range n, ((allGroups batchSize.toNat queries).map fun g => f g i).sum := by
    intro n f
    have := Multiset.sum_map_sum (m := (allGroups batchSize.toNat queries : Multiset _)) (s := Finset.range n) (f := f)
    simpa using this
  simp only [occurrences, hswap]

theorem setSize_le_charged (hpos : 0 < batchOfInt (intOfUint64 batchSize)) (k : Nat) :
    setSize queries batchSize k ≤ charged queries batchSize k :=
  Finset.sum_le_sum fun _ _ => length_le_charges hpos _ k

theorem setSize_eq_charged_iff (hpos : 0 < batchOfInt (intOfUint64 batchSize)) :
    (∀ k, setSize queries batchSize k = charged queries batchSize k) ↔
      ∀ g ∈ allGroups batchSize.toNat queries, g.2.length ≤ batchOfInt (intOfUint64 batchSize) := by
  let sets := coreQuerySetList coreNum queries (allWindows batchSize.toNat queries.length)
  have hsets : ∀ i, sets i = (deal coreNum (allGroups batchSize.toNat queries) i).map Prod.snd := by
    intro i
    exact deal_map _ _ _ _
  constructor
  · intro heq g hg
    obtain ⟨i, hi, hdeal⟩ := exists_deal (n := coreNum) (by decide) hg
    obtain ⟨k, hk⟩ := List.mem_iff_getElem?.mp hdeal
    have hset : (sets i).getD k [] = g.2 := by
      rw [hsets, List.getD_eq_getElem?_getD, List.getElem?_map, hk]
      rfl
    have hone := (Finset.sum_eq_sum_iff_of_le fun i _ => length_le_charges hpos (sets i) k).mp (heq k) i
      (Finset.mem_range.mpr hi)
    rw [← hset]
    exact (charges_eq_length_iff hpos (sets i) k).mp hone.symm
  · intro hfits k
    refine Finset.sum_congr rfl fun i _ => ?_
    symm
    apply (charges_eq_length_iff hpos (sets i) k).mpr
    by_cases hk : k < (sets i).length
    · have hmem : (sets i).getD k [] ∈ sets i := by
        rw [List.getD_eq_getElem _ _ hk]
        exact List.getElem_mem hk
      rw [hsets] at hmem
      obtain ⟨g, hg, hset⟩ := List.mem_map.mp hmem
      rw [hsets, ← hset]
      exact hfits g (mem_of_mem_deal hg)
    · rw [List.getD_eq_default _ _ (Nat.le_of_not_lt hk)]
      exact Nat.zero_le _

theorem charged_eq_zero {k : Nat} (hk : (allGroups batchSize.toNat queries).length ≤ k) :
    charged queries batchSize k = 0 := by
  refine Finset.sum_eq_zero fun i _ => charges_eq_zero ?_
  rw [coreQuerySetList, deal_map, List.length_map]
  exact Nat.le_trans (length_deal_le_length _ _ _) hk

theorem charged_eq_named_iff (hids : ∀ clusters ∈ queries, ∀ c ∈ clusters, c < clusterNum) (hb : 0 < batchSize.toNat)
    (hpos : 0 < batchOfInt (intOfUint64 batchSize)) :
    (∀ k, charged queries batchSize k = named queries k) ↔ ChargedAsNamed queries batchSize := by
  constructor
  · intro h
    let n := (allGroups batchSize.toNat queries).length + clusterNum
    -- both sides add up to the number of all entries, so no set is charged twice
    have hnamed : ∑ k ∈ Finset.range n, named queries k = ∑ k ∈ Finset.range clusterNum, named queries k := by
      symm
      apply Finset.sum_subset (Finset.range_subset_range.mpr (Nat.le_add_left _ _))
      intro k _ hk
      apply List.sum_eq_zero
      intro x hx
      obtain ⟨clusters, hcl, rfl⟩ := List.mem_map.mp hx
      exact List.count_eq_zero.mpr fun hmem => hk (Finset.mem_range.mpr (hids clusters hcl k hmem))
    have hsum : ∑ k ∈ Finset.range n, setSize queries batchSize k =
        ∑ k ∈ Finset.range n, charged queries batchSize k := by
      rw [sum_setSize (Nat.le_add_right _ _), Finset.sum_congr rfl fun k _ => h k, hnamed, sum_named hb]
    have heq : ∀ k, setSize queries batchSize k = charged queries batchSize k := by
      intro k
      by_cases hk : k < n
      · exact (Finset.sum_eq_sum_iff_of_le fun k _ => setSize_le_charged hpos k).mp hsum k (Finset.mem_range.mpr hk)
      · have hle : setSize queries batchSize k ≤ charged queries batchSize k := setSize_le_charged hpos k
        have hzero := charged_eq_zero (Nat.le_trans (Nat.le_add_right _ clusterNum) (Nat.le_of_not_lt hk))
        omega
    exact ⟨(setSize_eq_charged_iff hpos).mp heq, fun k => (heq k).trans (h k)⟩
  · intro h k
    exact ((setSize_eq_charged_iff hpos).mpr h.fits k).symm.trans (h.sizes k)

end

/-- `clusterAddr` is the table that `prepare_config` builds, followed by whatever stands behind it in memory. -/
structure Prepared (clusterSize : List Int32) (clusterAddr : Nat → Cluster) : Prop where
  length : clusterSize.length = clusterNum
  table : ∀ k < clusterNum, (prepareConfig clusterSize)[k]? = some (clusterAddr k)

theorem prepared_getD {clusterSize : List Int32} (h : clusterSize.length = clusterNum) (behind : Nat → Cluster) :
    Prepared clusterSize fun k => (prepareConfig clusterSize)[k]?.getD (behind k) := by
  refine ⟨h, ?_⟩
  intro k hk
  have hlt : k < (prepareConfig clusterSize).length := by rwa [length_prepareConfig h]
  rw [List.getElem?_eq_getElem hlt, Option.getD_some]

/-- Whenever a first `Run` exits, the cores have counted what `main` has: whatever the sizes of the clusters, the memory
and its timing are. -/
def CountsAgree (queries : List (List Nat)) (batchSize : UInt64) : Prop :=
  ∀ (clusterSize : List Int32) (clusterAddr : Nat → Cluster), Prepared clusterSize clusterAddr →
    ∀ (δ : Type) [MemorySystem δ] (useMemorySwitch : Bool) (mem : Port → δ) (unset : Port → Nat × Nat) (fuel : Nat)
      (s : MultiANNA δ), run clusterAddr fuel batchSize ((new useMemorySwitch mem unset).setup queries) = some s →
        s.submittedVectors = clusterVectorCnt clusterAddr queries ∧
          s.testValue.efmEncodedVectorBufferRead = clusterBytesCnt clusterAddr queries

/-- Every core gets a set, and the batch size is not 0 as an `int`. -/
def CanEnd (queries : List (List Nat)) (batchSize : UInt64) : Prop :=
  coreNum ≤ (allGroups batchSize.toNat queries).length ∧ 0 < batchOfInt (intOfUint64 batchSize)

section
variable {δ : Type} [MemorySystem δ] {clusterAddr : Nat → Cluster} {useMemorySwitch : Bool} {mem : Port → δ}
  {unset : Port → Nat × Nat} {queries : List (List Nat)} {batchSize : UInt64} {fuel : Nat} {s : MultiANNA δ}

theorem canEnd_of_run (hb : 0 < batchSize.toNat)
    (h : run clusterAddr fuel batchSize ((new useMemorySwitch mem unset).setup queries) = some s) :
    CanEnd queries batchSize := by
  obtain ⟨ws, hws, hr, -, hf⟩ := run_running clusterAddr (I := fun _ => True) h (fun _ => trivial) fun _ _ => trivial
  obtain rfl : ws = allWindows batchSize.toNat queries.length := windows_unique hb hws
  have hlast : 7 < s.annaCoreList.length := by
    rw [hr.length]
    decide
  have hc : s.annaCoreList[7]? = some s.annaCoreList[7] := List.getElem?_eq_getElem hlast
  obtain ⟨hne, ho, -⟩ := hr.all_saved (fun _ => groups_ne_nil) hc (hf _ (List.getElem_mem hlast))
  obtain ⟨hcl, -, hbatch⟩ := reach_work (hr.reach 7 _ hc)
  refine ⟨?_, hbatch ▸ ho.workable.batch⟩
  by_contra hlt
  apply hne
  rw [hcl, List.map_eq_nil_iff]
  exact (deal_eq_nil_iff _ (by decide)).mpr (Nat.le_of_lt_succ (Nat.lt_of_not_le hlt))

theorem countsAgree_of (hids : ∀ clusters ∈ queries, ∀ c ∈ clusters, c < clusterNum) (hb : 0 < batchSize.toNat)
    (h : CanEnd queries batchSize → ChargedAsNamed queries batchSize) : CountsAgree queries batchSize := by
  intro clusterSize clusterAddr _ δ _ useMemorySwitch mem unset fuel s hrun
  have hend := canEnd_of_run hb hrun
  have hcharged := (charged_eq_named_iff hids hb hend.2).mpr (h hend)
  let n := (allGroups batchSize.toNat queries).length + clusterNum
  have hlt : ∀ clusters ∈ queries, ∀ c ∈ clusters, c < n := by
    intro clusters hcl c hc
    exact Nat.lt_of_lt_of_le (hids clusters hcl c hc) (Nat.le_add_left _ _)
  obtain ⟨hv, hbytes⟩ := run_counts hb (Nat.le_add_right _ clusterNum) hrun
  simp only [hcharged] at hv hbytes
  exact ⟨hv.trans (countNamed_eq _ hlt).symm, hbytes.trans (countNamed_eq _ hlt).symm⟩

theorem exists_run (clusterAddr : Nat → Cluster) (hb : 0 < batchSize.toNat) (h : CanEnd queries batchSize) :
    ∃ fuel s, run clusterAddr fuel batchSize
      ((new false (fun _ => ([] : IdealDram)) fun _ => (0, 0)).setup queries) = some s := by
  apply run_exits clusterAddr _ (windows_eq queries.length hb) h.2
  intro i hi hnil
  have hle := (deal_eq_nil_iff _ hi).mp hnil
  have hlen : coreNum ≤ (groups queries (allWindows batchSize.toNat queries.length)).length := h.1
  omega

theorem exists_prepared (k : Nat) : ∃ clusterSize clusterAddr, Prepared clusterSize clusterAddr ∧
    ∀ j, (clusterAddr j).vectorNum.toNat = if j = k then 1 else 0 := by
  let size : Nat → Int32 := fun j => if j = k then 1 else 0
  let sizes := (List.range clusterNum).map size
  let behind : Nat → Cluster := fun j => ⟨clusterAddrStart, 0, if j = k then 1 else 0⟩
  have hlen : sizes.length = clusterNum := by rw [List.length_map, List.length_range]
  have hprepared := prepared_getD hlen behind
  refine ⟨sizes, _, hprepared, ?_⟩
  intro j
  by_cases hj : j < clusterNum
  · have hsize : sizes[j]? = some (size j) := by
      rw [List.getElem?_map, List.getElem?_range hj, Option.map_some]
    rw [(prepareConfig_get hsize (hprepared.table j hj)).2.1]
    by_cases hk : j = k
    · rw [if_pos hk]
      simp only [size, if_pos hk]
      decide
    · rw [if_neg hk]
      simp only [size, if_neg hk]
      decide
  · have hnone : (prepareConfig sizes)[j]? = none := by
      rw [List.getElem?_eq_none_iff, length_prepareConfig hlen]
      exact Nat.le_of_not_lt hj
    simp only [hnone, Option.getD_none, behind]
    split <;> rfl

theorem CountsAgree.chargedAsNamed (h : CountsAgree queries batchSize)
    (hids : ∀ clusters ∈ queries, ∀ c ∈ clusters, c < clusterNum) (hb : 0 < batchSize.toNat)
    (hend : CanEnd queries batchSize) : ChargedAsNamed queries batchSize := by
  apply (charged_eq_named_iff hids hb hend.2).mp
  intro k
  obtain ⟨sizes, table, hprepared, hvectors⟩ := exists_prepared k
  let n := (allGroups batchSize.toNat queries).length + clusterNum + (k + 1)
  have hlt : ∀ clusters ∈ queries, ∀ c ∈ clusters, c < n := by
    intro clusters hcl c hc
    have := hids clusters hcl c hc
    omega
  have hpick : ∀ f : Nat → Nat, ∑ j ∈ Finset.range n, (table j).vectorNum.toNat * f j = f k := by
    intro f
    rw [Finset.sum_eq_single k]
    · rw [hvectors, if_pos rfl, Nat.one_mul]
    · intro j _ hj
      rw [hvectors, if_neg hj, Nat.zero_mul]
    · intro hnot
      exact absurd (Finset.mem_range.mpr (by omega)) hnot
  obtain ⟨fuel, s, hrun⟩ := exists_run table hb hend
  have hagree := (h sizes table hprepared IdealDram false _ _ fuel s hrun).1
  rw [(run_counts (n := n) hb (by omega) hrun).1, clusterVectorCnt, countNamed_eq _ hlt, hpick, hpick] at hagree
  exact hagree

/-- The counts of the cores agree with that of `main` for the queries of which no run can end, and for those whose sets
fit into a slice and happen to stand where the table has the clusters that they are for. -/
theorem countsAgree_iff (hids : ∀ clusters ∈ queries, ∀ c ∈ clusters, c < clusterNum) (hb : 0 < batchSize) :
    CountsAgree queries batchSize ↔ (CanEnd queries batchSize → ChargedAsNamed queries batchSize) := by
  have hb' : 0 < batchSize.toNat := UInt64.lt_iff_toNat_lt.mp hb
  constructor
  · intro h
    exact h.chargedAsNamed hids hb'
  · exact countsAgree_of hids hb'

end

/-- Eight queries in eight windows, all for cluster 0. -/
theorem countsAgree_zeros : CountsAgree (List.replicate 8 [0]) 1 := by
  have hone : ∀ w : Nat × Nat, groupsOf (bucket (List.replicate 8 [0]) w.1 w.2) = (List.range 1).filterMap fun i =>
      if bucket (List.replicate 8 [0]) w.1 w.2 i = [] then none else some (i, bucket (List.replicate 8 [0]) w.1 w.2 i) :=
    fun w => groupsOf_bucket (by decide) (by decide)
  have hgroups : groups (List.replicate 8 [0]) (allWindows (UInt64.toNat 1) (List.replicate 8 [0]).length) =
      (List.range 8).map fun i => (0, [i]) := by
    simp only [groups, hone]
    decide +kernel
  refine (countsAgree_iff (by decide) (by decide)).mpr fun _ => ⟨?_, ?_⟩
  · rw [allGroups, hgroups]
    decide
  · intro k
    have hsets : ∀ i ∈ Finset.range coreNum, coreQuerySetList coreNum (List.replicate 8 [0])
        (allWindows (UInt64.toNat 1) (List.replicate 8 [0]).length) i = [[i]] := by
      rw [coreQuerySetList, hgroups]
      decide
    rw [setSize, Finset.sum_congr rfl fun i hi => by rw [hsets i hi]]
    cases k with
    | zero => rfl
    | succ k => simp [named]

/-- One query for the clusters 1 to 8: each core has one set, and all eight are charged for cluster 0. -/
theorem other_cluster_counted : ∃ clusterAddr fuel s, Prepared (2 :: List.replicate 16383 1) clusterAddr ∧
    run clusterAddr fuel 1
      ((new false (fun _ => ([] : IdealDram)) fun _ => (0, 0)).setup [[1, 2, 3, 4, 5, 6, 7, 8]]) = some s ∧
    s.submittedVectors = 16 ∧ s.testValue.efmEncodedVectorBufferRead = 512 ∧
    clusterVectorCnt clusterAddr [[1, 2, 3, 4, 5, 6, 7, 8]] = 8 ∧
    clusterBytesCnt clusterAddr [[1, 2, 3, 4, 5, 6, 7, 8]] = 256 := by
  let table : Nat → Cluster := fun k => (prepareConfig (2 :: List.replicate 16383 1))[k]?.getD ⟨0, 0, 0⟩
  have hprepared : Prepared (2 :: List.replicate 16383 1) table := by
    apply prepared_getD
    rw [List.length_cons, List.length_replicate]
    rfl
  have hgroups : groups [[1, 2, 3, 4, 5, 6, 7, 8]]
      (allWindows (UInt64.toNat 1) [[1, 2, 3, 4, 5, 6, 7, 8]].length) = (List.range 8).map fun i => (i + 1, [0]) := by
    have hw : allWindows (UInt64.toNat 1) [[1, 2, 3, 4, 5, 6, 7, 8]].length = [(0, 1)] := by decide
    rw [hw, groups, List.flatMap_singleton, groupsOf_bucket (n := 9) (by decide) (by decide)]
    decide +kernel
  have hend : CanEnd [[1, 2, 3, 4, 5, 6, 7, 8]] 1 := by
    refine ⟨?_, by decide⟩
    rw [allGroups, hgroups]
    decide
  have hcharged : ∀ k, charged [[1, 2, 3, 4, 5, 6, 7, 8]] 1 k = if k = 0 then 8 else 0 := by
    intro k
    have hsets : ∀ i ∈ Finset.range coreNum, coreQuerySetList coreNum [[1, 2, 3, 4, 5, 6, 7, 8]]
        (allWindows (UInt64.toNat 1) [[1, 2, 3, 4, 5, 6, 7, 8]].length) i = [[0]] := by
      rw [coreQuerySetList, hgroups]
      decide
    rw [charged, Finset.sum_congr rfl fun i hi => by rw [hsets i hi]]
    cases k with
    | zero =>
      have hone : charges (batchOfInt (intOfUint64 1)) [[0]] 0 = 1 :=
        (charges_eq_length_iff (by decide) [[0]] 0).mpr (by decide)
      rw [hone]
      rfl
    | succ k => simp [charges]
  obtain ⟨fuel, s, hrun⟩ := exists_run table (by decide) hend
  obtain ⟨hv, hb⟩ := run_counts (n := 8) (by decide) (by rw [allGroups, hgroups]; decide) hrun
  simp only [hcharged] at hv hb
  exact ⟨table, fuel, s, hprepared, hrun, hv, hb, rfl, rfl⟩

end MultiANNA

end Anna
