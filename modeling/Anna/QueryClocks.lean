import Anna.MultiAnnaProgress

/-!
# The clocks of a query

All cores write the same two arrays. `queries_start_clock` keeps the first
clock written for a query and `queries_end_clock` the last one; since the
cores tick together these are the least and the greatest of all clocks at
which a slice with the query was handed to a CPM or recorded by an SCM.
-/

namespace Anna

/-- `o` is the least element of `s`, if it has any. -/
def Earliest (s : Set Nat) : Option Nat → Prop
  | none => s = ∅
  | some u => IsLeast s u

def Latest (s : Set Nat) : Option Nat → Prop
  | none => s = ∅
  | some u => IsGreatest s u

theorem Earliest.insert {s : Set Nat} {o : Option Nat} {n : Nat} (h : Earliest s o) (hn : ∀ u ∈ s, u ≤ n) :
    Earliest (s ∪ {n}) (if o = none then some n else o) := by
  cases o with
  | none =>
    have hs : s = ∅ := h
    rw [if_pos rfl, hs, Set.empty_union]
    exact isLeast_singleton
  | some u =>
    rw [if_neg (Option.some_ne_none u)]
    refine ⟨Or.inl h.1, ?_⟩
    rintro v (hv | rfl)
    · exact h.2 hv
    · exact hn u h.1

theorem latest_insert {s : Set Nat} {n : Nat} (hn : ∀ u ∈ s, u ≤ n) : Latest (s ∪ {n}) (some n) := by
  refine ⟨Or.inr rfl, ?_⟩
  rintro v (hv | rfl)
  · exact hn v hv
  · exact Nat.le_refl _

namespace CoreEvent

def handed : CoreEvent → Option (Slice × Nat)
  | .cpm s u => some (s, u)
  | _ => none

def saved : CoreEvent → Option (Slice × Nat)
  | .save s u => some (s, u)
  | _ => none

end CoreEvent

namespace ANNACore

/-- The clocks of the events of one kind whose slice contains query `q`. -/
def clocksOf (f : CoreEvent → Option (Slice × Nat)) (c : ANNACore) (q : Nat) : Set Nat :=
  {u | ∃ e ∈ c.log, ∃ s, f e = some (s, u) ∧ q ∈ c.queriesOf s}

def handedClocks (c : ANNACore) (q : Nat) : Set Nat := c.clocksOf CoreEvent.handed q

def savedClocks (c : ANNACore) (q : Nat) : Set Nat := c.clocksOf CoreEvent.saved q

theorem mem_clocksOf {f : CoreEvent → Option (Slice × Nat)} {mk : Slice → Nat → CoreEvent} {c : ANNACore} {q u : Nat}
    (hf : ∀ e s u, f e = some (s, u) ↔ e = mk s u) :
    u ∈ c.clocksOf f q ↔ ∃ s, mk s u ∈ c.log ∧ q ∈ c.queriesOf s := by
  constructor
  · rintro ⟨e, he, s, hes, hq⟩
    obtain rfl := (hf e s u).mp hes
    exact ⟨s, he, hq⟩
  · rintro ⟨s, hs, hq⟩
    exact ⟨_, hs, s, (hf _ s u).mpr rfl, hq⟩

theorem mem_handedClocks {c : ANNACore} {q u : Nat} :
    u ∈ c.handedClocks q ↔ ∃ s, CoreEvent.cpm s u ∈ c.log ∧ q ∈ c.queriesOf s := by
  apply mem_clocksOf
  intro e s u
  cases e <;> simp [CoreEvent.handed]

theorem mem_savedClocks {c : ANNACore} {q u : Nat} :
    u ∈ c.savedClocks q ↔ ∃ s, CoreEvent.save s u ∈ c.log ∧ q ∈ c.queriesOf s := by
  apply mem_clocksOf
  intro e s u
  cases e <;> simp [CoreEvent.saved]

theorem exists_log {f : CoreEvent → Option Slice} {mk : Slice → Nat → CoreEvent} {c : ANNACore} {s : Slice}
    (hf : ∀ e s, f e = some s → ∃ u, e = mk s u) (h : s ∈ c.log.filterMap f) : ∃ u, mk s u ∈ c.log := by
  obtain ⟨e, he, hes⟩ := List.mem_filterMap.mp h
  obtain ⟨u, rfl⟩ := hf e s hes
  exact ⟨u, he⟩

theorem exists_cpm {c : ANNACore} {s : Slice} (h : s ∈ c.cpmSlices) : ∃ u, CoreEvent.cpm s u ∈ c.log := by
  apply exists_log _ h
  intro e s
  cases e <;> simp [CoreEvent.cpmSlice]

theorem exists_save {c : ANNACore} {s : Slice} (h : s ∈ c.savedSlices) : ∃ u, CoreEvent.save s u ∈ c.log := by
  apply exists_log _ h
  intro e s
  cases e <;> simp [CoreEvent.savedSlice]

/-- The two arrays of `test_value` hold the least of the clocks `H` and the greatest of the clocks `S`. -/
structure ClocksMatch (H S : Nat → Set Nat) (t : TestValue) (n : Nat) : Prop where
  start : ∀ q, Earliest (H q) (t.queriesStartClock q)
  finish : ∀ q, Latest (S q) (t.queriesEndClock q)
  handedBound : ∀ q, ∀ u ∈ H q, u ≤ n
  savedBound : ∀ q, ∀ u ∈ S q, u ≤ n

/-- The arrays hold the clocks of this core and those of the others, `A` and `B`. -/
abbrev Clocked (A B : Nat → Set Nat) (c : ANNACore) (t : TestValue) (n : Nat) : Prop :=
  ClocksMatch (fun q => A q ∪ c.handedClocks q) (fun q => B q ∪ c.savedClocks q) t n

section
variable {A B : Nat → Set Nat} {c c' : ANNACore} {t t' : TestValue} {n : Nat}

theorem Clocked.frame (h : Clocked A B c t n) (hh : ∀ q, c'.handedClocks q = c.handedClocks q)
    (hs : ∀ q, c'.savedClocks q = c.savedClocks q) (ht : t'.queriesStartClock = t.queriesStartClock)
    (ht' : t'.queriesEndClock = t.queriesEndClock) : Clocked A B c' t' n := by
  refine ⟨?_, ?_, ?_, ?_⟩
  · intro q; rw [hh, ht]; exact h.start q
  · intro q; rw [hs, ht']; exact h.finish q
  · intro q; rw [hh]; exact h.handedBound q
  · intro q; rw [hs]; exact h.savedBound q

theorem mem_clocksOf_append {f : CoreEvent → Option (Slice × Nat)} {e : CoreEvent} (hl : c'.log = c.log ++ [e])
    (hq : c'.querySetList = c.querySetList) (q u : Nat) :
    u ∈ c'.clocksOf f q ↔ u ∈ c.clocksOf f q ∨ ∃ s, f e = some (s, u) ∧ q ∈ c.queriesOf s := by
  have hof : c'.queriesOf = c.queriesOf := by
    funext s
    unfold queriesOf querySet
    rw [hq]
  show (∃ e ∈ c'.log, ∃ s, f e = some (s, u) ∧ q ∈ c'.queriesOf s) ↔
    (∃ e ∈ c.log, ∃ s, f e = some (s, u) ∧ q ∈ c.queriesOf s) ∨ ∃ s, f e = some (s, u) ∧ q ∈ c.queriesOf s
  rw [hl, hof]
  constructor
  · rintro ⟨d, hd, hs⟩
    rcases List.mem_append.mp hd with hd | hd
    · exact Or.inl ⟨d, hd, hs⟩
    · rw [List.mem_singleton] at hd
      exact Or.inr (hd ▸ hs)
  · rintro (⟨d, hd, hs⟩ | hs)
    · exact ⟨d, List.mem_append_left _ hd, hs⟩
    · exact ⟨e, List.mem_append_right _ (List.mem_singleton_self e), hs⟩

theorem clocksOf_append_none {f : CoreEvent → Option (Slice × Nat)} {e : CoreEvent} (hl : c'.log = c.log ++ [e])
    (hq : c'.querySetList = c.querySetList) (he : f e = none) (q : Nat) : c'.clocksOf f q = c.clocksOf f q := by
  ext u
  rw [mem_clocksOf_append hl hq]
  constructor
  · rintro (h | ⟨s, hs, -⟩)
    · exact h
    · rw [he] at hs
      cases hs
  · exact Or.inl

theorem clocksOf_append_some {f : CoreEvent → Option (Slice × Nat)} {e : CoreEvent} {s : Slice}
    (hl : c'.log = c.log ++ [e]) (hq : c'.querySetList = c.querySetList) (he : f e = some (s, n)) (q : Nat) :
    c'.clocksOf f q = if q ∈ c.queriesOf s then c.clocksOf f q ∪ {n} else c.clocksOf f q := by
  ext u
  rw [mem_clocksOf_append hl hq]
  have hs : (∃ s', f e = some (s', u) ∧ q ∈ c.queriesOf s') ↔ u = n ∧ q ∈ c.queriesOf s := by
    rw [he]
    constructor
    · rintro ⟨s', hs, hmem⟩
      cases hs
      exact ⟨rfl, hmem⟩
    · rintro ⟨rfl, hmem⟩
      exact ⟨s, rfl, hmem⟩
  rw [hs]
  by_cases hmem : q ∈ c.queriesOf s
  · rw [if_pos hmem]
    exact or_congr_right (and_iff_left hmem)
  · rw [if_neg hmem]
    simp [hmem]

theorem bound_insert {A S S' : Set Nat} (h : ∀ u ∈ A ∪ S, u ≤ n) (hS : S' = S ∪ {n} ∨ S' = S) :
    ∀ u ∈ A ∪ S', u ≤ n := by
  rcases hS with rfl | rfl
  · rintro u (hu | hu | rfl)
    · exact h u (Or.inl hu)
    · exact h u (Or.inr hu)
    · exact Nat.le_refl _
  · exact h

theorem Clocked.save {k : Nat} (h : Clocked A B c t c.clock) :
    Clocked A B (c.saveSlice t k).1 (c.saveSlice t k).2 c.clock := by
  have hh : ∀ q, (c.saveSlice t k).1.handedClocks q = c.handedClocks q :=
    clocksOf_append_none (e := .save ⟨k, c.savingQueriesL, c.savingQueriesR⟩ c.clock) rfl rfl rfl
  have hs : ∀ q, (c.saveSlice t k).1.savedClocks q = if q ∈ c.queriesOf ⟨k, c.savingQueriesL, c.savingQueriesR⟩ then
      c.savedClocks q ∪ {c.clock} else c.savedClocks q := clocksOf_append_some rfl rfl rfl
  refine ⟨?_, ?_, ?_, ?_⟩
  · intro q
    rw [hh]
    exact h.start q
  · intro q
    rw [hs]
    show Latest _ (if q ∈ c.queriesOf ⟨k, c.savingQueriesL, c.savingQueriesR⟩ then _ else _)
    split
    · rw [← Set.union_assoc]
      exact latest_insert (h.savedBound q)
    · exact h.finish q
  · intro q
    rw [hh]
    exact h.handedBound q
  · intro q
    apply bound_insert (h.savedBound q)
    rw [hs]
    split
    · exact Or.inl rfl
    · exact Or.inr rfl

theorem Clocked.hand (h : Clocked A B c t c.clock) :
    Clocked A B (c.handSlice t).1 (c.handSlice t).2 c.clock := by
  have hs : ∀ q, (c.handSlice t).1.savedClocks q = c.savedClocks q :=
    clocksOf_append_none (e := .cpm ⟨c.slice, c.nextL, c.nextR⟩ c.clock) rfl rfl rfl
  have hh : ∀ q, (c.handSlice t).1.handedClocks q = if q ∈ c.queriesOf ⟨c.slice, c.nextL, c.nextR⟩ then
      c.handedClocks q ∪ {c.clock} else c.handedClocks q := clocksOf_append_some rfl rfl rfl
  refine ⟨?_, ?_, ?_, ?_⟩
  · intro q
    rw [hh]
    show Earliest _ (if q ∈ c.queriesOf ⟨c.slice, c.nextL, c.nextR⟩ ∧ t.queriesStartClock q = none then _ else _)
    by_cases hq : q ∈ c.queriesOf ⟨c.slice, c.nextL, c.nextR⟩
    · rw [if_pos hq, ← Set.union_assoc]
      simp only [hq, true_and]
      exact (h.start q).insert (h.handedBound q)
    · rw [if_neg hq, if_neg (fun hand => hq hand.1)]
      exact h.start q
  · intro q
    rw [hs]
    exact h.finish q
  · intro q
    apply bound_insert (h.handedBound q)
    rw [hh]
    split
    · exact Or.inl rfl
    · exact Or.inr rfl
  · intro q
    rw [hs]
    exact h.savedBound q

theorem Clocked.part {clusterAddr : Nat → Cluster} {p q : ANNACore × TestValue} (h : Clocked A B p.1 p.2 p.1.clock)
    (hp : Part clusterAddr p q) : Clocked A B q.1 q.2 p.1.clock := by
  have hwork := (part_work hp).2.1
  cases hp with
  | save k _ _ => exact h.save
  | scan k _ _ _ =>
    exact h.frame (clocksOf_append_none rfl hwork rfl) (clocksOf_append_none rfl hwork rfl) rfl rfl
  | fetch k _ _ _ _ =>
    exact h.frame (clocksOf_append_none rfl hwork rfl) (clocksOf_append_none rfl hwork rfl) rfl rfl
  | hand _ _ _ => exact h.hand

theorem Clocked.parts {clusterAddr : Nat → Cluster} {p q : ANNACore × TestValue} (h : Clocked A B p.1 p.2 p.1.clock)
    (hp : Parts clusterAddr p q) : Clocked A B q.1 q.2 q.1.clock := by
  induction hp with
  | refl => exact h
  | tail _ hlast ih =>
    rw [(part_log hlast).1]
    exact ih.part hlast

theorem tickModules_testValue {μ : Type} [MemoryPort μ] (clusterAddr : Nat → Cluster) (c : ANNACore) (w : World μ) :
    let t := (c.tickModules clusterAddr w).2.testValue
    t.queriesStartClock = w.testValue.queriesStartClock ∧ t.queriesEndClock = w.testValue.queriesEndClock ∧
      t.efmEncodedVectorBufferRead = w.testValue.efmEncodedVectorBufferRead := by
  show (c.cpm.clockTick w).2.testValue.queriesStartClock = _ ∧ (c.cpm.clockTick w).2.testValue.queriesEndClock = _ ∧
    (c.cpm.clockTick w).2.testValue.efmEncodedVectorBufferRead = _
  unfold ClusterCodebookProcessingModule.clockTick
  dsimp only
  split
  · exact ⟨rfl, rfl, rfl⟩
  · split
    · split
      · exact ⟨rfl, rfl, rfl⟩
      · split <;> exact ⟨rfl, rfl, rfl⟩
    · exact ⟨rfl, rfl, rfl⟩

theorem Clocked.clockTick {μ : Type} [MemoryPort μ] (clusterAddr : Nat → Cluster) {w : World μ}
    (h : Clocked A B c w.testValue (c.clock + 1)) :
    Clocked A B (c.clockTick clusterAddr w).1 (c.clockTick clusterAddr w).2.testValue (c.clock + 1) := by
  obtain ⟨hstart, hend, -⟩ := tickModules_testValue clusterAddr c w
  have hm : Clocked A B (c.tickModules clusterAddr w).1 (c.tickModules clusterAddr w).2.testValue
      (c.tickModules clusterAddr w).1.clock := h.frame (fun _ => rfl) (fun _ => rfl) hstart hend
  have := hm.parts (clockTick_parts clusterAddr c w)
  rw [(clockTick_log clusterAddr c w).1] at this
  exact this

end

/-! ## Facts of single runs -/

section
variable {μ : Type} [MemoryPort μ] {clusterAddr : Nat → Cluster} {clusterList : List Nat}
  {querySetList : List (List Nat)} {batchSize : Int32} {c : ANNACore} {w : World μ}

theorem save_in_tick {s : Slice} {u : Nat} (h : CoreEvent.save s u ∈ (c.clockTick clusterAddr w).1.log) :
    CoreEvent.save s u ∈ c.log ∨ c.scmSlot = some s ∧ u = c.clock + 1 := by
  have hnext : ∀ (d : ANNACore) (t : TestValue),
      CoreEvent.save s u ∈ (d.nextSlice t).1.log → CoreEvent.save s u ∈ d.log := by
    intro d t
    unfold nextSlice
    split
    · simp [handSlice]
    · exact id
  have hfetch : ∀ d : ANNACore, CoreEvent.save s u ∈ d.preFetch.log → CoreEvent.save s u ∈ d.log := by
    intro d
    unfold preFetch
    split
    · exact id
    · split
      · simp [fetchSlice]
      · exact id
  have hscan : ∀ (d : ANNACore) (t : TestValue),
      CoreEvent.save s u ∈ (d.scmProcess clusterAddr t).1.log → CoreEvent.save s u ∈ d.log := by
    intro d t
    unfold scmProcess
    split
    · exact id
    · split
      · simp [scanSlice]
      · exact id
  have hsave := hscan _ _ (hfetch _ (hnext _ _ h))
  unfold save at hsave
  split at hsave
  · exact Or.inl hsave
  · rename_i k hk
    split at hsave
    · rcases List.mem_append.mp hsave with hold | hnew
      · exact Or.inl hold
      · rw [List.mem_singleton] at hnew
        cases hnew
        have hk' : c.scmProcessingIndex = some k := hk
        refine Or.inr ⟨?_, rfl⟩
        rw [scmSlot, hk']
        rfl
    · exact Or.inl hsave

theorem handed_before_saved (h : Reach clusterAddr clusterList querySetList batchSize c w) {s : Slice} {u : Nat}
    (hs : CoreEvent.save s u ∈ c.log) : ∃ v < u, CoreEvent.cpm s v ∈ c.log := by
  induction h with
  | setup _ _ _ _ _ => cases hs
  | @clockTick c w h ih =>
    obtain ⟨-, es, hes, -⟩ := clockTick_log clusterAddr c w
    rcases save_in_tick hs with hold | ⟨hslot, rfl⟩
    · obtain ⟨v, hv, hmem⟩ := ih hold
      exact ⟨v, hv, by rw [hes]; exact List.mem_append_left _ hmem⟩
    · have hflow := reach_flow h
      have hscm : s ∈ c.scmSlices := by
        have := hflow 2 (by decide)
        have h2 : c.scmSlices = c.savedSlices ++ c.scmSlot.toList := this
        rw [h2, hslot]
        exact List.mem_append_right _ (List.mem_singleton_self s)
      have hcpm : s ∈ c.cpmSlices :=
        (hflow.entered_isPrefix (i := 0) (j := 2) (by decide) (by decide)).subset hscm
      obtain ⟨v, hv⟩ := exists_cpm hcpm
      refine ⟨v, Nat.lt_succ_of_le (reach_timed h _ hv v rfl).2, ?_⟩
      rw [hes]
      exact List.mem_append_left _ hv
  | environment _ _ _ ih => exact ih hs

/-- A batch size that becomes 0 as an `int` gives slices without queries, and no end. -/
theorem reach_zero_batch (h : Reach clusterAddr clusterList querySetList batchSize c w)
    (hlen : querySetList.length = clusterList.length) (hsets : ∀ set ∈ querySetList, set ≠ [])
    (hb : batchOfInt batchSize = 0) : c.finished = false := by
  have hempty := reach_invariant (I := fun c => c.batchSize = 0 ∧ (c.sliceChanged = true ∨ c.sliceQueries = 0) ∧
    ∀ s ∈ c.cpmSlices, s.r = 0) h ?_ ?_ ?_
  · by_cases hne : clusterList = []
    · subst hne
      exact (reach_empty h).2.1
    · rw [Bool.eq_false_iff]
      intro hf
      obtain ⟨s, hs, hk, hr⟩ := (reach_finish h hne).mp hf
      have hcpm : s ∈ c.cpmSlices :=
        ((reach_flow h).entered_isPrefix (i := 0) (j := 3) (by decide) (by decide)).subset hs
      obtain ⟨hcl, hqs, -⟩ := reach_work h
      rw [hcl] at hk
      have hlt : s.k < querySetList.length := by omega
      have hset : c.querySet s.k = querySetList[s.k] := by
        rw [querySet, hqs]
        exact List.getD_eq_getElem _ _ hlt
      rw [hempty.2.2 s hcpm, hset] at hr
      exact hsets _ (List.getElem_mem hlt) (List.eq_nil_of_length_eq_zero hr.symm)
  · intro _ _ _ _ _
    refine ⟨hb, Or.inl rfl, ?_⟩
    intro s hs
    cases hs
  · intro c w hc
    exact hc
  · rintro p q hp ⟨h0, hq, hall⟩
    rcases part_generator hp with ⟨hgen, hcpm⟩ | ⟨-, rfl⟩
    · simp only [generator, Prod.mk.injEq] at hgen
      obtain ⟨-, h2, h3, h4, -, -⟩ := hgen
      rw [h2, h3, h4, hcpm]
      exact ⟨h0, hq, hall⟩
    · have hl : p.1.nextL = 0 := by
        unfold nextL
        rcases hq with hq | hq
        · rw [hq]
          rfl
        · rw [hq, h0]
          split <;> rfl
      refine ⟨h0, Or.inr hl, ?_⟩
      intro s hs
      have happ : (p.1.handSlice p.2).1.cpmSlices = p.1.cpmSlices ++ [⟨p.1.slice, p.1.nextL, p.1.nextR⟩] := by
        simp [handSlice, cpmSlices, CoreEvent.cpmSlice]
      rw [happ, List.mem_append, List.mem_singleton] at hs
      rcases hs with hs | rfl
      · exact hall s hs
      · show min (p.1.nextL + p.1.batchSize) _ = 0
        rw [hl, h0]
        exact Nat.zero_min _

end

end ANNACore

/-! ## All cores together -/

namespace MultiANNA

open ANNACore

def handedBy (cs : List ANNACore) (q : Nat) : Set Nat := {u | ∃ c ∈ cs, u ∈ c.handedClocks q}

def savedBy (cs : List ANNACore) (q : Nat) : Set Nat := {u | ∃ c ∈ cs, u ∈ c.savedClocks q}

theorem handedBy_cons (c : ANNACore) (cs : List ANNACore) (q : Nat) :
    handedBy (c :: cs) q = c.handedClocks q ∪ handedBy cs q := by
  ext u
  simp [handedBy]

theorem savedBy_cons (c : ANNACore) (cs : List ANNACore) (q : Nat) :
    savedBy (c :: cs) q = c.savedClocks q ∪ savedBy cs q := by
  ext u
  simp [savedBy]

theorem tickCores_clocked {μ : Type} [MemoryPort μ] (clusterAddr : Nat → Cluster) {n : Nat} :
    ∀ {cs : List ANNACore} {w : World μ} {A B : Nat → Set Nat}, (∀ c ∈ cs, c.clock + 1 = n) →
      ClocksMatch (fun q => A q ∪ handedBy cs q) (fun q => B q ∪ savedBy cs q) w.testValue n →
      ClocksMatch (fun q => A q ∪ handedBy (tickCores clusterAddr cs w).1 q)
        (fun q => B q ∪ savedBy (tickCores clusterAddr cs w).1 q) (tickCores clusterAddr cs w).2.testValue n := by
  intro cs
  induction cs with
  | nil => intro w A B _ h; exact h
  | cons c cs ih =>
    intro w A B hn h
    obtain rfl := hn c List.mem_cons_self
    -- the clocks of the cores behind this one count among those of the others
    simp only [handedBy_cons, savedBy_cons, Set.union_comm (c.handedClocks _), Set.union_comm (c.savedClocks _),
      ← Set.union_assoc] at h
    have hc := Clocked.clockTick clusterAddr (w := w) h
    simp only [Clocked, Set.union_right_comm _ (handedBy _ _), Set.union_right_comm _ (savedBy _ _)] at hc
    have hcs := ih (fun d hd => hn d (List.mem_cons_of_mem _ hd)) hc
    simp only [tickCores, handedBy_cons, savedBy_cons, ← Set.union_assoc]
    exact hcs

def ClocksKept {δ : Type} (s : MultiANNA δ) : Prop :=
  ClocksMatch (handedBy s.annaCoreList) (savedBy s.annaCoreList) s.testValue s.clock

section
variable {δ : Type} {clusterAddr : Nat → Cluster} {P : List (Nat × List Nat)} {b : Int32} {s : MultiANNA δ}

theorem clocksKept_setupCores (useMemorySwitch : Bool) (mem : Port → δ) (unset : Port → Nat × Nat)
    (queries : List (List Nat)) (batchSize : UInt64) (ws : List (Nat × Nat)) :
    ClocksKept (((new useMemorySwitch mem unset).setup queries).setupCores batchSize ws) := by
  let s := ((new useMemorySwitch mem unset).setup queries).setupCores batchSize ws
  have hempty : ∀ f q, ¬ ∃ u, ∃ c ∈ s.annaCoreList, u ∈ c.clocksOf f q := by
    rintro f q ⟨u, c, hc, e, he, -⟩
    rw [setupCores_log c hc] at he
    cases he
  refine ⟨?_, ?_, ?_, ?_⟩
  · intro q
    exact Set.eq_empty_of_forall_notMem fun u hu => hempty _ q ⟨u, hu⟩
  · intro q
    exact Set.eq_empty_of_forall_notMem fun u hu => hempty _ q ⟨u, hu⟩
  · intro q u hu
    exact absurd ⟨u, hu⟩ (hempty _ q)
  · intro q u hu
    exact absurd ⟨u, hu⟩ (hempty _ q)

theorem ClocksKept.clockTick [MemorySystem δ] (hr : Running clusterAddr P b s) (h : ClocksKept s) :
    ClocksKept (s.clockTick clusterAddr) := by
  have hn : ∀ c ∈ s.annaCoreList, c.clock + 1 = s.clock + 1 := by
    intro c hc
    rw [hr.clock c hc]
  have hlater : ClocksMatch (fun q => ∅ ∪ handedBy s.annaCoreList q) (fun q => ∅ ∪ savedBy s.annaCoreList q)
      s.testValue (s.clock + 1) := by
    simp only [Set.empty_union]
    refine ⟨h.start, h.finish, ?_, ?_⟩
    · intro q u hu
      exact Nat.le_succ_of_le (h.handedBound q u hu)
    · intro q u hu
      exact Nat.le_succ_of_le (h.savedBound q u hu)
  have := tickCores_clocked clusterAddr (w := ⟨s.memory.clockTick, s.testValue⟩) hn hlater
  simp only [Set.empty_union] at this
  exact this

/-! ## When the run is over -/

theorem Running.all_saved (hr : Running clusterAddr P b s) (hP : ∀ g ∈ P, g.2 ≠ []) {i : Nat} {c : ANNACore}
    (hc : s.annaCoreList[i]? = some c) (hf : c.isFinished = true) :
    c.clusterList ≠ [] ∧ c.Orderly ∧ c.savedSlices = slices c.batchSize c.querySetList := by
  have h := hr.reach i c hc
  have hlen : ((deal coreNum P i).map Prod.snd).length = ((deal coreNum P i).map Prod.fst).length := by
    rw [List.length_map, List.length_map]
  have hsets : ∀ set ∈ (deal coreNum P i).map Prod.snd, set ≠ [] := by
    intro set hset
    obtain ⟨g, hg, rfl⟩ := List.mem_map.mp hset
    exact hP g (mem_of_mem_deal hg)
  have hb : 0 < batchOfInt b := by
    apply Nat.pos_of_ne_zero
    intro hzero
    rw [isFinished, reach_zero_batch h hlen hsets hzero] at hf
    cases hf
  obtain ⟨hcl, -, -⟩ := reach_work h
  have hne : c.clusterList ≠ [] := by
    intro hnil
    rw [hcl] at hnil
    rw [hnil] at h
    rw [isFinished, (reach_empty h).2.1] at hf
    cases hf
  have ho := hr.orderly hP hb hc
  exact ⟨hne, ho, (ho.finished_iff hne).mp hf⟩

theorem mem_queriesOf {c : ANNACore} {set : List Nat} {k i q : Nat} {sl : Slice} (hset : c.querySetList[k]? = some set)
    (hi : set[i]? = some q) (hcov : Slice.covers k i sl = true) : q ∈ c.queriesOf sl := by
  simp only [Slice.covers, Bool.and_eq_true, beq_iff_eq, decide_eq_true_eq] at hcov
  obtain ⟨rfl, hl, hr⟩ := hcov
  have hq : c.querySet sl.k = set := by rw [querySet, List.getD_eq_getElem?_getD, hset, Option.getD_some]
  apply List.mem_iff_getElem?.mpr
  refine ⟨i - sl.l, ?_⟩
  rw [queriesOf, hq, List.getElem?_drop, Nat.add_sub_cancel' hl, List.getElem?_take_of_lt hr]
  exact hi

/-- Every cluster that a query names has been searched for it on some core. -/
theorem Running.searched {queries : List (List Nat)} {ws : List (Nat × Nat)} {bs fuel : Nat}
    (hr : Running clusterAddr (groups queries ws) b s) (hws : windows bs queries.length fuel 0 = some ws)
    (hf : ∀ c ∈ s.annaCoreList, c.isFinished = true) {q k : Nat} (hk : k ∈ queries.getD q []) (hlt : k < clusterNum) :
    ∃ c ∈ s.annaCoreList, ∃ sl ∈ c.savedSlices, c.clusterList[sl.k]? = some k ∧ q ∈ c.queriesOf sl := by
  have hq : q < queries.length := by
    by_contra hge
    rw [List.getD_eq_getElem?_getD, List.getElem?_eq_none (Nat.le_of_not_lt hge)] at hk
    cases hk
  -- the group of the query and the cluster, and the core that has it
  obtain ⟨w, hw, hwl, hwr⟩ := windows_cover hws q (Nat.zero_le q) hq
  obtain ⟨g, hg, rfl, hqg⟩ := exists_group hw hwl hwr hk hlt
  obtain ⟨j, hj, hdeal⟩ := exists_deal (n := coreNum) (by decide) hg
  have hjlen : j < s.annaCoreList.length := hr.length.symm ▸ hj
  have hcj : s.annaCoreList[j]? = some s.annaCoreList[j] := List.getElem?_eq_getElem hjlen
  have hmem : s.annaCoreList[j] ∈ s.annaCoreList := List.getElem_mem hjlen
  obtain ⟨-, ho, hsaved⟩ := hr.all_saved (fun _ => groups_ne_nil) hcj (hf _ hmem)
  obtain ⟨hcl, hqs, -⟩ := reach_work (hr.reach j _ hcj)
  -- the slice of the group with the query in it
  obtain ⟨m, hm⟩ := List.mem_iff_getElem?.mp hdeal
  obtain ⟨i, hi⟩ := List.mem_iff_getElem?.mp hqg
  have hset : s.annaCoreList[j].querySetList[m]? = some g.2 := by rw [hqs, List.getElem?_map, hm]; rfl
  have hcount := slicesFrom_covers ho.workable.batch 0 s.annaCoreList[j].querySetList m i
  have hin : 0 ≤ m ∧ m < 0 + s.annaCoreList[j].querySetList.length ∧
      i < (s.annaCoreList[j].querySetList.getD (m - 0) []).length := by
    refine ⟨Nat.zero_le m, ?_, ?_⟩
    · rw [Nat.zero_add]
      exact (List.getElem?_eq_some_iff.mp hset).1
    · rw [Nat.sub_zero, List.getD_eq_getElem?_getD, hset]
      exact (List.getElem?_eq_some_iff.mp hi).1
  rw [if_pos hin] at hcount
  obtain ⟨sl, hsl, hcov⟩ := List.countP_pos_iff.mp (hcount ▸ Nat.one_pos)
  refine ⟨_, hmem, sl, hsaved ▸ hsl, ?_, mem_queriesOf hset hi hcov⟩
  simp only [Slice.covers, Bool.and_eq_true, beq_iff_eq] at hcov
  rw [hcl, hcov.1, List.getElem?_map, hm]
  rfl

theorem mem_savedBy {c : ANNACore} {sl : Slice} {q : Nat} (hc : c ∈ s.annaCoreList) (hsl : sl ∈ c.savedSlices)
    (hq : q ∈ c.queriesOf sl) : ∃ u, u ∈ savedBy s.annaCoreList q := by
  obtain ⟨u, hu⟩ := exists_save hsl
  exact ⟨u, c, hc, mem_savedClocks.mpr ⟨sl, hu, hq⟩⟩

theorem Running.handed_before (hr : Running clusterAddr P b s) {q u : Nat} (hu : u ∈ savedBy s.annaCoreList q) :
    ∃ v < u, v ∈ handedBy s.annaCoreList q := by
  obtain ⟨c, hc, hu⟩ := hu
  obtain ⟨sl, hs, hq⟩ := mem_savedClocks.mp hu
  obtain ⟨i, hi⟩ := List.mem_iff_getElem?.mp hc
  obtain ⟨v, hv, hmem⟩ := handed_before_saved (hr.reach i c hi) hs
  exact ⟨v, hv, c, hc, mem_handedClocks.mpr ⟨sl, hmem, hq⟩⟩

theorem Running.handed_pos (hr : Running clusterAddr P b s) {q u : Nat} (hu : u ∈ handedBy s.annaCoreList q) :
    0 < u := by
  obtain ⟨c, hc, hu⟩ := hu
  obtain ⟨sl, hs, -⟩ := mem_handedClocks.mp hu
  obtain ⟨i, hi⟩ := List.mem_iff_getElem?.mp hc
  exact (reach_timed (hr.reach i c hi) _ hs u rfl).1

end

section
variable {δ : Type} [MemorySystem δ] {clusterAddr : Nat → Cluster} {useMemorySwitch : Bool} {mem : Port → δ}
  {unset : Port → Nat × Nat} {queries : List (List Nat)} {batchSize : UInt64} {fuel : Nat} {s : MultiANNA δ}

/-- When `Run` exits, every slice of every core is recorded, every cluster of a query has been searched for it, and
the arrays hold the first clock at which the query was handed to a CPM and the last at which an SCM was done with it. -/
theorem query_clocks (hids : ∀ clusters ∈ queries, ∀ k ∈ clusters, k < clusterNum)
    (h : run clusterAddr fuel batchSize ((new useMemorySwitch mem unset).setup queries) = some s)
    {q : Nat} (hq : queries.getD q [] ≠ []) :
    (∀ c ∈ s.annaCoreList, c.savedSlices = slices c.batchSize c.querySetList) ∧
      (∀ k ∈ queries.getD q [], ∃ c ∈ s.annaCoreList, ∃ sl ∈ c.savedSlices,
        c.clusterList[sl.k]? = some k ∧ q ∈ c.queriesOf sl) ∧
      ∃ start finish, s.testValue.queriesStartClock q = some start ∧ s.testValue.queriesEndClock q = some finish ∧
        IsLeast (handedBy s.annaCoreList q) start ∧ IsGreatest (savedBy s.annaCoreList q) finish ∧
        0 < start ∧ start < finish ∧ finish ≤ s.getClockNum := by
  obtain ⟨ws, hws, hr, hkept, hf⟩ := run_running clusterAddr h
    (clocksKept_setupCores useMemorySwitch mem unset queries batchSize) fun hr hi => hi.clockTick hr
  have hlt : ∀ k ∈ queries.getD q [], k < clusterNum := by
    intro k hk
    obtain ⟨clusters, hmem, hcl⟩ := exists_mem_of_mem_getD hk
    exact hids clusters hmem k hcl
  have hsearched : ∀ k ∈ queries.getD q [], ∃ c ∈ s.annaCoreList, ∃ sl ∈ c.savedSlices,
      c.clusterList[sl.k]? = some k ∧ q ∈ c.queriesOf sl := by
    intro k hk
    exact hr.searched hws hf hk (hlt k hk)
  have hsaved : ∀ c ∈ s.annaCoreList, c.savedSlices = slices c.batchSize c.querySetList := by
    intro c hc
    obtain ⟨i, hi⟩ := List.mem_iff_getElem?.mp hc
    exact (hr.all_saved (fun _ => groups_ne_nil) hi (hf c hc)).2.2
  refine ⟨hsaved, hsearched, ?_⟩
  -- the query is in a recorded slice, so neither array still holds -1
  obtain ⟨k, hk⟩ := List.exists_mem_of_ne_nil _ hq
  obtain ⟨c, hc, sl, hsl, -, hmem⟩ := hsearched k hk
  obtain ⟨u, hu⟩ := mem_savedBy hc hsl hmem
  obtain ⟨v, -, hv⟩ := hr.handed_before hu
  have hstart := hkept.start q
  have hfinish := hkept.finish q
  cases hS : s.testValue.queriesStartClock q with
  | none =>
    rw [hS] at hstart
    exact absurd hv (Set.eq_empty_iff_forall_notMem.mp hstart v)
  | some start =>
    cases hE : s.testValue.queriesEndClock q with
    | none =>
      rw [hE] at hfinish
      exact absurd hu (Set.eq_empty_iff_forall_notMem.mp hfinish u)
    | some finish =>
      rw [hS] at hstart
      rw [hE] at hfinish
      obtain ⟨w, hw, hwmem⟩ := hr.handed_before hfinish.1
      refine ⟨start, finish, rfl, rfl, hstart, hfinish, hr.handed_pos hstart.1, ?_, hkept.savedBound q _ hfinish.1⟩
      exact Nat.lt_of_le_of_lt (hstart.2 hwmem) hw

theorem query_clocks_eight : ∃ fuel s, run (fun _ => ⟨clusterAddrStart, 32, 1⟩) fuel 1
      ((new false (fun _ => ([] : IdealDram)) fun _ => (0, 0)).setup [[0, 1, 2, 3, 4, 5, 6, 7]]) = some s ∧
    ∃ start finish, s.testValue.queriesStartClock 0 = some start ∧ s.testValue.queriesEndClock 0 = some finish ∧
      IsLeast (handedBy s.annaCoreList 0) start ∧ IsGreatest (savedBy s.annaCoreList 0) finish ∧
      0 < start ∧ start < finish ∧ finish ≤ s.getClockNum := by
  have hws : windows (UInt64.toNat 1) [[0, 1, 2, 3, 4, 5, 6, 7]].length 2 0 = some [(0, 1)] := by decide
  have hgroups : groups [[0, 1, 2, 3, 4, 5, 6, 7]] [(0, 1)] = (List.range 8).map fun i => (i, [0]) := by
    rw [groups, List.flatMap_singleton, groupsOf_bucket (n := 8) (by decide) (by decide)]
    decide +kernel
  have hwork : ∀ i < coreNum, deal coreNum (groups [[0, 1, 2, 3, 4, 5, 6, 7]] [(0, 1)]) i ≠ [] := by
    rw [hgroups]
    decide
  obtain ⟨fuel, s, hrun⟩ := run_exits (fun _ => ⟨clusterAddrStart, 32, 1⟩) (fun _ => (0, 0)) hws (by decide) hwork
  exact ⟨fuel, s, hrun, (query_clocks (by decide) hrun (q := 0) (by decide)).2.2⟩

end

end MultiANNA

end Anna
