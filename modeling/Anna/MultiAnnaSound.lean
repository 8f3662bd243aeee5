import Anna.Grouping
import Anna.CoreFetch
import Mathlib.Order.Bounds.Basic

/-!
# Runs of the accelerator

Between its own ticks a core sees the memory change under the interface's
tick and the other cores' ticks; none of this touches the reads of its
readers. So every core of the system makes a run in the sense of
`ANNACore.Reach`, and what holds in every such run holds of it.
-/

namespace Anna

namespace ANNACore

section
variable {μ : Type} [MemoryPort μ] {clusterAddr : Nat → Cluster} {c : ANNACore} {p q : ANNACore × TestValue}

/-! ## What a core leaves alone -/

theorem part_readerIds (h : Part clusterAddr p q) : q.1.readerIds = p.1.readerIds := by
  cases h with
  | save k _ _ => rfl
  | scan k _ _ _ => rfl
  | @fetch c t k _ _ _ _ =>
    show [(c.requestCluster k).cpm.memoryReader.id, (c.requestCluster k).efm.metadataReader.id,
      (c.requestCluster k).efm.vectorReader.id] = c.readerIds
    unfold requestCluster
    split <;> rfl
  | hand _ _ _ => rfl

theorem clockTick_readerIds (clusterAddr : Nat → Cluster) (c : ANNACore) (w : World μ) :
    (c.clockTick clusterAddr w).1.readerIds = c.readerIds := by
  apply parts_invariant (I := fun d => d.readerIds = c.readerIds) (clockTick_parts clusterAddr c w)
  · intro p q hp hd
    rw [part_readerIds hp]
    exact hd
  · exact tickModules_readerIds c w

theorem clockTick_readers (clusterAddr : Nat → Cluster) (c : ANNACore) (w : World μ) :
    (c.clockTick clusterAddr w).2.memory = (c.efm.vectorReader.clockTick (c.efm.metadataReader.clockTick
      (c.cpm.memoryReader.clockTick w.memory).2).2).2 := by
  rw [← ClusterCodebookProcessingModule.clockTick_memory]
  rfl

theorem clockTick_inflight_other (clusterAddr : Nat → Cluster) (c : ANNACore) (w : World μ) {id : Nat}
    (h : id ∉ c.readerIds) :
    MemoryPort.inflight (c.clockTick clusterAddr w).2.memory id = MemoryPort.inflight w.memory id := by
  simp only [readerIds, List.mem_cons, List.not_mem_nil, or_false, not_or] at h
  obtain ⟨h1, h2, h3⟩ := h
  rw [clockTick_readers, MemoryReader.clockTick_inflight_other _ _ (Ne.symm h3),
    MemoryReader.clockTick_inflight_other _ _ (Ne.symm h2), MemoryReader.clockTick_inflight_other _ _ (Ne.symm h1)]

end

end ANNACore

namespace MultiANNA

open ANNACore

section
variable {μ : Type} [MemoryPort μ] (clusterAddr : Nat → Cluster)

theorem tickCores_ids (cs : List ANNACore) (w : World μ) :
    (tickCores clusterAddr cs w).1.flatMap readerIds = cs.flatMap readerIds := by
  induction cs generalizing w with
  | nil => rfl
  | cons c cs ih =>
    rw [tickCores, List.flatMap_cons, List.flatMap_cons, ih, clockTick_readerIds]

theorem tickCores_inflight (cs : List ANNACore) (w : World μ) {id : Nat} (h : id ∉ cs.flatMap readerIds) :
    MemoryPort.inflight (tickCores clusterAddr cs w).2.memory id = MemoryPort.inflight w.memory id := by
  induction cs generalizing w with
  | nil => rfl
  | cons c cs ih =>
    rw [List.flatMap_cons, List.mem_append, not_or] at h
    exact (ih _ h.2).trans (clockTick_inflight_other clusterAddr c w h.1)

/-- In a tick of all cores each one makes a tick of its own run, in a memory that the cores before it have not changed
for its readers: what only a tick of their own core can change, `M`, still holds of them. -/
theorem tickCores_each (cs : List ANNACore) (w : World μ) {b : Int32} {L : Nat → List Nat}
    {Q : Nat → List (List Nat)} {M : Nat → μ → Prop} (hids : (cs.flatMap readerIds).Nodup)
    (h : ∀ i c, cs[i]? = some c → Reach clusterAddr (L i) (Q i) b c w)
    (hM : ∀ id ∈ cs.flatMap readerIds, M id w.memory)
    (hkeep : ∀ (c : ANNACore) (w : World μ) id, id ∉ c.readerIds → M id w.memory →
      M id (c.clockTick clusterAddr w).2.memory) :
    ∀ i d, (tickCores clusterAddr cs w).1[i]? = some d →
      ∃ c w', cs[i]? = some c ∧ Reach clusterAddr (L i) (Q i) b c w' ∧ (∀ id ∈ c.readerIds, M id w'.memory) ∧
        d = (c.clockTick clusterAddr w').1 ∧
        ∀ id ∈ c.readerIds, MemoryPort.inflight (tickCores clusterAddr cs w).2.memory id =
          MemoryPort.inflight (c.clockTick clusterAddr w').2.memory id := by
  induction cs generalizing w L Q with
  | nil =>
    intro i d hd
    cases hd
  | cons c cs ih =>
    rw [List.flatMap_cons, List.nodup_append] at hids
    obtain ⟨-, hrest, hdisj⟩ := hids
    have hother : ∀ id ∈ cs.flatMap readerIds, id ∉ c.readerIds := fun id hid hmem => hdisj id hmem id hid rfl
    have htail : ∀ i e, cs[i]? = some e →
        Reach clusterAddr (L (i + 1)) (Q (i + 1)) b e (c.clockTick clusterAddr w).2 := by
      intro i e he
      refine .environment _ (h (i + 1) e he) ?_
      intro id hid
      exact clockTick_inflight_other clusterAddr c w
        (hother id (List.mem_flatMap.mpr ⟨e, List.mem_of_getElem? he, hid⟩))
    have hMtail : ∀ id ∈ cs.flatMap readerIds, M id (c.clockTick clusterAddr w).2.memory := by
      intro id hid
      exact hkeep c w id (hother id hid) (hM id (List.mem_append_right _ hid))
    intro i d hd
    cases i with
    | zero =>
      refine ⟨c, w, rfl, h 0 c rfl, ?_, (Option.some.inj hd).symm, ?_⟩
      · intro id hid
        exact hM id (List.mem_append_left _ hid)
      · intro id hid
        exact tickCores_inflight clusterAddr cs _ fun hmem => hdisj id hid id hmem rfl
    | succ i => exact ih (c.clockTick clusterAddr w).2 hrest htail hMtail i d hd

theorem tickCores_reach (cs : List ANNACore) (w : World μ) {b : Int32} {L : Nat → List Nat}
    {Q : Nat → List (List Nat)} (hids : (cs.flatMap readerIds).Nodup)
    (h : ∀ i c, cs[i]? = some c → Reach clusterAddr (L i) (Q i) b c w) :
    ∀ i c, (tickCores clusterAddr cs w).1[i]? = some c →
      Reach clusterAddr (L i) (Q i) b c (tickCores clusterAddr cs w).2 := by
  intro i d hd
  obtain ⟨c, w', -, hc, -, rfl, hfly⟩ := tickCores_each clusterAddr cs w (M := fun _ _ => True) hids h
    (fun _ _ => trivial) (fun _ _ _ _ _ => trivial) i d hd
  refine .environment _ hc.clockTick ?_
  intro id hid
  rw [clockTick_readerIds] at hid
  exact hfly id hid

theorem tickCores_memory {P : μ → Prop} (cs : List ANNACore) (w : World μ)
    (hkeep : ∀ c ∈ cs, ∀ w : World μ, P w.memory → P (c.clockTick clusterAddr w).2.memory) (h : P w.memory) :
    P (tickCores clusterAddr cs w).2.memory := by
  induction cs generalizing w with
  | nil => exact h
  | cons c cs ih =>
    apply ih _ fun d hd => hkeep d (List.mem_cons_of_mem _ hd)
    exact hkeep c List.mem_cons_self w h

theorem tickCores_clock (cs : List ANNACore) (w : World μ) {n : Nat} (h : ∀ c ∈ cs, c.clock = n) :
    (tickCores clusterAddr cs w).1.length = cs.length ∧ ∀ c ∈ (tickCores clusterAddr cs w).1, c.clock = n + 1 := by
  induction cs generalizing w with
  | nil =>
    refine ⟨rfl, ?_⟩
    intro c hc
    cases hc
  | cons d cs ih =>
    obtain ⟨hlen, hclock⟩ := ih (d.clockTick clusterAddr w).2 fun c hc => h c (List.mem_cons_of_mem _ hc)
    refine ⟨congrArg (· + 1) hlen, ?_⟩
    intro c hc
    rcases List.mem_cons.mp hc with rfl | hc
    · rw [(clockTick_log clusterAddr d w).1, h d List.mem_cons_self]
    · exact hclock c hc

end

/-! ## From construction to the main loop -/

section
variable {δ : Type}

structure Fresh (m : MultiMemoryInterface δ) (cs : List ANNACore) : Prop where
  ids : cs.flatMap readerIds = List.range m.idNum
  cores : ∀ c ∈ cs, ∃ i j v e q, c = ANNACore.new i j v e q
  idle : ∀ id, MemoryPort.inflight m id = 0

theorem inflight_registerId {m : MultiMemoryInterface δ} (coreId : Port) {id : Nat}
    (h : MemoryPort.inflight m id = 0) : MemoryPort.inflight (m.registerId coreId) id = 0 := by
  have h' : m.taggedNum id + m.readyNum id = 0 := h
  show m.taggedNum id + (m.registerId coreId).readyNum id = 0
  have hready : (m.registerId coreId).readyNum id ≤ m.readyNum id := by
    apply Finset.sum_le_sum
    intro st _
    show (Function.update (m.readReadyQueues st) m.idNum [] id).length ≤ _
    by_cases hid : id = m.idNum
    · subst hid; simp
    · rw [Function.update_of_ne hid]
  omega

theorem fresh_addCore (unset : Port → Nat × Nat) {m : MultiMemoryInterface δ} {cs : List ANNACore} (h : Fresh m cs)
    (coreId : Port) : Fresh (addCore unset (m, cs) coreId).1 (addCore unset (m, cs) coreId).2 := by
  refine ⟨?_, ?_, ?_⟩
  · show (cs ++ [ANNACore.new m.idNum (m.idNum + 1) (m.idNum + 2) _ _]).flatMap readerIds =
      List.range (m.idNum + 1 + 1 + 1)
    rw [List.flatMap_append, h.ids, List.range_succ, List.range_succ, List.range_succ, List.append_assoc,
      List.append_assoc]
    rfl
  · intro c hc
    rcases List.mem_append.mp hc with hc | hc
    · exact h.cores c hc
    · rw [List.mem_singleton] at hc
      exact ⟨_, _, _, _, _, hc⟩
  · intro id
    exact inflight_registerId coreId (inflight_registerId coreId (inflight_registerId coreId (h.idle id)))

theorem fresh_foldl (unset : Port → Nat × Nat) (ports : List Port) {m : MultiMemoryInterface δ} {cs : List ANNACore}
    (h : Fresh m cs) : Fresh (ports.foldl (addCore unset) (m, cs)).1 (ports.foldl (addCore unset) (m, cs)).2 ∧
      (ports.foldl (addCore unset) (m, cs)).2.length = cs.length + ports.length := by
  induction ports generalizing m cs with
  | nil => exact ⟨h, rfl⟩
  | cons p ports ih =>
    obtain ⟨hf, hlen⟩ := ih (fresh_addCore unset h p)
    refine ⟨hf, hlen.trans ?_⟩
    show (cs ++ [_]).length + ports.length = cs.length + (ports.length + 1)
    rw [List.length_append]
    simp only [List.length_cons, List.length_nil]
    omega

theorem fresh_new (useMemorySwitch : Bool) (mem : Port → δ) (unset : Port → Nat × Nat) :
    Fresh (new useMemorySwitch mem unset).memory (new useMemorySwitch mem unset).annaCoreList ∧
      (new useMemorySwitch mem unset).annaCoreList.length = coreNum := by
  have hnil : Fresh (MultiMemoryInterface.new useMemorySwitch mem) [] := by
    refine ⟨rfl, ?_, ?_⟩
    · intro c hc
      cases hc
    · intro id
      simp [MemoryPort.inflight, MultiMemoryInterface.taggedNum, MultiMemoryInterface.readyNum,
        MultiMemoryInterface.new, Multimap.tagged]
  exact fresh_foldl unset (List.finRange coreNum) hnil

theorem setupCores_eq (useMemorySwitch : Bool) (mem : Port → δ) (unset : Port → Nat × Nat)
    (queries : List (List Nat)) (batchSize : UInt64) (ws : List (Nat × Nat)) :
    (((new useMemorySwitch mem unset).setup queries).setupCores batchSize ws).annaCoreList =
      (new useMemorySwitch mem unset).annaCoreList.mapIdx fun i c =>
        c.setup ((deal coreNum (groups queries ws) i).map Prod.fst) ((deal coreNum (groups queries ws) i).map Prod.snd)
          (intOfUint64 batchSize) := by
  show List.mapIdx (fun i c => ANNACore.setup c (deal coreNum ([] ++ (groups queries ws).map Prod.fst) i)
    (deal coreNum ([] ++ (groups queries ws).map Prod.snd) i) _) _ = _
  simp only [List.nil_append, deal_map]
  rfl

theorem flatMap_readerIds_mapIdx (cs : List ANNACore) (f : Nat → ANNACore → ANNACore)
    (hf : ∀ i c, (f i c).readerIds = c.readerIds) : (cs.mapIdx f).flatMap readerIds = cs.flatMap readerIds := by
  induction cs generalizing f with
  | nil => rfl
  | cons c cs ih =>
    rw [List.mapIdx_cons, List.flatMap_cons, List.flatMap_cons, hf, ih _ fun i c => hf (i + 1) c]

theorem setupCores_ids (useMemorySwitch : Bool) (mem : Port → δ) (unset : Port → Nat × Nat)
    (queries : List (List Nat)) (batchSize : UInt64) (ws : List (Nat × Nat)) :
    (((new useMemorySwitch mem unset).setup queries).setupCores batchSize ws).annaCoreList.flatMap readerIds =
      List.range (new useMemorySwitch mem unset).memory.idNum := by
  rw [setupCores_eq, flatMap_readerIds_mapIdx]
  · exact (fresh_new useMemorySwitch mem unset).1.ids
  · intro i c
    rfl

theorem setupCores_log {useMemorySwitch : Bool} {mem : Port → δ} {unset : Port → Nat × Nat}
    {queries : List (List Nat)} {batchSize : UInt64} {ws : List (Nat × Nat)} :
    ∀ c ∈ (((new useMemorySwitch mem unset).setup queries).setupCores batchSize ws).annaCoreList, c.log = [] := by
  intro c hc
  rw [setupCores_eq] at hc
  obtain ⟨i, hi, rfl⟩ := List.mem_mapIdx.mp hc
  obtain ⟨_, _, _, _, _, hd⟩ := (fresh_new useMemorySwitch mem unset).1.cores _ (List.getElem_mem hi)
  rw [hd]
  rfl

end

section
variable {δ : Type} (clusterAddr : Nat → Cluster)

/-- The state of the main loop: the cores run on the hands that `P` was dealt into. -/
structure Running (P : List (Nat × List Nat)) (b : Int32) (s : MultiANNA δ) : Prop where
  length : s.annaCoreList.length = coreNum
  ids : (s.annaCoreList.flatMap readerIds).Nodup
  reach : ∀ i c, s.annaCoreList[i]? = some c → Reach clusterAddr ((deal coreNum P i).map Prod.fst)
    ((deal coreNum P i).map Prod.snd) b c ⟨s.memory, s.testValue⟩
  clock : ∀ c ∈ s.annaCoreList, c.clock = s.clock

theorem running_setupCores (useMemorySwitch : Bool) (mem : Port → δ) (unset : Port → Nat × Nat)
    (queries : List (List Nat)) (batchSize : UInt64) (ws : List (Nat × Nat)) :
    Running clusterAddr (groups queries ws) (intOfUint64 batchSize)
      (((new useMemorySwitch mem unset).setup queries).setupCores batchSize ws) := by
  obtain ⟨hfresh, hlen⟩ := fresh_new useMemorySwitch mem unset
  have hnodup : ((new useMemorySwitch mem unset).annaCoreList.flatMap readerIds).Nodup := by
    rw [hfresh.ids]
    exact List.nodup_range
  refine ⟨?_, ?_, ?_, ?_⟩
  · rw [setupCores_eq, List.length_mapIdx]
    exact hlen
  · rw [setupCores_ids]
    exact List.nodup_range
  · intro i c hc
    rw [setupCores_eq, List.getElem?_mapIdx] at hc
    obtain ⟨d, hd, rfl⟩ := Option.map_eq_some_iff.mp hc
    have hmem := List.mem_of_getElem? hd
    obtain ⟨id, j, v, e, q, rfl⟩ := hfresh.cores d hmem
    have hsub : List.Sublist [id, j, v] ((new useMemorySwitch mem unset).annaCoreList.flatMap readerIds) :=
      List.sublist_flatten_of_mem (List.mem_map_of_mem (f := readerIds) hmem)
    exact .setup e q _ (hnodup.sublist hsub) fun id' _ => hfresh.idle id'
  · intro c hc
    rw [setupCores_eq] at hc
    obtain ⟨i, hi, rfl⟩ := List.mem_mapIdx.mp hc
    obtain ⟨_, _, _, _, _, hd⟩ := hfresh.cores _ (List.getElem_mem hi)
    rw [hd]
    rfl

end

section
variable {δ : Type} {clusterAddr : Nat → Cluster} {P : List (Nat × List Nat)} {b : Int32} {s : MultiANNA δ}

theorem Running.orderly (hr : Running clusterAddr P b s) (hP : ∀ g ∈ P, g.2 ≠ []) (hb : 0 < batchOfInt b) {i : Nat}
    {c : ANNACore} (hc : s.annaCoreList[i]? = some c) : c.Orderly := by
  apply reach_orderly (hr.reach i c hc) _ _ hb
  · rw [List.length_map, List.length_map]
  · intro set hset
    obtain ⟨g, hg, rfl⟩ := List.mem_map.mp hset
    exact hP g (mem_of_mem_deal hg)

end

section
variable {δ : Type} [MemorySystem δ] (clusterAddr : Nat → Cluster)

section
variable {P : List (Nat × List Nat)} {b : Int32} {s : MultiANNA δ}

theorem Running.memoryTick (h : Running clusterAddr P b s) : ∀ i c, s.annaCoreList[i]? = some c →
    Reach clusterAddr ((deal coreNum P i).map Prod.fst) ((deal coreNum P i).map Prod.snd) b c
      ⟨s.memory.clockTick, s.testValue⟩ := by
  intro i c hc
  refine .environment _ (h.reach i c hc) ?_
  intro id _
  exact (MultiMemoryInterface.clockTick_counts s.memory id).1

theorem Running.clockTick (h : Running clusterAddr P b s) : Running clusterAddr P b (s.clockTick clusterAddr) := by
  obtain ⟨hlen, hclock⟩ := tickCores_clock clusterAddr s.annaCoreList ⟨s.memory.clockTick, s.testValue⟩ h.clock
  refine ⟨hlen.trans h.length, ?_, tickCores_reach clusterAddr _ _ h.ids h.memoryTick, hclock⟩
  show ((tickCores clusterAddr s.annaCoreList _).1.flatMap readerIds).Nodup
  rw [tickCores_ids]
  exact h.ids

end

/-- The main loop ends in a state of a run, with every core finished. -/
theorem loop_running {P : List (Nat × List Nat)} {b : Int32} {I : MultiANNA δ → Prop}
    (hstep : ∀ s, Running clusterAddr P b s → I s → I (s.clockTick clusterAddr)) :
    ∀ {fuel : Nat} {s s' : MultiANNA δ}, Running clusterAddr P b s → I s → loop clusterAddr fuel s = some s' →
      Running clusterAddr P b s' ∧ I s' ∧ ∀ c ∈ s'.annaCoreList, c.isFinished = true := by
  intro fuel
  induction fuel with
  | zero => intro s s' _ _ h; cases h
  | succ fuel ih =>
    intro s s' hr hi h
    have hr' := hr.clockTick
    have hi' := hstep s hr hi
    rw [loop] at h
    split at h
    · rename_i hall
      have hs := Option.some.inj h
      subst hs
      exact ⟨hr', hi', List.all_eq_true.mp hall⟩
    · exact ih hr' hi' h

/-- What holds when the cores are set up and is kept by a tick holds when `Run` exits. -/
theorem run_running {useMemorySwitch : Bool} {mem : Port → δ} {unset : Port → Nat × Nat} {queries : List (List Nat)}
    {batchSize : UInt64} {fuel : Nat} {s : MultiANNA δ} {I : MultiANNA δ → Prop}
    (h : run clusterAddr fuel batchSize ((new useMemorySwitch mem unset).setup queries) = some s)
    (hsetup : ∀ ws, I (((new useMemorySwitch mem unset).setup queries).setupCores batchSize ws))
    (hstep : ∀ {P b s}, Running clusterAddr P b s → I s → I (s.clockTick clusterAddr)) :
    ∃ ws, windows batchSize.toNat queries.length fuel 0 = some ws ∧
      Running clusterAddr (groups queries ws) (intOfUint64 batchSize) s ∧ I s ∧
      ∀ c ∈ s.annaCoreList, c.isFinished = true := by
  obtain ⟨ws, hws, hloop⟩ := Option.bind_eq_some_iff.mp h
  refine ⟨ws, hws, loop_running clusterAddr (fun _ => hstep) ?_ (hsetup ws) hloop⟩
  exact running_setupCores clusterAddr useMemorySwitch mem unset queries batchSize ws

end

end MultiANNA

end Anna
