import Anna.CoreScan

/-!
# A core gets on

If the memory is prompt, that is, if a read is back two ticks after its
request, then a core never stops before its work is done. `delay` bounds how
long each module is still busy; it falls with every tick in which no slice
moves on, and once it is 0 some slice does.
-/

namespace Anna

/-! ## Readers -/

namespace MemoryReader

section
variable {μ : Type} [MemoryPort μ] {P : μ → Prop}

theorem issue_memory (id : Nat) : ∀ (budget : Nat) (q : List UInt64) {m : μ},
    (q ≠ [] → ∀ m addr, P m → P (MemoryPort.requestRead m id addr)) → P m → P (issue id budget q m).2
  | 0, _, _, _, h => h
  | _ + 1, [], _, _, h => h
  | budget + 1, addr :: q, m, hreq, h =>
    issue_memory id budget q (fun _ => hreq (List.cons_ne_nil _ _)) (hreq (List.cons_ne_nil _ _) m addr h)

theorem clockTick_memory {r : MemoryReader} {m : μ}
    (hreq : r.requestQueue ≠ [] → ∀ m addr, P m → P (MemoryPort.requestRead m r.id addr))
    (hget : ∀ m, P m → P (MemoryPort.getAllReadyReadRequest m r.id).2) (h : P m) : P (r.clockTick m).2 :=
  hget _ (issue_memory r.id 17 r.requestQueue hreq h)

end

/-- A bound on the ticks until the reader has finished; `a` is the reader one tick earlier. -/
def delay (a r : MemoryReader) : Nat :=
  if r.finished then 0
  else if r.isReady then 1
  else r.requestQueue.length + if a.requestQueue = [] ∧ r.requestQueue = [] then 2 else 3

theorem delay_eq_zero {a r : MemoryReader} : delay a r = 0 ↔ r.finished = true := by
  unfold delay
  constructor
  · intro h
    by_contra hf
    rw [if_neg hf] at h
    split at h
    · cases h
    · split at h <;> omega
  · intro h
    rw [if_pos h]

theorem delay_le (a r : MemoryReader) : delay a r ≤ r.requestQueue.length + 3 := by
  unfold delay
  split
  · omega
  · split
    · omega
    · split <;> omega

section
variable {δ : Type} {a r : MemoryReader} {m : MultiMemoryInterface δ}

theorem clockTick_taggedNum (r : MemoryReader) (m : MultiMemoryInterface δ) {id : Nat} (h : r.id ≠ id) :
    (r.clockTick m).2.taggedNum id = m.taggedNum id := by
  apply clockTick_memory (P := fun m' : MultiMemoryInterface δ => m'.taggedNum id = m.taggedNum id) _ _ rfl
  · intro _ m' addr hm'
    show (m'.requestRead r.id addr).taggedNum id = _
    rw [MultiMemoryInterface.taggedNum, (MultiMemoryInterface.requestRead_idMap m' r.id addr).1,
      MultiMemoryInterface.taggedNum_insert, if_neg h, Nat.add_zero]
    exact hm'
  · intro m' hm'
    exact hm'

theorem isReady_untagged (hc : r.Consistent m) (hq : r.requestQueue = []) (htag : m.taggedNum r.id = 0) :
    (r.clockTick m).1.isReady = true := by
  have hissue : issue r.id 17 r.requestQueue m = ([], m) := by
    rw [hq]
    rfl
  have hnum : (r.clockTick m).1.processingNum = (issue r.id 17 r.requestQueue m).1.length +
      (MultiMemoryInterface.taggedNum (r.clockTick m).2 r.id + MultiMemoryInterface.readyNum (r.clockTick m).2 r.id) :=
    hc.clockTick
  have hmem : (r.clockTick m).2 = (m.getAllReadyReadRequest r.id).2 := by
    show (MemoryPort.getAllReadyReadRequest (issue r.id 17 r.requestQueue m).2 r.id).2 = _
    rw [hissue]
    rfl
  have htag' : (m.getAllReadyReadRequest r.id).2.taggedNum r.id = 0 := htag
  rw [hmem, hissue, MultiMemoryInterface.readyNum_getAll, if_pos rfl, htag'] at hnum
  simp [isReady, hnum]

theorem clockTick_finished (r : MemoryReader) (m : MultiMemoryInterface δ) :
    (r.clockTick m).1.finished = r.finished := rfl

theorem isReady_clockTick (hs : r.Sound m) (h : r.isReady = true) : (r.clockTick m).1.isReady = true := by
  have hz : r.processingNum = 0 := beq_iff_eq.mp h
  have hnum := hs.consistent.processingNum_clockTick
  exact beq_iff_eq.mpr (by omega)

theorem Sound.queue_of_finished (hs : r.Sound m) (h : r.finished = true) : r.requestQueue = [] := by
  have hc := hs.consistent
  unfold Consistent at hc
  rw [hs.settled h] at hc
  exact List.eq_nil_of_length_eq_zero (by omega)

theorem Sound.queue_of_ready (hs : r.Sound m) (hready : (r.clockTick m).1.isReady = true) :
    (r.clockTick m).1.finishAndReset.2.requestQueue = [] := by
  apply hs.clockTick.finishAndReset.queue_of_finished
  rw [hs.clockTick.finished_finishAndReset]
  exact hready

theorem Sound.ready_of_delay (hs : r.Sound m) (hz : delay a r = 0) : (r.clockTick m).1.isReady = true :=
  isReady_clockTick hs (beq_iff_eq.mpr (hs.settled (delay_eq_zero.mp hz)))

theorem delay_finishAndReset (a r : MemoryReader) :
    delay a r.finishAndReset.2 = if r.isReady then 0 else delay a r := by
  unfold finishAndReset
  cases hf : r.finished with
  | true => simp [delay, hf]
  | false =>
    cases hr : r.processingNum == 0 with
    | true => simp [delay, isReady, hr]
    | false => simp [isReady, hr]

/-- With a prompt memory a tick brings the reader closer, and closer still if the module asks it. -/
theorem delay_clockTick (hs : r.Sound m) (hp : a.requestQueue = [] → m.taggedNum r.id = 0) :
    delay r (r.clockTick m).1 ≤ delay a r ∧ delay r (r.clockTick m).1.finishAndReset.2 ≤ delay a r - 1 := by
  have hfin := clockTick_finished r m
  rw [delay_finishAndReset]
  by_cases hf : r.finished = true
  · simp [delay, hfin, hf]
  · by_cases hready : (r.clockTick m).1.isReady = true
    · have hpos : 1 ≤ delay a r := Nat.pos_of_ne_zero fun h => hf (delay_eq_zero.mp h)
      have hone : delay r (r.clockTick m).1 = 1 := by simp [delay, hfin, hf, hready]
      rw [hone, if_pos hready]
      exact ⟨hpos, Nat.zero_le _⟩
    · have hbusy : ¬ r.isReady = true := fun h => hready (isReady_clockTick hs h)
      have hq' : (r.clockTick m).1.requestQueue = r.requestQueue.drop 17 := by
        show (issue r.id 17 r.requestQueue m).1 = _
        rw [issue_eq]
      rw [if_neg hready]
      have hlt : delay r (r.clockTick m).1 < delay a r := by
        unfold delay
        rw [hfin, if_neg hf, if_neg hf, if_neg hready, if_neg hbusy, hq']
        by_cases hq : r.requestQueue = []
        · -- the reads of the tick before the last are back, so there must be later ones
          have ha : a.requestQueue ≠ [] := fun ha => hready (isReady_untagged hs.consistent hq (hp ha))
          simp [hq, ha]
        · have hpos := List.length_pos_of_ne_nil hq
          rw [if_neg fun h => hq h.1, if_neg fun h => hq h.2, List.length_drop]
          omega
      omega

end

end MemoryReader

section

-- a tick of a reader is known by its lemmas: unfolded, it is 17 requests and a sum over all ports
attribute [local irreducible] MemoryReader.clockTick MemoryReader.finishAndReset

/-! ## The CPM -/

namespace ClusterCodebookProcessingModule

/-- Enough ticks for one round of reads and its computation. -/
def roundDelay : Nat := (MemoryReader.chunks 0 (UInt64.ofNat vectorSize) 64).length + computingCycleNum + 5

def delay (a c : ClusterCodebookProcessingModule) : Nat :=
  c.waitAddr.length * roundDelay + min c.computingRemind (computingCycleNum + 1) +
    MemoryReader.delay a.memoryReader c.memoryReader

/-- The count is that of a computation or the mark of a round being read. -/
def Phased (c : ClusterCodebookProcessingModule) : Prop :=
  c.computingRemind ≤ computingCycleNum ∨ c.computingRemind = computingInvalidNum

theorem Phased.idle {c : ClusterCodebookProcessingModule} (h : c.Phased)
    (hcount : ¬ (0 < c.computingRemind ∧ c.computingRemind ≤ computingCycleNum))
    (hinv : c.computingRemind ≠ computingInvalidNum) : c.computingRemind = 0 := by
  rcases h with hle | heq
  · omega
  · exact absurd heq hinv

theorem length_chunks (addr len : UInt64) :
    (MemoryReader.chunks addr len 64).length = (MemoryReader.chunks 0 len 64).length := by
  simp [MemoryReader.chunks]

theorem delay_eq_zero {a c : ClusterCodebookProcessingModule} (h : delay a c = 0) :
    c.isReadySubmit = true ∧ c.isFinished = true := by
  unfold delay at h
  have hwait : c.waitAddr = [] := by
    by_contra hne
    have hpos : 0 < c.waitAddr.length * roundDelay :=
      Nat.mul_pos (List.length_pos_of_ne_nil hne) (Nat.succ_pos _)
    omega
  have hzero : c.computingRemind = 0 := by omega
  simp [isReadySubmit, isFinished, hwait, hzero]

section
variable {δ : Type} {a c : ClusterCodebookProcessingModule} {w : World (MultiMemoryInterface δ)}

theorem Phased.clockTick {μ : Type} [MemoryPort μ] {w : World μ} (h : c.Phased) : (c.clockTick w).1.Phased := by
  obtain ⟨-, hle, heq⟩ | ⟨-, -, heq⟩ | ⟨-, -, -, -, heq⟩ | ⟨-, -, heq⟩ := clockTick_cases c w
  · rw [heq]; exact Or.inl (Nat.le_trans (Nat.sub_le _ _) hle)
  · rw [heq]; exact Or.inl (Nat.le_refl _)
  · rw [heq]; exact Or.inr rfl
  · rw [heq]; exact h

theorem readRound_queue (h : c.memoryReader.requestQueue = []) : c.readRound.memoryReader.requestQueue.length =
    min nCu c.waitAddr.length * (MemoryReader.chunks 0 (UInt64.ofNat vectorSize) 64).length := by
  have hq := (MemoryReader.submitAll_queue (fun addr => (addr, UInt64.ofNat vectorSize)) (c.waitAddr.take nCu)
    c.memoryReader).1
  show ((c.waitAddr.take nCu).foldl _ c.memoryReader).requestQueue.length = _
  rw [hq, h, List.nil_append, List.length_flatMap]
  simp only [length_chunks _ (UInt64.ofNat vectorSize), List.map_const', List.sum_replicate, List.length_take,
    smul_eq_mul]

/-- The reads and the computation of a round take less than its centroids are given. -/
theorem delay_readRound (a : ClusterCodebookProcessingModule) (h : c.memoryReader.requestQueue = [])
    (hwait : c.waitAddr ≠ []) : delay a c.readRound < c.waitAddr.length * roundDelay := by
  have hqueue := readRound_queue h
  have hreader := MemoryReader.delay_le a.memoryReader c.readRound.memoryReader
  have htaken : 0 < min nCu c.waitAddr.length := by
    have := List.length_pos_of_ne_nil hwait
    have : 0 < nCu := by decide
    omega
  have hmul : c.waitAddr.length * roundDelay =
      (c.waitAddr.length - nCu) * roundDelay + min nCu c.waitAddr.length * roundDelay := by
    rw [← Nat.add_mul]
    congr 1
    omega
  have hround : min nCu c.waitAddr.length * (MemoryReader.chunks 0 (UInt64.ofNat vectorSize) 64).length +
      (computingCycleNum + 5) ≤ min nCu c.waitAddr.length * roundDelay := by
    rw [roundDelay, Nat.add_assoc, Nat.mul_add]
    exact Nat.add_le_add_left (Nat.le_mul_of_pos_left _ htaken) _
  have hmin : min computingInvalidNum (computingCycleNum + 1) = computingCycleNum + 1 := by decide
  show (c.waitAddr.drop nCu).length * roundDelay + min computingInvalidNum (computingCycleNum + 1) +
    MemoryReader.delay a.memoryReader c.readRound.memoryReader < _
  rw [List.length_drop, hmin]
  omega

/-- A tick in which nothing is submitted brings the CPM closer to the end of its work. -/
theorem delay_clockTick (hs : c.memoryReader.Sound w.memory) (hphase : c.Phased)
    (hp : a.memoryReader.requestQueue = [] → w.memory.taggedNum c.memoryReader.id = 0) :
    delay c (c.clockTick w).1 ≤ delay a c - 1 := by
  obtain ⟨hle, hlt⟩ := MemoryReader.delay_clockTick hs hp
  obtain ⟨hpos, hcount, heq⟩ | ⟨hready, hinv, heq⟩ | ⟨hready, -, -, hwait, heq⟩ | ⟨hcount, hrest, heq⟩ :=
    clockTick_cases c w
  · rw [heq]
    unfold delay
    dsimp only
    omega
  · rw [heq]
    unfold delay
    dsimp only
    have hmin : min c.computingRemind (computingCycleNum + 1) = computingCycleNum + 1 := by
      rw [hinv]
      decide
    omega
  · have hround := delay_readRound c (c := { c with
      memoryReader := (c.memoryReader.clockTick w.memory).1.finishAndReset.2 }) (hs.queue_of_ready hready) hwait
    have hall : c.waitAddr.length * roundDelay ≤ delay a c := Nat.le_trans (Nat.le_add_right _ _) (Nat.le_add_right _ _)
    rw [heq]
    exact Nat.le_sub_one_of_lt (Nat.lt_of_lt_of_le hround hall)
  · rw [heq]
    unfold delay
    dsimp only
    by_cases hz : MemoryReader.delay a.memoryReader c.memoryReader = 0
    · -- the reader has finished, so there is nothing to read and nothing to compute
      obtain ⟨hinv, hwait⟩ := hrest (hs.ready_of_delay hz)
      rw [hwait, hphase.idle hcount hinv]
      simp only [List.length_nil]
      omega
    · omega

end

end ClusterCodebookProcessingModule

/-! ## The EFM -/

namespace EncodedVectorFetchModule

/-- Enough ticks for the reads that one request opens, whatever the table says. -/
def requestDelay : Nat := 2 ^ 59 + 7

def delay (a e : EncodedVectorFetchModule) : Nat :=
  (if e.metadataQueue = [] then 0 else requestDelay) + MemoryReader.delay a.metadataReader e.metadataReader +
    MemoryReader.delay a.vectorReader e.vectorReader

theorem delay_eq_zero {a e : EncodedVectorFetchModule} (h : delay a e = 0) :
    e.metadataQueue = [] ∧ e.vectorReader.finished = true := by
  unfold delay at h
  refine ⟨?_, (MemoryReader.delay_eq_zero (a := a.vectorReader)).mp (by omega)⟩
  by_contra hne
  rw [if_neg hne, requestDelay] at h
  omega

section
variable {δ : Type} {a e : EncodedVectorFetchModule} {w : World (MultiMemoryInterface δ)}

theorem length_flatMap_chunks (read : Nat → UInt64 × UInt64) {cs : List Nat} (h : cs.length ≤ 1) :
    (cs.flatMap fun c => MemoryReader.chunks (read c).1 (read c).2 64).length ≤ 2 ^ 58 := by
  have hchunks : ∀ addr len : UInt64, (MemoryReader.chunks addr len 64).length ≤ 2 ^ 58 := by
    intro addr len
    have := len.toNat_lt
    simp only [MemoryReader.chunks, List.length_map, List.length_range]
    show (len.toNat + 64 - 1) / 64 ≤ 2 ^ 58
    omega
  rcases cs with _ | ⟨c, _ | ⟨d, cs⟩⟩
  · exact Nat.zero_le _
  · rw [List.flatMap_singleton]
    exact hchunks _ _
  · simp at h

theorem reads_closed (clusterAddr : Nat → Cluster) (hg : e.metadataGate = false) (hq : e.vectorQueue = []) :
    e.readMetadata.countVectors.readVectors clusterAddr = e.countVectors := by
  have he : e.readMetadata = e := by
    unfold readMetadata
    rw [hg]
    rfl
  rw [he]
  exact readVectors_nil clusterAddr hq

theorem reads_open (clusterAddr : Nat → Cluster) (hg : e.metadataGate = true) (hpaced : e.Paced)
    (hm : e.metadataReader.requestQueue = []) (hv : e.vectorReader.requestQueue = []) :
    let e' := e.readMetadata.countVectors.readVectors clusterAddr
    e'.metadataQueue = [] ∧ e'.metadataReader.requestQueue.length ≤ 2 ^ 58 ∧
      e'.vectorReader.requestQueue.length ≤ 2 ^ 58 := by
  intro e'
  have hmq : e.readMetadata.metadataQueue = [] := by simp [readMetadata, hg]
  have hvq : e.readMetadata.vectorQueue = e.clusterQueue := by simp [readMetadata, hg, hpaced.vectorNone]
  have hmr : e.readMetadata.metadataReader.requestQueue.length ≤ 2 ^ 58 := by
    have hq := (MemoryReader.submitAll_queue metadataAddr e.metadataQueue e.metadataReader).1
    rw [hm, List.nil_append] at hq
    simp only [readMetadata, hg, if_true]
    rw [hq]
    exact length_flatMap_chunks metadataAddr hpaced.metadataOne
  have hvr : e.readMetadata.countVectors.vectorReader.requestQueue = [] := by
    have hsame : e.readMetadata.vectorReader = e.vectorReader := by simp [readMetadata, hg]
    show e.readMetadata.vectorReader.finishAndReset.2.requestQueue = []
    rw [MemoryReader.finishAndReset_queue, hsame]
    exact hv
  have hread : ∀ f : EncodedVectorFetchModule, (f.readVectors clusterAddr).metadataQueue = f.metadataQueue ∧
      (f.readVectors clusterAddr).metadataReader = f.metadataReader ∧
      (f.vectorQueue.length ≤ 1 → f.vectorReader.requestQueue = [] →
        (f.readVectors clusterAddr).vectorReader.requestQueue.length ≤ 2 ^ 58) := by
    intro f
    unfold readVectors
    split
    · refine ⟨rfl, rfl, ?_⟩
      intro hone hnil
      have hq := (MemoryReader.submitAll_queue (fun v => ((clusterAddr v).startAddr, (clusterAddr v).bytes))
        f.vectorQueue f.vectorReader).1
      rw [hnil, List.nil_append] at hq
      dsimp only at hq ⊢
      rw [hq]
      exact length_flatMap_chunks (fun v => ((clusterAddr v).startAddr, (clusterAddr v).bytes)) hone
    · refine ⟨rfl, rfl, ?_⟩
      intro _ hnil
      rw [hnil]
      exact Nat.zero_le _
  obtain ⟨h1, h2, h3⟩ := hread e.readMetadata.countVectors
  refine ⟨h1.trans hmq, ?_, h3 ?_ hvr⟩
  · rw [h2]
    exact hmr
  · show e.readMetadata.vectorQueue.length ≤ 1
    rw [hvq]
    exact hpaced.clusterOne

theorem Paced.settled_of_waiting (h : e.Paced) (hq : e.metadataQueue ≠ []) : e.vectorReader.finished = true := by
  cases h.phase with
  | unused h1 _ _ _ _ => exact absurd h1 hq
  | first _ _ _ _ h5 => exact h5
  | waiting _ _ _ h4 => exact h4
  | asked h1 _ _ => exact absurd h1 hq

/-- Once nothing waits and the vectors are read, all requests but the last count as fetched. -/
theorem Paced.fetched_of_settled (h : e.Paced) (hsub : e.submitedRequestNum ≠ 0) (hq : e.metadataQueue = [])
    (hv : e.vectorReader.finished = true) : e.fetchedRequestNum + 1 = e.submitedRequestNum := by
  cases h.phase with
  | unused _ _ h3 _ _ => exact absurd h3 hsub
  | first h1 _ _ _ _ => exact absurd hq h1
  | waiting h1 _ _ _ => exact absurd hq h1
  | asked _ _ h3 => rwa [if_pos hv] at h3

/-- A tick brings the EFM closer to the end of the requests that it was given. -/
theorem delay_clockTick (clusterAddr : Nat → Cluster) (hh : e.Held) (hpaced : e.Paced) (hr : e.Readers w.memory)
    (hm : a.metadataReader.requestQueue = [] → w.memory.taggedNum e.metadataReader.id = 0)
    (hv : a.vectorReader.requestQueue = [] → w.memory.taggedNum e.vectorReader.id = 0) :
    delay e (e.clockTick clusterAddr w).1 ≤ delay a e - 1 := by
  have hv' : a.vectorReader.requestQueue = [] →
      (e.metadataReader.clockTick w.memory).2.taggedNum e.vectorReader.id = 0 := by
    intro ha
    rw [MemoryReader.clockTick_taggedNum _ _ hr.ids]
    exact hv ha
  have hvs : e.vectorReader.Sound (e.metadataReader.clockTick w.memory).2 :=
    hr.vector.frame (MemoryReader.clockTick_inflight_other _ _ hr.ids)
  have hmeta := (MemoryReader.delay_clockTick hr.metadata hm).2
  have hvec := (MemoryReader.delay_clockTick hvs hv').2
  have hgate := (hh.tickReaders (m := w.memory)).countMetadata.metadataGate_eq (finished_countMetadata hr.tickReaders)
  have hready : (e.tickReaders w.memory).1.countMetadata.metadataReader.isReady =
      (e.metadataReader.clockTick w.memory).1.isReady := MemoryReader.finishAndReset_isReady _
  have hqueue : (e.tickReaders w.memory).1.countMetadata.metadataQueue = e.metadataQueue := rfl
  rw [hready, hqueue] at hgate
  have htick : (e.clockTick clusterAddr w).1 =
      (e.tickReaders w.memory).1.countMetadata.readMetadata.countVectors.readVectors clusterAddr := rfl
  cases hg : (e.tickReaders w.memory).1.countMetadata.metadataGate with
  | false =>
    rw [hg] at hgate
    rw [htick, reads_closed clusterAddr hg hpaced.vectorNone]
    have heq : delay e (e.tickReaders w.memory).1.countMetadata.countVectors =
        (if e.metadataQueue = [] then 0 else requestDelay) +
        MemoryReader.delay e.metadataReader (e.metadataReader.clockTick w.memory).1.finishAndReset.2 +
        MemoryReader.delay e.vectorReader
          (e.vectorReader.clockTick (e.metadataReader.clockTick w.memory).2).1.finishAndReset.2 := rfl
    rw [heq]
    unfold delay
    by_cases hq : e.metadataQueue = []
    · rw [if_pos hq]
      omega
    · -- the request waits only while the metadata of the one before are read
      have hbusy : MemoryReader.delay a.metadataReader e.metadataReader ≠ 0 := by
        intro hz
        rw [hr.metadata.ready_of_delay hz, List.isEmpty_eq_false_iff.mpr hq] at hgate
        cases hgate
      omega
  | true =>
    rw [hg] at hgate
    obtain ⟨hr', hq⟩ := (Bool.and_eq_true _ _).mp hgate.symm
    rw [Bool.not_eq_true', List.isEmpty_eq_false_iff] at hq
    have hmq : (e.tickReaders w.memory).1.countMetadata.metadataReader.requestQueue = [] :=
      hr.metadata.queue_of_ready hr'
    have hvq : (e.tickReaders w.memory).1.countMetadata.vectorReader.requestQueue = [] := by
      apply hvs.clockTick.queue_of_finished
      rw [MemoryReader.clockTick_finished]
      exact hpaced.settled_of_waiting hq
    obtain ⟨h1, h2, h3⟩ := reads_open clusterAddr hg (hpaced.countMetadata (m := w.memory)) hmq hvq
    rw [← htick] at h1 h2 h3
    have hd1 := MemoryReader.delay_le e.metadataReader (e.clockTick clusterAddr w).1.metadataReader
    have hd2 := MemoryReader.delay_le e.vectorReader (e.clockTick clusterAddr w).1.vectorReader
    unfold delay
    rw [if_pos h1, if_neg hq, requestDelay]
    omega

end

end EncodedVectorFetchModule

/-! ## The core -/

namespace ANNACore

def delay (a c : ANNACore) : Nat := a.cpm.delay c.cpm + a.efm.delay c.efm + c.scm.computingRemind.toNat

/-- `M` holds of the readers of `c` that asked for nothing a tick earlier, in `a`. -/
structure Prompt (a c : ANNACore) (M : Nat → Prop) : Prop where
  cpm : a.cpm.memoryReader.requestQueue = [] → M c.cpm.memoryReader.id
  metadata : a.efm.metadataReader.requestQueue = [] → M c.efm.metadataReader.id
  vector : a.efm.vectorReader.requestQueue = [] → M c.efm.vectorReader.id

theorem Prompt.mono {a c : ANNACore} {M M' : Nat → Prop} (h : Prompt a c M) (hM : ∀ id ∈ c.readerIds, M id → M' id) :
    Prompt a c M' := by
  simp only [readerIds, List.mem_cons, List.not_mem_nil, or_false, forall_eq_or_imp, forall_eq] at hM
  exact ⟨fun ha => hM.1 (h.cpm ha), fun ha => hM.2.1 (h.metadata ha), fun ha => hM.2.2 (h.vector ha)⟩

section
variable {δ : Type}
variable {clusterAddr : Nat → Cluster} {clusterList : List Nat} {querySetList : List (List Nat)} {batchSize : Int32}
  {a c : ANNACore} {w : World (MultiMemoryInterface δ)}

theorem reach_phased (h : Reach clusterAddr clusterList querySetList batchSize c w) : c.cpm.Phased := by
  apply reach_invariant (I := fun c => c.cpm.Phased) h
  · intro _ _ _ _ _
    exact Or.inl (Nat.zero_le _)
  · intro c w hc
    exact hc.clockTick
  · intro p q hp hc
    cases hp with
    | save k _ _ => exact hc
    | scan k _ _ _ => exact hc
    | @fetch c t k _ _ _ _ =>
      show (c.requestCluster k).cpm.Phased
      unfold requestCluster
      split <;> exact hc
    | hand _ _ _ => exact hc

theorem delay_tickModules (h : Reach clusterAddr clusterList querySetList batchSize c w)
    (hp : Prompt a c fun id => w.memory.taggedNum id = 0) :
    delay c (c.tickModules clusterAddr w).1 ≤ delay a c - 1 := by
  have hs := reach_fetchSound h
  have hids := hs.ids
  simp only [readerIds, List.nodup_cons, List.mem_cons, List.not_mem_nil, or_false, not_or] at hids
  obtain ⟨⟨hm, hv⟩, -⟩ := hids
  have hcpm := ClusterCodebookProcessingModule.delay_clockTick (reach_cpmSound h) (reach_phased h) hp.cpm
  have hefm : c.efm.delay (c.efm.clockTick clusterAddr (c.cpm.clockTick w).2).1 ≤ a.efm.delay c.efm - 1 := by
    apply EncodedVectorFetchModule.delay_clockTick clusterAddr hs.held hs.paced hs.readers_after_cpm
    · intro ha
      rw [ClusterCodebookProcessingModule.clockTick_memory, MemoryReader.clockTick_taggedNum _ _ hm]
      exact hp.metadata ha
    · intro ha
      rw [ClusterCodebookProcessingModule.clockTick_memory, MemoryReader.clockTick_taggedNum _ _ hv]
      exact hp.vector ha
  have hscm := SimilarityComputationModule.clockTick_remind c.scm
  show c.cpm.delay (c.cpm.clockTick w).1 + c.efm.delay (c.efm.clockTick clusterAddr (c.cpm.clockTick w).2).1 +
    c.scm.clockTick.computingRemind.toNat ≤ _
  unfold delay
  omega

/-! ## Something moves on -/

theorem parts_length {p q : ANNACore × TestValue} (h : Parts clusterAddr p q) : p.1.log.length ≤ q.1.log.length := by
  obtain ⟨-, es, hes, -⟩ := parts_log h
  rw [hes, List.length_append]
  exact Nat.le_add_right _ _

theorem part_length {p q : ANNACore × TestValue} (h : Part clusterAddr p q) : p.1.log.length < q.1.log.length := by
  obtain ⟨-, e, he, -⟩ := part_log h
  rw [he, List.length_append]
  exact Nat.lt_succ_self _

/-- When no module is busy, a slice moves on or the work is done. -/
theorem clockTick_moves (h : Reach clusterAddr clusterList querySetList batchSize c w) (ho : c.Orderly)
    (hne : c.clusterList ≠ []) (hz : delay c (c.tickModules clusterAddr w).1 = 0) :
    c.log.length < (c.clockTick clusterAddr w).1.log.length ∨ c.isFinished = true := by
  let t := (c.tickModules clusterAddr w).1
  let v := (c.tickModules clusterAddr w).2.testValue
  have hs : FetchSound t (c.tickModules clusterAddr w).2.memory := (reach_fetchSound h).tickModules clusterAddr
  obtain ⟨hcpm, hefm, hscm⟩ : c.cpm.delay t.cpm = 0 ∧ c.efm.delay t.efm = 0 ∧ t.scm.computingRemind.toNat = 0 := by
    have hz' : c.cpm.delay t.cpm + c.efm.delay t.efm + t.scm.computingRemind.toNat = 0 := hz
    omega
  have hready : t.scm.isReady = true := (SimilarityComputationModule.isReady_iff _).mpr hscm
  obtain ⟨hqueue, hvector⟩ := EncodedVectorFetchModule.delay_eq_zero hefm
  obtain ⟨hfree, hdone⟩ := ClusterCodebookProcessingModule.delay_eq_zero hcpm
  have htick : ((c.clockTick clusterAddr w).1, (c.clockTick clusterAddr w).2.testValue) =
      ((t.save v).1.scmProcess clusterAddr (t.save v).2).1.preFetch.nextSlice
        ((t.save v).1.scmProcess clusterAddr (t.save v).2).2 := rfl
  have hmove : ∀ {p : ANNACore × TestValue}, Part clusterAddr (t, v) p →
      Parts clusterAddr p ((c.clockTick clusterAddr w).1, (c.clockTick clusterAddr w).2.testValue) →
      c.log.length < (c.clockTick clusterAddr w).1.log.length :=
    fun hp hq => Nat.lt_of_lt_of_le (part_length hp) (parts_length hq)
  cases hk : t.scmProcessingIndex with
  | some k =>
    have hsave : t.save v = t.saveSlice v k := by
      unfold save
      rw [hk]
      exact if_pos hready
    refine Or.inl (hmove (.save k hk hready) ?_)
    rw [htick, hsave]
    exact ((scmProcess_parts _ _).trans (preFetch_parts _ _)).trans (nextSlice_parts _ _)
  | none =>
    rw [save_none hk] at htick
    cases hi : t.efmProcessingIndex with
    | some k =>
      have hfetched : t.efm.getFetchedRequestNum = t.efmFetchingRequestNum := by
        have hsub := hs.gated.busy (by rw [hi]; exact Option.some_ne_none k)
        have hnum := hs.gated.number hsub
        have hphase := hs.paced.fetched_of_settled hsub hqueue hvector
        show t.efm.fetchedRequestNum = t.efmFetchingRequestNum
        omega
      have hscan : t.scmProcess clusterAddr v = t.scanSlice clusterAddr v k := by
        unfold scmProcess
        rw [hi]
        exact if_pos ⟨hk, hfetched, hready⟩
      refine Or.inl (hmove (.scan k hi hk hfetched) ?_)
      rw [htick, hscan]
      exact (preFetch_parts _ _).trans (nextSlice_parts _ _)
    | none =>
      rw [scmProcess_none hi] at htick
      cases hj : t.cpmProcessingIndex with
      | some k =>
        have hsubmit : t.efm.isReadySubmit = true := List.isEmpty_iff.mpr hqueue
        have hfetch : t.preFetch = t.fetchSlice k := by
          unfold preFetch
          rw [hj]
          exact if_pos ⟨hi, hdone, hsubmit⟩
        refine Or.inl (hmove (.fetch k hj hi hdone hsubmit) ?_)
        rw [htick, hfetch]
        exact nextSlice_parts _ _
      | none =>
        rw [preFetch_none hj] at htick
        by_cases hlt : t.slice < t.clusterList.length
        · refine Or.inl (hmove (.hand hj hfree hlt) ?_)
          rw [htick, nextSlice, if_pos ⟨hj, hfree, hlt⟩]
        · have hslice : c.slice = c.clusterList.length := Nat.le_antisymm ho.sliced.bound (Nat.le_of_not_lt hlt)
          exact Or.inr ((ho.finished_iff hne).mpr (ho.drained_iff.mpr ⟨hslice, hj, hi, hk⟩))

/-- In a tick of a prompt memory a slice moves on, or the modules get closer to the end of their work; when they are
there, all slices are recorded. -/
theorem clockTick_delay (h : Reach clusterAddr clusterList querySetList batchSize c w) (ho : c.Orderly)
    (hne : c.clusterList ≠ []) (hp : Prompt a c fun id => w.memory.taggedNum id = 0) :
    c.log.length < (c.clockTick clusterAddr w).1.log.length ∨
      (c.clockTick clusterAddr w).1.log.length = c.log.length ∧
        delay c (c.clockTick clusterAddr w).1 ≤ delay a c - 1 ∧
        (delay a c = 0 → (c.clockTick clusterAddr w).1.isFinished = true) := by
  have hdelay := delay_tickModules h hp
  rcases (clockTick_parts clusterAddr c w).cases_tail with heq | ⟨q, hq, hlast⟩
  · have hstay : (c.clockTick clusterAddr w).1 = (c.tickModules clusterAddr w).1 := (congrArg Prod.fst heq :)
    refine Or.inr ⟨by rw [hstay]; rfl, by rw [hstay]; exact hdelay, ?_⟩
    intro hz
    rcases clockTick_moves h ho hne (by omega) with hlt | hf
    · rw [hstay] at hlt
      exact absurd hlt (Nat.lt_irrefl _)
    · rw [hstay]
      exact hf
  · exact Or.inl (Nat.lt_of_le_of_lt (parts_length hq) (part_length hlast))

/-- The events that are still to come. -/
def todo (c : ANNACore) : Nat := 4 * (slices c.batchSize c.querySetList).length - c.log.length

theorem Orderly.log_length (ho : c.Orderly) : c.log.length ≤ 4 * (slices c.batchSize c.querySetList).length := by
  have hlen : ∀ log : List CoreEvent, log.length = (log.filterMap CoreEvent.cpmSlice).length +
      (log.filterMap CoreEvent.efmSlice).length + (log.filterMap CoreEvent.scmSlice).length +
      (log.filterMap CoreEvent.savedSlice).length := by
    intro log
    induction log with
    | nil => rfl
    | cons e log ih =>
      simp only [List.filterMap_cons, List.length_cons, ih]
      cases e <;>
        simp only [CoreEvent.cpmSlice, CoreEvent.efmSlice, CoreEvent.scmSlice, CoreEvent.savedSlice,
          List.length_cons] <;> omega
  have hprefix : ∀ j ≤ 3, (c.pipeline.entered j).length ≤ (slices c.batchSize c.querySetList).length := by
    intro j hj
    have h1 : c.pipeline.entered j <+: c.cpmSlices := ho.flow.entered_isPrefix (Nat.zero_le j) hj
    exact (h1.trans ⟨_, ho.sliced.fed⟩).length_le
  have h0 : c.cpmSlices.length ≤ _ := hprefix 0 (by decide)
  have h1 : c.efmSlices.length ≤ _ := hprefix 1 (by decide)
  have h2 : c.scmSlices.length ≤ _ := hprefix 2 (by decide)
  have h3 : c.savedSlices.length ≤ _ := hprefix 3 (by decide)
  have hlog : c.log.length = c.cpmSlices.length + c.efmSlices.length + c.scmSlices.length + c.savedSlices.length :=
    hlen c.log
  omega

end

end ANNACore

end

end Anna
