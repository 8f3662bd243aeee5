import Anna.ComputeModulesSound
import Anna.MemoryReaderSound
import Mathlib.Data.List.ModifyLast

/-!
# The rounds of the codebook processing module

The module takes at most `N_cu` waiting centroids at a time, reads them, and
computes when all reads are back. A run keeps beside the module what one sees
from outside: the centroids submitted, the rounds with the ticks at which they
were read, started and ended, and the reads asked of the memory and handed
back.
-/

namespace Anna

open ClusterCodebookProcessingModule

/-- The centroids of one round; the ticks are counted from 1. -/
structure Round where
  centroids : List UInt64
  readAt : Nat
  startAt : Option Nat
  endAt : Option Nat
  deriving DecidableEq, Repr

structure CpmRun (μ : Type) where
  cpm : ClusterCodebookProcessingModule
  world : World μ
  clock : Nat
  submitted : List UInt64
  rounds : List Round
  -- the reads asked of the memory, the number of those handed back, and
  -- what the module has added to `cpm_computing_cycle_cnt`
  requested : List UInt64
  returned : Nat
  contribution : Nat

namespace CpmRun

variable {μ : Type} [MemoryPort μ]

def new (id : Nat) (w : World μ) : CpmRun μ := ⟨ClusterCodebookProcessingModule.new id, w, 0, [], [], [], 0, 0⟩

def submit (s : CpmRun μ) (centroidList : List Nat) : CpmRun μ :=
  { s with
    cpm := s.cpm.submitClusterRequest centroidList
    submitted := s.submitted ++ centroidList.map clusterCentroid }

/-- What a tick shows of the rounds: centroids that leave `wait_addr` go to
the reader; `computing_remind` is set to its full value, or reaches zero. -/
def observe (clock : Nat) (before after : ClusterCodebookProcessingModule) (rounds : List Round) : List Round :=
  if after.waitAddr.length < before.waitAddr.length then
    rounds ++ [⟨before.waitAddr.take (before.waitAddr.length - after.waitAddr.length), clock, none, none⟩]
  else if before.computingRemind = computingInvalidNum ∧ after.computingRemind = computingCycleNum then
    rounds.modifyLast fun r => { r with startAt := some clock }
  else if before.computingRemind ≠ 0 ∧ after.computingRemind = 0 then
    rounds.modifyLast fun r => { r with endAt := some clock }
  else rounds

def tick (s : CpmRun μ) : CpmRun μ :=
  let t := s.cpm.clockTick s.world
  { s with
    cpm := t.1
    world := t.2
    clock := s.clock + 1
    rounds := observe (s.clock + 1) s.cpm t.1 s.rounds
    requested := s.requested ++ s.cpm.memoryReader.requestQueue.take 17
    returned := s.returned + s.cpm.memoryReader.collected s.world.memory
    contribution := s.contribution +
      (t.2.testValue.cpmComputingCycleCnt - s.world.testValue.cpmComputingCycleCnt) }

/-- Any submissions, at any time, and any memory that keeps the module's reads. -/
inductive Reach : CpmRun μ → Prop
  | new (id : Nat) (w : World μ) : MemoryPort.inflight w.memory id = 0 → Reach (new id w)
  | submit {s : CpmRun μ} (centroidList : List Nat) : Reach s → Reach (s.submit centroidList)
  | tick {s : CpmRun μ} : Reach s → Reach s.tick
  | environment {s : CpmRun μ} (w : World μ) : Reach s →
      MemoryPort.inflight w.memory s.cpm.memoryReader.id = MemoryPort.inflight s.world.memory s.cpm.memoryReader.id →
      Reach { s with world := w }

def centroidsRead (s : CpmRun μ) : List UInt64 := s.rounds.flatMap Round.centroids

def readsOf (centroids : List UInt64) : List UInt64 :=
  centroids.flatMap fun addr => MemoryReader.chunks addr (UInt64.ofNat vectorSize) 64

/-! ## The reader's side -/

structure Reads (s : CpmRun μ) : Prop where
  sound : s.cpm.memoryReader.Sound s.world.memory
  order : s.submitted = s.centroidsRead ++ s.cpm.waitAddr
  requested : s.requested ++ s.cpm.memoryReader.requestQueue = readsOf s.centroidsRead
  returned : s.returned + s.cpm.memoryReader.processingNum = (readsOf s.centroidsRead).length

theorem reads_new {id : Nat} {w : World μ} (h : MemoryPort.inflight w.memory id = 0) : (new id w).Reads :=
  ⟨MemoryReader.sound_new h, rfl, rfl, rfl⟩

section
variable {s : CpmRun μ}

theorem Reads.submit (h : s.Reads) (centroidList : List Nat) : (s.submit centroidList).Reads := by
  refine ⟨h.sound, ?_, h.requested, h.returned⟩
  show s.submitted ++ _ = s.centroidsRead ++ (s.cpm.waitAddr ++ _)
  rw [h.order, List.append_assoc]

theorem Reads.ticked (h : s.Reads) :
    let r := (s.cpm.memoryReader.clockTick s.world.memory).1
    (s.requested ++ s.cpm.memoryReader.requestQueue.take 17) ++ r.requestQueue = readsOf s.centroidsRead ∧
      s.returned + s.cpm.memoryReader.collected s.world.memory + r.processingNum =
        (readsOf s.centroidsRead).length := by
  refine ⟨?_, ?_⟩
  · show (s.requested ++ s.cpm.memoryReader.requestQueue.take 17) ++
      (MemoryReader.issue s.cpm.memoryReader.id 17 s.cpm.memoryReader.requestQueue s.world.memory).1 = _
    rw [MemoryReader.issue_eq, List.append_assoc, List.take_append_drop, h.requested]
  · have := h.sound.consistent.processingNum_clockTick
    have := h.returned
    omega

end

/-! ## The phases -/

def Round.Done (clock : Nat) (r : Round) : Prop :=
  ∃ t, r.startAt = some t ∧ r.endAt = some (t + computingCycleNum) ∧ r.readAt < t ∧ t + computingCycleNum ≤ clock

theorem Round.Done.mono {clock clock' : Nat} {r : Round} (h : Round.Done clock r) (hle : clock ≤ clock') :
    Round.Done clock' r := by
  obtain ⟨t, hs, he, hr, hc⟩ := h
  exact ⟨t, hs, he, hr, hc.trans hle⟩

/-- `computing_remind` tells which phase the last round is in. -/
inductive Phase (s : CpmRun μ) : Prop
  | idle : s.cpm.computingRemind = 0 → (∀ r ∈ s.rounds, Round.Done s.clock r) →
      s.cpm.memoryReader.processingNum = 0 → s.contribution = computingCycleNum * s.rounds.length → Phase s
  | loading (init : List Round) (r : Round) : s.rounds = init ++ [r] → s.cpm.computingRemind = computingInvalidNum →
      (∀ r ∈ init, Round.Done s.clock r) → r.startAt = none → r.endAt = none → r.readAt ≤ s.clock →
      s.contribution = computingCycleNum * init.length → Phase s
  | computing (init : List Round) (r : Round) (t : Nat) : s.rounds = init ++ [r] → 0 < s.cpm.computingRemind →
      s.cpm.computingRemind ≤ computingCycleNum → (∀ r ∈ init, Round.Done s.clock r) → r.startAt = some t →
      r.endAt = none → r.readAt < t → t + computingCycleNum = s.clock + s.cpm.computingRemind →
      s.cpm.memoryReader.processingNum = 0 → s.contribution = computingCycleNum * (init.length + 1) → Phase s

omit [MemoryPort μ] in
theorem Phase.frame {s : CpmRun μ} (h : s.Phase) (submitted : List UInt64) (waitAddr : List UInt64) (w : World μ) :
    Phase { s with submitted := submitted, cpm := { s.cpm with waitAddr := waitAddr }, world := w } := by
  rcases h with ⟨hz, hdone, hnone, hcontr⟩ | ⟨init, r, hrounds, hz, hdone, hstart, hend, hread, hcontr⟩ |
    ⟨init, r, t, hrounds, hpos, hle, hdone, hstart, hend, hread, hclock, hnone, hcontr⟩
  · exact .idle hz hdone hnone hcontr
  · exact .loading init r hrounds hz hdone hstart hend hread hcontr
  · exact .computing init r t hrounds hpos hle hdone hstart hend hread hclock hnone hcontr

structure Sound (s : CpmRun μ) : Prop where
  reads : s.Reads
  phase : s.Phase
  size : ∀ r ∈ s.rounds, r.centroids ≠ [] ∧ r.centroids.length ≤ nCu
  apart : s.rounds.Pairwise fun r r' => ∃ e, r.endAt = some e ∧ e < r'.readAt

section
variable {s : CpmRun μ}

theorem computingCycleNum_lt : computingCycleNum < computingInvalidNum := by decide

theorem Sound.mark (h : s.Sound) {init : List Round} {r : Round} (hrounds : s.rounds = init ++ [r]) (r' : Round)
    (hc : r'.centroids = r.centroids) (hr : r'.readAt = r.readAt) :
    (init ++ [r']).flatMap Round.centroids = s.centroidsRead ∧
      (∀ x ∈ init ++ [r'], x.centroids ≠ [] ∧ x.centroids.length ≤ nCu) ∧
      (init ++ [r']).Pairwise fun x y => ∃ e, x.endAt = some e ∧ e < y.readAt := by
  have hsize := h.size
  have hapart := h.apart
  rw [hrounds] at hsize hapart
  rw [List.pairwise_append] at hapart
  refine ⟨?_, ?_, ?_⟩
  · simp [centroidsRead, hrounds, hc]
  · intro x hx
    rcases List.mem_append.mp hx with hx | hx
    · exact hsize x (List.mem_append_left _ hx)
    · rw [List.mem_singleton.mp hx, hc]
      exact hsize r (List.mem_append_right _ (List.mem_singleton_self r))
  · refine List.pairwise_append.mpr ⟨hapart.1, List.pairwise_singleton _ _, ?_⟩
    intro x hx y hy
    rw [List.mem_singleton.mp hy, hr]
    exact hapart.2.2 x hx r (List.mem_singleton_self r)

theorem Reads.tick (h : s.Reads) (hrounds : s.tick.centroidsRead = s.centroidsRead)
    (hwait : s.tick.cpm.waitAddr = s.cpm.waitAddr)
    (hreader : s.tick.cpm.memoryReader = (s.cpm.memoryReader.clockTick s.world.memory).1 ∨
      s.tick.cpm.memoryReader = (s.cpm.memoryReader.clockTick s.world.memory).1.finishAndReset.2) :
    s.tick.Reads := by
  obtain ⟨hreq, hret⟩ := h.ticked
  refine ⟨sound_clockTick h.sound, ?_, ?_, ?_⟩
  · rw [hrounds, hwait]
    exact h.order
  · rw [hrounds, ← hreq]
    rcases hreader with hr | hr <;> rw [hr]
    · rfl
    · rw [MemoryReader.finishAndReset_queue]
      rfl
  · rw [hrounds, ← hret]
    rcases hreader with hr | hr <;> rw [hr]
    · rfl
    · rw [MemoryReader.finishAndReset_num]
      rfl

theorem Reads.read (h : s.Reads) (hrounds : s.tick.centroidsRead = s.centroidsRead ++ s.cpm.waitAddr.take nCu)
    (hcpm : s.tick.cpm =
      readRound { s.cpm with memoryReader := (s.cpm.memoryReader.clockTick s.world.memory).1.finishAndReset.2 }) :
    s.tick.Reads := by
  obtain ⟨hreq, hret⟩ := h.ticked
  have hsub := MemoryReader.submitAll_queue (fun addr => (addr, UInt64.ofNat vectorSize)) (s.cpm.waitAddr.take nCu)
    (s.cpm.memoryReader.clockTick s.world.memory).1.finishAndReset.2
  refine ⟨sound_clockTick h.sound, ?_, ?_, ?_⟩
  · rw [hrounds, hcpm]
    show s.submitted = _ ++ s.cpm.waitAddr.drop nCu
    rw [List.append_assoc, List.take_append_drop]
    exact h.order
  · rw [hrounds, hcpm]
    show _ ++ MemoryReader.requestQueue (List.foldl _ _ _) = _
    rw [hsub.1, MemoryReader.finishAndReset_queue, readsOf, List.flatMap_append, ← List.append_assoc]
    exact congrArg (· ++ _) hreq
  · rw [hrounds, hcpm]
    show _ + MemoryReader.processingNum (List.foldl _ _ _) = _
    rw [hsub.2, MemoryReader.finishAndReset_num, readsOf, List.flatMap_append, List.length_append, ← Nat.add_assoc]
    exact congrArg (· + _) hret

theorem contribution_tick {n : Nat}
    (hcnt : (s.cpm.clockTick s.world).2.testValue.cpmComputingCycleCnt =
      s.world.testValue.cpmComputingCycleCnt + n) : s.tick.contribution = s.contribution + n := by
  show s.contribution + (_ - _) = _
  rw [hcnt, Nat.add_sub_cancel_left]

section Count
variable (hpos : 0 < s.cpm.computingRemind) (hle : s.cpm.computingRemind ≤ computingCycleNum)
include hpos hle

omit [MemoryPort μ] in
theorem Phase.lastComputing (h : s.Phase) : ∃ init r t, s.rounds = init ++ [r] ∧
    (∀ x ∈ init, Round.Done s.clock x) ∧ r.startAt = some t ∧ r.endAt = none ∧ r.readAt < t ∧
    t + computingCycleNum = s.clock + s.cpm.computingRemind ∧ s.cpm.memoryReader.processingNum = 0 ∧
    s.contribution = computingCycleNum * (init.length + 1) := by
  have hinv := computingCycleNum_lt
  rcases h with ⟨hz, -, -, -⟩ | ⟨init, r, -, hz, -, -, -, -, -⟩ |
    ⟨init, r, t, hrounds, -, -, hdone, hstart, hend, hread, hclock, hnone, hcontr⟩
  · omega
  · omega
  · exact ⟨init, r, t, hrounds, hdone, hstart, hend, hread, hclock, hnone, hcontr⟩

theorem cpm_count : s.tick.cpm =
    { s.cpm with
      memoryReader := (s.cpm.memoryReader.clockTick s.world.memory).1
      computingRemind := s.cpm.computingRemind - 1 } :=
  congrArg Prod.fst (clockTick_computing hpos hle s.world)

theorem rounds_countLast {init : List Round} {r : Round} (hrounds : s.rounds = init ++ [r])
    (hone : s.cpm.computingRemind = 1) : s.tick.rounds = init ++ [{ r with endAt := some (s.clock + 1) }] := by
  show observe (s.clock + 1) s.cpm s.tick.cpm s.rounds = _
  rw [cpm_count hpos hle, hrounds]
  simp only [observe, Nat.lt_irrefl, if_false, hone]
  rw [if_neg (by decide), if_pos (by decide), List.modifyLast_concat]

theorem rounds_countDown (hone : s.cpm.computingRemind ≠ 1) : s.tick.rounds = s.rounds := by
  have hinv := computingCycleNum_lt
  show observe (s.clock + 1) s.cpm s.tick.cpm s.rounds = _
  rw [cpm_count hpos hle]
  simp only [observe, Nat.lt_irrefl, if_false]
  rw [if_neg (by omega), if_neg (by omega)]

theorem Sound.countLast (h : s.Sound) (hone : s.cpm.computingRemind = 1) : s.tick.Sound := by
  obtain ⟨init, r, t, hrounds, hdone, hstart, -, hread, hclock, hnone, hcontr⟩ := h.phase.lastComputing hpos hle
  have hcpm := cpm_count hpos hle
  have hproc := h.reads.sound.consistent.processingNum_clockTick
  have hcontr' := contribution_tick (n := 0) (s := s) (by rw [clockTick_computing hpos hle]; rfl)
  have hobs := rounds_countLast hpos hle hrounds hone
  obtain ⟨hcent, hsize, hapart⟩ := h.mark hrounds { r with endAt := some (s.clock + 1) } rfl rfl
  refine ⟨h.reads.tick ?_ ?_ ?_, .idle ?_ ?_ ?_ ?_, ?_, ?_⟩
  · rw [centroidsRead, hobs, hcent]
  · rw [hcpm]
  · rw [hcpm]; exact Or.inl rfl
  · rw [hcpm]
    show s.cpm.computingRemind - 1 = 0
    omega
  · rw [hobs]
    intro x hx
    rcases List.mem_append.mp hx with hx | hx
    · exact (hdone x hx).mono (Nat.le_succ _)
    · rw [List.mem_singleton.mp hx]
      refine ⟨t, hstart, ?_, hread, ?_⟩
      · show some (s.clock + 1) = some (t + computingCycleNum)
        rw [hclock, hone]
      · show t + computingCycleNum ≤ s.clock + 1
        omega
  · rw [hcpm]
    show (s.cpm.memoryReader.clockTick s.world.memory).1.processingNum = 0
    omega
  · rw [hcontr', hobs, Nat.add_zero, hcontr, List.length_append]
    rfl
  · rw [hobs]; exact hsize
  · rw [hobs]; exact hapart

theorem Sound.countDown (h : s.Sound) (hone : s.cpm.computingRemind ≠ 1) : s.tick.Sound := by
  have hinv := computingCycleNum_lt
  obtain ⟨init, r, t, hrounds, hdone, hstart, hend, hread, hclock, hnone, hcontr⟩ := h.phase.lastComputing hpos hle
  have hcpm := cpm_count hpos hle
  have hproc := h.reads.sound.consistent.processingNum_clockTick
  have hcontr' := contribution_tick (n := 0) (s := s) (by rw [clockTick_computing hpos hle]; rfl)
  have hobs := rounds_countDown hpos hle hone
  refine ⟨h.reads.tick ?_ ?_ ?_, .computing init r t (hobs.trans hrounds) ?_ ?_
    (fun x hx => (hdone x hx).mono (Nat.le_succ _)) hstart hend hread ?_ ?_ (hcontr'.trans hcontr), ?_, ?_⟩
  · rw [centroidsRead, hobs]; rfl
  · rw [hcpm]
  · rw [hcpm]; exact Or.inl rfl
  · rw [hcpm]
    show 0 < s.cpm.computingRemind - 1
    omega
  · rw [hcpm]
    show s.cpm.computingRemind - 1 ≤ computingCycleNum
    omega
  · rw [hcpm]
    show t + computingCycleNum = s.clock + 1 + (s.cpm.computingRemind - 1)
    omega
  · rw [hcpm]
    show (s.cpm.memoryReader.clockTick s.world.memory).1.processingNum = 0
    omega
  · rw [hobs]; exact h.size
  · rw [hobs]; exact h.apart

theorem Sound.count (h : s.Sound) : s.tick.Sound := by
  by_cases hone : s.cpm.computingRemind = 1
  · exact h.countLast hpos hle hone
  · exact h.countDown hpos hle hone

end Count

/-- The tick at which the reads of a round are found to be back. -/
theorem Sound.start (h : s.Sound) (hready : (s.cpm.memoryReader.clockTick s.world.memory).1.isReady = true)
    (hrem : s.cpm.computingRemind = computingInvalidNum)
    (heq : s.cpm.clockTick s.world =
      ({ s.cpm with
          memoryReader := (s.cpm.memoryReader.clockTick s.world.memory).1.finishAndReset.2
          computingRemind := computingCycleNum },
        { s.world with
          memory := (s.cpm.memoryReader.clockTick s.world.memory).2
          testValue := { s.world.testValue with
            cpmComputingCycleCnt := s.world.testValue.cpmComputingCycleCnt + computingCycleNum } })) :
    s.tick.Sound := by
  have hinv := computingCycleNum_lt
  rcases h.phase with ⟨hz, -, -, -⟩ | ⟨init, r, hrounds, -, hdone, hstart, hend, hread, hcontr⟩ |
    ⟨init, r, t, -, -, hle, -, -, -, -, -, -, -⟩
  · rw [hrem] at hz
    exact absurd hz (by decide)
  · have hcpm : s.tick.cpm = _ := congrArg Prod.fst heq
    have hcontr' : s.tick.contribution = s.contribution + computingCycleNum := contribution_tick (by rw [heq])
    have hobs : s.tick.rounds = init ++ [{ r with startAt := some (s.clock + 1) }] := by
      show observe _ _ _ _ = _
      rw [heq, hrounds]
      simp only [observe, Nat.lt_irrefl, if_false, hrem, and_self, if_true, List.modifyLast_concat]
    obtain ⟨hcent, hsize, hapart⟩ := h.mark hrounds { r with startAt := some (s.clock + 1) } rfl rfl
    refine ⟨h.reads.tick ?_ ?_ ?_, .computing init _ (s.clock + 1) hobs ?_ ?_
      (fun x hx => (hdone x hx).mono (Nat.le_succ _)) rfl hend (Nat.lt_succ_of_le hread) ?_ ?_ ?_, ?_, ?_⟩
    · rw [centroidsRead, hobs, hcent]
    · rw [hcpm]
    · rw [hcpm]; exact Or.inr rfl
    · rw [hcpm]; exact (by decide : 0 < computingCycleNum)
    · rw [hcpm]
    · rw [hcpm]; rfl
    · rw [hcpm]
      show (s.cpm.memoryReader.clockTick s.world.memory).1.finishAndReset.2.processingNum = 0
      rw [MemoryReader.finishAndReset_num]
      exact beq_iff_eq.mp hready
    · rw [hcontr', hcontr, Nat.mul_succ]
    · rw [hobs]; exact hsize
    · rw [hobs]; exact hapart
  · omega

theorem rounds_read (hwait : s.cpm.waitAddr ≠ [])
    (hcpm : s.tick.cpm =
      readRound { s.cpm with memoryReader := (s.cpm.memoryReader.clockTick s.world.memory).1.finishAndReset.2 }) :
    s.tick.rounds = s.rounds ++ [⟨s.cpm.waitAddr.take nCu, s.clock + 1, none, none⟩] := by
  have hcut : (s.cpm.waitAddr.drop nCu).length < s.cpm.waitAddr.length := by
    rw [List.length_drop]
    exact Nat.sub_lt (List.length_pos_of_ne_nil hwait) (by decide)
  have htake : s.cpm.waitAddr.take (s.cpm.waitAddr.length - (s.cpm.waitAddr.drop nCu).length) =
      s.cpm.waitAddr.take nCu := by
    rw [List.length_drop, List.take_eq_take_iff]
    omega
  show observe (s.clock + 1) s.cpm s.tick.cpm s.rounds = _
  rw [hcpm]
  simp only [observe, readRound, hcut, if_true, htake]

/-- The tick at which the centroids of the next round are handed to the reader. -/
theorem Sound.read (h : s.Sound)
    (hrem : ¬ (0 < s.cpm.computingRemind ∧ s.cpm.computingRemind ≤ computingCycleNum))
    (hinv : s.cpm.computingRemind ≠ computingInvalidNum) (hwait : s.cpm.waitAddr ≠ [])
    (heq : s.cpm.clockTick s.world =
      (readRound { s.cpm with memoryReader := (s.cpm.memoryReader.clockTick s.world.memory).1.finishAndReset.2 },
        { s.world with memory := (s.cpm.memoryReader.clockTick s.world.memory).2 })) :
    s.tick.Sound := by
  rcases h.phase with ⟨hz, hdone, hnone, hcontr⟩ | ⟨init, r, -, hz, -, -, -, -, -⟩ |
    ⟨init, r, t, -, hpos, hle, -, -, -, -, -, -, -⟩
  · have hcpm : s.tick.cpm = _ := congrArg Prod.fst heq
    have hcontr' := contribution_tick (n := 0) (s := s) (by rw [heq]; rfl)
    have hobs := rounds_read hwait hcpm
    have hcent : s.tick.centroidsRead = s.centroidsRead ++ s.cpm.waitAddr.take nCu := by
      simp [centroidsRead, hobs]
    refine ⟨h.reads.read hcent hcpm, .loading s.rounds _ hobs ?_ (fun x hx => (hdone x hx).mono (Nat.le_succ _)) rfl rfl
      (Nat.le_refl _) (hcontr'.trans hcontr), ?_, ?_⟩
    · rw [hcpm]; rfl
    · rw [hobs]
      intro x hx
      rcases List.mem_append.mp hx with hx | hx
      · exact h.size x hx
      · rw [List.mem_singleton.mp hx]
        exact ⟨fun hnil => hwait (List.take_eq_nil_iff.mp hnil |>.resolve_left (by decide)), List.length_take_le _ _⟩
    · rw [hobs]
      refine List.pairwise_append.mpr ⟨h.apart, List.pairwise_singleton _ _, ?_⟩
      intro x hx y hy
      rw [List.mem_singleton.mp hy]
      obtain ⟨t, -, hend, -, hclock⟩ := hdone x hx
      exact ⟨_, hend, Nat.lt_succ_of_le hclock⟩
  · exact absurd hz hinv
  · exact absurd ⟨hpos, hle⟩ hrem

theorem Sound.rest (h : s.Sound) (hrem : ¬ (0 < s.cpm.computingRemind ∧ s.cpm.computingRemind ≤ computingCycleNum))
    (heq : s.cpm.clockTick s.world =
      ({ s.cpm with memoryReader := (s.cpm.memoryReader.clockTick s.world.memory).1.finishAndReset.2 },
        { s.world with memory := (s.cpm.memoryReader.clockTick s.world.memory).2 })) : s.tick.Sound := by
  have hinv := computingCycleNum_lt
  have hcpm : s.tick.cpm = _ := congrArg Prod.fst heq
  have hproc := h.reads.sound.consistent.processingNum_clockTick
  have hcontr' := contribution_tick (n := 0) (s := s) (by rw [heq]; rfl)
  have hobs : s.tick.rounds = s.rounds := by
    show observe _ _ _ _ = _
    rw [heq]
    simp only [observe, Nat.lt_irrefl, if_false]
    rw [if_neg (by omega), if_neg (by omega)]
  refine ⟨h.reads.tick ?_ ?_ ?_, ?_, by rw [hobs]; exact h.size, by rw [hobs]; exact h.apart⟩
  · rw [centroidsRead, hobs]; rfl
  · rw [hcpm]
  · rw [hcpm]; exact Or.inr rfl
  rcases h.phase with ⟨hz, hdone, hnone, hcontr⟩ | ⟨init, r, hrounds, hz, hdone, hstart, hend, hread, hcontr⟩ |
    ⟨init, r, t, -, hpos, hle, -, -, -, -, -, -, -⟩
  · refine .idle ?_ ?_ ?_ ?_
    · rw [hcpm]; exact hz
    · rw [hobs]
      exact fun x hx => (hdone x hx).mono (Nat.le_succ _)
    · rw [hcpm]
      show (s.cpm.memoryReader.clockTick s.world.memory).1.finishAndReset.2.processingNum = 0
      rw [MemoryReader.finishAndReset_num]
      omega
    · rw [hcontr', hobs]; exact hcontr
  · refine .loading init r (hobs.trans hrounds) ?_ (fun x hx => (hdone x hx).mono (Nat.le_succ _)) hstart hend
      (Nat.le_succ_of_le hread) (hcontr'.trans hcontr)
    rw [hcpm]; exact hz
  · exact absurd ⟨hpos, hle⟩ hrem

theorem Sound.tick (h : s.Sound) : s.tick.Sound := by
  obtain ⟨hpos, hle, -⟩ | ⟨hready, hrem, heq⟩ | ⟨-, hrem, hinv, hwait, heq⟩ | ⟨hrem, -, heq⟩ :=
    clockTick_cases s.cpm s.world
  · exact h.count hpos hle
  · exact h.start hready hrem heq
  · exact h.read hrem hinv hwait heq
  · exact h.rest hrem heq

theorem Sound.submit (h : s.Sound) (centroidList : List Nat) : (s.submit centroidList).Sound :=
  ⟨h.reads.submit centroidList, h.phase.frame _ _ s.world, h.size, h.apart⟩

theorem Sound.environment (h : s.Sound) {w : World μ}
    (hm : MemoryPort.inflight w.memory s.cpm.memoryReader.id =
      MemoryPort.inflight s.world.memory s.cpm.memoryReader.id) : Sound { s with world := w } := by
  refine ⟨⟨h.reads.sound.frame hm, h.reads.order, h.reads.requested, h.reads.returned⟩, ?_, h.size, h.apart⟩
  exact h.phase.frame s.submitted s.cpm.waitAddr w

end

theorem reach_sound {s : CpmRun μ} (h : Reach s) : s.Sound := by
  induction h with
  | new id w h0 =>
    refine ⟨reads_new h0, .idle rfl ?_ rfl rfl, ?_, List.Pairwise.nil⟩
    · intro r hr; cases hr
    · intro r hr; cases hr
  | submit centroidList _ ih => exact ih.submit centroidList
  | tick _ ih => exact ih.tick
  | environment w _ hm ih => exact ih.environment hm

/-! ## The rounds of a run -/

omit [MemoryPort μ] in
theorem Phase.lastStarted {s : CpmRun μ} (h : s.Phase) {init : List Round} {r : Round}
    (hrounds : s.rounds = init ++ [r]) (hstart : r.startAt ≠ none) : s.cpm.memoryReader.processingNum = 0 := by
  rcases h with ⟨-, -, hnone, -⟩ | ⟨init', r', hrounds', -, -, hnot, -, -, -⟩ |
    ⟨init', r', t, -, -, -, -, -, -, -, -, hnone, -⟩
  · exact hnone
  · rw [hrounds] at hrounds'
    obtain ⟨-, hr⟩ := List.append_inj' hrounds' rfl
    rw [List.singleton_inj.mp hr] at hstart
    exact absurd hnot hstart
  · exact hnone

/-- A round ends `computingCycleNum` ticks after its start, and has not ended before. -/
def Round.Timed (clock : Nat) (r : Round) : Prop :=
  (r.startAt = none → r.endAt = none) ∧
    ∀ t, r.startAt = some t →
      r.readAt < t ∧ r.endAt = if t + computingCycleNum ≤ clock then some (t + computingCycleNum) else none

theorem Round.Done.timed {clock : Nat} {r : Round} (h : Round.Done clock r) : Round.Timed clock r := by
  obtain ⟨t, hs, he, hr, hc⟩ := h
  refine ⟨fun h0 => by simp [hs] at h0, fun t' ht' => ?_⟩
  obtain rfl : t = t' := Option.some.inj (hs.symm.trans ht')
  exact ⟨hr, by rw [he, if_pos hc]⟩

omit [MemoryPort μ] in
theorem Phase.timed {s : CpmRun μ} (h : s.Phase) : ∀ r ∈ s.rounds, Round.Timed s.clock r := by
  intro x hx
  rcases h with ⟨-, hdone, -, -⟩ | ⟨init, r, hrounds, -, hdone, hstart, hend, -, -⟩ |
    ⟨init, r, t, hrounds, hpos, hle, hdone, hstart, hend, hread, hclock, -, -⟩
  · exact (hdone x hx).timed
  · rw [hrounds] at hx
    rcases List.mem_append.mp hx with hx | hx
    · exact (hdone x hx).timed
    · rw [List.mem_singleton.mp hx]
      exact ⟨fun _ => hend, fun t ht => by simp [hstart] at ht⟩
  · rw [hrounds] at hx
    rcases List.mem_append.mp hx with hx | hx
    · exact (hdone x hx).timed
    · rw [List.mem_singleton.mp hx]
      refine ⟨fun _ => hend, fun t' ht' => ?_⟩
      obtain rfl : t = t' := Option.some.inj (hstart.symm.trans ht')
      exact ⟨hread, by rw [hend, if_neg (by omega)]⟩

omit [MemoryPort μ] in
theorem Phase.finished {s : CpmRun μ} (h : s.Phase) (hz : s.cpm.computingRemind = 0) :
    (∀ r ∈ s.rounds, r.endAt ≠ none) ∧ s.contribution = computingCycleNum * s.rounds.length := by
  rcases h with ⟨-, hdone, -, hcontr⟩ | ⟨init, r, -, hinv, -, -, -, -, -⟩ |
    ⟨init, r, t, -, hpos, -, -, -, -, -, -, -, -⟩
  · refine ⟨fun r hr => ?_, hcontr⟩
    obtain ⟨t, -, he, -, -⟩ := hdone r hr
    rw [he]
    exact Option.some_ne_none _
  · rw [hz] at hinv
    exact absurd hinv (by decide)
  · omega

/-- The centroids are read once each, in the order of submission and at most
`N_cu` a round; a round is computed when all its reads are back, for
`computingCycleNum` ticks, and the next one is read after that; a module that
says it is finished has done all it was given. -/
theorem rounds_in_order {s : CpmRun μ} (h : Reach s) :
    s.submitted = s.centroidsRead ++ s.cpm.waitAddr ∧
      s.requested ++ s.cpm.memoryReader.requestQueue = readsOf s.centroidsRead ∧
      (∀ r ∈ s.rounds, r.centroids ≠ [] ∧ r.centroids.length ≤ nCu) ∧
      (∀ init r, s.rounds = init ++ [r] → r.startAt ≠ none → s.requested = readsOf s.centroidsRead ∧
        MemoryPort.inflight s.world.memory s.cpm.memoryReader.id = 0 ∧
        s.returned = (readsOf s.centroidsRead).length) ∧
      (∀ r ∈ s.rounds, Round.Timed s.clock r) ∧
      (s.rounds.Pairwise fun r r' => ∃ e, r.endAt = some e ∧ e < r'.readAt) ∧
      (s.cpm.isFinished = true → s.submitted = s.centroidsRead ∧ (∀ r ∈ s.rounds, r.endAt ≠ none) ∧
        s.contribution = computingCycleNum * s.rounds.length) := by
  have hs := reach_sound h
  refine ⟨hs.reads.order, hs.reads.requested, hs.size, ?_, hs.phase.timed, hs.apart, ?_⟩
  · intro init r hrounds hstart
    have hnone := hs.phase.lastStarted hrounds hstart
    have hcons := hs.reads.sound.consistent
    have hret := hs.reads.returned
    have hreq := hs.reads.requested
    unfold MemoryReader.Consistent at hcons
    have hqueue : s.cpm.memoryReader.requestQueue = [] := List.eq_nil_of_length_eq_zero (by omega)
    rw [hqueue, List.append_nil] at hreq
    exact ⟨hreq, by omega, by omega⟩
  · intro hfin
    simp only [isFinished, Bool.and_eq_true, List.isEmpty_iff, beq_iff_eq] at hfin
    refine ⟨?_, hs.phase.finished hfin.2⟩
    rw [hs.reads.order, hfin.1, List.append_nil]

/-- One centroid on ideal stacks: read at the first tick, back at the third. -/
def oneCentroid : CpmRun (MultiMemoryInterface IdealDram) :=
  let w : World (MultiMemoryInterface IdealDram) :=
    ⟨(MultiMemoryInterface.new true fun _ => []).registerId 2, TestValue.initial⟩
  let s := ((new 0 w).submit [3]).tick.tick
  { s with world := { s.world with memory := s.world.memory.clockTick.clockTick } }.tick

theorem reach_oneCentroid : Reach oneCentroid := by
  apply Reach.tick
  apply Reach.environment
  · apply Reach.tick
    apply Reach.tick
    apply Reach.submit
    exact Reach.new _ _ (by decide +kernel)
  · exact ((MultiMemoryInterface.clockTick_counts _ _).1.trans (MultiMemoryInterface.clockTick_counts _ _).1)

/-! ## A round ends and the next is read -/

theorem exists_ended {init : List Round} {r : Round} : ∀ (n : Nat) {s : CpmRun μ}, Reach s →
    s.rounds = init ++ [r] → s.cpm.computingRemind = n + 1 → n + 1 ≤ computingCycleNum →
    ∃ s' : CpmRun μ, Reach s' ∧ s'.rounds = init ++ [{ r with endAt := some (s.clock + n + 1) }] ∧
      s'.cpm.waitAddr = s.cpm.waitAddr ∧ s'.cpm.computingRemind = 0 := by
  intro n
  induction n with
  | zero =>
    intro s h hrounds hrem hle
    have hpos : 0 < s.cpm.computingRemind := hrem ▸ Nat.one_pos
    have hcpm := cpm_count hpos (hrem ▸ hle)
    refine ⟨s.tick, h.tick, rounds_countLast hpos (hrem ▸ hle) hrounds hrem, by rw [hcpm], ?_⟩
    rw [hcpm, hrem]
  | succ n ih =>
    intro s h hrounds hrem hle
    have hpos : 0 < s.cpm.computingRemind := hrem ▸ Nat.succ_pos _
    have hcpm := cpm_count hpos (hrem ▸ hle)
    have hrounds' := (rounds_countDown hpos (hrem ▸ hle) (by omega)).trans hrounds
    have hrem' : s.tick.cpm.computingRemind = n + 1 := by rw [hcpm, hrem]; rfl
    obtain ⟨s', h', hr, hw, hz⟩ := ih h.tick hrounds' hrem' (Nat.le_of_succ_le hle)
    refine ⟨s', h', hr.trans ?_, hw.trans (by rw [hcpm]), hz⟩
    show init ++ [{ r with endAt := some (s.clock + 1 + n + 1) }] = _
    rw [Nat.add_right_comm s.clock 1 n, Nat.add_assoc s.clock n 1]

theorem tick_next {s : CpmRun μ} (h : Reach s) (hz : s.cpm.computingRemind = 0) (hwait : s.cpm.waitAddr ≠ []) :
    s.tick.rounds = s.rounds ++ [⟨s.cpm.waitAddr.take nCu, s.clock + 1, none, none⟩] := by
  obtain ⟨hpos, -, -⟩ | ⟨-, hinv, -⟩ | ⟨-, -, -, -, heq⟩ | ⟨-, hnot, -⟩ := clockTick_cases s.cpm s.world
  · omega
  · exact absurd (hz.symm.trans hinv) (by decide)
  · exact rounds_read hwait (congrArg Prod.fst heq)
  · have hs := reach_sound h
    have hsettled : s.cpm.memoryReader.processingNum = 0 := by
      rcases hs.phase with ⟨-, -, hnone, -⟩ | ⟨init, r, -, hinv, -, -, -, -, -⟩ |
        ⟨init, r, t, -, hpos, -, -, -, -, -, -, -, -⟩
      · exact hnone
      · exact absurd (hz.symm.trans hinv) (by decide)
      · omega
    have hproc := hs.reads.sound.consistent.processingNum_clockTick
    have hready : (s.cpm.memoryReader.clockTick s.world.memory).1.isReady = true :=
      beq_iff_eq.mpr (by omega)
    exact absurd (hnot hready).2 hwait

-- a second centroid, given while the first is computed, is read after that
theorem rounds_in_order_twoRounds : ∃ s : CpmRun (MultiMemoryInterface IdealDram), Reach s ∧ ∃ t,
    s.rounds = [⟨[133376], 1, some 3, some (3 + computingCycleNum)⟩, ⟨[134912], t, none, none⟩] ∧
      3 + computingCycleNum < t ∧ s.requested ++ s.cpm.memoryReader.requestQueue = readsOf s.centroidsRead := by
  have hrounds : (oneCentroid.submit [5]).rounds = [] ++ [⟨[133376], 1, some 3, none⟩] := by decide +kernel
  have hrem : (oneCentroid.submit [5]).cpm.computingRemind = computingCycleNum - 1 + 1 := by decide +kernel
  have hclock : (oneCentroid.submit [5]).clock = 3 := by decide +kernel
  have hwait : (oneCentroid.submit [5]).cpm.waitAddr = [134912] := by decide +kernel
  obtain ⟨s, h, hr, hw, hz⟩ := exists_ended (computingCycleNum - 1) (reach_oneCentroid.submit [5]) hrounds hrem
    (by decide)
  rw [hclock] at hr
  rw [hwait] at hw
  have hnext := tick_next h hz (by rw [hw]; decide)
  rw [hr, hw] at hnext
  have hall := rounds_in_order h.tick
  obtain ⟨e, he, hlt⟩ := (List.pairwise_cons.mp (hnext ▸ hall.2.2.2.2.2.1)).1 _ (List.mem_singleton_self _)
  obtain rfl := Option.some.inj he
  exact ⟨s.tick, h.tick, _, hnext, hlt, hall.2.1⟩

end CpmRun

end Anna
