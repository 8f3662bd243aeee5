import Anna.MemoryReaderSound

/-!
# Any number of readers on one interface

The readers of all cores share the memory interface. `Accounted` relates each
reader's counter to its own queue, its entries and its completions, to what it
has submitted and got back, and its `finished` flag to the bursts of
submissions in the log. A burst lasts from a submission until `FinishAndReset`
returns true.
-/

namespace Anna

inductive ReaderEvent where
  | submit (id chunkNum : Nat)
  | returned (id res : Nat)
  | finish (id : Nat) (result : Bool)
  deriving DecidableEq, Repr

/-- The submissions of one reader so far: a burst is closed by the first call of
`FinishAndReset` that finds none of its chunks outstanding. -/
structure Burst where
  isOpen : Bool
  num : Nat
  outstanding : Nat
  deriving DecidableEq, Repr

namespace ReaderEvent

def submitted (id : Nat) : ReaderEvent → Nat
  | .submit i n => if i = id then n else 0
  | _ => 0

def handedBack (id : Nat) : ReaderEvent → Nat
  | .returned i res => if i = id then res else 0
  | _ => 0

def isFinish (id : Nat) : ReaderEvent → Bool
  | .finish i result => i = id && result
  | _ => false

def burst (id : Nat) (b : Burst) : ReaderEvent → Burst
  | .submit i n => if i = id then ⟨true, if b.isOpen then b.num else b.num + 1, b.outstanding + n⟩ else b
  | .returned i res => if i = id then { b with outstanding := b.outstanding - res } else b
  | .finish i _ => if i = id ∧ b.outstanding = 0 then { b with isOpen := false } else b

def about : ReaderEvent → Nat
  | .submit i _ => i
  | .returned i _ => i
  | .finish i _ => i

end ReaderEvent

section
variable (log : List ReaderEvent) (id : Nat)

def submittedNum : Nat := (log.map (ReaderEvent.submitted id)).sum

def returnedNum : Nat := (log.map (ReaderEvent.handedBack id)).sum

def finishNum : Nat := log.countP (ReaderEvent.isFinish id)

def bursts : Burst := log.foldl (ReaderEvent.burst id) ⟨false, 0, 0⟩

end

theorem bursts_append (log : List ReaderEvent) (e : ReaderEvent) (id : Nat) :
    bursts (log ++ [e]) id = ReaderEvent.burst id (bursts log id) e := by
  simp only [bursts, List.foldl_append, List.foldl_cons, List.foldl_nil]

theorem submittedNum_append (log : List ReaderEvent) (e : ReaderEvent) (id : Nat) :
    submittedNum (log ++ [e]) id = submittedNum log id + e.submitted id := by
  simp [submittedNum]

theorem returnedNum_append (log : List ReaderEvent) (e : ReaderEvent) (id : Nat) :
    returnedNum (log ++ [e]) id = returnedNum log id + e.handedBack id := by
  simp [returnedNum]

theorem finishNum_append (log : List ReaderEvent) (e : ReaderEvent) (id : Nat) :
    finishNum (log ++ [e]) id = finishNum log id + if e.isFinish id then 1 else 0 := by
  simp [finishNum, List.countP_cons]

theorem frame_event (log : List ReaderEvent) {e : ReaderEvent} {id : Nat} (h : e.about ≠ id) :
    bursts (log ++ [e]) id = bursts log id ∧ submittedNum (log ++ [e]) id = submittedNum log id ∧
      returnedNum (log ++ [e]) id = returnedNum log id ∧ finishNum (log ++ [e]) id = finishNum log id := by
  rw [bursts_append, submittedNum_append, returnedNum_append, finishNum_append]
  cases e with
  | submit i n =>
    have hi : i ≠ id := h
    simp [ReaderEvent.burst, ReaderEvent.submitted, ReaderEvent.handedBack, ReaderEvent.isFinish, hi]
  | returned i res =>
    have hi : i ≠ id := h
    simp [ReaderEvent.burst, ReaderEvent.submitted, ReaderEvent.handedBack, ReaderEvent.isFinish, hi]
  | finish i result =>
    have hi : i ≠ id := h
    simp [ReaderEvent.burst, ReaderEvent.submitted, ReaderEvent.handedBack, ReaderEvent.isFinish, hi]

structure SharedReaders (δ : Type) where
  memory : MultiMemoryInterface δ
  reader : Nat → MemoryReader
  log : List ReaderEvent

namespace SharedReaders

variable {δ : Type} [MemorySystem δ]

inductive Op where
  | create (coreId : Port)
  -- more than the source has: there the call does not return if `stride` is 0 or the index wraps around
  | submitReadRequest (id : Nat) (addr len stride : UInt64)
  | clockTick (id : Nat)
  | finishAndReset (id : Nat)
  | memoryClockTick
  deriving DecidableEq, Repr

def new (useMemorySwitch : Bool) (mem : Port → δ) : SharedReaders δ :=
  ⟨MultiMemoryInterface.new useMemorySwitch mem, MemoryReader.new, []⟩

def exec (s : SharedReaders δ) : Op → SharedReaders δ
  | .create coreId => { s with memory := s.memory.registerId coreId }
  | .submitReadRequest id addr len stride =>
    { s with
      reader := Function.update s.reader id ((s.reader id).submitReadRequest addr len stride)
      log := s.log ++ [.submit id (MemoryReader.chunks addr len stride).length] }
  | .clockTick id =>
    let t := (s.reader id).clockTick s.memory
    { memory := t.2
      reader := Function.update s.reader id t.1
      log := s.log ++ [.returned id ((s.reader id).collected s.memory)] }
  | .finishAndReset id =>
    let t := (s.reader id).finishAndReset
    { s with reader := Function.update s.reader id t.2, log := s.log ++ [.finish id t.1] }
  | .memoryClockTick => { s with memory := s.memory.clockTick }

def Created (s : SharedReaders δ) : Op → Prop
  | .submitReadRequest id _ _ _ => id < s.memory.idNum
  | .clockTick id => id < s.memory.idNum
  | .finishAndReset id => id < s.memory.idNum
  | _ => True

inductive Reachable : SharedReaders δ → Prop
  | new (useMemorySwitch : Bool) (mem : Port → δ) :
      (∀ st a, MemorySystem.outstanding (mem st) a = 0) → Reachable (new useMemorySwitch mem)
  | step {s : SharedReaders δ} (op : Op) : Reachable s → s.Created op → Reachable (s.exec op)

def AllCreated : SharedReaders δ → List Op → Prop
  | _, [] => True
  | s, op :: ops => s.Created op ∧ AllCreated (s.exec op) ops

theorem reachable_foldl (ops : List Op) {s : SharedReaders δ} (h : Reachable s) (hops : AllCreated s ops) :
    Reachable (ops.foldl exec s) := by
  induction ops generalizing s with
  | nil => exact h
  | cons op ops ih => exact ih (.step op h hops.1) hops.2

instance (s : SharedReaders δ) : (op : Op) → Decidable (s.Created op)
  | .create _ => inferInstanceAs (Decidable True)
  | .submitReadRequest id _ _ _ => inferInstanceAs (Decidable (id < s.memory.idNum))
  | .clockTick id => inferInstanceAs (Decidable (id < s.memory.idNum))
  | .finishAndReset id => inferInstanceAs (Decidable (id < s.memory.idNum))
  | .memoryClockTick => inferInstanceAs (Decidable True)

instance AllCreated.decidable : (s : SharedReaders δ) → (ops : List Op) → Decidable (AllCreated s ops)
  | _, [] => inferInstanceAs (Decidable True)
  | s, op :: ops =>
    have := AllCreated.decidable (s.exec op) ops
    inferInstanceAs (Decidable (s.Created op ∧ AllCreated (s.exec op) ops))

/-- What the reader with number `id` owes and is owed. -/
structure Account (m : MultiMemoryInterface δ) (log : List ReaderEvent) (id : Nat) (r : MemoryReader) : Prop where
  id_eq : r.id = id
  fresh : m.idNum ≤ id → r = MemoryReader.new id
  consistent : r.Consistent m
  submitted : submittedNum log id = returnedNum log id + r.processingNum
  credited : MultiMemoryInterface.creditedNum m.log id = returnedNum log id + m.readyNum id
  finished : r.finished = !(bursts log id).isOpen
  outstanding : (bursts log id).outstanding = r.processingNum
  closed : finishNum log id + (if (bursts log id).isOpen then 1 else 0) = (bursts log id).num

def Accounted (s : SharedReaders δ) : Prop := ∀ id, Account s.memory s.log id (s.reader id)

omit [MemorySystem δ] in
theorem accounted_new (useMemorySwitch : Bool) (mem : Port → δ) : Accounted (new useMemorySwitch mem) := by
  intro id
  refine ⟨rfl, fun _ => rfl, ?_, rfl, ?_, rfl, rfl, rfl⟩
  · simp [MemoryReader.Consistent, new, MemoryReader.new, MemoryPort.inflight, MultiMemoryInterface.new,
      MultiMemoryInterface.taggedNum, MultiMemoryInterface.readyNum, Multimap.tagged]
  · simp [new, MultiMemoryInterface.new, MultiMemoryInterface.creditedNum, MultiMemoryInterface.readyNum, returnedNum]

/-! ## One step -/

omit [MemorySystem δ] in
theorem issue_frame (id j : Nat) : ∀ (budget : Nat) (q : List UInt64) (m : MultiMemoryInterface δ),
    (MemoryReader.issue id budget q m).2.readyNum j = m.readyNum j ∧
      MultiMemoryInterface.creditedNum (MemoryReader.issue id budget q m).2.log j =
        MultiMemoryInterface.creditedNum m.log j ∧
      (MemoryReader.issue id budget q m).2.idNum = m.idNum
  | 0, q, m => ⟨rfl, rfl, rfl⟩
  | budget + 1, [], m => ⟨rfl, rfl, rfl⟩
  | budget + 1, addr :: q, m => by
    obtain ⟨h1, h2, h3⟩ := issue_frame id j budget q (m.requestRead id addr)
    refine ⟨h1.trans ?_, h2.trans ?_, h3.trans ?_⟩
    · unfold MultiMemoryInterface.readyNum
      rw [(MultiMemoryInterface.requestRead_idMap m id addr).2]
    · exact MultiMemoryInterface.creditedNum_requestRead m id j addr
    · exact (MultiMemoryInterface.requestRead_frame m id addr).2.1

omit [MemorySystem δ] in
theorem clockTick_frame (r : MemoryReader) (m : MultiMemoryInterface δ) (j : Nat) :
    r.collected m = m.readyNum r.id ∧
      (r.clockTick m).2.readyNum j = (if r.id = j then 0 else m.readyNum j) ∧
      MultiMemoryInterface.creditedNum (r.clockTick m).2.log j = MultiMemoryInterface.creditedNum m.log j ∧
      (r.clockTick m).2.idNum = m.idNum := by
  refine ⟨(issue_frame r.id r.id 17 r.requestQueue m).1, ?_, (issue_frame r.id j 17 r.requestQueue m).2.1,
    (issue_frame r.id j 17 r.requestQueue m).2.2⟩
  have h := MultiMemoryInterface.readyNum_getAll (MemoryReader.issue r.id 17 r.requestQueue m).2 r.id j
  rw [(issue_frame r.id j 17 r.requestQueue m).1] at h
  exact h

section
variable {m m' : MultiMemoryInterface δ} {log : List ReaderEvent} {id : Nat} {r : MemoryReader}

omit [MemorySystem δ] in
/-- Whatever keeps the reads of `id` in flight, ready and credited keeps its account. -/
theorem Account.frame (h : Account m log id r) {e : ReaderEvent} (he : e.about ≠ id) (hnum : m'.idNum = m.idNum)
    (hflight : MemoryPort.inflight m' id = MemoryPort.inflight m id) (hready : m'.readyNum id = m.readyNum id)
    (hcred : MultiMemoryInterface.creditedNum m'.log id = MultiMemoryInterface.creditedNum m.log id) :
    Account m' (log ++ [e]) id r := by
  obtain ⟨hb, hs, hr, hf⟩ := frame_event log he
  refine ⟨h.id_eq, fun hid => h.fresh (hnum ▸ hid), ?_, ?_, ?_, ?_, ?_, ?_⟩
  · have hc := h.consistent
    unfold MemoryReader.Consistent at hc ⊢
    rw [h.id_eq] at hc ⊢
    rw [hflight]
    exact hc
  · rw [hs, hr]; exact h.submitted
  · rw [hcred, hr, hready]; exact h.credited
  · rw [hb]; exact h.finished
  · rw [hb]; exact h.outstanding
  · rw [hb, hf]; exact h.closed

omit [MemorySystem δ] in
theorem Account.submit (h : Account m log id r) (hid : id < m.idNum) (addr len stride : UInt64) :
    Account m (log ++ [.submit id (MemoryReader.chunks addr len stride).length]) id
      (r.submitReadRequest addr len stride) := by
  have hb := bursts_append log (.submit id (MemoryReader.chunks addr len stride).length) id
  simp only [ReaderEvent.burst, if_true] at hb
  refine ⟨h.id_eq, fun hle => absurd hid (Nat.not_lt.mpr hle), h.consistent.submitReadRequest addr len stride, ?_, ?_,
    ?_, ?_, ?_⟩
  · rw [submittedNum_append, returnedNum_append, h.submitted]
    simp only [ReaderEvent.submitted, ReaderEvent.handedBack, if_true, MemoryReader.submitReadRequest]
    omega
  · rw [returnedNum_append]; exact h.credited
  · rw [hb]; rfl
  · rw [hb, h.outstanding]; rfl
  · have hc := h.closed
    rw [hb, finishNum_append]
    simp only [ReaderEvent.isFinish, Bool.false_eq_true, if_false, if_true]
    cases hopen : (bursts log id).isOpen with
    | true => simp only [hopen, if_true] at hc ⊢; exact hc
    | false => simp only [hopen, Bool.false_eq_true, if_false] at hc ⊢; omega

omit [MemorySystem δ] in
theorem Account.tick (h : Account m log id r) (hid : id < m.idNum) :
    Account (r.clockTick m).2 (log ++ [.returned id (r.collected m)]) id (r.clockTick m).1 := by
  obtain ⟨hcol, hready, hcred, hnum⟩ := clockTick_frame r m id
  have hproc := h.consistent.processingNum_clockTick
  have hb := bursts_append log (.returned id (r.collected m)) id
  simp only [ReaderEvent.burst, if_true] at hb
  rw [h.id_eq, if_pos rfl] at hready
  refine ⟨h.id_eq, fun hle => absurd hid (Nat.not_lt.mpr (hnum ▸ hle)), h.consistent.clockTick, ?_, ?_, ?_, ?_, ?_⟩
  · rw [submittedNum_append, returnedNum_append, h.submitted]
    simp only [ReaderEvent.submitted, ReaderEvent.handedBack, if_true]
    omega
  · rw [returnedNum_append, hcred, hready, h.credited]
    simp only [ReaderEvent.handedBack, if_true, hcol, h.id_eq]
    omega
  · rw [hb]; exact h.finished
  · have ho := h.outstanding
    rw [hb]
    show (bursts log id).outstanding - r.collected m = _
    omega
  · rw [hb, finishNum_append]; exact h.closed

omit [MemorySystem δ] in
theorem Account.finishAndReset_eq (h : Account m log id r) : r.finishAndReset =
    if (bursts log id).outstanding = 0 ∧ (bursts log id).isOpen = true then
      (true, { r with finished := true }) else (false, r) := by
  unfold MemoryReader.finishAndReset
  rw [h.finished, h.outstanding]
  by_cases hp : r.processingNum = 0
  · cases (bursts log id).isOpen <;> simp [hp]
  · simp [hp]

omit [MemorySystem δ] in
theorem Account.finish (h : Account m log id r) :
    Account m (log ++ [.finish id r.finishAndReset.1]) id r.finishAndReset.2 := by
  have hb := bursts_append log (.finish id r.finishAndReset.1) id
  have hc := h.closed
  have hfin := finishNum_append log (.finish id r.finishAndReset.1) id
  have hsub := submittedNum_append log (.finish id r.finishAndReset.1) id
  have hret := returnedNum_append log (.finish id r.finishAndReset.1) id
  simp only [ReaderEvent.burst, true_and] at hb
  simp only [ReaderEvent.isFinish, decide_true, Bool.true_and] at hfin
  by_cases hzero : (bursts log id).outstanding = 0
  · rw [if_pos hzero] at hb
    cases hopen : (bursts log id).isOpen with
    | true =>
      have heq := h.finishAndReset_eq
      rw [if_pos ⟨hzero, hopen⟩] at heq
      rw [heq] at hb hfin hsub hret ⊢
      refine ⟨h.id_eq, fun hle => ?_, h.consistent, ?_, ?_, ?_, ?_, ?_⟩
      · rw [h.fresh hle]; rfl
      · rw [hsub, hret]; exact h.submitted
      · rw [hret]; exact h.credited
      · rw [hb]; rfl
      · rw [hb]; exact h.outstanding
      · rw [hb, hfin]
        simp only [hopen, if_true, Bool.false_eq_true, if_false] at hc ⊢
        omega
    | false =>
      have heq := h.finishAndReset_eq
      rw [if_neg (by rw [hopen]; simp)] at heq
      rw [heq] at hb hfin hsub hret ⊢
      refine ⟨h.id_eq, h.fresh, h.consistent, ?_, ?_, ?_, ?_, ?_⟩
      · rw [hsub, hret]; exact h.submitted
      · rw [hret]; exact h.credited
      · rw [hb, h.finished, hopen]
      · rw [hb]; exact h.outstanding
      · rw [hb, hfin]
        simp only [hopen, Bool.false_eq_true, if_false] at hc ⊢
        omega
  · rw [if_neg hzero] at hb
    have heq := h.finishAndReset_eq
    rw [if_neg (fun hand => hzero hand.1)] at heq
    rw [heq] at hb hfin hsub hret ⊢
    refine ⟨h.id_eq, h.fresh, h.consistent, ?_, ?_, ?_, ?_, ?_⟩
    · rw [hsub, hret]; exact h.submitted
    · rw [hret]; exact h.credited
    · rw [hb]; exact h.finished
    · rw [hb]; exact h.outstanding
    · rw [hb, hfin]; exact hc

end

section
variable {s : SharedReaders δ} (h : Accounted s)
include h

omit [MemorySystem δ] in
/-- A step on the reader `id` is enough to look at for `id`, if the others see no change. -/
theorem Accounted.update {id : Nat} {m : MultiMemoryInterface δ} {e : ReaderEvent} {r : MemoryReader}
    (he : e.about = id) (hself : Account m (s.log ++ [e]) id r)
    (hother : ∀ j, id ≠ j → m.idNum = s.memory.idNum ∧ MemoryPort.inflight m j = MemoryPort.inflight s.memory j ∧
      m.readyNum j = s.memory.readyNum j ∧
      MultiMemoryInterface.creditedNum m.log j = MultiMemoryInterface.creditedNum s.memory.log j) :
    Accounted ⟨m, Function.update s.reader id r, s.log ++ [e]⟩ := by
  intro j
  by_cases hj : id = j
  · subst hj
    show Account m (s.log ++ [e]) id (Function.update s.reader id r id)
    rw [Function.update_self]
    exact hself
  · obtain ⟨hnum, hflight, hready, hcred⟩ := hother j hj
    show Account m (s.log ++ [e]) j (Function.update s.reader id r j)
    rw [Function.update_of_ne (Ne.symm hj)]
    exact (h j).frame (by rw [he]; exact hj) hnum hflight hready hcred

theorem Accounted.create (coreId : Port) : Accounted (s.exec (.create coreId)) := by
  have hq : ∀ st, s.memory.readReadyQueues st s.memory.idNum = [] := by
    intro st
    have hc := (h s.memory.idNum).consistent
    rw [(h s.memory.idNum).fresh (Nat.le_refl _)] at hc
    have hz : s.memory.readyNum s.memory.idNum = 0 := by
      simp only [MemoryReader.Consistent, MemoryReader.new, MemoryPort.inflight, List.length_nil] at hc
      omega
    have := (Finset.sum_eq_zero_iff.mp hz) st (Finset.mem_univ st)
    exact List.eq_nil_of_length_eq_zero this
  have hready : (s.memory.registerId coreId).readReadyQueues = s.memory.readReadyQueues := by
    funext st
    show Function.update (s.memory.readReadyQueues st) s.memory.idNum [] = _
    rw [← hq st, Function.update_eq_self]
  intro id
  have ha := h id
  refine ⟨ha.id_eq, fun hid => ha.fresh (Nat.le_of_succ_le hid), ?_, ha.submitted, ?_, ha.finished, ha.outstanding,
    ha.closed⟩
  · have := ha.consistent
    simp only [MemoryReader.Consistent, MemoryPort.inflight, MultiMemoryInterface.readyNum, exec, hready] at this ⊢
    exact this
  · have := ha.credited
    simp only [MultiMemoryInterface.readyNum, exec, hready] at this ⊢
    exact this

theorem Accounted.memoryTick : Accounted (s.exec .memoryClockTick) := by
  have hnum := (MultiMemoryInterface.clockTick_frame s.memory).2.1
  intro id
  have ha := h id
  refine ⟨ha.id_eq, fun hid => ha.fresh (by simpa [exec, hnum] using hid), ?_, ha.submitted, ?_, ha.finished,
    ha.outstanding, ha.closed⟩
  · have := (MultiMemoryInterface.clockTick_counts s.memory (s.reader id).id).1
    have hc := ha.consistent
    simp only [MemoryReader.Consistent, exec, this] at hc ⊢
    exact hc
  · have h1 := (MultiMemoryInterface.clockTick_counts s.memory id).2
    have h2 := ha.credited
    simp only [exec]
    omega

theorem accounted_step {op : Op} (hc : s.Created op) : Accounted (s.exec op) := by
  cases op with
  | create coreId => exact Accounted.create h coreId
  | submitReadRequest id addr len stride =>
    apply Accounted.update h rfl ((h id).submit hc addr len stride)
    intro j _
    exact ⟨rfl, rfl, rfl, rfl⟩
  | clockTick id =>
    apply Accounted.update h rfl ((h id).tick hc)
    intro j hj
    have hne : (s.reader id).id ≠ j := by rw [(h id).id_eq]; exact hj
    obtain ⟨-, hready, hcred, hnum⟩ := clockTick_frame (s.reader id) s.memory j
    rw [if_neg hne] at hready
    exact ⟨hnum, MemoryReader.clockTick_inflight_other _ _ hne, hready, hcred⟩
  | finishAndReset id =>
    apply Accounted.update h rfl (h id).finish
    intro j _
    exact ⟨rfl, rfl, rfl, rfl⟩
  | memoryClockTick => exact Accounted.memoryTick h

end

theorem accounted {s : SharedReaders δ} (h : Reachable s) : Accounted s := by
  induction h with
  | new useMemorySwitch mem _ => exact accounted_new useMemorySwitch mem
  | step op _ hc ih => exact accounted_step ih hc

/-- Each reader's counter is its queue, its entries and its completions, so a
tick subtracts no more than it holds; the reader is ready when all it submitted
has come back to it, completions reach only the reader they were credited to,
and every burst of submissions is finished once. -/
theorem readers_accounted {s : SharedReaders δ} (h : Reachable s) (id : Nat) :
    (s.reader id).processingNum =
        (s.reader id).requestQueue.length + s.memory.taggedNum id + s.memory.readyNum id ∧
      (s.reader id).collected s.memory ≤ (s.reader id).processingNum ∧
      ((s.reader id).isReady = true ↔ submittedNum s.log id = returnedNum s.log id) ∧
      MultiMemoryInterface.creditedNum s.memory.log id = returnedNum s.log id + s.memory.readyNum id ∧
      ((s.reader id).finishAndReset.1 = true ↔
        (bursts s.log id).isOpen = true ∧ submittedNum s.log id = returnedNum s.log id) ∧
      finishNum s.log id + (if (bursts s.log id).isOpen then 1 else 0) = (bursts s.log id).num := by
  have ha := accounted h id
  have hsub := ha.submitted
  have hzero : (s.reader id).processingNum = 0 ↔ submittedNum s.log id = returnedNum s.log id := by omega
  refine ⟨?_, ha.consistent.collected_le, ?_, ha.credited, ?_, ha.closed⟩
  · have hc := ha.consistent
    unfold MemoryReader.Consistent at hc
    rw [ha.id_eq] at hc
    rw [hc, Nat.add_assoc]
    rfl
  · rw [← hzero]
    simp [MemoryReader.isReady]
  · rw [ha.finishAndReset_eq, ha.outstanding, ← hzero]
    by_cases hcase : (s.reader id).processingNum = 0 ∧ (bursts s.log id).isOpen = true
    · simp [hcase]
    · rw [if_neg hcase]
      constructor
      · intro e; cases e
      · intro e; exact absurd ⟨e.2, e.1⟩ hcase

-- two cores read the same line, and the first of them has got its read back

def sharedLine : List Op :=
  [.create 1, .create 0, .submitReadRequest 0 64 64 64, .submitReadRequest 1 64 64 64, .clockTick 0, .clockTick 1,
    .memoryClockTick, .memoryClockTick, .memoryClockTick, .clockTick 0, .clockTick 1]

theorem readers_accounted_shared :
    let s : SharedReaders IdealDram := sharedLine.foldl exec (new true fun _ => [])
    Reachable s ∧ (s.reader 0).isReady = true ∧ submittedNum s.log 0 = returnedNum s.log 0 ∧
      (s.reader 1).processingNum = 0 + s.memory.taggedNum 1 + s.memory.readyNum 1 := by
  intro s
  have h : Reachable s := reachable_foldl _ (.new true _ fun _ _ => rfl) (by decide +kernel)
  have hready : (s.reader 0).isReady = true := by decide +kernel
  refine ⟨h, hready, (readers_accounted h 0).2.2.1.mp hready, ?_⟩
  rw [(readers_accounted h 1).1]
  rfl

end SharedReaders

end Anna
