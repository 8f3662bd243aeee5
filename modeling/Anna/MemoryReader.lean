import Anna.MultiMemory

/-!
# Memory readers

A `MemoryReader` splits a request into 64-byte reads, passes at most 17 of
them a tick to the memory interface, and counts the completions that come
back. Of the interface it uses two functions, and relies on getting back only
reads that it has in flight: `MemoryPort` is what any memory behind a reader
provides, whatever its timing.
-/

namespace Anna

class MemoryPort (μ : Type) where
  requestRead : μ → Nat → UInt64 → μ
  getAllReadyReadRequest : μ → Nat → Nat × μ
  -- the reads requested by an id and not handed back to it
  inflight : μ → Nat → Nat
  inflight_requestRead : ∀ m id addr j, inflight (requestRead m id addr) j = inflight m j + if id = j then 1 else 0
  inflight_getAll : ∀ m id j, inflight m j =
    inflight (getAllReadyReadRequest m id).2 j + if id = j then (getAllReadyReadRequest m id).1 else 0

structure MemoryReader where
  id : Nat
  requestQueue : List UInt64
  processingNum : Nat
  finished : Bool
  deriving DecidableEq, Repr

namespace MemoryReader

def new (id : Nat) : MemoryReader := ⟨id, [], 0, true⟩

/-- The addresses of the loop `for (i = 0; i < len; i += stride)`. With a stride of 0,
or one with which `i` wraps around before it reaches `len`, the loop of the source
never ends; no caller passes such a pair, and the list here is finite. -/
def chunks (addr len stride : UInt64) : List UInt64 :=
  (List.range ((len.toNat + stride.toNat - 1) / stride.toNat)).map fun i => addr + UInt64.ofNat (i * stride.toNat)

def submitReadRequest (r : MemoryReader) (addr len : UInt64) (stride : UInt64 := 64) : MemoryReader :=
  { r with
    requestQueue := r.requestQueue ++ chunks addr len stride
    processingNum := r.processingNum + (chunks addr len stride).length
    finished := false }

def isReady (r : MemoryReader) : Bool := r.processingNum == 0

def finishAndReset (r : MemoryReader) : Bool × MemoryReader :=
  if r.processingNum == 0 && !r.finished then (true, { r with finished := true }) else (false, r)

section
variable {μ : Type} [MemoryPort μ]

/-- The requests of one tick: the loop breaks after the `budget`-th. -/
def issue (id : Nat) : Nat → List UInt64 → μ → List UInt64 × μ
  | 0, q, m => (q, m)
  | _ + 1, [], m => ([], m)
  | budget + 1, addr :: q, m => issue id budget q (MemoryPort.requestRead m id addr)

def collected (r : MemoryReader) (m : μ) : Nat :=
  (MemoryPort.getAllReadyReadRequest (issue r.id 17 r.requestQueue m).2 r.id).1

def clockTick (r : MemoryReader) (m : μ) : MemoryReader × μ :=
  let q := issue r.id 17 r.requestQueue m
  let res := MemoryPort.getAllReadyReadRequest q.2 r.id
  ({ r with requestQueue := q.1, processingNum := wsub r.processingNum res.1 }, res.2)

/-! ## What a tick does -/

theorem issue_inflight (id : Nat) : ∀ (budget : Nat) (q : List UInt64) (m : μ) (j : Nat),
    (if id = j then (issue id budget q m).1.length else 0) + MemoryPort.inflight (issue id budget q m).2 j =
      (if id = j then q.length else 0) + MemoryPort.inflight m j
  | 0, q, m, j => rfl
  | budget + 1, [], m, j => rfl
  | budget + 1, addr :: q, m, j => by
    simp only [issue]
    rw [issue_inflight id budget q, MemoryPort.inflight_requestRead]
    by_cases hj : id = j
    · simp only [hj, if_true, List.length_cons]; omega
    · simp [hj]

theorem issue_eq (id : Nat) : ∀ (budget : Nat) (q : List UInt64) (m : μ),
    issue id budget q m = (q.drop budget, (q.take budget).foldl (fun m addr => MemoryPort.requestRead m id addr) m)
  | 0, _, _ => rfl
  | _ + 1, [], _ => rfl
  | budget + 1, addr :: q, m => issue_eq id budget q (MemoryPort.requestRead m id addr)

theorem issue_all (id : Nat) {budget : Nat} {q : List UInt64} (m : μ) (h : q.length ≤ budget) :
    (issue id budget q m).1 = [] := by
  rw [issue_eq]
  exact List.drop_of_length_le h

/-- The reader's count is the reads it still has to issue and those in flight. -/
def Consistent (r : MemoryReader) (m : μ) : Prop :=
  r.processingNum = r.requestQueue.length + MemoryPort.inflight m r.id

theorem clockTick_inflight_self (r : MemoryReader) (m : μ) :
    (r.clockTick m).1.requestQueue.length + MemoryPort.inflight (r.clockTick m).2 r.id + r.collected m =
      r.requestQueue.length + MemoryPort.inflight m r.id := by
  have h1 := issue_inflight r.id 17 r.requestQueue m r.id
  have h2 := MemoryPort.inflight_getAll (issue r.id 17 r.requestQueue m).2 r.id r.id
  simp only [if_true] at h1 h2
  simp only [clockTick, collected]
  omega

theorem clockTick_inflight_other (r : MemoryReader) (m : μ) {j : Nat} (h : r.id ≠ j) :
    MemoryPort.inflight (r.clockTick m).2 j = MemoryPort.inflight m j := by
  have h1 := issue_inflight r.id 17 r.requestQueue m j
  have h2 := MemoryPort.inflight_getAll (issue r.id 17 r.requestQueue m).2 r.id j
  simp only [if_neg h] at h1 h2
  simp only [clockTick]
  omega

theorem Consistent.collected_le {r : MemoryReader} {m : μ} (h : r.Consistent m) :
    r.collected m ≤ r.processingNum := by
  have := clockTick_inflight_self r m
  unfold Consistent at h
  omega

theorem Consistent.processingNum_clockTick {r : MemoryReader} {m : μ} (h : r.Consistent m) :
    (r.clockTick m).1.processingNum + r.collected m = r.processingNum := by
  have hle := h.collected_le
  show wsub r.processingNum (r.collected m) + r.collected m = r.processingNum
  rw [wsub_of_le hle]
  omega

theorem Consistent.clockTick {r : MemoryReader} {m : μ} (h : r.Consistent m) :
    (r.clockTick m).1.Consistent (r.clockTick m).2 := by
  have h1 := clockTick_inflight_self r m
  have h2 := h.processingNum_clockTick
  unfold Consistent at h ⊢
  show (r.clockTick m).1.processingNum =
    (r.clockTick m).1.requestQueue.length + MemoryPort.inflight (r.clockTick m).2 r.id
  omega

theorem Consistent.submitReadRequest {r : MemoryReader} {m : μ} (h : r.Consistent m) (addr len stride : UInt64) :
    (r.submitReadRequest addr len stride).Consistent m := by
  unfold Consistent at h ⊢
  simp only [MemoryReader.submitReadRequest, List.length_append]
  omega

theorem Consistent.finishAndReset {r : MemoryReader} {m : μ} (h : r.Consistent m) :
    r.finishAndReset.2.Consistent m := by
  unfold MemoryReader.finishAndReset
  split
  · exact h
  · exact h

end

@[simp] theorem clockTick_id {μ : Type} [MemoryPort μ] (r : MemoryReader) (m : μ) : (r.clockTick m).1.id = r.id := rfl

@[simp] theorem finishAndReset_id (r : MemoryReader) : r.finishAndReset.2.id = r.id := by
  unfold finishAndReset
  split <;> rfl

theorem finishAndReset_queue (r : MemoryReader) : r.finishAndReset.2.requestQueue = r.requestQueue := by
  unfold finishAndReset
  split <;> rfl

theorem finishAndReset_num (r : MemoryReader) : r.finishAndReset.2.processingNum = r.processingNum := by
  unfold finishAndReset
  split <;> rfl

theorem submitAll_queue {α : Type} (read : α → UInt64 × UInt64) (cs : List α) (r : MemoryReader) :
    let r' := cs.foldl (fun r c => r.submitReadRequest (read c).1 (read c).2) r
    r'.requestQueue = r.requestQueue ++ cs.flatMap (fun c => chunks (read c).1 (read c).2 64) ∧
      r'.processingNum = r.processingNum + (cs.flatMap fun c => chunks (read c).1 (read c).2 64).length := by
  induction cs generalizing r with
  | nil => simp
  | cons c cs ih =>
    obtain ⟨hq, hn⟩ := ih (r.submitReadRequest (read c).1 (read c).2)
    refine ⟨?_, ?_⟩
    · rw [List.foldl_cons, hq]
      simp [submitReadRequest, List.flatMap_cons]
    · rw [List.foldl_cons, hn]
      simp [submitReadRequest, List.flatMap_cons, Nat.add_assoc]

/-! ## A reader whose flag is right -/

section
variable {μ : Type} [MemoryPort μ]

/-- The flag is set only while nothing is outstanding. -/
structure Sound (r : MemoryReader) (m : μ) : Prop where
  consistent : r.Consistent m
  settled : r.finished = true → r.processingNum = 0

theorem sound_new {m : μ} {id : Nat} (h : MemoryPort.inflight m id = 0) : (new id).Sound m :=
  ⟨h.symm.trans (Nat.zero_add _).symm, fun _ => rfl⟩

variable {r : MemoryReader} {m m' : μ}

theorem Sound.frame (h : r.Sound m) (hm : MemoryPort.inflight m' r.id = MemoryPort.inflight m r.id) : r.Sound m' := by
  refine ⟨?_, h.settled⟩
  have hc := h.consistent
  unfold Consistent at hc ⊢
  rw [hm]
  exact hc

theorem Sound.clockTick (h : r.Sound m) : (r.clockTick m).1.Sound (r.clockTick m).2 := by
  refine ⟨h.consistent.clockTick, ?_⟩
  intro hf
  have hz := h.settled hf
  have := h.consistent.processingNum_clockTick
  omega

theorem Sound.submitAll {α : Type} (h : r.Sound m) (read : α → UInt64 × UInt64) (cs : List α) :
    (cs.foldl (fun r c => r.submitReadRequest (read c).1 (read c).2) r).Sound m := by
  induction cs generalizing r with
  | nil => exact h
  | cons c cs ih =>
    apply ih
    refine ⟨h.consistent.submitReadRequest _ _ _, ?_⟩
    intro hf
    cases hf

theorem submitAll_id (read : Nat → UInt64 × UInt64) (cs : List Nat) (r : MemoryReader) :
    (cs.foldl (fun r c => r.submitReadRequest (read c).1 (read c).2) r).id = r.id := by
  induction cs generalizing r with
  | nil => rfl
  | cons c cs ih => exact ih _

theorem submitAll_finished (read : Nat → UInt64 × UInt64) {cs : List Nat} (hne : cs ≠ []) (r : MemoryReader) :
    (cs.foldl (fun r c => r.submitReadRequest (read c).1 (read c).2) r).finished = false := by
  induction cs generalizing r with
  | nil => exact absurd rfl hne
  | cons c cs ih =>
    cases cs with
    | nil => rfl
    | cons c' cs => exact ih (List.cons_ne_nil _ _) _

theorem Sound.finishAndReset (h : r.Sound m) : r.finishAndReset.2.Sound m := by
  refine ⟨h.consistent.finishAndReset, ?_⟩
  unfold MemoryReader.finishAndReset
  split
  · rename_i hz
    simp only [Bool.and_eq_true, beq_iff_eq] at hz
    exact fun _ => hz.1
  · exact h.settled

theorem finishAndReset_isReady (r : MemoryReader) : r.finishAndReset.2.isReady = r.isReady := by
  unfold MemoryReader.finishAndReset
  split <;> rfl

theorem Sound.finished_finishAndReset (h : r.Sound m) : r.finishAndReset.2.finished = r.isReady := by
  unfold MemoryReader.finishAndReset isReady
  cases hf : r.finished with
  | true => simp [h.settled hf, hf]
  | false => cases hz : r.processingNum == 0 <;> simp [hf]

end

end MemoryReader

end Anna
