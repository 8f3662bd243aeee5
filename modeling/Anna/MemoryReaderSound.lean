import Anna.MemoryReader
import Anna.MultiMemorySound

/-!
# Readers that share the memory interface

The interface is a memory for every reader (`MemoryPort`): what an id has in
flight are its entries in `id_map` and its completions in the ready queues.
A tick of the interface moves reads between the two and loses none, so any
number of readers on one interface get back what each of them submitted.
-/

namespace Anna

namespace MultiMemoryInterface

variable {δ : Type}

def readyNum (s : MultiMemoryInterface δ) (id : Nat) : Nat := ∑ st, (s.readReadyQueues st id).length

def taggedNum (s : MultiMemoryInterface δ) (id : Nat) : Nat := ∑ st, (s.idMap st).tagged id

def creditedNum (log : List MemoryEvent) (id : Nat) : Nat :=
  log.countP fun
    | .credit id' _ _ _ => id' = id
    | _ => false

theorem sum_change {f g : Port → Nat} (st : Port) (k : Nat) (h : ∀ i, g i = f i + if i = st then k else 0) :
    ∑ i, g i = (∑ i, f i) + k := by
  simp only [h, Finset.sum_add_distrib, Finset.sum_ite_eq', Finset.mem_univ, if_true]

theorem taggedNum_insert (s : MultiMemoryInterface δ) (st : Port) (addr : UInt64) (id j : Nat) :
    ∑ i, (Function.update s.idMap st ((s.idMap st).insert addr id) i).tagged j =
      s.taggedNum j + if id = j then 1 else 0 := by
  apply sum_change st
  intro i
  by_cases hi : i = st
  · subst hi; simp [Multimap.tagged_insert]
  · simp [hi]

theorem requestRead_idMap (s : MultiMemoryInterface δ) (id : Nat) (x : UInt64) :
    (s.requestRead id x).idMap = Function.update s.idMap (stackOf x) ((s.idMap (stackOf x)).insert (addrIn x) id) ∧
      (s.requestRead id x).readReadyQueues = s.readReadyQueues := by
  by_cases hr : s.Remote id (stackOf x)
  · rw [requestRead_remote hr]; exact ⟨rfl, rfl⟩
  · rw [requestRead_local hr]; exact ⟨rfl, rfl⟩

theorem readyNum_getAll (s : MultiMemoryInterface δ) (id j : Nat) :
    (s.getAllReadyReadRequest id).2.readyNum j = if id = j then 0 else s.readyNum j := by
  unfold readyNum getAllReadyReadRequest
  by_cases hj : j = id
  · subst hj; simp
  · simp [Function.update_of_ne hj, Ne.symm hj]

instance : MemoryPort (MultiMemoryInterface δ) where
  requestRead := requestRead
  getAllReadyReadRequest := getAllReadyReadRequest
  inflight s id := s.taggedNum id + s.readyNum id
  inflight_requestRead s id x j := by
    obtain ⟨hmap, hready⟩ := requestRead_idMap s id x
    simp only [taggedNum, readyNum, hmap, hready]
    rw [taggedNum_insert]
    unfold taggedNum
    omega
  inflight_getAll s id j := by
    rw [readyNum_getAll]
    show s.taggedNum j + s.readyNum j = s.taggedNum j + _ + _
    by_cases hj : id = j
    · subst hj; simp only [if_true, Nat.add_zero]; rfl
    · simp [hj]

/-! ## Inside a tick -/

theorem creditedNum_append (log : List MemoryEvent) (e : MemoryEvent) (id : Nat) :
    creditedNum (log ++ [e]) id = creditedNum log id + creditedNum [e] id := by
  simp [creditedNum, List.countP_append]

theorem credit_counts {s : MultiMemoryInterface δ} {st : Port} {addr : UInt64} {id : Nat} (port : Option Port)
    (hf : (s.idMap st).find? addr = some id) (j : Nat) :
    (s.credit st addr id port).taggedNum j + (if id = j then 1 else 0) = s.taggedNum j ∧
      (s.credit st addr id port).readyNum j = s.readyNum j + (if id = j then 1 else 0) ∧
      creditedNum (s.credit st addr id port).log j = creditedNum s.log j + (if id = j then 1 else 0) := by
  refine ⟨?_, ?_, ?_⟩
  · apply Eq.symm
    apply sum_change st
    intro i
    by_cases hi : i = st
    · subst hi
      simp only [credit, Function.update_self, if_true]
      exact (Multimap.tagged_erase hf j).symm
    · simp [credit, hi]
  · apply sum_change st
    intro i
    by_cases hi : i = st
    · subst hi
      by_cases hj : j = id
      · subst hj; simp [credit, List.orderedInsert_length]
      · simp [credit, Function.update_of_ne hj, Ne.symm hj]
    · simp [credit, hi]
  · by_cases hj : id = j <;> simp [credit, record, creditedNum, hj]

/-- An atomic step of a tick keeps what every id has in flight; what it adds
to the ready queue of an id it has credited to that id. -/
theorem move_counts {s t : MultiMemoryInterface Bag} (move : Move s t) (id : Nat) :
    t.taggedNum id + t.readyNum id = s.taggedNum id + s.readyNum id ∧
      creditedNum t.log id + s.readyNum id = creditedNum s.log id + t.readyNum id := by
  have hcredit : ∀ {s : MultiMemoryInterface Bag} {st addr j port}, (s.idMap st).find? addr = some j →
      (s.credit st addr j port).taggedNum id + (s.credit st addr j port).readyNum id =
        s.taggedNum id + s.readyNum id ∧
      creditedNum (s.credit st addr j port).log id + s.readyNum id =
        creditedNum s.log id + (s.credit st addr j port).readyNum id := by
    intro s st addr j port hf
    obtain ⟨h1, h2, h3⟩ := credit_counts port hf id
    omega
  cases move with
  | tick => exact ⟨rfl, rfl⟩
  | lose => exact ⟨rfl, rfl⟩
  | accept => exact ⟨rfl, rfl⟩
  | @arrive core st addr req hrec hne =>
    refine ⟨rfl, ?_⟩
    simp only [arrive, record, creditedNum_append]
    rfl
  | @deliver core st addr res hrec =>
    rcases deliver_cases (s.withSwitch { s.memorySwitch with res := res }) core st addr with ⟨-, heq⟩ | ⟨j, hf, heq⟩
    · rw [heq]; exact ⟨rfl, rfl⟩
    · rw [heq]; exact hcredit hf
  | @answer st addr mem hmem =>
    rcases readCallback_cases (s.withMem mem) st addr with ⟨-, heq⟩ | ⟨j, hf, -, heq⟩ | ⟨j, -, -, heq⟩
    · rw [heq]; exact ⟨rfl, rfl⟩
    · rw [heq]; exact hcredit hf
    · rw [heq]; exact ⟨rfl, rfl⟩

theorem moves_counts {s t : MultiMemoryInterface Bag} (moves : Moves s t) (id : Nat) :
    t.taggedNum id + t.readyNum id = s.taggedNum id + s.readyNum id ∧
      creditedNum t.log id + s.readyNum id = creditedNum s.log id + t.readyNum id := by
  induction moves with
  | refl => exact ⟨rfl, rfl⟩
  | tail _ move ih =>
    have := move_counts move id
    omega

theorem clockTick_counts [MemorySystem δ] (s : MultiMemoryInterface δ) (id : Nat) :
    MemoryPort.inflight s.clockTick id = MemoryPort.inflight s id ∧
      creditedNum s.clockTick.log id + s.readyNum id = creditedNum s.log id + s.clockTick.readyNum id :=
  moves_counts (clockTick_abs s) id

theorem creditedNum_requestRead (s : MultiMemoryInterface δ) (id j : Nat) (x : UInt64) :
    creditedNum (s.requestRead id x).log j = creditedNum s.log j := by
  by_cases hr : s.Remote id (stackOf x)
  · rw [requestRead_remote hr]
    simp [record, creditedNum]
  · rw [requestRead_local hr]
    simp [record, creditedNum]

end MultiMemoryInterface

end Anna
