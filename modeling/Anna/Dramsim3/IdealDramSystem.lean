import Anna.Dramsim3.Config

/-!
# The ideal DRAM system

`IdealDRAMSystem` accepts everything and answers it after a fixed time. Its
loop passes over the transaction behind each one that it answers, so only
every other one that is due is answered in a tick: a transaction waits longer
the more of them stand before it, by the logarithm of their number.
-/

namespace Anna

namespace Dramsim3

structure IdealDRAMSystem where
  clk : Nat
  infiniteBufferQ : List Transaction
  deriving DecidableEq, Repr

namespace IdealDRAMSystem

def new : IdealDRAMSystem := ⟨0, []⟩

def addTransaction (s : IdealDRAMSystem) (hexAddr : UInt64) (isWrite : Bool) : IdealDRAMSystem :=
  { s with infiniteBufferQ := s.infiniteBufferQ ++ [⟨hexAddr, s.clk, 0, isWrite⟩] }

/-- The loop over the buffer. Erasing a transaction moves the iterator to the
next one, and the increment at the end of the loop passes over that.
`latency` is `latency_` as a `uint64_t`. -/
def answer (latency : Nat) (clk : Nat) : List Transaction → List Transaction × List Transaction
  | [] => ([], [])
  | t :: rest =>
    if latency ≤ clk - t.addedCycle then
      match rest with
      | [] => ([t], [])
      | passed :: rest =>
        let r := answer latency clk rest
        (t :: r.1, passed :: r.2)
    else
      let r := answer latency clk rest
      (r.1, t :: r.2)

def clockTick (latency : Nat) (s : IdealDRAMSystem) : List Transaction × IdealDRAMSystem :=
  let r := answer latency s.clk s.infiniteBufferQ
  (r.1, ⟨s.clk + 1, r.2⟩)

/-! ## The loop -/

section
variable {latency clk : Nat}

theorem answer_single {t : Transaction} (h : latency ≤ clk - t.addedCycle) : answer latency clk [t] = ([t], []) :=
  if_pos h

theorem answer_pass {t : Transaction} (h : latency ≤ clk - t.addedCycle) (passed : Transaction) (rest : List Transaction) :
    answer latency clk (t :: passed :: rest) =
      (t :: (answer latency clk rest).1, passed :: (answer latency clk rest).2) := by
  rw [answer, if_pos h]

theorem answer_keep {t : Transaction} (h : ¬ latency ≤ clk - t.addedCycle) (rest : List Transaction) :
    answer latency clk (t :: rest) = ((answer latency clk rest).1, t :: (answer latency clk rest).2) := by
  rw [answer.eq_def]
  exact if_neg h

theorem answer_perm (l : List Transaction) : ((answer latency clk l).1 ++ (answer latency clk l).2).Perm l := by
  induction l using answer.induct latency clk with
  | case1 => exact .refl _
  | case2 t hdue =>
    rw [answer_single hdue]
    exact .refl _
  | case3 t hdue passed rest ih =>
    rw [answer_pass hdue]
    exact (List.perm_middle.trans (ih.cons _)).cons _
  | case4 t rest hdue ih =>
    rw [answer_keep hdue]
    exact List.perm_middle.trans (ih.cons _)

theorem answer_due (l : List Transaction) : ∀ t ∈ (answer latency clk l).1, latency ≤ clk - t.addedCycle := by
  induction l using answer.induct latency clk with
  | case1 => exact fun _ h => absurd h List.not_mem_nil
  | case2 t hdue =>
    rw [answer_single hdue]
    exact fun u hu => List.mem_singleton.mp hu ▸ hdue
  | case3 t hdue passed rest ih =>
    rw [answer_pass hdue]
    exact List.forall_mem_cons.mpr ⟨hdue, ih⟩
  | case4 t rest hdue ih =>
    rw [answer_keep hdue]
    exact ih

theorem answer_sublist (l : List Transaction) : (answer latency clk l).2.Sublist l := by
  induction l using answer.induct latency clk with
  | case1 => exact .refl _
  | case2 t hdue =>
    rw [answer_single hdue]
    exact List.nil_sublist _
  | case3 t hdue passed rest ih =>
    rw [answer_pass hdue]
    exact (ih.cons_cons passed).cons t
  | case4 t rest hdue ih =>
    rw [answer_keep hdue]
    exact ih.cons_cons t

/-- Of the transactions that are due every other one stays: if `t` stays, half of those before it do. -/
theorem answer_halves {t : Transaction} (ht : latency ≤ clk - t.addedCycle) (after : List Transaction) :
    ∀ before : List Transaction, (∀ x ∈ before, latency ≤ clk - x.addedCycle) →
      t ∈ (answer latency clk (before ++ t :: after)).1 ∨ 0 < before.length ∧ ∃ kept after',
        (answer latency clk (before ++ t :: after)).2 = kept ++ t :: after' ∧ kept.length = before.length / 2
  | [], _ => by
    left
    cases after with
    | nil => rw [List.nil_append, answer_single ht]; exact List.mem_cons_self
    | cons y after => rw [List.nil_append, answer_pass ht]; exact List.mem_cons_self
  | [x], hbefore => by
    right
    rw [List.singleton_append, answer_pass (hbefore x List.mem_cons_self)]
    exact ⟨Nat.one_pos, [], _, rfl, by simp⟩
  | x :: y :: before, hbefore => by
    have hrest : ∀ z ∈ before, latency ≤ clk - z.addedCycle :=
      fun z hz => hbefore z (List.mem_cons_of_mem _ (List.mem_cons_of_mem _ hz))
    rw [List.cons_append, List.cons_append, answer_pass (hbefore x List.mem_cons_self)]
    rcases answer_halves ht after before hrest with hanswered | ⟨-, kept, after', heq, hlen⟩
    · exact Or.inl (List.mem_cons_of_mem _ hanswered)
    · refine Or.inr ⟨Nat.zero_lt_succ _, y :: kept, after', congrArg (y :: ·) heq, ?_⟩
      simp only [List.length_cons]
      omega

end

/-! ## Runs -/

inductive Op
  | add (a : UInt64) (w : Bool)
  | tick
  deriving DecidableEq, Repr

structure Run where
  accepted : List Transaction
  answered : List (Nat × Transaction)
  system : IdealDRAMSystem
  deriving DecidableEq, Repr

def exec (latency : Nat) (r : Run) : Op → Run
  | .add a w => ⟨r.accepted ++ [⟨a, r.system.clk, 0, w⟩], r.answered, r.system.addTransaction a w⟩
  | .tick =>
    let t := r.system.clockTick latency
    ⟨r.accepted, r.answered ++ t.1.map fun u => (r.system.clk, u), t.2⟩

def run (latency : Nat) (ops : List Op) (r : Run) : Run := ops.foldl (exec latency) r

/-- What was accepted was answered or waits, no answer was early, and those that wait stand in the order in which they
came. -/
structure Kept (latency : Nat) (r : Run) : Prop where
  once : (r.answered.map Prod.snd ++ r.system.infiniteBufferQ).Perm r.accepted
  due : ∀ x ∈ r.answered, latency ≤ x.1 - x.2.addedCycle
  past : ∀ t ∈ r.system.infiniteBufferQ, t.addedCycle ≤ r.system.clk
  inOrder : r.system.infiniteBufferQ.Pairwise fun t u => t.addedCycle ≤ u.addedCycle

section
variable {latency : Nat} {r : Run} {ops : List Op}

theorem Kept.exec (h : Kept latency r) (op : Op) : Kept latency (exec latency r op) := by
  cases op with
  | add a w =>
    refine ⟨?_, h.due, ?_, ?_⟩
    · have happend := h.once.append_right [⟨a, r.system.clk, 0, w⟩]
      rw [List.append_assoc] at happend
      exact happend
    · intro t ht
      rcases List.mem_append.mp ht with ht | ht
      · exact h.past t ht
      · rw [List.mem_singleton.mp ht]
        exact Nat.le_refl _
    · refine List.pairwise_append.mpr ⟨h.inOrder, List.pairwise_singleton _ _, fun t ht u hu => ?_⟩
      rw [List.mem_singleton.mp hu]
      exact h.past t ht
  | tick =>
    have hperm := @answer_perm latency r.system.clk r.system.infiniteBufferQ
    have hsub := @answer_sublist latency r.system.clk r.system.infiniteBufferQ
    refine ⟨?_, ?_, fun t ht => Nat.le_succ_of_le (h.past t (hsub.subset ht)), h.inOrder.sublist hsub⟩
    · have hlist : (r.answered ++ (r.system.clockTick latency).1.map fun u => (r.system.clk, u)).map Prod.snd =
          r.answered.map Prod.snd ++ (answer latency r.system.clk r.system.infiniteBufferQ).1 := by
        rw [List.map_append, List.map_map]
        exact congrArg (_ ++ ·) (List.map_id _)
      show ((r.answered ++ _).map Prod.snd ++ (answer latency r.system.clk r.system.infiniteBufferQ).2).Perm r.accepted
      rw [hlist, List.append_assoc]
      exact (hperm.append_left _).trans h.once
    · intro x hx
      rcases List.mem_append.mp hx with hx | hx
      · exact h.due x hx
      · obtain ⟨t, ht, rfl⟩ := List.mem_map.mp hx
        exact answer_due _ t ht

theorem run_kept (latency : Nat) (ops : List Op) : Kept latency (run latency ops ⟨[], [], new⟩) := by
  have hall : ∀ r, Kept latency r → Kept latency (run latency ops r) := by
    induction ops with
    | nil => exact fun r h => h
    | cons op ops ih => exact fun r h => ih _ (h.exec op)
  exact hall _ ⟨.refl _, fun _ h => absurd h List.not_mem_nil, fun _ h => absurd h List.not_mem_nil, .nil⟩

theorem answered_subset (ops : List Op) (r : Run) : r.answered ⊆ (run latency ops r).answered := by
  induction ops generalizing r with
  | nil => exact List.Subset.refl _
  | cons op ops ih =>
    refine List.Subset.trans ?_ (ih (exec latency r op))
    cases op with
    | add a w => exact List.Subset.refl _
    | tick => exact List.subset_append_left _ _

theorem answered_of_kept {t : Transaction} {before after : List Transaction} {k : Nat} (h : Kept latency r)
    (hbuffer : r.system.infiniteBufferQ = before ++ t :: after) (ht : latency ≤ r.system.clk - t.addedCycle)
    (hbefore : before.length < 2 ^ k) (hticks : k + 1 ≤ ops.count .tick) :
    ∃ clk, (clk, t) ∈ (run latency ops r).answered := by
  induction ops generalizing r before after k with
  | nil =>
    rw [List.count_nil] at hticks
    omega
  | cons op ops ih =>
    cases op with
    | add a w =>
      have hadd : (exec latency r (.add a w)).system.infiniteBufferQ =
          before ++ t :: (after ++ [⟨a, r.system.clk, 0, w⟩]) := by
        show r.system.infiniteBufferQ ++ _ = _
        rw [hbuffer, List.append_assoc, List.cons_append]
      rw [List.count_cons_of_ne (fun h => by cases h)] at hticks
      exact ih (h.exec (.add a w)) hadd ht hbefore hticks
    | tick =>
      rw [List.count_cons_self] at hticks
      have hinOrder := h.inOrder
      rw [hbuffer] at hinOrder
      have hdue : ∀ x ∈ before, latency ≤ r.system.clk - x.addedCycle := by
        intro x hx
        have hle := (List.pairwise_append.mp hinOrder).2.2 x hx t List.mem_cons_self
        omega
      rcases answer_halves ht after before hdue with hanswered | ⟨hpos, kept, after', heq, hlen⟩
      · refine ⟨r.system.clk, answered_subset ops _ (List.mem_append_right _ (List.mem_map.mpr ⟨t, ?_, rfl⟩))⟩
        show t ∈ (answer latency r.system.clk r.system.infiniteBufferQ).1
        rw [hbuffer]
        exact hanswered
      · cases k with
        | zero =>
          rw [Nat.pow_zero] at hbefore
          omega
        | succ k =>
          have hkept : (exec latency r .tick).system.infiniteBufferQ = kept ++ t :: after' := by
            show (answer latency r.system.clk r.system.infiniteBufferQ).2 = _
            rw [hbuffer]
            exact heq
          have hlater : latency ≤ (exec latency r .tick).system.clk - t.addedCycle := by
            show latency ≤ r.system.clk + 1 - t.addedCycle
            omega
          rw [Nat.pow_succ] at hbefore
          exact ih (h.exec .tick) hkept hlater (k := k) (by omega) (by omega)

/-- In every run a transaction that is due and has fewer than `2 ^ k` others before it is answered within `k + 1` ticks,
whatever is added meanwhile. -/
theorem answered_in_time (latency : Nat) (ops more : List Op) {t : Transaction} {before after : List Transaction}
    {k : Nat} (hbuffer : (run latency ops ⟨[], [], new⟩).system.infiniteBufferQ = before ++ t :: after)
    (ht : latency ≤ (run latency ops ⟨[], [], new⟩).system.clk - t.addedCycle) (hbefore : before.length < 2 ^ k)
    (hticks : k + 1 ≤ more.count .tick) : ∃ clk, (clk, t) ∈ (run latency (ops ++ more) ⟨[], [], new⟩).answered := by
  obtain ⟨clk, hclk⟩ := answered_of_kept (run_kept latency ops) hbuffer ht hbefore hticks
  refine ⟨clk, ?_⟩
  rw [run, List.foldl_append]
  exact hclk

end

-- three transactions of one cycle: the second is passed over, and answered a tick later
example : (run 2 [.add 0 false, .add 64 false, .add 128 true, .tick, .tick, .tick, .tick] ⟨[], [], new⟩).answered =
    [(2, ⟨0, 0, 0, false⟩), (2, ⟨128, 0, 0, true⟩), (3, ⟨64, 0, 0, false⟩)] := by decide

end IdealDRAMSystem

end Dramsim3

end Anna
