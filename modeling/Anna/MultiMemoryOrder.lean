import Anna.MultiMemorySound
import Mathlib.Algebra.Order.BigOperators.Group.Finset

/-!
# Which reader an answer is credited to

The log of a run says who asked for an address, whose requests have reached
the stack and who was credited. Entries of one address leave `id_map` in the
order of the requests (`Ordered.fifo`), but requests of different cores can
overtake each other in the switch, and the port a response takes is chosen
before the entry it is credited to. So a reader can be credited before its own
request has arrived, and a response can leave at the port of one core and be
credited to a reader of another. Two conditions on the calls of `RequestRead`
rule this out: `NoOvertaking` and `OneRemoteCore`.
-/

namespace Anna

/-! ## Reading the log -/

namespace MemoryEvent

def requester (st : Port) (a : UInt64) : MemoryEvent → Option Nat
  | .reqIn id st' a' _ => if st' = st ∧ a' = a then some id else none
  | _ => none

def credited (st : Port) (a : UInt64) : MemoryEvent → Option Nat
  | .credit id st' a' _ => if st' = st ∧ a' = a then some id else none
  | _ => none

def entering (core st : Port) : MemoryEvent → Option (UInt64 × Nat)
  | .reqIn id st' a (some core') => if core' = core ∧ st' = st then some (a, id) else none
  | _ => none

def leaves (core st : Port) : MemoryEvent → Bool
  | .reqOut core' st' _ => core' = core ∧ st' = st
  | _ => false

def isDirect (id : Nat) (st : Port) (a : UInt64) : MemoryEvent → Bool
  | .reqIn id' st' a' none => id' = id ∧ st' = st ∧ a' = a
  | _ => false

end MemoryEvent

section
variable (log : List MemoryEvent)

def requests (st : Port) (a : UInt64) : List Nat := log.filterMap (MemoryEvent.requester st a)

def credits (st : Port) (a : UInt64) : List Nat := log.filterMap (MemoryEvent.credited st a)

def entered (core st : Port) : List (UInt64 × Nat) := log.filterMap (MemoryEvent.entering core st)

def leftNum (core st : Port) : Nat := log.countP (MemoryEvent.leaves core st)

def directNum (id : Nat) (st : Port) (a : UInt64) : Nat := log.countP (MemoryEvent.isDirect id st a)

def crossing (core st : Port) : List (UInt64 × Nat) := (entered log core st).drop (leftNum log core st)

/-- How many requests of `id` for `a` have arrived in the queue of `st`: those
put there directly, and those among the first `leftNum` of a core. -/
def arrivedNum (id : Nat) (st : Port) (a : UInt64) : Nat :=
  directNum log id st a + ∑ core, ((entered log core st).take (leftNum log core st)).count (a, id)

end

theorem filterMap_cons_toList {α β : Type} (f : α → Option β) (e : α) (l : List α) :
    List.filterMap f (e :: l) = (f e).toList ++ List.filterMap f l := by
  cases h : f e <;> simp [h]

theorem count_requester (e : MemoryEvent) (id : Nat) (st : Port) (a : UInt64) :
    (e.requester st a).toList.count id =
      (if e.isDirect id st a then 1 else 0) + ∑ core, (e.entering core st).toList.count (a, id) := by
  cases e with
  | reqIn id' st' a' port =>
    cases port with
    | none =>
      by_cases hs : st' = st ∧ a' = a
      · by_cases hid : id' = id <;> simp [MemoryEvent.requester, MemoryEvent.isDirect, MemoryEvent.entering, hs, hid]
      · simp [MemoryEvent.requester, MemoryEvent.isDirect, MemoryEvent.entering, hs]
    | some core =>
      have hone : ∀ c, ((MemoryEvent.reqIn id' st' a' (some core)).entering c st).toList.count (a, id) =
          if c = core then (if (st' = st ∧ a' = a) ∧ id' = id then 1 else 0) else 0 := by
        intro c
        by_cases hc : c = core
        · subst hc
          by_cases hs : st' = st <;> simp [MemoryEvent.entering, hs, List.count_cons]
        · simp [MemoryEvent.entering, Ne.symm hc, hc]
      simp only [hone, Finset.sum_ite_eq', Finset.mem_univ, if_true]
      by_cases hs : st' = st ∧ a' = a
      · by_cases hid : id' = id <;> simp [MemoryEvent.requester, MemoryEvent.isDirect, hs, hid]
      · simp [MemoryEvent.requester, MemoryEvent.isDirect, hs]
  | reqOut core st' a' => simp [MemoryEvent.requester, MemoryEvent.isDirect, MemoryEvent.entering]
  | credit id' st' a' port => simp [MemoryEvent.requester, MemoryEvent.isDirect, MemoryEvent.entering]

theorem count_requests (log : List MemoryEvent) (id : Nat) (st : Port) (a : UInt64) :
    (requests log st a).count id = directNum log id st a + ∑ core, (entered log core st).count (a, id) := by
  unfold requests directNum entered
  induction log with
  | nil => simp
  | cons e log ih =>
    simp only [filterMap_cons_toList, List.count_append, List.countP_cons, Finset.sum_add_distrib, ih,
      count_requester]
    omega

theorem arrivedNum_add (log : List MemoryEvent) (id : Nat) (st : Port) (a : UInt64) :
    arrivedNum log id st a + ∑ core, (crossing log core st).count (a, id) = (requests log st a).count id := by
  have hsplit : ∀ core, (entered log core st).count (a, id) =
      ((entered log core st).take (leftNum log core st)).count (a, id) + (crossing log core st).count (a, id) := by
    intro core
    rw [crossing, ← List.count_append, List.take_append_drop]
  rw [count_requests, arrivedNum]
  simp only [hsplit, Finset.sum_add_distrib]
  omega

/-! ## Extending the log -/

section
variable (log : List MemoryEvent) (e : MemoryEvent)

theorem requests_append (st : Port) (a : UInt64) :
    requests (log ++ [e]) st a = requests log st a ++ (e.requester st a).toList := by
  simp [requests, filterMap_cons_toList]

theorem credits_append (st : Port) (a : UInt64) :
    credits (log ++ [e]) st a = credits log st a ++ (e.credited st a).toList := by
  simp [credits, filterMap_cons_toList]

theorem entered_append (core st : Port) :
    entered (log ++ [e]) core st = entered log core st ++ (e.entering core st).toList := by
  simp [entered, filterMap_cons_toList]

theorem leftNum_append (core st : Port) :
    leftNum (log ++ [e]) core st = leftNum log core st + if e.leaves core st then 1 else 0 := by
  simp [leftNum, List.countP_append, List.countP_cons]

end

theorem crossing_append_in (log : List MemoryEvent) (id : Nat) (core st c i : Port) (a : UInt64)
    (hle : leftNum log c i ≤ (entered log c i).length) :
    crossing (log ++ [.reqIn id st a (some core)]) c i =
      crossing log c i ++ if core = c ∧ st = i then [(a, id)] else [] := by
  rw [crossing, entered_append, leftNum_append]
  by_cases h : core = c ∧ st = i <;>
    simp [MemoryEvent.entering, MemoryEvent.leaves, h, crossing, List.drop_append_of_le_length hle]

theorem crossing_append_out (log : List MemoryEvent) (core st c i : Port) (a : UInt64) :
    crossing (log ++ [.reqOut core st a]) c i =
      if core = c ∧ st = i then (crossing log c i).tail else crossing log c i := by
  rw [crossing, entered_append, leftNum_append]
  by_cases h : core = c ∧ st = i <;> simp [MemoryEvent.entering, MemoryEvent.leaves, h, crossing, List.tail_drop]

theorem crossing_append_direct (log : List MemoryEvent) (id : Nat) (st c i : Port) (a : UInt64) :
    crossing (log ++ [.reqIn id st a none]) c i = crossing log c i := by
  simp [crossing, entered_append, leftNum_append, MemoryEvent.entering, MemoryEvent.leaves]

theorem crossing_append_credit (log : List MemoryEvent) (id : Nat) (st c i : Port) (a : UInt64) (port : Option Port) :
    crossing (log ++ [.credit id st a port]) c i = crossing log c i := by
  simp [crossing, entered_append, leftNum_append, MemoryEvent.entering, MemoryEvent.leaves]

/-! ## Entries leave in the order of the requests -/

namespace MultiMemoryInterface

structure Ordered (s : MultiMemoryInterface Bag) : Prop where
  fifo : ∀ st a, requests s.log st a = credits s.log st a ++ (s.idMap st).vals a
  transit : ∀ core st, s.memorySwitch.req.transit core st = (crossing s.log core st).map Prod.fst
  left_le : ∀ core st, leftNum s.log core st ≤ (entered s.log core st).length
  self : ∀ st, s.memorySwitch.req.transit st st = []

theorem ordered_new (useMemorySwitch : Bool) : Ordered (new useMemorySwitch fun _ _ => 0) where
  fifo st a := by simp [new, requests, credits]
  transit core st := by simp [new, MemorySwitch.empty, crossing, entered]
  left_le core st := by simp [new, leftNum, entered]
  self st := by simp [new, MemorySwitch.empty]

theorem Ordered.insert_fifo {s : MultiMemoryInterface Bag} (h : Ordered s) (id : Nat) (st i : Port) (addr a : UInt64)
    (port : Option Port) :
    requests (s.log ++ [.reqIn id st addr port]) i a = credits (s.log ++ [.reqIn id st addr port]) i a ++
      (Function.update s.idMap st ((s.idMap st).insert addr id) i).vals a := by
  rw [requests_append, credits_append, h.fifo]
  by_cases hi : i = st
  · subst hi
    by_cases ha : addr = a <;>
      simp [MemoryEvent.requester, MemoryEvent.credited, Multimap.vals_insert, ha]
  · simp [MemoryEvent.requester, MemoryEvent.credited, Function.update_of_ne hi, Ne.symm hi]

theorem Ordered.credit {s : MultiMemoryInterface Bag} (h : Ordered s) {st : Port} {addr : UInt64} {id : Nat}
    (hf : (s.idMap st).find? addr = some id) (port : Option Port) : Ordered (s.credit st addr id port) := by
  refine ⟨fun i a => ?_, fun core i => ?_, fun core i => ?_, h.self⟩
  · simp only [MultiMemoryInterface.credit, record]
    rw [requests_append, credits_append, h.fifo]
    by_cases hi : i = st
    · subst hi
      rw [Function.update_self, Multimap.vals_erase]
      by_cases ha : addr = a
      · subst ha
        rw [Multimap.find?_eq_head] at hf
        cases hv : (s.idMap i).vals addr with
        | nil => rw [hv] at hf; cases hf
        | cons j l =>
          rw [hv, List.head?_cons, Option.some.injEq] at hf
          subst hf
          simp [MemoryEvent.requester, MemoryEvent.credited]
      · simp [MemoryEvent.requester, MemoryEvent.credited, ha]
    · simp [MemoryEvent.requester, MemoryEvent.credited, Function.update_of_ne hi, Ne.symm hi]
  · simp only [MultiMemoryInterface.credit, record, crossing_append_credit]
    exact h.transit core i
  · have := h.left_le core i
    simpa [MultiMemoryInterface.credit, record, leftNum_append, entered_append, MemoryEvent.leaves,
      MemoryEvent.entering] using this

theorem ordered_move {s t : MultiMemoryInterface Bag} (hb : Balanced s) (h : Ordered s) (move : Move s t) :
    Ordered t := by
  cases move with
  | tick =>
    refine ⟨h.fifo, fun core st => ?_, h.left_le, fun st => ?_⟩
    · simp only [withSwitch, MemorySwitch.clockTick, Crossbar.transit_tick]; exact h.transit core st
    · simp only [withSwitch, MemorySwitch.clockTick, Crossbar.transit_tick]; exact h.self st
  | @arrive core st addr req hrec hne =>
    obtain ⟨hfront, hrest, -⟩ := Crossbar.receive_some hrec
    refine ⟨fun i a => ?_, fun c i => ?_, fun c i => ?_, fun i => ?_⟩
    · have := h.fifo i a
      simpa [arrive, record, enqueue, withSwitch, requests_append, credits_append, MemoryEvent.requester,
        MemoryEvent.credited] using this
    · simp only [arrive, record, enqueue, withSwitch, crossing_append_out]
      by_cases hci : core = c ∧ st = i
      · obtain ⟨rfl, rfl⟩ := hci
        rw [if_pos ⟨rfl, rfl⟩, List.map_tail, ← h.transit, hfront, List.tail_cons]
      · rw [if_neg hci, hrest c i fun e => hci ⟨e.1.symm, e.2.symm⟩, h.transit]
    · simp only [arrive, record, enqueue, withSwitch, leftNum_append, entered_append, List.length_append]
      by_cases hci : core = c ∧ st = i
      · obtain ⟨rfl, rfl⟩ := hci
        -- the queue is not empty, so one more may leave
        have hlen : (crossing s.log core st).length ≠ 0 := by
          have := congrArg List.length (h.transit core st)
          rw [hfront] at this
          simp at this; omega
        rw [crossing, List.length_drop] at hlen
        simp [MemoryEvent.leaves, MemoryEvent.entering]; omega
      · have := h.left_le c i
        simp [MemoryEvent.leaves, hci]; omega
    · have := h.self i
      by_cases hci : i = core ∧ i = st
      · obtain ⟨rfl, rfl⟩ := hci
        rw [hfront] at this; cases this
      · simp only [arrive, record, enqueue, withSwitch]
        rw [hrest i i hci]; exact this
  | @lose core st addr req hrec hne =>
    have hfront := (Crossbar.receive_some hrec).1
    exact absurd hne (hb.addr_ne core st addr (by rw [hfront]; exact List.mem_cons_self))
  | @deliver core st addr res hrec =>
    have h' : Ordered (s.withSwitch { s.memorySwitch with res := res }) := ⟨h.fifo, h.transit, h.left_le, h.self⟩
    rcases deliver_cases (s.withSwitch { s.memorySwitch with res := res }) core st addr with ⟨-, heq⟩ | ⟨id, hf, heq⟩
    · rw [heq]; exact ⟨h.fifo, h.transit, h.left_le, h.self⟩
    · rw [heq]; exact h'.credit hf _
  | @answer st addr mem hmem =>
    have h' : Ordered (s.withMem mem) := ⟨h.fifo, h.transit, h.left_le, h.self⟩
    rcases readCallback_cases (s.withMem mem) st addr with ⟨-, heq⟩ | ⟨id, hf, -, heq⟩ | ⟨id, -, -, heq⟩
    · rw [heq]; exact ⟨h.fifo, h.transit, h.left_le, h.self⟩
    · rw [heq]; exact h'.credit hf _
    · rw [heq]; exact ⟨h.fifo, h.transit, h.left_le, h.self⟩
  | accept => exact ⟨h.fifo, h.transit, h.left_le, h.self⟩

theorem ordered_step {ok : MultiMemoryInterface Bag → Nat → UInt64 → Prop} {s t : MultiMemoryInterface Bag}
    (hb : Balanced s) (h : Ordered s) (step : Atom ok s t) : Ordered t := by
  cases step with
  | registerId coreId => exact ⟨h.fifo, h.transit, h.left_le, h.self⟩
  | collect => exact ⟨h.fifo, h.transit, h.left_le, h.self⟩
  | @requestRead id x hid hok =>
    by_cases hr : s.Remote id (stackOf x)
    · rw [requestRead_remote hr]
      refine ⟨fun i a => h.insert_fifo .., fun core i => ?_, fun core i => ?_, fun i => ?_⟩
      · simp only [record, MemorySwitch.sendReq, Crossbar.transit_send, h.transit]
        rw [crossing_append_in _ _ _ _ _ _ _ (h.left_le core i), List.map_append]
        split <;> rfl
      · have := h.left_le core i
        simp only [record, leftNum_append, entered_append, MemoryEvent.leaves, List.length_append]
        simp only [Bool.false_eq_true, if_false]
        omega
      · have hne : ¬ (s.id2core id = i ∧ stackOf x = i) := fun e => hr.2 (e.1.trans e.2.symm)
        simp only [MemorySwitch.sendReq, Crossbar.transit_send, h.self, hne, if_false, List.append_nil]
    · rw [requestRead_local hr]
      refine ⟨fun i a => h.insert_fifo .., fun core i => ?_, fun core i => ?_, h.self⟩
      · simp only [record, crossing_append_direct]; exact h.transit core i
      · have := h.left_le core i
        simpa [record, leftNum_append, entered_append, MemoryEvent.leaves, MemoryEvent.entering] using this
  | move hm => exact ordered_move hb h hm

theorem useMemorySwitch_step {ok : MultiMemoryInterface Bag → Nat → UInt64 → Prop} {s t : MultiMemoryInterface Bag}
    (step : Atom ok s t) : t.useMemorySwitch = s.useMemorySwitch := by
  cases step with
  | registerId coreId => rfl
  | collect => rfl
  | requestRead => exact (requestRead_frame ..).1
  | move hm => exact (move_frame hm).1

theorem atoms_invariants {useMemorySwitch : Bool} {ok : MultiMemoryInterface Bag → Nat → UInt64 → Prop}
    {s : MultiMemoryInterface Bag} (h : AtomReach useMemorySwitch ok s) :
    Balanced s ∧ Ordered s ∧ s.useMemorySwitch = useMemorySwitch := by
  induction h with
  | refl => exact ⟨balanced_new useMemorySwitch, ordered_new useMemorySwitch, rfl⟩
  | tail _ step ih =>
    exact ⟨balanced_step ih.1 step, ordered_step ih.1 ih.2.1 step, (useMemorySwitch_step step).trans ih.2.2⟩

/-! ## Completions and arrivals -/

/-- No reader is credited with more reads of an address than have arrived for it. -/
def ArrivedFirst {δ : Type} (s : MultiMemoryInterface δ) : Prop :=
  ∀ id st a, (credits s.log st a).count id ≤ arrivedNum s.log id st a

/-- `RequestRead` is not called while the request of another core for the same
stack and address is still crossing the switch. -/
def NoOvertaking {δ : Type} (s : MultiMemoryInterface δ) : Op → Prop
  | .requestRead id x => ∀ core, core ≠ s.id2core id → addrIn x ∉ s.memorySwitch.req.transit core (stackOf x)
  | _ => True

instance {δ : Type} (s : MultiMemoryInterface δ) : (op : Op) → Decidable (NoOvertaking s op)
  | .requestRead id x => inferInstanceAs (Decidable (∀ core, core ≠ s.id2core id →
      addrIn x ∉ s.memorySwitch.req.transit core (stackOf x)))
  | .registerId _ => inferInstanceAs (Decidable True)
  | .getAllReadyReadRequest _ => inferInstanceAs (Decidable True)
  | .clockTick => inferInstanceAs (Decidable True)

/-- The requests for an address arrive in the order they were made: those that
are still crossing come from one core and are the last ones. -/
def InOrder (s : MultiMemoryInterface Bag) : Prop :=
  ∀ st a, ∃ core P, (∀ c, c ≠ core → a ∉ (crossing s.log c st).map Prod.fst) ∧
    requests s.log st a = P ++ Multimap.vals (crossing s.log core st) a

theorem vals_eq_nil {l : List (UInt64 × Nat)} {a : UInt64} (h : a ∉ l.map Prod.fst) : Multimap.vals l a = [] := by
  unfold Multimap.vals
  rw [List.map_eq_nil_iff, List.filter_eq_nil_iff]
  intro e he hea
  exact h (List.mem_map.mpr ⟨e, he, by simpa using hea⟩)

theorem InOrder.credit {s : MultiMemoryInterface Bag} (h : InOrder s) (st : Port) (addr : UInt64) (id : Nat)
    (port : Option Port) : InOrder (s.credit st addr id port) := by
  intro i a
  obtain ⟨core, P, hc, hR⟩ := h i a
  refine ⟨core, P, fun c hne => ?_, ?_⟩
  · simp only [MultiMemoryInterface.credit, record, crossing_append_credit]; exact hc c hne
  · simpa [MultiMemoryInterface.credit, record, crossing_append_credit, requests_append, MemoryEvent.requester] using hR

section
variable {s : MultiMemoryInterface Bag} (ho : Ordered s) (h : InOrder s)
include ho h

theorem InOrder.send {id : Nat} {x : UInt64} (hr : s.Remote id (stackOf x))
    (hok : ∀ core, core ≠ s.id2core id → addrIn x ∉ (crossing s.log core (stackOf x)).map Prod.fst) :
    InOrder (s.requestRead id x) := by
  intro i a
  obtain ⟨core, P, hc, hR⟩ := h i a
  rw [requestRead_remote hr]
  simp only [record, requests_append, MemoryEvent.requester,
    fun c i => crossing_append_in s.log id (s.id2core id) (stackOf x) c i (addrIn x) (ho.left_le c i)]
  have hv : ∀ c j, Multimap.vals (crossing s.log c j ++ [(addrIn x, id)]) a =
      Multimap.vals (crossing s.log c j) a ++ if addrIn x = a then [id] else [] :=
    fun c j => Multimap.vals_insert (crossing s.log c j) (addrIn x) a id
  by_cases hia : stackOf x = i ∧ addrIn x = a
  · -- the new request is the last one, and only its own core has others on the way
    obtain ⟨rfl, rfl⟩ := hia
    by_cases hcore : core = s.id2core id
    · subst hcore
      refine ⟨s.id2core id, P, fun c hne => ?_, by simp [hR, hv]⟩
      simpa [Ne.symm hne] using hc c hne
    · have h0 := vals_eq_nil (hok core hcore)
      have h1 := vals_eq_nil (hc (s.id2core id) (Ne.symm hcore))
      refine ⟨s.id2core id, P, fun c hne => ?_, by simp [hR, hv, h0, h1]⟩
      simpa [Ne.symm hne] using hok c hne
  · refine ⟨core, P, fun c hne hm => ?_, ?_⟩
    · rw [List.map_append, List.mem_append] at hm
      rcases hm with hm | hm
      · exact hc c hne hm
      · split at hm
        · rename_i hs
          have : a = addrIn x := by simpa using hm
          exact hia ⟨hs.2, this.symm⟩
        · cases hm
    · rw [if_neg hia, hR]
      split
      · rename_i hs
        rw [hv, if_neg fun e => hia ⟨hs.2, e⟩]; simp
      · simp

theorem InOrder.queue {id : Nat} {x : UInt64} (hr : ¬ s.Remote id (stackOf x)) (hw : s.useMemorySwitch = true)
    (hok : ∀ core, core ≠ s.id2core id → addrIn x ∉ (crossing s.log core (stackOf x)).map Prod.fst) :
    InOrder (s.requestRead id x) := by
  have hcore : s.id2core id = stackOf x := Classical.byContradiction fun hc => hr ⟨hw, hc⟩
  intro i a
  obtain ⟨core, P, hc, hR⟩ := h i a
  rw [requestRead_local hr]
  simp only [record, requests_append, MemoryEvent.requester, crossing_append_direct]
  by_cases hia : stackOf x = i ∧ addrIn x = a
  · -- nothing for this address is crossing: a core sends none to its own stack
    obtain ⟨rfl, rfl⟩ := hia
    have hnone : ∀ c, addrIn x ∉ (crossing s.log c (stackOf x)).map Prod.fst := by
      intro c
      by_cases hcs : c = stackOf x
      · subst hcs; rw [← ho.transit, ho.self]; exact List.not_mem_nil
      · exact hok c (hcore ▸ hcs)
    refine ⟨core, requests s.log (stackOf x) (addrIn x) ++ [id], fun c _ => hnone c, ?_⟩
    rw [vals_eq_nil (hnone core)]; simp
  · refine ⟨core, P, hc, ?_⟩
    rw [if_neg hia, hR]; simp

theorem InOrder.arrive {core st : Port} {addr : UInt64} {req : Crossbar 8 UInt64}
    (hrec : s.memorySwitch.req.receive st = (some (core, addr), req)) :
    InOrder ((s.withSwitch { s.memorySwitch with req := req }).arrive core st addr) := by
  have hfront := (Crossbar.receive_some hrec).1
  rw [ho.transit] at hfront
  intro i a
  obtain ⟨c₀, P, hc, hR⟩ := h i a
  simp only [MultiMemoryInterface.arrive, record, enqueue, withSwitch, requests_append, MemoryEvent.requester,
    crossing_append_out]
  cases hx : crossing s.log core st with
  | nil => rw [hx] at hfront; cases hfront
  | cons e l =>
    obtain ⟨a', id⟩ := e
    rw [hx, List.map_cons] at hfront
    obtain rfl : a' = addr := (List.cons.inj hfront).1
    by_cases hia : st = i ∧ a' = a
    · obtain ⟨rfl, rfl⟩ := hia
      have hc₀ : core = c₀ := Classical.byContradiction fun hne => hc core hne (by rw [hx]; simp)
      subst hc₀
      refine ⟨core, P ++ [id], fun c hne => ?_, ?_⟩
      · rw [if_neg fun e => hne e.1.symm]; exact hc c hne
      · rw [hR, hx]; simp [Multimap.vals_cons]
    · refine ⟨c₀, P, fun c hne => ?_, ?_⟩
      · split
        · intro hm; exact hc c hne (by rw [List.map_tail] at hm; exact List.mem_of_mem_tail hm)
        · exact hc c hne
      · rw [hR]
        split
        · rename_i hs
          obtain ⟨rfl, rfl⟩ := hs
          rw [hx, Multimap.vals_cons, if_neg fun e => hia ⟨rfl, e⟩]; simp
        · simp

end

theorem inOrder_move {s t : MultiMemoryInterface Bag} (hb : Balanced s) (ho : Ordered s) (h : InOrder s)
    (move : Move s t) : InOrder t := by
  cases move with
  | tick => exact h
  | accept => exact h
  | arrive hrec _ => exact h.arrive ho hrec
  | @lose core st addr req hrec hne =>
    have hfront := (Crossbar.receive_some hrec).1
    exact absurd hne (hb.addr_ne core st addr (by rw [hfront]; exact List.mem_cons_self))
  | @deliver core st addr res hrec =>
    rcases deliver_cases (s.withSwitch { s.memorySwitch with res := res }) core st addr with ⟨-, heq⟩ | ⟨id, -, heq⟩
    · rw [heq]; exact h
    · rw [heq]; exact InOrder.credit (s := s.withSwitch { s.memorySwitch with res := res }) h st addr id (some core)
  | @answer st addr mem hmem =>
    rcases readCallback_cases (s.withMem mem) st addr with ⟨-, heq⟩ | ⟨id, -, -, heq⟩ | ⟨id, -, -, heq⟩
    · rw [heq]; exact h
    · rw [heq]; exact InOrder.credit (s := s.withMem mem) h st addr id none
    · rw [heq]; exact h

theorem inOrder_step {s t : MultiMemoryInterface Bag} (hb : Balanced s) (ho : Ordered s)
    (hw : s.useMemorySwitch = true) (h : InOrder s)
    (step : Atom (fun s id x => NoOvertaking s (.requestRead id x)) s t) : InOrder t := by
  cases step with
  | registerId coreId => exact h
  | collect => exact h
  | move hm => exact inOrder_move hb ho h hm
  | @requestRead id x hid hok =>
    have hok : ∀ core, core ≠ s.id2core id → addrIn x ∉ (crossing s.log core (stackOf x)).map Prod.fst := by
      intro core hne; rw [← ho.transit]; exact hok core hne
    by_cases hr : s.Remote id (stackOf x)
    · exact h.send ho hr hok
    · exact h.queue ho hr hw hok

theorem inOrder_atoms {s : MultiMemoryInterface Bag}
    (h : AtomReach true (fun s id x => NoOvertaking s (.requestRead id x)) s) : InOrder s := by
  induction h with
  | refl => intro st a; exact ⟨0, [], by simp [new, crossing, entered, requests]⟩
  | tail hr step ih =>
    obtain ⟨hb, ho, hw⟩ := atoms_invariants hr
    exact inOrder_step hb ho hw ih step

theorem count_vals (l : List (UInt64 × Nat)) (a : UInt64) (id : Nat) :
    (Multimap.vals l a).count id = l.count (a, id) := by
  induction l with
  | nil => rfl
  | cons e l ih =>
    rw [Multimap.vals_cons, List.count_cons]
    by_cases h : e.1 = a
    · by_cases hid : e.2 = id
      · have : e = (a, id) := Prod.ext h hid
        simp [ih, this]
      · have : e ≠ (a, id) := fun he => hid (by rw [he])
        simp [h, ih, hid, this]
    · have : e ≠ (a, id) := fun he => h (by rw [he])
      simp [h, ih, this]

/-- The credited requests are a prefix of those that have arrived, which are a
prefix of all requests for the address. -/
theorem arrivedFirst_of_inOrder {s : MultiMemoryInterface Bag} (hb : Balanced s) (ho : Ordered s) (h : InOrder s) :
    ArrivedFirst s := by
  intro id st a
  obtain ⟨core, P, hc, hR⟩ := h st a
  have hsum : ∑ c, (crossing s.log c st).count (a, id) = (Multimap.vals (crossing s.log core st) a).count id := by
    rw [count_vals]
    refine Finset.sum_eq_single core (fun c _ hne => ?_) (by simp)
    rw [← count_vals, vals_eq_nil (hc c hne)]; rfl
  have harr : arrivedNum s.log id st a = P.count id := by
    have := arrivedNum_add s.log id st a
    rw [hsum, hR, List.count_append] at this
    omega
  have hlen : (credits s.log st a).length ≤ P.length := by
    have hbal := hb.balance st a
    have hcross : (Multimap.vals (crossing s.log core st) a).length ≤ s.memorySwitch.req.bound st a := by
      have hone : (Multimap.vals (crossing s.log core st) a).length = (s.memorySwitch.req.transit core st).count a := by
        rw [ho.transit, Multimap.vals, List.length_map, List.count, List.countP_map, List.countP_eq_length_filter]
        rfl
      rw [hone]
      exact Finset.single_le_sum (f := fun c => (s.memorySwitch.req.transit c st).count a)
        (fun _ _ => Nat.zero_le _) (Finset.mem_univ core)
    have hfifo := congrArg List.length (hR.symm.trans (ho.fifo st a))
    rw [List.length_append, List.length_append] at hfifo
    unfold Multimap.keyCount owed at hbal
    omega
  have h1 : credits s.log st a <+: requests s.log st a := by rw [ho.fifo]; exact List.prefix_append _ _
  have h2 : P <+: requests s.log st a := by rw [hR]; exact List.prefix_append _ _
  rw [harr]
  exact (List.prefix_of_prefix_length_le h1 h2 hlen).sublist.count_le id

/-- If no request overtakes one of another core for the same address, no
reader sees a read complete before its own request has reached the stack. -/
theorem completions_after_arrival {δ : Type} [MemorySystem δ] {s : MultiMemoryInterface δ}
    (h : Reach true NoOvertaking s) : ArrivedFirst s := by
  have hr := reach_abs (fun s id x => NoOvertaking s (.requestRead id x)) h fun _ _ _ hp => hp
  obtain ⟨hb, ho, -⟩ := atoms_invariants hr
  exact arrivedFirst_of_inOrder hb ho (inOrder_atoms hr)

def orderedReads : List Op :=
  [.registerId 1, .registerId 0, .requestRead 0 64, .clockTick, .requestRead 1 64, .clockTick, .clockTick, .clockTick]

theorem completions_after_arrival_ordered :
    Reach true NoOvertaking (replay orderedReads) ∧ credits (replay orderedReads).log 0 64 = [0, 1] ∧
      (credits (replay orderedReads).log 0 64).count 0 ≤ arrivedNum (replay orderedReads).log 0 0 64 := by
  have h : Reach true NoOvertaking (replay orderedReads) := reach_replay (by decide +kernel)
  exact ⟨h, by decide +kernel, completions_after_arrival h 0 0 64⟩

/-- Reader 0 of core 1 has six requests for stack 2 ahead of its request for
stack 0; reader 1, at stack 0, asks for the same address. -/
def overtakingReads : List Op :=
  [.registerId 1, .registerId 0, .requestRead 0 0x20000, .requestRead 0 0x20040, .requestRead 0 0x20080,
   .requestRead 0 0x200c0, .requestRead 0 0x20100, .requestRead 0 0x20140, .requestRead 0 64, .requestRead 1 64,
   .clockTick, .clockTick, .clockTick]

/-- Reader 0 is credited with the answer to reader 1, its own request still in the switch. -/
theorem credited_before_arrival :
    Reachable true (replay overtakingReads) ∧ ¬ ArrivedFirst (replay overtakingReads) := by
  refine ⟨reach_replay (by decide +kernel), fun h => ?_⟩
  have hc : (credits (replay overtakingReads).log 0 64).count 0 = 1 := by decide +kernel
  have ha : arrivedNum (replay overtakingReads).log 0 0 64 = 0 := by decide +kernel
  have := h 0 0 64
  omega

end MultiMemoryInterface

end Anna
