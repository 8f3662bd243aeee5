import Anna.MultiMemorySteps

/-!
# Requests and completions balance

Every entry of `id_map` stands for a read that waits in a request queue,
crosses the switch, is outstanding in its stack, or whose response crosses the
switch. The balance holds address by address, although entries are looked up
by address alone and leave the map at two different places.
-/

namespace Anna

namespace MultiMemoryInterface

variable {δ : Type}

/-- The requester is not at the stack's own core, so requests and responses cross the switch. -/
def Remote (s : MultiMemoryInterface δ) (id : Nat) (st : Port) : Prop :=
  s.useMemorySwitch = true ∧ s.id2core id ≠ st

instance (s : MultiMemoryInterface δ) (id : Nat) (st : Port) : Decidable (s.Remote id st) :=
  inferInstanceAs (Decidable (_ ∧ _))

theorem requestRead_local {s : MultiMemoryInterface δ} {id : Nat} {x : UInt64} (h : ¬ s.Remote id (stackOf x)) :
    s.requestRead id x =
      { s.record (.reqIn id (stackOf x) (addrIn x) none) with
        readRequestQueue := (s.enqueue (stackOf x) (addrIn x)).readRequestQueue
        idMap := Function.update s.idMap (stackOf x) ((s.idMap (stackOf x)).insert (addrIn x) id) } := by
  unfold requestRead
  by_cases hw : s.useMemorySwitch = true
  · have hc : s.id2core id = stackOf x := Classical.byContradiction fun hc => h ⟨hw, hc⟩
    simp [record, enqueue, hw, hc]
  · simp [record, enqueue, hw]

theorem requestRead_remote {s : MultiMemoryInterface δ} {id : Nat} {x : UInt64} (h : s.Remote id (stackOf x)) :
    s.requestRead id x =
      { s.record (.reqIn id (stackOf x) (addrIn x) (some (s.id2core id))) with
        memorySwitch := s.memorySwitch.sendReq (s.id2core id) (stackOf x) (addrIn x)
        idMap := Function.update s.idMap (stackOf x) ((s.idMap (stackOf x)).insert (addrIn x) id) } := by
  unfold requestRead
  simp [record, h.1, h.2]

theorem readCallback_cases (s : MultiMemoryInterface δ) (st : Port) (addr : UInt64) :
    ((s.idMap st).find? addr = none ∧ s.readCallback st addr = { s with assertFailed := true }) ∨
    (∃ id, (s.idMap st).find? addr = some id ∧ ¬ s.Remote id st ∧
      s.readCallback st addr = s.credit st addr id none) ∨
    (∃ id, (s.idMap st).find? addr = some id ∧ s.Remote id st ∧
      s.readCallback st addr = s.withSwitch (s.memorySwitch.sendRes st (s.id2core id) addr)) := by
  cases hf : (s.idMap st).find? addr with
  | none => left; simp [readCallback, hf]
  | some id =>
    right
    by_cases hw : s.useMemorySwitch = true
    · by_cases hc : s.id2core id = st
      · left; exact ⟨id, rfl, fun h => h.2 hc, by simp [readCallback, hf, hw, hc]⟩
      · right; exact ⟨id, rfl, ⟨hw, hc⟩, by simp [readCallback, hf, hw, hc, withSwitch]⟩
    · left; exact ⟨id, rfl, fun h => hw h.1, by simp [readCallback, hf, hw]⟩

theorem deliver_cases (s : MultiMemoryInterface δ) (core st : Port) (addr : UInt64) :
    ((s.idMap st).find? addr = none ∧ s.deliver core st addr = { s with endDereferenced := true }) ∨
    (∃ id, (s.idMap st).find? addr = some id ∧ s.deliver core st addr = s.credit st addr id (some core)) := by
  unfold deliver
  cases (s.idMap st).find? addr with
  | none => exact .inl ⟨rfl, rfl⟩
  | some id => exact .inr ⟨id, rfl, rfl⟩

theorem move_frame {s t : MultiMemoryInterface Bag} (move : Move s t) :
    t.useMemorySwitch = s.useMemorySwitch ∧ t.idNum = s.idNum ∧ t.id2core = s.id2core := by
  cases move with
  | @deliver core st addr res =>
    rcases deliver_cases (s.withSwitch { s.memorySwitch with res := res }) core st addr with ⟨-, heq⟩ | ⟨_, -, heq⟩
    · rw [heq]; exact ⟨rfl, rfl, rfl⟩
    · rw [heq]; exact ⟨rfl, rfl, rfl⟩
  | @answer st addr mem =>
    rcases readCallback_cases (s.withMem mem) st addr with ⟨-, heq⟩ | ⟨_, -, -, heq⟩ | ⟨_, -, -, heq⟩
    · rw [heq]; exact ⟨rfl, rfl, rfl⟩
    · rw [heq]; exact ⟨rfl, rfl, rfl⟩
    · rw [heq]; exact ⟨rfl, rfl, rfl⟩
  | _ => exact ⟨rfl, rfl, rfl⟩

theorem requestRead_frame (s : MultiMemoryInterface δ) (id : Nat) (x : UInt64) :
    (s.requestRead id x).useMemorySwitch = s.useMemorySwitch ∧ (s.requestRead id x).idNum = s.idNum ∧
      (s.requestRead id x).id2core = s.id2core := by
  by_cases hr : s.Remote id (stackOf x)
  · rw [requestRead_remote hr]; exact ⟨rfl, rfl, rfl⟩
  · rw [requestRead_local hr]; exact ⟨rfl, rfl, rfl⟩

theorem clockTick_frame [MemorySystem δ] (s : MultiMemoryInterface δ) :
    s.clockTick.useMemorySwitch = s.useMemorySwitch ∧ s.clockTick.idNum = s.idNum ∧
      s.clockTick.id2core = s.id2core := by
  have h : ∀ {t : MultiMemoryInterface Bag}, Moves s.abs t →
      t.useMemorySwitch = s.useMemorySwitch ∧ t.idNum = s.idNum ∧ t.id2core = s.id2core := by
    intro t ht
    induction ht with
    | refl => exact ⟨rfl, rfl, rfl⟩
    | tail _ move ih =>
      obtain ⟨h1, h2, h3⟩ := move_frame move
      exact ⟨h1.trans ih.1, h2.trans ih.2.1, h3.trans ih.2.2⟩
  exact h (clockTick_abs s)

theorem count_enqueue (s : MultiMemoryInterface δ) (st i : Port) (addr a : UInt64) :
    ((s.enqueue st addr).readRequestQueue i).count a =
      (s.readRequestQueue i).count a + if st = i ∧ addr = a then 1 else 0 := by
  by_cases hi : i = st
  · subst hi
    simp only [enqueue, Function.update_self, true_and]
    rw [(List.perm_orderedInsert _ _ _).count_eq, List.count_cons]
    simp
  · simp [enqueue, Function.update_of_ne hi, Ne.symm hi]

theorem keyCount_update_insert (m : Port → Multimap UInt64 Nat) (st i : Port) (addr a : UInt64) (id : Nat) :
    (Function.update m st ((m st).insert addr id) i).keyCount a =
      (m i).keyCount a + if st = i ∧ addr = a then 1 else 0 := by
  by_cases hi : i = st
  · subst hi; simp [Multimap.keyCount_insert]
  · simp [Function.update_of_ne hi, Ne.symm hi]

theorem keyCount_credit (s : MultiMemoryInterface δ) (st i : Port) (addr a : UInt64) (id : Nat) (port : Option Port) :
    ((s.credit st addr id port).idMap i).keyCount a =
      (s.idMap i).keyCount a - if st = i ∧ addr = a then 1 else 0 := by
  by_cases hi : i = st
  · subst hi; simp [credit, Multimap.keyCount_erase]
  · simp [credit, Function.update_of_ne hi, Ne.symm hi]

/-- Where the reads of `a` on stack `st` are that have an entry in `id_map`. -/
def owed (s : MultiMemoryInterface Bag) (st : Port) (a : UInt64) : Nat :=
  (s.readRequestQueue st).count a + s.memorySwitch.req.bound st a + s.memorySystemList st a +
    s.memorySwitch.res.sent st a

structure Balanced (s : MultiMemoryInterface Bag) : Prop where
  balance : ∀ st a, (s.idMap st).keyCount a = s.owed st a
  addr_ne : ∀ core st, ∀ a ∈ s.memorySwitch.req.transit core st, a ≠ -1
  assert_ok : s.assertFailed = false
  end_ok : s.endDereferenced = false

theorem Balanced.find {s : MultiMemoryInterface Bag} {st : Port} {a : UInt64} (h : Balanced s)
    (hpos : 0 < s.owed st a) : (s.idMap st).find? a ≠ none := by
  rw [← Option.isSome_iff_ne_none, Multimap.find?_isSome_iff, h.balance]
  exact hpos

theorem balanced_new (useMemorySwitch : Bool) : Balanced (new useMemorySwitch fun _ _ => 0) where
  balance st a := by simp [owed, new, MemorySwitch.empty, Multimap.keyCount]
  addr_ne core st a ha := by simp [new, MemorySwitch.empty] at ha
  assert_ok := rfl
  end_ok := rfl

theorem balanced_move {s t : MultiMemoryInterface Bag} (h : Balanced s) (move : Move s t) : Balanced t := by
  cases move with
  | tick =>
    refine ⟨fun st a => ?_, fun core st a ha => ?_, h.assert_ok, h.end_ok⟩
    · have := h.balance st a
      simpa only [owed, withSwitch, MemorySwitch.clockTick, Crossbar.bound_tick, Crossbar.sent_tick] using this
    · simp only [withSwitch, MemorySwitch.clockTick, Crossbar.transit_tick] at ha
      exact h.addr_ne core st a ha
  | @arrive core st addr req hrec hne =>
    refine ⟨fun i a => ?_, fun c i a ha => ?_, h.assert_ok, h.end_ok⟩
    · have := h.balance i a
      have hb := Crossbar.bound_receive hrec i a
      simp only [owed, arrive, record, withSwitch, count_enqueue] at this ⊢
      simp only [enqueue] at this ⊢
      omega
    · obtain ⟨hfront, hrest, -⟩ := Crossbar.receive_some hrec
      refine h.addr_ne c i a ?_
      by_cases hci : c = core ∧ i = st
      · obtain ⟨rfl, rfl⟩ := hci
        rw [hfront]; exact List.mem_cons_of_mem _ ha
      · rw [← hrest c i hci]; exact ha
  | @lose core st addr req hrec hne =>
    -- no address in the switch is the empty mark
    have hfront := (Crossbar.receive_some hrec).1
    exact absurd hne (h.addr_ne core st addr (by rw [hfront]; exact List.mem_cons_self))
  | @deliver core st addr res hrec =>
    have hsent : 0 < s.memorySwitch.res.sent st addr := by
      rw [Crossbar.sent_receive hrec]; simp
    rcases deliver_cases (s.withSwitch { s.memorySwitch with res := res }) core st addr with
      ⟨hf, -⟩ | ⟨id, hf, heq⟩
    · exact absurd hf (h.find (by unfold owed; omega))
    · rw [heq]
      refine ⟨fun i a => ?_, h.addr_ne, h.assert_ok, h.end_ok⟩
      have := h.balance i a
      have hs := Crossbar.sent_receive hrec i a
      rw [keyCount_credit]
      simp only [owed, credit, record, withSwitch] at this ⊢
      omega
  | @answer st addr mem hmem =>
    have hpos : 0 < s.owed st addr := by
      unfold owed; have := hmem st addr; simp at this; omega
    rcases readCallback_cases (s.withMem mem) st addr with ⟨hf, -⟩ | ⟨id, hf, -, heq⟩ | ⟨id, hf, -, heq⟩
    · exact absurd hf (h.find hpos)
    · rw [heq]
      refine ⟨fun i a => ?_, h.addr_ne, h.assert_ok, h.end_ok⟩
      have := h.balance i a
      have hm := hmem i a
      rw [keyCount_credit]
      simp only [owed, credit, record, withMem] at this ⊢
      omega
    · rw [heq]
      refine ⟨fun i a => ?_, h.addr_ne, h.assert_ok, h.end_ok⟩
      have := h.balance i a
      have hm := hmem i a
      simp only [owed, withSwitch, withMem, MemorySwitch.sendRes, Crossbar.sent_send] at this ⊢
      omega
  | @accept st addr q mem hq hmem =>
    refine ⟨fun i a => ?_, h.addr_ne, h.assert_ok, h.end_ok⟩
    have := h.balance i a
    have hm := hmem i a
    simp only [owed, withMem] at this ⊢
    by_cases hi : i = st
    · subst hi
      rw [hq, List.count_cons] at this
      rw [Function.update_self]
      simp only [beq_iff_eq, true_and] at this hm
      omega
    · rw [Function.update_of_ne hi]
      simp only [Ne.symm hi, false_and, if_false] at hm
      omega

theorem balanced_step {ok : MultiMemoryInterface Bag → Nat → UInt64 → Prop} {s t : MultiMemoryInterface Bag}
    (h : Balanced s) (step : Atom ok s t) : Balanced t := by
  cases step with
  | registerId coreId => exact ⟨h.balance, h.addr_ne, h.assert_ok, h.end_ok⟩
  | collect => exact ⟨h.balance, h.addr_ne, h.assert_ok, h.end_ok⟩
  | @requestRead id x hid hok =>
    by_cases hr : s.Remote id (stackOf x)
    · rw [requestRead_remote hr]
      refine ⟨fun st a => ?_, fun core st a ha => ?_, h.assert_ok, h.end_ok⟩
      · have := h.balance st a
        simp only [owed, record, MemorySwitch.sendReq, keyCount_update_insert, Crossbar.bound_send] at this ⊢
        omega
      · simp only [MemorySwitch.sendReq, Crossbar.transit_send, List.mem_append] at ha
        rcases ha with ha | ha
        · exact h.addr_ne core st a ha
        · split at ha
          · rw [List.mem_singleton.mp ha]; exact addrIn_ne x
          · cases ha
    · rw [requestRead_local hr]
      refine ⟨fun st a => ?_, h.addr_ne, h.assert_ok, h.end_ok⟩
      have := h.balance st a
      simp only [owed, record, keyCount_update_insert, count_enqueue] at this ⊢
      omega
  | move hm => exact balanced_move h hm

theorem balanced_atoms {useMemorySwitch : Bool} {ok : MultiMemoryInterface Bag → Nat → UInt64 → Prop}
    {s : MultiMemoryInterface Bag} (h : AtomReach useMemorySwitch ok s) : Balanced s := by
  induction h with
  | refl => exact balanced_new useMemorySwitch
  | tail _ step ih => exact balanced_step ih step

theorem reachable_balanced [MemorySystem δ] {useMemorySwitch : Bool} {s : MultiMemoryInterface δ}
    (h : Reachable useMemorySwitch s) : Balanced s.abs :=
  balanced_atoms (reach_abs (fun _ _ _ => True) h fun _ _ _ _ => trivial)

theorem reachable_keyCount [MemorySystem δ] {useMemorySwitch : Bool} {s : MultiMemoryInterface δ}
    (h : Reachable useMemorySwitch s) (st : Port) (a : UInt64) : (s.idMap st).keyCount a =
      (s.readRequestQueue st).count a + s.memorySwitch.req.bound st a +
        MemorySystem.outstanding (s.memorySystemList st) a + s.memorySwitch.res.sent st a :=
  (reachable_balanced h).balance st a

/-- In every run the entries of an address are the reads queued, crossing the
switch, outstanding in the stack or answered and crossing back, and neither
lookup in the map ever fails. -/
theorem pending_reads_balance [MemorySystem δ] {useMemorySwitch : Bool} {s : MultiMemoryInterface δ}
    (h : Reachable useMemorySwitch s) :
    (∀ st a, (s.idMap st).keyCount a =
      (s.readRequestQueue st).count a + s.memorySwitch.req.bound st a +
        MemorySystem.outstanding (s.memorySystemList st) a + s.memorySwitch.res.sent st a) ∧
      s.assertFailed = false ∧ s.endDereferenced = false := by
  have := reachable_balanced h
  exact ⟨reachable_keyCount h, this.assert_ok, this.end_ok⟩

/-- Two readers of different cores wait for one address of stack 0. -/
def sharedReads : List Op :=
  [.registerId 1, .registerId 0, .requestRead 0 64, .requestRead 1 64, .clockTick, .clockTick]

theorem pending_reads_balance_shared :
    Reachable true (replay sharedReads) ∧
      ((replay sharedReads).idMap 0).keyCount 64 = (replay sharedReads).memorySwitch.res.sent 0 64 := by
  have h : Reachable true (replay sharedReads) := reach_replay (by decide +kernel)
  refine ⟨h, ?_⟩
  rw [(pending_reads_balance h).1 0 64]
  decide +kernel

end MultiMemoryInterface

end Anna
