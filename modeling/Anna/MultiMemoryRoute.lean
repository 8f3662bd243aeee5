import Anna.MultiMemoryOrder

/-!
# Where a response leaves the switch

A read callback routes its response to the core of the oldest entry of the
address, but leaves that entry in the map until the response has crossed. A
second answer for the address is then routed by the same entry and credited to
the next one. `OneRemoteCore` is the condition on `RequestRead` under which the
two always belong to the same core.
-/

namespace Anna

namespace MultiMemoryInterface

/-- A completion that left the switch goes to a reader of the core it left at,
and a reader of the stack's own core is credited without crossing. -/
def RoutedHome {δ : Type} (s : MultiMemoryInterface δ) : Prop :=
  ∀ id st a port, MemoryEvent.credit id st a port ∈ s.log →
    (∀ core, port = some core → s.id2core id = core) ∧ (s.id2core id = st → port = none)

/-- `RequestRead` is not called while the same address of the stack is pending
for a core other than the caller's and the stack's own. -/
def OneRemoteCore {δ : Type} (s : MultiMemoryInterface δ) : Op → Prop
  | .requestRead id x => ∀ j ∈ (s.idMap (stackOf x)).vals (addrIn x),
      s.id2core j = stackOf x ∨ s.id2core j = s.id2core id
  | _ => True

instance {δ : Type} (s : MultiMemoryInterface δ) : (op : Op) → Decidable (OneRemoteCore s op)
  | .requestRead id x => inferInstanceAs (Decidable (∀ j ∈ (s.idMap (stackOf x)).vals (addrIn x),
      s.id2core j = stackOf x ∨ s.id2core j = s.id2core id))
  | .registerId _ => inferInstanceAs (Decidable True)
  | .getAllReadyReadRequest _ => inferInstanceAs (Decidable True)
  | .clockTick => inferInstanceAs (Decidable True)

/-- The pending readers of an address are first some of the stack's own core,
then some of one other core; while a response crosses, only the latter. -/
structure Routed (s : MultiMemoryInterface Bag) : Prop where
  ids : ∀ st a, ∀ j ∈ (s.idMap st).vals a, j < s.idNum
  logIds : ∀ id st a port, MemoryEvent.credit id st a port ∈ s.log → id < s.idNum
  pairs : ∀ st a, ((s.idMap st).vals a).Pairwise fun i j => s.id2core i = st ∨ s.id2core j = s.id2core i
  responses : ∀ st core a, a ∈ s.memorySwitch.res.transit st core →
    core ≠ st ∧ ∀ j ∈ (s.idMap st).vals a, s.id2core j = core
  home : RoutedHome s

theorem routed_new (useMemorySwitch : Bool) : Routed (new useMemorySwitch fun _ _ => 0) where
  ids st a j hj := by simp [new] at hj
  logIds id st a port h := by simp [new] at h
  pairs st a := by simp [new]
  responses st core a h := by simp [new, MemorySwitch.empty] at h
  home id st a port h := by simp [new] at h

theorem mem_log_credit {δ : Type} {s : MultiMemoryInterface δ} {st i : Port} {addr a : UInt64} {id j : Nat}
    {port p : Option Port} (h : MemoryEvent.credit j i a p ∈ (s.credit st addr id port).log) :
    MemoryEvent.credit j i a p ∈ s.log ∨ (j = id ∧ i = st ∧ p = port) := by
  simp only [credit, record, List.mem_append, List.mem_singleton, MemoryEvent.credit.injEq] at h
  rcases h with h | ⟨rfl, rfl, -, rfl⟩
  · exact .inl h
  · exact .inr ⟨rfl, rfl, rfl⟩

section
variable {s : MultiMemoryInterface Bag} (h : Routed s)
include h

theorem Routed.withMem (mem : Port → Bag) : Routed (s.withMem mem) :=
  ⟨h.ids, h.logIds, h.pairs, h.responses, h.home⟩

theorem Routed.credit {st : Port} {addr : UInt64} {id : Nat} {port : Option Port}
    (hf : (s.idMap st).find? addr = some id)
    (hport : (∀ core, port = some core → s.id2core id = core) ∧ (s.id2core id = st → port = none)) :
    Routed (s.credit st addr id port) := by
  have hsub : ∀ i a, ((s.credit st addr id port).idMap i).vals a <:+ (s.idMap i).vals a := by
    intro i a
    by_cases hi : i = st
    · subst hi
      simp only [MultiMemoryInterface.credit, Function.update_self, Multimap.vals_erase]
      split
      · exact List.tail_suffix _
      · exact List.suffix_refl _
    · simp [MultiMemoryInterface.credit, Function.update_of_ne hi]
  have hid : id < s.idNum := h.ids st addr id (by
    rw [Multimap.find?_eq_head] at hf
    exact List.mem_of_mem_head? hf)
  refine ⟨fun i a j hj => h.ids i a j ((hsub i a).subset hj), fun j i a p hm => ?_, fun i a => ?_,
    fun i core a ha => ?_, fun j i a p hm => ?_⟩
  · rcases mem_log_credit hm with hm | ⟨rfl, -, -⟩
    · exact h.logIds j i a p hm
    · exact hid
  · exact (h.pairs i a).sublist (hsub i a).sublist
  · obtain ⟨hne, hall⟩ := h.responses i core a ha
    exact ⟨hne, fun j hj => hall j ((hsub i a).subset hj)⟩
  · rcases mem_log_credit hm with hm | ⟨rfl, rfl, rfl⟩
    · exact h.home j i a p hm
    · exact hport

theorem Routed.register (coreId : Port) : Routed (s.registerId coreId) := by
  have hold : ∀ j, j < s.idNum → (s.registerId coreId).id2core j = s.id2core j := fun j hj =>
    Function.update_of_ne (Nat.ne_of_lt hj) _ _
  refine ⟨fun st a j hj => Nat.lt_succ_of_lt (h.ids st a j hj), fun id st a port hm =>
    Nat.lt_succ_of_lt (h.logIds id st a port hm), fun st a => ?_, fun st core a ha => ?_, fun id st a port hm => ?_⟩
  · refine (h.pairs st a).imp_of_mem fun {i j} hi hj hij => ?_
    rw [hold i (h.ids st a i hi), hold j (h.ids st a j hj)]; exact hij
  · obtain ⟨hne, hall⟩ := h.responses st core a ha
    exact ⟨hne, fun j hj => by rw [hold j (h.ids st a j hj)]; exact hall j hj⟩
  · rw [hold id (h.logIds id st a port hm)]; exact h.home id st a port hm

/-- A new entry goes behind those of the stack's own core and of its own core;
while a response crosses, the address is pending, so only its core may add to it. -/
theorem Routed.request (hb : Balanced s) {id : Nat} {x : UInt64} (hid : id < s.idNum)
    (hok : OneRemoteCore s (.requestRead id x)) : Routed (s.requestRead id x) := by
  have hnum : (s.requestRead id x).idNum = s.idNum ∧ (s.requestRead id x).id2core = s.id2core ∧
      (s.requestRead id x).memorySwitch.res = s.memorySwitch.res ∧
      (s.requestRead id x).idMap =
        Function.update s.idMap (stackOf x) ((s.idMap (stackOf x)).insert (addrIn x) id) ∧
      ∃ port, (s.requestRead id x).log = s.log ++ [.reqIn id (stackOf x) (addrIn x) port] := by
    by_cases hr : s.Remote id (stackOf x)
    · rw [requestRead_remote hr]; exact ⟨rfl, rfl, rfl, rfl, _, rfl⟩
    · rw [requestRead_local hr]; exact ⟨rfl, rfl, rfl, rfl, _, rfl⟩
  obtain ⟨hn, hcore, hres, hmap, port, hlog⟩ := hnum
  have hvals : ∀ st a, ((s.requestRead id x).idMap st).vals a =
      (s.idMap st).vals a ++ if stackOf x = st ∧ addrIn x = a then [id] else [] := by
    intro st a
    rw [hmap]
    by_cases hs : st = stackOf x
    · subst hs; simp [Multimap.vals_insert]
    · simp [Function.update_of_ne hs, Ne.symm hs]
  have hcredits : ∀ j st a p, MemoryEvent.credit j st a p ∈ (s.requestRead id x).log →
      MemoryEvent.credit j st a p ∈ s.log := by
    intro j st a p hm
    rw [hlog] at hm
    simpa using hm
  have hmem : ∀ {st a j}, j ∈ ((s.requestRead id x).idMap st).vals a →
      j ∈ (s.idMap st).vals a ∨ (j = id ∧ stackOf x = st ∧ addrIn x = a) := by
    intro st a j hj
    rw [hvals, List.mem_append] at hj
    rcases hj with hj | hj
    · exact .inl hj
    · split at hj
      · rename_i hs; exact .inr ⟨List.mem_singleton.mp hj, hs⟩
      · cases hj
  refine ⟨fun st a j hj => ?_, fun j st a p hm => ?_, fun st a => ?_, fun st core a ha => ?_, fun j st a p hm => ?_⟩
  · rw [hn]
    rcases hmem hj with hj | ⟨rfl, -⟩
    · exact h.ids st a j hj
    · exact hid
  · rw [hn]; exact h.logIds j st a p (hcredits j st a p hm)
  · rw [hvals, hcore, List.pairwise_append]
    refine ⟨h.pairs st a, by split <;> simp, fun j hj k hk => ?_⟩
    split at hk
    · rename_i hs
      obtain ⟨rfl, rfl⟩ := hs
      rw [List.mem_singleton.mp hk]
      exact (hok j hj).imp_right Eq.symm
    · cases hk
  · rw [hres] at ha
    rw [hcore]
    obtain ⟨hne, hall⟩ := h.responses st core a ha
    refine ⟨hne, fun j hj => ?_⟩
    rcases hmem hj with hj | ⟨rfl, rfl, rfl⟩
    · exact hall j hj
    · have hpos : 0 < ((s.idMap (stackOf x)).vals (addrIn x)).length := by
        have hbal := hb.balance (stackOf x) (addrIn x)
        have := Crossbar.sent_pos ha
        unfold owed Multimap.keyCount at hbal
        omega
      obtain ⟨i, hi⟩ := List.exists_mem_of_length_pos hpos
      rcases hok i hi with hi' | hi'
      · exact absurd ((hall i hi).symm.trans hi') hne
      · rw [← hi', hall i hi]
  · rw [hcore]; exact h.home j st a p (hcredits j st a p hm)

theorem Routed.respond {st : Port} {addr : UInt64} {id : Nat} (hf : (s.idMap st).find? addr = some id)
    (hr : s.Remote id st) : Routed (s.withSwitch (s.memorySwitch.sendRes st (s.id2core id) addr)) := by
  refine ⟨h.ids, h.logIds, h.pairs, fun i core a ha => ?_, h.home⟩
  simp only [withSwitch, MemorySwitch.sendRes, Crossbar.transit_send, List.mem_append] at ha
  rcases ha with ha | ha
  · exact h.responses i core a ha
  · split at ha
    · rename_i hs
      obtain ⟨rfl, rfl⟩ := hs
      obtain rfl := List.mem_singleton.mp ha
      refine ⟨hr.2, fun j hj => ?_⟩
      rw [Multimap.find?_eq_head] at hf
      have hp := h.pairs st a
      simp only [withSwitch] at hj ⊢
      cases hv : (s.idMap st).vals a with
      | nil => rw [hv] at hf; cases hf
      | cons i l =>
        rw [hv, List.head?_cons, Option.some.injEq] at hf
        subst hf
        rw [hv] at hj hp
        rcases List.mem_cons.mp hj with rfl | hj
        · rfl
        · rcases List.rel_of_pairwise_cons hp hj with hi | hi
          · exact absurd hi hr.2
          · exact hi
    · cases ha

end

theorem routed_move {s t : MultiMemoryInterface Bag} (h : Routed s) (move : Move s t) : Routed t := by
  have hkeep : ∀ w : MemorySwitch 8, (∀ st core, w.res.transit st core = s.memorySwitch.res.transit st core) →
      Routed (s.withSwitch w) := by
    intro w hw
    refine ⟨h.ids, h.logIds, h.pairs, fun st core a ha => ?_, h.home⟩
    simp only [withSwitch, hw] at ha
    exact h.responses st core a ha
  cases move with
  | accept => exact ⟨h.ids, h.logIds, h.pairs, h.responses, h.home⟩
  | tick => exact hkeep _ fun st core => Crossbar.transit_tick ..
  | @arrive core st addr req hrec hne =>
    refine ⟨h.ids, fun id i a port hm => ?_, h.pairs, h.responses, fun id i a port hm => ?_⟩
    · exact h.logIds id i a port (by simpa [arrive, record, enqueue, withSwitch] using hm)
    · exact h.home id i a port (by simpa [arrive, record, enqueue, withSwitch] using hm)
  | lose => exact hkeep _ fun st core => rfl
  | @deliver core st addr res hrec =>
    obtain ⟨hfront, hrest, -⟩ := Crossbar.receive_some hrec
    have h' : Routed (s.withSwitch { s.memorySwitch with res := res }) := by
      refine ⟨h.ids, h.logIds, h.pairs, fun i c a ha => h.responses i c a ?_, h.home⟩
      by_cases hic : i = st ∧ c = core
      · obtain ⟨rfl, rfl⟩ := hic
        rw [hfront]; exact List.mem_cons_of_mem _ ha
      · rw [← hrest i c hic]; exact ha
    obtain ⟨hne, hall⟩ := h.responses st core addr (by rw [hfront]; exact List.mem_cons_self)
    rcases deliver_cases (s.withSwitch { s.memorySwitch with res := res }) core st addr with ⟨-, heq⟩ | ⟨id, hf, heq⟩
    · rw [heq]; exact ⟨h'.ids, h'.logIds, h'.pairs, h'.responses, h'.home⟩
    · rw [heq]
      have hid : s.id2core id = core := by
        rw [Multimap.find?_eq_head] at hf
        exact hall id (List.mem_of_mem_head? hf)
      refine h'.credit hf ⟨fun c hc => ?_, fun hst => ?_⟩
      · rw [← Option.some.inj hc]; exact hid
      · exact absurd (hid.symm.trans hst) hne
  | @answer st addr mem hmem =>
    rcases readCallback_cases (s.withMem mem) st addr with ⟨-, heq⟩ | ⟨id, hf, -, heq⟩ | ⟨id, hf, hr, heq⟩
    · rw [heq]; exact ⟨h.ids, h.logIds, h.pairs, h.responses, h.home⟩
    · rw [heq]
      refine (h.withMem mem).credit hf ⟨fun c hc => ?_, fun _ => rfl⟩
      cases hc
    · rw [heq]; exact (h.withMem mem).respond hf hr

theorem routed_step {s t : MultiMemoryInterface Bag} (hb : Balanced s) (h : Routed s)
    (step : Atom (fun s id x => OneRemoteCore s (.requestRead id x)) s t) : Routed t := by
  cases step with
  | registerId coreId => exact h.register coreId
  | collect => exact ⟨h.ids, h.logIds, h.pairs, h.responses, h.home⟩
  | requestRead hid hok => exact h.request hb hid hok
  | move hm => exact routed_move h hm

theorem routed_atoms {useMemorySwitch : Bool} {s : MultiMemoryInterface Bag}
    (h : AtomReach useMemorySwitch (fun s id x => OneRemoteCore s (.requestRead id x)) s) : Routed s := by
  induction h with
  | refl => exact routed_new useMemorySwitch
  | tail hr step ih => exact routed_step (balanced_atoms hr) ih step

/-- If an address is never pending for two cores other than the stack's own,
responses are credited at the port they were routed to. -/
theorem responses_reach_their_core {δ : Type} [MemorySystem δ] {s : MultiMemoryInterface δ}
    (h : Reach true OneRemoteCore s) : RoutedHome s :=
  (routed_atoms (reach_abs (fun s id x => OneRemoteCore s (.requestRead id x)) h fun _ _ _ hp => hp)).home

def localFirstReads : List Op :=
  [.registerId 1, .registerId 0, .requestRead 1 64, .requestRead 0 64, .clockTick, .clockTick, .clockTick]

theorem responses_reach_their_core_local_first :
    Reach true OneRemoteCore (replay localFirstReads) ∧
      MemoryEvent.credit 0 0 64 (some 1) ∈ (replay localFirstReads).log ∧ (replay localFirstReads).id2core 0 = 1 := by
  have h : Reach true OneRemoteCore (replay localFirstReads) := reach_replay (by decide +kernel)
  have hm : MemoryEvent.credit 0 0 64 (some 1) ∈ (replay localFirstReads).log := by decide +kernel
  exact ⟨h, hm, (responses_reach_their_core h 0 0 64 (some 1) hm).1 1 rfl⟩

/-- With the remote reader first, both answers are routed to core 1 and the
second is credited to the reader of core 0. -/
theorem response_credited_to_other_core :
    Reachable true (replay (sharedReads ++ [.clockTick])) ∧ ¬ RoutedHome (replay (sharedReads ++ [.clockTick])) := by
  refine ⟨reach_replay (by decide +kernel), fun h => ?_⟩
  have hm : MemoryEvent.credit 1 0 64 (some 1) ∈ (replay (sharedReads ++ [.clockTick])).log := by decide +kernel
  have hcore : (replay (sharedReads ++ [.clockTick])).id2core 1 = 0 := by decide +kernel
  have := (h 1 0 64 (some 1) hm).1 1 rfl
  rw [hcore] at this
  exact absurd this (by decide)

end MultiMemoryInterface

end Anna
