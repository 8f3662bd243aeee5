import Anna.MultiMemory

/-!
# The parallel loop of a tick

`ClockTick` runs the bodies for the eight stacks in parallel. A body touches
the shared containers only at its own stack, its lane, adds to the counter of
accepted reads and may fail an assertion; so the bodies commute and the order
of the stacks does not matter. Only the history tells the orders apart.
-/

namespace Anna

namespace MultiMemoryInterface

variable {δ : Type}

/-- The state as the program has it, without the history. -/
def forget (s : MultiMemoryInterface δ) : MultiMemoryInterface δ := { s with log := [] }

/-- What the body for one stack works on; `accepted` and `failed` are what it
adds to the counter and to the failed assertions. -/
structure Lane (δ : Type) where
  memorySystem : δ
  readRequestQueue : List UInt64
  readReadyQueues : Nat → List UInt64
  idMap : Multimap UInt64 Nat
  responses : List (Port × UInt64)
  accepted : Nat
  failed : Bool

def lane (s : MultiMemoryInterface δ) (i : Port) : Lane δ :=
  ⟨s.memorySystemList i, s.readRequestQueue i, s.readReadyQueues i, s.idMap i, s.memorySwitch.res.input i, 0, false⟩

def setLane (s : MultiMemoryInterface δ) (i : Port) (v : Lane δ) : MultiMemoryInterface δ :=
  { s with
    memorySystemList := Function.update s.memorySystemList i v.memorySystem
    readRequestQueue := Function.update s.readRequestQueue i v.readRequestQueue
    readReadyQueues := Function.update s.readReadyQueues i v.readReadyQueues
    idMap := Function.update s.idMap i v.idMap
    memorySwitch := { s.memorySwitch with
      res := { s.memorySwitch.res with input := Function.update s.memorySwitch.res.input i v.responses } }
    memoryReqCnt := s.memoryReqCnt + v.accepted
    assertFailed := s.assertFailed || v.failed
    log := [] }

theorem lane_setLane_ne (s : MultiMemoryInterface δ) {i j : Port} (h : j ≠ i) (v : Lane δ) :
    (s.setLane i v).lane j = s.lane j := by
  simp [setLane, lane, Function.update_of_ne h]

theorem setLane_comm (s : MultiMemoryInterface δ) {i j : Port} (h : i ≠ j) (v u : Lane δ) :
    (s.setLane i v).setLane j u = (s.setLane j u).setLane i v := by
  simp only [setLane, Function.update_comm h, Nat.add_right_comm _ v.accepted, Bool.or_right_comm _ v.failed]

/-! ## A callback -/

def Lane.credit (v : Lane δ) (addr : UInt64) (id : Nat) : Lane δ :=
  { v with
    readReadyQueues := Function.update v.readReadyQueues id ((v.readReadyQueues id).orderedInsert (· ≤ ·) addr)
    idMap := v.idMap.erase addr }

def Lane.readCallback (useMemorySwitch : Bool) (id2core : Nat → Port) (i : Port) (v : Lane δ) (addr : UInt64) : Lane δ :=
  match v.idMap.find? addr with
  | none => { v with failed := true }
  | some id =>
    if useMemorySwitch then
      if id2core id = i then v.credit addr id else { v with responses := v.responses ++ [(id2core id, addr)] }
    else v.credit addr id

section
variable {s t : MultiMemoryInterface δ} {i : Port} {v : Lane δ}

theorem credit_lane (ht : t.forget = s.setLane i v) (addr : UInt64) (id : Nat) (port : Option Port) :
    (t.credit i addr id port).forget = s.setLane i (v.credit addr id) := by
  obtain ⟨log, rfl⟩ : ∃ log, t = { s.setLane i v with log := log } := ⟨t.log, by rw [← ht]; rfl⟩
  simp [setLane, credit, record, forget, Lane.credit]

theorem sendRes_lane (ht : t.forget = s.setLane i v) (core : Port) (addr : UInt64) :
    forget { t with memorySwitch := t.memorySwitch.sendRes i core addr } =
      s.setLane i { v with responses := v.responses ++ [(core, addr)] } := by
  obtain ⟨log, rfl⟩ : ∃ log, t = { s.setLane i v with log := log } := ⟨t.log, by rw [← ht]; rfl⟩
  simp [setLane, forget, MemorySwitch.sendRes, Crossbar.send]

theorem fail_lane (ht : t.forget = s.setLane i v) :
    forget { t with assertFailed := true } = s.setLane i { v with failed := true } := by
  obtain ⟨log, rfl⟩ : ∃ log, t = { s.setLane i v with log := log } := ⟨t.log, by rw [← ht]; rfl⟩
  simp [setLane, forget]

theorem readCallback_lane (ht : t.forget = s.setLane i v) (addr : UInt64) :
    (t.readCallback i addr).forget = s.setLane i (v.readCallback s.useMemorySwitch s.id2core i addr) := by
  have hmap : t.idMap i = v.idMap :=
    (congrArg (fun t => t.idMap i) ht).trans (Function.update_self i v.idMap s.idMap)
  have hswitch : t.useMemorySwitch = s.useMemorySwitch := (congrArg MultiMemoryInterface.useMemorySwitch ht :)
  have hcore : t.id2core = s.id2core := (congrArg MultiMemoryInterface.id2core ht :)
  rw [← hswitch, ← hcore]
  unfold readCallback Lane.readCallback
  rw [hmap]
  cases v.idMap.find? addr with
  | none => exact fail_lane ht
  | some id =>
    dsimp only
    split
    · split
      · exact credit_lane ht addr id none
      · exact sendRes_lane ht (t.id2core id) addr
    · exact credit_lane ht addr id none

theorem readCallbacks_lane (addrs : List UInt64) (ht : t.forget = s.setLane i v) :
    (addrs.foldl (fun t addr => t.readCallback i addr) t).forget =
      s.setLane i (addrs.foldl (Lane.readCallback s.useMemorySwitch s.id2core i) v) := by
  induction addrs generalizing t v with
  | nil => exact ht
  | cons addr addrs ih => exact ih (readCallback_lane ht addr)

end

/-! ## The body of the loop -/

variable [MemorySystem δ]

def tickMemory (s : MultiMemoryInterface δ) (i : Port) : MultiMemoryInterface δ :=
  { s with memorySystemList := Function.update s.memorySystemList i (MemorySystem.clockTick (s.memorySystemList i)).2 }

theorem tickMemory_lane (s : MultiMemoryInterface δ) (i : Port) : (s.tickMemory i).forget =
    s.setLane i { s.lane i with memorySystem := (MemorySystem.clockTick (s.memorySystemList i)).2 } := by
  simp [tickMemory, setLane, lane, forget]

/-- The requests that the stack accepts leave their queue. -/
def accept (s : MultiMemoryInterface δ) (i : Port) : MultiMemoryInterface δ :=
  let r := fill (s.memorySystemList i) (s.readRequestQueue i)
  { s with
    memorySystemList := Function.update s.memorySystemList i r.1
    readRequestQueue := Function.update s.readRequestQueue i r.2.1
    memoryReqCnt := s.memoryReqCnt + r.2.2 }

def Lane.accept (v : Lane δ) : Lane δ :=
  let r := fill v.memorySystem v.readRequestQueue
  { v with memorySystem := r.1, readRequestQueue := r.2.1, accepted := v.accepted + r.2.2 }

theorem accept_lane {s t : MultiMemoryInterface δ} {i : Port} {v : Lane δ} (ht : t.forget = s.setLane i v) :
    (t.accept i).forget = s.setLane i v.accept := by
  obtain ⟨log, rfl⟩ : ∃ log, t = { s.setLane i v with log := log } := ⟨t.log, by rw [← ht]; rfl⟩
  simp [setLane, forget, accept, Lane.accept, Nat.add_assoc]

def Lane.tick (useMemorySwitch : Bool) (id2core : Nat → Port) (i : Port) (v : Lane δ) : Lane δ :=
  let t := MemorySystem.clockTick v.memorySystem
  (t.1.foldl (Lane.readCallback useMemorySwitch id2core i) { v with memorySystem := t.2 }).accept

theorem tickStack_lane (s : MultiMemoryInterface δ) (i : Port) :
    (s.tickStack i).forget = s.setLane i ((s.lane i).tick s.useMemorySwitch s.id2core i) :=
  accept_lane (readCallbacks_lane _ (tickMemory_lane s i))

theorem forget_tickStack (s : MultiMemoryInterface δ) (i : Port) :
    (s.forget.tickStack i).forget = (s.tickStack i).forget := by
  rw [tickStack_lane, tickStack_lane]
  rfl

theorem tickStack_comm (s : MultiMemoryInterface δ) (i j : Port) :
    ((s.tickStack i).tickStack j).forget = ((s.tickStack j).tickStack i).forget := by
  by_cases h : i = j
  · rw [h]
  · rw [← forget_tickStack (s.tickStack i), ← forget_tickStack (s.tickStack j), tickStack_lane s i, tickStack_lane s j,
      tickStack_lane, tickStack_lane, lane_setLane_ne s (Ne.symm h), lane_setLane_ne s h, setLane_comm s h]
    rfl

theorem forget_foldl_tickStack (l : List Port) (s : MultiMemoryInterface δ) :
    (l.foldl tickStack s).forget = l.foldl (fun t i => (t.tickStack i).forget) s.forget := by
  induction l generalizing s with
  | nil => rfl
  | cons i l ih => rw [List.foldl_cons, List.foldl_cons, ih, forget_tickStack]

/-- `ClockTick` with the stacks in the order of a list. -/
def clockTickInOrder (order : List Port) (s : MultiMemoryInterface δ) : MultiMemoryInterface δ :=
  order.foldl tickStack (if s.useMemorySwitch then s.tickSwitch else s)

/-- Every order of the stacks gives the state of the sequential loop. -/
theorem clockTick_any_order (s : MultiMemoryInterface δ) (order : List Port) (h : order.Perm (List.finRange 8)) :
    (s.clockTickInOrder order).forget = s.clockTick.forget := by
  unfold clockTickInOrder clockTick
  rw [forget_foldl_tickStack, forget_foldl_tickStack]
  apply h.foldl_eq'
  intro i _ j _ t
  rw [forget_tickStack, forget_tickStack, tickStack_comm]

-- in this tick stack 0 answers its own core and stack 1 sends its answer to the switch
theorem clockTick_backwards :
    let s := replay [.registerId 0, .requestRead 0 0, .requestRead 0 0x10000, .clockTick]
    (s.readReadyQueues 0 0 = [] ∧ s.clockTick.readReadyQueues 0 0 = [0]) ∧
      (s.memorySystemList 1 = [0] ∧ s.clockTick.memorySwitch.res.input 1 ≠ []) ∧
      (s.clockTickInOrder (List.finRange 8).reverse).forget = s.clockTick.forget :=
  ⟨by decide +kernel, by decide +kernel, clockTick_any_order _ _ (List.reverse_perm _)⟩

end MultiMemoryInterface

end Anna
