import Anna.Dramsim3.DramSystemSound
import Anna.MultiMemorySound

/-!
# Stacks of the simulator

The memory interface takes its stacks as a parameter. A JEDEC system whose
controllers are sound is such a stack: its ticks do not fail, and it answers
every read that it was given once. What holds of the interface for all stacks
holds for those it is linked with.
-/

namespace Anna

namespace Dramsim3

/-- A configuration with which the simulator runs on. -/
structure StackConfig where
  config : Config
  mapped : config.Mapped
  selfRefresh : config.enableSelfRefresh = false
  interval : 0 < Refresh.refreshInterval config
  epoch : config.epochPeriod ≠ 0

structure Stack (k : StackConfig) where
  system : JedecDRAMSystem
  sound : ∀ i, Controller.Sound k.config (system.ctrls i)
  routed : JedecDRAMSystem.Routed k.config system

namespace Stack

section
variable {k : StackConfig}

def new (k : StackConfig) : Stack k where
  system := .new
  sound _ := Controller.sound_new k.mapped
  routed := JedecDRAMSystem.routed_new k.mapped

def accept (s : Stack k) (hexAddr : UInt64) (isWrite : Bool) : Stack k where
  system := s.system.accept k.config hexAddr isWrite
  sound i := by
    unfold JedecDRAMSystem.accept
    dsimp only
    by_cases hi : i = JedecDRAMSystem.getChannel k.config hexAddr
    · subst hi
      rw [Function.update_self]
      exact (s.sound _).add _
    · rw [Function.update_of_ne hi]
      exact s.sound i
  routed := s.routed.accept hexAddr isWrite

theorem tick_ok (s : Stack k) : ∃ l s', s.system.clockTick k.config = .ok (l, s') := by
  refine JedecDRAMSystem.clockTick_ok k.epoch fun i _ => ?_
  obtain ⟨c', hc', -⟩ := Controller.clockTick_ok k.mapped k.selfRefresh k.interval ((s.sound i).returned _)
  exact ⟨c', hc'⟩

theorem sound_tick (s : Stack k) {l : List Transaction} {s' : JedecDRAMSystem}
    (h : JedecDRAMSystem.Ticked k.config s.system l s') (i : Int) : Controller.Sound k.config (s'.ctrls i) := by
  by_cases hi : i ∈ upTo k.config.channels
  · exact ((s.sound i).returned _).atoms k.mapped k.selfRefresh (Controller.clockTick_atoms (h.channel i hi))
  · rw [h.others i hi]
    exact s.sound i

def clockTick (s : Stack k) : List Transaction × Stack k :=
  match h : s.system.clockTick k.config with
  | .ok r => (r.1, ⟨r.2, s.sound_tick (JedecDRAMSystem.clockTick_spec h), s.routed.tick (JedecDRAMSystem.clockTick_spec h)⟩)
  | .error e => absurd s.tick_ok (by rw [h]; rintro ⟨l, s', hok⟩; cases hok)

theorem clockTick_spec (s : Stack k) :
    JedecDRAMSystem.Ticked k.config s.system s.clockTick.1 s.clockTick.2.system := by
  unfold clockTick
  split
  · rename_i hok
    exact JedecDRAMSystem.clockTick_spec hok
  · rename_i herror
    obtain ⟨l, s', hok⟩ := s.tick_ok
    rw [hok] at herror
    cases herror

/-- What the simulator still has to answer of an address. -/
def owed (s : Stack k) (isWrite : Bool) (hexAddr : UInt64) : Nat :=
  (s.system.ctrls (JedecDRAMSystem.getChannel k.config hexAddr)).awaited isWrite hexAddr

theorem owed_clockTick (s : Stack k) (w : Bool) (a : UInt64) : s.owed w a =
    (s.clockTick.1.countP fun t => t.addr = a ∧ t.isWrite = w) + s.clockTick.2.owed w a :=
  s.routed.answered k.mapped s.clockTick_spec w a

theorem owed_accept (s : Stack k) (w v : Bool) (a b : UInt64) :
    (s.accept a v).owed w b = s.owed w b + if a = b ∧ v = w then 1 else 0 := by
  unfold owed accept JedecDRAMSystem.accept
  dsimp only
  by_cases hc : JedecDRAMSystem.getChannel k.config b = JedecDRAMSystem.getChannel k.config a
  · rw [hc, Function.update_self, Controller.add_awaited]
  · have hne : a ≠ b := fun h => hc (h ▸ rfl)
    rw [Function.update_of_ne hc, if_neg fun h => hne h.1, Nat.add_zero]

/-- The addresses for which the read callback is called. -/
def reads (l : List Transaction) : List UInt64 := (l.filter fun t => t.isWrite = false).map Transaction.addr

theorem count_reads (l : List Transaction) (a : UInt64) :
    (reads l).count a = l.countP fun t => t.addr = a ∧ t.isWrite = false := by
  unfold reads
  rw [List.count, List.countP_map, List.countP_filter]
  refine List.countP_congr fun t _ => ?_
  simp

end

instance (k : StackConfig) : MemorySystem (Stack k) where
  clockTick s := (reads s.clockTick.1, s.clockTick.2)
  willAcceptTransaction s a := s.system.willAcceptTransaction k.config a false
  addTransaction s a := s.accept a false
  outstanding s a := s.owed false a
  outstanding_clockTick s a := by
    rw [count_reads]
    exact s.owed_clockTick false a
  outstanding_addTransaction s a b := by
    rw [owed_accept]
    simp

/-! ## The interface on the simulator -/

open MultiMemoryInterface (Reachable)

/-- In every run of the interface on stacks of the simulator, an entry of `id_map` belongs to a read that is queued,
crosses the switch, is pending or complete at the controller of its channel, or crosses back; no lookup fails. -/
theorem interface_waits_for_controllers (k : StackConfig) (useMemorySwitch : Bool)
    (m : MultiMemoryInterface (Stack k)) (h : Reachable useMemorySwitch m) (st : Port) (a : UInt64) :
    (m.idMap st).keyCount a = (m.readRequestQueue st).count a + m.memorySwitch.req.bound st a +
      (((m.memorySystemList st).system.ctrls (JedecDRAMSystem.getChannel k.config a)).pendingRdQ.keyCount a +
        ((m.memorySystemList st).system.ctrls (JedecDRAMSystem.getChannel k.config a)).returnQueue.countP
          fun t => t.addr = a ∧ t.isWrite = false) + m.memorySwitch.res.sent st a ∧
      m.assertFailed = false ∧ m.endDereferenced = false := by
  have hbalanced := MultiMemoryInterface.reachable_balanced h
  exact ⟨MultiMemoryInterface.reachable_keyCount h st a, hbalanced.assert_ok, hbalanced.end_ok⟩

def oneBank : StackConfig := ⟨Config.oneBank, Config.oneBank_mapped, rfl, by decide, by decide⟩

/-- A read of the first stack after two ticks. -/
def oneRead : MultiMemoryInterface (Stack oneBank) :=
  ([.registerId 0, .requestRead 0 64, .clockTick, .clockTick] : List MultiMemoryInterface.Op).foldl
    MultiMemoryInterface.exec (.new false fun _ => .new oneBank)

/-- The read is pending at the controller. -/
theorem interface_waits_for_controllers_oneRead : (oneRead.idMap 0).keyCount 64 = 1 ∧
    ((oneRead.memorySystemList 0).system.ctrls 0).pendingRdQ.keyCount 64 +
      ((oneRead.memorySystemList 0).system.ctrls 0).returnQueue.countP
        (fun t => t.addr = 64 ∧ t.isWrite = false) = 1 := by
  have hreach : Reachable false oneRead :=
    MultiMemoryInterface.reach_foldl _ (.new _ fun _ _ => rfl) (by decide +kernel)
  have hone : (oneRead.idMap 0).keyCount 64 = 1 := by decide +kernel
  have hqueue : (oneRead.readRequestQueue 0).count 64 + oneRead.memorySwitch.req.bound 0 64 = 0 ∧
      oneRead.memorySwitch.res.sent 0 64 = 0 := by decide +kernel
  have hwaits := (interface_waits_for_controllers oneBank false oneRead hreach 0 64).1
  have hchannel : JedecDRAMSystem.getChannel oneBank.config 64 = 0 := by decide
  rw [hchannel] at hwaits
  exact ⟨hone, by omega⟩

end Stack

end Dramsim3

end Anna
