import Anna.Dramsim3.DramSystem
import Anna.Dramsim3.TraceSound
import Mathlib.Algebra.BigOperators.Group.List.Basic

/-!
# Every transaction is answered once

A tick of the system calls back for what is complete and lets every controller
tick. In every run the transactions that were accepted are those that were
answered and those that a controller still owes, at the channel of their
address.
-/

namespace Anna

namespace Dramsim3

namespace JedecDRAMSystem

/-! ## The loops of a tick -/

theorem filter_eraseP_self {α : Type} (p : α → Bool) (l : List α) :
    (l.eraseP p).filter p = (l.filter p).tail ∧ (l.eraseP p).filter (fun x => !p x) = l.filter fun x => !p x := by
  induction l with
  | nil => exact ⟨rfl, rfl⟩
  | cons x l ih =>
    by_cases hx : p x = true
    · simp [hx]
    · simp [hx, ih]

/-- A controller without the transactions that are complete. -/
def returned (clk : Nat) (c : Controller) : Controller :=
  { c with returnQueue := c.returnQueue.filter fun t => !decide (t.completeCycle ≤ clk) }

theorem returnDone_eq (clk : Nat) {fuel : Nat} {c : Controller}
    (hfuel : (c.returnQueue.filter fun t => t.completeCycle ≤ clk).length ≤ fuel) :
    returnDone clk fuel c = (c.returnQueue.filter fun t => t.completeCycle ≤ clk, returned clk c) := by
  induction fuel generalizing c with
  | zero =>
    have hnil := List.eq_nil_of_length_eq_zero (Nat.le_zero.mp hfuel)
    rw [hnil]
    have hall : c.returnQueue.filter (fun t => !decide (t.completeCycle ≤ clk)) = c.returnQueue := by
      refine List.filter_eq_self.mpr fun t ht => ?_
      have hnot := List.filter_eq_nil_iff.mp hnil t ht
      simpa using hnot
    unfold returned
    rw [hall]
    rfl
  | succ fuel ih =>
    unfold returnDone Controller.returnDoneTrans
    cases hfind : c.returnQueue.find? fun t => decide (t.completeCycle ≤ clk) with
    | none =>
      have hnone := List.find?_eq_none.mp hfind
      have hnil : c.returnQueue.filter (fun t => t.completeCycle ≤ clk) = [] := List.filter_eq_nil_iff.mpr hnone
      have hsame : c.returnQueue.eraseP (fun t => t.completeCycle ≤ clk) = c.returnQueue :=
        List.eraseP_of_forall_not hnone
      have hall : c.returnQueue.filter (fun t => !decide (t.completeCycle ≤ clk)) = c.returnQueue :=
        List.filter_eq_self.mpr fun t ht => by simpa using hnone t ht
      dsimp only
      unfold returned
      rw [hsame, hnil, hall]
    | some t =>
      obtain ⟨hrest, hkept⟩ := filter_eraseP_self (fun t => decide (t.completeCycle ≤ clk)) c.returnQueue
      have hhead : (c.returnQueue.filter fun t => t.completeCycle ≤ clk).head? = some t := by
        rw [List.head?_filter]
        exact hfind
      obtain ⟨rest, hcons⟩ := List.head?_eq_some_iff.mp hhead
      have hlen : (({ c with returnQueue := c.returnQueue.eraseP fun t => t.completeCycle ≤ clk } :
          Controller).returnQueue.filter fun t => t.completeCycle ≤ clk).length ≤ fuel := by
        dsimp only
        rw [hrest, hcons, List.tail_cons]
        rw [hcons, List.length_cons] at hfuel
        omega
      dsimp only
      rw [ih hlen]
      unfold returned
      dsimp only
      rw [hrest, hkept, hcons, List.tail_cons]

theorem returnAll_eq (s : JedecDRAMSystem) {channels : List Int} (hnodup : channels.Nodup) :
    s.returnAll channels =
      (channels.flatMap fun i => (s.ctrls i).returnQueue.filter fun t => t.completeCycle ≤ s.clk,
        ⟨s.clk, fun i => if i ∈ channels then returned s.clk (s.ctrls i) else s.ctrls i⟩) := by
  induction channels generalizing s with
  | nil => rfl
  | cons i channels ih =>
    obtain ⟨hi, hnodup⟩ := List.nodup_cons.mp hnodup
    have hdone := returnDone_eq s.clk (c := s.ctrls i) (List.length_filter_le _ _)
    unfold returnAll
    dsimp only
    rw [hdone, ih _ hnodup]
    dsimp only
    congr 1
    · rw [List.flatMap_cons]
      congr 1
      refine List.flatMap_congr fun j hj => ?_
      rw [Function.update_of_ne (ne_of_mem_of_not_mem hj hi)]
    · congr 1
      funext j
      by_cases hj : j = i
      · subst hj
        simp [hi]
      · simp [hj]

theorem tickAll_spec {config : Config} {s s' : JedecDRAMSystem} {channels : List Int} (hnodup : channels.Nodup)
    (h : s.tickAll config channels = .ok s') : s'.clk = s.clk ∧
      (∀ i ∈ channels, (s.ctrls i).clockTick config = .ok (s'.ctrls i)) ∧
      ∀ i, i ∉ channels → s'.ctrls i = s.ctrls i := by
  induction channels generalizing s with
  | nil =>
    obtain rfl := Except.ok.inj h
    exact ⟨rfl, fun _ hi => absurd hi List.not_mem_nil, fun _ _ => rfl⟩
  | cons i channels ih =>
    obtain ⟨hi, hnodup⟩ := List.nodup_cons.mp hnodup
    obtain ⟨c, hc, h⟩ := bind_eq_ok.mp h
    obtain ⟨hclk, hin, hout⟩ := ih hnodup h
    dsimp only at hclk hin hout
    refine ⟨hclk, fun j hj => ?_, fun j hj => ?_⟩
    · rcases List.mem_cons.mp hj with rfl | hj
      · rw [hout j hi, Function.update_self]
        exact hc
      · rw [← hin j hj, Function.update_of_ne (ne_of_mem_of_not_mem hj hi)]
    · obtain ⟨hne, hj⟩ := not_or.mp (mt List.mem_cons.mpr hj)
      rw [hout j hj, Function.update_of_ne hne]

theorem tickAll_ok {config : Config} {s : JedecDRAMSystem} {channels : List Int} (hnodup : channels.Nodup)
    (h : ∀ i ∈ channels, ∃ c, (s.ctrls i).clockTick config = .ok c) : ∃ s', s.tickAll config channels = .ok s' := by
  induction channels generalizing s with
  | nil => exact ⟨_, rfl⟩
  | cons i channels ih =>
    obtain ⟨hi, hnodup⟩ := List.nodup_cons.mp hnodup
    obtain ⟨c, hc⟩ := h i List.mem_cons_self
    unfold tickAll
    rw [ok_bind hc]
    refine ih hnodup fun j hj => ?_
    dsimp only
    rw [Function.update_of_ne (ne_of_mem_of_not_mem hj hi)]
    exact h j (List.mem_cons_of_mem _ hj)

/-- What a tick of the system does: the controllers tick without the transactions that it calls back for. -/
structure Ticked (config : Config) (s : JedecDRAMSystem) (l : List Transaction) (s' : JedecDRAMSystem) : Prop where
  clk : s'.clk = s.clk + 1
  answered : l = (upTo config.channels).flatMap fun i =>
    (s.ctrls i).returnQueue.filter fun t => t.completeCycle ≤ s.clk
  channel : ∀ i ∈ upTo config.channels, (returned s.clk (s.ctrls i)).clockTick config = .ok (s'.ctrls i)
  others : ∀ i, i ∉ upTo config.channels → s'.ctrls i = s.ctrls i

section
variable {config : Config} {s s' : JedecDRAMSystem} {l : List Transaction}

theorem clockTick_spec (h : s.clockTick config = .ok (l, s')) : Ticked config s l s' := by
  obtain ⟨s₁, htick, h⟩ := bind_eq_ok.mp h
  split at h
  · cases h
  obtain ⟨rfl, rfl⟩ := Prod.mk.inj (pure_eq_ok.mp h)
  rw [returnAll_eq s (nodup_upTo _)] at htick ⊢
  obtain ⟨hclk, hin, hout⟩ := tickAll_spec (nodup_upTo _) htick
  dsimp only at hclk hin hout
  refine ⟨congrArg (· + 1) hclk, rfl, fun i hi => ?_, fun i hi => ?_⟩
  · rw [← hin i hi, if_pos hi]
  · exact (hout i hi).trans (if_neg hi)

theorem returnAll_tickAll_ok
    (h : ∀ i ∈ upTo config.channels, ∃ c, (returned s.clk (s.ctrls i)).clockTick config = .ok c) :
    ∃ s₁, (s.returnAll (upTo config.channels)).2.tickAll config (upTo config.channels) = .ok s₁ := by
  rw [returnAll_eq s (nodup_upTo _)]
  refine tickAll_ok (nodup_upTo _) fun i hi => ?_
  dsimp only
  rw [if_pos hi]
  exact h i hi

theorem clockTick_ok (hepoch : config.epochPeriod ≠ 0)
    (h : ∀ i ∈ upTo config.channels, ∃ c, (returned s.clk (s.ctrls i)).clockTick config = .ok c) :
    ∃ l s', s.clockTick config = .ok (l, s') := by
  obtain ⟨s₁, hs₁⟩ := returnAll_tickAll_ok h
  unfold clockTick
  dsimp only
  rw [ok_bind hs₁, if_neg hepoch]
  exact ⟨_, _, rfl⟩

theorem clockTick_epoch (hepoch : config.epochPeriod = 0)
    (h : ∀ i ∈ upTo config.channels, ∃ c, (returned s.clk (s.ctrls i)).clockTick config = .ok c) :
    s.clockTick config = .error .divisionByZero := by
  obtain ⟨s₁, hs₁⟩ := returnAll_tickAll_ok h
  unfold clockTick
  dsimp only
  rw [ok_bind hs₁, if_pos hepoch]
  rfl

theorem clockTick_interval (hinterval : Refresh.refreshInterval config = 0) (hchannels : upTo config.channels ≠ []) :
    s.clockTick config = .error .divisionByZero := by
  obtain ⟨i, channels, hcons⟩ := List.exists_cons_of_ne_nil hchannels
  have hzero : ∀ c : Controller, c.clockTick config = .error .divisionByZero := by
    intro c
    unfold Controller.clockTick Refresh.clockTick
    rw [if_pos hinterval]
    rfl
  have htick : ∀ s : JedecDRAMSystem, s.tickAll config (i :: channels) = .error .divisionByZero := by
    intro s
    unfold tickAll
    rw [hzero]
    rfl
  unfold clockTick
  dsimp only
  rw [hcons, htick]
  rfl

end

/-! ## Runs -/

inductive Event
  | accepted (clk : Nat) (addr : UInt64) (isWrite : Bool)
  | answered (clk : Nat) (t : Transaction)
  deriving DecidableEq, Repr

/-- The states of all runs from the start, with what happened: transactions are added when the system accepts them. -/
inductive Reach (config : Config) : List Event → JedecDRAMSystem → Prop
  | new : Reach config [] .new
  | add {history s s'} (a : UInt64) (w : Bool) : Reach config history s → s.addTransaction config a w = .ok s' →
      Reach config (history ++ [.accepted s.clk a w]) s'
  | tick {history s l s'} : Reach config history s → s.clockTick config = .ok (l, s') →
      Reach config (history ++ l.map (.answered s.clk)) s'

inductive Op
  | add (a : UInt64) (w : Bool)
  | tick
  deriving DecidableEq, Repr

def exec (config : Config) (r : List Event × JedecDRAMSystem) : Op → Except Exit (List Event × JedecDRAMSystem)
  | .add a w => do
    let s ← r.2.addTransaction config a w
    return (r.1 ++ [.accepted r.2.clk a w], s)
  | .tick => do
    let t ← r.2.clockTick config
    return (r.1 ++ t.1.map (.answered r.2.clk), t.2)

def replay (config : Config) : List Op → List Event × JedecDRAMSystem → Except Exit (List Event × JedecDRAMSystem)
  | [], r => .ok r
  | op :: ops, r => do
    let r ← exec config r op
    replay config ops r

def Event.isAccepted (w : Bool) (a : UInt64) : Event → Bool
  | .accepted _ addr isWrite => addr = a ∧ isWrite = w
  | .answered _ _ => false

def Event.isAnswered (w : Bool) (a : UInt64) : Event → Bool
  | .accepted _ _ _ => false
  | .answered _ t => t.addr = a ∧ t.isWrite = w

section
variable {config : Config} {history : List Event} {s s' : JedecDRAMSystem} {l : List Transaction}

theorem addTransaction_eq {a : UInt64} {w : Bool} (h : s.addTransaction config a w = .ok s') :
    (s.ctrls (getChannel config a)).willAcceptTransaction config w = true ∧ s' = s.accept config a w := by
  unfold addTransaction at h
  split at h
  · rename_i hacc
    exact ⟨hacc, (Except.ok.inj h).symm⟩
  · cases h

theorem Reach.replay {ops : List Op} {r r' : List Event × JedecDRAMSystem} (h : Reach config r.1 r.2)
    (hops : replay config ops r = .ok r') : Reach config r'.1 r'.2 := by
  induction ops generalizing r with
  | nil =>
    obtain rfl := Except.ok.inj hops
    exact h
  | cons op ops ih =>
    obtain ⟨r₁, hexec, hops⟩ := bind_eq_ok.mp hops
    refine ih ?_ hops
    cases op with
    | add a w =>
      obtain ⟨s, hadd, hexec⟩ := bind_eq_ok.mp hexec
      obtain rfl := pure_eq_ok.mp hexec
      exact h.add a w hadd
    | tick =>
      obtain ⟨t, htick, hexec⟩ := bind_eq_ok.mp hexec
      obtain rfl := pure_eq_ok.mp hexec
      exact h.tick htick

theorem Reach.controller (h : Reach config history s) (i : Int) : Controller.Reach config (s.ctrls i) := by
  have hreturned : ∀ (clk fuel : Nat) {c : Controller}, Controller.Reach config c →
      Controller.Reach config (returnDone clk fuel c).2 := by
    intro clk fuel
    induction fuel with
    | zero => exact fun hc => hc
    | succ fuel ih =>
      intro c hc
      have hdone := hc.done clk
      unfold returnDone
      split
      · rename_i heq
        rw [heq] at hdone
        exact hdone
      · rename_i heq
        rw [heq] at hdone
        exact ih hdone
  induction h with
  | new => exact .new
  | @add _ s _ a w _ hadd ih =>
    obtain ⟨hacc, rfl⟩ := addTransaction_eq hadd
    unfold accept
    dsimp only
    by_cases hi : i = getChannel config a
    · subst hi
      rw [Function.update_self]
      exact ih.add ⟨a, 0, 0, w⟩ hacc
    · rw [Function.update_of_ne hi]
      exact ih
  | @tick _ s _ _ _ htick ih =>
    have hticked := clockTick_spec htick
    by_cases hi : i ∈ upTo config.channels
    · refine Controller.Reach.tick ?_ (hticked.channel i hi)
      have hdone := hreturned s.clk (s.ctrls i).returnQueue.length ih
      rw [returnDone_eq s.clk (List.length_filter_le _ _)] at hdone
      exact hdone
    · rw [hticked.others i hi]
      exact ih

theorem mem_upTo_channel (hmap : config.Mapped) (a : UInt64) : getChannel config a ∈ upTo config.channels :=
  mem_upTo.mpr (hmap.channel a)

/-- A transaction is only ever found at the controller of its channel. -/
structure Routed (config : Config) (s : JedecDRAMSystem) : Prop where
  formed : ∀ i, Controller.Formed config (s.ctrls i)
  routed : ∀ {i w a}, 0 < (s.ctrls i).awaited w a → getChannel config a = i

theorem Routed.complete (h : Routed config s) {i : Int} {t : Transaction} (ht : t ∈ (s.ctrls i).returnQueue) :
    getChannel config t.addr = i := by
  have hpos : 0 < (s.ctrls i).returnQueue.countP fun u => u.addr = t.addr ∧ u.isWrite = t.isWrite :=
    List.countP_pos_iff.mpr ⟨t, ht, decide_eq_true ⟨rfl, rfl⟩⟩
  refine h.routed (w := t.isWrite) ?_
  unfold Controller.awaited
  omega

theorem routed_new (hmap : config.Mapped) : Routed config .new := by
  refine ⟨fun _ => (Controller.sound_new hmap).formed, fun {i w a} ha => ?_⟩
  have hzero : (JedecDRAMSystem.new.ctrls i).awaited w a = 0 := by cases w <;> rfl
  omega

theorem Routed.accept (h : Routed config s) (b : UInt64) (v : Bool) : Routed config (s.accept config b v) := by
  unfold JedecDRAMSystem.accept
  refine ⟨fun i => ?_, fun {i w a} ha => ?_⟩
  · dsimp only
    by_cases hi : i = getChannel config b
    · subst hi
      rw [Function.update_self]
      exact (h.formed _).add _
    · rw [Function.update_of_ne hi]
      exact h.formed i
  · dsimp only at ha
    by_cases hi : i = getChannel config b
    · subst hi
      rw [Function.update_self, Controller.add_awaited] at ha
      by_cases hab : b = a
      · rw [hab]
      · rw [if_neg fun h => hab h.1] at ha
        exact h.routed ha
    · rw [Function.update_of_ne hi] at ha
      exact h.routed ha

theorem Routed.returned (h : Routed config s) (clk : Nat) (i : Int) :
    Controller.Formed config (returned clk (s.ctrls i)) :=
  { h.formed i with }

theorem Routed.tick (h : Routed config s) (ht : Ticked config s l s') : Routed config s' := by
  refine ⟨fun i => ?_, fun {i w a} ha => ?_⟩
  · by_cases hi : i ∈ upTo config.channels
    · exact Controller.Atoms.invariant (fun hc step => hc.atom step) (h.returned s.clk i)
        (Controller.clockTick_atoms (ht.channel i hi))
    · rw [ht.others i hi]
      exact h.formed i
  · by_cases hi : i ∈ upTo config.channels
    · rw [Controller.clockTick_awaited (h.returned s.clk i) (ht.channel i hi)] at ha
      refine h.routed (w := w) (Nat.lt_of_lt_of_le ha ?_)
      exact Nat.add_le_add_left (List.Sublist.countP_le List.filter_sublist) _
    · rw [ht.others i hi] at ha
      exact h.routed ha

/-- Of the transactions of an address a tick answers those that are complete at the controller of its channel. -/
theorem Routed.answered (hmap : config.Mapped) (h : Routed config s) (ht : Ticked config s l s') (w : Bool)
    (a : UInt64) : (s.ctrls (getChannel config a)).awaited w a =
      (l.countP fun t => t.addr = a ∧ t.isWrite = w) + (s'.ctrls (getChannel config a)).awaited w a := by
  have hother : ∀ i, i ≠ getChannel config a → i ∈ upTo config.channels →
      ((s.ctrls i).returnQueue.filter fun t => t.completeCycle ≤ s.clk).countP
        (fun t => t.addr = a ∧ t.isWrite = w) = 0 := by
    intro i hi _
    by_contra hpos
    obtain ⟨u, hu, haddr⟩ := List.countP_pos_iff.mp (Nat.pos_of_ne_zero hpos)
    have hchannel := h.complete (List.mem_of_mem_filter hu)
    rw [(decide_eq_true_iff.mp haddr).1] at hchannel
    exact hi hchannel.symm
  have hcount : (upTo config.channels).count (getChannel config a) = 1 :=
    List.count_eq_one_of_mem (nodup_upTo _) (mem_upTo_channel hmap a)
  have hsum := List.sum_map_eq_nsmul_single (l := upTo config.channels) (getChannel config a)
    (fun i => ((s.ctrls i).returnQueue.filter fun t => t.completeCycle ≤ s.clk).countP
      (fun t => t.addr = a ∧ t.isWrite = w)) hother
  rw [hcount, one_nsmul] at hsum
  rw [Controller.clockTick_awaited (h.returned s.clk _) (ht.channel _ (mem_upTo_channel hmap a)), ht.answered,
    List.countP_flatMap]
  unfold Function.comp
  rw [hsum]
  unfold Controller.awaited JedecDRAMSystem.returned
  dsimp only
  rw [Nat.add_left_comm, ← List.countP_eq_countP_filter_add]

theorem Reach.routed (hmap : config.Mapped) (h : Reach config history s) : Routed config s := by
  induction h with
  | new => exact routed_new hmap
  | add a w _ hadd ih =>
    obtain ⟨-, rfl⟩ := addTransaction_eq hadd
    exact ih.accept a w
  | tick _ htick ih => exact ih.tick (clockTick_spec htick)

theorem Reach.balance (hmap : config.Mapped) (h : Reach config history s) (w : Bool) (a : UInt64) :
    history.countP (Event.isAccepted w a) =
      history.countP (Event.isAnswered w a) + (s.ctrls (getChannel config a)).awaited w a := by
  induction h with
  | new => cases w <;> rfl
  | @add history s _ b v _ hadd ih =>
    obtain ⟨-, rfl⟩ := addTransaction_eq hadd
    rw [List.countP_append, List.countP_append, List.countP_singleton, List.countP_singleton, ih]
    unfold accept
    dsimp only [Event.isAccepted, Event.isAnswered]
    by_cases hb : getChannel config a = getChannel config b
    · rw [hb, Function.update_self, Controller.add_awaited]
      simp only [decide_eq_true_iff, Bool.false_eq_true, if_false]
      omega
    · have hne : b ≠ a := fun h => hb (h ▸ rfl)
      rw [Function.update_of_ne hb]
      simp [hne]
  | @tick history s l _ h htick ih =>
    have hanswered := (h.routed hmap).answered hmap (clockTick_spec htick) w a
    have hnone : (l.map (Event.answered s.clk)).countP (Event.isAccepted w a) = 0 := by
      rw [List.countP_map]
      exact List.countP_eq_zero.mpr fun t _ hc => by cases hc
    have hall : (l.map (Event.answered s.clk)).countP (Event.isAnswered w a) =
        l.countP fun t => t.addr = a ∧ t.isWrite = w := by
      rw [List.countP_map]
      rfl
    rw [List.countP_append, List.countP_append, hnone, hall, ih, hanswered]
    omega

theorem Reach.clk_eq (h : Reach config history s) {i : Int} (hi : i ∈ upTo config.channels) :
    (s.ctrls i).clk = s.clk := by
  induction h with
  | new => rfl
  | @add _ s _ a w _ hadd ih =>
    obtain ⟨-, rfl⟩ := addTransaction_eq hadd
    unfold accept
    dsimp only
    by_cases hc : i = getChannel config a
    · subst hc
      rw [Function.update_self, Controller.addTransaction_clk]
      exact ih
    · rw [Function.update_of_ne hc]
      exact ih
  | @tick _ s _ _ _ htick ih =>
    have hticked := clockTick_spec htick
    rw [(Controller.clockTick_clocks (hticked.channel i hi)).1, hticked.clk]
    exact congrArg (· + 1) ih

theorem Reach.past (h : Reach config history s) {i : Nat} {a : UInt64} {w : Bool} (hi : .accepted i a w ∈ history) :
    i ≤ s.clk := by
  induction h with
  | new => cases hi
  | add b v _ hadd ih =>
    obtain ⟨-, rfl⟩ := addTransaction_eq hadd
    rcases List.mem_append.mp hi with hi | hi
    · exact ih hi
    · obtain ⟨rfl, -, -⟩ := Event.accepted.inj (List.mem_singleton.mp hi)
      exact Nat.le_refl _
  | tick _ htick ih =>
    rw [(clockTick_spec htick).clk]
    rcases List.mem_append.mp hi with hi | hi
    · exact Nat.le_succ_of_le (ih hi)
    · obtain ⟨t, -, heq⟩ := List.mem_map.mp hi
      cases heq

theorem Reach.trace_lt (hmap : config.Mapped) (h : Reach config history s) (a : UInt64) :
    ∀ x ∈ (s.ctrls (getChannel config a)).trace, x.1 < s.clk := by
  rw [← h.clk_eq (mem_upTo_channel hmap a)]
  exact (h.controller _).bus.1

theorem Ticked.trace (hmap : config.Mapped) (ht : Ticked config s l s') (h : Reach config history s) (a : UInt64) :
    ∃ more : List (Nat × Command), (s'.ctrls (getChannel config a)).trace =
      (s.ctrls (getChannel config a)).trace ++ more ∧ ∀ x ∈ more, x.1 = s.clk := by
  have hi := mem_upTo_channel hmap a
  obtain ⟨cmds, -, htrace⟩ := Controller.clockTick_bus (ht.channel _ hi)
  refine ⟨_, htrace, fun x hx => ?_⟩
  obtain ⟨cmd, -, rfl⟩ := List.mem_map.mp hx
  exact h.clk_eq hi

/-! ## Answers on time -/

theorem accept_trace (s : JedecDRAMSystem) (a : UInt64) (w : Bool) (i : Int) :
    ((s.accept config a w).ctrls i).trace = (s.ctrls i).trace := by
  unfold accept
  dsimp only
  by_cases hi : i = getChannel config a
  · rw [hi, Function.update_self, Controller.addTransaction_trace]
  · rw [Function.update_of_ne hi]

/-- A write, or a read that comes when a write to its address is pending: one that was accepted in cycle `i`, and
whose command has not been issued since. -/
def AtOnce (before : List Event) (trace : List (Nat × Command)) (t : Transaction) : Prop :=
  t.isWrite = true ∨ ∃ i, .accepted i t.addr true ∈ before ∧
    ∀ x ∈ trace, x.2.cmdType.isWrite = true → x.2.hexAddr = t.addr → x.1 < i ∨ t.addedCycle ≤ x.1

/-- What the transaction was when it was accepted. -/
def Found (history : List Event) (trace : List (Nat × Command)) (atOnce : Bool) (t : Transaction) : Prop :=
  ∃ before after, history = before ++ .accepted t.addedCycle t.addr t.isWrite :: after ∧
    (AtOnce before trace t ↔ atOnce = true)

theorem Found.grow {trace : List (Nat × Command)} {b : Bool} {t : Transaction} (h : Found history trace b t)
    (more : List Event) : Found (history ++ more) trace b t := by
  obtain ⟨before, after, heq, hatOnce⟩ := h
  exact ⟨before, after ++ more, by rw [heq, List.append_assoc, List.cons_append], hatOnce⟩

theorem Found.trace {trace more : List (Nat × Command)} {b : Bool} {t : Transaction} (h : Found history trace b t)
    (hmore : ∀ x ∈ more, t.addedCycle ≤ x.1) : Found history (trace ++ more) b t := by
  obtain ⟨before, after, heq, hatOnce⟩ := h
  refine ⟨before, after, heq, Iff.trans (or_congr_right (exists_congr fun i => and_congr_right fun _ => ?_)) hatOnce⟩
  refine ⟨fun hall x hx => hall x (List.mem_append_left _ hx), fun hall x hx hwrite haddr => ?_⟩
  rcases List.mem_append.mp hx with hx | hx
  · exact hall x hx hwrite haddr
  · exact Or.inr (hmore x hx)

theorem Found.tick (h : Reach config history s) {a : UInt64} {more : List (Nat × Command)}
    (hmore : ∀ x ∈ more, x.1 = s.clk) {b : Bool} {t : Transaction}
    (hfound : Found history (s.ctrls (getChannel config a)).trace b t) :
    Found history ((s.ctrls (getChannel config a)).trace ++ more) b t := by
  refine hfound.trace fun x hx => ?_
  obtain ⟨before, after, heq, -⟩ := hfound
  rw [hmore x hx]
  exact h.past (heq ▸ List.mem_append_right _ List.mem_cons_self)

theorem Reach.written (hmap : config.Mapped) (h : Reach config history s) (a : UInt64) :
    Controller.Written (fun i => .accepted i a true ∈ history) a (s.ctrls (getChannel config a)) := by
  induction h with
  | new =>
    exact ⟨fun _ h => absurd h List.not_mem_nil, fun h => absurd h (Nat.lt_irrefl 0),
      fun ⟨_, h, _⟩ => absurd h List.not_mem_nil⟩
  | @add history s _ b v h hadd ih =>
    obtain ⟨-, rfl⟩ := addTransaction_eq hadd
    have hclk := h.clk_eq (mem_upTo_channel hmap a)
    have hsince : ∀ i, (.accepted i a true ∈ history ++ [.accepted s.clk b v] ↔
        .accepted i a true ∈ history ∨ i = s.clk ∧ v = true ∧ b = a) := by
      intro i
      simp only [List.mem_append, List.mem_singleton, Event.accepted.injEq]
      exact or_congr_right ⟨fun ⟨hi, hb, hv⟩ => ⟨hi, hv.symm, hb.symm⟩, fun ⟨hi, hv, hb⟩ => ⟨hi, hb.symm, hv.symm⟩⟩
    unfold accept
    dsimp only
    by_cases hc : getChannel config a = getChannel config b
    · rw [hc] at ih hclk ⊢
      rw [Function.update_self]
      refine ih.add ?_ ⟨b, 0, 0, v⟩ fun i => ?_
      · rw [← hc] at hclk ⊢
        rw [hclk]
        exact h.trace_lt hmap a
      · rw [hclk]
        exact hsince i
    · have hne : b ≠ a := fun h => hc (h ▸ rfl)
      rw [Function.update_of_ne hc]
      have hsame : (fun i => .accepted i a true ∈ history ++ [.accepted s.clk b v]) =
          fun i => .accepted i a true ∈ history := by
        funext i
        exact propext ((hsince i).trans (or_iff_left fun h => hne h.2.2))
      rw [hsame]
      exact ih
  | @tick history s l _ h htick ih =>
    obtain ⟨hformed, hlined⟩ := (h.controller (getChannel config a)).lined hmap
    have hsame : (fun i => .accepted i a true ∈ history ++ l.map (.answered s.clk)) =
        fun i => .accepted i a true ∈ history := by
      funext i
      simp
    rw [hsame]
    have hreturned : Controller.Written (fun i => .accepted i a true ∈ history) a
        (returned s.clk (s.ctrls (getChannel config a))) := ⟨ih.past, ih.pending⟩
    exact hreturned.tick ((h.routed hmap).returned s.clk _) ⟨hlined.order, hlined.read, hlined.write, hlined.once⟩
      ((clockTick_spec htick).channel _ (mem_upTo_channel hmap a))

/-- A transaction is found to be what the queue of the pending writes says. -/
theorem Reach.found (hmap : config.Mapped) (h : Reach config history s) (a : UInt64) (w b : Bool)
    (hb : w = true ∨ 0 < (s.ctrls (getChannel config a)).pendingWrQ.keyCount a ↔ b = true) :
    Found (history ++ [.accepted s.clk a w]) (s.ctrls (getChannel config a)).trace b ⟨a, s.clk, 0, w⟩ := by
  refine ⟨history, [], rfl, Iff.trans (or_congr_right ?_) hb⟩
  rw [(h.written hmap a).pending]
  refine exists_congr fun i => and_congr_right fun _ => ⟨fun hall x hx hwrite haddr => ?_, fun hall x hx hwrite haddr =>
    Or.inl (hall x hx hwrite haddr)⟩
  have hlt := h.trace_lt hmap a x hx
  exact (hall x hx hwrite haddr).resolve_right (Nat.not_le_of_gt hlt)

theorem Reach.punctual (hmap : config.Mapped) (hdelay : 0 < config.readDelay) (h : Reach config history s)
    (hbound : (s.clk : Int) + config.readDelay < 2 ^ 64) (a : UInt64) :
    Controller.Punctual config (Found history (s.ctrls (getChannel config a)).trace) s.clk
      (s.ctrls (getChannel config a)) := by
  have hi := mem_upTo_channel hmap a
  induction h with
  | new => exact ⟨Nat.zero_le _, fun _ h => absurd h List.not_mem_nil, fun _ h => absurd h List.not_mem_nil,
      fun _ h => absurd h List.not_mem_nil, fun _ h => absurd h List.not_mem_nil⟩
  | @add history s _ b v h hadd ih =>
    obtain ⟨-, rfl⟩ := addTransaction_eq hadd
    have hbefore := (ih hbound).mono fun _ t (hfound : Found _ _ _ t) => hfound.grow [.accepted s.clk b v]
    unfold accept
    dsimp only
    by_cases hc : getChannel config a = getChannel config b
    · rw [hc, Function.update_self, Controller.addTransaction_trace]
      rw [hc] at hbefore
      have hclk := h.clk_eq (mem_upTo_channel hmap b)
      refine hbefore.add (fun _ h => h) hclk.symm (hclk ▸ h.trace_lt hmap b) ⟨b, 0, 0, v⟩ fun atOnce hatOnce => ?_
      rw [hclk]
      exact h.found hmap b v atOnce hatOnce
    · rw [Function.update_of_ne hc]
      exact hbefore
  | @tick history s l s' h htick ih =>
    have hticked := clockTick_spec htick
    have hclk := hticked.clk
    have hformed := (h.routed hmap).returned s.clk (getChannel config a)
    have hbefore := ih (by omega)
    obtain ⟨more, htrace, hmore⟩ := hticked.trace hmap h a
    have hreturned : Controller.Punctual config
        (Found (history ++ l.map (.answered s.clk)) (s'.ctrls (getChannel config a)).trace) (s.clk + 1)
        (returned s.clk (s.ctrls (getChannel config a))) := by
      have hfound := hbefore.mono fun b t (hfound : Found _ _ b t) =>
        (Found.tick h hmore hfound).grow (l.map (.answered s.clk))
      rw [htrace]
      refine ⟨Nat.le_of_eq (congrArg (· + 1) (h.clk_eq hi).symm), fun t ht => ?_, hfound.past,
        fun t ht => hfound.explained t (List.mem_of_mem_filter ht), hfound.waits⟩
      have hnot := (List.mem_filter.mp ht).2
      exact Nat.succ_le_of_lt (by simpa using hnot)
    have hafter := (h.tick htick).clk_eq hi
    rw [hclk]
    exact hreturned.tick hdelay (fun _ h => h) hformed (hticked.channel _ hi) (by omega)

/-- A transaction that is called back for is complete in that very cycle. -/
theorem Reach.explained (hmap : config.Mapped) (hdelay : 0 < config.readDelay) (h : Reach config history s)
    (hbound : (s.clk : Int) + config.readDelay < 2 ^ 64) {clk : Nat} {t : Transaction}
    (ht : .answered clk t ∈ history) : t.completeCycle = clk ∧
      Controller.Explained config (Found history (s.ctrls (getChannel config t.addr)).trace)
        (s.ctrls (getChannel config t.addr)).trace t := by
  induction h with
  | new => cases ht
  | @add _ s _ a w h hadd ih =>
    obtain ⟨-, rfl⟩ := addTransaction_eq hadd
    rcases List.mem_append.mp ht with ht | ht
    · obtain ⟨hclk, hexplained⟩ := ih hbound ht
      refine ⟨hclk, ?_⟩
      rw [accept_trace]
      exact hexplained.mono fun b (hfound : Found _ _ b t) => hfound.grow [.accepted s.clk a w]
    · cases List.mem_singleton.mp ht
  | @tick history s l s' h htick ih =>
    have hticked := clockTick_spec htick
    have hclk := hticked.clk
    have hbefore : (s.clk : Int) + config.readDelay < 2 ^ 64 := by omega
    obtain ⟨more, htrace, hmore⟩ := hticked.trace hmap h t.addr
    have hpast := h.trace_lt hmap t.addr
    -- what explained an answer before the tick still does
    have hkept : Controller.Explained config (Found history (s.ctrls (getChannel config t.addr)).trace)
        (s.ctrls (getChannel config t.addr)).trace t →
          Controller.Explained config (Found (history ++ l.map (.answered s.clk)) (s'.ctrls (getChannel config t.addr)).trace)
            (s'.ctrls (getChannel config t.addr)).trace t := by
      intro hexplained
      rw [htrace]
      exact hexplained.append (fun b (hfound : Found _ _ b t) => (Found.tick h hmore hfound).grow _)
        (fun x hx => Nat.le_of_lt (hpast x hx)) fun x hx => Nat.le_of_eq (hmore x hx).symm
    rcases List.mem_append.mp ht with ht | ht
    · obtain ⟨hcomplete, hexplained⟩ := ih hbefore ht
      exact ⟨hcomplete, hkept hexplained⟩
    · obtain ⟨u, hu, heq⟩ := List.mem_map.mp ht
      obtain ⟨rfl, rfl⟩ := Event.answered.inj heq
      rw [hticked.answered] at hu
      obtain ⟨i, hi, hu⟩ := List.mem_flatMap.mp hu
      obtain ⟨hmem, hdone⟩ := List.mem_filter.mp hu
      obtain rfl := (h.routed hmap).complete hmem
      have hpunctual := h.punctual hmap hdelay hbefore u.addr
      refine ⟨Nat.le_antisymm (decide_eq_true_iff.mp hdone) (hpunctual.due u hmem), ?_⟩
      exact hkept (hpunctual.explained u hmem)

theorem Reach.channel_ok (hmap : config.Mapped) (hsref : config.enableSelfRefresh = false)
    (hinterval : Refresh.refreshInterval config ≠ 0) (h : Reach config history s) (i : Int) :
    ∃ c, (returned s.clk (s.ctrls i)).clockTick config = .ok c := by
  have hsound := ((h.controller i).sound hmap hsref).returned
    ((s.ctrls i).returnQueue.filter fun t => !decide (t.completeCycle ≤ s.clk))
  obtain ⟨c', hc', -⟩ := Controller.clockTick_ok hmap hsref (Nat.pos_of_ne_zero hinterval) hsound
  exact ⟨c', hc'⟩

theorem Reach.tick_ok (hmap : config.Mapped) (hsref : config.enableSelfRefresh = false)
    (hinterval : Refresh.refreshInterval config ≠ 0) (hepoch : config.epochPeriod ≠ 0) (h : Reach config history s) :
    ∃ l s', s.clockTick config = .ok (l, s') :=
  clockTick_ok hepoch fun i _ => h.channel_ok hmap hsref hinterval i

end

theorem oneBank_read : ∃ s, replay Config.oneBank [.add 320 false, .tick, .tick, .tick, .tick, .tick] ([], .new) =
    .ok ([.accepted 0 320 false, .answered 4 ⟨320, 0, 4, false⟩], s) := ⟨_, rfl⟩

/-- In every run, whatever was accepted has been answered once or is still owed by the controller of its channel;
nothing else is answered. -/
theorem transactions_answered_once (config : Config) (hmap : config.Mapped) (history : List Event)
    (s : JedecDRAMSystem) (h : Reach config history s) (w : Bool) (a : UInt64) :
    history.countP (Event.isAccepted w a) =
      history.countP (Event.isAnswered w a) + (s.ctrls (getChannel config a)).awaited w a :=
  h.balance hmap w a

/-- A read of the single bank is answered four cycles after it was accepted. -/
theorem transactions_answered_once_read : ∃ s, replay Config.oneBank [.add 320 false, .tick, .tick, .tick, .tick, .tick]
      ([], .new) = .ok ([.accepted 0 320 false, .answered 4 ⟨320, 0, 4, false⟩], s) ∧
    1 = 1 + (s.ctrls (getChannel Config.oneBank 320)).awaited false 320 := by
  obtain ⟨s, hs⟩ := oneBank_read
  exact ⟨s, hs, transactions_answered_once Config.oneBank Config.oneBank_mapped _ s (Reach.replay .new hs) false 320⟩

/-- Cycle `clk` is that of an answer: after a transaction that is answered at once, and `read_delay` cycles after the
first read command for its address since it came for every other one. -/
def OnTime (config : Config) (history : List Event) (s : JedecDRAMSystem) (clk : Nat) (t : Transaction) : Prop :=
  ∃ before after, history = before ++ .accepted t.addedCycle t.addr t.isWrite :: after ∧
    (AtOnce before (s.ctrls (getChannel config t.addr)).trace t ∧ clk = t.addedCycle + 1 ∨
      ¬ AtOnce before (s.ctrls (getChannel config t.addr)).trace t ∧ ∃ i,
        Controller.FirstRead (s.ctrls (getChannel config t.addr)).trace t i ∧ (clk : Int) = i + config.readDelay)

/-- Without self-refresh the only exits of the simulator that a run can end at are the two divisions: a tick fails
exactly if the refresh interval or the period of the outputs is 0. -/
theorem no_run_exits (config : Config) (hmap : config.Mapped) (hsref : config.enableSelfRefresh = false)
    (history : List Event) (s : JedecDRAMSystem) (h : Reach config history s) :
    (Refresh.refreshInterval config ≠ 0 ∧ config.epochPeriod ≠ 0 → ∃ l s', s.clockTick config = .ok (l, s')) ∧
      (Refresh.refreshInterval config = 0 ∨ config.epochPeriod = 0 → s.clockTick config = .error .divisionByZero) ∧
      ∀ a w, s.willAcceptTransaction config a w = true → ∃ s', s.addTransaction config a w = .ok s' := by
  refine ⟨fun hne => h.tick_ok hmap hsref hne.1 hne.2, fun hzero => ?_, fun a w hacc => ?_⟩
  · by_cases hinterval : Refresh.refreshInterval config = 0
    · exact clockTick_interval hinterval (List.ne_nil_of_mem (mem_upTo_channel hmap 0))
    · exact clockTick_epoch (hzero.resolve_left hinterval) fun i _ => h.channel_ok hmap hsref hinterval i
  · exact ⟨s.accept config a w, if_pos hacc⟩

/-- The stacks of the accelerator do not enter self-refresh. -/
theorem no_run_exits_hbm2 : ∃ r, replay Config.hbm2 [.add 320 false, .tick, .tick, .tick] ([], .new) = .ok r ∧
    ∃ l s', r.2.clockTick Config.hbm2 = .ok (l, s') := by
  have hrun : (replay Config.hbm2 [.add 320 false, .tick, .tick, .tick] ([], .new)).map (fun r => r.2.clk) = .ok 3 := by
    decide +kernel
  obtain ⟨r, hr, -⟩ := map_eq_ok.mp hrun
  have hexits := no_run_exits Config.hbm2 Config.hbm2_mapped rfl r.1 r.2 (Reach.replay .new hr)
  exact ⟨r, hr, hexits.1 ⟨by decide, by decide⟩⟩

end JedecDRAMSystem

end Dramsim3

end Anna
