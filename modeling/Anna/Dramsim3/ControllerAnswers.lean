import Anna.Dramsim3.ControllerSafe

/-!
# What a controller owes

The transactions that are still to be answered are the pending reads and the
return queue (`awaited`); a tick neither adds to them nor takes from them. The
data of a read is there `read_delay` cycles after its command, a write and a
read that finds a pending write are answered in the next cycle (`Punctual`).
-/

namespace Anna

namespace Dramsim3

namespace Controller

/-- The transactions of an address, reads or writes, that are still to be answered. -/
def awaited (c : Controller) (isWrite : Bool) (a : UInt64) : Nat :=
  (if isWrite then 0 else c.pendingRdQ.keyCount a) + c.returnQueue.countP fun t => t.addr = a ∧ t.isWrite = isWrite

section
variable {config : Config} {c c₁ c' : Controller} {cmd : Command}

theorem Selected.awaited_eq (h : Selected config c cmd c') (w : Bool) (a : UInt64) : awaited c' w a = awaited c w a := by
  obtain ⟨q, rfl, -⟩ := h.frame
  rfl

/-- The reads that a command answers go from the pending ones to the return queue. -/
theorem completed_awaited (hf : Formed config c) (w : Bool) (a : UInt64) :
    awaited (c.completed config cmd) w a = awaited c w a := by
  unfold completed
  split
  · have hvals : ∀ t ∈ c.pendingRdQ.vals cmd.hexAddr, t.addr = cmd.hexAddr ∧ t.isWrite = false := by
      intro t ht
      obtain ⟨e, he, rfl⟩ := List.mem_map.mp ht
      obtain ⟨haddr, hread⟩ := hf.pendingRdQ e (List.mem_of_mem_filter he)
      exact ⟨haddr.trans (decide_eq_true_iff.mp (List.mem_filter.mp he).2), hread⟩
    unfold awaited
    dsimp only
    rw [List.countP_append, List.countP_map]
    by_cases ha : cmd.hexAddr = a ∧ w = false
    · obtain ⟨rfl, rfl⟩ := ha
      have hall : (c.pendingRdQ.vals cmd.hexAddr).countP ((fun t : Transaction =>
          decide (t.addr = cmd.hexAddr ∧ t.isWrite = false)) ∘
          fun it => { it with completeCycle := later c.clk config.readDelay }) = c.pendingRdQ.keyCount cmd.hexAddr :=
        List.countP_eq_length.mpr fun t ht => decide_eq_true (hvals t ht)
      rw [hall, Multimap.keyCount_filter_ne, if_pos rfl, if_neg Bool.false_ne_true, if_neg Bool.false_ne_true]
      omega
    · have hnone : (c.pendingRdQ.vals cmd.hexAddr).countP ((fun t : Transaction =>
          decide (t.addr = a ∧ t.isWrite = w)) ∘
          fun it => { it with completeCycle := later c.clk config.readDelay }) = 0 := by
        refine List.countP_eq_zero.mpr fun t ht hmatch => ha ?_
        obtain ⟨haddr, hread⟩ := hvals t ht
        obtain ⟨hta, htw⟩ := decide_eq_true_iff.mp hmatch
        exact ⟨haddr.symm.trans hta, htw.symm.trans hread⟩
      rw [hnone, Nat.add_zero]
      cases w with
      | true => rfl
      | false =>
        rw [Multimap.keyCount_filter_ne, if_neg fun h => ha ⟨h, rfl⟩]
  · split <;> rfl

theorem Issued.awaited_eq (hf : Formed config c) (hi : Issued config cmd c c') (w : Bool) (a : UInt64) :
    awaited c' w a = awaited c w a := by
  rw [hi.rest]
  exact completed_awaited hf w a

theorem atom_awaited (hf : Formed config c) (step : Atom config c c') (w : Bool) (a : UInt64) :
    awaited c' w a = awaited c w a := by
  cases step with
  | demand =>
    rw [tickRefresh_eq]
    rfl
  | book => rfl
  | issue hsel hissue =>
    rw [(issueCommand_spec hissue).awaited_eq (hf.selected hsel), hsel.awaited_eq]
  | lose _ _ _ _ hsel => exact hsel.awaited_eq w a
  | refresh _ _ hissue => exact (issueCommand_spec hissue).awaited_eq hf w a
  | selfRefresh _ _ _ _ hissue => exact (issueCommand_spec hissue).awaited_eq hf w a
  | idle => rfl
  | schedule =>
    rw [scheduleTransaction_eq]
    rfl
  | advance => rfl

/-- No tick makes a controller owe more or less. -/
theorem clockTick_awaited (hf : Formed config c) (h : c.clockTick config = .ok c') (w : Bool) (a : UInt64) :
    awaited c' w a = awaited c w a := by
  have hsteps : Formed config c' ∧ awaited c' w a = awaited c w a := by
    refine Atoms.invariant (P := fun c' => Formed config c' ∧ awaited c' w a = awaited c w a) ?_ ⟨hf, rfl⟩
      (clockTick_atoms h)
    exact fun hc step => ⟨hc.1.atom step, (atom_awaited hc.1 step w a).trans hc.2⟩
  exact hsteps.2

theorem add_awaited (config : Config) (c : Controller) (t : Transaction) (w : Bool) (a : UInt64) :
    awaited (c.addTransaction config t) w a = awaited c w a + if t.addr = a ∧ t.isWrite = w then 1 else 0 := by
  have hadd := addTransaction_spec config c t
  have haddr : ({ t with addedCycle := c.clk } : Transaction).addr = t.addr := rfl
  have hwrite : ({ t with addedCycle := c.clk } : Transaction).isWrite = t.isWrite := rfl
  rw [← haddr, ← hwrite]
  generalize { t with addedCycle := c.clk } = u at hadd
  generalize c.addTransaction config t = c' at hadd ⊢
  unfold awaited
  cases hadd with
  | write hw hzero =>
    rw [enqueued_eq]
    dsimp only
    rw [List.countP_append, List.countP_singleton]
    dsimp only
    simp only [decide_eq_true_iff]
    omega
  | merge _ =>
    dsimp only
    rw [List.countP_append, List.countP_singleton]
    dsimp only
    simp only [decide_eq_true_iff]
    omega
  | read hr _ _ =>
    rw [enqueued_eq]
    dsimp only
    rw [Multimap.keyCount_insert]
    by_cases ha : u.addr = a <;> cases w <;> simp [hr, ha, Nat.add_right_comm]
  | join hr _ _ =>
    dsimp only
    rw [Multimap.keyCount_insert]
    by_cases ha : u.addr = a <;> cases w <;> simp [hr, ha, Nat.add_right_comm]

end

/-! ## The clock -/

section
variable {config : Config} {c c' : Controller} {o : Option Command} {cmd : Command}

theorem getCommandToIssue_eq (h : c.getCommandToIssue config = .ok (o, c')) : ∃ q, c' = { c with cmdQueue := q } := by
  obtain ⟨t, -, h⟩ := bind_eq_ok.mp h
  obtain ⟨-, rfl⟩ := Prod.mk.inj (pure_eq_ok.mp h)
  exact ⟨t.2, rfl⟩

theorem selectCommand_eq (h : c.selectCommand config = .ok (o, c')) : ∃ q, c' = { c with cmdQueue := q } := by
  unfold selectCommand at h
  split at h
  · exact getCommandToIssue_eq h
  · obtain ⟨t, -, h⟩ := bind_eq_ok.mp h
    dsimp only at h
    split at h
    · obtain ⟨-, rfl⟩ := Prod.mk.inj (pure_eq_ok.mp h)
      exact ⟨t.2, rfl⟩
    · obtain ⟨q, rfl⟩ := getCommandToIssue_eq h
      exact ⟨q, rfl⟩

/-- The clocks of the controller and of its refresh. -/
def clocks (c : Controller) : Nat × Refresh := (c.clk, c.refresh)

theorem issueCommand_clocks (h : c.issueCommand config cmd = .ok c') : c'.clocks = c.clocks := by
  rw [(issueCommand_spec h).eq]
  rfl

theorem issueSecond_clocks (h : c.issueSecond config cmd = .ok c') : c'.clocks = c.clocks := by
  obtain ⟨⟨o, c₁⟩, hget, h⟩ := bind_eq_ok.mp h
  obtain ⟨q, rfl⟩ := getCommandToIssue_eq hget
  cases o with
  | none =>
    obtain rfl := pure_eq_ok.mp h
    rfl
  | some second =>
    dsimp only at h
    split at h
    · have hclocks := issueCommand_clocks h
      exact hclocks
    · obtain rfl := pure_eq_ok.mp h
      rfl

theorem issueCommands_clocks {issued : Bool} (h : c.issueCommands config = .ok (issued, c')) :
    c'.clocks = c.clocks := by
  obtain ⟨⟨o, c₁⟩, hselect, h⟩ := bind_eq_ok.mp h
  obtain ⟨q, rfl⟩ := selectCommand_eq hselect
  cases o with
  | none =>
    obtain ⟨-, rfl⟩ := Prod.mk.inj (pure_eq_ok.mp h)
    rfl
  | some cmd =>
    obtain ⟨c₂, hc₂, h⟩ := bind_eq_ok.mp h
    have hclocks := issueCommand_clocks hc₂
    split at h
    · obtain ⟨c₃, hc₃, h⟩ := bind_eq_ok.mp h
      obtain ⟨-, rfl⟩ := Prod.mk.inj (pure_eq_ok.mp h)
      exact (issueSecond_clocks hc₃).trans hclocks
    · obtain ⟨-, rfl⟩ := Prod.mk.inj (pure_eq_ok.mp h)
      exact hclocks

theorem updateSelfRefresh_clocks {ranks : List Int} (h : c.updateSelfRefresh config ranks = .ok c') :
    c'.clocks = c.clocks := by
  induction ranks with
  | nil =>
    obtain rfl := Except.ok.inj h
    rfl
  | cons i ranks ih =>
    unfold updateSelfRefresh at h
    dsimp only at h
    split at h
    · exact ih h
    · obtain ⟨ready, -, h⟩ := bind_eq_ok.mp h
      cases ready with
      | none => exact ih h
      | some cmd => exact issueCommand_clocks h

theorem clockTick_clocks (h : c.clockTick config = .ok c') :
    c'.clk = c.clk + 1 ∧ c'.refresh = (c.tickRefresh config).refresh := by
  obtain ⟨-, issued, c₁, c₂, hissue, hpower, rfl⟩ := clockTick_calls h
  have hclocks : c₂.clocks = c₁.clocks := by
    unfold updatePower at hpower
    dsimp only at hpower
    split at hpower
    · have hself := updateSelfRefresh_clocks hpower
      exact hself
    · obtain rfl := Except.ok.inj hpower
      rfl
  have hschedule : (c₂.scheduleTransaction config).clocks = c₂.clocks := by
    rw [scheduleTransaction_eq]
    rfl
  have hall : (c₂.scheduleTransaction config).clocks = (c.tickRefresh config).clocks := by
    rw [hschedule, hclocks, issueCommands_clocks hissue]
  obtain ⟨hclk, hrefresh⟩ := Prod.mk.inj hall
  rw [tickRefresh_eq] at hclk
  exact ⟨congrArg (· + 1) hclk, hrefresh⟩

end

/-! ## Pending writes -/

/-- No write command for the address has been issued since cycle `i`. -/
def Unwritten (trace : List (Nat × Command)) (a : UInt64) (i : Nat) : Prop :=
  ∀ x ∈ trace, x.2.cmdType.isWrite = true → x.2.hexAddr = a → x.1 < i

/-- With the writes of an address accepted in the cycles of `since`, one of them is pending exactly if no write command
was issued since then. -/
structure Written (since : Nat → Prop) (a : UInt64) (c : Controller) : Prop where
  past : ∀ i, since i → i ≤ c.clk
  pending : 0 < c.pendingWrQ.keyCount a ↔ ∃ i, since i ∧ Unwritten c.trace a i

section
variable {config : Config} {c c₁ c' : Controller} {cmd : Command} {since : Nat → Prop} {a : UInt64}

theorem Written.selected (h : Written since a c) (hsel : Selected config c cmd c') : Written since a c' := by
  obtain ⟨q, rfl, -⟩ := hsel.frame
  exact ⟨h.past, h.pending⟩

theorem Written.issued (h : Written since a c) (hone : c.pendingWrQ.keyCount a ≤ 1) (hi : Issued config cmd c c') :
    Written since a c' := by
  have hcount := (completed_keyCount config c cmd a).2
  rw [hi.eq]
  refine ⟨h.past, ?_⟩
  dsimp only
  rw [hcount]
  by_cases hw : cmd.cmdType.isWrite = true ∧ cmd.hexAddr = a
  · rw [if_pos hw]
    refine ⟨fun hpos => by omega, ?_⟩
    rintro ⟨i, hi, hunwritten⟩
    have hbefore := hunwritten _ (List.mem_append_right _ List.mem_cons_self) hw.1 hw.2
    have hpast := h.past i hi
    dsimp only at hbefore
    omega
  · have hsame : ∀ i, Unwritten (c.trace ++ [(c.clk, cmd)]) a i ↔ Unwritten c.trace a i := by
      intro i
      refine ⟨fun hall x hx => hall x (List.mem_append_left _ hx), fun hall x hx hwrite haddr => ?_⟩
      rcases List.mem_append.mp hx with hx | hx
      · exact hall x hx hwrite haddr
      · obtain rfl := List.mem_singleton.mp hx
        exact absurd ⟨hwrite, haddr⟩ hw
    rw [if_neg hw, Nat.sub_zero, h.pending]
    simp only [hsame]

theorem Written.atom (hl : Lined config c) (h : Written since a c) (step : Atom config c c') : Written since a c' := by
  cases step with
  | demand =>
    rw [tickRefresh_eq]
    exact ⟨h.past, h.pending⟩
  | book => exact ⟨h.past, h.pending⟩
  | issue hsel hissue =>
    refine (h.selected hsel).issued ?_ (issueCommand_spec hissue)
    obtain ⟨q, rfl, -⟩ := hsel.frame
    exact hl.once a
  | lose _ _ _ _ hsel => exact h.selected hsel
  | refresh _ _ hissue => exact h.issued (hl.once a) (issueCommand_spec hissue)
  | selfRefresh _ _ _ _ hissue => exact h.issued (hl.once a) (issueCommand_spec hissue)
  | idle => exact ⟨h.past, h.pending⟩
  | schedule =>
    rw [scheduleTransaction_eq]
    exact ⟨h.past, h.pending⟩
  | advance => exact ⟨fun i hi => Nat.le_succ_of_le (h.past i hi), h.pending⟩

theorem Written.tick (hf : Formed config c) (hl : Lined config c) (h : Written since a c)
    (htick : c.clockTick config = .ok c') : Written since a c' := by
  have hall : Formed config c' ∧ Lined config c' ∧ Written since a c' :=
    Atoms.invariant (P := fun c => Formed config c ∧ Lined config c ∧ Written since a c)
      (fun hc step => ⟨hc.1.atom step, hc.2.1.atom hc.1 step, hc.2.2.atom hc.2.1 step⟩) ⟨hf, hl, h⟩
      (clockTick_atoms htick)
  exact hall.2.2

theorem add_pendingWrQ (config : Config) (c : Controller) (t : Transaction) (a : UInt64) :
    0 < (c.addTransaction config t).pendingWrQ.keyCount a ↔
      0 < c.pendingWrQ.keyCount a ∨ t.isWrite = true ∧ t.addr = a := by
  have hadd := addTransaction_spec config c t
  have haddr : ({ t with addedCycle := c.clk } : Transaction).addr = t.addr := rfl
  have hwrite : ({ t with addedCycle := c.clk } : Transaction).isWrite = t.isWrite := rfl
  rw [← haddr, ← hwrite]
  generalize { t with addedCycle := c.clk } = u at hadd
  generalize c.addTransaction config t = c' at hadd ⊢
  cases hadd with
  | write hw _ =>
    rw [enqueued_eq]
    dsimp only
    rw [Multimap.keyCount_insert]
    by_cases ha : u.addr = a <;> simp [hw, ha]
  | merge hpos =>
    dsimp only
    refine ⟨Or.inl, fun h => h.elim id fun hu => hu.2 ▸ hpos⟩
  | read hr _ _ =>
    rw [enqueued_eq]
    simp [hr]
  | join hr _ _ => simp [hr]

theorem Written.add (h : Written since a c) (hpast : ∀ x ∈ c.trace, x.1 < c.clk) (t : Transaction)
    {since' : Nat → Prop} (hsince : ∀ i, since' i ↔ since i ∨ i = c.clk ∧ t.isWrite = true ∧ t.addr = a) :
    Written since' a (c.addTransaction config t) := by
  have hnow : Unwritten c.trace a c.clk := fun x hx _ _ => hpast x hx
  refine ⟨fun i hi => ?_, ?_⟩
  · rw [addTransaction_eq]
    rcases (hsince i).mp hi with hi | ⟨rfl, -⟩
    · exact h.past i hi
    · exact Nat.le_refl _
  · rw [add_pendingWrQ, h.pending, addTransaction_eq]
    simp only [hsince]
    constructor
    · rintro (⟨i, hi, hunwritten⟩ | hw)
      · exact ⟨i, Or.inl hi, hunwritten⟩
      · exact ⟨c.clk, Or.inr ⟨rfl, hw⟩, hnow⟩
    · rintro ⟨i, hi | ⟨-, hw⟩, hunwritten⟩
      · exact Or.inl ⟨i, hi, hunwritten⟩
      · exact Or.inr hw

end

/-! ## Answers on time -/

/-- The first read command for the address since the transaction came was issued in cycle `i`. -/
structure FirstRead (trace : List (Nat × Command)) (t : Transaction) (i : Nat) : Prop where
  issued : ∃ cmd, (i, cmd) ∈ trace ∧ cmd.cmdType.isRead = true ∧ cmd.hexAddr = t.addr
  since : t.addedCycle ≤ i
  first : ∀ x ∈ trace, x.2.cmdType.isRead = true → x.2.hexAddr = t.addr → x.1 < t.addedCycle ∨ i ≤ x.1

/-- Why a transaction is complete when it is: it was `found` to need no command, or to need one, and that was issued
`read_delay` cycles before. -/
def Explained (config : Config) (found : Bool → Transaction → Prop) (trace : List (Nat × Command)) (t : Transaction) :
    Prop :=
  found true t ∧ t.completeCycle = t.addedCycle + 1 ∨
    found false t ∧ ∃ i, FirstRead trace t i ∧ (t.completeCycle : Int) = i + config.readDelay

/-- A pending read still waits for a read command. -/
structure Waits (found : Bool → Transaction → Prop) (clk : Nat) (trace : List (Nat × Command)) (t : Transaction) :
    Prop where
  added : t.addedCycle ≤ clk
  found : found false t
  unread : ∀ x ∈ trace, x.2.cmdType.isRead = true → x.2.hexAddr = t.addr → x.1 < t.addedCycle

/-- Nothing in the return queue is complete before `n`. -/
structure Punctual (config : Config) (found : Bool → Transaction → Prop) (n : Nat) (c : Controller) : Prop where
  clk : n ≤ c.clk + 1
  due : ∀ t ∈ c.returnQueue, n ≤ t.completeCycle
  past : ∀ x ∈ c.trace, x.1 ≤ c.clk
  explained : ∀ t ∈ c.returnQueue, Explained config found c.trace t
  waits : ∀ e ∈ c.pendingRdQ, Waits found c.clk c.trace e.2

section
variable {config : Config} {c c₁ c' : Controller} {cmd : Command} {n : Nat} {found found' : Bool → Transaction → Prop}

theorem FirstRead.append {trace more : List (Nat × Command)} {t : Transaction} {i : Nat} (h : FirstRead trace t i)
    (hmore : ∀ x ∈ more, i ≤ x.1) : FirstRead (trace ++ more) t i := by
  obtain ⟨cmd, hmem, hcmd⟩ := h.issued
  refine ⟨⟨cmd, List.mem_append_left _ hmem, hcmd⟩, h.since, fun x hx hread haddr => ?_⟩
  rcases List.mem_append.mp hx with hx | hx
  · exact h.first x hx hread haddr
  · exact Or.inr (hmore x hx)

theorem Explained.append {trace more : List (Nat × Command)} {t : Transaction} {clk : Nat}
    (h : Explained config found trace t) (hfound : ∀ b, found b t → found' b t) (hpast : ∀ x ∈ trace, x.1 ≤ clk)
    (hmore : ∀ x ∈ more, clk ≤ x.1) : Explained config found' (trace ++ more) t := by
  rcases h with ⟨hatOnce, h⟩ | ⟨hread, i, hfirst, h⟩
  · exact Or.inl ⟨hfound _ hatOnce, h⟩
  · obtain ⟨cmd, hmem, -⟩ := hfirst.issued
    exact Or.inr ⟨hfound _ hread, i, hfirst.append fun x hx => Nat.le_trans (hpast _ hmem) (hmore x hx), h⟩

theorem Explained.mono {trace : List (Nat × Command)} {t : Transaction} (h : Explained config found trace t)
    (hfound : ∀ b, found b t → found' b t) : Explained config found' trace t :=
  h.imp (And.imp_left (hfound _)) (And.imp_left (hfound _))

theorem Punctual.mono (h : Punctual config found n c) (hfound : ∀ b t, found b t → found' b t) :
    Punctual config found' n c :=
  ⟨h.clk, h.due, h.past, fun t ht => (h.explained t ht).mono fun b => hfound b t,
    fun e he => ⟨(h.waits e he).added, hfound _ _ (h.waits e he).found, (h.waits e he).unread⟩⟩

theorem Punctual.frame (h : Punctual config found n c) (hqueue : c'.returnQueue = c.returnQueue)
    (hreads : c'.pendingRdQ = c.pendingRdQ) (htrace : c'.trace = c.trace) (hclk : c.clk ≤ c'.clk) :
    Punctual config found n c' := by
  refine ⟨Nat.le_trans h.clk (Nat.succ_le_succ hclk), ?_, ?_, ?_, ?_⟩
  · rw [hqueue]
    exact h.due
  · rw [htrace]
    exact fun x hx => Nat.le_trans (h.past x hx) hclk
  · rw [hqueue, htrace]
    exact h.explained
  · rw [hreads]
    intro e he
    obtain ⟨hadded, hfound, hunread⟩ := h.waits e he
    exact ⟨Nat.le_trans hadded hclk, hfound, htrace ▸ hunread⟩

theorem Punctual.selected (h : Punctual config found n c) (hsel : Selected config c cmd c') :
    Punctual config found n c' := by
  obtain ⟨q, rfl, -⟩ := hsel.frame
  exact h.frame rfl rfl rfl (Nat.le_refl _)

theorem atom_clk_le (step : Atom config c c') : c.clk ≤ c'.clk := by
  have hissued : ∀ {c₁ c₂ : Controller} {cmd}, c₁.issueCommand config cmd = .ok c₂ → c₁.clk ≤ c₂.clk :=
    fun h => Nat.le_of_eq (issueCommand_trace h).1.symm
  cases step with
  | demand => rw [tickRefresh_eq]
  | book => exact Nat.le_refl _
  | issue hsel hissue =>
    have hle := hissued hissue
    obtain ⟨q, rfl, -⟩ := hsel.frame
    exact hle
  | lose _ _ _ _ hsel =>
    obtain ⟨q, rfl, -⟩ := hsel.frame
    exact Nat.le_refl _
  | refresh _ _ hissue => exact hissued hissue
  | selfRefresh _ _ _ _ hissue => exact hissued hissue
  | idle => exact Nat.le_refl _
  | schedule => rw [scheduleTransaction_eq]
  | advance => exact Nat.le_succ _

variable (hdelay : 0 < config.readDelay)

include hdelay in
theorem later_eq {clk : Nat} (hbound : (clk : Int) + config.readDelay < 2 ^ 64) :
    (later clk config.readDelay : Int) = clk + config.readDelay := by
  unfold later
  omega

variable (hfound : ∀ {b t} k, found b t → found b { t with completeCycle := k })
include hdelay hfound

omit hdelay hfound in
theorem Punctual.unread (hf : Formed config c) (h : Punctual config found n c) {e : UInt64 × Transaction}
    (he : e ∈ (c.completed config cmd).pendingRdQ) : ∀ x ∈ c.trace ++ [(c.clk, cmd)], x.2.cmdType.isRead = true →
      x.2.hexAddr = e.2.addr → x.1 < e.2.addedCycle := by
  intro x hx hread haddr
  rcases List.mem_append.mp hx with hx | hx
  · exact (h.waits e (mem_completed.1 he)).unread x hx hread haddr
  · obtain rfl := List.mem_singleton.mp hx
    unfold completed at he
    rw [if_pos hread] at he
    obtain ⟨hpending, hkey⟩ := List.mem_filter.mp he
    exact absurd ((hf.pendingRdQ e hpending).1.symm.trans haddr.symm) (decide_eq_true_iff.mp hkey)

/-- What is new in the return queue are the reads that the command answers. -/
theorem Punctual.answered (hf : Formed config c) (h : Punctual config found n c)
    (hbound : (c.clk : Int) + config.readDelay < 2 ^ 64) {t : Transaction}
    (ht : t ∈ (c.completed config cmd).returnQueue) :
    n ≤ t.completeCycle ∧ Explained config found (c.trace ++ [(c.clk, cmd)]) t := by
  have hlast : ∀ x ∈ [(c.clk, cmd)], c.clk ≤ x.1 := fun x hx => by rw [List.mem_singleton.mp hx]
  have hold : t ∈ c.returnQueue → n ≤ t.completeCycle ∧ Explained config found (c.trace ++ [(c.clk, cmd)]) t :=
    fun ht => ⟨h.due t ht, (h.explained t ht).append (fun _ h => h) h.past hlast⟩
  unfold completed at ht
  split at ht
  · rename_i hread
    rcases List.mem_append.mp ht with ht | ht
    · exact hold ht
    · obtain ⟨it, hit, rfl⟩ := List.mem_map.mp ht
      obtain ⟨e, he, rfl⟩ := List.mem_map.mp hit
      obtain ⟨hpending, hkey⟩ := List.mem_filter.mp he
      have haddr : cmd.hexAddr = e.2.addr :=
        (decide_eq_true_iff.mp hkey).symm.trans (hf.pendingRdQ e hpending).1.symm
      obtain ⟨hadded, hfalse, hunread⟩ := h.waits e hpending
      have hlater := later_eq hdelay hbound
      have hmem : (c.clk, cmd) ∈ c.trace ++ [(c.clk, cmd)] := List.mem_append_right _ List.mem_cons_self
      refine ⟨?_, Or.inr ⟨hfound _ hfalse, c.clk, ⟨⟨cmd, hmem, hread, haddr⟩, hadded, ?_⟩, hlater⟩⟩
      · have hclk := h.clk
        dsimp only
        omega
      · intro x hx hxread hxaddr
        rcases List.mem_append.mp hx with hx | hx
        · exact Or.inl (hunread x hx hxread hxaddr)
        · exact Or.inr (hlast x hx)
  · split at ht
    · exact hold ht
    · exact hold ht

theorem Punctual.issued (hf : Formed config c) (h : Punctual config found n c) (hi : Issued config cmd c c')
    (hbound : (c.clk : Int) + config.readDelay < 2 ^ 64) : Punctual config found n c' := by
  rw [hi.eq]
  refine ⟨h.clk, fun t ht => (h.answered hdelay hfound hf hbound ht).1, fun x hx => ?_,
    fun t ht => (h.answered hdelay hfound hf hbound ht).2, fun e he => ?_⟩
  · rcases List.mem_append.mp hx with hx | hx
    · exact h.past x hx
    · exact Nat.le_of_eq (congrArg Prod.fst (List.mem_singleton.mp hx))
  · have hwait := h.waits e (mem_completed.1 he)
    exact ⟨hwait.added, hwait.found, h.unread hf he⟩

theorem Punctual.atom (hf : Formed config c) (h : Punctual config found n c) (step : Atom config c c')
    (hbound : (c'.clk : Int) + config.readDelay < 2 ^ 64) : Punctual config found n c' := by
  have hle := atom_clk_le step
  have hbound : (c.clk : Int) + config.readDelay < 2 ^ 64 := by omega
  cases step with
  | demand =>
    rw [tickRefresh_eq]
    exact h.frame rfl rfl rfl (Nat.le_refl _)
  | book => exact h.frame rfl rfl rfl (Nat.le_refl _)
  | issue hsel hissue =>
    refine (h.selected hsel).issued hdelay hfound (hf.selected hsel) (issueCommand_spec hissue) ?_
    obtain ⟨q, rfl, -⟩ := hsel.frame
    exact hbound
  | lose _ _ _ _ hsel => exact h.selected hsel
  | refresh _ _ hissue => exact h.issued hdelay hfound hf (issueCommand_spec hissue) hbound
  | selfRefresh _ _ _ _ hissue => exact h.issued hdelay hfound hf (issueCommand_spec hissue) hbound
  | idle => exact h.frame rfl rfl rfl (Nat.le_refl _)
  | schedule =>
    rw [scheduleTransaction_eq]
    exact h.frame rfl rfl rfl (Nat.le_refl _)
  | advance => exact h.frame rfl rfl rfl (Nat.le_succ _)

theorem Punctual.tick (hf : Formed config c) (h : Punctual config found n c) (htick : c.clockTick config = .ok c')
    (hbound : (c'.clk : Int) + config.readDelay < 2 ^ 64) : Punctual config found n c' := by
  have steps := clockTick_atoms htick
  clear htick
  have hboth : Formed config c' ∧ Punctual config found n c' := by
    induction steps with
    | refl => exact ⟨hf, h⟩
    | tail _ step ih =>
      have hle := atom_clk_le step
      obtain ⟨hf', h'⟩ := ih (by omega)
      exact ⟨hf'.atom step, h'.atom hdelay hfound hf' step hbound⟩
  exact hboth.2

omit hdelay hfound in
theorem addTransaction_clk (t : Transaction) : (c.addTransaction config t).clk = c.clk := by
  rw [addTransaction_eq]

omit hdelay hfound in
theorem addTransaction_trace (t : Transaction) : (c.addTransaction config t).trace = c.trace := by
  rw [addTransaction_eq]

omit hdelay in
theorem Punctual.add (h : Punctual config found n c) (hclk : n = c.clk) (hpast : ∀ x ∈ c.trace, x.1 < c.clk)
    (t : Transaction)
    (hnew : ∀ b, (t.isWrite = true ∨ 0 < c.pendingWrQ.keyCount t.addr ↔ b = true) →
      found b { t with addedCycle := c.clk }) : Punctual config found n (c.addTransaction config t) := by
  have hadd := addTransaction_spec config c t
  have hcycle : ({ t with addedCycle := c.clk } : Transaction).addedCycle = c.clk := rfl
  have haddr : ({ t with addedCycle := c.clk } : Transaction).addr = t.addr := rfl
  have hwrite : ({ t with addedCycle := c.clk } : Transaction).isWrite = t.isWrite := rfl
  rw [← haddr, ← hwrite] at hnew
  generalize { t with addedCycle := c.clk } = u at hadd hcycle hnew
  generalize c.addTransaction config t = c' at hadd ⊢
  have hlast : found true u → ∀ v ∈ c.returnQueue ++ [{ u with completeCycle := c.clk + 1 }],
      n ≤ v.completeCycle ∧ Explained config found c.trace v := by
    intro hu v hv
    rcases List.mem_append.mp hv with hv | hv
    · exact ⟨h.due v hv, h.explained v hv⟩
    · rw [List.mem_singleton.mp hv]
      exact ⟨by dsimp only; omega, Or.inl ⟨hfound _ hu, by dsimp only; rw [hcycle]⟩⟩
  have hpending : found false u → ∀ e ∈ c.pendingRdQ.insert u.addr u, Waits found c.clk c.trace e.2 := by
    intro hu e he
    rcases List.mem_append.mp he with he | he
    · exact h.waits e he
    · rw [List.mem_singleton.mp he]
      exact ⟨Nat.le_of_eq hcycle, hu, fun x hx _ _ => hcycle ▸ hpast x hx⟩
  cases hadd with
  | write hw _ =>
    have hall := hlast (hnew true (by simp [hw]))
    rw [enqueued_eq]
    exact ⟨h.clk, fun v hv => (hall v hv).1, h.past, fun v hv => (hall v hv).2, h.waits⟩
  | merge hpos =>
    have hall := hlast (hnew true (by simp [hpos]))
    exact ⟨h.clk, fun v hv => (hall v hv).1, h.past, fun v hv => (hall v hv).2, h.waits⟩
  | read hr hnone _ =>
    have hall := hpending (hnew false (by simp [hr, hnone]))
    rw [enqueued_eq]
    exact ⟨h.clk, h.due, h.past, h.explained, hall⟩
  | join hr hnone _ =>
    have hall := hpending (hnew false (by simp [hr, hnone]))
    exact ⟨h.clk, h.due, h.past, h.explained, hall⟩

end

end Controller

end Dramsim3

end Anna
