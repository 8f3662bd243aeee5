import Anna.Dramsim3.ControllerSteps

/-!
# Transactions on their way

For every address the command queues and the transaction queues together hold
at most one read and one write, the read in front (`line`); both belong to
pending transactions. A command that is issued answers all pending reads of
its address.
-/

namespace Anna

namespace Dramsim3

namespace Controller

/-! ## Demanding a refresh -/

/-- The refresh that `InsertRefresh` adds to those that wait. -/
def wanted (config : Config) (r : Refresh) (ch : ChannelState) : List Command :=
  match config.refreshPolicy with
  | .rankLevelSimultaneous =>
    match (upTo config.ranks).find? fun i => !ch.rankIsSref i with
    | some i => [⟨.refresh, ⟨-1, i, -1, -1, -1, -1⟩, -1⟩]
    | none => []
  | .rankLevelStaggered =>
    if ch.rankIsSref r.nextRank then [] else [⟨.refresh, ⟨-1, r.nextRank, -1, -1, -1, -1⟩, -1⟩]
  | .bankLevelStaggered =>
    if ch.rankIsSref r.nextRank then []
    else [⟨.refreshBank, ⟨-1, r.nextRank, r.nextBg, r.nextBank, -1, -1⟩, -1⟩]

def Due (config : Config) (r : Refresh) : Prop := r.clk % Refresh.refreshInterval config = 0 ∧ 0 < r.clk

instance (config : Config) (r : Refresh) : Decidable (Due config r) :=
  inferInstanceAs (Decidable (_ ∧ _))

section
variable {config : Config} {c : Controller} {r : Refresh} {ch : ChannelState}

theorem insertRefresh_eq : r.insertRefresh config ch =
    (r.iterateNext config, { ch with refreshQ := ch.refreshQ ++ wanted config r ch }) := by
  unfold Refresh.insertRefresh wanted
  cases hp : config.refreshPolicy with
  | rankLevelSimultaneous =>
    have hnext : r.iterateNext config = r := by unfold Refresh.iterateNext; rw [hp]
    rw [hnext]
    dsimp only
    cases (upTo config.ranks).find? fun i => !ch.rankIsSref i with
    | some i => rfl
    | none => rw [List.append_nil]
  | rankLevelStaggered =>
    dsimp only
    split
    · rw [List.append_nil]
    · rfl
  | bankLevelStaggered =>
    dsimp only
    split
    · rw [List.append_nil]
    · rfl

theorem iterateNext_clk : (r.iterateNext config).clk = r.clk := by
  unfold Refresh.iterateNext
  split
  · rfl
  · dsimp only
    split
    · split <;> rfl
    · rfl
  · rfl

theorem tickRefresh_eq : c.tickRefresh config =
    { c with
      refresh := { (if Due config c.refresh then c.refresh.iterateNext config else c.refresh) with
        clk := c.refresh.clk + 1 }
      channelState := { c.channelState with
        refreshQ := c.channelState.refreshQ ++
          if Due config c.refresh then wanted config c.refresh c.channelState else [] } } := by
  unfold tickRefresh Refresh.elapse
  by_cases hdue : Due config c.refresh
  · rw [if_pos (show c.refresh.clk % Refresh.refreshInterval config = 0 ∧ 0 < c.refresh.clk from hdue),
      if_pos hdue, if_pos hdue, insertRefresh_eq]
    dsimp only
    rw [iterateNext_clk]
  · rw [if_neg (show ¬ (c.refresh.clk % Refresh.refreshInterval config = 0 ∧ 0 < c.refresh.clk) from hdue),
      if_neg hdue, if_neg hdue]
    dsimp only
    rw [List.append_nil]

/-- The rank, bank group and bank that are next in turn exist. -/
def InTurn (config : Config) (r : Refresh) : Prop :=
  r.nextRank < config.ranks ∧ r.nextBg < config.bankgroups ∧ r.nextBank < config.banksPerGroup

theorem iterateNext_lt (h : InTurn config r) : InTurn config (r.iterateNext config) := by
  obtain ⟨hrank, hbg, hbank⟩ := h
  have hmod : ∀ {i n : Nat}, i < n → (i + 1) % n < n := fun hlt => Nat.mod_lt _ (Nat.zero_lt_of_lt hlt)
  unfold Refresh.iterateNext
  split
  · exact ⟨hmod hrank, hbg, hbank⟩
  · dsimp only
    split
    · split
      · exact ⟨hmod hrank, hmod hbg, hmod hbank⟩
      · exact ⟨hrank, hmod hbg, hmod hbank⟩
    · exact ⟨hrank, hmod hbg, hbank⟩
  · exact ⟨hrank, hbg, hbank⟩

theorem wanted_inRange (h : InTurn config r) {ref : Command} (href : ref ∈ wanted config r ch) :
    ref.cmdType = .refresh ∧ ref.addr.rank ∈ upTo config.ranks ∨
      ref.cmdType = .refreshBank ∧ config.HasBank ref.addr.bankId := by
  obtain ⟨hrank, hbg, hbank⟩ := h
  unfold wanted at href
  split at href
  · split at href
    · rename_i i hfind
      rw [List.mem_singleton.mp href]
      exact Or.inl ⟨rfl, List.mem_of_find?_eq_some hfind⟩
    · cases href
  · split at href
    · cases href
    · rw [List.mem_singleton.mp href]
      exact Or.inl ⟨rfl, mem_upTo.mpr ⟨Int.natCast_nonneg _, Int.ofNat_lt.mpr hrank⟩⟩
  · split at href
    · cases href
    · rw [List.mem_singleton.mp href]
      have hlt : ∀ {i n : Nat}, i < n → 0 ≤ (i : Int) ∧ (i : Int) < n :=
        fun hlt => ⟨Int.natCast_nonneg _, Int.ofNat_lt.mpr hlt⟩
      exact Or.inr ⟨rfl, hlt hrank, hlt hbg, hlt hbank⟩

end

/-! ## Issuing a command -/

/-- The controller after the data of a command has been transferred. -/
def completed (config : Config) (c : Controller) (cmd : Command) : Controller :=
  if cmd.cmdType.isRead then
    { c with
      returnQueue := c.returnQueue ++ (c.pendingRdQ.vals cmd.hexAddr).map fun it =>
        { it with completeCycle := later c.clk config.readDelay }
      pendingRdQ := c.pendingRdQ.filter fun e => e.1 ≠ cmd.hexAddr }
  else if cmd.cmdType.isWrite then { c with pendingWrQ := c.pendingWrQ.erase cmd.hexAddr }
  else c

section
variable {config : Config} {c c' : Controller} {cmd : Command}

theorem returnReads_eq (a : UInt64) (n : Nat) (hn : c.pendingRdQ.keyCount a = n) : c.returnReads config a n =
    { c with
      returnQueue := c.returnQueue ++ (c.pendingRdQ.vals a).map fun it =>
        { it with completeCycle := later c.clk config.readDelay }
      pendingRdQ := c.pendingRdQ.filter fun e => e.1 ≠ a } := by
  induction n generalizing c with
  | zero =>
    have hnil : c.pendingRdQ.vals a = [] := List.eq_nil_of_length_eq_zero hn
    have hall : c.pendingRdQ.filter (fun e => e.1 ≠ a) = c.pendingRdQ := by
      refine List.filter_eq_self.mpr fun e he => ?_
      by_contra hk
      have hmem : e.2 ∈ c.pendingRdQ.vals a :=
        List.mem_map_of_mem (List.mem_filter.mpr ⟨he, by simpa using hk⟩)
      rw [hnil] at hmem
      cases hmem
    rw [hnil, hall, List.map_nil, List.append_nil]
    rfl
  | succ n ih =>
    cases hv : c.pendingRdQ.vals a with
    | nil => simp [Multimap.keyCount, hv] at hn
    | cons it its =>
      have hfind : c.pendingRdQ.find? a = some it := by rw [Multimap.find?_eq_head, hv]; rfl
      have herase : (c.pendingRdQ.erase a).vals a = its := by rw [Multimap.vals_erase, if_pos rfl, hv]; rfl
      have hcount : (c.pendingRdQ.erase a).keyCount a = n := by
        rw [Multimap.keyCount_erase, if_pos rfl, hn]
        rfl
      simp only [returnReads, hfind]
      rw [ih hcount]
      simp only [herase, Multimap.filter_ne_erase, List.map_cons, List.append_assoc, List.cons_append,
        List.nil_append]

theorem complete_eq (h : c.complete config cmd = .ok c') : c' = c.completed config cmd ∧
    (cmd.cmdType.isRead = true → 0 < c.pendingRdQ.keyCount cmd.hexAddr) ∧
    (cmd.cmdType.isWrite = true → 0 < c.pendingWrQ.keyCount cmd.hexAddr) := by
  unfold complete at h
  unfold completed
  by_cases hr : cmd.cmdType.isRead = true
  · have hw : cmd.cmdType.isWrite ≠ true := by
      cases hc : cmd.cmdType <;> simp [hc, CommandType.isRead, CommandType.isWrite] at hr ⊢
    rw [if_pos hr] at h ⊢
    dsimp only at h
    split at h
    · cases h
    · rename_i hne
      obtain rfl := Except.ok.inj h
      exact ⟨returnReads_eq cmd.hexAddr _ rfl, fun _ => Nat.pos_of_ne_zero hne, fun h => absurd h hw⟩
  · rw [if_neg hr] at h ⊢
    by_cases hw : cmd.cmdType.isWrite = true
    · rw [if_pos hw] at h ⊢
      split at h
      · cases h
      · rename_i it hfind
        obtain rfl := Except.ok.inj h
        refine ⟨rfl, fun h => absurd h hr, fun _ => ?_⟩
        rw [← Multimap.find?_isSome_iff, hfind]
        rfl
    · rw [if_neg hw] at h ⊢
      exact ⟨(Except.ok.inj h).symm, fun h => absurd h hr, fun h => absurd h hw⟩

/-- What a command does when it is issued. -/
structure Issued (config : Config) (cmd : Command) (c c' : Controller) : Prop where
  read : cmd.cmdType.isRead = true → 0 < c.pendingRdQ.keyCount cmd.hexAddr
  write : cmd.cmdType.isWrite = true → 0 < c.pendingWrQ.keyCount cmd.hexAddr
  executed : Executed config c.clk cmd c.channelState c'.channelState
  rest : c' = { c.completed config cmd with
    channelState := c'.channelState
    trace := c.trace ++ [(c.clk, cmd)] }

theorem completed_frame (config : Config) (c : Controller) (cmd : Command) :
    (c.completed config cmd).clk = c.clk ∧ (c.completed config cmd).channelState = c.channelState ∧
      (c.completed config cmd).trace = c.trace := by
  unfold completed
  split
  · exact ⟨rfl, rfl, rfl⟩
  · split <;> exact ⟨rfl, rfl, rfl⟩

theorem completed_eq (config : Config) (c : Controller) (cmd : Command) : c.completed config cmd =
    { c with
      returnQueue := (c.completed config cmd).returnQueue
      pendingRdQ := (c.completed config cmd).pendingRdQ
      pendingWrQ := (c.completed config cmd).pendingWrQ } := by
  unfold completed
  split
  · rfl
  · split <;> rfl

theorem Issued.eq (h : Issued config cmd c c') : c' =
    { c with
      returnQueue := (c.completed config cmd).returnQueue
      pendingRdQ := (c.completed config cmd).pendingRdQ
      pendingWrQ := (c.completed config cmd).pendingWrQ
      channelState := c'.channelState
      trace := c.trace ++ [(c.clk, cmd)] } := by
  have hrest := h.rest
  rw [completed_eq] at hrest
  exact hrest

theorem issueCommand_spec (h : c.issueCommand config cmd = .ok c') : Issued config cmd c c' := by
  obtain ⟨c₁, hcomplete, h⟩ := bind_eq_ok.mp h
  obtain ⟨ch, hexec, h⟩ := bind_eq_ok.mp h
  obtain rfl := pure_eq_ok.mp h
  obtain ⟨rfl, hread, hwrite⟩ := complete_eq hcomplete
  obtain ⟨hclk, hch, htrace⟩ := completed_frame config c cmd
  rw [hclk, hch] at hexec
  refine ⟨hread, hwrite, updateTimingAndStates_spec hexec, ?_⟩
  dsimp only
  rw [hclk, htrace]

theorem issueCommand_ok (hread : cmd.cmdType.isRead = true → 0 < c.pendingRdQ.keyCount cmd.hexAddr)
    (hwrite : cmd.cmdType.isWrite = true → 0 < c.pendingWrQ.keyCount cmd.hexAddr)
    (hbanks : ∀ b ∈ config.touched cmd, (c.channelState.bankStates b).Allows cmd) :
    ∃ c', c.issueCommand config cmd = .ok c' := by
  have hcomplete : ∃ c₁, c.complete config cmd = .ok c₁ := by
    unfold complete
    split
    · rename_i hr
      exact ⟨_, if_neg (Nat.ne_of_gt (hread hr))⟩
    · split
      · rename_i hw
        obtain ⟨it, hit⟩ := Option.isSome_iff_exists.mp ((Multimap.find?_isSome_iff _ _).mpr (hwrite hw))
        rw [hit]
        exact ⟨_, rfl⟩
      · exact ⟨_, rfl⟩
  obtain ⟨c₁, h₁⟩ := hcomplete
  obtain ⟨rfl, -, -⟩ := complete_eq h₁
  obtain ⟨hclk, hch, -⟩ := completed_frame config c cmd
  obtain ⟨ch, hexec⟩ := updateTimingAndStates_ok c.clk hbanks
  unfold issueCommand
  rw [ok_bind h₁, hclk, hch, ok_bind hexec]
  exact ⟨_, rfl⟩

end

/-! ## Scheduling a transaction -/

/-- The front of a transaction queue goes to the end of its command queue, if that has room; a write waits for the
reads of its address. -/
inductive Scheduled (config : Config) (c : Controller) : Controller → Prop
  | none (w : Int) : Scheduled config c { c with writeDraining := w }
  | unified (w : Int) {it queue} : config.unifiedQueue = true → c.unifiedQueue = it :: queue →
      c.cmdQueue.willAcceptCommand config (config.addressMapping it.addr).bankId = true →
      Scheduled config c { c with
        writeDraining := w
        cmdQueue := (c.cmdQueue.addCommand config (transToCommand config it)).2
        unifiedQueue := queue }
  | write (w : Int) {it queue} : config.unifiedQueue = false → c.writeBuffer = it :: queue →
      c.cmdQueue.willAcceptCommand config (config.addressMapping it.addr).bankId = true →
      c.pendingRdQ.keyCount it.addr = 0 →
      Scheduled config c { c with
        writeDraining := w
        cmdQueue := (c.cmdQueue.addCommand config (transToCommand config it)).2
        writeBuffer := queue }
  | read (w : Int) {it queue} : config.unifiedQueue = false → c.readQueue = it :: queue →
      c.cmdQueue.willAcceptCommand config (config.addressMapping it.addr).bankId = true →
      Scheduled config c { c with
        writeDraining := w
        cmdQueue := (c.cmdQueue.addCommand config (transToCommand config it)).2
        readQueue := queue }

theorem scheduleTransaction_spec (config : Config) (c : Controller) :
    Scheduled config c (c.scheduleTransaction config) := by
  have hstart : ∃ w, c.startDraining config = { c with writeDraining := w } := by
    unfold startDraining
    split <;> exact ⟨_, rfl⟩
  obtain ⟨w, hw⟩ := hstart
  unfold scheduleTransaction
  rw [hw]
  dsimp only
  split
  · rename_i hu
    split
    · exact .none w
    · rename_i it queue hq
      split
      · rename_i hroom
        exact .unified w hu hq hroom
      · exact .none w
  · rename_i hu
    have hu : config.unifiedQueue = false := Bool.not_eq_true _ ▸ hu
    split
    · split
      · exact .none w
      · rename_i it queue hq
        split
        · rename_i hroom
          split
          · exact .none 0
          · rename_i hzero
            exact .write _ hu hq hroom (Nat.eq_zero_of_not_pos hzero)
        · exact .none w
    · split
      · exact .none w
      · rename_i it queue hq
        split
        · rename_i hroom
          exact .read w hu hq hroom
        · exact .none w

/-- What scheduling does not change. -/
theorem scheduleTransaction_eq (config : Config) (c : Controller) : c.scheduleTransaction config =
    { c with
      cmdQueue := (c.scheduleTransaction config).cmdQueue
      unifiedQueue := (c.scheduleTransaction config).unifiedQueue
      readQueue := (c.scheduleTransaction config).readQueue
      writeBuffer := (c.scheduleTransaction config).writeBuffer
      writeDraining := (c.scheduleTransaction config).writeDraining } := by
  have hs := scheduleTransaction_spec config c
  generalize c.scheduleTransaction config = c' at hs ⊢
  cases hs <;> rfl

theorem addCommand_eq {config : Config} {q : CommandQueue} {cmd : Command}
    (h : q.willAcceptCommand config cmd.addr.bankId = true) : (q.addCommand config cmd).2 =
      { q with
        queues := Function.update q.queues (CommandQueue.getQueueIndex config cmd.addr.bankId)
          (q.queues (CommandQueue.getQueueIndex config cmd.addr.bankId) ++ [cmd])
        rankQEmpty := Function.update q.rankQEmpty cmd.addr.rank false } := by
  unfold CommandQueue.addCommand
  dsimp only
  rw [if_pos h]

/-! ## Well-formed queues -/

structure Formed (config : Config) (c : Controller) : Prop where
  clk : c.cmdQueue.clk = c.clk
  queued : ∀ index, ∀ cmd ∈ c.cmdQueue.queues index,
    (∃ t, cmd = transToCommand config t) ∧ CommandQueue.getQueueIndex config cmd.addr.bankId = index
  refreshes : ∀ ref ∈ c.channelState.refreshQ,
    ref.cmdType = .refresh ∧ ref.addr.rank ∈ upTo config.ranks ∨
      ref.cmdType = .refreshBank ∧ config.HasBank ref.addr.bankId
  next : InTurn config c.refresh
  unified : config.unifiedQueue = true → c.readQueue = [] ∧ c.writeBuffer = []
  separate : config.unifiedQueue = false → c.unifiedQueue = []
  readQueue : ∀ t ∈ c.readQueue, t.isWrite = false
  writeBuffer : ∀ t ∈ c.writeBuffer, t.isWrite = true
  pendingRdQ : ∀ e ∈ c.pendingRdQ, e.2.addr = e.1 ∧ e.2.isWrite = false
  pendingWrQ : ∀ e ∈ c.pendingWrQ, e.2.addr = e.1 ∧ e.2.isWrite = true

section
variable {config : Config} {c c' : Controller} {cmd : Command}

theorem transToCommand_isReadWrite (config : Config) (t : Transaction) :
    (transToCommand config t).cmdType.isReadWrite = true ∧
      (transToCommand config t).cmdType.isWrite = t.isWrite := by
  unfold transToCommand
  cases config.rowBufPolicy <;> cases t.isWrite <;> exact ⟨rfl, rfl⟩

theorem Formed.readWrite (h : Formed config c) {index : Int} (hcmd : cmd ∈ c.cmdQueue.queues index) :
    cmd.cmdType.isReadWrite = true := by
  obtain ⟨⟨t, rfl⟩, -⟩ := h.queued index cmd hcmd
  exact (transToCommand_isReadWrite config t).1

theorem Formed.addr_eq (h : Formed config c) {index : Int} (hcmd : cmd ∈ c.cmdQueue.queues index) :
    cmd.addr = config.addressMapping cmd.hexAddr := by
  obtain ⟨⟨t, rfl⟩, -⟩ := h.queued index cmd hcmd
  rfl

/-- A command that transfers data and was handed out for a request is the request. -/
theorem serves_readWrite {req : Command} (h : Serves config req cmd) (hrw : cmd.cmdType.isReadWrite = true) :
    cmd = req := by
  cases h with
  | same => rfl
  | bank t _ ht => rcases ht with rfl | rfl | rfl <;> cases hrw
  | rank b _ _ => cases hrw

/-- Only the command queues change when a command is selected, and they lose at most the command. -/
theorem Selected.frame (h : Selected config c cmd c') : ∃ q, c' = { c with cmdQueue := q } ∧ q.clk = c.cmdQueue.clk ∧
    (∀ index, (q.queues index).Sublist (c.cmdQueue.queues index)) ∧
    (cmd.cmdType.isReadWrite = false → q.queues = c.cmdQueue.queues) := by
  obtain ⟨index, hq⟩ := h.queue
  split at hq
  · rename_i hrw
    obtain ⟨q, herase, rfl⟩ := hq
    unfold CommandQueue.eraseRWCommand at herase
    dsimp only at herase
    split at herase
    · obtain rfl := Except.ok.inj herase
      refine ⟨_, rfl, rfl, fun i => ?_, fun hrow => absurd hrw (by simp [hrow])⟩
      by_cases hi : i = CommandQueue.getQueueIndex config cmd.addr.bankId
      · subst hi
        dsimp only
        rw [Function.update_self]
        exact List.eraseP_sublist
      · dsimp only
        rw [Function.update_of_ne hi]
    · cases herase
  · subst hq
    exact ⟨_, rfl, rfl, fun i => List.Sublist.refl _, fun _ => rfl⟩

theorem Formed.selected (h : Formed config c) (hsel : Selected config c cmd c') : Formed config c' := by
  obtain ⟨q, rfl, hclk, hsub, -⟩ := hsel.frame
  exact { h with
    clk := hclk.trans h.clk
    queued := fun index cmd hcmd => h.queued index cmd ((hsub index).mem hcmd) }

theorem refreshQAfter_sublist (cmd : Command) (q : List Command) : (refreshQAfter cmd q).Sublist q := by
  unfold refreshQAfter
  split
  · exact List.eraseP_sublist
  · exact List.eraseP_sublist
  · exact List.Sublist.refl _

theorem refreshQAfter_of_not (hrefresh : cmd.cmdType.isRefresh = false) (l : List Command) : refreshQAfter cmd l = l := by
  unfold refreshQAfter
  cases hc : cmd.cmdType <;> rw [hc] at hrefresh <;> first | rfl | cases hrefresh

/-- A refresh that is issued is the first of those that wait. -/
theorem refreshQAfter_head (hrefresh : cmd.cmdType.isRefresh = true) (refs : List Command) :
    refreshQAfter cmd (cmd :: refs) = refs := by
  unfold refreshQAfter
  cases hc : cmd.cmdType <;> rw [hc] at hrefresh <;> first | cases hrefresh; done | simp

theorem mem_completed {e : UInt64 × Transaction} :
    (e ∈ (c.completed config cmd).pendingRdQ → e ∈ c.pendingRdQ) ∧
      (e ∈ (c.completed config cmd).pendingWrQ → e ∈ c.pendingWrQ) := by
  unfold completed
  split
  · exact ⟨fun h => List.mem_of_mem_filter h, id⟩
  · split
    · exact ⟨id, fun h => List.mem_of_mem_eraseP h⟩
    · exact ⟨id, id⟩

theorem Formed.issued (h : Formed config c) (hi : Issued config cmd c c') : Formed config c' := by
  have hq := hi.executed.refreshQ
  rw [hi.eq]
  exact { h with
    refreshes := fun ref href => h.refreshes ref ((refreshQAfter_sublist cmd _).mem (hq ▸ href))
    pendingRdQ := fun e he => h.pendingRdQ e (mem_completed.1 he)
    pendingWrQ := fun e he => h.pendingWrQ e (mem_completed.2 he) }

theorem Formed.demand (h : Formed config c) : Formed config (c.tickRefresh config) := by
  obtain ⟨hrank, hbg, hbank⟩ := h.next
  rw [tickRefresh_eq]
  refine { h with refreshes := ?_, next := ?_ }
  · intro ref href
    rcases List.mem_append.mp href with href | href
    · exact h.refreshes ref href
    · split at href
      · exact wanted_inRange h.next href
      · cases href
  · split
    · exact iterateNext_lt h.next
    · exact h.next

/-- A command that is added to its queue is well formed if its transaction is. -/
theorem Formed.enqueue (h : Formed config c) {it : Transaction}
    (hroom : c.cmdQueue.willAcceptCommand config (config.addressMapping it.addr).bankId = true) :
    Formed config { c with cmdQueue := (c.cmdQueue.addCommand config (transToCommand config it)).2 } := by
  rw [addCommand_eq hroom]
  refine { h with queued := fun index cmd hcmd => ?_ }
  dsimp only at hcmd
  by_cases hi : index = CommandQueue.getQueueIndex config (transToCommand config it).addr.bankId
  · subst hi
    rw [Function.update_self] at hcmd
    rcases List.mem_append.mp hcmd with hcmd | hcmd
    · exact h.queued _ cmd hcmd
    · rw [List.mem_singleton.mp hcmd]
      exact ⟨⟨it, rfl⟩, rfl⟩
  · rw [Function.update_of_ne hi] at hcmd
    exact h.queued index cmd hcmd

theorem Formed.scheduled (h : Formed config c) (hs : Scheduled config c c') : Formed config c' := by
  cases hs with
  | none w => exact { h with }
  | @unified w it queue hu hq hroom =>
    have h' := h.enqueue hroom
    refine { h' with separate := fun hsep => ?_ }
    rw [hu] at hsep
    cases hsep
  | @write w it queue hu hq hroom _ =>
    have h' := h.enqueue hroom
    refine { h' with
      unified := fun huni => ?_
      writeBuffer := fun t ht => h.writeBuffer t (hq ▸ List.mem_cons_of_mem _ ht) }
    rw [hu] at huni
    cases huni
  | @read w it queue hu hq hroom =>
    have h' := h.enqueue hroom
    refine { h' with
      unified := fun huni => ?_
      readQueue := fun t ht => h.readQueue t (hq ▸ List.mem_cons_of_mem _ ht) }
    rw [hu] at huni
    cases huni

theorem Formed.atom (h : Formed config c) (step : Atom config c c') : Formed config c' := by
  cases step with
  | demand => exact h.demand
  | book => exact { h with }
  | issue hsel hissue => exact (h.selected hsel).issued (issueCommand_spec hissue)
  | lose _ _ _ _ hsel => exact h.selected hsel
  | refresh _ _ hissue => exact h.issued (issueCommand_spec hissue)
  | selfRefresh _ _ _ _ hissue => exact h.issued (issueCommand_spec hissue)
  | idle => exact { h with }
  | schedule => exact h.scheduled (scheduleTransaction_spec config c)
  | advance => exact { h with clk := congrArg (· + 1) h.clk }

theorem Formed.add (h : Formed config c) (trans : Transaction) : Formed config (c.addTransaction config trans) := by
  have hinsert : ∀ {m : Multimap UInt64 Transaction} {k : UInt64} {t : Transaction} {w : Bool},
      (∀ e ∈ m, e.2.addr = e.1 ∧ e.2.isWrite = w) → t.addr = k ∧ t.isWrite = w →
      ∀ e ∈ m.insert k t, e.2.addr = e.1 ∧ e.2.isWrite = w := by
    intro m k t w hm ht e he
    rcases List.mem_append.mp he with he | he
    · exact hm e he
    · rw [List.mem_singleton.mp he]
      exact ht
  have hlast : ∀ {l : List Transaction} {t : Transaction} {w : Bool}, (∀ x ∈ l, x.isWrite = w) → t.isWrite = w →
      ∀ x ∈ l ++ [t], x.isWrite = w := by
    intro l t w hl ht x hx
    rcases List.mem_append.mp hx with hx | hx
    · exact hl x hx
    · rw [List.mem_singleton.mp hx]
      exact ht
  unfold addTransaction
  dsimp only
  split
  · rename_i hw
    split
    · by_cases hu : config.unifiedQueue = true
      · rw [if_pos hu]
        exact { h with
          separate := fun hsep => absurd hu (by simp [hsep])
          pendingWrQ := hinsert h.pendingWrQ ⟨rfl, hw⟩ }
      · rw [if_neg hu]
        exact { h with
          unified := fun huni => absurd huni hu
          writeBuffer := hlast h.writeBuffer hw
          pendingWrQ := hinsert h.pendingWrQ ⟨rfl, hw⟩ }
    · exact { h with }
  · rename_i hw
    have hw : trans.isWrite = false := Bool.not_eq_true _ ▸ hw
    split
    · exact { h with }
    · split
      · by_cases hu : config.unifiedQueue = true
        · rw [if_pos hu]
          exact { h with
            separate := fun hsep => absurd hu (by simp [hsep])
            pendingRdQ := hinsert h.pendingRdQ ⟨rfl, hw⟩ }
        · rw [if_neg hu]
          exact { h with
            unified := fun huni => absurd huni hu
            readQueue := hlast h.readQueue hw
            pendingRdQ := hinsert h.pendingRdQ ⟨rfl, hw⟩ }
      · exact { h with pendingRdQ := hinsert h.pendingRdQ ⟨rfl, hw⟩ }

end

end Controller

end Dramsim3

end Anna
