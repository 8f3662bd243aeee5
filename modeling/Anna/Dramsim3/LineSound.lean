import Anna.Dramsim3.ControllerSound
import Mathlib.Data.List.Sublists

/-!
# One read and one write for an address

For every address the command queues and the transaction queues together hold
at most one read and one write, the read in front (`Lined`): a read that finds
another one pending waits for its data, a write merges into a pending write,
and a read behind a pending write is answered from it.
-/

namespace Anna

namespace Dramsim3

/-! ## The line of an address -/

/-- What the command queues hold for an address, the front first: whether it is a write. -/
def CommandQueue.line (config : Config) (q : CommandQueue) (a : UInt64) : List Bool :=
  ((q.queues (getQueueIndex config (config.addressMapping a).bankId)).filter fun cmd => cmd.hexAddr = a).map
    fun cmd => cmd.cmdType.isWrite

namespace Controller

def transLine (queue : List Transaction) (a : UInt64) : List Bool :=
  (queue.filter fun t => t.addr = a).map Transaction.isWrite

def line (config : Config) (c : Controller) (a : UInt64) : List Bool :=
  c.cmdQueue.line config a ++ (transLine c.unifiedQueue a ++ (transLine c.readQueue a ++ transLine c.writeBuffer a))

structure Lined (config : Config) (c : Controller) : Prop where
  order : ∀ a, (line config c a).Sublist [false, true]
  read : ∀ a, false ∈ line config c a → 0 < c.pendingRdQ.keyCount a
  write : ∀ a, true ∈ line config c a → 0 < c.pendingWrQ.keyCount a
  once : ∀ a, c.pendingWrQ.keyCount a ≤ 1

theorem sublist_cases {l : List Bool} (h : l.Sublist [false, true]) :
    l = [] ∨ l = [false] ∨ l = [true] ∨ l = [false, true] := by
  have hmem : l ∈ [false, true].sublists' := List.mem_sublists'.mpr h
  simp only [List.sublists'_cons, List.sublists'_nil, List.map_cons, List.map_nil, List.cons_append,
    List.nil_append, List.mem_cons, List.not_mem_nil, or_false] at hmem
  tauto

theorem transLine_nil (a : UInt64) : transLine [] a = [] := rfl

theorem transLine_cons (it : Transaction) (queue : List Transaction) (a : UInt64) :
    transLine (it :: queue) a = (if it.addr = a then [it.isWrite] else []) ++ transLine queue a := by
  unfold transLine
  by_cases h : it.addr = a <;> simp [h]

theorem transLine_concat (queue : List Transaction) (it : Transaction) (a : UInt64) :
    transLine (queue ++ [it]) a = transLine queue a ++ if it.addr = a then [it.isWrite] else [] := by
  unfold transLine
  by_cases h : it.addr = a <;> simp [h]

theorem transLine_eq_nil {queue : List Transaction} {a : UInt64} {w : Bool} (h : ∀ t ∈ queue, t.isWrite = w)
    (hnot : w ∉ transLine queue a) : transLine queue a = [] := by
  rw [List.eq_nil_iff_forall_not_mem]
  intro v hv
  obtain ⟨t, ht, rfl⟩ := List.mem_map.mp hv
  rw [h t (List.mem_of_mem_filter ht)] at hv
  exact hnot hv

section
variable {config : Config} {c c₁ c' : Controller} {cmd : Command}

/-! ## Scheduling -/

theorem line_addCommand {q : CommandQueue} {it : Transaction}
    (hroom : q.willAcceptCommand config (config.addressMapping it.addr).bankId = true) (a : UInt64) :
    (q.addCommand config (transToCommand config it)).2.line config a =
      q.line config a ++ if it.addr = a then [it.isWrite] else [] := by
  rw [addCommand_eq hroom]
  unfold CommandQueue.line
  dsimp only
  by_cases hindex : CommandQueue.getQueueIndex config (config.addressMapping a).bankId =
      CommandQueue.getQueueIndex config (transToCommand config it).addr.bankId
  · rw [hindex, Function.update_self, List.filter_append, List.map_append]
    congr 1
    have hhex : (transToCommand config it).hexAddr = it.addr := rfl
    by_cases ha : it.addr = a
    · simp [hhex, ha, (transToCommand_isReadWrite config it).2]
    · simp [hhex, ha]
  · have ha : it.addr ≠ a := by
      rintro rfl
      exact hindex rfl
    rw [Function.update_of_ne hindex, if_neg ha, List.append_nil]

/-- A transaction keeps its place when it moves to the command queues. -/
theorem Scheduled.line_eq (hf : Formed config c) (h : Lined config c) (hs : Scheduled config c c') (a : UInt64) :
    line config c' a = line config c a := by
  cases hs with
  | none w => rfl
  | @unified w it queue hu hq hroom =>
    simp only [line, line_addCommand hroom, hq, transLine_cons, List.append_assoc]
  | @write w it queue hu hq hroom hzero =>
    have hunified := hf.separate hu
    by_cases ha : it.addr = a
    · subst ha
      have hread : transLine c.readQueue it.addr = [] := by
        refine transLine_eq_nil hf.readQueue fun hmem => ?_
        have := h.read it.addr (by simp [line, hmem])
        omega
      simp only [line, line_addCommand hroom, hq, hunified, hread, transLine_cons, transLine_nil, List.nil_append,
        List.append_assoc]
    · simp only [line, line_addCommand hroom, hq, transLine_cons, if_neg ha, List.append_nil, List.nil_append]
  | @read w it queue hu hq hroom =>
    have hunified := hf.separate hu
    simp only [line, line_addCommand hroom, hq, hunified, transLine_cons, transLine_nil, List.nil_append,
      List.append_assoc]

theorem Scheduled.pending_eq (hs : Scheduled config c c') :
    c'.pendingRdQ = c.pendingRdQ ∧ c'.pendingWrQ = c.pendingWrQ := by
  cases hs <;> exact ⟨rfl, rfl⟩

theorem Lined.scheduled (hf : Formed config c) (h : Lined config c) (hs : Scheduled config c c') : Lined config c' := by
  have hframe := hs.pending_eq
  have hline := hs.line_eq hf h
  refine ⟨?_, ?_, ?_, ?_⟩
  · exact fun a => hline a ▸ h.order a
  · rw [hframe.1]
    exact fun a ha => h.read a (hline a ▸ ha)
  · rw [hframe.2]
    exact fun a ha => h.write a (hline a ▸ ha)
  · rw [hframe.2]
    exact h.once

/-! ## Selecting -/

theorem filter_eraseP_of_ne {l : List Command} {p : Command → Bool} {a : UInt64}
    (hp : ∀ x ∈ l, p x = true → x.hexAddr ≠ a) :
    (l.eraseP p).filter (fun x => x.hexAddr = a) = l.filter fun x => x.hexAddr = a := by
  induction l with
  | nil => rfl
  | cons x l ih =>
    have hrest := ih fun y hy => hp y (List.mem_cons_of_mem _ hy)
    by_cases hx : p x = true
    · rw [List.eraseP_cons_of_pos hx, List.filter_cons_of_neg]
      simpa using hp x List.mem_cons_self hx
    · rw [List.eraseP_cons_of_neg hx, List.filter_cons, List.filter_cons, hrest]

theorem map_filter_eraseP {l : List Command} {p : Command → Bool} {a : UInt64} {w : Bool}
    (hp : ∀ x ∈ l, p x = true ↔ x.hexAddr = a ∧ x.cmdType.isWrite = w) :
    ((l.eraseP p).filter fun x => x.hexAddr = a).map (fun x => x.cmdType.isWrite) =
      ((l.filter fun x => x.hexAddr = a).map fun x => x.cmdType.isWrite).erase w := by
  induction l with
  | nil => rfl
  | cons x l ih =>
    have hrest := ih fun y hy => hp y (List.mem_cons_of_mem _ hy)
    have hx := hp x List.mem_cons_self
    by_cases ha : x.hexAddr = a
    · by_cases hw : x.cmdType.isWrite = w
      · simp [hx.mpr ⟨ha, hw⟩, ha, hw]
      · have hpx : ¬ p x = true := fun h => hw (hx.mp h).2
        rw [List.eraseP_cons_of_neg hpx, List.filter_cons_of_pos (by simpa using ha),
          List.filter_cons_of_pos (by simpa using ha), List.map_cons, List.map_cons, hrest,
          List.erase_cons_tail (by simpa using hw)]
    · have hpx : ¬ p x = true := fun h => ha (hx.mp h).1
      rw [List.eraseP_cons_of_neg hpx, List.filter_cons_of_neg (by simpa using ha),
        List.filter_cons_of_neg (by simpa using ha), hrest]

theorem transToCommand_cmdType (config : Config) (t u : Transaction) :
    (transToCommand config t).cmdType = (transToCommand config u).cmdType ↔ t.isWrite = u.isWrite := by
  unfold transToCommand
  cases config.rowBufPolicy <;> cases t.isWrite <;> cases u.isWrite <;> simp

/-- A command that transfers data and is selected stands in the queue of its address. -/
theorem Selected.queued (hf : Formed config c) (h : Selected config c cmd c') (hrw : cmd.cmdType.isReadWrite = true) :
    ∃ before after t, cmd = transToCommand config t ∧
      c.cmdQueue.queues (CommandQueue.getQueueIndex config (config.addressMapping cmd.hexAddr).bankId) =
        before ++ cmd :: after ∧
      (cmd.cmdType.isWrite = true → CommandQueue.hasRWDependency before cmd = false) := by
  obtain ⟨index, before, req, after, hqueue, hready, -, hdep⟩ := h.request
  obtain rfl := serves_readWrite (getReadyCommand_spec hready).2 hrw
  have hmem : cmd ∈ c.cmdQueue.queues index := by
    rw [hqueue]
    exact List.mem_append_right _ List.mem_cons_self
  obtain ⟨⟨t, ht⟩, hindex⟩ := hf.queued index cmd hmem
  rw [hf.addr_eq hmem] at hindex
  rw [hindex]
  exact ⟨before, after, t, ht, hqueue, hdep⟩

/-- Selecting a command that transfers data takes it out of the line of its address. -/
theorem Selected.cmdLine_eq (hf : Formed config c) (h : Selected config c cmd c')
    (hrw : cmd.cmdType.isReadWrite = true) (a : UInt64) : c'.cmdQueue.line config a =
      if cmd.hexAddr = a then (c.cmdQueue.line config a).erase cmd.cmdType.isWrite else c.cmdQueue.line config a := by
  obtain ⟨before, after, t, ht, hqueue, -⟩ := h.queued hf hrw
  obtain ⟨index, hq⟩ := h.queue
  rw [if_pos hrw] at hq
  obtain ⟨q, herase, rfl⟩ := hq
  unfold CommandQueue.eraseRWCommand at herase
  dsimp only at herase
  split at herase
  · obtain rfl := Except.ok.inj herase
    have haddr : cmd.addr = config.addressMapping cmd.hexAddr := by rw [ht]; rfl
    rw [haddr]
    unfold CommandQueue.line
    dsimp only
    by_cases ha : cmd.hexAddr = a
    · subst ha
      rw [if_pos rfl, Function.update_self, map_filter_eraseP]
      intro x hx
      obtain ⟨⟨u, hu⟩, -⟩ := hf.queued _ x hx
      rw [decide_eq_true_iff, eq_comm, ht, hu, transToCommand_cmdType,
        (transToCommand_isReadWrite config u).2, (transToCommand_isReadWrite config t).2, eq_comm]
      exact and_congr_right fun _ => eq_comm
    · rw [if_neg ha]
      by_cases hindex : CommandQueue.getQueueIndex config (config.addressMapping a).bankId =
          CommandQueue.getQueueIndex config (config.addressMapping cmd.hexAddr).bankId
      · rw [hindex, Function.update_self, filter_eraseP_of_ne]
        intro x _ hsame hx
        exact ha ((decide_eq_true_iff.mp hsame).1.trans hx)
      · rw [Function.update_of_ne hindex]
  · cases herase

theorem Selected.mem_cmdLine (hf : Formed config c) (h : Selected config c cmd c')
    (hrw : cmd.cmdType.isReadWrite = true) : cmd.cmdType.isWrite ∈ c.cmdQueue.line config cmd.hexAddr := by
  obtain ⟨before, after, t, ht, hqueue, -⟩ := h.queued hf hrw
  refine List.mem_map_of_mem (List.mem_filter.mpr ⟨?_, decide_eq_true rfl⟩)
  rw [hqueue]
  exact List.mem_append_right _ List.mem_cons_self

theorem Selected.line_eq (hf : Formed config c) (h : Selected config c cmd c') (hrw : cmd.cmdType.isReadWrite = true)
    (a : UInt64) : line config c' a =
      if cmd.hexAddr = a then (line config c a).erase cmd.cmdType.isWrite else line config c a := by
  have hcmd := h.cmdLine_eq hf hrw a
  have hmem := h.mem_cmdLine hf hrw
  obtain ⟨q, rfl, -⟩ := h.frame
  unfold line
  dsimp only at hcmd ⊢
  rw [hcmd]
  split
  · rename_i ha
    subst ha
    rw [List.erase_append_left _ hmem]
  · rfl

theorem Selected.line_of_not (h : Selected config c cmd c') (hrw : cmd.cmdType.isReadWrite = false) (a : UInt64) :
    line config c' a = line config c a := by
  obtain ⟨q, rfl, -, -, hsame⟩ := h.frame
  unfold line CommandQueue.line
  dsimp only
  rw [hsame hrw]

theorem Lined.selected (hf : Formed config c) (h : Lined config c) (hsel : Selected config c cmd c') :
    Lined config c' := by
  have hsub : ∀ a, (line config c' a).Sublist (line config c a) := by
    intro a
    by_cases hrw : cmd.cmdType.isReadWrite = true
    · rw [hsel.line_eq hf hrw]
      split
      · exact List.erase_sublist
      · exact List.Sublist.refl _
    · rw [hsel.line_of_not (Bool.not_eq_true _ ▸ hrw)]
  obtain ⟨q, rfl, -⟩ := hsel.frame
  exact ⟨fun a => (hsub a).trans (h.order a), fun a ha => h.read a ((hsub a).mem ha),
    fun a ha => h.write a ((hsub a).mem ha), h.once⟩

/-! ## Issuing -/

theorem completed_of_not (hrw : cmd.cmdType.isReadWrite = false) : c.completed config cmd = c := by
  obtain ⟨hr, hw⟩ := Bool.or_eq_false_iff.mp hrw
  unfold completed
  rw [if_neg (by simp [hr]), if_neg (by simp [hw])]

theorem not_isWrite_of_isRead {t : CommandType} (h : t.isRead = true) : t.isWrite = false := by
  cases t <;> simp [CommandType.isRead, CommandType.isWrite] at h ⊢

/-- The reads and the writes of an address that are pending after a command. -/
theorem completed_keyCount (config : Config) (c : Controller) (cmd : Command) (a : UInt64) :
    (c.completed config cmd).pendingRdQ.keyCount a =
        (if cmd.cmdType.isRead = true ∧ cmd.hexAddr = a then 0 else c.pendingRdQ.keyCount a) ∧
      (c.completed config cmd).pendingWrQ.keyCount a =
        c.pendingWrQ.keyCount a - if cmd.cmdType.isWrite = true ∧ cmd.hexAddr = a then 1 else 0 := by
  unfold completed
  by_cases hr : cmd.cmdType.isRead = true
  · have hw := not_isWrite_of_isRead hr
    simp only [hr, hw, if_true, true_and, Bool.false_eq_true, false_and, if_false, Nat.sub_zero, and_true]
    exact Multimap.keyCount_filter_ne _ _ _
  · by_cases hw : cmd.cmdType.isWrite = true
    · simp only [hr, hw, if_true, if_false, Bool.false_eq_true, false_and, true_and]
      exact Multimap.keyCount_erase _ _ _
    · simp [hr, hw]

theorem Issued.line_eq (hi : Issued config cmd c c') (a : UInt64) : line config c' a = line config c a := by
  rw [hi.eq]
  rfl

/-- A command that has been taken from its queue answers what was pending for it. -/
theorem Lined.answered (hf : Formed config c) (h : Lined config c) (hsel : Selected config c cmd c₁)
    (hi : Issued config cmd c₁ c') : Lined config c' := by
  have h₁ := h.selected hf hsel
  have hline : ∀ a, line config c' a = line config c₁ a := hi.line_eq
  have hcount := completed_keyCount config c₁ cmd
  -- the line of the address had at most one read and one write
  have hgone : cmd.cmdType.isReadWrite = true → cmd.cmdType.isWrite ∉ line config c₁ cmd.hexAddr := by
    intro hrw
    rw [hsel.line_eq hf hrw, if_pos rfl]
    have hnodup : (line config c cmd.hexAddr).Nodup := (h.order _).nodup (by decide)
    exact hnodup.not_mem_erase
  refine ⟨fun a => hline a ▸ h₁.order a, ?_, ?_, ?_⟩
  · intro a ha
    rw [hline] at ha
    rw [hi.eq]
    dsimp only
    rw [(hcount a).1, if_neg]
    · exact h₁.read a ha
    · rintro ⟨hr, rfl⟩
      refine hgone (by simp [CommandType.isReadWrite, hr]) ?_
      rw [not_isWrite_of_isRead hr]
      exact ha
  · intro a ha
    rw [hline] at ha
    rw [hi.eq]
    dsimp only
    rw [(hcount a).2, if_neg]
    · exact h₁.write a ha
    · rintro ⟨hw, rfl⟩
      refine hgone (by simp [CommandType.isReadWrite, hw]) ?_
      rw [hw]
      exact ha
  · intro a
    rw [hi.eq]
    dsimp only
    rw [(hcount a).2]
    have := h₁.once a
    omega

theorem Lined.issued (h : Lined config c) (hrw : cmd.cmdType.isReadWrite = false) (hi : Issued config cmd c c') :
    Lined config c' := by
  have hline : ∀ a, line config c' a = line config c a := hi.line_eq
  have hframe : c'.pendingRdQ = c.pendingRdQ ∧ c'.pendingWrQ = c.pendingWrQ := by
    rw [hi.eq, completed_of_not hrw]
    exact ⟨rfl, rfl⟩
  refine ⟨fun a => hline a ▸ h.order a, ?_, ?_, ?_⟩
  · rw [hframe.1]
    exact fun a ha => h.read a (hline a ▸ ha)
  · rw [hframe.2]
    exact fun a ha => h.write a (hline a ▸ ha)
  · rw [hframe.2]
    exact h.once

/-- What makes room for a request that transfers no data transfers none itself. -/
theorem serves_not {req : Command} (h : Serves config req cmd) (hreq : req.cmdType.isReadWrite = false) :
    cmd.cmdType.isReadWrite = false := by
  cases h with
  | same => exact hreq
  | bank t _ ht => rcases ht with rfl | rfl | rfl <;> rfl
  | rank b _ _ => rfl

theorem Formed.refresh_not (hf : Formed config c) {ref : Command} (h : ref ∈ c.channelState.refreshQ) :
    ref.cmdType.isReadWrite = false := by
  rcases hf.refreshes ref h with ⟨hc, -⟩ | ⟨hc, -⟩ <;> rw [hc] <;> rfl

theorem Lined.atom (hf : Formed config c) (h : Lined config c) (step : Atom config c c') : Lined config c' := by
  cases step with
  | demand =>
    rw [tickRefresh_eq]
    exact ⟨h.order, h.read, h.write, h.once⟩
  | book => exact ⟨h.order, h.read, h.write, h.once⟩
  | issue hsel hissue => exact h.answered hf hsel (issueCommand_spec hissue)
  | lose _ _ _ _ hsel => exact h.selected hf hsel
  | refresh hq hready hissue =>
    have hnot := hf.refresh_not (hq ▸ List.mem_cons_self)
    exact h.issued (serves_not (getReadyCommand_spec hready).2 hnot) (issueCommand_spec hissue)
  | selfRefresh _ _ ht hready hissue =>
    refine h.issued (serves_not (getReadyCommand_spec hready).2 ?_) (issueCommand_spec hissue)
    rcases ht with rfl | rfl <;> rfl
  | idle => exact ⟨h.order, h.read, h.write, h.once⟩
  | schedule => exact h.scheduled hf (scheduleTransaction_spec config c)
  | advance => exact ⟨h.order, h.read, h.write, h.once⟩

/-! ## Accepting a transaction -/

/-- A transaction at the end of the queue for its kind. -/
def enqueued (config : Config) (c : Controller) (t : Transaction) : Controller :=
  if config.unifiedQueue then { c with unifiedQueue := c.unifiedQueue ++ [t] }
  else if t.isWrite then { c with writeBuffer := c.writeBuffer ++ [t] }
  else { c with readQueue := c.readQueue ++ [t] }

/-- What becomes of a transaction that is added. -/
inductive Added (config : Config) (c : Controller) (t : Transaction) : Controller → Prop
  | write : t.isWrite = true → c.pendingWrQ.keyCount t.addr = 0 →
      Added config c t { enqueued config c t with
        pendingWrQ := c.pendingWrQ.insert t.addr t
        returnQueue := c.returnQueue ++ [{ t with completeCycle := c.clk + 1 }] }
  | merge : 0 < c.pendingWrQ.keyCount t.addr →
      Added config c t { c with returnQueue := c.returnQueue ++ [{ t with completeCycle := c.clk + 1 }] }
  | read : t.isWrite = false → c.pendingWrQ.keyCount t.addr = 0 → c.pendingRdQ.keyCount t.addr = 0 →
      Added config c t { enqueued config c t with pendingRdQ := c.pendingRdQ.insert t.addr t }
  | join : t.isWrite = false → c.pendingWrQ.keyCount t.addr = 0 → 0 < c.pendingRdQ.keyCount t.addr →
      Added config c t { c with pendingRdQ := c.pendingRdQ.insert t.addr t }

theorem addTransaction_spec (config : Config) (c : Controller) (trans : Transaction) :
    Added config c { trans with addedCycle := c.clk } (c.addTransaction config trans) := by
  unfold addTransaction
  dsimp only
  by_cases hw : trans.isWrite = true
  · rw [if_pos hw]
    by_cases hp : c.pendingWrQ.keyCount trans.addr = 0
    · rw [if_pos hp]
      have hadded : Added config c { trans with addedCycle := c.clk } _ := .write hw hp
      unfold enqueued at hadded
      dsimp only at hadded
      rw [if_pos hw] at hadded
      by_cases hu : config.unifiedQueue = true
      · rw [if_pos hu] at hadded ⊢
        exact hadded
      · rw [if_neg hu] at hadded ⊢
        exact hadded
    · rw [if_neg hp]
      exact .merge (Nat.pos_of_ne_zero hp)
  · have hr : trans.isWrite = false := Bool.not_eq_true _ ▸ hw
    rw [if_neg hw]
    by_cases hp : 0 < c.pendingWrQ.keyCount trans.addr
    · rw [if_pos hp]
      exact .merge hp
    · rw [if_neg hp]
      have hzero := Nat.eq_zero_of_not_pos hp
      have hcount : (c.pendingRdQ.insert trans.addr { trans with addedCycle := c.clk }).keyCount trans.addr =
          c.pendingRdQ.keyCount trans.addr + 1 := by
        rw [Multimap.keyCount_insert, if_pos rfl]
      rw [hcount]
      by_cases hone : c.pendingRdQ.keyCount trans.addr = 0
      · rw [if_pos (by omega)]
        have hadded : Added config c { trans with addedCycle := c.clk } _ := .read hr hzero hone
        unfold enqueued at hadded
        dsimp only at hadded
        rw [if_neg hw] at hadded
        by_cases hu : config.unifiedQueue = true
        · rw [if_pos hu] at hadded ⊢
          exact hadded
        · rw [if_neg hu] at hadded ⊢
          exact hadded
      · rw [if_neg (by omega)]
        exact .join hr hzero (Nat.pos_of_ne_zero hone)

theorem Lined.eq_nil (h : Lined config c) {a : UInt64} (hr : c.pendingRdQ.keyCount a = 0)
    (hw : c.pendingWrQ.keyCount a = 0) : line config c a = [] := by
  rw [List.eq_nil_iff_forall_not_mem]
  rintro (_ | _) hmem
  · have := h.read a hmem
    omega
  · have := h.write a hmem
    omega

theorem enqueued_eq (config : Config) (c : Controller) (t : Transaction) : enqueued config c t =
    { c with
      unifiedQueue := (enqueued config c t).unifiedQueue
      readQueue := (enqueued config c t).readQueue
      writeBuffer := (enqueued config c t).writeBuffer } := by
  unfold enqueued
  split
  · rfl
  · split <;> rfl

/-- What a new transaction does not change. -/
theorem addTransaction_eq (config : Config) (c : Controller) (t : Transaction) : c.addTransaction config t =
    { c with
      unifiedQueue := (c.addTransaction config t).unifiedQueue
      readQueue := (c.addTransaction config t).readQueue
      writeBuffer := (c.addTransaction config t).writeBuffer
      pendingRdQ := (c.addTransaction config t).pendingRdQ
      pendingWrQ := (c.addTransaction config t).pendingWrQ
      returnQueue := (c.addTransaction config t).returnQueue } := by
  have hadd := addTransaction_spec config c t
  generalize c.addTransaction config t = c' at hadd ⊢
  cases hadd with
  | write => rw [enqueued_eq]
  | merge => rfl
  | read => rw [enqueued_eq]
  | join => rfl

/-- A new transaction stands behind all others of its address. -/
theorem line_enqueued (hf : Formed config c) {t : Transaction}
    (hlast : t.isWrite = true ∨ line config c t.addr = []) (a : UInt64) :
    line config (enqueued config c t) a = line config c a ++ if t.addr = a then [t.isWrite] else [] := by
  unfold enqueued
  by_cases hu : config.unifiedQueue = true
  · obtain ⟨hread, hwrite⟩ := hf.unified hu
    rw [if_pos hu]
    simp only [line, hread, hwrite, transLine_concat, transLine_nil, List.append_nil, List.append_assoc]
  · rw [if_neg hu]
    by_cases hw : t.isWrite = true
    · rw [if_pos hw]
      simp only [line, transLine_concat, List.append_assoc]
    · rw [if_neg hw]
      simp only [line, transLine_concat, List.append_assoc]
      by_cases ha : t.addr = a
      · subst ha
        have hnil := hlast.resolve_left hw
        simp only [line, List.append_eq_nil_iff] at hnil
        rw [hnil.2.2.2, List.append_nil, List.nil_append]
      · rw [if_neg ha, List.append_nil, List.nil_append]

theorem Lined.add (hf : Formed config c) (h : Lined config c) (trans : Transaction) :
    Lined config (c.addTransaction config trans) := by
  have hadd := addTransaction_spec config c trans
  generalize { trans with addedCycle := c.clk } = t at hadd
  generalize c.addTransaction config trans = c' at hadd ⊢
  have hinsert : ∀ (m : Multimap UInt64 Transaction) a, m.keyCount a ≤ (m.insert t.addr t).keyCount a := by
    intro m a
    rw [Multimap.keyCount_insert]
    exact Nat.le_add_right _ _
  have hself : ∀ m : Multimap UInt64 Transaction, 0 < (m.insert t.addr t).keyCount t.addr := by
    intro m
    rw [Multimap.keyCount_insert, if_pos rfl]
    exact Nat.succ_pos _
  cases hadd with
  | write hw hzero =>
    have hnot : true ∉ line config c t.addr := fun hmem => by
      have := h.write _ hmem
      omega
    have hline := line_enqueued hf (Or.inl hw)
    refine ⟨fun a => ?_, fun a ha => ?_, fun a ha => ?_, fun a => ?_⟩
    · change (line config (enqueued config c t) a).Sublist _
      rw [hline]
      split
      · rename_i ha
        subst ha
        rw [hw]
        rcases sublist_cases (h.order t.addr) with hl | hl | hl | hl <;> rw [hl] at hnot ⊢ <;>
          first
            | decide
            | exact absurd (by decide) hnot
      · rw [List.append_nil]
        exact h.order a
    · change false ∈ line config (enqueued config c t) a at ha
      rw [hline, hw] at ha
      rw [enqueued_eq]
      refine h.read a ((List.mem_append.mp ha).resolve_right ?_)
      split <;> decide
    · change true ∈ line config (enqueued config c t) a at ha
      rw [hline] at ha
      by_cases hta : t.addr = a
      · subst hta
        exact hself _
      · rw [if_neg hta, List.append_nil] at ha
        exact Nat.lt_of_lt_of_le (h.write a ha) (hinsert _ a)
    · dsimp only
      rw [Multimap.keyCount_insert]
      have := h.once a
      split
      · rename_i ha
        subst ha
        omega
      · omega
  | merge _ => exact ⟨h.order, h.read, h.write, h.once⟩
  | read hr hzero hone =>
    have hnil := h.eq_nil hone hzero
    have hline := line_enqueued hf (Or.inr hnil)
    refine ⟨fun a => ?_, fun a ha => ?_, fun a ha => ?_, fun a => ?_⟩
    · change (line config (enqueued config c t) a).Sublist _
      rw [hline]
      split
      · rename_i ha
        subst ha
        rw [hnil, hr]
        decide
      · rw [List.append_nil]
        exact h.order a
    · change false ∈ line config (enqueued config c t) a at ha
      rw [hline] at ha
      by_cases hta : t.addr = a
      · subst hta
        exact hself _
      · rw [if_neg hta, List.append_nil] at ha
        exact Nat.lt_of_lt_of_le (h.read a ha) (hinsert _ a)
    · change true ∈ line config (enqueued config c t) a at ha
      rw [hline, hr] at ha
      rw [enqueued_eq]
      refine h.write a ((List.mem_append.mp ha).resolve_right ?_)
      split <;> decide
    · rw [enqueued_eq]
      exact h.once a
  | join _ _ _ =>
    exact ⟨h.order, fun a ha => Nat.lt_of_lt_of_le (h.read a ha) (hinsert _ a), h.write, h.once⟩

theorem lined_new (config : Config) : Lined config .new :=
  ⟨fun _ => List.nil_sublist _, fun _ h => absurd h List.not_mem_nil, fun _ h => absurd h List.not_mem_nil,
    fun _ => Nat.zero_le _⟩

end

end Controller

end Dramsim3

end Anna
