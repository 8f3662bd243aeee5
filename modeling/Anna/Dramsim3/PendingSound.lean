import Anna.Dramsim3.TraceSound

/-!
# Nothing is lost

With two commands in a cycle a command that transfers data may be taken from
its queue and not issued. That needs two commands for the data bus in one
cycle, and the timing tables keep them apart wherever all their distances are
positive. Then whatever is pending stands in line for its command.
-/

namespace Anna

namespace Dramsim3

/-- The distances between commands that transfer data. Other ranks do not matter where there is only one. -/
def Config.columnGaps (config : Config) : List Int :=
  [Timing.readToReadL config, Timing.readToReadS config, Timing.readToWrite config, Timing.writeToReadL config,
    Timing.writeToReadS config, Timing.writeToWriteL config, Timing.writeToWriteS config] ++
  if config.ranks ≤ 1 then []
  else [Timing.readToReadO config, Timing.readToWriteO config, Timing.writeToReadO config, Timing.writeToWriteO config]

/-- Commands that transfer data are apart, by at most `n` cycles. -/
def Config.Spaced (config : Config) (n : Nat) : Prop := ∀ d ∈ config.columnGaps, 0 < d ∧ d ≤ n

instance (config : Config) (n : Nat) : Decidable (config.Spaced n) :=
  inferInstanceAs (Decidable (∀ d ∈ config.columnGaps, 0 < d ∧ d ≤ (n : Int)))

section
variable {config : Config} {n : Nat}

theorem CommandType.isReadWrite_cases {t : CommandType} (h : t.isReadWrite = true) :
    t = .read ∨ t = .readPrecharge ∨ t = .write ∨ t = .writePrecharge := by
  cases t <;> simp_all [CommandType.isReadWrite, CommandType.isRead, CommandType.isWrite]

theorem mem_column {x y : Int} {t : CommandType} (ht : t.isReadWrite = true) :
    (t, x) ∈ Timing.column x y ∨ (t, y) ∈ Timing.column x y := by
  rcases CommandType.isReadWrite_cases ht with rfl | rfl | rfl | rfl <;> simp [Timing.column]

theorem Config.Spaced.column (h : config.Spaced n) {x y : Int} (hx : x ∈ config.columnGaps)
    (hy : y ∈ config.columnGaps) {t : CommandType} (ht : t.isReadWrite = true) :
    ∃ d, (t, d) ∈ Timing.column x y ∧ 0 < d ∧ d ≤ n := by
  rcases mem_column (x := x) (y := y) ht with hmem | hmem
  · exact ⟨x, hmem, h x hx⟩
  · exact ⟨y, hmem, h y hy⟩

/-- After a command that transfers data every other such command waits, at every bank that can take one. -/
theorem Config.Spaced.after (h : config.Spaced n) {x : Command} {b : BankId} {t : CommandType}
    (hx : x.cmdType.isReadWrite = true) (ht : t.isReadWrite = true) (hb : config.HasBank b)
    (hbx : config.HasBank x.addr.bankId) (hopen : b = x.addr.bankId → x.cmdType = .read ∨ x.cmdType = .write) :
    ∃ d, (t, d) ∈ Timing.after config x b ∧ 0 < d ∧ d ≤ n := by
  have hrank : x.cmdType.isRankCMD = false := by
    rcases CommandType.isReadWrite_cases hx with hc | hc | hc | hc <;> rw [hc] <;> rfl
  unfold Timing.after
  rw [if_neg (by simp [hrank])]
  by_cases hsame : b = x.addr.bankId
  · rw [if_pos hsame]
    rcases hopen hsame with hc | hc <;> rw [hc]
    · obtain ⟨d, hd, hpos⟩ := h.column (x := Timing.readToReadL config) (y := Timing.readToWrite config)
        (by simp [Config.columnGaps]) (by simp [Config.columnGaps]) ht
      exact ⟨d, List.mem_append_left _ hd, hpos⟩
    · obtain ⟨d, hd, hpos⟩ := h.column (x := Timing.writeToReadL config) (y := Timing.writeToWriteL config)
        (by simp [Config.columnGaps]) (by simp [Config.columnGaps]) ht
      exact ⟨d, List.mem_append_left _ hd, hpos⟩
  · rw [if_neg hsame]
    split
    · rcases CommandType.isReadWrite_cases hx with hc | hc | hc | hc <;> rw [hc] <;>
        exact h.column (by simp [Config.columnGaps]) (by simp [Config.columnGaps]) ht
    · split
      · rcases CommandType.isReadWrite_cases hx with hc | hc | hc | hc <;> rw [hc] <;>
          exact h.column (by simp [Config.columnGaps]) (by simp [Config.columnGaps]) ht
      · rename_i hother
        -- two ranks exist
        have hmany : ¬ config.ranks ≤ 1 := by
          have h₁ := hb.rank
          have h₂ := hbx.rank
          have hne : b.rank ≠ x.addr.bankId.rank := hother
          omega
        rcases CommandType.isReadWrite_cases hx with hc | hc | hc | hc <;> rw [hc] <;>
          exact h.column (by simp [Config.columnGaps, hmany]) (by simp [Config.columnGaps, hmany]) ht

end

namespace Controller

section
variable {config : Config} {c c₁ c' : Controller} {cmd first : Command} {n : Nat}

/-- A bank that was closed by the last command does not take another one that transfers data. -/
theorem Recorded.last_open (h : Recorded config c) (hlast : c.trace.getLast? = some (c.clk, first))
    (hfirst : first.cmdType.isReadWrite = true) (hb : config.HasBank first.addr.bankId)
    (hopen : (c.channelState.bankStates first.addr.bankId).state = .opened) :
    first.cmdType = .read ∨ first.cmdType = .write := by
  have hrank : first.cmdType.isRankCMD = false := by
    rcases CommandType.isReadWrite_cases hfirst with hc | hc | hc | hc <;> rw [hc] <;> rfl
  obtain ⟨p, hpath, hat⟩ := h.protocol hb
  obtain ⟨trace, htrace⟩ := List.getLast?_eq_some_iff.mp hlast
  have hcommands : commandsOf config c.trace first.addr.bankId =
      commandsOf config trace first.addr.bankId ++ [first] := by
    rw [htrace, commandsOf_concat, if_pos]
    unfold Config.touched
    rw [if_neg (by simp [hrank])]
    exact List.mem_singleton.mpr rfl
  rw [hcommands] at hpath
  generalize hcmds : commandsOf config trace first.addr.bankId ++ [first] = cmds at hpath
  cases hpath with
  | nil => cases List.append_ne_nil_of_right_ne_nil _ (List.cons_ne_nil _ _) hcmds
  | snoc _ hstep =>
    obtain ⟨-, heq⟩ := List.append_inj' hcmds rfl
    obtain rfl := List.head_eq_of_cons_eq heq
    cases hstep with
    | access hc => exact hc
    | accessLast hc =>
      have hclosed : (c.channelState.bankStates first.addr.bankId).state = .closed := hat
      rw [hopen] at hclosed
      cases hclosed
    | activate hc => rw [hc] at hfirst; cases hfirst
    | precharge hc => rw [hc] at hfirst; cases hfirst
    | refresh hc =>
      rcases CommandType.isReadWrite_cases hfirst with ht | ht | ht | ht <;> rw [ht] at hc <;> cases hc
    | sleep hc => rw [hc] at hfirst; cases hfirst
    | wake hc => rw [hc] at hfirst; cases hfirst

def Placed (config : Config) (c : Controller) : Prop :=
  ∀ x ∈ c.trace, x.2.cmdType.isReadWrite = true → config.HasBank x.2.addr.bankId

theorem Selected.hasBank (hmap : config.Mapped) (hf : Formed config c) (h : Selected config c cmd c')
    (hrw : cmd.cmdType.isReadWrite = true) : config.HasBank cmd.addr.bankId := by
  obtain ⟨_, _, t, rfl, -⟩ := h.queued hf hrw
  exact hmap.bank t.addr

/-- No command that transfers data is selected in the cycle of another one. -/
theorem Recorded.not_selected (hmap : config.Mapped) (hspaced : config.Spaced n) (h : Recorded config c)
    (hf : Formed config c) (hplaced : Placed config c) (hbound : c.clk + n < 2 ^ 64)
    (hlast : c.trace.getLast? = some (c.clk, first)) (hfirst : first.cmdType.isReadWrite = true)
    (hrw : cmd.cmdType.isReadWrite = true) : ¬ Selected config c cmd c' := by
  intro hsel
  have hb := hsel.hasBank hmap hf hrw
  have hmem : (c.clk, first) ∈ c.trace := List.mem_of_getLast? hlast
  have hfb := hplaced _ hmem hfirst
  obtain ⟨index, before, req, after, -, hready, -⟩ := hsel.request
  rw [hf.clk] at hready
  have hready := (getReadyCommand_spec hready).1
  have hrank : cmd.cmdType.isRankCMD = false := by
    rcases CommandType.isReadWrite_cases hrw with hc | hc | hc | hc <;> rw [hc] <;> rfl
  have hchecked : cmd.addr.bankId ∈ config.checked cmd := by
    rw [checked_of_bank hrank]
    exact List.mem_singleton.mpr rfl
  have hopen : (c.channelState.bankStates cmd.addr.bankId).state = .opened := by
    have hallows := hready.state _ hchecked
    unfold BankState.Allows at hallows
    rcases CommandType.isReadWrite_cases hrw with hc | hc | hc | hc <;> rw [hc] at hallows <;> exact hallows.1
  obtain ⟨d, hd, hpos, hle⟩ := hspaced.after hfirst hrw hb hfb
    fun heq => h.last_open hlast hfirst hfb (heq ▸ hopen)
  have hdelayed := Dramsim3.Recorded.delayed h hmem hb hd (by dsimp only; omega)
  have htiming := hready.timing _ hchecked
  dsimp only at hdelayed
  omega

/-! ## In line -/

/-- What is pending has a command or a transaction in line. -/
structure Kept (config : Config) (c : Controller) : Prop where
  read : ∀ a, 0 < c.pendingRdQ.keyCount a → false ∈ line config c a
  write : ∀ a, 0 < c.pendingWrQ.keyCount a → true ∈ line config c a

theorem Kept.frame (h : Kept config c) (hline : ∀ a, line config c' a = line config c a)
    (hread : c'.pendingRdQ = c.pendingRdQ) (hwrite : c'.pendingWrQ = c.pendingWrQ) : Kept config c' := by
  refine ⟨fun a ha => ?_, fun a ha => ?_⟩
  · rw [hline]
    exact h.read a (hread ▸ ha)
  · rw [hline]
    exact h.write a (hwrite ▸ ha)

theorem Kept.issued (h : Kept config c) (hrw : cmd.cmdType.isReadWrite = false) (hi : Issued config cmd c c') :
    Kept config c' := by
  refine h.frame hi.line_eq ?_ ?_ <;> rw [hi.eq, completed_of_not hrw]

/-- A command that transfers data leaves the line of its address, and what it was for is no longer pending. -/
theorem Kept.answered (hf : Formed config c) (hl : Lined config c) (h : Kept config c)
    (hsel : Selected config c cmd c₁) (hi : Issued config cmd c₁ c') (hrw : cmd.cmdType.isReadWrite = true) :
    Kept config c' := by
  have hline : ∀ a, line config c' a =
      if cmd.hexAddr = a then (line config c a).erase cmd.cmdType.isWrite else line config c a := by
    intro a
    rw [hi.line_eq, hsel.line_eq hf hrw]
  have hcount := completed_keyCount config c₁ cmd
  have hpending : c₁.pendingRdQ = c.pendingRdQ ∧ c₁.pendingWrQ = c.pendingWrQ := by
    obtain ⟨q, rfl, -⟩ := hsel.frame
    exact ⟨rfl, rfl⟩
  have heq := hi.eq
  refine ⟨fun a ha => ?_, fun a ha => ?_⟩
  · rw [heq] at ha
    dsimp only at ha
    rw [(hcount a).1, hpending.1] at ha
    by_cases haddr : cmd.hexAddr = a
    · have hr : ¬ cmd.cmdType.isRead = true := fun hr => by simp [hr, haddr] at ha
      rw [if_neg fun hc => hr hc.1] at ha
      have hw : cmd.cmdType.isWrite = true := by simpa [CommandType.isReadWrite, hr] using hrw
      rw [hline, if_pos haddr, hw]
      exact (List.mem_erase_of_ne (by decide)).mpr (h.read a ha)
    · rw [if_neg fun hc => haddr hc.2] at ha
      rw [hline, if_neg haddr]
      exact h.read a ha
  · rw [heq] at ha
    dsimp only at ha
    rw [(hcount a).2, hpending.2] at ha
    by_cases haddr : cmd.hexAddr = a
    · have hw : cmd.cmdType.isWrite = false := by
        by_contra hw
        have honce := hl.once a
        rw [if_pos ⟨Bool.not_eq_false _ ▸ hw, haddr⟩] at ha
        omega
      rw [hw] at ha
      rw [hline, if_pos haddr, hw]
      exact (List.mem_erase_of_ne (by decide)).mpr (h.write a (by simpa using ha))
    · rw [if_neg fun hc => haddr hc.2, Nat.sub_zero] at ha
      rw [hline, if_neg haddr]
      exact h.write a ha

theorem Kept.add (hf : Formed config c) (hl : Lined config c) (h : Kept config c) (trans : Transaction) :
    Kept config (c.addTransaction config trans) := by
  have hadd := addTransaction_spec config c trans
  generalize { trans with addedCycle := c.clk } = t at hadd
  generalize c.addTransaction config trans = c' at hadd ⊢
  cases hadd with
  | write hw hzero =>
    have hline := line_enqueued hf (t := t) (Or.inl hw)
    refine ⟨fun a ha => ?_, fun a ha => ?_⟩
    · change false ∈ line config (enqueued config c t) a
      rw [hline]
      rw [enqueued_eq] at ha
      exact List.mem_append_left _ (h.read a ha)
    · change true ∈ line config (enqueued config c t) a
      rw [hline]
      dsimp only at ha
      rw [Multimap.keyCount_insert] at ha
      by_cases hta : t.addr = a
      · rw [if_pos hta, hw]
        exact List.mem_append_right _ (List.mem_singleton.mpr rfl)
      · rw [if_neg hta, Nat.add_zero] at ha
        exact List.mem_append_left _ (h.write a ha)
  | merge _ => exact ⟨h.read, h.write⟩
  | read hr hzero hone =>
    have hline := line_enqueued hf (Or.inr (hl.eq_nil hone hzero))
    refine ⟨fun a ha => ?_, fun a ha => ?_⟩
    · change false ∈ line config (enqueued config c t) a
      rw [hline]
      dsimp only at ha
      rw [Multimap.keyCount_insert] at ha
      by_cases hta : t.addr = a
      · rw [if_pos hta, hr]
        exact List.mem_append_right _ (List.mem_singleton.mpr rfl)
      · rw [if_neg hta, Nat.add_zero] at ha
        exact List.mem_append_left _ (h.read a ha)
    · change true ∈ line config (enqueued config c t) a
      rw [hline]
      rw [enqueued_eq] at ha
      exact List.mem_append_left _ (h.write a ha)
  | join hr _ hpos =>
    refine ⟨fun a ha => ?_, h.write⟩
    dsimp only at ha
    rw [Multimap.keyCount_insert] at ha
    by_cases hta : t.addr = a
    · exact h.read a (hta ▸ hpos)
    · rw [if_neg hta, Nat.add_zero] at ha
      exact h.read a ha

end

/-! ## In every run -/

section
variable {config : Config} {c c' : Controller} {n : Nat}

theorem Placed.atom (hmap : config.Mapped) (hf : Formed config c) (h : Placed config c) (step : Atom config c c') :
    Placed config c' := by
  have hissued : ∀ {c₁ c₂ : Controller} {cmd : Command}, Placed config c₁ → c₁.issueCommand config cmd = .ok c₂ →
      (cmd.cmdType.isReadWrite = true → config.HasBank cmd.addr.bankId) → Placed config c₂ := by
    intro c₁ c₂ cmd h₁ hissue hb x hx hrw
    rw [(issueCommand_trace hissue).2] at hx
    rcases List.mem_append.mp hx with hx | hx
    · exact h₁ x hx hrw
    · rw [List.mem_singleton.mp hx] at hrw ⊢
      exact hb hrw
  cases step with
  | demand =>
    rw [tickRefresh_eq]
    exact h
  | book => exact h
  | issue hsel hissue =>
    have hb := hsel.hasBank hmap hf
    obtain ⟨q, rfl, -⟩ := hsel.frame
    have h₁ : Placed config { c with cmdQueue := q } := h
    exact hissued h₁ hissue hb
  | lose _ _ _ _ hsel =>
    obtain ⟨q, rfl, -⟩ := hsel.frame
    exact h
  | refresh hq hready hissue =>
    refine hissued h hissue fun hrw => ?_
    rw [serves_not (getReadyCommand_spec hready).2 (hf.refresh_not (hq ▸ List.mem_cons_self))] at hrw
    cases hrw
  | selfRefresh _ _ ht hready hissue =>
    refine hissued h hissue fun hrw => ?_
    rw [serves_not (getReadyCommand_spec hready).2 (by rcases ht with rfl | rfl <;> rfl)] at hrw
    cases hrw
  | idle => exact h
  | schedule =>
    rw [scheduleTransaction_eq]
    exact h
  | advance => exact h

theorem Kept.atom (hmap : config.Mapped) (hspaced : config.Spaced n) (hf : Formed config c) (hl : Lined config c)
    (hr : Recorded config c) (hp : Placed config c) (hbound : c.clk + n < 2 ^ 64) (h : Kept config c)
    (step : Atom config c c') : Kept config c' := by
  cases step with
  | demand =>
    rw [tickRefresh_eq]
    exact ⟨h.read, h.write⟩
  | book => exact ⟨h.read, h.write⟩
  | @issue _ _ cmd hsel hissue =>
    by_cases hrw : cmd.cmdType.isReadWrite = true
    · exact h.answered hf hl hsel (issueCommand_spec hissue) hrw
    · have hrw := Bool.not_eq_true _ ▸ hrw
      have hline := hsel.line_of_not hrw
      obtain ⟨q, rfl, -⟩ := hsel.frame
      have h₁ : Kept config { c with cmdQueue := q } := h.frame hline rfl rfl
      exact h₁.issued hrw (issueCommand_spec hissue)
  | lose _ hlast hfirst hrw hsel => exact absurd hsel (hr.not_selected hmap hspaced hf hp hbound hlast hfirst hrw)
  | refresh hq hready hissue =>
    have hnot := hf.refresh_not (hq ▸ List.mem_cons_self)
    exact h.issued (serves_not (getReadyCommand_spec hready).2 hnot) (issueCommand_spec hissue)
  | selfRefresh _ _ ht hready hissue =>
    refine h.issued (serves_not (getReadyCommand_spec hready).2 ?_) (issueCommand_spec hissue)
    rcases ht with rfl | rfl <;> rfl
  | idle => exact ⟨h.read, h.write⟩
  | schedule =>
    have hs := scheduleTransaction_spec config c
    exact h.frame (hs.line_eq hf hl) hs.pending_eq.1 hs.pending_eq.2
  | advance => exact ⟨h.read, h.write⟩

/-- What is needed of a run to know that nothing is lost. -/
structure Accounted (config : Config) (n : Nat) (c : Controller) : Prop where
  formed : Formed config c
  lined : Lined config c
  recorded : Recorded config c
  placed : Placed config c
  kept : c.clk + n < 2 ^ 64 → Kept config c

theorem accounted_new (hmap : config.Mapped) : Accounted config n .new where
  formed := (sound_new hmap).formed
  lined := lined_new config
  recorded := .new
  placed _ h := absurd h List.not_mem_nil
  kept _ := ⟨fun _ h => absurd h (Nat.lt_irrefl 0), fun _ h => absurd h (Nat.lt_irrefl 0)⟩

theorem Accounted.add (h : Accounted config n c) (t : Transaction) : Accounted config n (c.addTransaction config t) where
  formed := h.formed.add t
  lined := h.lined.add h.formed t
  recorded := h.recorded.add t
  placed := by
    unfold Placed
    rw [addTransaction_trace]
    exact h.placed
  kept hbound := (h.kept (by rw [addTransaction_clk] at hbound; exact hbound)).add h.formed h.lined t

theorem Accounted.atom (hmap : config.Mapped) (hspaced : config.Spaced n) (h : Accounted config n c)
    (step : Atom config c c') : Accounted config n c' where
  formed := h.formed.atom step
  lined := h.lined.atom h.formed step
  recorded := h.recorded.atom h.formed step
  placed := h.placed.atom hmap h.formed step
  kept hbound := by
    have hle := atom_clk_le step
    have hbefore : c.clk + n < 2 ^ 64 := by omega
    exact (h.kept hbefore).atom hmap hspaced h.formed h.lined h.recorded h.placed hbefore step

theorem Accounted.returned (h : Accounted config n c) (l : List Transaction) :
    Accounted config n { c with returnQueue := l } where
  formed := { h.formed with }
  lined := ⟨h.lined.order, h.lined.read, h.lined.write, h.lined.once⟩
  recorded := h.recorded
  placed := h.placed
  kept hbound := ⟨(h.kept hbound).read, (h.kept hbound).write⟩

theorem Reach.accounted (hmap : config.Mapped) (hspaced : config.Spaced n) (h : Reach config c) :
    Accounted config n c :=
  h.invariant (accounted_new hmap) (fun t hc => hc.add t) (fun _ hc => hc.returned _)
    fun hc step => hc.atom hmap hspaced step

end

/-- If commands that transfer data are apart, then in every run an address has one read in line where reads of it are
pending and one write where a write is, the read in front; nothing else stands in line. -/
theorem pending_in_line (config : Config) (hmap : config.Mapped) (n : Nat) (hspaced : config.Spaced n) (c : Controller)
    (h : Reach config c) (hbound : c.clk + n < 2 ^ 64) (a : UInt64) : line config c a =
      (if 0 < c.pendingRdQ.keyCount a then [false] else []) ++ if 0 < c.pendingWrQ.keyCount a then [true] else [] := by
  have hacc := h.accounted hmap hspaced
  have hkept := hacc.kept hbound
  have hread : 0 < c.pendingRdQ.keyCount a ↔ false ∈ line config c a := ⟨hkept.read a, hacc.lined.read a⟩
  have hwrite : 0 < c.pendingWrQ.keyCount a ↔ true ∈ line config c a := ⟨hkept.write a, hacc.lined.write a⟩
  simp only [hread, hwrite]
  rcases sublist_cases (hacc.lined.order a) with hl | hl | hl | hl <;> rw [hl] <;> decide

/-- Two banks and a command bus for each kind of command. -/
def twoBuses : Config :=
  Config.placed { Config.hbm2Params with
    channels := 1
    bankgroups := 2
    banksPerGroup := 1
    cl := 1
    cwl := 1
    burstCycle := 1
    tRCDRD := 1
    tRRDS := 1
    tRRDL := 1 } 6 (fun f => if f = .bg then 1 else 0) [.bg]

theorem twoBuses_mapped : twoBuses.Mapped :=
  Config.placed_mapped (fun f => by cases f <;> decide) (fun f => by cases f <;> decide) (by decide)
    ⟨by decide, by decide, by decide, by decide⟩

/-- A read of one bank, and two reads and a write of an address of the other. -/
def joinedReads : List Op :=
  [.add ⟨0, 0, 0, false⟩, .add ⟨64, 0, 0, false⟩, .add ⟨64, 0, 0, false⟩, .add ⟨64, 0, 0, true⟩] ++ List.replicate 3 .tick

-- cycle 2 issues two commands; the two reads share a place in line, with the write behind them
theorem pending_in_line_joined : ∃ c, replay twoBuses joinedReads .new = .ok c ∧
    (cycle c.trace 2).map Command.cmdType = [.activate, .read] ∧ c.pendingRdQ.keyCount 64 = 2 ∧
      line twoBuses c 0 = [] ∧ line twoBuses c 64 = [false, true] := by
  have hrun : (replay twoBuses joinedReads .new).map (fun c => (c.clk, (cycle c.trace 2).map Command.cmdType,
      [c.pendingRdQ.keyCount 0, c.pendingWrQ.keyCount 0, c.pendingRdQ.keyCount 64, c.pendingWrQ.keyCount 64])) =
      .ok (3, [.activate, .read], [0, 0, 2, 1]) := by
    decide +kernel
  obtain ⟨c, hc, hview⟩ := map_eq_ok.mp hrun
  simp only [Prod.mk.injEq, List.cons.injEq, and_true] at hview
  obtain ⟨hclk, hcycle, hread0, hwrite0, hread, hwrite⟩ := hview
  have hline := pending_in_line twoBuses twoBuses_mapped 32 (by decide) c (Reach.replay .new hc) (by rw [hclk]; decide)
  refine ⟨c, hc, hcycle, hread, ?_, ?_⟩
  · rw [hline 0, hread0, hwrite0]
    rfl
  · rw [hline 64, hread, hwrite]
    rfl

end Controller

end Dramsim3

end Anna
