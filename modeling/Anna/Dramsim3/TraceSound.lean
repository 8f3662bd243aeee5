import Anna.Dramsim3.AddressMappingSound
import Anna.Dramsim3.ControllerAnswers
import Anna.Lib.Window

/-!
# The commands on the bus

Along every run the banks and the activation windows change only when a
command is issued that is ready (`Recorded`). So the commands that go to a
bank follow its protocol, each of them keeps the distances of the timing
tables to all commands before, and a rank is not activated too often.
-/

namespace Anna

namespace Dramsim3

/-- The states of a channel with the commands that led to them, and the clock. -/
inductive Recorded (config : Config) : ChannelState → List (Nat × Command) → Nat → Prop
  | new : Recorded config .new [] 0
  | issue {ch trace clk ch' cmd} : Recorded config ch trace clk → Ready config ch clk cmd →
      Executed config clk cmd ch ch' → Recorded config ch' (trace ++ [(clk, cmd)]) clk
  | wait {ch trace clk ch' clk'} : Recorded config ch trace clk → ch'.bankStates = ch.bankStates →
      ch'.fourAw = ch.fourAw → ch'.thirtyTwoAw = ch.thirtyTwoAw → clk ≤ clk' → Recorded config ch' trace clk'

namespace Controller

section
variable {config : Config} {c c₁ c' : Controller} {cmd : Command}

abbrev Recorded (config : Config) (c : Controller) : Prop := Dramsim3.Recorded config c.channelState c.trace c.clk

theorem Recorded.issued (h : Recorded config c) (hready : Ready config c.channelState c.clk cmd)
    (hi : Issued config cmd c c') : Recorded config c' := by
  have hissue := h.issue hready hi.executed
  have hrest := hi.eq
  unfold Recorded
  rw [hrest]
  exact hissue

theorem Recorded.atom (hf : Formed config c) (h : Recorded config c) (step : Atom config c c') : Recorded config c' := by
  cases step with
  | demand =>
    rw [tickRefresh_eq]
    exact h.wait rfl rfl rfl (Nat.le_refl _)
  | book => exact h
  | issue hsel hissue =>
    obtain ⟨index, before, req, after, -, hready, -⟩ := hsel.request
    rw [hf.clk] at hready
    obtain ⟨q, rfl, -⟩ := hsel.frame
    have h₁ : Recorded config { c with cmdQueue := q } := h
    exact h₁.issued (getReadyCommand_spec hready).1 (issueCommand_spec hissue)
  | lose _ _ _ _ hsel =>
    obtain ⟨q, rfl, -⟩ := hsel.frame
    exact h
  | refresh _ hready hissue =>
    rw [hf.clk] at hready
    exact h.issued (getReadyCommand_spec hready).1 (issueCommand_spec hissue)
  | selfRefresh _ _ _ hready hissue => exact h.issued (getReadyCommand_spec hready).1 (issueCommand_spec hissue)
  | idle => exact h.wait rfl rfl rfl (Nat.le_refl _)
  | schedule =>
    rw [scheduleTransaction_eq]
    exact h
  | advance => exact h.wait rfl rfl rfl (Nat.le_succ _)

theorem Recorded.add (h : Recorded config c) (t : Transaction) : Recorded config (c.addTransaction config t) := by
  rw [addTransaction_eq]
  exact h

theorem Reach.recorded (hmap : config.Mapped) (h : Reach config c) : Recorded config c := by
  have hboth : Formed config c ∧ Recorded config c := by
    refine h.invariant (P := fun c => Formed config c ∧ Recorded config c) ⟨(sound_new hmap).formed, .new⟩ ?_ ?_ ?_
    · exact fun t hc => ⟨hc.1.add t, hc.2.add t⟩
    · exact fun _ hc => ⟨{ hc.1 with }, hc.2⟩
    · exact fun hc step => ⟨hc.1.atom step, hc.2.atom hc.1 step⟩
  exact hboth.2

end

end Controller

/-! ## Distances -/

/-- What the tables demand at the bank `b` after a command, by where `b` lies. The row `same_rank[REFRESH_BANK]` is the
only one that the simulator never reads. -/
inductive Timing.Demands (config : Config) (cmd : Command) (b : BankId) (e : CommandType × Int) : Prop
  | sameBank : b = cmd.addr.bankId → e ∈ sameBank config cmd.cmdType → Demands config cmd b e
  | otherBanksSameBankgroup : b.rank = cmd.addr.rank → b.bankgroup = cmd.addr.bankgroup → b.bank ≠ cmd.addr.bank →
      e ∈ otherBanksSameBankgroup config cmd.cmdType → Demands config cmd b e
  | otherBankgroupsSameRank : b.rank = cmd.addr.rank → b.bankgroup ≠ cmd.addr.bankgroup →
      e ∈ otherBankgroupsSameRank config cmd.cmdType → Demands config cmd b e
  | otherRanks : b.rank ≠ cmd.addr.rank → e ∈ otherRanks config cmd.cmdType → Demands config cmd b e
  | sameRank : cmd.cmdType ≠ .refreshBank → b.rank = cmd.addr.rank → e ∈ sameRank config cmd.cmdType →
      Demands config cmd b e

/-- The command `y` keeps the distances that the earlier command `x` demands, at each of the banks that it waits for. -/
def Compliant (config : Config) (x y : Nat × Command) : Prop :=
  ∀ b ∈ config.checked y.2, config.HasBank b → ∀ d, Timing.Demands config x.2 b (y.2.cmdType, d) →
    (x.1 : Int) + d < 2 ^ 64 → (x.1 : Int) + d ≤ y.1

section
variable {config : Config} {cmd : Command} {t : CommandType} {b : BankId} {e : CommandType × Int}

theorem Timing.rows_of_rank (h : t.isRankCMD = true) : sameBank config t = [] ∧ otherBanksSameBankgroup config t = [] ∧
    otherBankgroupsSameRank config t = [] ∧ otherRanks config t = [] := by
  cases t <;> first | exact ⟨rfl, rfl, rfl, rfl⟩ | cases h

theorem Timing.sameRank_of_bank (h : t.isRankCMD = false) (hbank : t ≠ .refreshBank) : sameRank config t = [] := by
  cases t <;> first | rfl | exact absurd rfl hbank | cases h

theorem Timing.Demands.after (h : Demands config cmd b e) : e ∈ after config cmd b := by
  by_cases hrank : cmd.cmdType.isRankCMD = true
  · obtain ⟨hbank, hbanks, hgroups, hranks⟩ := @rows_of_rank config _ hrank
    cases h with
    | sameBank _ he => exact absurd (hbank ▸ he) List.not_mem_nil
    | otherBanksSameBankgroup _ _ _ he => exact absurd (hbanks ▸ he) List.not_mem_nil
    | otherBankgroupsSameRank _ _ he => exact absurd (hgroups ▸ he) List.not_mem_nil
    | otherRanks _ he => exact absurd (hranks ▸ he) List.not_mem_nil
    | sameRank _ heq he =>
      rw [Timing.after, if_pos hrank, if_pos heq]
      exact he
  · have hother : ∀ {b' : BankId}, b'.rank ≠ cmd.addr.rank ∨ b'.bankgroup ≠ cmd.addr.bankgroup ∨
        b'.bank ≠ cmd.addr.bank → b' ≠ cmd.addr.bankId := by
      rintro _ hne rfl
      rcases hne with hne | hne | hne <;> exact hne rfl
    rw [Timing.after, if_neg hrank]
    cases h with
    | sameBank heq he =>
      rw [if_pos heq]
      exact he
    | otherBanksSameBankgroup heq hgroup hne he =>
      rw [if_neg (hother (Or.inr (Or.inr hne))), if_pos ⟨heq, hgroup⟩]
      exact he
    | otherBankgroupsSameRank heq hne he =>
      rw [if_neg (hother (Or.inr (Or.inl hne))), if_neg fun h => hne h.2, if_pos heq]
      exact he
    | otherRanks hne he =>
      rw [if_neg (hother (Or.inl hne)), if_neg fun h => hne h.1, if_neg hne]
      exact he
    | sameRank hbank _ he =>
      rw [sameRank_of_bank (Bool.not_eq_true _ ▸ hrank) hbank] at he
      cases he

end

section
variable {config : Config} {ch ch' : ChannelState} {cmd : Command} {clk : Nat} {trace : List (Nat × Command)}

theorem Executed.cmdTiming (h : Executed config clk cmd ch ch') {b : BankId} (hb : config.HasBank b)
    (t : CommandType) : (ch.bankStates b).cmdTiming t ≤ (ch'.bankStates b).cmdTiming t ∧
      ∀ d, (t, d) ∈ Timing.after config cmd b → later clk d ≤ (ch'.bankStates b).cmdTiming t := by
  by_cases htouched : b ∈ config.touched cmd
  · obtain ⟨state, hstate, heq⟩ := h.touched b htouched hb
    rw [heq, ← updateState_cmdTiming hstate]
    exact ⟨BankState.le_wait t, fun _ hd => BankState.later_le_wait hd⟩
  · rw [h.others b htouched hb]
    exact ⟨BankState.le_wait t, fun _ hd => BankState.later_le_wait hd⟩

theorem Recorded.delayed (h : Recorded config ch trace clk) {x : Nat × Command} (hx : x ∈ trace) {b : BankId}
    (hb : config.HasBank b) {t : CommandType} {d : Int} (hd : (t, d) ∈ Timing.after config x.2 b)
    (hbound : (x.1 : Int) + d < 2 ^ 64) : (x.1 : Int) + d ≤ (ch.bankStates b).cmdTiming t := by
  induction h with
  | new => cases hx
  | issue _ _ hexec ih =>
    obtain ⟨hkept, hnew⟩ := hexec.cmdTiming hb t
    rcases List.mem_append.mp hx with hx | hx
    · have := ih hx
      omega
    · obtain rfl := List.mem_singleton.mp hx
      have hlater := le_later hbound
      have hle := hnew d hd
      dsimp only at hlater ⊢
      omega
  | wait _ hbanks _ _ _ ih =>
    rw [hbanks]
    exact ih hx

theorem Recorded.compliant (h : Recorded config ch trace clk) : trace.Pairwise (Compliant config) := by
  induction h with
  | new => exact List.Pairwise.nil
  | issue h hready _ ih =>
    refine List.pairwise_append.mpr ⟨ih, List.pairwise_singleton _ _, fun x hx y hy => ?_⟩
    obtain rfl := List.mem_singleton.mp hy
    intro b hb hin d hd hbound
    have hdelayed := h.delayed hx hin hd.after hbound
    have htiming := hready.timing b hb
    dsimp only at hdelayed htiming ⊢
    omega
  | wait _ _ _ _ _ ih => exact ih

end

/-! ## The protocol of a bank -/

inductive Phase
  | idle
  | active (row : Int)
  | asleep
  deriving DecidableEq, Repr

/-- A row is opened before it is read or written, and closed before the bank is refreshed or put to sleep. -/
inductive Phase.Step (cmd : Command) : Phase → Phase → Prop
  | activate : cmd.cmdType = .activate → Step cmd .idle (.active cmd.addr.row)
  | access : cmd.cmdType = .read ∨ cmd.cmdType = .write → Step cmd (.active cmd.addr.row) (.active cmd.addr.row)
  | accessLast : cmd.cmdType = .readPrecharge ∨ cmd.cmdType = .writePrecharge → Step cmd (.active cmd.addr.row) .idle
  | precharge {row} : cmd.cmdType = .precharge → Step cmd (.active row) .idle
  | refresh : cmd.cmdType.isRefresh = true → Step cmd .idle .idle
  | sleep : cmd.cmdType = .srefEnter → Step cmd .idle .asleep
  | wake : cmd.cmdType = .srefExit → Step cmd .asleep .idle

inductive Phase.Path : List Command → Phase → Prop
  | nil : Path [] .idle
  | snoc {cmds p cmd p'} : Path cmds p → Step cmd p p' → Path (cmds ++ [cmd]) p'

def BankState.At (b : BankState) : Phase → Prop
  | .idle => b.state = .closed
  | .active row => b.state = .opened ∧ b.openRow = row
  | .asleep => b.state = .sref

def commandsOf (config : Config) (trace : List (Nat × Command)) (b : BankId) : List Command :=
  (trace.filter fun x => b ∈ config.touched x.2).map Prod.snd

section
variable {config : Config} {ch ch' : ChannelState} {cmd : Command} {clk : Nat} {trace : List (Nat × Command)}

theorem commandsOf_concat (config : Config) (trace : List (Nat × Command)) (clk : Nat) (cmd : Command) (b : BankId) :
    commandsOf config (trace ++ [(clk, cmd)]) b =
      commandsOf config trace b ++ if b ∈ config.touched cmd then [cmd] else [] := by
  unfold commandsOf
  rw [List.filter_append, List.map_append]
  split <;> simp_all

theorem BankState.At.wait {b : BankState} {p : Phase} {l : List (CommandType × Int)} (h : b.At p) :
    (b.wait l clk).At p := by
  rw [BankState.wait_eq]
  cases p <;> exact h

/-- A command that its bank executes is a step of the protocol; reads and writes have to be for the open row. -/
theorem BankState.At.updateState {b b' : BankState} {p : Phase} (h : b.At p) (hupdate : b.updateState cmd = .ok b')
    (hrow : cmd.cmdType.isReadWrite = true → cmd.addr.row = b.openRow) : ∃ p', Phase.Step cmd p p' ∧ b'.At p' := by
  unfold BankState.updateState at hupdate
  cases p with
  | idle =>
    have hs : b.state = .closed := h
    cases hc : cmd.cmdType <;> simp only [hs, hc] at hupdate <;> cases hupdate
    · exact ⟨_, .activate hc, rfl, rfl⟩
    · exact ⟨_, .refresh (by rw [hc]; rfl), hs⟩
    · exact ⟨_, .refresh (by rw [hc]; rfl), hs⟩
    · exact ⟨_, .sleep hc, rfl⟩
  | active row =>
    obtain ⟨hs, rfl⟩ : b.state = .opened ∧ b.openRow = row := h
    have haccess : cmd.cmdType.isReadWrite = true → Phase.active b.openRow = .active cmd.addr.row :=
      fun hrw => congrArg _ (hrow hrw).symm
    cases hc : cmd.cmdType <;> simp only [hs, hc] at hupdate <;> cases hupdate
    · rw [haccess (by rw [hc]; rfl)]
      exact ⟨_, .access (Or.inl hc), rfl, (hrow (by rw [hc]; rfl)).symm⟩
    · rw [haccess (by rw [hc]; rfl)]
      exact ⟨_, .accessLast (Or.inl hc), rfl⟩
    · rw [haccess (by rw [hc]; rfl)]
      exact ⟨_, .access (Or.inr hc), rfl, (hrow (by rw [hc]; rfl)).symm⟩
    · rw [haccess (by rw [hc]; rfl)]
      exact ⟨_, .accessLast (Or.inr hc), rfl⟩
    · exact ⟨_, .precharge hc, rfl⟩
  | asleep =>
    have hs : b.state = .sref := h
    cases hc : cmd.cmdType <;> simp only [hs, hc] at hupdate <;> cases hupdate
    exact ⟨_, .wake hc, rfl⟩

theorem Ready.row_eq (h : Ready config ch clk cmd) (hrw : cmd.cmdType.isReadWrite = true) {b : BankId}
    (hb : b ∈ config.touched cmd) : cmd.addr.row = (ch.bankStates b).openRow := by
  have hbank : cmd.cmdType.isRankCMD = false := by
    cases hc : cmd.cmdType <;> rw [hc] at hrw <;> first | rfl | cases hrw
  have hchecked : b ∈ config.checked cmd := by
    rw [checked_of_bank hbank]
    unfold Config.touched at hb
    rw [if_neg (by simp [hbank])] at hb
    exact hb
  have hallows := h.state b hchecked
  unfold BankState.Allows at hallows
  cases hc : cmd.cmdType <;> rw [hc] at hrw hallows <;> first | exact hallows.2 | cases hrw

theorem Recorded.protocol (h : Recorded config ch trace clk) {b : BankId} (hb : config.HasBank b) :
    ∃ p, Phase.Path (commandsOf config trace b) p ∧ (ch.bankStates b).At p := by
  induction h with
  | new => exact ⟨.idle, .nil, rfl⟩
  | @issue ch trace clk ch' cmd _ hready hexec ih =>
    obtain ⟨p, hpath, hat⟩ := ih
    by_cases htouched : b ∈ config.touched cmd
    · obtain ⟨state, hstate, heq⟩ := hexec.touched b htouched hb
      obtain ⟨p', hstep, hat'⟩ := hat.updateState hstate fun hrw => hready.row_eq hrw htouched
      refine ⟨p', ?_, heq ▸ hat'.wait⟩
      rw [commandsOf_concat, if_pos htouched]
      exact hpath.snoc hstep
    · refine ⟨p, ?_, (hexec.others b htouched hb) ▸ hat.wait⟩
      rw [commandsOf_concat, if_neg htouched, List.append_nil]
      exact hpath
  | wait _ hbanks _ _ _ ih =>
    rw [hbanks]
    exact ih

end

/-! ## Activations -/

/-- When a rank was activated, and when that leaves a window of `cycles`. -/
def activations (trace : List (Nat × Command)) (rank : Int) (cycles : Int) : List (Nat × Nat) :=
  (trace.filter fun x => x.2.cmdType = .activate ∧ x.2.addr.rank = rank).map fun x => (x.1, later x.1 cycles)

section
variable {config : Config} {ch ch' : ChannelState} {cmd : Command} {clk : Nat} {trace : List (Nat × Command)}

theorem Recorded.le_clk (h : Recorded config ch trace clk) {x : Nat × Command} (hx : x ∈ trace) : x.1 ≤ clk := by
  induction h with
  | new => cases hx
  | issue _ _ _ ih =>
    rcases List.mem_append.mp hx with hx | hx
    · exact ih hx
    · rw [List.mem_singleton.mp hx]
  | wait _ _ _ _ hle ih => exact Nat.le_trans (ih hx) hle

theorem isFAWReady_admits {rank : Int} (h : ch.isFAWReady rank clk = true) : Window.Admits 4 (ch.fourAw rank) clk := by
  unfold ChannelState.isFAWReady at h
  intro hfull front hfront
  cases hw : ch.fourAw rank with
  | nil =>
    rw [hw] at hfront
    cases hfront
  | cons t ts =>
    rw [hw] at h hfull hfront
    obtain rfl := Option.some.inj hfront
    simp only [Bool.not_eq_true', Bool.and_eq_false_iff, decide_eq_false_iff_not] at h
    omega

theorem is32AWReady_admits {rank : Int} (h : ch.is32AWReady rank clk = true) :
    Window.Admits 32 (ch.thirtyTwoAw rank) clk := by
  unfold ChannelState.is32AWReady at h
  intro hfull front hfront
  cases hw : ch.thirtyTwoAw rank with
  | nil =>
    rw [hw] at hfront
    cases hfront
  | cons t ts =>
    rw [hw] at h hfull hfront
    obtain rfl := Option.some.inj hfront
    simp only [Bool.not_eq_true', Bool.and_eq_false_iff, decide_eq_false_iff_not] at h
    omega

theorem slide_eq (window : List Nat) (clk : Nat) (cycles : Int) :
    ChannelState.slide window clk cycles = Window.slide window clk (later clk cycles) := by
  cases window with
  | nil => rfl
  | cons t ts =>
    unfold ChannelState.slide Window.slide
    by_cases h : t ≤ clk <;> simp [h]

theorem slides_activation {n : Nat} {cycles : Int} {rank : Int} {window : Int → List Nat}
    (h : Recorded config ch trace clk) (hslides : Window.Slides n (activations trace rank cycles) (window rank))
    (hadmits : cmd.cmdType = .activate → Window.Admits n (window cmd.addr.rank) clk) :
    Window.Slides n (activations (trace ++ [(clk, cmd)]) rank cycles) (windowAfter cmd clk cycles window rank) := by
  unfold activations windowAfter at *
  rw [List.filter_append, List.map_append]
  by_cases hact : cmd.cmdType = .activate
  · rw [if_pos hact]
    by_cases hrank : cmd.addr.rank = rank
    · subst hrank
      rw [Function.update_self, List.filter_cons_of_pos (by simp [hact]), List.filter_nil, List.map_cons, List.map_nil,
        slide_eq]
      refine hslides.snoc (hadmits hact) fun x hx => ?_
      obtain ⟨y, hy, rfl⟩ := List.mem_map.mp hx
      exact h.le_clk (List.mem_of_mem_filter hy)
    · rw [Function.update_of_ne (Ne.symm hrank), List.filter_cons_of_neg (by simp [hrank]), List.filter_nil,
        List.map_nil, List.append_nil]
      exact hslides
  · rw [if_neg hact, List.filter_cons_of_neg (by simp [hact]), List.filter_nil, List.map_nil, List.append_nil]
    exact hslides

theorem Recorded.slides (h : Recorded config ch trace clk) (rank : Int) :
    Window.Slides 4 (activations trace rank config.tFAW) (ch.fourAw rank) ∧
      (config.isGDDR = true → Window.Slides 32 (activations trace rank config.t32AW) (ch.thirtyTwoAw rank)) := by
  induction h with
  | new => exact ⟨.nil, fun _ => .nil⟩
  | issue h hready hexec ih =>
    obtain ⟨hfour, hthirty⟩ := ih
    refine ⟨?_, fun hgddr => ?_⟩
    · rw [hexec.fourAw]
      refine slides_activation h hfour fun hact => ?_
      exact isFAWReady_admits (Bool.and_eq_true_iff.mp (hready.window hact)).1
    · rw [hexec.thirtyTwoAw, if_pos hgddr]
      refine slides_activation h (hthirty hgddr) fun hact => ?_
      have hwindow := (Bool.and_eq_true_iff.mp (hready.window hact)).2
      rw [hgddr] at hwindow
      exact is32AWReady_admits hwindow
  | wait _ _ hfour hthirty _ ih =>
    rw [hfour, hthirty]
    exact ih

end

/-! ## The command bus -/

namespace Controller

/-- What goes over the bus in one cycle: a command, or with the two buses of a stack one for the rows and one for the
columns. -/
def Bus (config : Config) (cmds : List Command) : Prop :=
  cmds.length ≤ 1 ∨ config.enableHbmDualCmd = true ∧
    ∃ first second, cmds = [first, second] ∧ first.cmdType.isReadWrite ≠ second.cmdType.isReadWrite

section
variable {config : Config} {c c' : Controller} {cmd : Command} {o : Option Command}

theorem issueSecond_trace (h : c.issueSecond config cmd = .ok c') : c'.trace = c.trace ∨
    ∃ second, cmd.cmdType.isReadWrite ≠ second.cmdType.isReadWrite ∧ c'.trace = c.trace ++ [(c.clk, second)] := by
  obtain ⟨⟨o, c₁⟩, hget, h⟩ := bind_eq_ok.mp h
  obtain ⟨q, rfl⟩ := getCommandToIssue_eq hget
  cases o with
  | none =>
    obtain rfl := pure_eq_ok.mp h
    exact Or.inl rfl
  | some second =>
    dsimp only at h
    split at h
    · rename_i hne
      exact Or.inr ⟨second, Ne.symm hne, (issueCommand_trace h).2⟩
    · obtain rfl := pure_eq_ok.mp h
      exact Or.inl rfl

theorem issueCommands_trace {issued : Bool} (h : c.issueCommands config = .ok (issued, c')) :
    (issued = false ∧ c'.trace = c.trace) ∨
      ∃ cmds, Bus config cmds ∧ issued = true ∧ c'.trace = c.trace ++ cmds.map fun cmd => (c.clk, cmd) := by
  obtain ⟨⟨o, c₁⟩, hselect, h⟩ := bind_eq_ok.mp h
  obtain ⟨q, rfl⟩ := selectCommand_eq hselect
  cases o with
  | none =>
    obtain ⟨rfl, rfl⟩ := Prod.mk.inj (pure_eq_ok.mp h)
    exact Or.inl ⟨rfl, rfl⟩
  | some cmd =>
    obtain ⟨c₂, hc₂, h⟩ := bind_eq_ok.mp h
    obtain ⟨hclk₂, htrace₂⟩ := issueCommand_trace hc₂
    split at h
    · rename_i hdual
      obtain ⟨c₃, hc₃, h⟩ := bind_eq_ok.mp h
      obtain ⟨rfl, rfl⟩ := Prod.mk.inj (pure_eq_ok.mp h)
      rcases issueSecond_trace hc₃ with hsame | ⟨second, hne, hboth⟩
      · exact Or.inr ⟨[cmd], Or.inl (Nat.le_refl _), rfl, hsame.trans htrace₂⟩
      · refine Or.inr ⟨[cmd, second], Or.inr ⟨hdual, cmd, second, rfl, hne⟩, rfl, ?_⟩
        rw [hboth, htrace₂, hclk₂, List.append_assoc]
        rfl
    · obtain ⟨rfl, rfl⟩ := Prod.mk.inj (pure_eq_ok.mp h)
      exact Or.inr ⟨[cmd], Or.inl (Nat.le_refl _), rfl, htrace₂⟩

theorem updateSelfRefresh_trace {ranks : List Int} (h : c.updateSelfRefresh config ranks = .ok c') :
    c'.trace = c.trace ∨ ∃ cmd, c'.trace = c.trace ++ [(c.clk, cmd)] := by
  induction ranks with
  | nil =>
    obtain rfl := Except.ok.inj h
    exact Or.inl rfl
  | cons i ranks ih =>
    unfold updateSelfRefresh at h
    dsimp only at h
    split at h
    · exact ih h
    · obtain ⟨ready, -, h⟩ := bind_eq_ok.mp h
      cases ready with
      | none => exact ih h
      | some cmd => exact Or.inr ⟨cmd, (issueCommand_trace h).2⟩

theorem clockTick_bus (h : c.clockTick config = .ok c') :
    ∃ cmds, Bus config cmds ∧ c'.trace = c.trace ++ cmds.map fun cmd => (c.clk, cmd) := by
  obtain ⟨-, issued, c₁, c₂, hissue, hpower, rfl⟩ := clockTick_calls h
  have hclk : c₁.clk = (c.tickRefresh config).clk := congrArg Prod.fst (issueCommands_clocks hissue)
  have htrace := issueCommands_trace hissue
  rw [tickRefresh_eq] at hclk htrace
  dsimp only at hclk htrace
  have hschedule : (c₂.scheduleTransaction config).advance.trace = c₂.trace := by
    rw [scheduleTransaction_eq]
    rfl
  rw [hschedule]
  -- a rank changes its self-refresh only in a cycle without other commands
  unfold updatePower at hpower
  dsimp only at hpower
  split at hpower
  · rename_i hidle
    have hsame : c₁.trace = c.trace := by
      rcases htrace with ⟨-, hsame⟩ | ⟨_, _, hissued, _⟩
      · exact hsame
      · rw [hidle.2] at hissued
        cases hissued
    have hself : c₂.trace = c₁.trace ∨ ∃ cmd, c₂.trace = c₁.trace ++ [(c₁.clk, cmd)] := by
      have hself := updateSelfRefresh_trace hpower
      exact hself
    rw [hsame, hclk] at hself
    rcases hself with hself | ⟨cmd, hself⟩
    · exact ⟨[], Or.inl (Nat.zero_le _), by rw [hself, List.map_nil, List.append_nil]⟩
    · exact ⟨[cmd], Or.inl (Nat.le_refl _), hself⟩
  · obtain rfl := Except.ok.inj hpower
    rcases htrace with ⟨-, hsame⟩ | ⟨cmds, hbus, -, hcmds⟩
    · exact ⟨[], Or.inl (Nat.zero_le _), by rw [List.map_nil, List.append_nil]; exact hsame⟩
    · exact ⟨cmds, hbus, hcmds⟩

def cycle (trace : List (Nat × Command)) (clk : Nat) : List Command :=
  (trace.filter fun x => x.1 = clk).map Prod.snd

theorem cycle_append (trace : List (Nat × Command)) (clk now : Nat) (cmds : List Command) :
    cycle (trace ++ cmds.map fun cmd => (now, cmd)) clk = cycle trace clk ++ if now = clk then cmds else [] := by
  unfold cycle
  rw [List.filter_append, List.map_append]
  congr 1
  by_cases h : now = clk
  · rw [if_pos h, List.filter_eq_self.mpr (by simp [h]), List.map_map]
    exact List.map_id cmds
  · rw [if_neg h, List.filter_eq_nil_iff.mpr (by simp [h])]
    rfl

theorem Reach.bus (h : Reach config c) : (∀ x ∈ c.trace, x.1 < c.clk) ∧ ∀ clk, Bus config (cycle c.trace clk) := by
  induction h with
  | new => exact ⟨fun _ h => absurd h List.not_mem_nil, fun _ => Or.inl (Nat.zero_le _)⟩
  | add t _ _ ih =>
    rw [addTransaction_clk, addTransaction_trace]
    exact ih
  | done _ _ ih => exact ih
  | @tick c c' _ htick ih =>
    obtain ⟨hbefore, hcycle⟩ := ih
    obtain ⟨cmds, hbus, htrace⟩ := clockTick_bus htick
    rw [htrace, (clockTick_clocks htick).1]
    refine ⟨fun x hx => ?_, fun clk => ?_⟩
    · rcases List.mem_append.mp hx with hx | hx
      · exact Nat.lt_succ_of_lt (hbefore x hx)
      · obtain ⟨cmd, -, rfl⟩ := List.mem_map.mp hx
        exact Nat.lt_succ_self _
    · rw [cycle_append]
      split
      · rename_i hnow
        subst hnow
        have hnil : cycle c.trace c.clk = [] := by
          unfold cycle
          rw [List.filter_eq_nil_iff.mpr, List.map_nil]
          intro x hx
          have := hbefore x hx
          simp only [decide_eq_true_iff]
          omega
        rw [hnil, List.nil_append]
        exact hbus
      · rw [List.append_nil]
        exact hcycle clk

end

end Controller

/-! ## In every run -/

namespace Controller

/-- Two reads of a single bank; the second finds the row open. -/
def twoReads : List Op := [.add ⟨320, 0, 0, false⟩, .add ⟨64, 0, 0, false⟩] ++ List.replicate 5 .tick

theorem oneBank_twoReads : ∃ c, replay Config.oneBank twoReads .new = .ok c ∧
    c.trace.map (fun x => (x.1, x.2.cmdType, x.2.hexAddr)) = [(1, .activate, 320), (2, .read, 320), (3, .read, 64)] :=
  ⟨_, rfl, rfl⟩

/-- In every run each command comes at least as long after every earlier command as the timing tables say for the place
of the bank, at each bank that it waits for. -/
theorem commands_keep_their_distances (config : Config) (hmap : config.Mapped) (c : Controller)
    (h : Reach config c) : c.trace.Pairwise (Compliant config) :=
  (h.recorded hmap).compliant

theorem commands_keep_their_distances_twoReads : ∃ c, replay Config.oneBank twoReads .new = .ok c ∧
    c.trace.length = 3 ∧ c.trace.Pairwise (Compliant Config.oneBank) := by
  obtain ⟨c, hc, htrace⟩ := oneBank_twoReads
  refine ⟨c, hc, ?_, commands_keep_their_distances Config.oneBank Config.oneBank_mapped c (Reach.replay .new hc)⟩
  rw [← List.length_map, htrace]
  rfl

-- why the row `same_rank[REFRESH_BANK]` is left out: a bank is opened one cycle after its refresh
example :
    let config := { Config.oneBank with refreshPolicy := .bankLevelStaggered, tREFIb := 6, tRFCb := 20 }
    (replay config (List.replicate 6 .tick ++ [.add ⟨320, 0, 0, false⟩, .tick, .tick]) .new).map
        (fun c => c.trace.map fun x => (x.1, x.2.cmdType, x.2.addr.bankId)) =
      .ok [(6, .refreshBank, ⟨0, 0, 0⟩), (7, .activate, ⟨0, 0, 0⟩)] ∧
    (.activate, 20) ∈ Timing.sameRank config .refreshBank := ⟨by decide +kernel, by decide⟩

/-- In every run the commands that go to a bank are a path of its protocol, and lead to the state it is in: a row is
read and written only while it is open, and a bank is refreshed only while it is closed. -/
theorem banks_follow_the_protocol (config : Config) (hmap : config.Mapped) (c : Controller) (h : Reach config c)
    (b : BankId) (hb : config.HasBank b) :
    ∃ p, Phase.Path (commandsOf config c.trace b) p ∧ (c.channelState.bankStates b).At p :=
  (h.recorded hmap).protocol hb

theorem banks_follow_the_protocol_twoReads : ∃ c, replay Config.oneBank twoReads .new = .ok c ∧
    ∃ p, Phase.Path (commandsOf Config.oneBank c.trace ⟨0, 0, 0⟩) p ∧ (c.channelState.bankStates ⟨0, 0, 0⟩).At p := by
  obtain ⟨c, hc, -⟩ := oneBank_twoReads
  exact ⟨c, hc, banks_follow_the_protocol Config.oneBank Config.oneBank_mapped c (Reach.replay .new hc) ⟨0, 0, 0⟩
    ⟨by decide, by decide, by decide⟩⟩

/-- In every run of any five activations of a rank in a row the last is at least `tFAW` after the first, and for
GDDR of any 33 at least `t32AW`. -/
theorem activations_are_spread (config : Config) (hmap : config.Mapped) (c : Controller) (h : Reach config c)
    (rank : Int) (before between after : List Nat) (t u : Nat)
    (htimes : (c.trace.filter fun x => x.2.cmdType = .activate ∧ x.2.addr.rank = rank).map Prod.fst =
      before ++ t :: (between ++ u :: after)) :
    (4 ≤ between.length + 1 → (t : Int) + config.tFAW < 2 ^ 64 → (t : Int) + config.tFAW ≤ u) ∧
      (config.isGDDR = true → 32 ≤ between.length + 1 → (t : Int) + config.t32AW < 2 ^ 64 →
        (t : Int) + config.t32AW ≤ u) := by
  obtain ⟨hfour, hthirty⟩ := (h.recorded hmap).slides rank
  have hsplit : ∀ cycles : Int, activations c.trace rank cycles =
      before.map (fun x => (x, later x cycles)) ++ (t, later t cycles) ::
        (between.map (fun x => (x, later x cycles)) ++ (u, later u cycles) :: after.map fun x => (x, later x cycles)) := by
    intro cycles
    have hmap : activations c.trace rank cycles =
        ((c.trace.filter fun x => x.2.cmdType = .activate ∧ x.2.addr.rank = rank).map Prod.fst).map
          fun x => (x, later x cycles) := by
      rw [List.map_map]
      rfl
    rw [hmap, htimes]
    simp only [List.map_append, List.map_cons]
  refine ⟨fun hlen hbound => ?_, fun hgddr hlen hbound => ?_⟩
  · have hexpired := hfour.expired (by decide) (hsplit _) (by rw [List.length_map]; exact hlen)
    have hlater := le_later hbound
    dsimp only at hexpired
    omega
  · have hexpired := (hthirty hgddr).expired (by decide) (hsplit _) (by rw [List.length_map]; exact hlen)
    have hlater := le_later hbound
    dsimp only at hexpired
    omega

/-- A single bank that closes its row after every read, and could open it again soon. -/
def fastBank : Config :=
  Config.placed { Config.hbm2Params with
    channels := 1
    bankgroups := 1
    banksPerGroup := 1
    cl := 1
    burstCycle := 1
    tRCDRD := 1
    tRP := 1
    tRAS := 1
    tRTP := 0
    tFAW := 15
    rowBufPolicy := .closePage } 6 (fun _ => 0) []

theorem fastBank_mapped : fastBank.Mapped :=
  Config.placed_mapped (fun _ => Nat.zero_le _) (fun _ => Nat.zero_lt_succ _) (by decide)
    ⟨by decide, by decide, by decide, by decide⟩

def fiveReads : List Op :=
  (List.range 5).map (fun i => .add ⟨UInt64.ofNat (64 * i), 0, 0, false⟩) ++ List.replicate 18 .tick

theorem activations_are_spread_fiveReads : ∃ c, replay fastBank fiveReads .new = .ok c ∧
    (c.trace.filter fun x => x.2.cmdType = .activate ∧ x.2.addr.rank = 0).map Prod.fst = [1, 4, 7, 10, 16] ∧
    ((1 : Nat) : Int) + fastBank.tFAW ≤ (16 : Nat) := by
  have hrun : ∃ c, replay fastBank fiveReads .new = .ok c ∧
      (c.trace.filter fun x => x.2.cmdType = .activate ∧ x.2.addr.rank = 0).map Prod.fst = [1, 4, 7, 10, 16] :=
    ⟨_, rfl, rfl⟩
  obtain ⟨c, hc, htimes⟩ := hrun
  exact ⟨c, hc, htimes, (activations_are_spread fastBank fastBank_mapped c (Reach.replay .new hc) 0 [] [4, 7, 10] [] 1 16
    htimes).1 (by decide) (by decide)⟩

/-- In every run at most one command is issued in a cycle, or two if a stack has two buses, one of which transfers
data and the other does not. -/
theorem one_command_a_cycle (config : Config) (c : Controller) (h : Reach config c) (clk : Nat) :
    Bus config (cycle c.trace clk) :=
  h.bus.2 clk

theorem one_command_a_cycle_twoReads : ∃ c, replay Config.oneBank twoReads .new = .ok c ∧
    Bus Config.oneBank (cycle c.trace 2) := by
  obtain ⟨c, hc, -⟩ := oneBank_twoReads
  exact ⟨c, hc, one_command_a_cycle Config.oneBank c (Reach.replay .new hc) 2⟩

end Controller

end Dramsim3

end Anna
