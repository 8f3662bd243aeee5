import Anna.Dramsim3.TraceSound

/-!
# Refreshes in turn

A refresh is demanded every `refresh_interval` cycles, for the ranks or the
banks in turn. What has been demanded is issued in that order, and each of it
once: at every moment the refreshes on the bus and those that wait are what
was demanded so far.
-/

namespace Anna

namespace Dramsim3

namespace Controller

/-- The refresh that is demanded after `k` others. The loop over the ranks that
`RANK_LEVEL_SIMULTANEOUS` asks for ends with its first rank. -/
def turn (config : Config) (k : Nat) : Command :=
  match config.refreshPolicy with
  | .rankLevelSimultaneous => ⟨.refresh, ⟨-1, 0, -1, -1, -1, -1⟩, -1⟩
  | .rankLevelStaggered => ⟨.refresh, ⟨-1, (k % config.ranks : Nat), -1, -1, -1, -1⟩, -1⟩
  | .bankLevelStaggered =>
    ⟨.refreshBank, ⟨-1, (k / config.bankgroups / config.banksPerGroup % config.ranks : Nat),
      (k % config.bankgroups : Nat), (k / config.bankgroups % config.banksPerGroup : Nat), -1, -1⟩, -1⟩

/-- Where the turn stands after `k` refreshes. -/
def turnAfter (config : Config) (k : Nat) (r : Refresh) : Prop :=
  match config.refreshPolicy with
  | .rankLevelSimultaneous => True
  | .rankLevelStaggered => r.nextRank = k % config.ranks
  | .bankLevelStaggered => r.nextBg = k % config.bankgroups ∧ r.nextBank = k / config.bankgroups % config.banksPerGroup ∧
      r.nextRank = k / config.bankgroups / config.banksPerGroup % config.ranks

def refreshes (trace : List (Nat × Command)) : List Command :=
  (trace.map Prod.snd).filter fun cmd => cmd.cmdType.isRefresh

section
variable {config : Config} {c c' : Controller} {cmd : Command} {r : Refresh} {k : Nat}

theorem succ_div_eq (n k : Nat) : (k + 1) / n = if (k + 1) % n = 0 then k / n + 1 else k / n := by
  rw [Nat.succ_div]
  simp only [Nat.dvd_iff_mod_eq_zero]
  split <;> rfl

theorem turnAfter_iterateNext (h : turnAfter config k r) : turnAfter config (k + 1) (r.iterateNext config) := by
  unfold turnAfter at *
  unfold Refresh.iterateNext
  cases hp : config.refreshPolicy with
  | rankLevelSimultaneous => trivial
  | rankLevelStaggered =>
    simp only [hp] at h ⊢
    rw [h, Nat.mod_add_mod]
  | bankLevelStaggered =>
    simp only [hp] at h ⊢
    obtain ⟨hg, hb, hr⟩ := h
    rw [hg, hb, hr, succ_div_eq config.bankgroups k]
    simp only [Nat.mod_add_mod]
    by_cases hcarry : (k + 1) % config.bankgroups = 0
    · simp only [if_pos hcarry, succ_div_eq config.banksPerGroup (k / config.bankgroups)]
      by_cases hcarry' : (k / config.bankgroups + 1) % config.banksPerGroup = 0
      · simp only [if_pos hcarry', and_self]
      · simp only [if_neg hcarry', and_self]
    · simp only [if_neg hcarry, and_self]

/-- Of ranks that are all awake the one in turn is demanded. -/
theorem wanted_eq (hranks : 0 < config.ranks) {ch : ChannelState} (hawake : ∀ i, ch.rankIsSref i = false)
    (h : turnAfter config k r) : wanted config r ch = [turn config k] := by
  unfold turnAfter at h
  unfold wanted turn
  cases hp : config.refreshPolicy with
  | rankLevelSimultaneous =>
    have hfirst : (upTo config.ranks).find? (fun i => !ch.rankIsSref i) = some 0 := by
      obtain ⟨n, hn⟩ := Nat.exists_eq_succ_of_ne_zero (Nat.ne_of_gt hranks)
      rw [hn, upTo, List.range_succ_eq_map, List.map_cons, List.find?_cons_of_pos]
      · rfl
      · simp [hawake]
    simp only [hfirst]
  | rankLevelStaggered =>
    simp only [hp] at h
    simp [hawake, h]
  | bankLevelStaggered =>
    simp only [hp] at h
    simp [hawake, h]

/-! ## Issuing in order -/

theorem Selected.not_isRefresh (hf : Formed config c) (h : Selected config c cmd c') :
    cmd.cmdType.isRefresh = false := by
  obtain ⟨index, before, req, after, hqueue, hready, -⟩ := h.request
  have hrw : req.cmdType.isReadWrite = true := by
    have hmem : req ∈ c.cmdQueue.queues index := by
      rw [hqueue]
      exact List.mem_append_right _ List.mem_cons_self
    exact hf.readWrite hmem
  cases (getReadyCommand_spec hready).2 with
  | same => cases hc : cmd.cmdType <;> rw [hc] at hrw <;> first | rfl | cases hrw
  | bank t _ ht => rcases ht with rfl | rfl | rfl <;> rfl
  | rank b _ _ => rfl

/-- What has been demanded is on the bus or waits, in the order of the turns. -/
structure InOrder (config : Config) (c : Controller) : Prop where
  awake : ∀ i, c.channelState.rankIsSref i = false
  due : turnAfter config ((c.refresh.clk - 1) / Refresh.refreshInterval config) c.refresh
  order : refreshes c.trace ++ c.channelState.refreshQ =
    (List.range ((c.refresh.clk - 1) / Refresh.refreshInterval config)).map (turn config)

theorem refreshes_concat (trace : List (Nat × Command)) (clk : Nat) (cmd : Command) :
    refreshes (trace ++ [(clk, cmd)]) = refreshes trace ++ if cmd.cmdType.isRefresh then [cmd] else [] := by
  unfold refreshes
  rw [List.map_append, List.filter_append]
  split <;> simp_all

theorem rankIsSrefAfter_awake {s : Int → Bool} (h : ∀ i, s i = false) (hcmd : cmd.cmdType ≠ .srefEnter) (i : Int) :
    rankIsSrefAfter cmd s i = false := by
  unfold rankIsSrefAfter
  cases hc : cmd.cmdType with
  | srefEnter => exact absurd hc hcmd
  | srefExit =>
    by_cases hi : i = cmd.addr.rank
    · simp [hi]
    · simp [hi, h i]
  | _ => exact h i

/-- A command that is no refresh leaves those that wait alone. -/
theorem InOrder.issued (h : InOrder config c) (hi : Issued config cmd c c') (hcmd : cmd.cmdType ≠ .srefEnter)
    (hrefresh : cmd.cmdType.isRefresh = false) : InOrder config c' := by
  have hq := hi.executed.refreshQ
  have hs := hi.executed.rankIsSref
  have hsame := refreshQAfter_of_not hrefresh c.channelState.refreshQ
  have hrest := hi.eq
  refine ⟨fun i => ?_, ?_, ?_⟩
  · rw [hs]
    exact rankIsSrefAfter_awake h.awake hcmd i
  · rw [hrest]
    exact h.due
  · rw [hq, hsame]
    have htrace : c'.trace = c.trace ++ [(c.clk, cmd)] := by rw [hrest]
    have hclk : c'.refresh = c.refresh := by rw [hrest]
    rw [htrace, hclk, refreshes_concat, hrefresh, if_neg Bool.false_ne_true, List.append_nil]
    exact h.order

theorem InOrder.refreshed (h : InOrder config c) {refs : List Command} (hq : c.channelState.refreshQ = cmd :: refs)
    (hi : Issued config cmd c c') (hrefresh : cmd.cmdType.isRefresh = true) : InOrder config c' := by
  have hafter := hi.executed.refreshQ
  have hs := hi.executed.rankIsSref
  have hfront : refreshQAfter cmd c.channelState.refreshQ = refs := by
    rw [hq]
    exact refreshQAfter_head hrefresh refs
  have hrest := hi.eq
  refine ⟨fun i => ?_, ?_, ?_⟩
  · rw [hs]
    refine rankIsSrefAfter_awake h.awake (fun hc => ?_) i
    rw [hc] at hrefresh
    cases hrefresh
  · rw [hrest]
    exact h.due
  · rw [hafter, hfront]
    have htrace : c'.trace = c.trace ++ [(c.clk, cmd)] := by rw [hrest]
    have hclk : c'.refresh = c.refresh := by rw [hrest]
    have horder := h.order
    rw [hq] at horder
    rw [htrace, hclk, refreshes_concat, hrefresh, if_pos rfl, List.append_assoc]
    exact horder

theorem InOrder.demand (hranks : 0 < config.ranks) (h : InOrder config c) : InOrder config (c.tickRefresh config) := by
  rw [tickRefresh_eq]
  generalize hi : Refresh.refreshInterval config = interval
  by_cases hdue : Due config c.refresh
  · obtain ⟨hmod, hpos⟩ := hdue
    rw [hi] at hmod
    have hcount : (c.refresh.clk + 1 - 1) / interval = (c.refresh.clk - 1) / interval + 1 := by
      obtain ⟨m, hm⟩ := Nat.exists_eq_succ_of_ne_zero (Nat.ne_of_gt hpos)
      rw [hm] at hmod ⊢
      rw [Nat.succ_eq_add_one, Nat.add_sub_cancel, Nat.add_sub_cancel, succ_div_eq, if_pos hmod]
    have hturn := h.due
    have horder := h.order
    rw [hi] at hturn horder
    have hwanted := wanted_eq hranks h.awake hturn
    refine ⟨h.awake, ?_, ?_⟩
    · dsimp only
      rw [hi, hcount, if_pos ⟨hi ▸ hmod, hpos⟩]
      have hnext := turnAfter_iterateNext hturn
      unfold turnAfter at hnext ⊢
      exact hnext
    · dsimp only
      rw [hi, hcount, if_pos ⟨hi ▸ hmod, hpos⟩, hwanted, ← List.append_assoc, horder, List.range_succ, List.map_append]
      rfl
  · have hcount : (c.refresh.clk + 1 - 1) / interval = (c.refresh.clk - 1) / interval := by
      cases hclk : c.refresh.clk with
      | zero => rfl
      | succ m =>
        rw [Nat.add_sub_cancel, Nat.add_sub_cancel, succ_div_eq, if_neg]
        intro hmod
        exact hdue ⟨by rw [hi, hclk]; exact hmod, by rw [hclk]; exact Nat.succ_pos m⟩
    have hturn := h.due
    have horder := h.order
    rw [hi] at hturn horder
    refine ⟨h.awake, ?_, ?_⟩
    · dsimp only
      rw [hi, hcount, if_neg hdue]
      unfold turnAfter at hturn ⊢
      exact hturn
    · dsimp only
      rw [hi, hcount, if_neg hdue, List.append_nil]
      exact horder

theorem InOrder.atom (hmap : config.Mapped) (hsref : config.enableSelfRefresh = false) (hs : Sound config c)
    (h : InOrder config c) (step : Atom config c c') : InOrder config c' := by
  cases step with
  | demand => exact h.demand (Config.Mapped.pos hmap).1
  | book => exact ⟨h.awake, h.due, h.order⟩
  | issue hsel hissue =>
    have hnot : _ ∧ _ := ⟨(hsel.ready_touched hmap hs).2, hsel.not_isRefresh hs.formed⟩
    obtain ⟨q, rfl, -⟩ := hsel.frame
    have h₁ : InOrder config { c with cmdQueue := q } := ⟨h.awake, h.due, h.order⟩
    exact h₁.issued (issueCommand_spec hissue) hnot.1 hnot.2
  | lose _ _ _ _ hsel =>
    obtain ⟨q, rfl, -⟩ := hsel.frame
    exact ⟨h.awake, h.due, h.order⟩
  | @refresh _ ref refs cmd hq hready hissue =>
    obtain ⟨hreach, hplain⟩ := hs.formed.refresh_reaches (hq ▸ List.mem_cons_self)
    have henter := (Dramsim3.ready_touched hreach hs.awake hplain hready).2
    cases (getReadyCommand_spec hready).2 with
    | same =>
      refine h.refreshed hq (issueCommand_spec hissue) ?_
      rcases hs.formed.refreshes ref (hq ▸ List.mem_cons_self) with ⟨hc, -⟩ | ⟨hc, -⟩ <;> rw [hc] <;> rfl
    | bank t _ ht =>
      refine h.issued (issueCommand_spec hissue) henter ?_
      rcases ht with rfl | rfl | rfl <;> rfl
    | rank b _ _ => exact h.issued (issueCommand_spec hissue) henter rfl
  | selfRefresh hon =>
    rw [hsref] at hon
    cases hon
  | idle => exact ⟨h.awake, h.due, h.order⟩
  | schedule =>
    rw [scheduleTransaction_eq]
    exact ⟨h.awake, h.due, h.order⟩
  | advance => exact ⟨h.awake, h.due, h.order⟩

theorem InOrder.add (h : InOrder config c) (t : Transaction) : InOrder config (c.addTransaction config t) := by
  rw [addTransaction_eq]
  exact ⟨h.awake, h.due, h.order⟩

theorem inOrder_new (config : Config) : InOrder config .new := by
  refine ⟨fun _ => rfl, ?_, ?_⟩
  · unfold turnAfter
    cases config.refreshPolicy with
    | rankLevelSimultaneous => trivial
    | rankLevelStaggered => simp [Controller.new, Refresh.new]
    | bankLevelStaggered => simp [Controller.new, Refresh.new]
  · simp [Controller.new, Refresh.new, ChannelState.new, refreshes]

theorem Reach.inOrder (hmap : config.Mapped) (hsref : config.enableSelfRefresh = false) (h : Reach config c) : InOrder config c := by
  have hboth : Sound config c ∧ InOrder config c := by
    refine h.invariant (P := fun c => Sound config c ∧ InOrder config c) ⟨sound_new hmap, inOrder_new config⟩ ?_ ?_ ?_
    · exact fun t hc => ⟨hc.1.add t, hc.2.add t⟩
    · exact fun _ hc => ⟨hc.1.returned _, hc.2.awake, hc.2.due, hc.2.order⟩
    · exact fun hc step => ⟨hc.1.atom hmap hsref step, hc.2.atom hmap hsref hc.1 step⟩
  exact hboth.2

theorem Reach.refresh_clk (h : Reach config c) : c.refresh.clk = c.clk := by
  induction h with
  | new => rfl
  | add t _ _ ih =>
    rw [addTransaction_eq]
    exact ih
  | done _ _ ih => exact ih
  | tick _ htick ih =>
    obtain ⟨hclk, hrefresh⟩ := clockTick_clocks htick
    rw [hclk, hrefresh, tickRefresh_eq, ← ih]

end

/-- Without self-refresh the refreshes of every run are demanded for the ranks, or the banks, in turn, one in every
interval, and issued in this order, each of them once. -/
theorem refreshes_in_turn (config : Config) (hmap : config.Mapped) (hsref : config.enableSelfRefresh = false)
    (c : Controller) (h : Reach config c) : refreshes c.trace ++ c.channelState.refreshQ =
      (List.range ((c.clk - 1) / Refresh.refreshInterval config)).map (turn config) := by
  rw [← h.refresh_clk]
  exact (h.inOrder hmap hsref).order

/-- Two banks that are refreshed every third cycle. -/
def twoBanks : Config :=
  Config.placed { Config.hbm2Params with
    channels := 1
    bankgroups := 2
    banksPerGroup := 1
    tREFIb := 3
    tRFCb := 2
    refreshPolicy := .bankLevelStaggered } 6 (fun _ => 0) []

theorem twoBanks_mapped : twoBanks.Mapped :=
  Config.placed_mapped (fun _ => Nat.zero_le _) (fun _ => Nat.zero_lt_succ _) (by decide)
    ⟨by decide, by decide, by decide, by decide⟩

theorem refreshes_in_turn_tenTicks : ∃ c, replay twoBanks (List.replicate 10 .tick) .new = .ok c ∧
    refreshes c.trace ++ c.channelState.refreshQ = [turn twoBanks 0, turn twoBanks 1, turn twoBanks 2] := by
  have hrun : (replay twoBanks (List.replicate 10 .tick) .new).map Controller.clk = .ok 10 := by decide +kernel
  have hinterval : Refresh.refreshInterval twoBanks = 3 := by decide
  obtain ⟨c, hc, hclk⟩ := map_eq_ok.mp hrun
  have hturns := refreshes_in_turn twoBanks twoBanks_mapped rfl c (Reach.replay .new hc)
  rw [hclk, hinterval] at hturns
  exact ⟨c, hc, hturns⟩

end Controller

end Dramsim3

end Anna
