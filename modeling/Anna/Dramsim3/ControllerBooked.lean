import Anna.Dramsim3.CommandQueueProgress
import Anna.Dramsim3.RefreshSound

/-!
# Refreshes close their queues

How a command is selected, one case for each way (`Choice`). A refresh that
waits closes the queues it is about, and they stay closed until it is issued
(`Booked`).
-/

namespace Anna

namespace Dramsim3

def Config.refreshType (config : Config) : CommandType :=
  match config.refreshPolicy with
  | .bankLevelStaggered => .refreshBank
  | _ => .refresh

namespace Controller

/-- The queues that are closed are those of the refresh that has started, which is the first that waits. -/
structure Booked (config : Config) (c : Controller) : Prop where
  turn : 0 ≤ c.cmdQueue.queueIdx ∧ c.cmdQueue.queueIdx < CommandQueue.numQueues config
  opened : c.cmdQueue.isInRef = false → c.cmdQueue.refQIndices = []
  closed : c.cmdQueue.isInRef = true → ∃ ref refs, c.channelState.refreshQ = ref :: refs ∧
    c.cmdQueue.refQIndices = CommandQueue.getRefQIndices config ref

section
variable {config : Config} {c c' : Controller} {cmd req : Command}

theorem bank_required {ch : ChannelState} {clk : Nat} (hrank : req.cmdType.isRankCMD = false)
    (h : ch.getReadyCommand config req clk = .ok (some cmd)) :
    ∃ t, (ch.bankStates req.addr.bankId).requiredType req = .ok t ∧ cmd = { req with cmdType := t } := by
  unfold ChannelState.getReadyCommand at h
  rw [if_neg (by simp [hrank])] at h
  obtain ⟨ready, hready, h⟩ := bind_eq_ok.mp h
  cases ready with
  | none => cases h
  | some ready =>
    obtain ⟨t, ht, -, rfl⟩ := BankState.getReadyCommand_some hready
    dsimp only at h
    split at h
    · cases h
    · obtain rfl := Option.some.inj (pure_eq_ok.mp h)
      exact ⟨t, ht, rfl⟩

theorem turn_cmdType (config : Config) (k : Nat) : (turn config k).cmdType = config.refreshType := by
  unfold turn Config.refreshType
  cases config.refreshPolicy <;> rfl

theorem InOrder.cmdType (ho : InOrder config c) {ref : Command} (href : ref ∈ c.channelState.refreshQ) :
    ref.cmdType = config.refreshType := by
  have hmem : ref ∈ refreshes c.trace ++ c.channelState.refreshQ := List.mem_append_right _ href
  rw [ho.order] at hmem
  obtain ⟨k, -, rfl⟩ := List.mem_map.mp hmem
  exact turn_cmdType config k

/-! ## Selecting a command -/

/-- How a command is selected, or none. -/
inductive Choice (config : Config) (c : Controller) : Option Command → Controller → Prop
  | queues {o c₁} : c.channelState.refreshQ = [] → c.getCommandToIssue config = .ok (o, c₁) → Choice config c o c₁
  | waits {ref refs o c₁} : c.channelState.refreshQ = ref :: refs →
      c.channelState.getReadyCommand config ref c.clk = .ok none →
      getCommandToIssue config { c with cmdQueue := c.cmdQueue.startRefresh config ref } = .ok (o, c₁) →
      Choice config c o c₁
  | closes {ref refs cmd} : c.channelState.refreshQ = ref :: refs →
      c.channelState.getReadyCommand config ref c.clk = .ok (some cmd) → cmd.cmdType.isRefresh = false →
      Choice config c (some cmd) { c with cmdQueue := c.cmdQueue.startRefresh config ref }
  | refreshes {ref refs cmd} : c.channelState.refreshQ = ref :: refs →
      c.channelState.getReadyCommand config ref c.clk = .ok (some cmd) → cmd.cmdType.isRefresh = true →
      Choice config c (some cmd)
        { c with cmdQueue := { c.cmdQueue.startRefresh config ref with refQIndices := [], isInRef := false } }

theorem selectCommand_choice (hf : Formed config c) {o : Option Command} (h : c.selectCommand config = .ok (o, c')) :
    Choice config c o c' := by
  unfold selectCommand at h
  cases hq : c.channelState.refreshQ with
  | nil =>
    rw [hq] at h
    exact .queues hq h
  | cons ref refs =>
    rw [hq] at h
    obtain ⟨⟨o', q⟩, hfinish, h⟩ := bind_eq_ok.mp h
    unfold CommandQueue.finishRefresh at hfinish
    dsimp only at hfinish
    obtain ⟨ready, hready, hfinish⟩ := bind_eq_ok.mp hfinish
    rw [(startRefresh_spec config c ref).1, hf.clk] at hready
    cases ready with
    | none =>
      obtain ⟨rfl, rfl⟩ := Prod.mk.inj (pure_eq_ok.mp hfinish)
      exact .waits hq hready h
    | some cmd =>
      dsimp only at hfinish
      split at hfinish
      · rename_i hc
        obtain ⟨rfl, rfl⟩ := Prod.mk.inj (pure_eq_ok.mp hfinish)
        obtain ⟨rfl, rfl⟩ := Prod.mk.inj (pure_eq_ok.mp h)
        exact .refreshes hq hready hc
      · rename_i hc
        obtain ⟨rfl, rfl⟩ := Prod.mk.inj (pure_eq_ok.mp hfinish)
        obtain ⟨rfl, rfl⟩ := Prod.mk.inj (pure_eq_ok.mp h)
        exact .closes hq hready (Bool.not_eq_true _ ▸ hc)

theorem Choice.clk_eq {o : Option Command} (h : Choice config c o c') : c'.clk = c.clk := by
  cases h with
  | queues _ hget =>
    obtain ⟨q, rfl⟩ := getCommandToIssue_eq hget
    rfl
  | waits _ _ hget =>
    obtain ⟨q, rfl⟩ := getCommandToIssue_eq hget
    rfl
  | closes => rfl
  | refreshes => rfl

/-- For a refresh that waits a bank is closed, or it is issued itself. -/
theorem Sound.refresh_ready (hs : Sound config c) {ref : Command} (href : ref ∈ c.channelState.refreshQ)
    (hready : c.channelState.getReadyCommand config ref c.clk = .ok (some cmd)) :
    cmd = ref ∧ ref.cmdType.isRefresh = true ∨ cmd.cmdType = .precharge ∧ cmd.addr.bankId ∈ config.touched ref := by
  rcases hs.formed.refreshes ref href with ⟨hc, -⟩ | ⟨hc, hbank⟩
  · cases (getReadyCommand_spec hready).2 with
    | same => exact Or.inl ⟨rfl, by rw [hc]; rfl⟩
    | bank t hrank =>
      rw [hc] at hrank
      cases hrank
    | rank b _ hb =>
      refine Or.inr ⟨rfl, ?_⟩
      unfold Config.touched
      rw [hc, if_pos (by decide)]
      exact mem_banksOfRank.mpr ⟨rfl, (mem_banksOfRank.mp hb).2⟩
  · obtain ⟨t, ht, rfl⟩ := bank_required (by rw [hc]; rfl) hready
    unfold BankState.requiredType at ht
    rcases hs.awake _ hbank with hstate | hstate
    · simp only [hstate, hc] at ht
      refine Or.inr ⟨(Except.ok.inj ht).symm, ?_⟩
      unfold Config.touched
      rw [hc, if_neg (by decide)]
      exact List.mem_singleton.mpr rfl
    · simp only [hstate, hc] at ht
      refine Or.inl ⟨?_, by rw [hc]; rfl⟩
      rw [← Except.ok.inj ht, ← hc]

/-! ## Booking -/

theorem Booked.frame (hb : Booked config c)
    (hturn : 0 ≤ c'.cmdQueue.queueIdx ∧ c'.cmdQueue.queueIdx < CommandQueue.numQueues config)
    (hin : c'.cmdQueue.isInRef = c.cmdQueue.isInRef) (hindices : c'.cmdQueue.refQIndices = c.cmdQueue.refQIndices)
    (hq : c'.channelState.refreshQ = c.channelState.refreshQ) : Booked config c' := by
  refine ⟨hturn, fun h => ?_, fun h => ?_⟩
  · rw [hindices]
    exact hb.opened (hin ▸ h)
  · rw [hindices, hq]
    exact hb.closed (hin ▸ h)

theorem Booked.demand (hb : Booked config c) : Booked config (c.tickRefresh config) := by
  rw [tickRefresh_eq]
  refine ⟨hb.turn, hb.opened, fun h => ?_⟩
  obtain ⟨ref, refs, hq, hindices⟩ := hb.closed h
  dsimp only
  rw [hq]
  exact ⟨ref, _, rfl, hindices⟩

theorem Issued.cmdQueue_eq (hi : Issued config cmd c c') : c'.cmdQueue = c.cmdQueue := by rw [hi.eq]

theorem Booked.issued (hb : Booked config c) (hrefresh : cmd.cmdType.isRefresh = false)
    (hi : Issued config cmd c c') : Booked config c' := by
  have hqueue := hi.cmdQueue_eq
  refine hb.frame (hqueue ▸ hb.turn) (by rw [hqueue]) (by rw [hqueue]) ?_
  exact hi.executed.refreshQ.trans (refreshQAfter_of_not hrefresh _)

theorem eraseRWCommand_frame {q q' : CommandQueue} (h : q.eraseRWCommand config cmd = .ok q') :
    q'.queueIdx = q.queueIdx ∧ q'.isInRef = q.isInRef ∧ q'.refQIndices = q.refQIndices := by
  unfold CommandQueue.eraseRWCommand at h
  dsimp only at h
  split at h
  · obtain rfl := Except.ok.inj h
    exact ⟨rfl, rfl, rfl⟩
  · cases h

theorem Booked.asked (hb : Booked config c) {o : Option Command} (hget : c.getCommandToIssue config = .ok (o, c')) :
    Booked config c' := by
  obtain ⟨⟨o', q⟩, hissue, hget⟩ := bind_eq_ok.mp hget
  obtain ⟨rfl, rfl⟩ := Prod.mk.inj (pure_eq_ok.mp hget)
  have hpos : 0 < CommandQueue.numQueues config := by
    have hturn := hb.turn
    omega
  obtain ⟨i, hi, ⟨-, rfl⟩ | ⟨cmd, -, -, -, hq⟩⟩ := CommandQueue.issueFrom_some hpos hb.turn hissue
  · exact hb.frame (mem_upTo.mp hi) rfl rfl rfl
  · split at hq
    · obtain ⟨hindex, hin, hindices⟩ := eraseRWCommand_frame hq
      exact hb.frame (hindex ▸ mem_upTo.mp hi) hin hindices rfl
    · subst hq
      exact hb.frame (mem_upTo.mp hi) rfl rfl rfl

theorem Booked.start (hb : Booked config c) {ref : Command} {refs : List Command}
    (hq : c.channelState.refreshQ = ref :: refs) :
    Booked config { c with cmdQueue := c.cmdQueue.startRefresh config ref } ∧
      (c.cmdQueue.startRefresh config ref).isInRef = true := by
  unfold CommandQueue.startRefresh
  split
  · rename_i hin
    exact ⟨hb, hin⟩
  · rename_i hin
    refine ⟨⟨hb.turn, nofun, fun _ => ⟨ref, refs, hq, ?_⟩⟩, rfl⟩
    dsimp only
    rw [hb.opened (Bool.not_eq_true _ ▸ hin), List.nil_append]

theorem Booked.refreshed (hb : Booked config c)
    (hi : Issued config cmd { c with cmdQueue := { c.cmdQueue with refQIndices := [], isInRef := false } } c') :
    Booked config c' := by
  have hqueue := hi.cmdQueue_eq
  refine ⟨hqueue ▸ hb.turn, fun _ => by rw [hqueue], fun h => ?_⟩
  rw [hqueue] at h
  cases h

theorem queue_not_isRefresh (hf : Formed config c) {c₁ : Controller}
    (hget : c.getCommandToIssue config = .ok (some cmd, c₁)) : cmd.cmdType.isRefresh = false := by
  rcases getCommandToIssue_spec hget with ⟨hnone, -⟩ | ⟨cmd', hsome, hsel⟩
  · cases hnone
  · rw [Option.some.inj hsome]
    exact hsel.not_isRefresh hf

theorem Booked.chosen (hs : Sound config c) (hb : Booked config c) {o : Option Command} {c₁ : Controller}
    (h : Choice config c o c₁) :
    (o = none → Booked config c₁) ∧
      ∀ cmd, o = some cmd → ∀ c', c₁.issueCommand config cmd = .ok c' → Booked config c' := by
  cases h with
  | queues hq hget =>
    have hasked := hb.asked hget
    refine ⟨fun _ => hasked, ?_⟩
    rintro cmd rfl c' hissue
    exact hasked.issued (queue_not_isRefresh hs.formed hget) (issueCommand_spec hissue)
  | @waits ref refs _ _ hq hready hget =>
    have hasked := (hb.start hq).1.asked hget
    refine ⟨fun _ => hasked, ?_⟩
    rintro cmd rfl c' hissue
    have hf := hs.formed.atom (startRefresh_spec config c ref).2
    exact hasked.issued (queue_not_isRefresh hf hget) (issueCommand_spec hissue)
  | closes hq hready hc =>
    refine ⟨nofun, ?_⟩
    rintro cmd ⟨⟩ c' hissue
    exact (hb.start hq).1.issued hc (issueCommand_spec hissue)
  | @refreshes ref refs _ hq hready hc =>
    refine ⟨nofun, ?_⟩
    rintro cmd ⟨⟩ c' hissue
    exact (hb.start hq).1.refreshed (issueCommand_spec hissue)

theorem Booked.second (hf : Formed config c) (hb : Booked config c) {first : Command}
    (h : c.issueSecond config first = .ok c') : Booked config c' := by
  obtain ⟨⟨o, c₁⟩, hget, h⟩ := bind_eq_ok.mp h
  have hasked := hb.asked hget
  cases o with
  | none =>
    obtain rfl := pure_eq_ok.mp h
    exact hasked
  | some cmd =>
    dsimp only at h
    split at h
    · exact hasked.issued (queue_not_isRefresh hf hget) (issueCommand_spec h)
    · obtain rfl := pure_eq_ok.mp h
      exact hasked

theorem clockTick_cases (hsref : config.enableSelfRefresh = false) (hf : Formed config (c.tickRefresh config))
    (h : c.clockTick config = .ok c') : ∃ c₃, c' = ((c₃.updateIdleCycles config).scheduleTransaction config).advance ∧
      (Choice config (c.tickRefresh config) none c₃ ∨
        ∃ cmd c₁ c₂, Choice config (c.tickRefresh config) (some cmd) c₁ ∧ c₁.issueCommand config cmd = .ok c₂ ∧
          Atoms config (c.tickRefresh config) c₂ ∧ c₂.trace.getLast? = some (c₂.clk, cmd) ∧
          (c₃ = c₂ ∨ c₂.issueSecond config cmd = .ok c₃ ∧ Atoms config c₂ c₃)) := by
  obtain ⟨-, issued, c₃, c₄, hissue, hpower, rfl⟩ := clockTick_calls h
  have hidle : c₄ = c₃.updateIdleCycles config := by
    unfold updatePower at hpower
    dsimp only at hpower
    rw [if_neg (by simp [hsref])] at hpower
    exact (Except.ok.inj hpower).symm
  subst hidle
  refine ⟨c₃, rfl, ?_⟩
  obtain ⟨⟨o, c₁⟩, hselect, hissue⟩ := bind_eq_ok.mp hissue
  have hchoice := selectCommand_choice hf hselect
  have hsteps := selectCommand_atoms hselect
  cases o with
  | none =>
    obtain ⟨-, rfl⟩ := Prod.mk.inj (pure_eq_ok.mp hissue)
    exact Or.inl hchoice
  | some cmd =>
    obtain ⟨c₂, hc₂, hissue⟩ := bind_eq_ok.mp hissue
    have hatoms : Atoms config (c.tickRefresh config) c₂ := by
      rcases hsteps with ⟨hnone, -⟩ | ⟨cmd', hsome, hsteps⟩
      · cases hnone
      · obtain rfl := Option.some.inj hsome
        exact hsteps c₂ hc₂
    obtain ⟨hclk, htrace⟩ := issueCommand_trace hc₂
    have hlast : c₂.trace.getLast? = some (c₂.clk, cmd) := by rw [htrace, hclk, List.getLast?_concat]
    refine Or.inr ⟨cmd, c₁, c₂, hchoice, hc₂, hatoms, hlast, ?_⟩
    split at hissue
    · rename_i hdual
      obtain ⟨c₅, hsecond, hissue⟩ := bind_eq_ok.mp hissue
      obtain ⟨-, rfl⟩ := Prod.mk.inj (pure_eq_ok.mp hissue)
      exact Or.inr ⟨hsecond, issueSecond_atoms hdual hlast hsecond⟩
    · obtain ⟨-, rfl⟩ := Prod.mk.inj (pure_eq_ok.mp hissue)
      exact Or.inl rfl

theorem addCommand_frame (config : Config) (q : CommandQueue) (cmd : Command) :
    (q.addCommand config cmd).2.queueIdx = q.queueIdx ∧ (q.addCommand config cmd).2.isInRef = q.isInRef ∧
      (q.addCommand config cmd).2.refQIndices = q.refQIndices := by
  unfold CommandQueue.addCommand
  dsimp only
  split <;> exact ⟨rfl, rfl, rfl⟩

theorem Booked.rest (hb : Booked config c) :
    Booked config ((c.updateIdleCycles config).scheduleTransaction config).advance := by
  have hs := scheduleTransaction_spec config (c.updateIdleCycles config)
  generalize (c.updateIdleCycles config).scheduleTransaction config = c' at hs ⊢
  have hadded : ∀ cmd, 0 ≤ (c.cmdQueue.addCommand config cmd).2.queueIdx ∧
      (c.cmdQueue.addCommand config cmd).2.queueIdx < CommandQueue.numQueues config := by
    intro cmd
    rw [(addCommand_frame config c.cmdQueue cmd).1]
    exact hb.turn
  cases hs with
  | none => exact hb.frame hb.turn rfl rfl rfl
  | @unified _ it _ _ _ _ =>
    have hsame := addCommand_frame config c.cmdQueue (transToCommand config it)
    exact hb.frame (hadded _) hsame.2.1 hsame.2.2 rfl
  | @write _ it _ _ _ _ _ =>
    have hsame := addCommand_frame config c.cmdQueue (transToCommand config it)
    exact hb.frame (hadded _) hsame.2.1 hsame.2.2 rfl
  | @read _ it _ _ _ _ =>
    have hsame := addCommand_frame config c.cmdQueue (transToCommand config it)
    exact hb.frame (hadded _) hsame.2.1 hsame.2.2 rfl

theorem Booked.tick (hmap : config.Mapped) (hsref : config.enableSelfRefresh = false) (hs : Sound config c)
    (hb : Booked config c) (h : c.clockTick config = .ok c') : Booked config c' := by
  have hs₀ := hs.atom hmap hsref .demand
  obtain ⟨c₃, rfl, hchoice | ⟨cmd, c₁, c₂, hchoice, hissue, hsteps, -, hsecond⟩⟩ := clockTick_cases hsref hs₀.formed h
  · exact ((hb.demand.chosen hs₀ hchoice).1 rfl).rest
  · have hb₂ := (hb.demand.chosen hs₀ hchoice).2 cmd rfl c₂ hissue
    rcases hsecond with rfl | ⟨hsecond, -⟩
    · exact hb₂.rest
    · exact (hb₂.second (hs₀.atoms hmap hsref hsteps).formed hsecond).rest

theorem Config.Mapped.banks_pos (hmap : config.Mapped) : 0 < config.banks :=
  Nat.mul_pos (Config.Mapped.pos hmap).2.1 (Config.Mapped.pos hmap).2.2

theorem numQueues_pos (hmap : config.Mapped) : 0 < CommandQueue.numQueues config := by
  unfold CommandQueue.numQueues
  cases config.queueStructure with
  | perRank => exact (Config.Mapped.pos hmap).1
  | perBank => exact Nat.mul_pos (Config.Mapped.banks_pos hmap) (Config.Mapped.pos hmap).1

theorem Reach.booked (hmap : config.Mapped) (hsref : config.enableSelfRefresh = false) (h : Reach config c) :
    Booked config c := by
  induction h with
  | new => exact ⟨⟨Int.le_refl 0, Int.ofNat_lt.mpr (numQueues_pos hmap)⟩, fun _ => rfl, nofun⟩
  | add t _ _ ih =>
    rw [addTransaction_eq]
    exact ih.frame ih.turn rfl rfl rfl
  | done _ _ ih => exact ih.frame ih.turn rfl rfl rfl
  | tick hreach htick ih => exact ih.tick hmap hsref (hreach.sound hmap hsref) htick

end

end Controller

end Dramsim3

end Anna
