import Anna.Dramsim3.LineSound

/-!
# The simulator does not end the program

Without self-refresh every bank is open or closed, every command in a queue
goes to a bank that exists, and what it answers is pending. So no tick reaches
one of the places where the source gives up (`clockTick_ok`).
-/

namespace Anna

namespace Dramsim3

/-- Every address is mapped to a channel, and to a bank of it. -/
structure Config.Mapped (config : Config) : Prop where
  channel : ∀ a, 0 ≤ (config.addressMapping a).channel ∧ (config.addressMapping a).channel < config.channels
  bank : ∀ a, config.HasBank (config.addressMapping a).bankId

/-- A bank in self-refresh or power-down is found nowhere. -/
def ChannelState.Awake (config : Config) (ch : ChannelState) : Prop :=
  ∀ b, config.HasBank b → (ch.bankStates b).state = .opened ∨ (ch.bankStates b).state = .closed

section
variable {config : Config} {ch ch' : ChannelState} {cmd req : Command} {clk : Nat}

/-- The commands that are asked for without self-refresh. -/
def CommandType.Plain (t : CommandType) : Prop := t.isReadWrite = true ∨ t.isRefresh = true

theorem requiredType_ok {b : BankState} (hb : b.state = .opened ∨ b.state = .closed) (hcmd : cmd.cmdType.Plain) :
    ∃ t, b.requiredType cmd = .ok t ∧ t ≠ .srefExit ∧ t ≠ .srefEnter := by
  unfold BankState.requiredType
  rcases hb with hb | hb <;> rw [hb] <;> cases hc : cmd.cmdType <;>
    simp [CommandType.Plain, CommandType.isReadWrite, CommandType.isRead, CommandType.isWrite, CommandType.isRefresh,
      hc] at hcmd ⊢ <;>
    (split <;> simp)

theorem bank_getReadyCommand_ok {b : BankState} (hb : b.state = .opened ∨ b.state = .closed)
    (hcmd : cmd.cmdType.Plain) (clk : Nat) : ∃ o, b.getReadyCommand cmd clk = .ok o := by
  obtain ⟨t, ht, -⟩ := requiredType_ok hb hcmd
  unfold BankState.getReadyCommand
  rw [ok_bind ht]
  split <;> exact ⟨_, rfl⟩

theorem scanRank_ok {bs : List BankId} (hbs : ∀ b ∈ bs, config.HasBank b) (h : ch.Awake config)
    (hcmd : cmd.cmdType.Plain) (n : Nat) (r : Option Command) : ∃ o, ch.scanRank config cmd clk bs n r = .ok o := by
  induction bs generalizing n r with
  | nil => exact ⟨_, rfl⟩
  | cons b bs ih =>
    have hnext := ih fun b' hb' => hbs b' (List.mem_cons_of_mem _ hb')
    obtain ⟨o, ho⟩ := bank_getReadyCommand_ok (h b (hbs b List.mem_cons_self)) hcmd clk
    unfold ChannelState.scanRank
    rw [ok_bind ho]
    cases o with
    | none => exact hnext n none
    | some ready =>
      dsimp only
      split
      · exact ⟨_, rfl⟩
      · exact hnext _ _

/-- A request for a bank or a rank that exists is answered. -/
def Config.Reaches (config : Config) (cmd : Command) : Prop :=
  if cmd.cmdType.isRankCMD then cmd.addr.rank ∈ upTo config.ranks else config.HasBank cmd.addr.bankId

theorem hasBank_of_rank {rank : Int} (hrank : rank ∈ upTo config.ranks) {b : BankId}
    (hb : b ∈ config.banksOfRank rank) : config.HasBank b := by
  obtain ⟨rfl, hbg, hbank⟩ := mem_banksOfRank.mp hb
  exact ⟨mem_upTo.mp hrank, hbg, hbank⟩

theorem getReadyCommand_ok (hreach : config.Reaches cmd) (h : ch.Awake config) (hcmd : cmd.cmdType.Plain)
    (clk : Nat) : ∃ o, ch.getReadyCommand config cmd clk = .ok o := by
  unfold ChannelState.getReadyCommand
  unfold Config.Reaches at hreach
  split
  · rename_i hr
    rw [if_pos hr] at hreach
    exact scanRank_ok (fun b hb => hasBank_of_rank hreach hb) h hcmd 0 none
  · rename_i hr
    rw [if_neg hr] at hreach
    obtain ⟨o, ho⟩ := bank_getReadyCommand_ok (h _ hreach) hcmd clk
    rw [ok_bind ho]
    cases o with
    | none => exact ⟨_, rfl⟩
    | some ready =>
      dsimp only
      split <;> exact ⟨_, rfl⟩

/-- What is handed out for a request can be executed, and puts no rank to sleep. -/
theorem ready_touched (hreach : config.Reaches req) (h : ch.Awake config) (hreq : req.cmdType.Plain)
    (hready : ch.getReadyCommand config req clk = .ok (some cmd)) :
    (∀ b ∈ config.touched cmd, (ch.bankStates b).Allows cmd) ∧ cmd.cmdType ≠ .srefEnter := by
  obtain ⟨hr, hserves⟩ := getReadyCommand_spec hready
  have henter : cmd.cmdType ≠ .srefEnter := by
    cases hserves with
    | same =>
      intro hc
      rw [hc] at hreq
      rcases hreq with hreq | hreq <;> cases hreq
    | bank t _ ht => rcases ht with rfl | rfl | rfl <;> exact fun hc => by cases hc
    | rank b _ _ => exact fun hc => by cases hc
  have hexit : cmd.cmdType ≠ .srefExit := by
    intro hc
    cases hserves with
    | same =>
      rw [hc] at hreq
      rcases hreq with hreq | hreq <;> cases hreq
    | bank t hbank _ =>
      dsimp only at hc
      subst hc
      unfold Config.Reaches at hreach
      rw [if_neg (by simp [hbank])] at hreach
      have hsref := hr.state req.addr.bankId (List.mem_singleton.mpr rfl)
      change (ch.bankStates req.addr.bankId).state = .sref at hsref
      rcases h _ hreach with hs | hs <;> rw [hsref] at hs <;> cases hs
    | rank b _ _ => cases hc
  have htouched : config.touched cmd = config.checked cmd := by
    unfold Config.touched Config.checked
    cases hc : cmd.cmdType <;> first | rfl | exact absurd hc hexit
  exact ⟨htouched ▸ hr.state, henter⟩

theorem updateState_awake {b b' : BankState} (hb : b.state = .opened ∨ b.state = .closed)
    (hcmd : cmd.cmdType ≠ .srefEnter) (h : b.updateState cmd = .ok b') :
    b'.state = .opened ∨ b'.state = .closed := by
  unfold BankState.updateState at h
  rcases hb with hb | hb
  · cases hc : cmd.cmdType <;> simp only [hb, hc] at h <;> cases h <;> simp
  · cases hc : cmd.cmdType <;> simp only [hb, hc] at h <;> cases h <;> first | exact absurd hc hcmd | simp [hb]

theorem ChannelState.Awake.executed (h : ch.Awake config) (hcmd : cmd.cmdType ≠ .srefEnter)
    (he : Executed config clk cmd ch ch') : ch'.Awake config := by
  intro b hb
  by_cases htouched : b ∈ config.touched cmd
  · obtain ⟨state, hstate, heq⟩ := he.touched b htouched hb
    have hawake := updateState_awake (h b hb) hcmd hstate
    rw [heq, BankState.wait_eq]
    exact hawake
  · rw [he.others b htouched hb, BankState.wait_eq]
    exact h b hb

end

namespace Controller

structure Sound (config : Config) (c : Controller) : Prop where
  formed : Formed config c
  lined : Lined config c
  awake : c.channelState.Awake config

section
variable {config : Config} {c c₁ c' : Controller} {cmd : Command} (hmap : config.Mapped)
include hmap

theorem Formed.reaches (h : Formed config c) {index : Int} (hcmd : cmd ∈ c.cmdQueue.queues index) :
    config.Reaches cmd ∧ cmd.cmdType.Plain := by
  have hrw := h.readWrite hcmd
  refine ⟨?_, Or.inl hrw⟩
  unfold Config.Reaches
  rw [if_neg]
  · rw [h.addr_eq hcmd]
    exact hmap.bank cmd.hexAddr
  · cases hc : cmd.cmdType <;> rw [hc] at hrw <;> first | decide | cases hrw

omit hmap in
theorem Formed.refresh_reaches (h : Formed config c) {ref : Command} (href : ref ∈ c.channelState.refreshQ) :
    config.Reaches ref ∧ ref.cmdType.Plain := by
  rcases h.refreshes ref href with ⟨hc, hrank⟩ | ⟨hc, hbank⟩
  · refine ⟨?_, Or.inr (by rw [hc]; rfl)⟩
    unfold Config.Reaches
    rw [hc, if_pos (by decide)]
    exact hrank
  · refine ⟨?_, Or.inr (by rw [hc]; rfl)⟩
    unfold Config.Reaches
    rw [hc, if_neg (by decide)]
    exact hbank

theorem Selected.ready_touched (h : Sound config c) (hsel : Selected config c cmd c₁) :
    (∀ b ∈ config.touched cmd, (c.channelState.bankStates b).Allows cmd) ∧ cmd.cmdType ≠ .srefEnter := by
  obtain ⟨index, before, req, after, hqueue, hready, -⟩ := hsel.request
  have hmem : req ∈ c.cmdQueue.queues index := by
    rw [hqueue]
    exact List.mem_append_right _ List.mem_cons_self
  obtain ⟨hreach, hplain⟩ := h.formed.reaches hmap hmem
  exact Dramsim3.ready_touched hreach h.awake hplain hready

theorem Selected.issue_ok (h : Sound config c) (hsel : Selected config c cmd c₁) :
    ∃ c', c₁.issueCommand config cmd = .ok c' := by
  have hbanks := (hsel.ready_touched hmap h).1
  have hline : cmd.cmdType.isReadWrite = true → cmd.cmdType.isWrite ∈ line config c cmd.hexAddr :=
    fun hrw => List.mem_append_left _ (hsel.mem_cmdLine h.formed hrw)
  obtain ⟨q, rfl, -⟩ := hsel.frame
  refine issueCommand_ok ?_ ?_ hbanks
  · intro hr
    have hmem := hline (by simp [CommandType.isReadWrite, hr])
    rw [not_isWrite_of_isRead hr] at hmem
    exact h.lined.read _ hmem
  · intro hw
    have hmem := hline (by simp [CommandType.isReadWrite, hw])
    rw [hw] at hmem
    exact h.lined.write _ hmem

theorem Sound.issued (h : Sound config c) (hsel : Selected config c cmd c₁)
    (hissue : c₁.issueCommand config cmd = .ok c') : Sound config c' := by
  have hi := issueCommand_spec hissue
  have hawake : c₁.channelState = c.channelState := by
    obtain ⟨q, rfl, -⟩ := hsel.frame
    rfl
  refine ⟨(h.formed.selected hsel).issued hi, h.lined.answered h.formed hsel hi, ?_⟩
  exact (hawake ▸ h.awake).executed (hsel.ready_touched hmap h).2 hi.executed

theorem Sound.atom (hsref : config.enableSelfRefresh = false) (h : Sound config c) (step : Atom config c c') :
    Sound config c' := by
  refine ⟨h.formed.atom step, h.lined.atom h.formed step, ?_⟩
  cases step with
  | demand =>
    rw [tickRefresh_eq]
    exact h.awake
  | book => exact h.awake
  | issue hsel hissue => exact (h.issued hmap hsel hissue).awake
  | lose _ _ _ _ hsel =>
    obtain ⟨q, rfl, -⟩ := hsel.frame
    exact h.awake
  | refresh hq hready hissue =>
    obtain ⟨hreach, hplain⟩ := h.formed.refresh_reaches (hq ▸ List.mem_cons_self)
    exact h.awake.executed (Dramsim3.ready_touched hreach h.awake hplain hready).2 (issueCommand_spec hissue).executed
  | selfRefresh hon =>
    rw [hsref] at hon
    cases hon
  | idle => exact h.awake
  | schedule =>
    have hch : (c.scheduleTransaction config).channelState = c.channelState := by
      rw [scheduleTransaction_eq]
    rw [hch]
    exact h.awake
  | advance => exact h.awake

theorem Sound.atoms (hsref : config.enableSelfRefresh = false) (h : Sound config c) (steps : Atoms config c c') :
    Sound config c' :=
  Atoms.invariant (fun hc step => hc.atom hmap hsref step) h steps

/-! ## No tick fails -/

theorem getFirstReady_ok (h : Sound config c) (before : List Command) {l : List Command} {index : Int}
    (hl : ∀ cmd ∈ l, cmd ∈ c.cmdQueue.queues index) (clk : Nat) :
    ∃ o, CommandQueue.getFirstReady config c.channelState clk before l = .ok o := by
  induction l generalizing before with
  | nil => exact ⟨_, rfl⟩
  | cons cmd after ih =>
    have hnext := fun before => ih before fun cmd' h' => hl cmd' (List.mem_cons_of_mem _ h')
    obtain ⟨hreach, hplain⟩ := h.formed.reaches hmap (hl cmd List.mem_cons_self)
    obtain ⟨o, ho⟩ := getReadyCommand_ok hreach h.awake hplain clk
    unfold CommandQueue.getFirstReady
    rw [ok_bind ho]
    cases o with
    | none => exact hnext _
    | some ready =>
      dsimp only
      split
      · exact hnext _
      · exact ⟨_, rfl⟩

theorem issueFrom_ok (h : Sound config c) (fuel : Nat) (index : Int) :
    ∃ r, CommandQueue.issueFrom config c.channelState fuel { c.cmdQueue with queueIdx := index } = .ok r := by
  induction fuel generalizing index with
  | zero => exact ⟨_, rfl⟩
  | succ fuel ih =>
    unfold CommandQueue.issueFrom CommandQueue.getNextQueue
    dsimp only
    generalize (if index + 1 = CommandQueue.numQueues config then 0 else index + 1) = next
    split
    · exact ih _
    · obtain ⟨o, ho⟩ := getFirstReady_ok hmap h [] (fun cmd (hcmd : cmd ∈ c.cmdQueue.queues next) => hcmd)
        c.cmdQueue.clk
      rw [ok_bind ho]
      cases o with
      | none => exact ih _
      | some cmd =>
        dsimp only
        split
        · rename_i hrw
          obtain ⟨pre, req, after, hqueue, hready, -⟩ := getFirstReady_some ho
          obtain rfl := serves_readWrite (getReadyCommand_spec hready).2 hrw
          have hmem := hqueue ▸ List.mem_append_right pre (List.mem_cons_self (a := cmd) (l := after))
          have hindex := (h.formed.queued _ cmd hmem).2
          have hfound : ((c.cmdQueue.queues (CommandQueue.getQueueIndex config cmd.addr.bankId)).any fun it =>
              decide (cmd.hexAddr = it.hexAddr ∧ cmd.cmdType = it.cmdType)) = true := by
            rw [hindex]
            exact List.any_eq_true.mpr ⟨cmd, hmem, decide_eq_true ⟨rfl, rfl⟩⟩
          unfold CommandQueue.eraseRWCommand
          dsimp only
          rw [if_pos hfound]
          exact ⟨_, rfl⟩
        · exact ⟨_, rfl⟩

theorem getCommandToIssue_ok (h : Sound config c) : ∃ r, c.getCommandToIssue config = .ok r := by
  obtain ⟨r, hr⟩ := issueFrom_ok hmap h (CommandQueue.numQueues config) c.cmdQueue.queueIdx
  unfold getCommandToIssue CommandQueue.getCommandToIssue
  exact ⟨_, ok_bind hr⟩

theorem issueSecond_ok (h : Sound config c) (first : Command) : ∃ c', c.issueSecond config first = .ok c' := by
  obtain ⟨⟨o, c₁⟩, hr⟩ := getCommandToIssue_ok hmap h
  unfold issueSecond
  rw [ok_bind hr]
  rcases getCommandToIssue_spec hr with ⟨rfl, -⟩ | ⟨cmd, rfl, hsel⟩
  · exact ⟨_, rfl⟩
  · dsimp only
    split
    · exact hsel.issue_ok hmap h
    · exact ⟨_, rfl⟩

omit hmap in
theorem Sound.book (h : Sound config c) {q : CommandQueue} (hqueues : q.queues = c.cmdQueue.queues)
    (hclk : q.clk = c.cmdQueue.clk) : Sound config { c with cmdQueue := q } := by
  have hline : ∀ a, line config { c with cmdQueue := q } a = line config c a := by
    intro a
    unfold line CommandQueue.line
    rw [hqueues]
  refine ⟨?_, ⟨fun a => hline a ▸ h.lined.order a, fun a ha => h.lined.read a (hline a ▸ ha),
    fun a ha => h.lined.write a (hline a ▸ ha), h.lined.once⟩, h.awake⟩
  exact { h.formed with
    clk := hclk.trans h.formed.clk
    queued := fun index cmd hcmd => h.formed.queued index cmd (hqueues ▸ hcmd) }

omit hmap in
theorem finishRefresh_of_ready {ch : ChannelState} {q : CommandQueue} {ref : Command} {o : Option Command}
    (h : ch.getReadyCommand config ref q.clk = .ok o) :
    ∃ q', q.finishRefresh config ch ref = .ok (o, q') ∧ q'.queues = q.queues ∧ q'.clk = q.clk := by
  have hstart : (q.startRefresh config ref).queues = q.queues ∧ (q.startRefresh config ref).clk = q.clk := by
    unfold CommandQueue.startRefresh
    split <;> exact ⟨rfl, rfl⟩
  unfold CommandQueue.finishRefresh
  dsimp only
  rw [hstart.2, ok_bind h]
  cases o with
  | none => exact ⟨_, rfl, hstart⟩
  | some cmd =>
    dsimp only
    split
    · exact ⟨_, rfl, hstart.1, rfl⟩
    · exact ⟨_, rfl, hstart⟩

/-- Whatever is selected can be issued. -/
theorem selectCommand_ok (h : Sound config c) : ∃ o c₁, c.selectCommand config = .ok (o, c₁) ∧
    ∀ cmd, o = some cmd → ∃ c', c₁.issueCommand config cmd = .ok c' := by
  have hqueues : ∀ {c₁ : Controller}, Sound config c₁ → ∃ o c₂, c₁.getCommandToIssue config = .ok (o, c₂) ∧
      ∀ cmd, o = some cmd → ∃ c', c₂.issueCommand config cmd = .ok c' := by
    intro c₁ h₁
    obtain ⟨⟨o, c₂⟩, hr⟩ := getCommandToIssue_ok hmap h₁
    refine ⟨o, c₂, hr, ?_⟩
    rintro cmd rfl
    rcases getCommandToIssue_spec hr with ⟨hnone, -⟩ | ⟨cmd', hsome, hsel⟩
    · cases hnone
    · obtain rfl := Option.some.inj hsome
      exact hsel.issue_ok hmap h₁
  unfold selectCommand
  cases hq : c.channelState.refreshQ with
  | nil => exact hqueues h
  | cons ref refs =>
    have hmem : ref ∈ c.channelState.refreshQ := hq ▸ List.mem_cons_self
    obtain ⟨hreach, hplain⟩ := h.formed.refresh_reaches hmem
    obtain ⟨o, ho⟩ := getReadyCommand_ok hreach h.awake hplain c.cmdQueue.clk
    obtain ⟨q, hfinish, hsame, hclk⟩ := finishRefresh_of_ready ho
    dsimp only
    rw [ok_bind hfinish]
    cases o with
    | none => exact hqueues (h.book hsame hclk)
    | some cmd =>
      obtain ⟨hready, hserves⟩ := getReadyCommand_spec ho
      obtain ⟨hread, hwrite⟩ := Bool.or_eq_false_iff.mp (serves_not hserves (h.formed.refresh_not hmem))
      refine ⟨some cmd, { c with cmdQueue := q }, rfl, ?_⟩
      intro cmd' hcmd'
      obtain rfl := Option.some.inj hcmd'
      refine issueCommand_ok (fun hc => ?_) (fun hc => ?_) (Dramsim3.ready_touched hreach h.awake hplain ho).1
      · rw [hread] at hc
        cases hc
      · rw [hwrite] at hc
        cases hc

theorem issueCommands_ok (hsref : config.enableSelfRefresh = false) (h : Sound config c) :
    ∃ r, c.issueCommands config = .ok r := by
  obtain ⟨o, c₁, hselect, hissue⟩ := selectCommand_ok hmap h
  unfold issueCommands
  rw [ok_bind hselect]
  cases o with
  | none => exact ⟨_, rfl⟩
  | some cmd =>
    obtain ⟨c₂, hc₂⟩ := hissue cmd rfl
    dsimp only
    rw [ok_bind hc₂]
    split
    · have hsound : Sound config c₂ := by
        rcases selectCommand_atoms hselect with ⟨hnone, -⟩ | ⟨cmd', hsome, hatoms⟩
        · cases hnone
        · obtain rfl := Option.some.inj hsome
          exact h.atoms hmap hsref (hatoms c₂ hc₂)
      obtain ⟨c₃, hc₃⟩ := issueSecond_ok hmap hsound cmd
      rw [ok_bind hc₃]
      exact ⟨_, rfl⟩
    · exact ⟨_, rfl⟩

theorem clockTick_ok (hsref : config.enableSelfRefresh = false) (hinterval : 0 < Refresh.refreshInterval config)
    (h : Sound config c) : ∃ c', c.clockTick config = .ok c' ∧ Sound config c' := by
  obtain ⟨⟨issued, c₁⟩, hissue⟩ := issueCommands_ok hmap hsref (h.atom hmap hsref .demand)
  have hpower : c₁.updatePower config issued = .ok (c₁.updateIdleCycles config) := by
    unfold updatePower
    dsimp only
    rw [if_neg]
    rw [hsref]
    simp
  have htick : c.clockTick config = .ok ((c₁.updateIdleCycles config).scheduleTransaction config).advance := by
    have hrefresh : c.refresh.clockTick config c.channelState = .ok (c.refresh.elapse config c.channelState) :=
      if_neg (Nat.ne_of_gt hinterval)
    unfold clockTick
    rw [ok_bind hrefresh]
    unfold tickRefresh at hissue
    rw [ok_bind hissue, ok_bind hpower]
    rfl
  exact ⟨_, htick, h.atoms hmap hsref (clockTick_atoms htick)⟩

end

/-! ## Runs -/

/-- The states of a controller under any sequence of calls that its system may make. -/
inductive Reach (config : Config) : Controller → Prop
  | new : Reach config .new
  | add {c} (t : Transaction) : Reach config c → c.willAcceptTransaction config t.isWrite = true →
      Reach config (c.addTransaction config t)
  | done {c} (clk : Nat) : Reach config c → Reach config (c.returnDoneTrans clk).2
  | tick {c c'} : Reach config c → c.clockTick config = .ok c' → Reach config c'

inductive Op
  | add (t : Transaction)
  | done (clk : Nat)
  | tick
  deriving DecidableEq, Repr

def exec (config : Config) (c : Controller) : Op → Except Exit Controller
  | .add t => if c.willAcceptTransaction config t.isWrite then .ok (c.addTransaction config t) else .error .notAccepted
  | .done clk => .ok (c.returnDoneTrans clk).2
  | .tick => c.clockTick config

def replay (config : Config) : List Op → Controller → Except Exit Controller
  | [], c => .ok c
  | op :: ops, c => do
    let c ← exec config c op
    replay config ops c

theorem Reach.replay {config : Config} {ops : List Op} {c c' : Controller} (h : Reach config c)
    (hops : replay config ops c = .ok c') : Reach config c' := by
  induction ops generalizing c with
  | nil =>
    obtain rfl := Except.ok.inj hops
    exact h
  | cons op ops ih =>
    obtain ⟨c₁, hexec, hops⟩ := bind_eq_ok.mp hops
    refine ih ?_ hops
    cases op with
    | add t =>
      unfold exec at hexec
      dsimp only at hexec
      split at hexec
      · rename_i hacc
        obtain rfl := Except.ok.inj hexec
        exact h.add t hacc
      · cases hexec
    | done clk =>
      obtain rfl := Except.ok.inj hexec
      exact h.done clk
    | tick => exact h.tick hexec

/-- What holds at the start and is kept by every call and every atomic step holds in every run. -/
theorem Reach.invariant {config : Config} {P : Controller → Prop} (hnew : P .new)
    (hadd : ∀ {c} t, P c → P (c.addTransaction config t)) (hdone : ∀ {c} clk, P c → P (c.returnDoneTrans clk).2)
    (hatom : ∀ {c c'}, P c → Atom config c c' → P c') {c : Controller} (h : Reach config c) : P c := by
  induction h with
  | new => exact hnew
  | add t _ _ ih => exact hadd t ih
  | done clk _ ih => exact hdone clk ih
  | tick _ htick ih => exact Atoms.invariant hatom ih (clockTick_atoms htick)

theorem Config.Mapped.pos {config : Config} (h : config.Mapped) :
    0 < config.ranks ∧ 0 < config.bankgroups ∧ 0 < config.banksPerGroup := by
  obtain ⟨hrank, hbg, hbank⟩ := h.bank 0
  omega

theorem sound_new {config : Config} (hmap : config.Mapped) : Sound config .new := by
  refine ⟨?_, lined_new config, fun _ _ => Or.inr rfl⟩
  exact {
    clk := rfl
    queued := fun _ _ h => absurd h List.not_mem_nil
    refreshes := fun _ h => absurd h List.not_mem_nil
    next := Config.Mapped.pos hmap
    unified := fun _ => ⟨rfl, rfl⟩
    separate := fun _ => rfl
    readQueue := fun _ h => absurd h List.not_mem_nil
    writeBuffer := fun _ h => absurd h List.not_mem_nil
    pendingRdQ := fun _ h => absurd h List.not_mem_nil
    pendingWrQ := fun _ h => absurd h List.not_mem_nil }

theorem addTransaction_channelState (config : Config) (c : Controller) (t : Transaction) :
    (c.addTransaction config t).channelState = c.channelState := by
  rw [addTransaction_eq]

theorem Sound.add {config : Config} {c : Controller} (h : Sound config c) (t : Transaction) :
    Sound config (c.addTransaction config t) := by
  refine ⟨h.formed.add t, h.lined.add h.formed t, ?_⟩
  rw [addTransaction_channelState]
  exact h.awake

theorem Sound.returned {config : Config} {c : Controller} (h : Sound config c) (l : List Transaction) :
    Sound config { c with returnQueue := l } :=
  ⟨{ h.formed with }, ⟨h.lined.order, h.lined.read, h.lined.write, h.lined.once⟩, h.awake⟩

theorem Reach.lined {config : Config} {c : Controller} (hmap : config.Mapped) (h : Reach config c) :
    Formed config c ∧ Lined config c := by
  refine h.invariant (P := fun c => Formed config c ∧ Lined config c) ⟨(sound_new hmap).formed, lined_new config⟩ ?_ ?_ ?_
  · exact fun t hc => ⟨hc.1.add t, hc.2.add hc.1 t⟩
  · exact fun _ hc => ⟨{ hc.1 with }, hc.2.order, hc.2.read, hc.2.write, hc.2.once⟩
  · exact fun hc step => ⟨hc.1.atom step, hc.2.atom hc.1 step⟩

theorem Reach.sound {config : Config} {c : Controller} (hmap : config.Mapped)
    (hsref : config.enableSelfRefresh = false) (h : Reach config c) : Sound config c :=
  h.invariant (sound_new hmap) (fun t hc => hc.add t) (fun _ hc => hc.returned _)
    fun hc step => hc.atom hmap hsref step

end Controller

end Dramsim3

end Anna
