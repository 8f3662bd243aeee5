import Anna.Dramsim3.ChannelState
import Anna.Lib.Outcome
import Mathlib.Data.List.Nodup

/-!
# Commands that are ready

What `GetReadyCommand` hands out may be executed: the banks it goes to allow
it and no longer have to wait (`Ready`). Executing a command changes the
states of these banks and only ever delays the commands of all others.
-/

namespace Anna

namespace Dramsim3

/-! ## Banks in range -/

structure Config.HasBank (config : Config) (b : BankId) : Prop where
  rank : 0 ≤ b.rank ∧ b.rank < config.ranks
  bankgroup : 0 ≤ b.bankgroup ∧ b.bankgroup < config.bankgroups
  bank : 0 ≤ b.bank ∧ b.bank < config.banksPerGroup

theorem mem_banksOfRank {config : Config} {rank : Int} {b : BankId} :
    b ∈ config.banksOfRank rank ↔ b.rank = rank ∧ (0 ≤ b.bankgroup ∧ b.bankgroup < config.bankgroups) ∧
      (0 ≤ b.bank ∧ b.bank < config.banksPerGroup) := by
  simp only [Config.banksOfRank, List.mem_flatMap, List.mem_map, mem_upTo]
  constructor
  · rintro ⟨j, hj, k, hk, rfl⟩
    exact ⟨rfl, hj, hk⟩
  · rintro ⟨rfl, hj, hk⟩
    exact ⟨b.bankgroup, hj, b.bank, hk, rfl⟩

theorem Config.HasBank.mem {config : Config} {b : BankId} (h : config.HasBank b) : b ∈ config.banksOfRank b.rank :=
  mem_banksOfRank.mpr ⟨rfl, h.bankgroup, h.bank⟩

theorem length_upTo (n : Nat) : (upTo n).length = n := by simp [upTo]

theorem length_banksOfRank (config : Config) (rank : Int) : (config.banksOfRank rank).length = config.banks := by
  simp [Config.banksOfRank, Config.banks, List.length_flatMap, length_upTo, List.map_const']

/-! ## What a bank allows -/

/-- The state a bank has to be in for a command to be executed. -/
def BankState.Allows (b : BankState) (cmd : Command) : Prop :=
  match cmd.cmdType with
  | .read | .readPrecharge | .write | .writePrecharge => b.state = .opened ∧ cmd.addr.row = b.openRow
  | .activate | .refreshBank | .refresh | .srefEnter => b.state = .closed
  | .precharge => b.state = .opened
  | .srefExit => b.state = .sref

/-- What a bank asks for first is a step towards the command: it has the same
kind of target, and is the command itself unless the bank has to change its
state before. -/
theorem requiredType_allows {b : BankState} {cmd : Command} {t : CommandType} (h : b.requiredType cmd = .ok t) :
    b.Allows { cmd with cmdType := t } ∧ (t = cmd.cmdType ∨ t = .activate ∨ t = .precharge ∨ t = .srefExit) := by
  unfold BankState.requiredType at h
  cases hs : b.state with
  | closed =>
    cases hc : cmd.cmdType <;> simp only [hs, hc] at h <;> cases h <;> simp [BankState.Allows, hs]
  | opened =>
    cases hc : cmd.cmdType <;> simp only [hs, hc] at h <;>
      first
        | cases h
        | (split at h <;> cases h <;> simp_all [BankState.Allows])
    all_goals simp [BankState.Allows, hs]
  | sref =>
    cases hc : cmd.cmdType <;> simp only [hs, hc] at h <;> cases h <;> simp [BankState.Allows, hs]
  | pd =>
    simp only [hs] at h
    cases h

theorem BankState.getReadyCommand_some {b : BankState} {cmd ready : Command} {clk : Nat}
    (h : b.getReadyCommand cmd clk = .ok (some ready)) :
    ∃ t, b.requiredType cmd = .ok t ∧ b.cmdTiming t ≤ clk ∧ ready = { cmd with cmdType := t } := by
  obtain ⟨t, ht, hr⟩ := bind_eq_ok.mp h
  by_cases hle : b.cmdTiming t ≤ clk
  · rw [if_pos hle, pure_eq_ok] at hr
    exact ⟨t, ht, hle, (Option.some.inj hr).symm⟩
  · rw [if_neg hle, pure_eq_ok] at hr
    cases hr

/-! ## Ready commands -/

/-- The banks that are looked at before a command is executed. -/
def Config.checked (config : Config) (cmd : Command) : List BankId :=
  match cmd.cmdType with
  | .refresh | .srefEnter => config.banksOfRank cmd.addr.rank
  | _ => [cmd.addr.bankId]

theorem checked_of_bank {config : Config} {cmd : Command} (h : cmd.cmdType.isRankCMD = false) :
    config.checked cmd = [cmd.addr.bankId] := by
  cases hc : cmd.cmdType <;> simp [CommandType.isRankCMD, hc] at h <;> simp only [Config.checked, hc]

structure Ready (config : Config) (ch : ChannelState) (clk : Nat) (cmd : Command) : Prop where
  timing : ∀ b ∈ config.checked cmd, (ch.bankStates b).cmdTiming cmd.cmdType ≤ clk
  state : ∀ b ∈ config.checked cmd, (ch.bankStates b).Allows cmd
  window : cmd.cmdType = .activate → ch.activationWindowOk config cmd.addr.rank clk = true

/-- A command handed out for a request is the request, or makes room for it. -/
inductive Serves (config : Config) (req : Command) : Command → Prop
  | same : Serves config req req
  | bank (t : CommandType) : req.cmdType.isRankCMD = false → t = .activate ∨ t = .precharge ∨ t = .srefExit →
      Serves config req { req with cmdType := t }
  | rank (b : BankId) : req.cmdType.isRankCMD = true → b ∈ config.banksOfRank req.addr.rank →
      Serves config req ⟨.precharge, ⟨-1, req.addr.rank, b.bankgroup, b.bank, -1, -1⟩, req.hexAddr⟩

section
variable {config : Config} {ch : ChannelState} {req cmd : Command} {clk : Nat}

theorem isRankCMD_cases {t : CommandType} (h : t.isRankCMD = true) :
    t = .refresh ∨ t = .srefEnter ∨ t = .srefExit := by
  cases t <;> simp [CommandType.isRankCMD] at h ⊢

theorem requiredType_rank {b : BankState} {t : CommandType} (hr : req.cmdType.isRankCMD = true)
    (h : b.requiredType req = .ok t) (hne : t ≠ req.cmdType) : t = .precharge ∧ b.state = .opened := by
  unfold BankState.requiredType at h
  rcases isRankCMD_cases hr with hc | hc | hc
  · cases hs : b.state <;> simp only [hs, hc] at h <;> cases h
    · exact ⟨rfl, rfl⟩
    · exact absurd hc.symm hne
  · cases hs : b.state <;> simp only [hs, hc] at h <;> cases h
    · exact ⟨rfl, rfl⟩
    · exact absurd hc.symm hne
  · cases hs : b.state <;> simp only [hs, hc] at h <;> cases h

theorem requiredType_srefExit {b : BankState} {t : CommandType} (hc : req.cmdType = .srefExit) :
    b.requiredType req ≠ .ok t := by
  unfold BankState.requiredType
  cases b.state <;> simp [hc]

/-- Either a bank is found that has to be precharged, or all are ready. -/
theorem scanRank_some {bs : List BankId} {n : Nat} {r : Option Command}
    (h : ch.scanRank config req clk bs n r = .ok (some cmd)) (hn : n + bs.length ≤ config.banks) :
    (∃ b ∈ bs, ∃ t, (ch.bankStates b).requiredType req = .ok t ∧ t ≠ req.cmdType ∧
        (ch.bankStates b).cmdTiming t ≤ clk ∧
        cmd = ⟨t, ⟨-1, req.addr.rank, b.bankgroup, b.bank, -1, -1⟩, req.hexAddr⟩) ∨
      (n + bs.length = config.banks ∧ (bs = [] → r = some cmd) ∧ (bs ≠ [] → cmd = req) ∧
        ∀ b ∈ bs, (ch.bankStates b).requiredType req = .ok req.cmdType ∧
          (ch.bankStates b).cmdTiming req.cmdType ≤ clk) := by
  induction bs generalizing n r with
  | nil =>
    by_cases hb : n = config.banks
    · rw [ChannelState.scanRank, if_pos hb] at h
      exact Or.inr ⟨hb, fun _ => Except.ok.inj h, fun hne => absurd rfl hne, fun b hb => absurd hb List.not_mem_nil⟩
    · rw [ChannelState.scanRank, if_neg hb] at h
      cases h
  | cons b bs ih =>
    rw [List.length_cons] at hn
    obtain ⟨ready, hready, hrest⟩ := bind_eq_ok.mp h
    cases ready with
    | none =>
      rcases ih hrest (by omega) with ⟨b', hb', hfound⟩ | ⟨hlen, -⟩
      · exact Or.inl ⟨b', List.mem_cons_of_mem _ hb', hfound⟩
      · omega
    | some ready =>
      obtain ⟨t, ht, hle, rfl⟩ := BankState.getReadyCommand_some hready
      dsimp only at hrest
      by_cases hne : t ≠ req.cmdType
      · rw [if_pos hne, pure_eq_ok] at hrest
        exact Or.inl ⟨b, List.mem_cons_self, t, ht, hne, hle, (Option.some.inj hrest).symm⟩
      · rw [if_neg hne] at hrest
        obtain rfl := not_not.mp hne
        rcases ih hrest (by omega) with ⟨b', hb', hfound⟩ | ⟨hlen, hnil, hcons, hall⟩
        · exact Or.inl ⟨b', List.mem_cons_of_mem _ hb', hfound⟩
        · refine Or.inr ⟨by rw [List.length_cons]; omega, fun hc => absurd hc (List.cons_ne_nil _ _), fun _ => ?_, ?_⟩
          · by_cases hbs : bs = []
            · exact (Option.some.inj (hnil hbs)).symm
            · exact hcons hbs
          · intro b' hb'
            rcases List.mem_cons.mp hb' with rfl | hb'
            · exact ⟨ht, hle⟩
            · exact hall b' hb'

theorem getReadyCommand_rank (hr : req.cmdType.isRankCMD = true)
    (h : ch.getReadyCommand config req clk = .ok (some cmd)) : Ready config ch clk cmd ∧ Serves config req cmd := by
  rw [ChannelState.getReadyCommand, if_pos hr] at h
  rcases scanRank_some h (by rw [length_banksOfRank]; omega) with
    ⟨b, hb, t, ht, hne, hle, rfl⟩ | ⟨hlen, hnil, hcons, hall⟩
  · obtain ⟨rfl, hopen⟩ := requiredType_rank hr ht hne
    have hbank : (⟨req.addr.rank, b.bankgroup, b.bank⟩ : BankId) = b := by rw [← (mem_banksOfRank.mp hb).1]
    refine ⟨⟨?_, ?_, fun hact => by cases hact⟩, .rank b hr hb⟩
    · intro b' hb'
      rw [List.mem_singleton.mp hb', Address.bankId, hbank]
      exact hle
    · intro b' hb'
      rw [List.mem_singleton.mp hb', Address.bankId, hbank]
      exact hopen
  · have hbs : config.banksOfRank req.addr.rank ≠ [] := fun hbs => by cases hnil hbs
    obtain rfl := hcons hbs
    have hfree : ∀ b ∈ config.banksOfRank cmd.addr.rank,
        (ch.bankStates b).cmdTiming cmd.cmdType ≤ clk ∧ (ch.bankStates b).Allows cmd :=
      fun b hb => ⟨(hall b hb).2, (requiredType_allows (hall b hb).1).1⟩
    -- `GetReadyCommand` of no bank answers a request to leave self-refresh with itself
    have hchecked : config.checked cmd = config.banksOfRank cmd.addr.rank := by
      rcases isRankCMD_cases hr with hc | hc | hc
      · simp only [Config.checked, hc]
      · simp only [Config.checked, hc]
      · obtain ⟨b, hb⟩ := List.exists_mem_of_ne_nil _ hbs
        exact absurd (hall b hb).1 (requiredType_srefExit hc)
    refine ⟨⟨?_, ?_, ?_⟩, .same⟩
    · rw [hchecked]
      exact fun b hb => (hfree b hb).1
    · rw [hchecked]
      exact fun b hb => (hfree b hb).2
    · intro hact
      rw [hact] at hr
      cases hr

theorem getReadyCommand_bank (hr : req.cmdType.isRankCMD = false)
    (h : ch.getReadyCommand config req clk = .ok (some cmd)) : Ready config ch clk cmd ∧ Serves config req cmd := by
  rw [ChannelState.getReadyCommand, if_neg (by simp [hr])] at h
  obtain ⟨ready, hready, hrest⟩ := bind_eq_ok.mp h
  cases ready with
  | none => cases hrest
  | some ready =>
    obtain ⟨t, ht, hle, rfl⟩ := BankState.getReadyCommand_some hready
    dsimp only at hrest
    split at hrest
    · cases hrest
    · rename_i hwindow
      obtain rfl := Option.some.inj (pure_eq_ok.mp hrest)
      obtain ⟨hallows, hkind⟩ := requiredType_allows ht
      have hserves : Serves config req { req with cmdType := t } := by
        rcases hkind with rfl | hkind
        · exact .same
        · exact .bank t hr hkind
      have hchecked : config.checked { req with cmdType := t } = [req.addr.bankId] := by
        rcases hkind with rfl | rfl | rfl | rfl
        · exact checked_of_bank hr
        · rfl
        · rfl
        · rfl
      refine ⟨⟨?_, ?_, ?_⟩, hserves⟩
      · rw [hchecked]
        intro b hb
        rw [List.mem_singleton.mp hb]
        exact hle
      · rw [hchecked]
        intro b hb
        rw [List.mem_singleton.mp hb]
        exact hallows
      · intro hact
        by_contra hfull
        exact hwindow ⟨hact, Bool.not_eq_true _ ▸ hfull⟩

theorem getReadyCommand_spec (h : ch.getReadyCommand config req clk = .ok (some cmd)) :
    Ready config ch clk cmd ∧ Serves config req cmd := by
  by_cases hr : req.cmdType.isRankCMD = true
  · exact getReadyCommand_rank hr h
  · exact getReadyCommand_bank (Bool.not_eq_true _ ▸ hr) h

end

/-! ## Executing a command -/

/-- The banks that change their state. -/
def Config.touched (config : Config) (cmd : Command) : List BankId :=
  if cmd.cmdType.isRankCMD then config.banksOfRank cmd.addr.rank else [cmd.addr.bankId]

/-- What the banks have to wait for after a command. -/
def Timing.after (config : Config) (cmd : Command) (b : BankId) : List (CommandType × Int) :=
  if cmd.cmdType.isRankCMD then
    if b.rank = cmd.addr.rank then sameRank config cmd.cmdType else []
  else if b = cmd.addr.bankId then sameBank config cmd.cmdType
  else if b.rank = cmd.addr.rank ∧ b.bankgroup = cmd.addr.bankgroup then otherBanksSameBankgroup config cmd.cmdType
  else if b.rank = cmd.addr.rank then otherBankgroupsSameRank config cmd.cmdType
  else otherRanks config cmd.cmdType

theorem nodup_upTo (n : Nat) : (upTo n).Nodup :=
  List.nodup_range.map fun _ _ h => Int.natCast_inj.mp h

theorem nodup_banks {rank : Int} {js ks : List Int} (hj : js.Nodup) (hk : ks.Nodup) :
    (js.flatMap fun j => ks.map fun k => (⟨rank, j, k⟩ : BankId)).Nodup := by
  refine List.nodup_flatMap.mpr ⟨fun j _ => hk.map fun _ _ h => (BankId.mk.inj h).2.2, ?_⟩
  refine hj.imp fun {j j'} hne b hb hb' => ?_
  obtain ⟨k, -, rfl⟩ := List.mem_map.mp hb
  obtain ⟨k', -, h⟩ := List.mem_map.mp hb'
  exact hne (BankId.mk.inj h).2.1.symm

theorem nodup_banksOfRank (config : Config) (rank : Int) : (config.banksOfRank rank).Nodup :=
  nodup_banks (nodup_upTo _) (nodup_upTo _)

theorem nodup_touched (config : Config) (cmd : Command) : (config.touched cmd).Nodup := by
  unfold Config.touched
  split
  · exact nodup_banksOfRank config _
  · exact List.nodup_singleton _

theorem foldl_update {α β : Type} [DecidableEq α] (f : β → β) {l : List α} (hl : l.Nodup) (g : α → β) (a : α) :
    l.foldl (fun g a => Function.update g a (f (g a))) g a = if a ∈ l then f (g a) else g a := by
  induction l generalizing g with
  | nil => rfl
  | cons b l ih =>
    obtain ⟨hb, hl⟩ := List.nodup_cons.mp hl
    rw [List.foldl_cons, ih hl]
    by_cases hab : a = b
    · subst hab
      simp [hb]
    · simp [hab]

section
variable {config : Config} {ch ch' : ChannelState} {cmd : Command} {clk : Nat}

theorem updateStates_spec {bs : List BankId} (hbs : bs.Nodup) (h : ch.updateStates cmd bs = .ok ch') :
    (∀ b ∈ bs, (ch.bankStates b).updateState cmd = .ok (ch'.bankStates b)) ∧
      (∀ b, b ∉ bs → ch'.bankStates b = ch.bankStates b) ∧ ch' = { ch with bankStates := ch'.bankStates } := by
  induction bs generalizing ch with
  | nil =>
    obtain rfl := Except.ok.inj h
    exact ⟨fun b hb => absurd hb List.not_mem_nil, fun _ _ => rfl, rfl⟩
  | cons b bs ih =>
    obtain ⟨hb, hbs⟩ := List.nodup_cons.mp hbs
    obtain ⟨state, hstate, hrest⟩ := bind_eq_ok.mp h
    obtain ⟨hin, hout, hsame⟩ := ih hbs hrest
    dsimp only at hin hout
    refine ⟨?_, ?_, hsame⟩
    · intro b' hb'
      rcases List.mem_cons.mp hb' with rfl | hb'
      · rw [hout _ hb, Function.update_self]
        exact hstate
      · rw [← hin b' hb', Function.update_of_ne (ne_of_mem_of_not_mem hb' hb)]
    · intro b' hb'
      obtain ⟨hne, hb'⟩ := not_or.mp (mt List.mem_cons.mpr hb')
      rw [hout b' hb', Function.update_of_ne hne]

theorem updateStates_ok {bs : List BankId} (hbs : bs.Nodup)
    (h : ∀ b ∈ bs, ∃ state, (ch.bankStates b).updateState cmd = .ok state) : ∃ ch', ch.updateStates cmd bs = .ok ch' := by
  induction bs generalizing ch with
  | nil => exact ⟨ch, rfl⟩
  | cons b bs ih =>
    obtain ⟨hb, hbs⟩ := List.nodup_cons.mp hbs
    obtain ⟨state, hstate⟩ := h b List.mem_cons_self
    rw [ChannelState.updateStates, ok_bind hstate]
    refine ih hbs fun b' hb' => ?_
    dsimp only
    rw [Function.update_of_ne (ne_of_mem_of_not_mem hb' hb)]
    exact h b' (List.mem_cons_of_mem _ hb')

theorem BankState.updateState_ok {b : BankState} (h : b.Allows cmd) : ∃ state, b.updateState cmd = .ok state := by
  unfold BankState.Allows at h
  unfold BankState.updateState
  cases hc : cmd.cmdType <;> simp only [hc] at h <;> simp [h]

theorem updateState_cmdTiming {b b' : BankState} (h : b.updateState cmd = .ok b') : b'.cmdTiming = b.cmdTiming := by
  unfold BankState.updateState at h
  cases hs : b.state <;> cases hc : cmd.cmdType <;> simp only [hs, hc] at h <;> cases h <;> rfl

/-- The refreshes that wait after a command. -/
def refreshQAfter (cmd : Command) (q : List Command) : List Command :=
  match cmd.cmdType with
  | .refresh => q.eraseP fun r => r.addr.rank = cmd.addr.rank
  | .refreshBank => q.eraseP fun r => r.addr.bankId = cmd.addr.bankId
  | _ => q

def rankIsSrefAfter (cmd : Command) (s : Int → Bool) : Int → Bool :=
  match cmd.cmdType with
  | .srefEnter => Function.update s cmd.addr.rank true
  | .srefExit => Function.update s cmd.addr.rank false
  | _ => s

/-- What `UpdateState` does to a channel, the banks apart. -/
structure StateUpdated (config : Config) (cmd : Command) (ch ch' : ChannelState) : Prop where
  touched : ∀ b ∈ config.touched cmd, (ch.bankStates b).updateState cmd = .ok (ch'.bankStates b)
  others : ∀ b, b ∉ config.touched cmd → ch'.bankStates b = ch.bankStates b
  rest : ch' = { ch with
    bankStates := ch'.bankStates
    refreshQ := refreshQAfter cmd ch.refreshQ
    rankIsSref := rankIsSrefAfter cmd ch.rankIsSref }

theorem updateState_spec (h : ch.updateState config cmd = .ok ch') : StateUpdated config cmd ch ch' := by
  unfold ChannelState.updateState at h
  by_cases hr : cmd.cmdType.isRankCMD = true
  · rw [if_pos hr] at h
    obtain ⟨ch₁, h₁, h⟩ := bind_eq_ok.mp h
    obtain ⟨hin, hout, hsame⟩ := updateStates_spec (nodup_banksOfRank config _) h₁
    have htouched : config.touched cmd = config.banksOfRank cmd.addr.rank := if_pos hr
    rw [← htouched] at hin hout
    rcases isRankCMD_cases hr with hc | hc | hc <;>
      simp only [hc, CommandType.isRefresh, pure_eq_ok, if_true, if_false, reduceCtorEq] at h <;> subst h <;>
      refine ⟨hin, hout, ?_⟩ <;> rw [hsame] <;>
      simp [refreshQAfter, rankIsSrefAfter, hc, ChannelState.rankRefreshed]
  · rw [if_neg hr] at h
    obtain ⟨ch₁, h₁, h⟩ := bind_eq_ok.mp h
    obtain ⟨hin, hout, hsame⟩ := updateStates_spec (List.nodup_singleton _) h₁
    have htouched : config.touched cmd = [cmd.addr.bankId] := if_neg hr
    rw [← htouched] at hin hout
    cases hc : cmd.cmdType <;>
      simp only [hc, CommandType.isRefresh, CommandType.isRankCMD, pure_eq_ok, if_true, if_false, Bool.false_eq_true,
        not_true_eq_false] at h hr <;> subst h <;>
      refine ⟨hin, hout, ?_⟩ <;> rw [hsame] <;>
      simp [refreshQAfter, rankIsSrefAfter, hc, ChannelState.bankRefreshed]

/-! ## Waiting -/

section
variable {b : BankState} {l : List (CommandType × Int)}

theorem BankState.wait_eq : b.wait l clk = { b with cmdTiming := (b.wait l clk).cmdTiming } := by
  induction l generalizing b with
  | nil => rfl
  | cons w l ih => exact ih

theorem BankState.updateTiming_self (b : BankState) (t : CommandType) (time : Nat) :
    (b.updateTiming t time).cmdTiming t = max (b.cmdTiming t) time := Function.update_self ..

theorem BankState.le_updateTiming (b : BankState) (t t' : CommandType) (time : Nat) :
    b.cmdTiming t' ≤ (b.updateTiming t time).cmdTiming t' := by
  by_cases h : t' = t
  · subst h
    rw [updateTiming_self]
    exact Nat.le_max_left _ _
  · exact Nat.le_of_eq (Function.update_of_ne h ..).symm

theorem BankState.le_wait (t : CommandType) : b.cmdTiming t ≤ (b.wait l clk).cmdTiming t := by
  induction l generalizing b with
  | nil => exact Nat.le_refl _
  | cons w l ih => exact Nat.le_trans (b.le_updateTiming w.1 t _) ih

theorem BankState.later_le_wait {t : CommandType} {d : Int} (h : (t, d) ∈ l) :
    later clk d ≤ (b.wait l clk).cmdTiming t := by
  induction l generalizing b with
  | nil => cases h
  | cons w l ih =>
    rcases List.mem_cons.mp h with rfl | h
    · have hself : later clk d ≤ (b.updateTiming t (later clk d)).cmdTiming t := by
        rw [BankState.updateTiming_self]
        exact Nat.le_max_right _ _
      exact Nat.le_trans hself (BankState.le_wait t)
    · exact ih h

end

theorem updateBanksTiming_bank {bs : List BankId} (hbs : bs.Nodup) (l : List (CommandType × Int)) (b : BankId) :
    (ch.updateBanksTiming bs l clk).bankStates b =
      if b ∈ bs then (ch.bankStates b).wait l clk else ch.bankStates b :=
  foldl_update (fun s : BankState => s.wait l clk) hbs ch.bankStates b

theorem nodup_otherBanks (config : Config) (addr : Address) : (ChannelState.otherBanks config addr).Nodup :=
  ((nodup_upTo _).filter _).map fun _ _ h => (BankId.mk.inj h).2.2

theorem nodup_otherBankgroups (config : Config) (addr : Address) :
    (ChannelState.otherBankgroups config addr).Nodup :=
  nodup_banks ((nodup_upTo _).filter _) (nodup_upTo _)

theorem nodup_otherRanks (config : Config) (addr : Address) : (ChannelState.otherRanks config addr).Nodup := by
  refine List.nodup_flatMap.mpr ⟨fun i _ => nodup_banksOfRank config i, ?_⟩
  refine ((nodup_upTo _).filter _).imp fun {i i'} hne b hb hb' => ?_
  exact hne ((mem_banksOfRank.mp hb).1.symm.trans (mem_banksOfRank.mp hb').1)

section
variable {b : BankId} (hb : config.HasBank b) {addr : Address}
include hb

theorem mem_otherBanks : b ∈ ChannelState.otherBanks config addr ↔
    b.rank = addr.rank ∧ b.bankgroup = addr.bankgroup ∧ b.bank ≠ addr.bank := by
  simp only [ChannelState.otherBanks, List.mem_map, List.mem_filter, mem_upTo, decide_eq_true_eq]
  constructor
  · rintro ⟨k, ⟨-, hne⟩, rfl⟩
    exact ⟨rfl, rfl, hne⟩
  · rintro ⟨hr, hg, hne⟩
    exact ⟨b.bank, ⟨hb.bank, hne⟩, by rw [← hr, ← hg]⟩

theorem mem_otherBankgroups : b ∈ ChannelState.otherBankgroups config addr ↔
    b.rank = addr.rank ∧ b.bankgroup ≠ addr.bankgroup := by
  simp only [ChannelState.otherBankgroups, List.mem_flatMap, List.mem_map, List.mem_filter, mem_upTo,
    decide_eq_true_eq]
  constructor
  · rintro ⟨j, ⟨-, hne⟩, k, -, rfl⟩
    exact ⟨rfl, hne⟩
  · rintro ⟨hr, hne⟩
    exact ⟨b.bankgroup, ⟨hb.bankgroup, hne⟩, b.bank, hb.bank, by rw [← hr]⟩

theorem mem_otherRanks : b ∈ ChannelState.otherRanks config addr ↔ b.rank ≠ addr.rank := by
  simp only [ChannelState.otherRanks, List.mem_flatMap, List.mem_filter, mem_upTo, decide_eq_true_eq]
  constructor
  · rintro ⟨i, ⟨-, hne⟩, hi⟩
    exact (mem_banksOfRank.mp hi).1 ▸ hne
  · intro hne
    exact ⟨b.rank, ⟨hb.rank, hne⟩, hb.mem⟩

/-- Every bank waits as its place relative to the command says. -/
theorem updateTiming_bank : (ch.updateTiming config cmd clk).bankStates b =
    (ch.bankStates b).wait (Timing.after config cmd b) clk := by
  unfold ChannelState.updateTiming Timing.after
  by_cases hr : cmd.cmdType.isRankCMD = true
  · rw [if_pos hr, if_pos hr, updateBanksTiming_bank (nodup_banksOfRank config _)]
    by_cases hrank : b.rank = cmd.addr.rank
    · rw [if_pos hrank, if_pos (hrank ▸ hb.mem)]
    · rw [if_neg hrank, if_neg fun hmem => hrank (mem_banksOfRank.mp hmem).1]
      rfl
  · have hact : (if cmd.cmdType = .activate then ch.updateActivationTimes config cmd.addr.rank clk
        else ch).bankStates b = ch.bankStates b := by
      split
      · unfold ChannelState.updateActivationTimes
        split <;> rfl
      · rfl
    have hself : b = cmd.addr.bankId ↔
        b.rank = cmd.addr.rank ∧ b.bankgroup = cmd.addr.bankgroup ∧ b.bank = cmd.addr.bank := by
      cases b
      exact BankId.mk.injEq .. ▸ Iff.rfl
    rw [if_neg hr, if_neg hr]
    simp only [updateBanksTiming_bank (nodup_otherRanks config _),
      updateBanksTiming_bank (nodup_otherBankgroups config _), updateBanksTiming_bank (nodup_otherBanks config _),
      updateBanksTiming_bank (List.nodup_singleton _), hact, mem_otherRanks hb, mem_otherBankgroups hb,
      mem_otherBanks hb, List.mem_singleton, hself]
    by_cases h₁ : b.rank = cmd.addr.rank
    · by_cases h₂ : b.bankgroup = cmd.addr.bankgroup
      · by_cases h₃ : b.bank = cmd.addr.bank <;> simp [h₁, h₂, h₃]
      · simp [h₁, h₂]
    · simp [h₁]

end

/-- The activation windows after a command. -/
def windowAfter (cmd : Command) (clk : Nat) (cycles : Int) (window : Int → List Nat) : Int → List Nat :=
  if cmd.cmdType = .activate then
    Function.update window cmd.addr.rank (ChannelState.slide (window cmd.addr.rank) clk cycles)
  else window

/-- What executing a command does to a channel. -/
structure Executed (config : Config) (clk : Nat) (cmd : Command) (ch ch' : ChannelState) : Prop where
  touched : ∀ b ∈ config.touched cmd, config.HasBank b → ∃ state, (ch.bankStates b).updateState cmd = .ok state ∧
    ch'.bankStates b = state.wait (Timing.after config cmd b) clk
  others : ∀ b, b ∉ config.touched cmd → config.HasBank b →
    ch'.bankStates b = (ch.bankStates b).wait (Timing.after config cmd b) clk
  refreshQ : ch'.refreshQ = refreshQAfter cmd ch.refreshQ
  rankIsSref : ch'.rankIsSref = rankIsSrefAfter cmd ch.rankIsSref
  fourAw : ch'.fourAw = windowAfter cmd clk config.tFAW ch.fourAw
  thirtyTwoAw : ch'.thirtyTwoAw =
    if config.isGDDR then windowAfter cmd clk config.t32AW ch.thirtyTwoAw else ch.thirtyTwoAw

theorem updateTiming_frame (config : Config) (ch : ChannelState) (cmd : Command) (clk : Nat) :
    (ch.updateTiming config cmd clk).refreshQ = ch.refreshQ ∧
      (ch.updateTiming config cmd clk).rankIsSref = ch.rankIsSref ∧
      (ch.updateTiming config cmd clk).fourAw = windowAfter cmd clk config.tFAW ch.fourAw ∧
      (ch.updateTiming config cmd clk).thirtyTwoAw =
        if config.isGDDR then windowAfter cmd clk config.t32AW ch.thirtyTwoAw else ch.thirtyTwoAw := by
  unfold ChannelState.updateTiming windowAfter
  by_cases hr : cmd.cmdType.isRankCMD = true
  · have hact : cmd.cmdType ≠ .activate := fun hact => by
      rw [hact] at hr
      cases hr
    simp [hr, hact, ChannelState.updateBanksTiming]
  · by_cases hact : cmd.cmdType = .activate
    · by_cases hg : config.isGDDR = true <;>
        simp [CommandType.isRankCMD, hact, hg, ChannelState.updateBanksTiming, ChannelState.updateActivationTimes]
    · simp [hr, hact, ChannelState.updateBanksTiming]

theorem updateTimingAndStates_spec (h : ch.updateTimingAndStates config cmd clk = .ok ch') :
    Executed config clk cmd ch ch' := by
  obtain ⟨ch₁, h₁, h⟩ := bind_eq_ok.mp h
  obtain rfl := pure_eq_ok.mp h
  obtain ⟨htouched, hothers, hrest⟩ := updateState_spec h₁
  obtain ⟨hq, hs, hf, ht⟩ := updateTiming_frame config ch₁ cmd clk
  refine ⟨?_, ?_, ?_, ?_, ?_, ?_⟩
  · intro b hb hin
    exact ⟨ch₁.bankStates b, htouched b hb, updateTiming_bank hin⟩
  · intro b hb hin
    rw [updateTiming_bank hin, hothers b hb]
  · rw [hq, hrest]
  · rw [hs, hrest]
  · rw [hf, hrest]
  · rw [ht, hrest]

theorem updateTimingAndStates_ok (clk : Nat) (h : ∀ b ∈ config.touched cmd, (ch.bankStates b).Allows cmd) :
    ∃ ch', ch.updateTimingAndStates config cmd clk = .ok ch' := by
  have hstates : ∃ ch₁, ch.updateStates cmd (config.touched cmd) = .ok ch₁ :=
    updateStates_ok (nodup_touched config cmd) fun b hb => BankState.updateState_ok (h b hb)
  obtain ⟨ch₁, h₁⟩ := hstates
  have hstate : ∃ ch₂, ch.updateState config cmd = .ok ch₂ := by
    unfold ChannelState.updateState
    unfold Config.touched at h₁
    by_cases hr : cmd.cmdType.isRankCMD = true
    · rw [if_pos hr] at h₁ ⊢
      rw [ok_bind h₁]
      split
      · exact ⟨_, rfl⟩
      · split <;> exact ⟨_, rfl⟩
    · rw [if_neg hr] at h₁ ⊢
      rw [ok_bind h₁]
      split <;> exact ⟨_, rfl⟩
  obtain ⟨ch₂, h₂⟩ := hstate
  exact ⟨_, ok_bind h₂⟩

end

end Dramsim3

end Anna
