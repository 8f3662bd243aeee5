import Anna.Dramsim3.ControllerSafe

/-!
# Channels that have waited long enough

A channel is calm when no bank has to wait longer than a given time. Commands
prolong that by no more than their delays, and in a channel that has nothing
to wait for every request is answered with some command.
-/

namespace Anna

namespace Dramsim3

namespace Timing

/-- All delays after a command; those for other ranks only count if there are any. -/
def delays (config : Config) (t : CommandType) : List (CommandType × Int) :=
  sameBank config t ++ (otherBanksSameBankgroup config t ++ (otherBankgroupsSameRank config t ++
    ((if config.ranks = 1 then [] else otherRanks config t) ++ sameRank config t)))

def Short (config : Config) (t : CommandType) (k : Nat) : Prop := ∀ e ∈ delays config t, 0 ≤ e.2 ∧ e.2 ≤ k

instance (config : Config) (t : CommandType) (k : Nat) : Decidable (Short config t k) :=
  inferInstanceAs (Decidable (∀ e ∈ delays config t, 0 ≤ e.2 ∧ e.2 ≤ (k : Int)))

theorem after_subset {config : Config} {cmd : Command} {b : BankId} (hb : config.HasBank b)
    (hrank : cmd.addr.rank ∈ upTo config.ranks) : after config cmd b ⊆ delays config cmd.cmdType := by
  obtain ⟨hb₀, hb₁⟩ := hb.rank
  obtain ⟨hr₀, hr₁⟩ := mem_upTo.mp hrank
  unfold after delays
  intro e he
  simp only [List.mem_append]
  split at he
  · split at he
    · simp [he]
    · cases he
  · split at he
    · simp [he]
    · split at he
      · simp [he]
      · split at he
        · simp [he]
        · rename_i hother
          have hmany : config.ranks ≠ 1 := by omega
          simp [he, hmany]

end Timing

theorem later_le {clk k : Nat} {d : Int} (h : 0 ≤ d ∧ d ≤ k) : later clk d ≤ clk + k := by
  unfold later
  omega

/-- No bank waits longer than `h` cycles. -/
structure ChannelState.Calm (config : Config) (ch : ChannelState) (clk h : Nat) : Prop where
  timing : ∀ b, config.HasBank b → ∀ t, (ch.bankStates b).cmdTiming t ≤ clk + h
  fourAw : ∀ rank, ∀ x ∈ ch.fourAw rank, x ≤ clk + h
  thirtyTwoAw : ∀ rank, ∀ x ∈ ch.thirtyTwoAw rank, x ≤ clk + h

section
variable {config : Config} {ch ch' : ChannelState} {cmd : Command} {clk h k : Nat}

theorem ChannelState.Calm.mono (hc : ch.Calm config clk h) (hk : h ≤ k) : ch.Calm config clk k :=
  ⟨fun b hb t => Nat.le_trans (hc.timing b hb t) (Nat.add_le_add_left hk _),
    fun rank x hx => Nat.le_trans (hc.fourAw rank x hx) (Nat.add_le_add_left hk _),
    fun rank x hx => Nat.le_trans (hc.thirtyTwoAw rank x hx) (Nat.add_le_add_left hk _)⟩

theorem ChannelState.Calm.advance (hc : ch.Calm config clk h) : ch.Calm config (clk + 1) (h - 1) := by
  refine ⟨fun b hb t => ?_, fun rank x hx => ?_, fun rank x hx => ?_⟩
  · have := hc.timing b hb t
    omega
  · have := hc.fourAw rank x hx
    omega
  · have := hc.thirtyTwoAw rank x hx
    omega

theorem BankState.wait_le {b : BankState} {l : List (CommandType × Int)} {n : Nat}
    (hl : ∀ e ∈ l, later clk e.2 ≤ n) (hb : ∀ t, b.cmdTiming t ≤ n) (t : CommandType) :
    (b.wait l clk).cmdTiming t ≤ n := by
  induction l generalizing b with
  | nil => exact hb t
  | cons e l ih =>
    refine ih (fun e' he' => hl e' (List.mem_cons_of_mem _ he')) fun t' => ?_
    by_cases ht : t' = e.1
    · subst ht
      rw [BankState.updateTiming_self]
      exact Nat.max_le.mpr ⟨hb _, hl e List.mem_cons_self⟩
    · unfold BankState.updateTiming
      dsimp only
      rw [Function.update_of_ne ht]
      exact hb t'

theorem windowAfter_le {window : Int → List Nat} {cycles : Int} {n : Nat} (hw : ∀ rank, ∀ x ∈ window rank, x ≤ n)
    (hnew : cmd.cmdType = .activate → later clk cycles ≤ n) (rank : Int) :
    ∀ x ∈ windowAfter cmd clk cycles window rank, x ≤ n := by
  intro x hx
  unfold windowAfter at hx
  split at hx
  · rename_i hact
    by_cases hrank : rank = cmd.addr.rank
    · subst hrank
      rw [Function.update_self] at hx
      unfold ChannelState.slide at hx
      rcases List.mem_append.mp hx with hx | hx
      · refine hw cmd.addr.rank x ?_
        split at hx
        · cases hx
        · rename_i heq
          rw [heq]
          split at hx
          · exact List.mem_cons_of_mem _ hx
          · exact hx
      · rw [List.mem_singleton.mp hx]
        exact hnew hact
    · rw [Function.update_of_ne hrank] at hx
      exact hw rank x hx
  · exact hw rank x hx

/-- A command prolongs the time that banks wait to its own delays. -/
theorem ChannelState.Calm.executed (hc : ch.Calm config clk h) (hrank : cmd.addr.rank ∈ upTo config.ranks)
    (hshort : Timing.Short config cmd.cmdType k)
    (hwindow : cmd.cmdType = .activate → (0 ≤ config.tFAW ∧ config.tFAW ≤ k) ∧
      (config.isGDDR = true → 0 ≤ config.t32AW ∧ config.t32AW ≤ k))
    (he : Executed config clk cmd ch ch') : ch'.Calm config clk (max h k) := by
  have hcalm := hc.mono (Nat.le_max_left h k)
  have hk : clk + k ≤ clk + max h k := Nat.add_le_add_left (Nat.le_max_right h k) _
  have hdelay : ∀ b, config.HasBank b → ∀ e ∈ Timing.after config cmd b, later clk e.2 ≤ clk + max h k :=
    fun b hb e he => Nat.le_trans (later_le (hshort e (Timing.after_subset hb hrank he))) hk
  refine ⟨fun b hb t => ?_, ?_, ?_⟩
  · by_cases htouched : b ∈ config.touched cmd
    · obtain ⟨state, hstate, heq⟩ := he.touched b htouched hb
      rw [heq]
      refine BankState.wait_le (hdelay b hb) (fun t' => ?_) t
      rw [updateState_cmdTiming hstate]
      exact hcalm.timing b hb t'
    · rw [he.others b htouched hb]
      exact BankState.wait_le (hdelay b hb) (fun t' => hcalm.timing b hb t') t
  · rw [he.fourAw]
    exact windowAfter_le hcalm.fourAw fun hact => Nat.le_trans (later_le (hwindow hact).1) hk
  · rw [he.thirtyTwoAw]
    split
    · rename_i hgddr
      exact windowAfter_le hcalm.thirtyTwoAw fun hact => Nat.le_trans (later_le ((hwindow hact).2 hgddr)) hk
    · exact hcalm.thirtyTwoAw

/-! ## Every request is answered -/

theorem bank_ready {b : BankId} (hb : config.HasBank b) (hc : ch.Calm config clk 0) (hawake : ch.Awake config)
    (hcmd : cmd.cmdType.Plain) :
    ∃ t, (ch.bankStates b).requiredType cmd = .ok t ∧
      (ch.bankStates b).getReadyCommand cmd clk = .ok (some { cmd with cmdType := t }) := by
  obtain ⟨t, ht, -⟩ := requiredType_ok (hawake b hb) hcmd
  have hle : (ch.bankStates b).cmdTiming t ≤ clk := hc.timing b hb t
  refine ⟨t, ht, ?_⟩
  unfold BankState.getReadyCommand
  rw [ok_bind ht, if_pos hle]
  rfl

theorem activationWindowOk_of_calm (hc : ch.Calm config clk 0) (rank : Int) :
    ch.activationWindowOk config rank clk = true := by
  have hfour : ch.isFAWReady rank clk = true := by
    unfold ChannelState.isFAWReady
    split
    · rfl
    · rename_i x xs hw
      have hx := hc.fourAw rank x (hw ▸ List.mem_cons_self)
      simp only [Bool.not_eq_true', Bool.and_eq_false_iff, decide_eq_false_iff_not]
      exact Or.inl (by omega)
  have hthirty : ch.is32AWReady rank clk = true := by
    unfold ChannelState.is32AWReady
    split
    · rfl
    · rename_i x xs hw
      have hx := hc.thirtyTwoAw rank x (hw ▸ List.mem_cons_self)
      simp only [Bool.not_eq_true', Bool.and_eq_false_iff, decide_eq_false_iff_not]
      exact Or.inl (by omega)
  simp [ChannelState.activationWindowOk, hfour, hthirty]

theorem scanRank_ready {bs : List BankId} (hbs : ∀ b ∈ bs, config.HasBank b) (hc : ch.Calm config clk 0)
    (hawake : ch.Awake config) (hcmd : cmd.cmdType.Plain) {n : Nat} {r : Option Command}
    (hn : n + bs.length = config.banks) (hr : bs = [] → ∃ cmd', r = some cmd') :
    ∃ cmd', ch.scanRank config cmd clk bs n r = .ok (some cmd') := by
  induction bs generalizing n r with
  | nil =>
    obtain ⟨cmd', rfl⟩ := hr rfl
    have hn : n = config.banks := hn
    exact ⟨cmd', by rw [ChannelState.scanRank, if_pos hn]⟩
  | cons b bs ih =>
    obtain ⟨t, -, hready⟩ := bank_ready (hbs b List.mem_cons_self) hc hawake hcmd
    unfold ChannelState.scanRank
    rw [ok_bind hready]
    dsimp only
    split
    · exact ⟨_, rfl⟩
    · refine ih (fun b' hb' => hbs b' (List.mem_cons_of_mem _ hb')) ?_ fun _ => ⟨_, rfl⟩
      rw [List.length_cons] at hn
      omega

theorem getReadyCommand_ready (hreach : config.Reaches cmd) (hbanks : 0 < config.banks) (hc : ch.Calm config clk 0)
    (hawake : ch.Awake config) (hcmd : cmd.cmdType.Plain) :
    ∃ cmd', ch.getReadyCommand config cmd clk = .ok (some cmd') := by
  unfold ChannelState.getReadyCommand
  unfold Config.Reaches at hreach
  split
  · rename_i hr
    rw [if_pos hr] at hreach
    refine scanRank_ready (fun b hb => hasBank_of_rank hreach hb) hc hawake hcmd ?_ fun hnil => ?_
    · rw [length_banksOfRank, Nat.zero_add]
    · have hlen := length_banksOfRank config cmd.addr.rank
      rw [hnil] at hlen
      exact absurd hlen (Nat.ne_of_lt hbanks)
  · rename_i hr
    rw [if_neg hr] at hreach
    obtain ⟨t, -, hready⟩ := bank_ready hreach hc hawake hcmd
    rw [ok_bind hready]
    dsimp only
    rw [if_neg]
    · exact ⟨_, rfl⟩
    · rintro ⟨-, hfull⟩
      rw [activationWindowOk_of_calm hc] at hfull
      cases hfull

end

end Dramsim3

end Anna
