import Anna.Dramsim3.ChannelProgress

/-!
# Queues that get on

Of the reads in a queue the first that can be served is: where nothing has to
wait, only an empty queue hands out nothing. A command that opens a row is for
the first read of its bank. In a cycle every queue has its turn.
-/

namespace Anna

namespace Dramsim3

namespace CommandQueue

section
variable {config : Config} {ch : ChannelState} {clk : Nat} {cmd : Command}

/-- What has been passed over was not ready, or was a precharge or a write that has to wait. -/
theorem getFirstReady_first {before l : List Command} (h : getFirstReady config ch clk before l = .ok (some cmd)) :
    ∃ pre req after, l = pre ++ req :: after ∧ ch.getReadyCommand config req clk = .ok (some cmd) ∧
      (cmd.cmdType = .precharge → arbitratePrecharge ch (before ++ pre) req after = true) ∧
      ∀ g ∈ pre, ∀ ready, ch.getReadyCommand config g clk = .ok (some ready) →
        ready.cmdType = .precharge ∨ ready.cmdType.isWrite = true := by
  induction l generalizing before with
  | nil => cases h
  | cons req after ih =>
    obtain ⟨o, ho, hrest⟩ := bind_eq_ok.mp h
    have hnext : (∀ ready, o = some ready → ready.cmdType = .precharge ∨ ready.cmdType.isWrite = true) →
        getFirstReady config ch clk (before ++ [req]) after = .ok (some cmd) →
        ∃ pre req' after', req :: after = pre ++ req' :: after' ∧ ch.getReadyCommand config req' clk = .ok (some cmd) ∧
          (cmd.cmdType = .precharge → arbitratePrecharge ch (before ++ pre) req' after' = true) ∧
          ∀ g ∈ pre, ∀ ready, ch.getReadyCommand config g clk = .ok (some ready) →
            ready.cmdType = .precharge ∨ ready.cmdType.isWrite = true := by
      intro hpassed hnext
      obtain ⟨pre, req', after', rfl, hready, harb, hpre⟩ := ih hnext
      refine ⟨req :: pre, req', after', rfl, hready, ?_, ?_⟩
      · rw [List.append_cons before req pre]
        exact harb
      · intro g hg ready hgr
        rcases List.mem_cons.mp hg with rfl | hg
        · rw [ho] at hgr
          exact hpassed ready (Except.ok.inj hgr)
        · exact hpre g hg ready hgr
    cases o with
    | none => exact hnext (fun _ h => by cases h) hrest
    | some ready =>
      dsimp only at hrest
      split at hrest
      · rename_i hwaits
        refine hnext (fun ready' h => ?_) hrest
        obtain rfl := Option.some.inj h
        exact hwaits.imp And.left And.left
      · rename_i hfree
        obtain rfl := Option.some.inj (pure_eq_ok.mp hrest)
        refine ⟨[], req, after, rfl, ho, fun hp => ?_, fun _ hg => absurd hg List.not_mem_nil⟩
        rw [List.append_nil]
        by_contra harb
        exact hfree (Or.inl ⟨hp, Bool.not_eq_true _ ▸ harb⟩)

theorem getFirstReady_none {before l : List Command} (h : getFirstReady config ch clk before l = .ok none) :
    ∀ pre req after, l = pre ++ req :: after → ∀ ready, ch.getReadyCommand config req clk = .ok (some ready) →
      ready.cmdType = .precharge ∧ arbitratePrecharge ch (before ++ pre) req after = false ∨
        ready.cmdType.isWrite = true := by
  induction l generalizing before with
  | nil =>
    intro pre req after hnil
    cases List.append_ne_nil_of_right_ne_nil _ (List.cons_ne_nil _ _) hnil.symm
  | cons req after ih =>
    obtain ⟨o, ho, hrest⟩ := bind_eq_ok.mp h
    have hnext : getFirstReady config ch clk (before ++ [req]) after = .ok none ∧
        ∀ ready, o = some ready → ready.cmdType = .precharge ∧ arbitratePrecharge ch before req after = false ∨
          ready.cmdType.isWrite = true := by
      cases o with
      | none => exact ⟨hrest, fun _ h => by cases h⟩
      | some ready =>
        dsimp only at hrest
        split at hrest
        · rename_i hwaits
          refine ⟨hrest, fun ready' h => ?_⟩
          obtain rfl := Option.some.inj h
          exact hwaits.imp id And.left
        · cases hrest
    intro pre req' after' hsplit ready hready
    cases pre with
    | nil =>
      obtain ⟨rfl, rfl⟩ := List.cons.inj hsplit
      rw [ho] at hready
      rw [List.append_nil]
      exact hnext.2 ready (Except.ok.inj hready)
    | cons x pre =>
      obtain ⟨rfl, htail⟩ := List.cons.inj hsplit
      have hlater := ih hnext.1 pre req' after' htail ready hready
      rw [List.append_cons before req pre]
      exact hlater

/-! ## Reads -/

theorem isRead_cases {t : CommandType} (h : t.isRead = true) : t = .read ∨ t = .readPrecharge := by
  cases t <;> simp_all [CommandType.isRead]

theorem getReadyCommand_read {g : Command} (hg : g.cmdType.isRead = true) {t : CommandType}
    (ht : (ch.bankStates g.addr.bankId).requiredType g = .ok t)
    (hle : (ch.bankStates g.addr.bankId).cmdTiming t ≤ clk)
    (hwindow : t = .activate → ch.activationWindowOk config g.addr.rank clk = true) :
    ch.getReadyCommand config g clk = .ok (some { g with cmdType := t }) := by
  have hrank : ¬ g.cmdType.isRankCMD = true := by
    rcases isRead_cases hg with hc | hc <;> rw [hc] <;> decide
  have hready : (ch.bankStates g.addr.bankId).getReadyCommand g clk = .ok (some { g with cmdType := t }) := by
    unfold BankState.getReadyCommand
    rw [ok_bind ht, if_pos hle]
    rfl
  unfold ChannelState.getReadyCommand
  rw [if_neg hrank, ok_bind hready]
  dsimp only
  rw [if_neg]
  · rfl
  · rintro ⟨hact, hfull⟩
    rw [hwindow hact] at hfull
    cases hfull

theorem requiredType_closed {b : BankState} {g : Command} (hg : g.cmdType.isRead = true) (hb : b.state = .closed) :
    b.requiredType g = .ok .activate := by
  unfold BankState.requiredType
  rcases isRead_cases hg with hc | hc <;> simp [hb, hc]

theorem requiredType_hit {b : BankState} {g : Command} (hg : g.cmdType.isRead = true) (hb : b.state = .opened)
    (hrow : g.addr.row = b.openRow) : b.requiredType g = .ok g.cmdType := by
  unfold BankState.requiredType
  rcases isRead_cases hg with hc | hc <;> simp [hb, hc, hrow]

/-- A row is opened for the first read of its bank. -/
theorem first_of_activate {pre : List Command} {req : Command} (hpre : ∀ g ∈ pre, g.cmdType.isRead = true)
    (hready : Ready config ch clk { req with cmdType := .activate })
    (hpassed : ∀ g ∈ pre, ∀ ready, ch.getReadyCommand config g clk = .ok (some ready) →
      ready.cmdType = .precharge ∨ ready.cmdType.isWrite = true) : ∀ g ∈ pre, g.addr.bankId ≠ req.addr.bankId := by
  intro g hg hbank
  have hchecked : req.addr.bankId ∈ config.checked { req with cmdType := .activate } := List.mem_singleton.mpr rfl
  have hclosed : (ch.bankStates req.addr.bankId).state = .closed := hready.state _ hchecked
  have hrank : g.addr.rank = req.addr.rank := (BankId.mk.inj hbank).1
  have hsome : ch.getReadyCommand config g clk = .ok (some { g with cmdType := .activate }) :=
    getReadyCommand_read (hpre g hg) (requiredType_closed (hpre g hg) (hbank ▸ hclosed)) (hbank ▸ hready.timing _ hchecked)
    fun _ => hrank ▸ hready.window rfl
  rcases hpassed g hg _ hsome with h | h <;> cases h

/-- Where nothing has to wait a queue of reads hands out a command. -/
theorem eq_nil_of_calm {l : List Command} (hreads : ∀ g ∈ l, g.cmdType.isRead = true)
    (hbanks : ∀ g ∈ l, config.HasBank g.addr.bankId) (hc : ch.Calm config clk 0) (hawake : ch.Awake config)
    (h : getFirstReady config ch clk [] l = .ok none) : l = [] := by
  have hready : ∀ g ∈ l, ∀ t, (ch.bankStates g.addr.bankId).requiredType g = .ok t →
      ch.getReadyCommand config g clk = .ok (some { g with cmdType := t }) := by
    intro g hg t ht
    exact getReadyCommand_read (hreads g hg) ht (hc.timing _ (hbanks g hg) t)
      fun _ => activationWindowOk_of_calm hc _
  have hwaits := getFirstReady_none h
  cases l with
  | nil => rfl
  | cons f after =>
    exfalso
    have hf := hreads f List.mem_cons_self
    have hfirst := fun t ht => hwaits [] f after rfl _ (hready f List.mem_cons_self t ht)
    dsimp only [List.nil_append] at hfirst
    rcases hawake _ (hbanks f List.mem_cons_self) with hopen | hclosed
    · by_cases hrow : f.addr.row = (ch.bankStates f.addr.bankId).openRow
      · rcases hfirst _ (requiredType_hit hf hopen hrow) with ⟨hp, -⟩ | hw
        · rcases isRead_cases hf with hc | hc <;> rw [hc] at hp <;> cases hp
        · rcases isRead_cases hf with hc | hc <;> rw [hc] at hw <;> cases hw
      · have hmiss : (ch.bankStates f.addr.bankId).requiredType f = .ok .precharge := by
          unfold BankState.requiredType
          rcases isRead_cases hf with hc | hc <;> simp [hopen, hc, hrow]
        rcases hfirst _ hmiss with ⟨-, harb⟩ | hw
        · -- the row is kept open for a hit, and that is ready
          obtain ⟨g, hg, hhit⟩ : ∃ g ∈ f :: after,
              g.addr.row = (ch.bankStates f.addr.bankId).openRow ∧ g.addr.bankId = f.addr.bankId := by
            unfold arbitratePrecharge at harb
            simp only [List.any_nil, Bool.not_false, Bool.true_and, Bool.or_eq_false_iff, Bool.not_eq_false'] at harb
            obtain ⟨g, hg, hhit⟩ := List.any_eq_true.mp harb.1
            exact ⟨g, hg, decide_eq_true_iff.mp hhit⟩
          obtain ⟨pre, post, hsplit⟩ := List.append_of_mem hg
          have hgr := hreads g hg
          have hsome := hready g hg _ (requiredType_hit hgr (hhit.2 ▸ hopen) (hhit.2 ▸ hhit.1))
          rcases hwaits pre g post hsplit _ hsome with ⟨hp, -⟩ | hw
          · rcases isRead_cases hgr with hc | hc <;> rw [hc] at hp <;> cases hp
          · rcases isRead_cases hgr with hc | hc <;> rw [hc] at hw <;> cases hw
        · cases hw
    · rcases hfirst _ (requiredType_closed hf hclosed) with ⟨hp, -⟩ | hw
      · cases hp
      · cases hw

end

/-! ## Turns -/

section
variable {config : Config} {ch : ChannelState} {q q' : CommandQueue}

theorem getNextQueue_eq (h : 0 ≤ q.queueIdx ∧ q.queueIdx < numQueues config) :
    (q.getNextQueue config).queueIdx = (q.queueIdx + 1) % numQueues config := by
  unfold getNextQueue
  dsimp only
  split
  · rename_i hlast
    rw [hlast, Int.emod_self]
  · rw [Int.emod_eq_of_lt (by omega) (by omega)]

theorem issueFrom_none (hpos : 0 < numQueues config) {fuel : Nat}
    (hidx : 0 ≤ q.queueIdx ∧ q.queueIdx < numQueues config) (h : issueFrom config ch fuel q = .ok (none, q')) :
    ∀ k : Nat, 0 < k → k ≤ fuel →
      (q.isInRef = true ∧ (q.queueIdx + k) % numQueues config ∈ q.refQIndices) ∨
        getFirstReady config ch q.clk [] (q.queues ((q.queueIdx + k) % numQueues config)) = .ok none := by
  induction fuel generalizing q with
  | zero =>
    intro k hk hle
    omega
  | succ fuel ih =>
    have hnext := getNextQueue_eq hidx
    have hin : 0 ≤ (q.getNextQueue config).queueIdx ∧ (q.getNextQueue config).queueIdx < numQueues config := by
      rw [hnext]
      exact ⟨Int.emod_nonneg _ (by omega), Int.emod_lt_of_pos _ (by omega)⟩
    unfold issueFrom at h
    dsimp only at h
    have hfirst : ((q.isInRef = true ∧ (q.queueIdx + 1) % numQueues config ∈ q.refQIndices) ∨
          getFirstReady config ch q.clk [] (q.queues ((q.queueIdx + 1) % numQueues config)) = .ok none) ∧
        issueFrom config ch fuel (q.getNextQueue config) = .ok (none, q') := by
      rw [← hnext]
      split at h
      · rename_i hclosed
        exact ⟨Or.inl hclosed, h⟩
      · obtain ⟨o, ho, h⟩ := bind_eq_ok.mp h
        cases o with
        | none => exact ⟨Or.inr ho, h⟩
        | some cmd =>
          dsimp only at h
          split at h
          · obtain ⟨_, -, h⟩ := bind_eq_ok.mp h
            cases h
          · cases h
    have hrest := ih hin hfirst.2
    intro k hk hle
    by_cases hone : k = 1
    · rw [hone]
      exact hfirst.1
    · have hk' := hrest (k - 1) (by omega) (by omega)
      have hindex : ((q.getNextQueue config).queueIdx + ((k - 1 : Nat) : Int)) % numQueues config =
          (q.queueIdx + k) % numQueues config := by
        rw [hnext, Int.emod_add_emod]
        congr 1
        omega
      rw [hindex] at hk'
      exact hk'

/-- In a cycle without a command every queue that is open has been asked. -/
theorem getCommandToIssue_none (hpos : 0 < numQueues config)
    (hidx : 0 ≤ q.queueIdx ∧ q.queueIdx < numQueues config) (h : getCommandToIssue config ch q = .ok (none, q'))
    {i : Int} (hi : i ∈ upTo (numQueues config)) : (q.isInRef = true ∧ i ∈ q.refQIndices) ∨
      getFirstReady config ch q.clk [] (q.queues i) = .ok none := by
  obtain ⟨hi₀, hi₁⟩ := mem_upTo.mp hi
  have hturn : ∃ k : Nat, 0 < k ∧ k ≤ numQueues config ∧ (q.queueIdx + k) % numQueues config = i := by
    by_cases hlt : q.queueIdx < i
    · refine ⟨(i - q.queueIdx).toNat, by omega, by omega, ?_⟩
      have hsum : q.queueIdx + (i - q.queueIdx) = i := by omega
      rw [Int.toNat_of_nonneg (by omega), hsum, Int.emod_eq_of_lt hi₀ hi₁]
    · refine ⟨(i - q.queueIdx + numQueues config).toNat, by omega, by omega, ?_⟩
      rw [Int.toNat_of_nonneg (by omega)]
      have hsum : q.queueIdx + (i - q.queueIdx + numQueues config) = i + numQueues config := by omega
      rw [hsum, Int.add_emod_right, Int.emod_eq_of_lt hi₀ hi₁]
  obtain ⟨k, hk, hle, heq⟩ := hturn
  have hasked := issueFrom_none hpos hidx h k hk hle
  rw [heq] at hasked
  exact hasked

theorem issueFrom_some (hpos : 0 < numQueues config) {fuel : Nat} {o : Option Command}
    (hidx : 0 ≤ q.queueIdx ∧ q.queueIdx < numQueues config) (h : issueFrom config ch fuel q = .ok (o, q')) :
    ∃ i ∈ upTo (numQueues config), (o = none ∧ q' = { q with queueIdx := i }) ∨
      ∃ cmd, o = some cmd ∧ ¬ (q.isInRef = true ∧ i ∈ q.refQIndices) ∧
        getFirstReady config ch q.clk [] (q.queues i) = .ok (some cmd) ∧
        if cmd.cmdType.isReadWrite then ({ q with queueIdx := i } : CommandQueue).eraseRWCommand config cmd = .ok q'
        else q' = { q with queueIdx := i } := by
  induction fuel generalizing q with
  | zero =>
    obtain ⟨rfl, rfl⟩ := Prod.mk.inj (Except.ok.inj h)
    exact ⟨q.queueIdx, mem_upTo.mpr hidx, Or.inl ⟨rfl, rfl⟩⟩
  | succ fuel ih =>
    have hin : 0 ≤ (q.getNextQueue config).queueIdx ∧ (q.getNextQueue config).queueIdx < numQueues config := by
      rw [getNextQueue_eq hidx]
      exact ⟨Int.emod_nonneg _ (by omega), Int.emod_lt_of_pos _ (by omega)⟩
    unfold issueFrom at h
    dsimp only at h
    split at h
    · have hrest := ih hin h
      exact hrest
    · rename_i hopen
      obtain ⟨ready, hready, h⟩ := bind_eq_ok.mp h
      cases ready with
      | none =>
        have hrest := ih hin h
        exact hrest
      | some cmd =>
        refine ⟨(q.getNextQueue config).queueIdx, mem_upTo.mpr hin, Or.inr ⟨cmd, ?_⟩⟩
        dsimp only at h
        split at h
        · rename_i hrw
          obtain ⟨q₁, herase, h⟩ := bind_eq_ok.mp h
          obtain ⟨rfl, rfl⟩ := Prod.mk.inj (pure_eq_ok.mp h)
          exact ⟨rfl, hopen, hready, by rw [if_pos hrw]; exact herase⟩
        · rename_i hrw
          obtain ⟨rfl, rfl⟩ := Prod.mk.inj (pure_eq_ok.mp h)
          exact ⟨rfl, hopen, hready, by rw [if_neg hrw]; rfl⟩

end

end CommandQueue

end Dramsim3

end Anna
