import Anna.Dramsim3.Controller
import Anna.Dramsim3.ChannelStateSound
import Mathlib.Logic.Relation

/-!
# Atomic steps of the controller

A tick of the controller is a sequence of a few atomic steps: refreshes are
demanded, a command is selected and issued, a transaction moves into the
command queues, the clock advances (`clockTick_atoms`). What holds along all
atomic steps holds in every run, whatever the scheduling.
-/

namespace Anna

namespace Dramsim3

open Relation

namespace Controller

theorem returnReads_frame (config : Config) (hexAddr : UInt64) (n : Nat) (c : Controller) :
    (c.returnReads config hexAddr n).clk = c.clk ∧ (c.returnReads config hexAddr n).trace = c.trace := by
  induction n generalizing c with
  | zero => exact ⟨rfl, rfl⟩
  | succ n ih =>
    unfold returnReads
    split
    · exact ⟨rfl, rfl⟩
    · exact ih _

/-- The queues have been asked and `cmd` was the answer: it serves a command
`req` of a queue, and is taken from the queue if it transfers data. -/
structure Selected (config : Config) (c : Controller) (cmd : Command) (c' : Controller) : Prop where
  request : ∃ index before req after, c.cmdQueue.queues index = before ++ req :: after ∧
    c.channelState.getReadyCommand config req c.cmdQueue.clk = .ok (some cmd) ∧
    (cmd.cmdType = .precharge → CommandQueue.arbitratePrecharge c.channelState before req after = true) ∧
    (cmd.cmdType.isWrite = true → CommandQueue.hasRWDependency before req = false)
  queue : ∃ index, if cmd.cmdType.isReadWrite then
      ∃ q, ({ c.cmdQueue with queueIdx := index }).eraseRWCommand config cmd = .ok q ∧ c' = { c with cmdQueue := q }
    else c' = { c with cmdQueue := { c.cmdQueue with queueIdx := index } }

inductive Atom (config : Config) : Controller → Controller → Prop
  | demand {c} : Atom config c (c.tickRefresh config)
  | book {c} (queueIdx : Int) (refQIndices : List Int) (isInRef : Bool) :
      Atom config c { c with cmdQueue :=
        { c.cmdQueue with queueIdx := queueIdx, refQIndices := refQIndices, isInRef := isInRef } }
  | issue {c c₁ c' cmd} : Selected config c cmd c₁ → c₁.issueCommand config cmd = .ok c' → Atom config c c'
  | lose {c c' first cmd} : config.enableHbmDualCmd = true → c.trace.getLast? = some (c.clk, first) →
      first.cmdType.isReadWrite = true → cmd.cmdType.isReadWrite = true → Selected config c cmd c' → Atom config c c'
  | refresh {c c' ref refs cmd} : c.channelState.refreshQ = ref :: refs →
      c.channelState.getReadyCommand config ref c.cmdQueue.clk = .ok (some cmd) →
      c.issueCommand config cmd = .ok c' → Atom config c c'
  | selfRefresh {c c' rank t cmd} : config.enableSelfRefresh = true → rank ∈ upTo config.ranks →
      t = .srefEnter ∨ t = .srefExit →
      c.channelState.getReadyCommand config ⟨t, ⟨-1, rank, -1, -1, -1, -1⟩, -1⟩ c.clk = .ok (some cmd) →
      c.issueCommand config cmd = .ok c' → Atom config c c'
  | idle {c} : Atom config c (c.updateIdleCycles config)
  | schedule {c} : Atom config c (c.scheduleTransaction config)
  | advance {c} : Atom config c c.advance

abbrev Atoms (config : Config) := ReflTransGen (Atom config)

theorem Atoms.invariant {config : Config} {P : Controller → Prop} (hatom : ∀ {c c'}, P c → Atom config c c' → P c')
    {c c' : Controller} (h : P c) (steps : Atoms config c c') : P c' := by
  induction steps with
  | refl => exact h
  | tail _ step ih => exact hatom ih step

section
variable {config : Config}

theorem getFirstReady_some {ch : ChannelState} {clk : Nat} {before l : List Command} {cmd : Command}
    (h : CommandQueue.getFirstReady config ch clk before l = .ok (some cmd)) :
    ∃ pre req after, l = pre ++ req :: after ∧ ch.getReadyCommand config req clk = .ok (some cmd) ∧
      (cmd.cmdType = .precharge → CommandQueue.arbitratePrecharge ch (before ++ pre) req after = true) ∧
      (cmd.cmdType.isWrite = true → CommandQueue.hasRWDependency (before ++ pre) req = false) := by
  induction l generalizing before with
  | nil => cases h
  | cons req after ih =>
    obtain ⟨ready, hready, hrest⟩ := bind_eq_ok.mp h
    have hnext : CommandQueue.getFirstReady config ch clk (before ++ [req]) after = .ok (some cmd) →
        ∃ pre req' after', req :: after = pre ++ req' :: after' ∧ ch.getReadyCommand config req' clk = .ok (some cmd) ∧
          (cmd.cmdType = .precharge → CommandQueue.arbitratePrecharge ch (before ++ pre) req' after' = true) ∧
          (cmd.cmdType.isWrite = true → CommandQueue.hasRWDependency (before ++ pre) req' = false) := by
      intro hnext
      obtain ⟨pre, req', after', rfl, hfound⟩ := ih hnext
      refine ⟨req :: pre, req', after', rfl, ?_⟩
      rw [List.append_cons before req pre]
      exact hfound
    cases ready with
    | none => exact hnext hrest
    | some ready =>
      dsimp only at hrest
      split at hrest
      · exact hnext hrest
      · rename_i hfree
        obtain rfl := Option.some.inj (pure_eq_ok.mp hrest)
        obtain ⟨hpre, hdep⟩ := not_or.mp hfree
        refine ⟨[], req, after, rfl, hready, ?_, ?_⟩
        · intro hp
          rw [List.append_nil]
          by_contra harb
          exact hpre ⟨hp, Bool.not_eq_true _ ▸ harb⟩
        · intro hw
          rw [List.append_nil]
          by_contra hd
          exact hdep ⟨hw, Bool.not_eq_false _ ▸ hd⟩

theorem issueFrom_spec {c : Controller} {fuel : Nat} {q q' : CommandQueue} {o : Option Command} {index : Int}
    (hq : q = { c.cmdQueue with queueIdx := index })
    (h : CommandQueue.issueFrom config c.channelState fuel q = .ok (o, q')) :
    (o = none ∧ ∃ index, q' = { c.cmdQueue with queueIdx := index }) ∨
      ∃ cmd, o = some cmd ∧ Selected config c cmd { c with cmdQueue := q' } := by
  induction fuel generalizing q index with
  | zero =>
    obtain ⟨rfl, rfl⟩ := Prod.mk.inj (Except.ok.inj h)
    exact Or.inl ⟨rfl, index, hq⟩
  | succ fuel ih =>
    subst hq
    unfold CommandQueue.issueFrom at h
    dsimp only at h
    split at h
    · exact ih rfl h
    · obtain ⟨ready, hready, hrest⟩ := bind_eq_ok.mp h
      cases ready with
      | none => exact ih rfl hrest
      | some cmd =>
        dsimp only at hrest
        obtain ⟨pre, req, after, hqueue, hreq⟩ := getFirstReady_some hready
        rw [List.nil_append] at hreq
        refine Or.inr ⟨cmd, ?_⟩
        split at hrest
        · rename_i hrw
          obtain ⟨q₁, herase, hrest⟩ := bind_eq_ok.mp hrest
          obtain ⟨rfl, rfl⟩ := Prod.mk.inj (pure_eq_ok.mp hrest)
          exact ⟨rfl, ⟨_, pre, req, after, hqueue, hreq⟩, _, by rw [if_pos hrw]; exact ⟨_, herase, rfl⟩⟩
        · rename_i hrw
          obtain ⟨rfl, rfl⟩ := Prod.mk.inj (pure_eq_ok.mp hrest)
          exact ⟨rfl, ⟨_, pre, req, after, hqueue, hreq⟩, _, by rw [if_neg hrw]; rfl⟩

variable {c c' : Controller} {o : Option Command} {cmd : Command}

theorem atom_turn (c : Controller) (index : Int) :
    Atom config c { c with cmdQueue := { c.cmdQueue with queueIdx := index } } :=
  .book index c.cmdQueue.refQIndices c.cmdQueue.isInRef

theorem getCommandToIssue_spec (h : c.getCommandToIssue config = .ok (o, c')) :
    (o = none ∧ Atoms config c c') ∨ ∃ cmd, o = some cmd ∧ Selected config c cmd c' := by
  obtain ⟨⟨o', q'⟩, hissue, h⟩ := bind_eq_ok.mp h
  obtain ⟨rfl, rfl⟩ := Prod.mk.inj (pure_eq_ok.mp h)
  rcases issueFrom_spec rfl hissue with ⟨rfl, index, rfl⟩ | ⟨cmd, rfl, hsel⟩
  · exact Or.inl ⟨rfl, .single (atom_turn c index)⟩
  · exact Or.inr ⟨cmd, rfl, hsel⟩

theorem issueCommand_trace (h : c.issueCommand config cmd = .ok c') :
    c'.clk = c.clk ∧ c'.trace = c.trace ++ [(c.clk, cmd)] := by
  obtain ⟨c₁, hcomplete, h⟩ := bind_eq_ok.mp h
  obtain ⟨ch, -, h⟩ := bind_eq_ok.mp h
  obtain rfl := pure_eq_ok.mp h
  have hsame : c₁.clk = c.clk ∧ c₁.trace = c.trace := by
    unfold complete at hcomplete
    split at hcomplete
    · dsimp only at hcomplete
      split at hcomplete
      · cases hcomplete
      · obtain rfl := Except.ok.inj hcomplete
        exact returnReads_frame config cmd.hexAddr _ c
    · split at hcomplete
      · split at hcomplete
        · cases hcomplete
        · obtain rfl := Except.ok.inj hcomplete
          exact ⟨rfl, rfl⟩
      · obtain rfl := Except.ok.inj hcomplete
        exact ⟨rfl, rfl⟩
  exact ⟨hsame.1, by rw [hsame.1, hsame.2]⟩

theorem startRefresh_spec (config : Config) (c : Controller) (ref : Command) :
    (c.cmdQueue.startRefresh config ref).clk = c.cmdQueue.clk ∧
      Atom config c { c with cmdQueue := c.cmdQueue.startRefresh config ref } := by
  unfold CommandQueue.startRefresh
  split
  · exact ⟨rfl, .book _ _ _⟩
  · exact ⟨rfl, .book _ _ _⟩

/-- Issuing what has been selected is a sequence of atomic steps. -/
theorem selectCommand_atoms (h : c.selectCommand config = .ok (o, c')) :
    (o = none ∧ Atoms config c c') ∨
      ∃ cmd, o = some cmd ∧ ∀ c₂, c'.issueCommand config cmd = .ok c₂ → Atoms config c c₂ := by
  unfold selectCommand at h
  cases hq : c.channelState.refreshQ with
  | nil =>
    rw [hq] at h
    rcases getCommandToIssue_spec h with hnone | ⟨cmd, rfl, hsel⟩
    · exact Or.inl hnone
    · exact Or.inr ⟨cmd, rfl, fun c₂ hissue => .single (.issue hsel hissue)⟩
  | cons ref refs =>
    rw [hq] at h
    obtain ⟨⟨o', q'⟩, hfinish, h⟩ := bind_eq_ok.mp h
    unfold CommandQueue.finishRefresh at hfinish
    dsimp only at hfinish
    obtain ⟨hclk, hbook⟩ := startRefresh_spec config c ref
    generalize c.cmdQueue.startRefresh config ref = q₁ at hclk hbook hfinish
    obtain ⟨ready, hready, hfinish⟩ := bind_eq_ok.mp hfinish
    cases ready with
    | none =>
      obtain ⟨rfl, rfl⟩ := Prod.mk.inj (pure_eq_ok.mp hfinish)
      rcases getCommandToIssue_spec h with ⟨rfl, hrest⟩ | ⟨cmd, rfl, hsel⟩
      · exact Or.inl ⟨rfl, .head hbook hrest⟩
      · exact Or.inr ⟨cmd, rfl, fun c₂ hissue => .head hbook (.single (.issue hsel hissue))⟩
    | some cmd =>
      -- after a refresh the queues are open again
      have hend : ∃ index refQIndices isInRef, o' = some cmd ∧
          q' = { q₁ with queueIdx := index, refQIndices := refQIndices, isInRef := isInRef } := by
        dsimp only at hfinish
        split at hfinish
        · obtain ⟨rfl, rfl⟩ := Prod.mk.inj (pure_eq_ok.mp hfinish)
          exact ⟨_, _, _, rfl, rfl⟩
        · obtain ⟨rfl, rfl⟩ := Prod.mk.inj (pure_eq_ok.mp hfinish)
          exact ⟨_, _, _, rfl, rfl⟩
      obtain ⟨index, refQIndices, isInRef, rfl, rfl⟩ := hend
      obtain ⟨rfl, rfl⟩ := Prod.mk.inj (pure_eq_ok.mp h)
      exact Or.inr ⟨cmd, rfl, fun c₂ hissue =>
        .head hbook (.head (.book index refQIndices isInRef) (.single (.refresh hq hready hissue)))⟩

theorem issueSecond_atoms (hdual : config.enableHbmDualCmd = true) (hlast : c.trace.getLast? = some (c.clk, cmd))
    (h : c.issueSecond config cmd = .ok c') : Atoms config c c' := by
  obtain ⟨⟨o, c₁⟩, hget, h⟩ := bind_eq_ok.mp h
  rcases getCommandToIssue_spec hget with ⟨rfl, hrest⟩ | ⟨second, rfl, hsel⟩
  · obtain rfl := pure_eq_ok.mp h
    exact hrest
  · dsimp only at h
    split at h
    · exact .single (.issue hsel h)
    · rename_i hsame
      obtain rfl := pure_eq_ok.mp h
      by_cases hrw : second.cmdType.isReadWrite = true
      · exact .single (.lose hdual hlast ((not_not.mp hsame).symm.trans hrw) hrw hsel)
      · obtain ⟨index, hq⟩ := hsel.queue
        rw [if_neg hrw] at hq
        rw [hq]
        exact .single (atom_turn c index)

theorem issueCommands_atoms {issued : Bool} (h : c.issueCommands config = .ok (issued, c')) : Atoms config c c' := by
  obtain ⟨⟨o, c₁⟩, hselect, h⟩ := bind_eq_ok.mp h
  rcases selectCommand_atoms hselect with ⟨rfl, hrest⟩ | ⟨cmd, rfl, hissue⟩
  · obtain ⟨rfl, rfl⟩ := Prod.mk.inj (pure_eq_ok.mp h)
    exact hrest
  · obtain ⟨c₂, hc₂, h⟩ := bind_eq_ok.mp h
    refine (hissue c₂ hc₂).trans ?_
    split at h
    · rename_i hdual
      obtain ⟨c₃, hc₃, h⟩ := bind_eq_ok.mp h
      obtain ⟨rfl, rfl⟩ := Prod.mk.inj (pure_eq_ok.mp h)
      obtain ⟨hclk, htrace⟩ := issueCommand_trace hc₂
      exact issueSecond_atoms hdual (by rw [htrace, hclk, List.getLast?_concat]) hc₃
    · obtain ⟨rfl, rfl⟩ := Prod.mk.inj (pure_eq_ok.mp h)
      exact .refl

theorem updateSelfRefresh_atoms (hsref : config.enableSelfRefresh = true) {ranks : List Int}
    (hranks : ∀ i ∈ ranks, i ∈ upTo config.ranks) (h : c.updateSelfRefresh config ranks = .ok c') :
    Atoms config c c' := by
  induction ranks with
  | nil =>
    obtain rfl := Except.ok.inj h
    exact .refl
  | cons i ranks ih =>
    have hnext := ih fun j hj => hranks j (List.mem_cons_of_mem _ hj)
    unfold updateSelfRefresh at h
    dsimp only at h
    split at h
    · exact hnext h
    · rename_i t hwanted
      have ht : t = .srefEnter ∨ t = .srefExit := by
        split at hwanted
        · split at hwanted
          · cases hwanted
          · exact Or.inr (Option.some.inj hwanted).symm
        · split at hwanted
          · exact Or.inl (Option.some.inj hwanted).symm
          · cases hwanted
      obtain ⟨ready, hready, h⟩ := bind_eq_ok.mp h
      cases ready with
      | none => exact hnext h
      | some cmd => exact .single (.selfRefresh hsref (hranks i List.mem_cons_self) ht hready h)

/-- The calls of a tick, one after the other. -/
theorem clockTick_calls (h : c.clockTick config = .ok c') : 0 < Refresh.refreshInterval config ∧
    ∃ issued c₁ c₂, (c.tickRefresh config).issueCommands config = .ok (issued, c₁) ∧
      c₁.updatePower config issued = .ok c₂ ∧ (c₂.scheduleTransaction config).advance = c' := by
  obtain ⟨r, hrefresh, h⟩ := bind_eq_ok.mp h
  obtain ⟨⟨issued, c₁⟩, hissue, h⟩ := bind_eq_ok.mp h
  obtain ⟨c₂, hpower, h⟩ := bind_eq_ok.mp h
  have hc' := pure_eq_ok.mp h
  unfold Refresh.clockTick at hrefresh
  split at hrefresh
  · cases hrefresh
  · rename_i hinterval
    obtain rfl := Except.ok.inj hrefresh
    exact ⟨Nat.pos_of_ne_zero hinterval, issued, c₁, c₂, hissue, hpower, hc'⟩

theorem clockTick_atoms (h : c.clockTick config = .ok c') : Atoms config c c' := by
  obtain ⟨-, issued, c₁, c₂, hissue, hsref, rfl⟩ := clockTick_calls h
  have hself : Atoms config (c₁.updateIdleCycles config) c₂ := by
    unfold updatePower at hsref
    dsimp only at hsref
    split at hsref
    · rename_i hon
      exact updateSelfRefresh_atoms hon.1 (fun _ hi => hi) hsref
    · obtain rfl := Except.ok.inj hsref
      exact .refl
  exact .head .demand ((issueCommands_atoms hissue).trans (.head .idle (hself.trans (.head .schedule (.single .advance)))))

end

end Controller

end Dramsim3

end Anna
