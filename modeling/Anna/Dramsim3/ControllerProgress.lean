import Anna.Dramsim3.ControllerEffort

/-!
# Reads are done

Whatever happens in a tick of a controller that only has reads, it is nearer
to the end than before, unless a refresh has become due in it. So refreshes
that are further apart than the time one of them takes cannot keep the reads
waiting for ever.
-/

namespace Anna

namespace Dramsim3

namespace Controller

/-- The delays after refreshes are at most `f` and those after all other commands at most `m`, and refreshes are
further apart than the time that one of them takes. -/
structure Paced (config : Config) (m f n : Nat) : Prop where
  commands : ∀ t ∈ [.read, .readPrecharge, .write, .writePrecharge, .activate, .precharge], Timing.Short config t m
  refresh : Timing.Short config config.refreshType f
  window : (0 ≤ config.tFAW ∧ config.tFAW ≤ m) ∧ (config.isGDDR = true → 0 ≤ config.t32AW ∧ config.t32AW ≤ m)
  spaced : config.Spaced n
  room : 0 < config.cmdQueueSize
  seldom : refreshCost config m f < Refresh.refreshInterval config
  awake : config.enableSelfRefresh = false
  epoch : config.epochPeriod ≠ 0

theorem hbm2_paced : Paced Config.hbm2 48 260 32 where
  commands := by decide
  refresh := by decide
  window := by decide
  spaced := by decide
  room := by decide
  seldom := by decide
  awake := rfl
  epoch := by decide

section
variable {config : Config} {c c' : Controller} {cmd : Command} {m f n h v : Nat}

/-! ## Scheduling reads -/

theorem startDraining_eq (hr : ReadOnly c) : c.startDraining config = c := by
  unfold startDraining
  split
  · have hlen : (c.writeBuffer.length : Int) = c.writeDraining := by
      rw [hr.writeBuffer, hr.writeDraining]
      rfl
    rw [hlen]
  · rfl

/-- A read goes to its command queue, unless there is none or no room. -/
theorem schedule_cases (hf : Formed config c) (hr : ReadOnly c) :
    (c.scheduleTransaction config = c ∧
      (c.waiting = 0 ∨ ∃ a, c.cmdQueue.willAcceptCommand config (config.addressMapping a).bankId = false)) ∨
    ∃ it unified reads, it.isWrite = false ∧ unified ⊆ c.unifiedQueue ∧
      c.cmdQueue.willAcceptCommand config (transToCommand config it).addr.bankId = true ∧
      unified.length + reads.length + 1 = c.waiting ∧
      c.scheduleTransaction config = { c with
        cmdQueue := (c.cmdQueue.addCommand config (transToCommand config it)).2
        unifiedQueue := unified
        readQueue := reads } := by
  unfold scheduleTransaction waiting
  rw [startDraining_eq hr]
  dsimp only
  by_cases hu : config.unifiedQueue = true
  · rw [if_pos hu, (hf.unified hu).1]
    cases hq : c.unifiedQueue with
    | nil => exact Or.inl ⟨rfl, Or.inl rfl⟩
    | cons it queue =>
      dsimp only
      split
      · rename_i hroom
        refine Or.inr ⟨it, queue, [], hr.unifiedQueue it (hq ▸ List.mem_cons_self), List.subset_cons_self _ _, hroom, ?_, ?_⟩
        · rfl
        · rw [← (hf.unified hu).1]
      · rename_i hfull
        exact Or.inl ⟨rfl, Or.inr ⟨it.addr, Bool.not_eq_true _ ▸ hfull⟩⟩
  · have hsep := hf.separate (Bool.not_eq_true _ ▸ hu)
    rw [if_neg hu, if_neg (by rw [hr.writeDraining]; decide), hsep]
    cases hq : c.readQueue with
    | nil => exact Or.inl ⟨rfl, Or.inl rfl⟩
    | cons it queue =>
      dsimp only
      split
      · rename_i hroom
        refine Or.inr ⟨it, [], queue, hf.readQueue it (hq ▸ List.mem_cons_self), List.nil_subset _, hroom, ?_, ?_⟩
        · simp
        · rw [← hsep]
      · rename_i hfull
        exact Or.inl ⟨rfl, Or.inr ⟨it.addr, Bool.not_eq_true _ ▸ hfull⟩⟩

theorem transToCommand_isRead {it : Transaction} (h : it.isWrite = false) :
    (transToCommand config it).cmdType.isRead = true := by
  unfold transToCommand
  rw [h]
  cases config.rowBufPolicy <;> rfl

theorem ReadOnly.scheduled (hf : Formed config c) (hr : ReadOnly c) : ReadOnly (c.scheduleTransaction config) := by
  rcases schedule_cases hf hr with ⟨heq, -⟩ | ⟨it, unified, reads, hit, hsub, hroom, -, heq⟩
  · rw [heq]
    exact hr
  · rw [heq, addCommand_eq hroom]
    refine ⟨fun i cmd hcmd => ?_, fun t ht => hr.unifiedQueue t (hsub ht), hr.writeBuffer, hr.writeDraining⟩
    dsimp only at hcmd
    by_cases hi : i = CommandQueue.getQueueIndex config (transToCommand config it).addr.bankId
    · rw [hi, Function.update_self] at hcmd
      rcases List.mem_append.mp hcmd with hcmd | hcmd
      · exact hr.queued _ cmd hcmd
      · rw [List.mem_singleton.mp hcmd]
        exact transToCommand_isRead hit
    · rw [Function.update_of_ne hi] at hcmd
      exact hr.queued i cmd hcmd

theorem ReadOnly.frame (hr : ReadOnly c) (hqueues : ∀ i, c'.cmdQueue.queues i ⊆ c.cmdQueue.queues i)
    (hunified : c'.unifiedQueue = c.unifiedQueue) (hbuffer : c'.writeBuffer = c.writeBuffer)
    (hdraining : c'.writeDraining = c.writeDraining) : ReadOnly c' :=
  ⟨fun i cmd hcmd => hr.queued i cmd (hqueues i hcmd), fun t ht => hr.unifiedQueue t (hunified ▸ ht),
    hbuffer.trans hr.writeBuffer, hdraining.trans hr.writeDraining⟩

theorem ReadOnly.issued (hr : ReadOnly c) (hi : Issued config cmd c c') : ReadOnly c' := by
  rw [hi.eq]
  exact hr.frame (fun _ => List.Subset.refl _) rfl rfl rfl

theorem ReadOnly.selected (hr : ReadOnly c) (hsel : Selected config c cmd c') : ReadOnly c' := by
  obtain ⟨q, rfl, -, hqueues, -⟩ := hsel.frame
  exact hr.frame (fun i => (hqueues i).subset) rfl rfl rfl

theorem ReadOnly.atom (hf : Formed config c) (hr : ReadOnly c) (step : Atom config c c') : ReadOnly c' := by
  cases step with
  | demand =>
    rw [tickRefresh_eq]
    exact ⟨hr.queued, hr.unifiedQueue, hr.writeBuffer, hr.writeDraining⟩
  | book => exact ⟨hr.queued, hr.unifiedQueue, hr.writeBuffer, hr.writeDraining⟩
  | issue hsel hissue => exact (hr.selected hsel).issued (issueCommand_spec hissue)
  | lose _ _ _ _ hsel => exact hr.selected hsel
  | refresh _ _ hissue => exact hr.issued (issueCommand_spec hissue)
  | selfRefresh _ _ _ _ hissue => exact hr.issued (issueCommand_spec hissue)
  | idle => exact ⟨hr.queued, hr.unifiedQueue, hr.writeBuffer, hr.writeDraining⟩
  | schedule => exact hr.scheduled hf
  | advance => exact ⟨hr.queued, hr.unifiedQueue, hr.writeBuffer, hr.writeDraining⟩

theorem Steady.atoms (hmap : config.Mapped) (hsref : config.enableSelfRefresh = false) (hs : Steady config c)
    (steps : Atoms config c c') : Steady config c' :=
  steps.invariant (fun hc step =>
    ⟨hc.sound.atom hmap hsref step, hc.reads.atom hc.sound.formed step, hc.inOrder.atom hmap hsref hc.sound step,
      hc.recorded.atom hc.sound.formed step, hc.placed.atom hmap hc.sound.formed step⟩) hs

theorem schedule_effort (hmap : config.Mapped) (hs : Steady config c) :
    (c.scheduleTransaction config = c ∧
      (c.waiting = 0 ∨ ∃ a, c.cmdQueue.willAcceptCommand config (config.addressMapping a).bankId = false)) ∨
    effort config m f (c.scheduleTransaction config) + (m + 1) * 1 ≤ effort config m f c := by
  rcases schedule_cases hs.sound.formed hs.reads with hstays | ⟨it, unified, reads, hit, -, hroom, hlen, heq⟩
  · exact Or.inl hstays
  · refine Or.inr ?_
    have hb : config.HasBank (transToCommand config it).addr.bankId := hmap.bank it.addr
    have hqueues : (c.scheduleTransaction config).cmdQueue.queues =
        Function.update c.cmdQueue.queues (CommandQueue.getQueueIndex config (transToCommand config it).addr.bankId)
          (c.cmdQueue.queues (CommandQueue.getQueueIndex config (transToCommand config it).addr.bankId) ++
            [transToCommand config it]) := by
      rw [heq, addCommand_eq hroom]
    have hin : (c.scheduleTransaction config).cmdQueue.isInRef = c.cmdQueue.isInRef := by
      rw [heq, addCommand_eq hroom]
    have hch : (c.scheduleTransaction config).channelState = c.channelState := by rw [heq]
    have hwaiting : waiting (c.scheduleTransaction config) + 1 = waiting c := by
      rw [heq]
      exact hlen
    generalize c.scheduleTransaction config = c' at hqueues hin hch hwaiting ⊢
    generalize transToCommand config it = cmd at hb hqueues
    have hfront : ∀ b', config.HasBank b' → b' ≠ cmd.addr.bankId →
        c'.cmdQueue.front config b' = c.cmdQueue.front config b' ∧ c'.channelState.row b' = c.channelState.row b' := by
      intro b' _ hne
      refine ⟨?_, by rw [hch]⟩
      unfold CommandQueue.front
      rw [hqueues]
      by_cases hi : CommandQueue.getQueueIndex config b' = CommandQueue.getQueueIndex config cmd.addr.bankId
      · rw [hi, Function.update_self, List.find?_append]
        simp [Ne.symm hne]
      · rw [Function.update_of_ne hi]
    have hmissed := missed_single c c' hb hfront
    have hle := misses_le config c' cmd.addr.bankId
    have hqueued : queued config c' = queued config c + 1 := by
      have hsum := queued_single c c' hb fun i hne => by
        rw [hqueues, Function.update_of_ne hne]
      rw [hqueues, Function.update_self, List.length_append, List.length_singleton] at hsum
      omega
    have hclosing : closing config c' = closing config c := by
      unfold closing
      rw [hin, hch]
    refine effort_work (by rw [hch]) hin ?_
    omega

/-! ## What is left -/

/-- What there is left to do and the time that banks wait are at most `v`. -/
def Bounded (config : Config) (m f v : Nat) (c : Controller) : Prop :=
  ∃ h, c.channelState.Calm config c.clk h ∧ effort config m f c + h ≤ v

theorem Bounded.frame {w : Nat} (hc : Bounded config m f v c) (hch : c'.channelState.bankStates = c.channelState.bankStates ∧
    c'.channelState.fourAw = c.channelState.fourAw ∧ c'.channelState.thirtyTwoAw = c.channelState.thirtyTwoAw)
    (hclk : c'.clk = c.clk) (heffort : effort config m f c' + v ≤ effort config m f c + w) :
    Bounded config m f w c' := by
  obtain ⟨h, hcalm, hle⟩ := hc
  refine ⟨h, ⟨?_, ?_, ?_⟩, by omega⟩
  · rw [hch.1, hclk]
    exact hcalm.timing
  · rw [hch.2.1, hclk]
    exact hcalm.fourAw
  · rw [hch.2.2, hclk]
    exact hcalm.thirtyTwoAw

theorem Bounded.mono {w : Nat} (hc : Bounded config m f v c) (hle : v ≤ w) : Bounded config m f w c := by
  obtain ⟨h, hcalm, hv⟩ := hc
  exact ⟨h, hcalm, Nat.le_trans hv hle⟩

/-- A command takes away more than it makes banks wait. -/
theorem Bounded.issued {k : Nat} (hc : Bounded config m f v c) (hrank : cmd.addr.rank ∈ upTo config.ranks)
    (hshort : Timing.Short config cmd.cmdType k)
    (hwindow : cmd.cmdType = .activate → (0 ≤ config.tFAW ∧ config.tFAW ≤ k) ∧
      (config.isGDDR = true → 0 ≤ config.t32AW ∧ config.t32AW ≤ k))
    (he : Executed config c.clk cmd c.channelState c'.channelState) (hclk : c'.clk = c.clk)
    (heffort : effort config m f c' + (k + 1) ≤ effort config m f c) : ∃ w < v, Bounded config m f w c' := by
  obtain ⟨h, hcalm, hle⟩ := hc
  refine ⟨effort config m f c' + max h k, by omega, max h k, ?_, Nat.le_refl _⟩
  rw [hclk]
  exact hcalm.executed hrank hshort hwindow he

theorem mem_commands (hc : cmd.cmdType.isRead = true ∨ cmd.cmdType = .activate ∨ cmd.cmdType = .precharge) :
    cmd.cmdType ∈ [.read, .readPrecharge, .write, .writePrecharge, .activate, .precharge] := by
  rcases hc with hc | hc | hc
  · rcases CommandQueue.isRead_cases hc with hc | hc <;> rw [hc] <;> decide
  · rw [hc]
    decide
  · rw [hc]
    decide

section
variable (hmap : config.Mapped) (hp : Paced config m f n)
include hmap hp

theorem Brisk.queue_less (hb : Brisk config c) (hv : Bounded config m f v c) {c₁ : Controller}
    (hget : c.getCommandToIssue config = .ok (some cmd, c₁)) (hissue : c₁.issueCommand config cmd = .ok c') :
    ∃ w < v, Bounded config m f w c' := by
  obtain ⟨⟨o, q⟩, hfrom, hget⟩ := bind_eq_ok.mp hget
  obtain ⟨rfl, rfl⟩ := Prod.mk.inj (pure_eq_ok.mp hget)
  obtain ⟨i, -, ⟨hnone, -⟩ | ⟨cmd', hsome, hopen, hfirst, hq⟩⟩ :=
    CommandQueue.issueFrom_some (numQueues_pos hmap) hb.booked.turn hfrom
  · cases hnone
  · obtain rfl := Option.some.inj hsome
    obtain ⟨req, pre, after, hpicked⟩ := picked_of_first hmap hb hopen hfirst
    have hissued := issueCommand_spec hissue
    have hdemand := hpicked.demand hb
    have heffort : effort config m f c' + (m + 1) * 1 ≤ effort config m f c := by
      rcases hdemand with hread | hrow
      · rw [if_pos (by simp [CommandType.isReadWrite, hread])] at hq
        exact hpicked.read_effort hb hread hq hissued
      · rw [if_neg (by rcases hrow with hc | hc <;> rw [hc] <;> decide)] at hq
        exact hpicked.row_effort hb hrow (by rw [hq]) (by rw [hq]) hissued
    rw [Nat.mul_one] at heffort
    exact hv.issued hpicked.rank_mem (hp.commands _ (mem_commands hdemand)) (fun _ => hp.window) hissued.executed
      hissued.parts.2.2.1 heffort

theorem Brisk.queue_same (hb : Brisk config c) (hv : Bounded config m f v c) {o : Option Command}
    (hget : c.getCommandToIssue config = .ok (o, c'))
    (ho : ∀ cmd, o = some cmd → cmd.cmdType.isReadWrite = false) :
    Brisk config c' ∧ Bounded config m f v c' ∧ c'.cmdQueue.queues = c.cmdQueue.queues := by
  have hasked := hb.booked.asked hget
  obtain ⟨⟨o', q⟩, hfrom, hget⟩ := bind_eq_ok.mp hget
  obtain ⟨rfl, rfl⟩ := Prod.mk.inj (pure_eq_ok.mp hget)
  obtain ⟨i, -, hcase⟩ := CommandQueue.issueFrom_some (numQueues_pos hmap) hb.booked.turn hfrom
  have hq : q = { c.cmdQueue with queueIdx := i } := by
    rcases hcase with ⟨-, hq⟩ | ⟨cmd, hsome, -, -, hq⟩
    · exact hq
    · rw [if_neg (by simp [ho cmd hsome])] at hq
      exact hq
  subst hq
  refine ⟨⟨hb.toSteady.atoms hmap hp.awake (.single (atom_turn c i)), hasked⟩, ?_, rfl⟩
  exact hv.frame ⟨rfl, rfl, rfl⟩ rfl (Nat.le_refl _)

theorem Brisk.start (hb : Brisk config c) (hv : Bounded config m f v c) {ref : Command} {refs : List Command}
    (hq : c.channelState.refreshQ = ref :: refs) :
    Brisk config { c with cmdQueue := c.cmdQueue.startRefresh config ref } ∧
      Bounded config m f v { c with cmdQueue := c.cmdQueue.startRefresh config ref } := by
  have hsteady := hb.toSteady.atoms hmap hp.awake (.single (startRefresh_spec config c ref).2)
  refine ⟨⟨hsteady, (hb.booked.start hq).1⟩, ?_⟩
  unfold CommandQueue.startRefresh
  split
  · exact hv
  · rename_i hin
    have hin : c.cmdQueue.isInRef = false := Bool.not_eq_true _ ▸ hin
    have hle := start_effort (m := m) (f := f) (Config.Mapped.banks_pos hmap) hq hin
      (c.cmdQueue.refQIndices ++ CommandQueue.getRefQIndices config ref)
    refine hv.frame ?_ ?_ (Nat.add_le_add_right hle v)
    · exact ⟨rfl, rfl, rfl⟩
    · rfl

/-- A command that is issued brings the end closer. -/
theorem Brisk.chosen_less (hb : Brisk config c) (hv : Bounded config m f v c) {c₁ : Controller}
    (hchoice : Choice config c (some cmd) c₁) (hissue : c₁.issueCommand config cmd = .ok c') :
    ∃ w < v, Bounded config m f w c' := by
  cases hchoice with
  | queues hq hget => exact hb.queue_less hmap hp hv hget hissue
  | waits hq hready hget =>
    obtain ⟨hb₁, hv₁⟩ := hb.start hmap hp hv hq
    exact hb₁.queue_less hmap hp hv₁ hget hissue
  | @closes ref refs _ hq hready hc =>
    obtain ⟨hb₁, hv₁⟩ := hb.start hmap hp hv hq
    have href : ref ∈ c.channelState.refreshQ := hq ▸ List.mem_cons_self
    rcases hb.sound.refresh_ready href hready with ⟨rfl, hrefresh⟩ | ⟨hpre, htouched⟩
    · rw [hc] at hrefresh
      cases hrefresh
    · have hissued := issueCommand_spec hissue
      have heffort := close_effort (m := m) (f := f) hb₁ hq (hb.booked.start hq).2 htouched hpre hissued
      rw [Nat.mul_one] at heffort
      have hrank := mem_upTo.mpr (hb.sound.formed.touched_hasBank href htouched).rank
      exact hv₁.issued hrank (hp.commands _ (mem_commands (Or.inr (Or.inr hpre)))) (fun _ => hp.window)
        hissued.executed hissued.parts.2.2.1 heffort
  | @refreshes ref refs _ hq hready hc =>
    obtain ⟨hb₁, hv₁⟩ := hb.start hmap hp hv hq
    have href : ref ∈ c.channelState.refreshQ := hq ▸ List.mem_cons_self
    rcases hb.sound.refresh_ready href hready with ⟨rfl, -⟩ | ⟨hpre, -⟩
    · have hissued := issueCommand_spec hissue
      have heffort := refresh_effort (m := m) (f := f)
        (c := { c with cmdQueue := c.cmdQueue.startRefresh config cmd }) hq (hb.booked.start hq).2 hc hissued
      refine hv₁.issued (k := f) (hb.sound.formed.refresh_rank href) ?_ (fun hact => ?_) hissued.executed hissued.parts.2.2.1 heffort
      · rw [hb.inOrder.cmdType href]
        exact hp.refresh
      · rw [hact] at hc
        cases hc
    · rw [hpre] at hc
      cases hc

/-- Where nothing has to wait, nothing is selected only if there is nothing. -/
theorem Brisk.chosen_none (hb : Brisk config c) (hv : Bounded config m f v c) (hchoice : Choice config c none c') :
    Brisk config c' ∧ Bounded config m f v c' ∧
      (c'.channelState.Calm config c'.clk 0 → ∀ j ∈ upTo (CommandQueue.numQueues config), c'.cmdQueue.queues j = []) := by
  cases hchoice with
  | queues hq hget =>
    obtain ⟨hb', hv', hqueues⟩ := hb.queue_same hmap hp hv hget (fun _ hnone => by cases hnone)
    refine ⟨hb', hv', fun hcalm j hj => ?_⟩
    obtain ⟨⟨o, q⟩, hfrom, hget⟩ := bind_eq_ok.mp hget
    obtain ⟨rfl, rfl⟩ := Prod.mk.inj (pure_eq_ok.mp hget)
    rw [hqueues]
    rcases CommandQueue.getCommandToIssue_none (numQueues_pos hmap) hb.booked.turn hfrom hj with ⟨hin, -⟩ | hnone
    · obtain ⟨ref, refs, hcons, -⟩ := hb.booked.closed hin
      rw [hq] at hcons
      cases hcons
    · rw [hb.sound.formed.clk] at hnone
      refine CommandQueue.eq_nil_of_calm (hb.reads.queued j) (fun g hg => ?_) hcalm hb.sound.awake hnone
      rw [hb.sound.formed.addr_eq hg]
      exact hmap.bank g.hexAddr
  | @waits ref refs _ _ hq hready hget =>
    obtain ⟨hb₁, hv₁⟩ := hb.start hmap hp hv hq
    obtain ⟨hb', hv', -⟩ := hb₁.queue_same hmap hp hv₁ hget (fun _ hnone => by cases hnone)
    refine ⟨hb', hv', fun hcalm => ?_⟩
    obtain ⟨q, rfl⟩ := getCommandToIssue_eq hget
    -- a refresh that has nothing to wait for is ready
    have href : ref ∈ c.channelState.refreshQ := hq ▸ List.mem_cons_self
    obtain ⟨hreach, hplain⟩ := hb.sound.formed.refresh_reaches href
    obtain ⟨cmd, hsome⟩ := getReadyCommand_ready hreach (Config.Mapped.banks_pos hmap) hcalm hb.sound.awake hplain
    have hsame : (.ok none : Except Exit (Option Command)) = .ok (some cmd) := hready.symm.trans hsome
    cases hsame

theorem Brisk.second (hb : Brisk config c) (hv : Bounded config m f v c) (hbound : c.clk + n < 2 ^ 64) {first : Command}
    (hlast : c.trace.getLast? = some (c.clk, first)) (hsecond : c.issueSecond config first = .ok c') :
    Bounded config m f v c' := by
  obtain ⟨⟨o, c₁⟩, hget, hsecond⟩ := bind_eq_ok.mp hsecond
  cases o with
  | none =>
    obtain rfl := pure_eq_ok.mp hsecond
    exact (hb.queue_same hmap hp hv hget (fun _ hnone => by cases hnone)).2.1
  | some cmd =>
    dsimp only at hsecond
    split at hsecond
    · obtain ⟨w, hw, hless⟩ := hb.queue_less hmap hp hv hget hsecond
      exact hless.mono (Nat.le_of_lt hw)
    · rename_i hsame
      obtain rfl := pure_eq_ok.mp hsecond
      refine (hb.queue_same hmap hp hv hget ?_).2.1
      rintro cmd' ⟨⟩
      by_contra hrw
      have hrw : cmd.cmdType.isReadWrite = true := Bool.not_eq_false _ ▸ hrw
      rcases getCommandToIssue_spec hget with ⟨hnone, -⟩ | ⟨cmd', hsome, hsel⟩
      · cases hnone
      · obtain rfl := Option.some.inj hsome
        exact hb.recorded.not_selected hmap hp.spaced hb.sound.formed hb.placed hbound hlast
          ((not_not.mp hsame).symm.trans hrw) hrw hsel

end

/-! ## Ticks -/

structure Idle (config : Config) (c : Controller) : Prop where
  waiting : c.waiting = 0
  queues : ∀ j ∈ upTo (CommandQueue.numQueues config), c.cmdQueue.queues j = []

theorem Bounded.advance (hv : Bounded config m f v c) : Bounded config m f v c.advance := by
  obtain ⟨h, hcalm, hle⟩ := hv
  have heffort : effort config m f c.advance = effort config m f c := rfl
  refine ⟨h - 1, hcalm.advance, ?_⟩
  omega

theorem Bounded.idleCycles (hv : Bounded config m f v c) : Bounded config m f v (c.updateIdleCycles config) :=
  hv.frame ⟨rfl, rfl, rfl⟩ rfl (Nat.le_refl _)

theorem Bounded.schedule (hmap : config.Mapped) (hs : Steady config c) (hv : Bounded config m f v c) :
    Bounded config m f v (c.scheduleTransaction config) := by
  rcases schedule_effort (m := m) (f := f) hmap hs with ⟨heq, -⟩ | hless
  · rw [heq]
    exact hv
  · have hs := scheduleTransaction_spec config c
    generalize c.scheduleTransaction config = c' at hs hless ⊢
    have hle : effort config m f c' + v ≤ effort config m f c + v := by omega
    cases hs <;> exact hv.frame ⟨rfl, rfl, rfl⟩ rfl hle

/-- In the end of a tick without a command the banks have waited, or the next read is scheduled. -/
theorem Steady.rest_less (hmap : config.Mapped) (hroom : 0 < config.cmdQueueSize) (hs : Steady config c)
    (hv : Bounded config m f v c)
    (hnone : c.channelState.Calm config c.clk 0 → ∀ j ∈ upTo (CommandQueue.numQueues config), c.cmdQueue.queues j = []) :
    Idle config (c.scheduleTransaction config).advance ∨
      ∃ w < v, Bounded config m f w (c.scheduleTransaction config).advance := by
  obtain ⟨h, hcalm, hle⟩ := hv
  have hch : (c.scheduleTransaction config).channelState = c.channelState ∧ (c.scheduleTransaction config).clk = c.clk := by
    rw [scheduleTransaction_eq]
    exact ⟨rfl, rfl⟩
  have hafter : (c.scheduleTransaction config).advance.channelState.Calm config
      (c.scheduleTransaction config).advance.clk (h - 1) := by
    have hadvance := hcalm.advance
    rw [← hch.1, ← hch.2] at hadvance
    exact hadvance
  have heffort : effort config m f (c.scheduleTransaction config).advance =
      effort config m f (c.scheduleTransaction config) := rfl
  rcases schedule_effort (m := m) (f := f) hmap hs with ⟨heq, hstays⟩ | hless
  · by_cases hzero : h = 0
    · subst hzero
      have hqueues := hnone hcalm
      rcases hstays with hwaiting | ⟨a, hfull⟩
      · refine Or.inl ⟨?_, ?_⟩
        · rw [heq]
          exact hwaiting
        · rw [heq]
          exact hqueues
      · unfold CommandQueue.willAcceptCommand at hfull
        rw [hqueues _ (getQueueIndex_mem (hmap.bank a)), List.length_nil] at hfull
        exact absurd hroom (of_decide_eq_false hfull)
    · rw [heq] at hafter heffort ⊢
      exact Or.inr ⟨effort config m f c.advance + (h - 1), by omega, h - 1, hafter, Nat.le_refl _⟩
  · refine Or.inr ⟨effort config m f (c.scheduleTransaction config).advance + (h - 1), by omega, h - 1, hafter, ?_⟩
    exact Nat.le_refl _

/-- In a tick what is left falls, up to the refresh that it may have demanded. -/
theorem Brisk.tick (hmap : config.Mapped) (hp : Paced config m f n) (hb : Brisk config c)
    (hv : Bounded config m f v c) (hbound : c.clk + n < 2 ^ 64) (htick : c.clockTick config = .ok c') :
    Brisk config c' ∧ (Idle config c' ∨
      ∃ w < v + if Due config c.refresh then refreshCost config m f else 0, Bounded config m f w c') := by
  have hsteps := clockTick_atoms htick
  refine ⟨⟨hb.toSteady.atoms hmap hp.awake hsteps, hb.booked.tick hmap hp.awake hb.sound htick⟩, ?_⟩
  have hb₀ : Brisk config (c.tickRefresh config) :=
    ⟨hb.toSteady.atoms hmap hp.awake (.single .demand), hb.booked.demand⟩
  have hclk₀ : (c.tickRefresh config).clk = c.clk := rfl
  have hv₀ : Bounded config m f (v + if Due config c.refresh then refreshCost config m f else 0) (c.tickRefresh config) := by
    have hle := demand_effort (m := m) (f := f) hb.booked
    refine hv.frame ?_ hclk₀ (by omega)
    rw [tickRefresh_eq]
    exact ⟨rfl, rfl, rfl⟩
  generalize (v + if Due config c.refresh then refreshCost config m f else 0) = u at hv₀ ⊢
  obtain ⟨c₃, rfl, hchoice | ⟨cmd, c₁, c₂, hchoice, hissue, hsteps₂, hlast, hsecond⟩⟩ :=
    clockTick_cases hp.awake hb₀.sound.formed htick
  · obtain ⟨hb₃, hv₃, hnone⟩ := hb₀.chosen_none hmap hp hv₀ hchoice
    have hs₄ := hb₃.toSteady.atoms hmap hp.awake (.single .idle)
    exact hs₄.rest_less hmap hp.room hv₃.idleCycles
      fun hcalm => hnone ⟨hcalm.timing, hcalm.fourAw, hcalm.thirtyTwoAw⟩
  · refine Or.inr ?_
    obtain ⟨w, hw, hv₂⟩ := hb₀.chosen_less hmap hp hv₀ hchoice hissue
    have hb₂ : Brisk config c₂ :=
      ⟨hb₀.toSteady.atoms hmap hp.awake hsteps₂, (hb₀.booked.chosen hb₀.sound hchoice).2 cmd rfl c₂ hissue⟩
    have hclk₂ : c₂.clk = c.clk := (issueCommand_trace hissue).1.trans hchoice.clk_eq
    have hv₃ : Steady config c₃ ∧ Bounded config m f w c₃ := by
      rcases hsecond with rfl | ⟨hsecond, hsteps₃⟩
      · exact ⟨hb₂.toSteady, hv₂⟩
      · exact ⟨hb₂.toSteady.atoms hmap hp.awake hsteps₃,
          hb₂.second hmap hp hv₂ (by rw [hclk₂]; exact hbound) hlast hsecond⟩
    have hs₄ := hv₃.1.atoms hmap hp.awake (.single .idle)
    exact ⟨w, hw, (hv₃.2.idleCycles.schedule hmap hs₄).advance⟩

/-! ## Runs -/

theorem Brisk.returned (hb : Brisk config c) (l : List Transaction) : Brisk config { c with returnQueue := l } where
  sound := hb.sound.returned l
  reads := hb.reads.frame (fun _ => List.Subset.refl _) rfl rfl rfl
  inOrder := ⟨hb.inOrder.awake, hb.inOrder.due, hb.inOrder.order⟩
  recorded := hb.recorded
  placed := hb.placed
  booked := hb.booked.frame hb.booked.turn rfl rfl rfl

/-- What is left, with the refreshes that become due on the way, is at most `u`. -/
structure Left (config : Config) (m f u : Nat) (c : Controller) : Prop where
  brisk : Brisk config c
  bounded : ∃ v, Bounded config m f v c ∧
    Refresh.refreshInterval config * v + refreshCost config m f *
      ((c.refresh.clk + (Refresh.refreshInterval config - 1)) % Refresh.refreshInterval config) ≤ u

theorem Left.returned {u : Nat} (hl : Left config m f u c) (l : List Transaction) :
    Left config m f u { c with returnQueue := l } := by
  obtain ⟨v, hv, hle⟩ := hl.bounded
  exact ⟨hl.brisk.returned l, v, hv.frame ⟨rfl, rfl, rfl⟩ rfl (Nat.le_refl _), hle⟩

/-- Between two refreshes more is done than a refresh costs. -/
theorem interval_falls {t r v w k : Nat} (hr : r < t)
    (hw : w < v + if k % t = 0 ∧ 0 < k then r else 0) :
    t * w + r * ((k + 1 + (t - 1)) % t) + (t - r) ≤ t * v + r * ((k + (t - 1)) % t) := by
  have hnext : (k + 1 + (t - 1)) % t = k % t := by
    rw [show k + 1 + (t - 1) = k + t by omega, Nat.add_mod_right]
  rw [hnext]
  by_cases hzero : k % t = 0
  · have hlast : (k + (t - 1)) % t = t - 1 := by
      rw [Nat.add_mod, hzero, Nat.zero_add, Nat.mod_mod, Nat.mod_eq_of_lt (by omega)]
    rw [hlast, hzero, Nat.mul_zero, Nat.add_zero]
    have hle : w + 1 ≤ v + r := by
      split at hw
      · exact hw
      · omega
    have hmul : t * (w + 1) ≤ t * (v + r) := Nat.mul_le_mul_left _ hle
    have hsub : r * (t - 1) + r = t * r := by
      rw [← Nat.mul_succ, Nat.succ_eq_add_one, show t - 1 + 1 = t by omega, Nat.mul_comm]
    rw [Nat.mul_add, Nat.mul_one, Nat.mul_add] at hmul
    omega
  · rw [if_neg fun h => hzero h.1] at hw
    have hbefore : (k + (t - 1)) % t + 1 = k % t := by
      have hk := Nat.mod_add_div k t
      have hlt := Nat.mod_lt k (show 0 < t by omega)
      have hsplit : k + (t - 1) = (k % t - 1) + t * (k / t + 1) := by
        rw [Nat.mul_succ]
        omega
      rw [hsplit, Nat.add_mul_mod_self_left, Nat.mod_eq_of_lt (by omega)]
      omega
    have hmul : t * (w + 1) ≤ t * v := Nat.mul_le_mul_left _ hw
    rw [Nat.mul_succ] at hmul
    rw [← hbefore, Nat.mul_succ]
    omega

theorem Left.tick (hmap : config.Mapped) (hp : Paced config m f n) {u : Nat} (hl : Left config m f u c)
    (hbound : c.clk + n < 2 ^ 64) (htick : c.clockTick config = .ok c') :
    Brisk config c' ∧ (Idle config c' ∨
      ∃ u', u' + (Refresh.refreshInterval config - refreshCost config m f) ≤ u ∧ Left config m f u' c') := by
  obtain ⟨v, hv, hle⟩ := hl.bounded
  obtain ⟨hb', hidle | ⟨w, hw, hv'⟩⟩ := hl.brisk.tick hmap hp hv hbound htick
  · exact ⟨hb', Or.inl hidle⟩
  · have hclk : c'.refresh.clk = c.refresh.clk + 1 := by
      rw [(clockTick_clocks htick).2, tickRefresh_eq]
    have hfalls := interval_falls hp.seldom hw
    rw [← hclk] at hfalls
    exact ⟨hb', Or.inr ⟨_, Nat.le_trans hfalls hle, hb', w, hv', Nat.le_refl _⟩⟩

end

end Controller

end Dramsim3

end Anna
