import Anna.Dramsim3.ControllerBooked
import Anna.Dramsim3.PendingSound
import Anna.Lib.Sums

/-!
# Reads get on

A controller that is only asked for reads and is given no more of them issues
all it has: every command and every cycle of waiting uses up some of what
there is left to do (`effort`). A refresh adds to it, but less than is used up
until the next one.
-/

namespace Anna

namespace Dramsim3

/-! ## Rows -/

def ChannelState.row (ch : ChannelState) (b : BankId) : Option Int :=
  if (ch.bankStates b).state = .opened then some (ch.bankStates b).openRow else none

section
variable {config : Config} {ch ch' : ChannelState} {cmd : Command} {clk : Nat} {b : BankId}

theorem CommandType.isRefresh_cases {t : CommandType} (h : t.isRefresh = true) : t = .refresh ∨ t = .refreshBank := by
  cases t <;> simp_all [CommandType.isRefresh]

theorem BankState.wait_state (s : BankState) (l : List (CommandType × Int)) (clk : Nat) :
    (s.wait l clk).state = s.state ∧ (s.wait l clk).openRow = s.openRow := by
  rw [BankState.wait_eq]
  exact ⟨rfl, rfl⟩

theorem Executed.row_other (he : Executed config clk cmd ch ch') (hb : config.HasBank b)
    (hnot : b ∉ config.touched cmd) : ch'.row b = ch.row b := by
  have hw := BankState.wait_state (ch.bankStates b) (Timing.after config cmd b) clk
  unfold ChannelState.row
  rw [he.others b hnot hb, hw.1, hw.2]

theorem Executed.row_single (he : Executed config clk cmd ch ch') {bank : BankId} (htouched : config.touched cmd = [bank])
    (hb : config.HasBank b) (hne : b ≠ bank) : ch'.row b = ch.row b := by
  refine he.row_other hb ?_
  rw [htouched]
  exact fun hmem => hne (List.mem_singleton.mp hmem)

theorem Executed.row_touched (he : Executed config clk cmd ch ch') (hb : config.HasBank b)
    (htouched : b ∈ config.touched cmd) : ∃ s, (ch.bankStates b).updateState cmd = .ok s ∧
      ch'.row b = if s.state = .opened then some s.openRow else none := by
  obtain ⟨s, hs, heq⟩ := he.touched b htouched hb
  have hw := BankState.wait_state s (Timing.after config cmd b) clk
  refine ⟨s, hs, ?_⟩
  unfold ChannelState.row
  rw [heq, hw.1, hw.2]

theorem Executed.row_activate (he : Executed config clk cmd ch ch') (hb : config.HasBank b)
    (htouched : b ∈ config.touched cmd) (hc : cmd.cmdType = .activate) :
    ch.row b = none ∧ ch'.row b = some cmd.addr.row := by
  obtain ⟨s, hs, hrow⟩ := he.row_touched hb htouched
  unfold BankState.updateState at hs
  unfold ChannelState.row
  cases hstate : (ch.bankStates b).state <;> simp only [hstate, hc] at hs <;> cases hs
  exact ⟨by simp, hrow⟩

theorem Executed.row_precharge (he : Executed config clk cmd ch ch') (hb : config.HasBank b)
    (htouched : b ∈ config.touched cmd) (hc : cmd.cmdType = .precharge) :
    (ch.row b).isSome = true ∧ ch'.row b = none := by
  obtain ⟨s, hs, hrow⟩ := he.row_touched hb htouched
  unfold BankState.updateState at hs
  unfold ChannelState.row
  cases hstate : (ch.bankStates b).state <;> simp only [hstate, hc] at hs <;> cases hs
  exact ⟨by simp, hrow⟩

theorem Executed.row_refresh (he : Executed config clk cmd ch ch') (hb : config.HasBank b)
    (hc : cmd.cmdType.isRefresh = true) : ch'.row b = ch.row b ∧ (b ∈ config.touched cmd → ch.row b = none) := by
  by_cases htouched : b ∈ config.touched cmd
  · obtain ⟨s, hs, hrow⟩ := he.row_touched hb htouched
    have hsame : s = ch.bankStates b ∧ (ch.bankStates b).state = .closed := by
      unfold BankState.updateState at hs
      rcases CommandType.isRefresh_cases hc with ht | ht <;> cases hstate : (ch.bankStates b).state <;>
        simp only [hstate, ht] at hs <;> cases hs <;> exact ⟨rfl, rfl⟩
    rw [hrow, hsame.1]
    refine ⟨rfl, fun _ => ?_⟩
    unfold ChannelState.row
    rw [hsame.2]
    rfl
  · exact ⟨he.row_other hb htouched, fun h => absurd h htouched⟩

end

/-! ## What is left to do -/

def Config.allBanks (config : Config) : List BankId := (upTo config.ranks).flatMap config.banksOfRank

theorem mem_allBanks {config : Config} {b : BankId} : b ∈ config.allBanks ↔ config.HasBank b := by
  unfold Config.allBanks
  rw [List.mem_flatMap]
  constructor
  · rintro ⟨rank, hrank, hb⟩
    exact hasBank_of_rank hrank hb
  · intro hb
    exact ⟨b.rank, mem_upTo.mpr hb.rank, hb.mem⟩

theorem nodup_allBanks (config : Config) : config.allBanks.Nodup := by
  refine List.nodup_flatMap.mpr ⟨fun rank _ => nodup_banksOfRank config rank, ?_⟩
  refine (nodup_upTo _).imp fun {i j} hne b hb hb' => ?_
  exact hne ((mem_banksOfRank.mp hb).1.symm.trans (mem_banksOfRank.mp hb').1)

def CommandQueue.front (config : Config) (q : CommandQueue) (b : BankId) : Option Command :=
  (q.queues (getQueueIndex config b)).find? fun cmd => cmd.addr.bankId = b

namespace Controller

/-- The commands that the first read of a bank needs before it. -/
def misses (config : Config) (c : Controller) (b : BankId) : Nat :=
  match c.cmdQueue.front config b, c.channelState.row b with
  | none, _ => 0
  | some _, none => 1
  | some f, some row => if f.addr.row = row then 0 else 2

def missed (config : Config) (c : Controller) : Nat := (config.allBanks.map (misses config c)).sum

def queued (config : Config) (c : Controller) : Nat :=
  ((upTo (CommandQueue.numQueues config)).map fun i => (c.cmdQueue.queues i).length).sum

def waiting (c : Controller) : Nat := c.unifiedQueue.length + c.readQueue.length

/-- The refreshes that no queue has been closed for. -/
def unstarted (c : Controller) : Nat := c.channelState.refreshQ.length - if c.cmdQueue.isInRef then 1 else 0

/-- The banks that have to be closed for the refresh that has started. -/
def closing (config : Config) (c : Controller) : Nat :=
  match c.cmdQueue.isInRef, c.channelState.refreshQ with
  | true, ref :: _ => (config.touched ref).countP fun b => (c.channelState.row b).isSome
  | _, _ => 0

/-- What is left to do, in cycles: `m` bounds the delays after all commands but refreshes, and `f` those after
refreshes. -/
def effort (config : Config) (m f : Nat) (c : Controller) : Nat :=
  (f + 1) * c.channelState.refreshQ.length +
    (m + 1) * (2 * config.banks * unstarted c + 2 * closing config c + 6 * waiting c + 3 * queued config c +
      missed config c)

theorem misses_le (config : Config) (c : Controller) (b : BankId) : misses config c b ≤ 2 := by
  unfold misses
  split
  · omega
  · omega
  · split <;> omega

/-! ## Queues of a bank -/

section
variable {config : Config} {b : BankId}

theorem getQueueIndex_lt (hb : config.HasBank b) :
    0 ≤ b.bankgroup * config.banksPerGroup + b.bank ∧ b.bankgroup * config.banksPerGroup + b.bank < config.banks := by
  obtain ⟨hg₀, hg₁⟩ := hb.bankgroup
  obtain ⟨hk₀, hk₁⟩ := hb.bank
  have hbanks : (config.banks : Int) = config.bankgroups * config.banksPerGroup := by
    unfold Config.banks
    push_cast
    rfl
  have hmul : 0 ≤ b.bankgroup * (config.banksPerGroup : Int) := Int.mul_nonneg hg₀ (by omega)
  have hle : (b.bankgroup + 1) * (config.banksPerGroup : Int) ≤ config.bankgroups * config.banksPerGroup :=
    Int.mul_le_mul_of_nonneg_right (by omega) (by omega)
  rw [Int.add_mul, Int.one_mul] at hle
  omega

theorem getQueueIndex_mem (hb : config.HasBank b) :
    CommandQueue.getQueueIndex config b ∈ upTo (CommandQueue.numQueues config) := by
  obtain ⟨hr₀, hr₁⟩ := hb.rank
  unfold CommandQueue.getQueueIndex CommandQueue.numQueues
  rw [mem_upTo]
  cases config.queueStructure with
  | perRank => exact ⟨hr₀, hr₁⟩
  | perBank =>
    obtain ⟨h₀, h₁⟩ := getQueueIndex_lt hb
    have hmul : 0 ≤ b.rank * (config.banks : Int) := Int.mul_nonneg hr₀ (by omega)
    have hle : (b.rank + 1) * (config.banks : Int) ≤ config.ranks * config.banks :=
      Int.mul_le_mul_of_nonneg_right (by omega) (by omega)
    rw [Int.add_mul, Int.one_mul] at hle
    have hcomm : (config.banks : Int) * config.ranks = config.ranks * config.banks := Int.mul_comm _ _
    dsimp only
    push_cast
    omega

theorem mem_getRefQIndices {ref : Command} (hb : config.HasBank b) (htouched : b ∈ config.touched ref)
    (href : ref.cmdType = .refresh ∨ ref.cmdType = .refreshBank) :
    CommandQueue.getQueueIndex config b ∈ CommandQueue.getRefQIndices config ref := by
  unfold Config.touched at htouched
  unfold CommandQueue.getRefQIndices
  rcases href with hc | hc
  · rw [hc, if_pos (by decide)] at htouched
    obtain ⟨hrank, -⟩ := mem_banksOfRank.mp htouched
    have hmem := getQueueIndex_mem hb
    rw [hc, if_pos rfl]
    unfold CommandQueue.getQueueIndex at hmem ⊢
    cases hs : config.queueStructure with
    | perRank => exact List.mem_singleton.mpr hrank
    | perBank =>
      rw [hs] at hmem
      obtain ⟨h₀, h₁⟩ := getQueueIndex_lt hb
      refine List.mem_filter.mpr ⟨hmem, decide_eq_true ?_⟩
      dsimp only
      rw [Int.add_assoc, Int.add_comm, Int.add_mul_ediv_right _ _ (by omega), Int.ediv_eq_zero_of_lt h₀ h₁, Int.zero_add]
      exact hrank
  · rw [hc, if_neg (by decide)] at htouched
    rw [hc, if_neg (by decide)]
    exact List.mem_singleton.mpr (congrArg _ (List.mem_singleton.mp htouched))

theorem length_touched_le (hpos : 0 < config.banks) (ref : Command) :
    (config.touched ref).length ≤ config.banks := by
  unfold Config.touched
  split
  · exact Nat.le_of_eq (length_banksOfRank config _)
  · exact hpos

end

/-! ## Read-only controllers -/

structure ReadOnly (c : Controller) : Prop where
  queued : ∀ i, ∀ cmd ∈ c.cmdQueue.queues i, cmd.cmdType.isRead = true
  unifiedQueue : ∀ t ∈ c.unifiedQueue, t.isWrite = false
  writeBuffer : c.writeBuffer = []
  writeDraining : c.writeDraining = 0

structure Steady (config : Config) (c : Controller) : Prop where
  sound : Sound config c
  reads : ReadOnly c
  inOrder : InOrder config c
  recorded : Recorded config c
  placed : Placed config c

structure Brisk (config : Config) (c : Controller) : Prop extends Steady config c where
  booked : Booked config c

section
variable {config : Config} {c c' : Controller} {b : BankId} {cmd req : Command} {m f : Nat}

/-! ## Commands for a read -/

theorem misses_congr (hfront : c'.cmdQueue.front config b = c.cmdQueue.front config b)
    (hrow : c'.channelState.row b = c.channelState.row b) : misses config c' b = misses config c b := by
  unfold misses
  rw [hfront, hrow]

/-- The commands that are missed change with the first read and the row of one bank. -/
theorem missed_single (c c' : Controller) (hb : config.HasBank b)
    (hothers : ∀ b', config.HasBank b' → b' ≠ b → c'.cmdQueue.front config b' = c.cmdQueue.front config b' ∧
      c'.channelState.row b' = c.channelState.row b') :
    missed config c' + misses config c b = missed config c + misses config c' b := by
  refine sum_map_single (nodup_allBanks config) (mem_allBanks.mpr hb) fun b' hb' hne => ?_
  obtain ⟨hfront, hrow⟩ := hothers b' (mem_allBanks.mp hb') hne
  exact misses_congr hfront hrow

theorem queued_single (c c' : Controller) (hb : config.HasBank b)
    (hothers : ∀ i, i ≠ CommandQueue.getQueueIndex config b → c'.cmdQueue.queues i = c.cmdQueue.queues i) :
    queued config c' + (c.cmdQueue.queues (CommandQueue.getQueueIndex config b)).length =
      queued config c + (c'.cmdQueue.queues (CommandQueue.getQueueIndex config b)).length := by
  refine sum_map_single (f := fun i => (c.cmdQueue.queues i).length) (g := fun i => (c'.cmdQueue.queues i).length)
    (nodup_upTo _) (getQueueIndex_mem hb) fun i _ hne => ?_
  rw [hothers i hne]

theorem closing_congr (href : c'.cmdQueue.isInRef = c.cmdQueue.isInRef)
    (hq : c'.channelState.refreshQ = c.channelState.refreshQ)
    (hrow : c.cmdQueue.isInRef = true → ∀ ref refs, c.channelState.refreshQ = ref :: refs → ∀ b ∈ config.touched ref,
      c'.channelState.row b = c.channelState.row b) : closing config c' = closing config c := by
  unfold closing
  rw [href, hq]
  cases hin : c.cmdQueue.isInRef with
  | false => rfl
  | true =>
    cases hrefs : c.channelState.refreshQ with
    | nil => rfl
    | cons ref refs =>
      refine List.countP_congr fun b hb => ?_
      rw [hrow hin ref refs hrefs b hb]

theorem Formed.refresh_rank (hf : Formed config c) {ref : Command} (href : ref ∈ c.channelState.refreshQ) :
    ref.addr.rank ∈ upTo config.ranks := by
  rcases hf.refreshes ref href with ⟨-, hrank⟩ | ⟨-, hbank⟩
  · exact hrank
  · exact mem_upTo.mpr hbank.rank

theorem Formed.touched_hasBank (hf : Formed config c) {ref : Command} (href : ref ∈ c.channelState.refreshQ)
    (hb : b ∈ config.touched ref) : config.HasBank b := by
  unfold Config.touched at hb
  rcases hf.refreshes ref href with ⟨hc, hrank⟩ | ⟨hc, hbank⟩
  · rw [hc, if_pos (by decide)] at hb
    exact hasBank_of_rank hrank hb
  · rw [hc, if_neg (by decide)] at hb
    exact List.mem_singleton.mp hb ▸ hbank

/-- A queue that is open is not for a bank that has to be closed. -/
theorem Booked.not_touched (hf : Formed config c) (h : Booked config c)
    (hopen : ¬ (c.cmdQueue.isInRef = true ∧ CommandQueue.getQueueIndex config b ∈ c.cmdQueue.refQIndices))
    (hin : c.cmdQueue.isInRef = true) {ref : Command} {refs : List Command}
    (hq : c.channelState.refreshQ = ref :: refs) : b ∉ config.touched ref := by
  intro hb
  have hmem : ref ∈ c.channelState.refreshQ := hq ▸ List.mem_cons_self
  obtain ⟨ref', refs', hq', hindices⟩ := h.closed hin
  obtain ⟨rfl, -⟩ := List.cons.inj (hq.symm.trans hq')
  refine hopen ⟨hin, ?_⟩
  rw [hindices]
  exact mem_getRefQIndices (hf.touched_hasBank hmem hb) hb ((hf.refreshes ref hmem).imp And.left And.left)

theorem read_required {ch : ChannelState} {clk : Nat} (hreq : req.cmdType.isRead = true)
    (h : ch.getReadyCommand config req clk = .ok (some cmd)) :
    ∃ t, (ch.bankStates req.addr.bankId).requiredType req = .ok t ∧ cmd = { req with cmdType := t } := by
  refine bank_required ?_ h
  rcases CommandQueue.isRead_cases hreq with hc | hc <;> rw [hc] <;> rfl

theorem find_first {pre after : List Command} (hpre : ∀ g ∈ pre, g.addr.bankId ≠ req.addr.bankId) :
    (pre ++ req :: after).find? (fun cmd => cmd.addr.bankId = req.addr.bankId) = some req := by
  rw [List.find?_append, List.find?_eq_none.mpr fun g hg => by simpa using hpre g hg, Option.none_or,
    List.find?_cons_of_pos (by simp)]

theorem find_eraseP {l : List Command} {p : Command → Bool} (hp : ∀ x ∈ l, p x = true → x.addr.bankId ≠ b) :
    (l.eraseP p).find? (fun cmd => cmd.addr.bankId = b) = l.find? fun cmd => cmd.addr.bankId = b := by
  induction l with
  | nil => rfl
  | cons x l ih =>
    have hrest := ih fun y hy => hp y (List.mem_cons_of_mem _ hy)
    by_cases hx : p x = true
    · rw [List.eraseP_cons_of_pos hx, List.find?_cons_of_neg]
      simpa using hp x List.mem_cons_self hx
    · rw [List.eraseP_cons_of_neg hx]
      by_cases hxb : x.addr.bankId = b
      · rw [List.find?_cons_of_pos (by simpa using hxb), List.find?_cons_of_pos (by simpa using hxb)]
      · rw [List.find?_cons_of_neg (by simpa using hxb), List.find?_cons_of_neg (by simpa using hxb), hrest]

theorem effort_work {n : Nat} (hrefresh : c'.channelState.refreshQ = c.channelState.refreshQ)
    (hin : c'.cmdQueue.isInRef = c.cmdQueue.isInRef)
    (hwork : 2 * closing config c' + 6 * waiting c' + 3 * queued config c' + missed config c' + n ≤
      2 * closing config c + 6 * waiting c + 3 * queued config c + missed config c) :
    effort config m f c' + (m + 1) * n ≤ effort config m f c := by
  have hmul : (m + 1) * (2 * config.banks * unstarted c + 2 * closing config c' + 6 * waiting c' +
      3 * queued config c' + missed config c') + (m + 1) * n ≤ (m + 1) * (2 * config.banks * unstarted c +
        2 * closing config c + 6 * waiting c + 3 * queued config c + missed config c) := by
    rw [← Nat.mul_add]
    exact Nat.mul_le_mul_left _ (by omega)
  unfold effort
  have hstarted : unstarted c' = unstarted c := by
    unfold unstarted
    rw [hrefresh, hin]
  rw [hrefresh, hstarted]
  omega

/-- What is known of a command that a queue hands out for a read of a bank. -/
structure Picked (config : Config) (c : Controller) (req cmd : Command) (pre after : List Command) : Prop where
  queue : c.cmdQueue.queues (CommandQueue.getQueueIndex config req.addr.bankId) = pre ++ req :: after
  isRead : req.cmdType.isRead = true
  reads : ∀ g ∈ pre, g.cmdType.isRead = true
  hasBank : config.HasBank req.addr.bankId
  opened : ¬ (c.cmdQueue.isInRef = true ∧
    CommandQueue.getQueueIndex config req.addr.bankId ∈ c.cmdQueue.refQIndices)
  ready : c.channelState.getReadyCommand config req c.clk = .ok (some cmd)
  first : cmd.cmdType = .precharge ∨ cmd.cmdType = .activate → ∀ g ∈ pre, g.addr.bankId ≠ req.addr.bankId

theorem picked_of_first (hmap : config.Mapped) (h : Brisk config c) {i : Int}
    (hopen : ¬ (c.cmdQueue.isInRef = true ∧ i ∈ c.cmdQueue.refQIndices))
    (hfirst : CommandQueue.getFirstReady config c.channelState c.cmdQueue.clk [] (c.cmdQueue.queues i) = .ok (some cmd)) :
    ∃ req pre after, Picked config c req cmd pre after := by
  rw [h.sound.formed.clk] at hfirst
  obtain ⟨pre, req, after, hqueue, hready, harb, hpassed⟩ := CommandQueue.getFirstReady_first hfirst
  have hmem : req ∈ c.cmdQueue.queues i := by
    rw [hqueue]
    exact List.mem_append_right _ List.mem_cons_self
  have hindex := (h.sound.formed.queued i req hmem).2
  have hread := h.reads.queued i req hmem
  have hpre : ∀ g ∈ pre, g.cmdType.isRead = true := by
    intro g hg
    exact h.reads.queued i g (hqueue ▸ List.mem_append_left _ hg)
  refine ⟨req, pre, after, ?_, hread, hpre, ?_, ?_, hready, ?_⟩
  · rw [hindex]
    exact hqueue
  · rw [h.sound.formed.addr_eq hmem]
    exact hmap.bank req.hexAddr
  · rw [hindex]
    exact hopen
  · rintro (hc | hc)
    · have hfree := harb hc
      unfold CommandQueue.arbitratePrecharge at hfree
      simp only [List.nil_append, Bool.and_eq_true, Bool.not_eq_true', List.any_eq_false, decide_eq_true_eq] at hfree
      exact hfree.1
    · obtain ⟨t, -, rfl⟩ := read_required hread hready
      have ht : t = .activate := hc
      subst ht
      exact CommandQueue.first_of_activate hpre (getReadyCommand_spec hready).1 hpassed

section
variable {pre after : List Command} {q : CommandQueue}

theorem Picked.touched_eq (h : Picked config c req cmd pre after) (hc : cmd.cmdType.isRankCMD = false) :
    config.touched cmd = [req.addr.bankId] := by
  obtain ⟨t, -, rfl⟩ := read_required h.isRead h.ready
  unfold Config.touched
  rw [if_neg (by simpa using hc)]

theorem Picked.rank_mem (h : Picked config c req cmd pre after) : cmd.addr.rank ∈ upTo config.ranks := by
  obtain ⟨t, -, rfl⟩ := read_required h.isRead h.ready
  exact mem_upTo.mpr h.hasBank.rank

/-- The banks that have to be closed for a refresh stay as they are. -/
theorem Picked.closing_eq (hb : Brisk config c) (h : Picked config c req cmd pre after)
    (hrank : cmd.cmdType.isRankCMD = false) (hrefresh : cmd.cmdType.isRefresh = false)
    (hin : q.isInRef = c.cmdQueue.isInRef) (hi : Issued config cmd { c with cmdQueue := q } c') :
    closing config c' = closing config c := by
  have hq : c'.channelState.refreshQ = c.channelState.refreshQ := by
    have hafter := hi.executed.refreshQ
    rw [hafter]
    exact refreshQAfter_of_not hrefresh _
  have hsame : c'.cmdQueue.isInRef = c.cmdQueue.isInRef := by
    rw [hi.eq]
    exact hin
  refine closing_congr hsame hq fun hin ref refs hrefs b hbt => ?_
  refine hi.executed.row_other (hb.sound.formed.touched_hasBank (hrefs ▸ List.mem_cons_self) hbt) ?_
  rw [h.touched_eq hrank]
  intro hmem
  rw [List.mem_singleton.mp hmem] at hbt
  exact hb.booked.not_touched hb.sound.formed h.opened hin hrefs hbt

theorem Issued.parts (hi : Issued config cmd c c') : c'.cmdQueue = c.cmdQueue ∧ c'.waiting = c.waiting ∧
    c'.clk = c.clk ∧ c'.refresh = c.refresh := by
  rw [hi.eq]
  exact ⟨rfl, rfl, rfl, rfl⟩

/-- A row command for the first read of a bank brings it closer. -/
theorem Picked.row_effort (hb : Brisk config c) (h : Picked config c req cmd pre after)
    (hc : cmd.cmdType = .activate ∨ cmd.cmdType = .precharge) (hqueues : q.queues = c.cmdQueue.queues)
    (hin : q.isInRef = c.cmdQueue.isInRef) (hi : Issued config cmd { c with cmdQueue := q } c') :
    effort config m f c' + (m + 1) * 1 ≤ effort config m f c := by
  have hkind : cmd.cmdType.isRankCMD = false ∧ cmd.cmdType.isRefresh = false := by
    rcases hc with hc | hc <;> rw [hc] <;> exact ⟨rfl, rfl⟩
  have htouched := h.touched_eq hkind.1
  obtain ⟨hqueue, hwaiting, -, -⟩ := hi.parts
  have hfront : ∀ b, c'.cmdQueue.front config b = c.cmdQueue.front config b := by
    intro b
    unfold CommandQueue.front
    rw [hqueue, hqueues]
  have hfirst : c.cmdQueue.front config req.addr.bankId = some req := by
    unfold CommandQueue.front
    rw [h.queue]
    exact find_first (h.first hc.symm)
  have hmissed := missed_single c c' h.hasBank fun b' hb' hne =>
    ⟨hfront b', hi.executed.row_single htouched hb' hne⟩
  have hfewer : misses config c' req.addr.bankId + 1 ≤ misses config c req.addr.bankId := by
    obtain ⟨t, ht, rfl⟩ := read_required h.isRead h.ready
    have hself : req.addr.bankId ∈ config.touched { req with cmdType := t } := by
      rw [htouched]
      exact List.mem_singleton.mpr rfl
    unfold misses
    rw [hfront, hfirst]
    rcases hc with hc | hc
    · obtain ⟨hbefore, hafter⟩ := hi.executed.row_activate h.hasBank hself hc
      have hbefore : c.channelState.row req.addr.bankId = none := hbefore
      rw [hbefore, hafter]
      simp
    · obtain ⟨hbefore, hafter⟩ := hi.executed.row_precharge h.hasBank hself hc
      have hbefore : (c.channelState.row req.addr.bankId).isSome = true := hbefore
      obtain ⟨row, hrow⟩ := Option.isSome_iff_exists.mp hbefore
      -- a bank with the right row would not have asked for a precharge
      have hmiss : req.addr.row ≠ row := by
        rintro rfl
        unfold ChannelState.row at hrow
        split at hrow
        · rename_i hopen
          have hhit := CommandQueue.requiredType_hit h.isRead hopen (Option.some.inj hrow).symm
          rw [hhit] at ht
          have heq : req.cmdType = .precharge := (Except.ok.inj ht).trans hc
          have hread := h.isRead
          rw [heq] at hread
          cases hread
        · cases hrow
      rw [hrow, hafter]
      simp [hmiss]
  have hqueued : queued config c' = queued config c := by
    unfold queued
    rw [hqueue, hqueues]
  have hclosing := h.closing_eq hb hkind.1 hkind.2 hin hi
  have hwaiting : c'.waiting = c.waiting := hwaiting
  refine effort_work (hi.executed.refreshQ.trans (refreshQAfter_of_not hkind.2 _)) (hqueue ▸ hin) ?_
  omega

/-- A read that is issued leaves at most two commands more for the next one of its bank. -/
theorem Picked.read_effort (hb : Brisk config c) (h : Picked config c req cmd pre after)
    (hc : cmd.cmdType.isRead = true) {index : Int}
    (herase : ({ c.cmdQueue with queueIdx := index } : CommandQueue).eraseRWCommand config cmd = .ok q)
    (hi : Issued config cmd { c with cmdQueue := q } c') : effort config m f c' + (m + 1) * 1 ≤ effort config m f c := by
  have hkind : cmd.cmdType.isRankCMD = false ∧ cmd.cmdType.isRefresh = false := by
    rcases CommandQueue.isRead_cases hc with hc | hc <;> rw [hc] <;> exact ⟨rfl, rfl⟩
  have htouched := h.touched_eq hkind.1
  obtain ⟨hqueue, hwaiting, -, -⟩ := hi.parts
  have hwaiting : c'.waiting = c.waiting := hwaiting
  have hsame : cmd = req := serves_readWrite (getReadyCommand_spec h.ready).2 (by simp [CommandType.isReadWrite, hc])
  subst hsame
  unfold CommandQueue.eraseRWCommand at herase
  dsimp only at herase
  split at herase
  · rename_i hany
    obtain rfl := Except.ok.inj herase
    have hfront : ∀ b', b' ≠ cmd.addr.bankId → c'.cmdQueue.front config b' = c.cmdQueue.front config b' := by
      intro b' hne
      unfold CommandQueue.front
      rw [hqueue]
      dsimp only
      by_cases hindex : CommandQueue.getQueueIndex config b' = CommandQueue.getQueueIndex config cmd.addr.bankId
      · rw [hindex, Function.update_self]
        refine find_eraseP fun x hx hp => ?_
        have hmem : cmd ∈ c.cmdQueue.queues (CommandQueue.getQueueIndex config cmd.addr.bankId) := by
          rw [h.queue]
          exact List.mem_append_right _ List.mem_cons_self
        rw [hb.sound.formed.addr_eq hx, ← (decide_eq_true_iff.mp hp).1, ← hb.sound.formed.addr_eq hmem]
        exact Ne.symm hne
      · rw [Function.update_of_ne hindex]
    have hmissed := missed_single c c' h.hasBank fun b' hb' hne =>
      ⟨hfront b' hne,
        hi.executed.row_single htouched hb' hne⟩
    have hle := misses_le config c' cmd.addr.bankId
    have hqueued : queued config c' + 1 = queued config c := by
      have hsum := queued_single c c' h.hasBank fun i hne => by
        rw [hqueue]
        dsimp only
        rw [Function.update_of_ne hne]
      have hlen : (c'.cmdQueue.queues (CommandQueue.getQueueIndex config cmd.addr.bankId)).length + 1 =
          (c.cmdQueue.queues (CommandQueue.getQueueIndex config cmd.addr.bankId)).length := by
        rw [hqueue]
        dsimp only
        obtain ⟨x, hx, hp⟩ := List.any_eq_true.mp hany
        have hpos := List.length_pos_of_mem hx
        rw [Function.update_self, List.length_eraseP_of_mem hx hp]
        omega
      omega
    have hclosing := h.closing_eq hb hkind.1 hkind.2 (by rfl) hi
    refine effort_work (hi.executed.refreshQ.trans (refreshQAfter_of_not hkind.2 _)) (hqueue ▸ rfl) ?_
    omega
  · cases herase

end

theorem Picked.demand (hb : Brisk config c) {pre after : List Command} (h : Picked config c req cmd pre after) :
    cmd.cmdType.isRead = true ∨ cmd.cmdType = .activate ∨ cmd.cmdType = .precharge := by
  obtain ⟨t, ht, rfl⟩ := read_required h.isRead h.ready
  have hplain : req.cmdType.Plain := Or.inl (by simp [CommandType.isReadWrite, h.isRead])
  obtain ⟨t', ht', hexit, -⟩ := requiredType_ok (hb.sound.awake _ h.hasBank) hplain
  obtain rfl := Except.ok.inj (ht.symm.trans ht')
  rcases (requiredType_allows ht).2 with rfl | h' | h' | h'
  · exact Or.inl h.isRead
  · exact Or.inr (Or.inl h')
  · exact Or.inr (Or.inr h')
  · exact absurd h' hexit

/-! ## Refreshes -/

/-- What a refresh costs at most. -/
def refreshCost (config : Config) (m f : Nat) : Nat := f + 1 + (m + 1) * (2 * config.banks)

theorem closing_le (hpos : 0 < config.banks) (c : Controller) : closing config c ≤ config.banks := by
  unfold closing
  split
  · exact Nat.le_trans List.countP_le_length (length_touched_le hpos _)
  · exact Nat.zero_le _

/-- Closing the queues for a refresh has been accounted for. -/
theorem start_effort (hpos : 0 < config.banks) {ref : Command} {refs : List Command}
    (hq : c.channelState.refreshQ = ref :: refs) (hin : c.cmdQueue.isInRef = false) (l : List Int) :
    effort config m f { c with cmdQueue := { c.cmdQueue with refQIndices := l, isInRef := true } } ≤
      effort config m f c := by
  have hclosing := closing_le hpos { c with cmdQueue := { c.cmdQueue with refQIndices := l, isInRef := true } }
  have hnone : closing config c = 0 := by
    unfold closing
    rw [hin]
  have hstarted : unstarted c = refs.length + 1 := by
    unfold unstarted
    rw [hin, hq]
    rfl
  have hstarted' : unstarted { c with cmdQueue := { c.cmdQueue with refQIndices := l, isInRef := true } } =
      refs.length := by
    unfold unstarted
    rw [hq]
    rfl
  unfold effort
  refine Nat.add_le_add_left (Nat.mul_le_mul_left _ ?_) _
  rw [hnone, hstarted, hstarted', Nat.mul_succ]
  have hmissed : missed config { c with cmdQueue := { c.cmdQueue with refQIndices := l, isInRef := true } } =
      missed config c := rfl
  have hqueued : queued config { c with cmdQueue := { c.cmdQueue with refQIndices := l, isInRef := true } } =
      queued config c := rfl
  have hwaiting : waiting { c with cmdQueue := { c.cmdQueue with refQIndices := l, isInRef := true } } =
      waiting c := rfl
  omega

theorem front_parts {q : CommandQueue} (hqueues : q.queues = c.cmdQueue.queues) (b : BankId) :
    q.front config b = c.cmdQueue.front config b := by
  unfold CommandQueue.front
  rw [hqueues]

theorem refresh_effort {ref : Command} {refs : List Command}
    (hq : c.channelState.refreshQ = ref :: refs) (hin : c.cmdQueue.isInRef = true)
    (hrefresh : ref.cmdType.isRefresh = true)
    (hi : Issued config ref { c with cmdQueue := { c.cmdQueue with refQIndices := [], isInRef := false } } c') :
    effort config m f c' + (f + 1) ≤ effort config m f c := by
  obtain ⟨hqueue, hwaiting, -, -⟩ := hi.parts
  have hwaiting : c'.waiting = c.waiting := hwaiting
  have hafter : c'.channelState.refreshQ = refs := by
    have hafter := hi.executed.refreshQ
    dsimp only at hafter
    rw [hafter, hq]
    exact refreshQAfter_head hrefresh refs
  have hmissed : missed config c' = missed config c := by
    unfold missed
    refine congrArg List.sum (List.map_congr_left fun b hmem => ?_)
    refine misses_congr ?_ (hi.executed.row_refresh (mem_allBanks.mp hmem) hrefresh).1
    rw [hqueue]
    exact front_parts rfl b
  have hqueued : queued config c' = queued config c := by
    unfold queued
    rw [hqueue]
  have hclosing : closing config c' = 0 := by
    unfold closing
    rw [hqueue]
  have hstarted : unstarted c = refs.length := by
    unfold unstarted
    rw [hin, hq]
    rfl
  have hstarted' : unstarted c' = refs.length := by
    unfold unstarted
    rw [hqueue, hafter]
    rfl
  unfold effort
  rw [hafter, hq, hmissed, hqueued, hclosing, hstarted, hstarted', hwaiting, List.length_cons]
  have hmul : (m + 1) * (2 * config.banks * refs.length + 2 * 0 + 6 * c.waiting + 3 * queued config c +
      missed config c) ≤ (m + 1) * (2 * config.banks * refs.length + 2 * closing config c + 6 * c.waiting +
        3 * queued config c + missed config c) := Nat.mul_le_mul_left _ (by omega)
  rw [Nat.mul_add (f + 1)]
  omega

/-- A bank that is closed for a refresh costs its first read a command at most. -/
theorem close_effort (hb : Brisk config c) {ref : Command} {refs : List Command}
    (hq : c.channelState.refreshQ = ref :: refs) (hin : c.cmdQueue.isInRef = true)
    (hbank : cmd.addr.bankId ∈ config.touched ref) (hc : cmd.cmdType = .precharge) (hi : Issued config cmd c c') :
    effort config m f c' + (m + 1) * 1 ≤ effort config m f c := by
  obtain ⟨hqueue, hwaiting, -, -⟩ := hi.parts
  have href : ref ∈ c.channelState.refreshQ := hq ▸ List.mem_cons_self
  have hhas := hb.sound.formed.touched_hasBank href hbank
  have htouched : config.touched cmd = [cmd.addr.bankId] := by
    unfold Config.touched
    rw [hc, if_neg (by decide)]
  have hself : cmd.addr.bankId ∈ config.touched cmd := by
    rw [htouched]
    exact List.mem_singleton.mpr rfl
  have hother : ∀ b, config.HasBank b → b ≠ cmd.addr.bankId → c'.channelState.row b = c.channelState.row b :=
    fun b hbh hne => hi.executed.row_single htouched hbh hne
  obtain ⟨hbefore, hafter⟩ := hi.executed.row_precharge hhas hself hc
  have hrefreshQ : c'.channelState.refreshQ = c.channelState.refreshQ :=
    hi.executed.refreshQ.trans (refreshQAfter_of_not (by rw [hc]; rfl) _)
  have hclosing : closing config c' + 1 = closing config c := by
    unfold closing
    rw [hrefreshQ, hqueue, hin, hq]
    refine countP_single (nodup_touched config ref) hbank hbefore (by rw [hafter]; rfl) fun b hbt hne => ?_
    rw [hother b (hb.sound.formed.touched_hasBank href hbt) hne]
  have hmissed := missed_single c c' hhas fun b' hb' hne =>
    ⟨by rw [hqueue], hother b' hb' hne⟩
  have hmore : misses config c' cmd.addr.bankId ≤ misses config c cmd.addr.bankId + 1 := by
    unfold misses
    rw [hqueue, hafter]
    cases c.cmdQueue.front config cmd.addr.bankId with
    | none => exact Nat.zero_le _
    | some g => exact Nat.le_add_left _ _
  have hqueued : queued config c' = queued config c := by
    unfold queued
    rw [hqueue]
  refine effort_work hrefreshQ (by rw [hqueue]) ?_
  omega

theorem length_wanted_le (config : Config) (r : Refresh) (ch : ChannelState) : (wanted config r ch).length ≤ 1 := by
  unfold wanted
  split
  · split
    · exact Nat.le_refl _
    · exact Nat.zero_le _
  · split
    · exact Nat.zero_le _
    · exact Nat.le_refl _
  · split
    · exact Nat.zero_le _
    · exact Nat.le_refl _

theorem demand_effort (h : Booked config c) : effort config m f (c.tickRefresh config) ≤
    effort config m f c + if Due config c.refresh then refreshCost config m f else 0 := by
  rw [tickRefresh_eq]
  by_cases hdue : Due config c.refresh
  · rw [if_pos hdue, if_pos hdue, if_pos hdue]
    have hlen := length_wanted_le config c.refresh c.channelState
    generalize wanted config c.refresh c.channelState = l at hlen ⊢
    generalize hc' : ({ c with
      refresh := { c.refresh.iterateNext config with clk := c.refresh.clk + 1 }
      channelState := { c.channelState with refreshQ := c.channelState.refreshQ ++ l } } : Controller) = c'
    have hclosing : closing config c' = closing config c := by
      rw [← hc']
      unfold closing
      dsimp only
      cases hin : c.cmdQueue.isInRef with
      | false => rfl
      | true =>
        obtain ⟨ref, refs, hq, -⟩ := h.closed hin
        rw [hq, List.cons_append]
        rfl
    have hstarted : unstarted c' ≤ unstarted c + 1 := by
      rw [← hc']
      unfold unstarted
      dsimp only
      rw [List.length_append]
      omega
    have hrest : missed config c' = missed config c ∧ queued config c' = queued config c ∧ c'.waiting = c.waiting ∧
        c'.channelState.refreshQ.length ≤ c.channelState.refreshQ.length + 1 := by
      rw [← hc']
      refine ⟨rfl, rfl, rfl, ?_⟩
      dsimp only
      rw [List.length_append]
      omega
    obtain ⟨hmissed, hqueued, hwaiting, hrefreshQ⟩ := hrest
    unfold effort refreshCost
    rw [hmissed, hqueued, hwaiting, hclosing]
    have hmul₁ : (f + 1) * c'.channelState.refreshQ.length ≤ (f + 1) * (c.channelState.refreshQ.length + 1) :=
      Nat.mul_le_mul_left _ hrefreshQ
    have hmul₂ : 2 * config.banks * unstarted c' ≤ 2 * config.banks * (unstarted c + 1) := Nat.mul_le_mul_left _ hstarted
    have hmul₃ : (m + 1) * (2 * config.banks * unstarted c' + 2 * closing config c + 6 * c.waiting +
        3 * queued config c + missed config c) ≤ (m + 1) * (2 * config.banks * unstarted c + 2 * closing config c +
          6 * c.waiting + 3 * queued config c + missed config c + 2 * config.banks) := by
      refine Nat.mul_le_mul_left _ ?_
      rw [Nat.mul_succ] at hmul₂
      omega
    rw [Nat.mul_succ] at hmul₁
    rw [Nat.mul_add (m + 1) _ (2 * config.banks)] at hmul₃
    omega
  · rw [if_neg hdue, if_neg hdue, if_neg hdue, List.append_nil]
    exact Nat.le_refl _

end

end Controller

end Dramsim3

end Anna
