import Anna.Dramsim3.ControllerProgress

/-!
# Every read is issued

From every state that a run can reach and that has no write pending, a
controller is done with its reads after a time that is known in advance.
-/

namespace Anna

namespace Dramsim3

namespace Controller

section
variable {config : Config} {c c' : Controller} {cmd : Command} {m f n : Nat}

/-! ## From every state -/

theorem Sound.selected_type (hmap : config.Mapped) (hs : Sound config c) (hsel : Selected config c cmd c') :
    cmd.addr.rank ∈ upTo config.ranks ∧
      cmd.cmdType ∈ [.read, .readPrecharge, .write, .writePrecharge, .activate, .precharge] := by
  obtain ⟨index, before, req, after, hqueue, hready, -⟩ := hsel.request
  have hmem : req ∈ c.cmdQueue.queues index := by
    rw [hqueue]
    exact List.mem_append_right _ List.mem_cons_self
  have hrw := hs.formed.readWrite hmem
  have hb : config.HasBank req.addr.bankId := by
    rw [hs.formed.addr_eq hmem]
    exact hmap.bank req.hexAddr
  have hrank : req.cmdType.isRankCMD = false := by
    rcases CommandType.isReadWrite_cases hrw with hc | hc | hc | hc <;> rw [hc] <;> rfl
  obtain ⟨t, ht, rfl⟩ := bank_required hrank hready
  obtain ⟨t', ht', hexit, -⟩ := requiredType_ok (hs.awake _ hb) (Or.inl hrw)
  obtain rfl := Except.ok.inj (ht.symm.trans ht')
  refine ⟨mem_upTo.mpr hb.rank, ?_⟩
  dsimp only
  rcases (requiredType_allows ht).2 with rfl | rfl | rfl | rfl
  · rcases CommandType.isReadWrite_cases hrw with hc | hc | hc | hc <;> rw [hc] <;> decide
  · decide
  · decide
  · exact absurd rfl hexit

/-- Banks never wait longer than the longest delay. -/
structure Moderate (config : Config) (k : Nat) (c : Controller) : Prop where
  sound : Sound config c
  inOrder : InOrder config c
  calm : c.channelState.Calm config c.clk k

theorem Moderate.atom (hmap : config.Mapped) (hp : Paced config m f n) (hm : Moderate config (max m f) c)
    (step : Atom config c c') : Moderate config (max m f) c' := by
  refine ⟨hm.sound.atom hmap hp.awake step, hm.inOrder.atom hmap hp.awake hm.sound step, ?_⟩
  have hcalm := hm.calm
  have hissued : ∀ {c₁ c₂ : Controller} {cmd : Command}, c₁.issueCommand config cmd = .ok c₂ →
      c₁.channelState = c.channelState → c₁.clk = c.clk → cmd.addr.rank ∈ upTo config.ranks →
      cmd.cmdType ∈ [.read, .readPrecharge, .write, .writePrecharge, .activate, .precharge] ∨
        cmd.cmdType = config.refreshType →
      c₂.channelState.Calm config c₂.clk (max m f) := by
    intro c₁ c₂ cmd hissue hch hclk hrank hkind
    have hi := issueCommand_spec hissue
    have he := hi.executed
    rw [hi.parts.2.2.1, hclk]
    rw [hch, hclk] at he
    rcases hkind with hkind | hkind
    · exact (hcalm.executed hrank (hp.commands _ hkind) (fun _ => hp.window) he).mono (by omega)
    · refine (hcalm.executed (k := f) hrank (hkind ▸ hp.refresh) (fun hact => ?_) he).mono (by omega)
      rw [hkind] at hact
      unfold Config.refreshType at hact
      split at hact <;> cases hact
  cases step with
  | demand =>
    rw [tickRefresh_eq]
    exact ⟨hcalm.timing, hcalm.fourAw, hcalm.thirtyTwoAw⟩
  | book => exact hcalm
  | issue hsel hissue =>
    have hkind := hm.sound.selected_type hmap hsel
    obtain ⟨q, rfl, -⟩ := hsel.frame
    exact hissued hissue rfl rfl hkind.1 (Or.inl hkind.2)
  | lose _ _ _ _ hsel =>
    obtain ⟨q, rfl, -⟩ := hsel.frame
    exact hcalm
  | @refresh _ ref _ cmd hq hready hissue =>
    rw [hm.sound.formed.clk] at hready
    have href : ref ∈ c.channelState.refreshQ := hq ▸ List.mem_cons_self
    rcases hm.sound.refresh_ready href hready with ⟨rfl, -⟩ | ⟨hpre, htouched⟩
    · exact hissued hissue rfl rfl (hm.sound.formed.refresh_rank href) (Or.inr (hm.inOrder.cmdType href))
    · have hrank := mem_upTo.mpr (hm.sound.formed.touched_hasBank href htouched).rank
      exact hissued hissue rfl rfl hrank (Or.inl (by rw [hpre]; decide))
  | selfRefresh hon =>
    rw [hp.awake] at hon
    cases hon
  | idle => exact ⟨hcalm.timing, hcalm.fourAw, hcalm.thirtyTwoAw⟩
  | schedule =>
    rw [scheduleTransaction_eq]
    exact hcalm
  | advance => exact hcalm.advance.mono (Nat.sub_le _ _)

theorem Reach.moderate (hmap : config.Mapped) (hp : Paced config m f n) (h : Reach config c) :
    Moderate config (max m f) c := by
  refine h.invariant ?_ (fun t hc => ?_) (fun _ hc => ?_) fun hc step => hc.atom hmap hp step
  · refine ⟨sound_new hmap, inOrder_new config, fun _ _ _ => Nat.zero_le _, ?_, ?_⟩
    · exact fun _ _ hx => absurd hx List.not_mem_nil
    · exact fun _ _ hx => absurd hx List.not_mem_nil
  · refine ⟨hc.sound.add t, hc.inOrder.add t, ?_⟩
    rw [addTransaction_eq]
    exact hc.calm
  · exact ⟨hc.sound.returned _, ⟨hc.inOrder.awake, hc.inOrder.due, hc.inOrder.order⟩, hc.calm⟩

/-- The writes that are to be drained are in the buffer. -/
def Draining (c : Controller) : Prop := 0 ≤ c.writeDraining ∧ c.writeDraining ≤ c.writeBuffer.length

theorem Draining.start (h : Draining c) : Draining (c.startDraining config) := by
  unfold startDraining
  split
  · exact ⟨Int.natCast_nonneg _, Int.le_refl _⟩
  · exact h

theorem Draining.schedule (h : Draining c) : Draining (c.scheduleTransaction config) := by
  have hd : Draining (c.startDraining config) := h.start
  unfold scheduleTransaction
  generalize c.startDraining config = c₁ at hd
  dsimp only
  split
  · split
    · exact hd
    · split <;> exact hd
  · split
    · rename_i hpos
      split
      · exact hd
      · rename_i it queue hq
        split
        · split
          · exact ⟨Int.le_refl 0, Int.natCast_nonneg _⟩
          · have hlen := hd.2
            rw [hq, List.length_cons] at hlen
            unfold Draining
            dsimp only
            push_cast at hlen
            omega
        · exact hd
    · split
      · exact hd
      · split <;> exact hd

theorem Draining.atom (h : Draining c) (step : Atom config c c') : Draining c' := by
  cases step with
  | demand =>
    rw [tickRefresh_eq]
    exact h
  | book => exact h
  | issue hsel hissue =>
    obtain ⟨q, rfl, -⟩ := hsel.frame
    rw [(issueCommand_spec hissue).eq]
    exact h
  | lose _ _ _ _ hsel =>
    obtain ⟨q, rfl, -⟩ := hsel.frame
    exact h
  | refresh _ _ hissue =>
    rw [(issueCommand_spec hissue).eq]
    exact h
  | selfRefresh _ _ _ _ hissue =>
    rw [(issueCommand_spec hissue).eq]
    exact h
  | idle => exact h
  | schedule => exact h.schedule
  | advance => exact h

theorem Draining.add (h : Draining c) (t : Transaction) : Draining (c.addTransaction config t) := by
  have hadd := addTransaction_spec config c t
  have hlen : ∀ t, Draining (enqueued config c t) := by
    intro t
    unfold enqueued
    split
    · exact h
    · split
      · refine ⟨h.1, ?_⟩
        have hle := h.2
        dsimp only
        rw [List.length_append]
        push_cast
        omega
      · exact h
  generalize c.addTransaction config t = c' at hadd ⊢
  cases hadd with
  | write => exact hlen _
  | merge => exact h
  | read => exact hlen _
  | join => exact h

theorem Reach.draining (h : Reach config c) : Draining c :=
  h.invariant ⟨Int.le_refl 0, Int.le_refl 0⟩ (fun t hc => hc.add t) (fun _ hc => hc) fun hc step => hc.atom step

theorem mem_transLine {queue : List Transaction} {t : Transaction} (ht : t ∈ queue) : t.isWrite ∈ transLine queue t.addr :=
  List.mem_map.mpr ⟨t, List.mem_filter.mpr ⟨ht, decide_eq_true rfl⟩, rfl⟩

/-- Where no write is pending, no queue holds one. -/
theorem Reach.readOnly (hmap : config.Mapped) (hsref : config.enableSelfRefresh = false) (h : Reach config c)
    (hwrites : c.pendingWrQ = []) : ReadOnly c := by
  have hs := h.sound hmap hsref
  have hnone : ∀ a, true ∉ line config c a := by
    intro a ha
    have hpos := hs.lined.write a ha
    rw [hwrites] at hpos
    cases hpos
  have hbuffer : c.writeBuffer = [] := by
    rw [List.eq_nil_iff_forall_not_mem]
    intro t ht
    have hmem := mem_transLine ht
    rw [hs.formed.writeBuffer t ht] at hmem
    exact hnone t.addr (List.mem_append_right _ (List.mem_append_right _ (List.mem_append_right _ hmem)))
  refine ⟨fun i cmd hcmd => ?_, fun t ht => ?_, hbuffer, ?_⟩
  · by_contra hread
    have hwrite : cmd.cmdType.isWrite = true := by
      have hrw := hs.formed.readWrite hcmd
      simpa [CommandType.isReadWrite, hread] using hrw
    refine hnone cmd.hexAddr (List.mem_append_left _ (List.mem_map.mpr ⟨cmd, ?_, hwrite⟩))
    have hindex := (hs.formed.queued i cmd hcmd).2
    rw [hs.formed.addr_eq hcmd] at hindex
    rw [hindex]
    exact List.mem_filter.mpr ⟨hcmd, decide_eq_true rfl⟩
  · have hmem := mem_transLine ht
    by_contra hw
    have hw : t.isWrite = true := Bool.not_eq_false _ ▸ hw
    rw [hw] at hmem
    exact hnone t.addr (List.mem_append_right _ (List.mem_append_left _ hmem))
  · have hd := h.draining
    unfold Draining at hd
    rw [hbuffer, List.length_nil] at hd
    omega

/-- The time after which the reads are done. -/
def drainTime (config : Config) (m f : Nat) (c : Controller) : Nat :=
  (Refresh.refreshInterval config * (effort config m f c + max m f) +
    refreshCost config m f * Refresh.refreshInterval config) /
      (Refresh.refreshInterval config - refreshCost config m f) + 1

theorem Reach.left (hmap : config.Mapped) (hp : Paced config m f n) (h : Reach config c) (hwrites : c.pendingWrQ = []) :
    Left config m f (Refresh.refreshInterval config * (effort config m f c + max m f) +
      refreshCost config m f * Refresh.refreshInterval config) c := by
  have hm := h.moderate hmap hp
  have hacc := h.accounted hmap hp.spaced
  refine ⟨⟨⟨hm.sound, h.readOnly hmap hp.awake hwrites, hm.inOrder, hacc.recorded, hacc.placed⟩,
    h.booked hmap hp.awake⟩, _, ⟨max m f, hm.calm, Nat.le_refl _⟩, ?_⟩
  refine Nat.add_le_add_left (Nat.mul_le_mul_left _ (Nat.le_of_lt (Nat.mod_lt _ ?_))) _
  have hseldom := hp.seldom
  omega

theorem Reach.pendingRdQ_eq_nil (hmap : config.Mapped) (hp : Paced config m f n) (h : Reach config c)
    (hbound : c.clk + n < 2 ^ 64) (hwrites : c.writeBuffer = []) (hidle : Idle config c) : c.pendingRdQ = [] := by
  have hkept := (h.accounted hmap hp.spaced).kept hbound
  obtain ⟨hunified, hreads⟩ := Nat.add_eq_zero_iff.mp hidle.waiting
  refine Multimap.eq_nil_of_keyCount fun a => ?_
  by_contra hpos
  have hmem := hkept.read a (Nat.pos_of_ne_zero hpos)
  unfold line CommandQueue.line at hmem
  rw [hidle.queues _ (getQueueIndex_mem (hmap.bank a)), List.eq_nil_of_length_eq_zero hunified,
    List.eq_nil_of_length_eq_zero hreads, hwrites] at hmem
  cases hmem

/-! ## Answers -/

/-- The time from a read command to its answer; what needs no command takes one cycle. -/
def answerTime (config : Config) : Nat := max 1 config.readDelay.toNat

/-- What has been answered is on its way for no longer than that. -/
def Soon (config : Config) (c : Controller) : Prop := ∀ t ∈ c.returnQueue, t.completeCycle ≤ c.clk + answerTime config

theorem Soon.issued (hdelay : 0 ≤ config.readDelay) (h : Soon config c) (hi : Issued config cmd c c') : Soon config c' := by
  rw [hi.eq]
  unfold completed
  intro t ht
  split at ht
  · rcases List.mem_append.mp ht with ht | ht
    · exact h t ht
    · obtain ⟨it, -, rfl⟩ := List.mem_map.mp ht
      refine later_le ⟨hdelay, ?_⟩
      unfold answerTime
      omega
  · split at ht
    · exact h t ht
    · exact h t ht

theorem Soon.atom (hdelay : 0 ≤ config.readDelay) (h : Soon config c) (step : Atom config c c') : Soon config c' := by
  cases step with
  | demand =>
    rw [tickRefresh_eq]
    exact h
  | book => exact h
  | issue hsel hissue =>
    obtain ⟨q, rfl, -⟩ := hsel.frame
    exact Soon.issued (c := { c with cmdQueue := q }) hdelay h (issueCommand_spec hissue)
  | lose _ _ _ _ hsel =>
    obtain ⟨q, rfl, -⟩ := hsel.frame
    exact h
  | refresh _ _ hissue => exact h.issued hdelay (issueCommand_spec hissue)
  | selfRefresh _ _ _ _ hissue => exact h.issued hdelay (issueCommand_spec hissue)
  | idle => exact h
  | schedule =>
    rw [scheduleTransaction_eq]
    exact h
  | advance => exact fun t ht => Nat.le_trans (h t ht) (Nat.add_le_add_right (Nat.le_succ _) _)

theorem Soon.add (h : Soon config c) (t : Transaction) : Soon config (c.addTransaction config t) := by
  have hadd := addTransaction_spec config c t
  have hnext : Soon config { c with returnQueue :=
      c.returnQueue ++ [{ t with addedCycle := c.clk, completeCycle := c.clk + 1 }] } := by
    intro t' ht'
    rcases List.mem_append.mp ht' with ht' | ht'
    · exact h t' ht'
    · rw [List.mem_singleton.mp ht']
      exact Nat.add_le_add_left (Nat.le_max_left _ _) _
  generalize c.addTransaction config t = c' at hadd ⊢
  cases hadd with
  | write =>
    rw [enqueued_eq]
    exact hnext
  | merge => exact hnext
  | read =>
    rw [enqueued_eq]
    exact h
  | join => exact h

theorem Reach.soon (hdelay : 0 ≤ config.readDelay) (h : Reach config c) : Soon config c :=
  h.invariant (fun _ ht => absurd ht List.not_mem_nil) (fun t hc => hc.add t)
    (fun _ hc t ht => hc t (List.mem_of_mem_eraseP ht)) fun hc step => hc.atom hdelay step

theorem atom_settled (h : c.pendingRdQ = []) (step : Atom config c c') :
    c'.pendingRdQ = [] ∧ c'.returnQueue = c.returnQueue := by
  have hissued : ∀ {c₁ c₂ : Controller} {cmd : Command}, Issued config cmd c₁ c₂ → c₁.pendingRdQ = [] →
      c₂.pendingRdQ = [] ∧ c₂.returnQueue = c₁.returnQueue := by
    intro c₁ c₂ cmd hi h₁
    have hread : ¬ cmd.cmdType.isRead = true := by
      intro hread
      have hpos := hi.read hread
      rw [h₁] at hpos
      cases hpos
    rw [hi.eq]
    unfold completed
    rw [if_neg hread]
    split <;> exact ⟨h₁, rfl⟩
  cases step with
  | demand =>
    rw [tickRefresh_eq]
    exact ⟨h, rfl⟩
  | book => exact ⟨h, rfl⟩
  | issue hsel hissue =>
    obtain ⟨q, rfl, -⟩ := hsel.frame
    have hboth := hissued (issueCommand_spec hissue) h
    exact hboth
  | lose _ _ _ _ hsel =>
    obtain ⟨q, rfl, -⟩ := hsel.frame
    exact ⟨h, rfl⟩
  | refresh _ _ hissue => exact hissued (issueCommand_spec hissue) h
  | selfRefresh _ _ _ _ hissue => exact hissued (issueCommand_spec hissue) h
  | idle => exact ⟨h, rfl⟩
  | schedule =>
    rw [scheduleTransaction_eq]
    exact ⟨h, rfl⟩
  | advance => exact ⟨h, rfl⟩

theorem clockTick_settled (h : c.pendingRdQ = []) (htick : c.clockTick config = .ok c') :
    c'.pendingRdQ = [] ∧ c'.returnQueue = c.returnQueue := by
  refine (clockTick_atoms htick).invariant (P := fun c' => c'.pendingRdQ = [] ∧ c'.returnQueue = c.returnQueue) ?_ ⟨h, rfl⟩
  rintro c₁ c₂ ⟨h₁, hsame⟩ step
  obtain ⟨h₂, hsame'⟩ := atom_settled h₁ step
  exact ⟨h₂, hsame'.trans hsame⟩

end

end Controller

end Dramsim3

end Anna
