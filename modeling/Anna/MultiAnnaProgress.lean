import Anna.MultiAnnaSound
import Anna.CoreProgress

/-!
# Runs that end

Stacks that answer every read at their next tick, without the switch, are
prompt: what a core asks for in one tick is back two ticks later. On them the
main loop ends for every work list that gives each core a set.
-/

namespace Anna

namespace MultiMemoryInterface

/-! ## Ideal stacks without the switch -/

section
variable {δ : Type}

def traffic (s : MultiMemoryInterface δ) : MemorySwitch 8 × (Port → List UInt64) × (Port → δ) :=
  (s.memorySwitch, s.readRequestQueue, s.memorySystemList)

theorem readCallback_traffic {s : MultiMemoryInterface δ} (h : s.useMemorySwitch = false) (st : Port) (addr : UInt64) :
    (s.readCallback st addr).useMemorySwitch = false ∧ (s.readCallback st addr).traffic = s.traffic := by
  rcases readCallback_cases s st addr with ⟨-, heq⟩ | ⟨id, -, -, heq⟩ | ⟨id, -, hr, -⟩
  · rw [heq]
    exact ⟨h, rfl⟩
  · rw [heq]
    exact ⟨h, rfl⟩
  · exact absurd (h.symm.trans hr.1) Bool.false_ne_true

theorem readCallbacks_traffic (st : Port) (addrs : List UInt64) {s : MultiMemoryInterface δ}
    (h : s.useMemorySwitch = false) :
    (addrs.foldl (fun s addr => s.readCallback st addr) s).useMemorySwitch = false ∧
      (addrs.foldl (fun s addr => s.readCallback st addr) s).traffic = s.traffic := by
  induction addrs generalizing s with
  | nil => exact ⟨h, rfl⟩
  | cons addr addrs ih =>
    obtain ⟨hoff, ht⟩ := readCallback_traffic h st addr
    obtain ⟨hoff', ht'⟩ := ih hoff
    exact ⟨hoff', ht'.trans ht⟩

end

theorem fill_ideal (d : IdealDram) (q : List UInt64) : fill d q = (d ++ q, [], q.length) := by
  induction q generalizing d with
  | nil => rw [List.append_nil]; rfl
  | cons addr q ih =>
    show ((fill (d ++ [addr]) q).1, (fill (d ++ [addr]) q).2.1, (fill (d ++ [addr]) q).2.2 + 1) = _
    rw [ih, List.append_assoc]
    rfl

section
variable {m : MultiMemoryInterface IdealDram}

theorem tickStack_traffic (h : m.useMemorySwitch = false) (i : Port) :
    (m.tickStack i).useMemorySwitch = false ∧ (m.tickStack i).traffic =
      (m.memorySwitch, Function.update m.readRequestQueue i [],
        Function.update m.memorySystemList i (m.readRequestQueue i)) := by
  let m₁ : MultiMemoryInterface IdealDram := { m with memorySystemList := Function.update m.memorySystemList i [] }
  let m₂ := (m.memorySystemList i).foldl (fun s addr => s.readCallback i addr) m₁
  have h₁ : m₁.useMemorySwitch = false := h
  obtain ⟨hoff, ht⟩ := readCallbacks_traffic i (m.memorySystemList i) h₁
  simp only [traffic, Prod.mk.injEq] at ht
  obtain ⟨hs, hq, hd⟩ := ht
  refine ⟨hoff, ?_⟩
  show (m₂.memorySwitch, Function.update m₂.readRequestQueue i
      (fill (m₂.memorySystemList i) (m₂.readRequestQueue i)).2.1,
    Function.update m₂.memorySystemList i (fill (m₂.memorySystemList i) (m₂.readRequestQueue i)).1) = _
  have hs' : m₂.memorySwitch = m.memorySwitch := hs
  have hq' : m₂.readRequestQueue = m.readRequestQueue := hq
  have hd' : m₂.memorySystemList = Function.update m.memorySystemList i [] := hd
  rw [fill_ideal, hs', hq', hd', Function.update_self, Function.update_idem, List.nil_append]

theorem tickStacks_traffic : ∀ (l : List Port), l.Nodup → ∀ {m : MultiMemoryInterface IdealDram},
    m.useMemorySwitch = false → (l.foldl tickStack m).useMemorySwitch = false ∧ (l.foldl tickStack m).traffic =
      (m.memorySwitch, fun st => if st ∈ l then [] else m.readRequestQueue st,
        fun st => if st ∈ l then m.readRequestQueue st else m.memorySystemList st)
  | [], _, m, h => ⟨h, by simp [traffic]⟩
  | i :: l, hn, m, h => by
    obtain ⟨hi, hl⟩ := List.nodup_cons.mp hn
    obtain ⟨hoff, ht⟩ := tickStack_traffic h i
    obtain ⟨hoff', ht'⟩ := tickStacks_traffic l hl hoff
    simp only [traffic, Prod.mk.injEq] at ht
    obtain ⟨hs, hq, hd⟩ := ht
    refine ⟨hoff', ht'.trans ?_⟩
    rw [hs, hq, hd]
    refine Prod.ext rfl (Prod.ext ?_ ?_)
    · funext st
      by_cases hst : st = i
      · subst hst; simp [hi]
      · simp [hst]
    · funext st
      by_cases hst : st = i
      · subst hst; simp [hi]
      · simp [hst]

theorem clockTick_traffic (h : m.useMemorySwitch = false) : m.clockTick.useMemorySwitch = false ∧
    m.clockTick.memorySwitch = m.memorySwitch ∧ (∀ st, m.clockTick.readRequestQueue st = []) ∧
      m.clockTick.memorySystemList = m.readRequestQueue := by
  obtain ⟨hoff, ht⟩ := tickStacks_traffic (List.finRange 8) (List.nodup_finRange 8) h
  have hclock : m.clockTick = (List.finRange 8).foldl tickStack m := by
    unfold clockTick
    rw [h]
    rfl
  simp only [traffic, Prod.mk.injEq, List.mem_finRange, if_true] at ht
  rw [hclock]
  exact ⟨hoff, ht.1, fun st => congrFun ht.2.1 st, ht.2.2⟩

end

/-- An interface with `N` ids that works without the switch. -/
structure Direct (N : Nat) (m : MultiMemoryInterface IdealDram) : Prop where
  reach : Reachable false m
  num : m.idNum = N
  off : m.useMemorySwitch = false
  switch : m.memorySwitch = MemorySwitch.empty

section
variable {N : Nat} {m : MultiMemoryInterface IdealDram}

theorem Direct.clockTick (h : Direct N m) : Direct N m.clockTick := by
  obtain ⟨hoff, hs, -, -⟩ := clockTick_traffic h.off
  have hreach : Reachable false (m.exec .clockTick) := h.reach.step .clockTick trivial trivial
  refine ⟨hreach, ?_, hoff, hs.trans h.switch⟩
  rw [(clockTick_frame m).2.1]
  exact h.num

theorem Direct.requestRead (h : Direct N m) {id : Nat} (hid : id < N) (addr : UInt64) :
    Direct N (m.requestRead id addr) := by
  obtain ⟨hoff, hnum, -⟩ := requestRead_frame m id addr
  have hlocal : ¬ m.Remote id (stackOf addr) := fun hr => Bool.false_ne_true (h.off.symm.trans hr.1)
  have hreg : id < m.idNum := h.num.symm ▸ hid
  refine ⟨.step (.requestRead id addr) h.reach hreg trivial, hnum.trans h.num, hoff.trans h.off, ?_⟩
  rw [requestRead_local hlocal]
  exact h.switch

theorem Direct.getAll (h : Direct N m) {id : Nat} (hid : id < N) : Direct N (m.getAllReadyReadRequest id).2 := by
  have hreg : id < m.idNum := h.num.symm ▸ hid
  exact ⟨.step (.getAllReadyReadRequest id) h.reach hreg trivial, h.num, h.off, h.switch⟩

end

/-! ## What has been answered -/

section
variable {δ : Type} {s : MultiMemoryInterface δ}

/-- The ids that wait for an address of a stack, the oldest first. -/
def asked (s : MultiMemoryInterface δ) (st : Port) (a : UInt64) : List Nat := (s.idMap st).vals a

theorem readCallback_asked (h : s.useMemorySwitch = false) (st st' : Port) (addr a : UInt64) :
    (s.readCallback st addr).asked st' a =
      if st' = st ∧ addr = a then (s.asked st' a).tail else s.asked st' a := by
  rcases readCallback_cases s st addr with ⟨hf, heq⟩ | ⟨id, hf, -, heq⟩ | ⟨id, -, hr, -⟩
  · rw [heq]
    show s.asked st' a = _
    split
    · rename_i hst
      obtain ⟨rfl, rfl⟩ := hst
      rw [Multimap.find?_eq_head, List.head?_eq_none_iff] at hf
      rw [asked, hf]
      rfl
    · rfl
  · rw [heq]
    show Multimap.vals (Function.update s.idMap st ((s.idMap st).erase addr) st') a = _
    by_cases hst : st' = st
    · subst hst
      rw [Function.update_self, Multimap.vals_erase]
      simp [asked]
    · simp [hst, asked]
  · exact absurd (h.symm.trans hr.1) Bool.false_ne_true

theorem readCallbacks_asked (st : Port) (addrs : List UInt64) (h : s.useMemorySwitch = false) (st' : Port)
    (a : UInt64) : (addrs.foldl (fun s addr => s.readCallback st addr) s).asked st' a =
      if st' = st then (s.asked st' a).drop (addrs.count a) else s.asked st' a := by
  induction addrs generalizing s with
  | nil => simp
  | cons addr addrs ih =>
    rw [List.foldl_cons, ih (readCallback_traffic h st addr).1, readCallback_asked h]
    by_cases hst : st' = st
    · by_cases ha : addr = a
      · subst ha
        simp [hst, List.drop_tail]
      · simp [hst, ha]
    · simp [hst]

end

section
variable {N : Nat} {m : MultiMemoryInterface IdealDram}

theorem tickStack_asked (h : m.useMemorySwitch = false) (i st : Port) (a : UInt64) :
    (m.tickStack i).asked st a =
      if st = i then (m.asked st a).drop ((m.memorySystemList st).count a) else m.asked st a := by
  let m₁ : MultiMemoryInterface IdealDram := { m with memorySystemList := Function.update m.memorySystemList i [] }
  have hcalls := readCallbacks_asked (s := m₁) i (m.memorySystemList i) h st a
  show ((m.memorySystemList i).foldl (fun s addr => s.readCallback i addr) m₁).asked st a = _
  rw [hcalls]
  split
  · rename_i hst
    subst hst
    rfl
  · rfl

theorem tickStacks_asked (st : Port) (a : UInt64) : ∀ (l : List Port), l.Nodup →
    ∀ {m : MultiMemoryInterface IdealDram}, m.useMemorySwitch = false → (l.foldl tickStack m).asked st a =
      if st ∈ l then (m.asked st a).drop ((m.memorySystemList st).count a) else m.asked st a
  | [], _, m, _ => rfl
  | i :: l, hn, m, h => by
    obtain ⟨hi, hl⟩ := List.nodup_cons.mp hn
    obtain ⟨hoff, ht⟩ := tickStack_traffic h i
    simp only [traffic, Prod.mk.injEq] at ht
    rw [List.foldl_cons, tickStacks_asked st a l hl hoff, tickStack_asked h, ht.2.2]
    by_cases hst : st = i
    · subst hst; simp [hi]
    · simp [hst]

theorem clockTick_asked (h : m.useMemorySwitch = false) (st : Port) (a : UInt64) :
    m.clockTick.asked st a = (m.asked st a).drop ((m.memorySystemList st).count a) := by
  have hclock : m.clockTick = (List.finRange 8).foldl tickStack m := by
    unfold clockTick
    rw [h]
    rfl
  rw [hclock, tickStacks_asked st a _ (List.nodup_finRange 8) h, if_pos (List.mem_finRange st)]

/-- All reads of the id have reached their stacks, so they are back after the next tick. -/
def Answered (m : MultiMemoryInterface IdealDram) (id : Nat) : Prop :=
  ∀ st a, id ∉ (m.asked st a).drop ((m.memorySystemList st).count a)

theorem Answered.tagged {id : Nat} (h : m.Answered id) (hd : Direct N m) : m.clockTick.taggedNum id = 0 := by
  apply Finset.sum_eq_zero
  intro st _
  rw [Multimap.tagged, List.countP_eq_zero]
  intro e he hid
  apply h st e.1
  rw [← clockTick_asked hd.off, asked, Multimap.vals, List.mem_map]
  exact ⟨e, List.mem_filter.mpr ⟨he, by simp⟩, by simpa using hid⟩

/-- Without waiting requests everything is with the stacks. -/
theorem Direct.answered (h : Direct N m) (hq : ∀ st, m.readRequestQueue st = []) (id : Nat) : m.Answered id := by
  intro st a
  have hcount : (m.asked st a).length = (m.readRequestQueue st).count a + m.memorySwitch.req.bound st a +
      (m.memorySystemList st).count a + m.memorySwitch.res.sent st a := reachable_keyCount h.reach st a
  have hlen : (m.asked st a).length = (m.memorySystemList st).count a := by
    rw [hcount, hq, h.switch]
    simp [MemorySwitch.empty]
  rw [List.drop_of_length_le (Nat.le_of_eq hlen)]
  exact List.not_mem_nil

theorem Answered.requestRead {id id' : Nat} (h : m.Answered id) (hne : id' ≠ id) (x : UInt64) :
    (m.requestRead id' x).Answered id := by
  intro st a
  rw [requestRead_mem, asked, (requestRead_idMap m id' x).1]
  by_cases hst : st = stackOf x
  · subst hst
    rw [Function.update_self, Multimap.vals_insert]
    rw [List.drop_append, List.mem_append]
    rintro (hold | hnew)
    · exact h _ _ hold
    · have hmem := List.mem_of_mem_drop hnew
      split at hmem
      · exact hne (List.mem_singleton.mp hmem).symm
      · cases hmem
  · rw [Function.update_of_ne hst]
    exact h st a

end

end MultiMemoryInterface

/-! ## What cores do to the memory -/

namespace ANNACore

def readers (c : ANNACore) : List MemoryReader := [c.cpm.memoryReader, c.efm.metadataReader, c.efm.vectorReader]

section
variable {μ : Type} [MemoryPort μ] {c : ANNACore} {w : World μ}

theorem clockTick_memory {P : μ → Prop} (clusterAddr : Nat → Cluster)
    (hreq : ∀ r ∈ c.readers, r.requestQueue ≠ [] → ∀ m addr, P m → P (MemoryPort.requestRead m r.id addr))
    (hget : ∀ r ∈ c.readers, ∀ m, P m → P (MemoryPort.getAllReadyReadRequest m r.id).2) (h : P w.memory) :
    P (c.clockTick clusterAddr w).2.memory := by
  simp only [readers, List.mem_cons, List.not_mem_nil, or_false, forall_eq_or_imp, forall_eq] at hreq hget
  rw [clockTick_readers]
  apply MemoryReader.clockTick_memory hreq.2.2 hget.2.2
  apply MemoryReader.clockTick_memory hreq.2.1 hget.2.1
  exact MemoryReader.clockTick_memory hreq.1 hget.1 h

end

section
variable {c : ANNACore} {w : World (MultiMemoryInterface IdealDram)}

theorem clockTick_direct {N : Nat} (clusterAddr : Nat → Cluster) (hids : ∀ id ∈ c.readerIds, id < N)
    (h : w.memory.Direct N) : (c.clockTick clusterAddr w).2.memory.Direct N := by
  have hr : ∀ r ∈ c.readers, r.id < N := by
    intro r hr
    exact hids _ (List.mem_map_of_mem (f := MemoryReader.id) hr)
  apply clockTick_memory clusterAddr _ _ h
  · intro r hmem _ m addr hm
    exact hm.requestRead (hr r hmem) addr
  · intro r hmem m hm
    exact hm.getAll (hr r hmem)

theorem clockTick_taggedNum {δ : Type} (clusterAddr : Nat → Cluster) (c : ANNACore)
    (w : World (MultiMemoryInterface δ)) {id : Nat} (h : id ∉ c.readerIds) :
    (c.clockTick clusterAddr w).2.memory.taggedNum id = w.memory.taggedNum id := by
  simp only [readerIds, List.mem_cons, List.not_mem_nil, or_false, not_or] at h
  obtain ⟨h1, h2, h3⟩ := h
  rw [clockTick_readers, MemoryReader.clockTick_taggedNum _ _ (Ne.symm h3),
    MemoryReader.clockTick_taggedNum _ _ (Ne.symm h2), MemoryReader.clockTick_taggedNum _ _ (Ne.symm h1)]

/-- Reads of an id whose reader has nothing to issue stay answered. -/
theorem clockTick_answered (clusterAddr : Nat → Cluster) {id : Nat}
    (hid : ∀ r ∈ c.readers, r.id = id → r.requestQueue = []) (h : w.memory.Answered id) :
    (c.clockTick clusterAddr w).2.memory.Answered id := by
  apply clockTick_memory (P := fun m : MultiMemoryInterface IdealDram => m.Answered id) clusterAddr _ _ h
  · intro r hr hne m addr hm
    exact hm.requestRead (fun heq => hne (hid r hr heq)) addr
  · intro r _ m hm
    exact hm

end

end ANNACore

/-! ## The loop ends -/

namespace MultiANNA

open ANNACore

/-- A state of a run on ideal stacks without the switch; `as` are the cores a tick earlier. -/
structure Staged (clusterAddr : Nat → Cluster) (P : List (Nat × List Nat)) (b : Int32) (N : Nat)
    (as : List ANNACore) (s : MultiANNA IdealDram) : Prop where
  running : Running clusterAddr P b s
  ids : ∀ id ∈ s.annaCoreList.flatMap readerIds, id < N
  direct : s.memory.Direct N
  prompt : ∀ (i : Nat) c, s.annaCoreList[i]? = some c → ∃ a, as[i]? = some a ∧ Prompt a c s.memory.Answered

section
variable {clusterAddr : Nat → Cluster} {P : List (Nat × List Nat)} {b : Int32} {N : Nat}
  {as : List ANNACore} {s : MultiANNA IdealDram}

theorem Staged.tick (h : Staged clusterAddr P b N as s) {i : Nat} {d : ANNACore}
    (hd : (s.clockTick clusterAddr).annaCoreList[i]? = some d) :
    ∃ a c, as[i]? = some a ∧ s.annaCoreList[i]? = some c ∧ ∃ w : World (MultiMemoryInterface IdealDram),
      Reach clusterAddr ((deal coreNum P i).map Prod.fst) ((deal coreNum P i).map Prod.snd) b c w ∧
        Prompt a c (fun id => w.memory.taggedNum id = 0) ∧ d = (c.clockTick clusterAddr w).1 := by
  -- what is answered when the interface ticks stays so until the core's turn comes
  obtain ⟨c, w, hc, hr, htag, rfl, -⟩ := tickCores_each clusterAddr s.annaCoreList ⟨s.memory.clockTick, s.testValue⟩
    (M := fun id m => s.memory.clockTick.taggedNum id = 0 → m.taggedNum id = 0) h.running.ids
    (h.running.memoryTick clusterAddr) (fun _ _ hz => hz)
    (fun c w id hid hw hz => (clockTick_taggedNum clusterAddr c w hid).trans (hw hz)) i d hd
  obtain ⟨a, ha, hp⟩ := h.prompt i c hc
  refine ⟨a, c, ha, hc, w, hr, hp.mono ?_, rfl⟩
  intro id hid hans
  exact htag id hid (hans.tagged h.direct)

theorem Staged.clockTick (h : Staged clusterAddr P b N as s) :
    Staged clusterAddr P b N s.annaCoreList (s.clockTick clusterAddr) := by
  have hids : ∀ c ∈ s.annaCoreList, ∀ id ∈ c.readerIds, id < N := by
    intro c hc id hid
    exact h.ids id (List.mem_flatMap.mpr ⟨c, hc, hid⟩)
  refine ⟨h.running.clockTick, ?_, ?_, ?_⟩
  · show ∀ id ∈ (tickCores clusterAddr s.annaCoreList _).1.flatMap readerIds, id < N
    rw [tickCores_ids]
    exact h.ids
  · apply tickCores_memory clusterAddr (P := MultiMemoryInterface.Direct N) s.annaCoreList
    · intro c hc w hw
      exact clockTick_direct clusterAddr (hids c hc) hw
    · exact h.direct.clockTick
  · intro i d hd
    obtain ⟨-, c, -, hc, w, -, -, rfl⟩ := h.tick hd
    -- only a reader with a queue asks, and no two readers share an id
    have hsame : ∀ c' ∈ s.annaCoreList, ∀ r' ∈ c'.readers, ∀ r ∈ c.readers, r'.id = r.id → r' = r := by
      intro c' hc' r' hr' r hr
      have hnodup : ((s.annaCoreList.flatMap readers).map MemoryReader.id).Nodup := by
        rw [List.map_flatMap]
        exact h.running.ids
      exact List.inj_on_of_nodup_map hnodup (List.mem_flatMap.mpr ⟨c', hc', hr'⟩)
        (List.mem_flatMap.mpr ⟨c, List.mem_of_getElem? hc, hr⟩)
    have hkeep : ∀ r ∈ c.readers, r.requestQueue = [] → (s.clockTick clusterAddr).memory.Answered r.id := by
      intro r hr hq
      apply tickCores_memory clusterAddr (P := fun m : MultiMemoryInterface IdealDram => m.Answered r.id)
        s.annaCoreList
      · intro c' hc' w hw
        apply clockTick_answered clusterAddr _ hw
        intro r' hr' hid
        rw [hsame c' hc' r' hr' r hr hid]
        exact hq
      · exact h.direct.clockTick.answered (MultiMemoryInterface.clockTick_traffic h.direct.off).2.2.1 r.id
    have hid := clockTick_readerIds clusterAddr c w
    simp only [readerIds, List.cons.injEq, and_true] at hid
    obtain ⟨h1, h2, h3⟩ := hid
    simp only [readers, List.mem_cons, List.not_mem_nil, or_false, forall_eq_or_imp, forall_eq] at hkeep
    refine ⟨c, hc, ⟨?_, ?_, ?_⟩⟩
    · rw [h1]; exact hkeep.1
    · rw [h2]; exact hkeep.2.1
    · rw [h3]; exact hkeep.2.2

theorem Staged.falls (h : Staged clusterAddr P b N as s) (hP : ∀ g ∈ P, g.2 ≠ []) (hb : 0 < batchOfInt b)
    (hwork : ∀ i < coreNum, deal coreNum P i ≠ []) {i : Nat} {d : ANNACore}
    (hd : (s.clockTick clusterAddr).annaCoreList[i]? = some d) :
    ∃ a c, as[i]? = some a ∧ s.annaCoreList[i]? = some c ∧
      (d.todo < c.todo ∨ d.todo = c.todo ∧ c.delay d ≤ a.delay c - 1 ∧ (a.delay c = 0 → d.isFinished = true)) := by
  obtain ⟨a, c, ha, hc, w, hr, hp, rfl⟩ := h.tick hd
  have hod := h.running.clockTick.orderly hP hb hd
  obtain ⟨hcl, hqs, hbs⟩ := reach_work hr
  obtain ⟨-, hqs', hbs'⟩ := reach_work hr.clockTick
  have hne : c.clusterList ≠ [] := by
    rw [hcl]
    intro hnil
    exact hwork i (h.running.length ▸ (List.getElem?_eq_some_iff.mp hc).1) (List.map_eq_nil_iff.mp hnil)
  have hlog := hod.log_length
  refine ⟨a, c, ha, hc, ?_⟩
  unfold todo
  rw [hqs', hbs'] at hlog ⊢
  rw [hqs, hbs]
  rcases clockTick_delay hr (h.running.orderly hP hb hc) hne hp with hlt | ⟨heq, hrest⟩
  · left
    omega
  · right
    exact ⟨by rw [heq], hrest⟩

end

section
variable {δ : Type} [MemorySystem δ] {clusterAddr : Nat → Cluster}

theorem loop_clockTick {fuel : Nat} {s : MultiANNA δ}
    (h : ∃ s', loop clusterAddr fuel (s.clockTick clusterAddr) = some s') :
    ∃ s', loop clusterAddr (fuel + 1) s = some s' := by
  rw [loop]
  split
  · exact ⟨_, rfl⟩
  · exact h

theorem loop_mono : ∀ {fuel fuel' : Nat} {s s' : MultiANNA δ}, fuel ≤ fuel' → loop clusterAddr fuel s = some s' →
    loop clusterAddr fuel' s = some s' := by
  intro fuel
  induction fuel with
  | zero => intro fuel' s s' _ h; cases h
  | succ fuel ih =>
    intro fuel' s s' hle h
    obtain ⟨n, rfl⟩ := Nat.exists_eq_add_of_le hle
    rw [Nat.add_right_comm, loop]
    rw [loop] at h
    by_cases hall : (s.clockTick clusterAddr).annaCoreList.all isFinished = true
    · rw [if_pos hall] at h ⊢
      exact h
    · rw [if_neg hall] at h ⊢
      exact ih (Nat.le_add_right _ _) h

end

theorem Staged.loop_exits {clusterAddr : Nat → Cluster} {P : List (Nat × List Nat)} {b : Int32} {N : Nat}
    (hP : ∀ g ∈ P, g.2 ≠ []) (hb : 0 < batchOfInt b) (hwork : ∀ i < coreNum, deal coreNum P i ≠ [])
    {as : List ANNACore} {s : MultiANNA IdealDram} (h : Staged clusterAddr P b N as s) :
    ∃ fuel s', loop clusterAddr fuel s = some s' := by
  apply goal_of_ranks (α := List ANNACore × MultiANNA IdealDram)
    (f := fun p => (p.2.annaCoreList.map todo).sum) (g := fun p => (p.1.zipWith delay p.2.annaCoreList).sum)
    (I := fun p => Staged clusterAddr P b N p.1 p.2) (E := fun p => ∃ fuel s', loop clusterAddr fuel p.2 = some s')
    _ (as, s) h
  rintro ⟨as, s⟩ h
  have hlen : (s.clockTick clusterAddr).annaCoreList.length = s.annaCoreList.length :=
    h.running.clockTick.length.trans h.running.length.symm
  have hback : (∃ fuel s', loop clusterAddr fuel (s.clockTick clusterAddr) = some s') →
      ∃ fuel s', loop clusterAddr fuel s = some s' := by
    rintro ⟨fuel, hE⟩
    exact ⟨fuel + 1, loop_clockTick hE⟩
  rcases ranks_fall hlen fun i d hd => h.falls hP hb hwork hd with hlt | ⟨heq, hlt | ⟨-, hall⟩⟩
  · exact Or.inr ⟨(s.annaCoreList, s.clockTick clusterAddr), h.clockTick, hback, Or.inl hlt⟩
  · exact Or.inr ⟨(s.annaCoreList, s.clockTick clusterAddr), h.clockTick, hback, Or.inr ⟨heq, hlt⟩⟩
  · refine Or.inl ⟨1, s.clockTick clusterAddr, ?_⟩
    rw [loop, if_pos (List.all_eq_true.mpr hall)]

section
variable (clusterAddr : Nat → Cluster) (unset : Port → Nat × Nat)

theorem new_memory {δ : Type} {useMemorySwitch : Bool} {mem : Port → δ} {I : MultiMemoryInterface δ → Prop}
    (hnew : I (MultiMemoryInterface.new useMemorySwitch mem)) (hreg : ∀ m coreId, I m → I (m.registerId coreId)) :
    I (new useMemorySwitch mem unset).memory := by
  have hfold : ∀ (ports : List Port) (s : MultiMemoryInterface δ × List ANNACore), I s.1 →
      I (ports.foldl (addCore unset) s).1 := by
    intro ports
    induction ports with
    | nil => intro s h; exact h
    | cons p ports ih =>
      intro s h
      apply ih
      exact hreg _ p (hreg _ p (hreg _ p h))
  exact hfold _ _ hnew

theorem staged_setupCores (queries : List (List Nat)) (batchSize : UInt64) (ws : List (Nat × Nat)) :
    let s := ((new false (fun _ => ([] : IdealDram)) unset).setup queries).setupCores batchSize ws
    Staged clusterAddr (groups queries ws) (intOfUint64 batchSize) s.memory.idNum s.annaCoreList s := by
  intro s
  have hidle : (∀ st, s.memory.readRequestQueue st = []) ∧ s.memory.useMemorySwitch = false ∧
      s.memory.memorySwitch = MemorySwitch.empty :=
    new_memory (I := fun m => (∀ st, m.readRequestQueue st = []) ∧ m.useMemorySwitch = false ∧
      m.memorySwitch = MemorySwitch.empty) unset ⟨fun _ => rfl, rfl, rfl⟩ fun _ _ h => h
  have hreach : MultiMemoryInterface.Reachable false s.memory :=
    new_memory unset (.new _ fun _ _ => rfl) fun _ coreId h => h.step (.registerId coreId) trivial trivial
  have hdirect : s.memory.Direct s.memory.idNum := ⟨hreach, rfl, hidle.2.1, hidle.2.2⟩
  refine ⟨running_setupCores clusterAddr _ _ unset queries batchSize ws, ?_, hdirect, ?_⟩
  · intro id hid
    rw [setupCores_ids] at hid
    exact List.mem_range.mp hid
  · intro i c hc
    refine ⟨c, hc, ⟨?_, ?_, ?_⟩⟩ <;> exact fun _ => hdirect.answered hidle.1 _

/-- On ideal stacks a run with work for every core exits. -/
theorem run_exits {queries : List (List Nat)} {batchSize : UInt64} {fuel : Nat} {ws : List (Nat × Nat)}
    (hws : windows batchSize.toNat queries.length fuel 0 = some ws)
    (hb : 0 < batchOfInt (intOfUint64 batchSize))
    (hwork : ∀ i < coreNum, deal coreNum (groups queries ws) i ≠ []) :
    ∃ fuel s, run clusterAddr fuel batchSize ((new false (fun _ => ([] : IdealDram)) unset).setup queries) =
      some s := by
  obtain ⟨n, s, hs⟩ := (staged_setupCores clusterAddr unset queries batchSize ws).loop_exits
    (fun _ => groups_ne_nil) hb hwork
  refine ⟨fuel + n, s, Option.bind_eq_some_iff.mpr ⟨ws, windows_mono (Nat.le_add_right _ _) hws, ?_⟩⟩
  exact loop_mono (Nat.le_add_left _ _) hs

end

end MultiANNA

namespace ANNACore

open MultiANNA

-- two queries on eight clusters, the first of which names each twice: core 0 at the end of the run
theorem slices_in_order_finished : ∃ (c : ANNACore) (w : World (MultiMemoryInterface IdealDram)),
    Reach (fun _ => ⟨clusterAddrStart, 32, 1⟩) [0, 0] [[0, 0], [1]] 1 c w ∧ c.isFinished = true ∧
      c.cpmSlices <+: [⟨0, 0, 1⟩, ⟨0, 1, 2⟩, ⟨1, 0, 1⟩] ∧ c.savedSlices.countP (Slice.covers 0 0) = 1 ∧
      c.savedSlices.countP (Slice.covers 0 1) = 1 ∧ c.savedSlices.countP (Slice.covers 1 0) = 1 := by
  let queries := [(List.range 8).flatMap fun i => [i, i], List.range 8]
  have hws : windows (UInt64.toNat 1) queries.length 3 0 = some [(0, 1), (1, 2)] := by decide
  have hgroups : groups queries [(0, 1), (1, 2)] =
      ((List.range 8).map fun i => (i, [0, 0])) ++ (List.range 8).map fun i => (i, [1]) := by
    rw [groups, List.flatMap_cons, List.flatMap_singleton, groupsOf_bucket (n := 8) (by decide) (by decide),
      groupsOf_bucket (n := 8) (by decide) (by decide)]
    decide +kernel
  have hwork : ∀ i < coreNum, deal coreNum (groups queries [(0, 1), (1, 2)]) i ≠ [] := by
    rw [hgroups]
    decide
  obtain ⟨fuel, s, hrun⟩ := run_exits (fun _ => ⟨clusterAddrStart, 32, 1⟩) (fun _ => (0, 0)) hws (by decide) hwork
  obtain ⟨ws, hws', hr, -, hf⟩ := run_running _ hrun (I := fun _ => True) (fun _ => trivial) fun _ _ => trivial
  obtain rfl : ws = [(0, 1), (1, 2)] := by
    have := windows_mono (Nat.le_add_right fuel 3) hws'
    rw [windows_mono (Nat.le_add_left 3 fuel) hws] at this
    exact (Option.some.inj this).symm
  have hlen : 0 < s.annaCoreList.length := hr.length.symm ▸ (by decide)
  have hreach := hr.reach 0 _ (List.getElem?_eq_getElem hlen)
  have hdeal : deal coreNum (groups queries [(0, 1), (1, 2)]) 0 = [(0, [0, 0]), (0, [1])] := by
    rw [hgroups]
    decide
  rw [hdeal] at hreach
  have hdone := hf _ (List.getElem_mem hlen)
  have h := slices_in_order hreach (by decide) rfl (by decide) (by decide)
  have hslices : slices (batchOfInt (intOfUint64 1)) [[0, 0], [1]] = [⟨0, 0, 1⟩, ⟨0, 1, 2⟩, ⟨1, 0, 1⟩] := by
    decide +kernel
  exact ⟨_, _, hreach, hdone, hslices ▸ h.1, h.2.2.2.2 hdone 0 (by decide) 0 (by decide),
    h.2.2.2.2 hdone 0 (by decide) 1 (by decide), h.2.2.2.2 hdone 1 (by decide) 0 (by decide)⟩

end ANNACore

end Anna
