import Anna.Dramsim3.ControllerDrains
import Anna.Dramsim3.DramSystemSound

/-!
# Every transaction is answered

A system that has no write pending answers every transaction it has accepted
if it is only given enough time, whatever the run before.
-/

namespace Anna

namespace Dramsim3

namespace JedecDRAMSystem

open Controller (Paced Left drainTime answerTime refreshCost effort)

section
variable {config : Config} {history : List Event} {s : JedecDRAMSystem} {m f n d : Nat}

theorem replay_append (config : Config) (ops ops' : List Op) (r : List Event × JedecDRAMSystem) :
    replay config (ops ++ ops') r = replay config ops r >>= replay config ops' := by
  induction ops generalizing r with
  | nil => rfl
  | cons op ops ih =>
    rw [List.cons_append, replay, replay, bind_assoc]
    exact bind_congr fun r => ih r

theorem exec_tick {l : List Transaction} {s' : JedecDRAMSystem} (h : s.clockTick config = .ok (l, s')) :
    exec config (history, s) .tick = .ok (history ++ l.map (.answered s.clk), s') := by
  unfold exec
  dsimp only
  rw [ok_bind h]
  rfl

/-- A controller that only has answers to give, and the last of them in cycle `d`. -/
structure Settled (d : Nat) (c : Controller) : Prop where
  pendingRdQ : c.pendingRdQ = []
  returnQueue : ∀ t ∈ c.returnQueue, t.completeCycle ≤ d

theorem Settled.tick {clk : Nat} {c c' : Controller} (h : Settled d c)
    (htick : (returned clk c).clockTick config = .ok c') : Settled d c' := by
  obtain ⟨hreads, hsame⟩ := Controller.clockTick_settled (show (returned clk c).pendingRdQ = [] from h.pendingRdQ) htick
  refine ⟨hreads, fun t ht => h.returnQueue t ?_⟩
  rw [hsame] at ht
  exact List.mem_of_mem_filter ht

theorem Settled.last {c c' : Controller} (h : Settled d c) (htick : (returned d c).clockTick config = .ok c') :
    c'.pendingRdQ = [] ∧ c'.returnQueue = [] := by
  obtain ⟨hreads, hsame⟩ := Controller.clockTick_settled (show (returned d c).pendingRdQ = [] from h.pendingRdQ) htick
  refine ⟨hreads, hsame.trans (List.filter_eq_nil_iff.mpr fun t ht => ?_)⟩
  simpa using h.returnQueue t ht

section
variable (hmap : config.Mapped) (hp : Paced config m f n) (hdelay : 0 ≤ config.readDelay)
include hmap hp hdelay

/-- A controller that is done, or will be within `k` ticks. -/
def Settling (config : Config) (m f d k clk : Nat) (c : Controller) : Prop :=
  Settled d c ∨ clk + k + answerTime config ≤ d ∧
    ∃ u < k * (Refresh.refreshInterval config - refreshCost config m f), Left config m f u c

omit hmap hp hdelay in
theorem Settling.done {clk : Nat} {c : Controller} (h : Settling config m f d 0 clk c) : Settled d c := by
  rcases h with hdone | ⟨-, u, hu, -⟩
  · exact hdone
  · rw [Nat.zero_mul] at hu
    cases hu

theorem Settling.tick {k : Nat} {l : List Transaction} {s' : JedecDRAMSystem} (h : Reach config history s)
    (htick : s.clockTick config = .ok (l, s')) (hbound : s'.clk + n < 2 ^ 64) {i : Int} (hi : i ∈ upTo config.channels)
    (hs : Settling config m f d (k + 1) s.clk (s.ctrls i)) : Settling config m f d k s'.clk (s'.ctrls i) := by
  have hticked := clockTick_spec htick
  have hchannel := hticked.channel i hi
  have hclk := hticked.clk
  rcases hs with hdone | ⟨hd, u, hu, hl⟩
  · exact Or.inl (hdone.tick hchannel)
  · have hreach := (h.tick htick).controller i
    have hclk₁ : (returned s.clk (s.ctrls i)).clk = s.clk := h.clk_eq hi
    have hclk₂ := (h.tick htick).clk_eq hi
    have hreturned : Left config m f u (returned s.clk (s.ctrls i)) := hl.returned _
    obtain ⟨hb, hidle | ⟨u', hu', hl'⟩⟩ := hreturned.tick hmap hp (by omega) hchannel
    · refine Or.inl ⟨?_, fun t ht => ?_⟩
      · exact hreach.pendingRdQ_eq_nil hmap hp (by omega) hb.reads.writeBuffer hidle
      · have hsoon := hreach.soon hdelay t ht
        omega
    · rw [Nat.succ_mul] at hu
      exact Or.inr ⟨by omega, u', by omega, hl'⟩

theorem settles {k : Nat} (h : Reach config history s) (hbound : s.clk + k + n < 2 ^ 64)
    (hs : ∀ i ∈ upTo config.channels, Settling config m f d k s.clk (s.ctrls i)) :
    ∃ history' s', replay config (List.replicate k .tick) (history, s) = .ok (history', s') ∧
      Reach config history' s' ∧ s'.clk = s.clk + k ∧ ∀ i ∈ upTo config.channels, Settled d (s'.ctrls i) := by
  induction k generalizing history s with
  | zero => exact ⟨history, s, rfl, h, rfl, fun i hi => (hs i hi).done⟩
  | succ k ih =>
    obtain ⟨l, s', htick⟩ := h.tick_ok hmap hp.awake (Nat.ne_of_gt (Nat.zero_lt_of_lt hp.seldom)) hp.epoch
    have hclk := (clockTick_spec htick).clk
    obtain ⟨history', s'', hrun, h'', hclk', hsettled⟩ := ih (h.tick htick) (by omega)
      fun i hi => (hs i hi).tick hmap hp hdelay h htick (by omega) hi
    refine ⟨history', s'', ?_, h'', by omega, hsettled⟩
    rw [List.replicate_succ, replay, ok_bind (exec_tick htick)]
    exact hrun

/-- The reads are issued first, and then answered. -/
theorem drains (h : Reach config history s)
    (hwrites : ∀ i ∈ upTo config.channels, (s.ctrls i).pendingWrQ = []) {k : Nat}
    (hk : ∀ i ∈ upTo config.channels, drainTime config m f (s.ctrls i) ≤ k)
    (hbound : s.clk + k + answerTime config + n < 2 ^ 64) :
    ∃ history' s', replay config (List.replicate (k + (answerTime config + 1)) .tick) (history, s) = .ok (history', s') ∧
      Reach config history' s' ∧
      ∀ i ∈ upTo config.channels, (s'.ctrls i).pendingRdQ = [] ∧ (s'.ctrls i).returnQueue = [] := by
  have hstart : ∀ i ∈ upTo config.channels,
      Settling config m f (s.clk + k + answerTime config) k s.clk (s.ctrls i) := by
    intro i hi
    have hpos : 0 < Refresh.refreshInterval config - refreshCost config m f := Nat.sub_pos_of_lt hp.seldom
    refine Or.inr ⟨Nat.le_refl _, _, ?_, (h.controller i).left hmap hp (hwrites i hi)⟩
    refine Nat.lt_of_lt_of_le (Nat.lt_mul_div_succ _ hpos) ?_
    rw [Nat.mul_comm]
    exact Nat.mul_le_mul_right _ (hk i hi)
  obtain ⟨history₁, s₁, hrun₁, h₁, hclk₁, hsettled₁⟩ := settles hmap hp hdelay h (by omega) hstart
  obtain ⟨history₂, s₂, hrun₂, h₂, hclk₂, hsettled₂⟩ := settles (k := answerTime config) hmap hp hdelay h₁ (by omega)
    fun i hi => Or.inl (hsettled₁ i hi)
  obtain ⟨l, s₃, htick⟩ := h₂.tick_ok hmap hp.awake (Nat.ne_of_gt (Nat.zero_lt_of_lt hp.seldom)) hp.epoch
  refine ⟨_, s₃, ?_, h₂.tick htick, fun i hi => ?_⟩
  · rw [List.replicate_add, List.replicate_succ', replay_append, ok_bind hrun₁, replay_append, ok_bind hrun₂, replay,
      ok_bind (exec_tick htick)]
    rfl
  · have hchannel := (clockTick_spec htick).channel i hi
    rw [hclk₂, hclk₁] at hchannel
    exact (hsettled₂ i hi).last hchannel

end

end

end JedecDRAMSystem

end Dramsim3

end Anna
