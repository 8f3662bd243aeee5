import Anna.Lib.Crossbar

/-!
# What a crossbar does over time

The history of a crossbar as one sees it at its ports: what was sent, with the
number of items ahead of it in the input queue, what every tick moved, and
what was received. Each source is served alone, so an item with `p` items
ahead leaves its input queue at the tick number `p / batch + 1` from there.
-/

namespace Anna

namespace Crossbar

variable {n : Nat} {α : Type}

/-! ## One tick, all sources -/

/-- What a batch of `src` brings to `dst`. -/
def share (batch : Nat) (x : Crossbar n α) (src dst : Fin n) : List (Fin n × α) :=
  (((x.input src).take batch).filter (fun e => e.1 = dst)).map fun e => (src, e.2)

theorem move_input (x : Crossbar n α) (src : Fin n) :
    (x.move src).input = Function.update x.input src (x.input src).tail := by
  unfold move
  split
  · rename_i h
    rw [h, List.tail_nil, ← h, Function.update_eq_self]
  · rename_i h
    rw [h]
    rfl

theorem move_output (x : Crossbar n α) (src dst : Fin n) :
    (x.move src).output dst = x.output dst ++ x.share 1 src dst := by
  unfold move share
  split
  · rename_i h
    simp [h]
  · rename_i d a q h
    by_cases hd : d = dst
    · subst hd
      simp [h]
    · simp [h, hd, Function.update_of_ne (Ne.symm hd)]

theorem serve_input (batch : Nat) (x : Crossbar n α) (src : Fin n) :
    (x.serve batch src).input = Function.update x.input src ((x.input src).drop batch) := by
  unfold serve
  induction batch generalizing x with
  | zero => simp
  | succ b ih =>
    rw [Function.iterate_succ_apply, ih, move_input, Function.update_self, Function.update_idem, List.drop_tail]

theorem serve_output (batch : Nat) (x : Crossbar n α) (src dst : Fin n) :
    (x.serve batch src).output dst = x.output dst ++ x.share batch src dst := by
  unfold serve
  induction batch generalizing x with
  | zero => simp [share]
  | succ b ih =>
    rw [Function.iterate_succ_apply, ih, move_output, List.append_assoc]
    congr 1
    unfold share
    rw [move_input, Function.update_self]
    cases x.input src with
    | nil => simp
    | cons e q => simp [List.filter_cons]; split <;> rfl

theorem foldl_serve (batch : Nat) {l : List (Fin n)} (hl : l.Nodup) (x : Crossbar n α) :
    (∀ c, (l.foldl (serve batch) x).input c = if c ∈ l then (x.input c).drop batch else x.input c) ∧
      ∀ d, (l.foldl (serve batch) x).output d = x.output d ++ l.flatMap fun c => x.share batch c d := by
  induction l generalizing x with
  | nil => simp
  | cons src l ih =>
    rw [List.nodup_cons] at hl
    obtain ⟨hin, hout⟩ := ih hl.2 (x.serve batch src)
    refine ⟨fun c => ?_, fun d => ?_⟩
    · rw [List.foldl_cons, hin, serve_input]
      by_cases hc : c = src
      · subst hc
        simp [hl.1]
      · simp [hc]
    · rw [List.foldl_cons, hout, serve_output, List.append_assoc, List.flatMap_cons]
      congr 2
      apply List.flatMap_congr
      intro c hc
      have hne : c ≠ src := fun h => hl.1 (h ▸ hc)
      simp only [share, serve_input, Function.update_of_ne hne]

theorem tick_input (batch : Nat) (x : Crossbar n α) (c : Fin n) : (x.tick batch).input c = (x.input c).drop batch := by
  rw [tick, (foldl_serve batch (List.nodup_finRange n) x).1, if_pos (List.mem_finRange c)]

theorem tick_output (batch : Nat) (x : Crossbar n α) (d : Fin n) :
    (x.tick batch).output d = x.output d ++ (List.finRange n).flatMap fun c => x.share batch c d :=
  (foldl_serve batch (List.nodup_finRange n) x).2 d

/-- Of what a tick brings to `d`, the items from `c` are the share of `c`. -/
theorem flatMap_share (batch : Nat) {l : List (Fin n)} (hl : l.Nodup) (x : Crossbar n α) (c d : Fin n) :
    (l.flatMap fun c => x.share batch c d).filter (fun e => e.1 = c) = if c ∈ l then x.share batch c d else [] := by
  have hsame : ∀ src, (x.share batch src d).filter (fun e => e.1 = c) = if src = c then x.share batch c d else [] := by
    intro src
    by_cases hs : src = c
    · subst hs
      simp [share]
    · simp [share, hs]
  induction l with
  | nil => rfl
  | cons src l ih =>
    rw [List.nodup_cons] at hl
    rw [List.flatMap_cons, List.filter_append, ih hl.2, hsame]
    by_cases hs : src = c
    · subst hs
      simp [hl.1]
    · simp [hs, Ne.symm hs]

/-! ## Histories -/

/-- An item as it was sent: `ahead` items were before it in the input queue. -/
structure Sent (n : Nat) (α : Type) where
  dst : Fin n
  item : α
  ahead : Nat
  clock : Nat

structure Moved (n : Nat) (α : Type) where
  dst : Fin n
  item : α
  clock : Nat

structure History (n : Nat) (α : Type) where
  clock : Nat
  -- by source
  sent : Fin n → List (Sent n α)
  moved : Fin n → List (Moved n α)
  -- by destination
  arrived : Fin n → List (Fin n × α)
  received : Fin n → List (Fin n × α)

namespace History

def empty : History n α := ⟨0, fun _ => [], fun _ => [], fun _ => [], fun _ => []⟩

def send (h : History n α) (x : Crossbar n α) (src dst : Fin n) (a : α) : History n α :=
  { h with sent := Function.update h.sent src (h.sent src ++ [⟨dst, a, (x.input src).length, h.clock⟩]) }

/-- A tick is seen by what it takes from the front of the input queues and
adds at the back of the output queues. -/
def tick (h : History n α) (before after : Crossbar n α) : History n α :=
  { h with
    clock := h.clock + 1
    moved := fun c => h.moved c ++ ((before.input c).take ((before.input c).length - (after.input c).length)).map
      fun e => ⟨e.1, e.2, h.clock + 1⟩
    arrived := fun d => h.arrived d ++ (after.output d).drop (before.output d).length }

def receive (h : History n α) (dst : Fin n) (e : Fin n × α) : History n α :=
  { h with received := Function.update h.received dst (h.received dst ++ [e]) }

def sentTo (h : History n α) (src dst : Fin n) : List α := ((h.sent src).filter fun e => e.dst = dst).map Sent.item

def receivedFrom (h : History n α) (dst src : Fin n) : List α :=
  ((h.received dst).filter fun e => e.1 = src).map Prod.snd

end History

/-- The tick that moves an item, if each tick takes `batch` items from a queue. -/
def Sent.due (batch : Nat) (e : Sent n α) : Nat := e.clock + e.ahead / batch + 1

/-- The state and its history agree. -/
structure Tracks (batch : Nat) (x : Crossbar n α) (h : History n α) : Prop where
  sent : ∀ c, (h.sent c).map (fun e => (e.dst, e.item)) = (h.moved c).map (fun e => (e.dst, e.item)) ++ x.input c
  due : ∀ c, (h.sent c).map (Sent.due batch) =
    (h.moved c).map Moved.clock ++ (List.range (x.input c).length).map fun j => h.clock + j / batch + 1
  past : ∀ c, ∀ e ∈ h.moved c, e.clock ≤ h.clock
  arrived : ∀ d, h.arrived d = h.received d ++ x.output d
  shared : ∀ c d, (h.arrived d).filter (fun e => e.1 = c) =
    ((h.moved c).filter fun e => e.dst = d).map fun e => (c, e.item)

section
variable {batch : Nat} {x : Crossbar n α} {h : History n α}

theorem tracks_empty : Tracks batch (empty : Crossbar n α) History.empty :=
  ⟨fun _ => rfl, fun _ => rfl, fun _ _ he => absurd he List.not_mem_nil, fun _ => rfl, fun _ _ => rfl⟩

theorem Tracks.send (t : Tracks batch x h) (src dst : Fin n) (a : α) :
    Tracks batch (x.send src dst a) (h.send x src dst a) := by
  refine ⟨fun c => ?_, fun c => ?_, t.past, t.arrived, t.shared⟩
  · by_cases hc : c = src
    · subst hc
      simp [History.send, Crossbar.send, t.sent c]
    · simp [History.send, Crossbar.send, Function.update_of_ne hc, t.sent c]
  · by_cases hc : c = src
    · subst hc
      simp [History.send, Crossbar.send, t.due c, List.range_succ, Sent.due]
    · simp [History.send, Crossbar.send, Function.update_of_ne hc, t.due c]

theorem Tracks.receive (t : Tracks batch x h) {y : Crossbar n α} {dst : Fin n} {e : Fin n × α}
    (hr : x.receive dst = (some e, y)) : Tracks batch y (h.receive dst e) := by
  have hin : y.input = x.input := by
    unfold Crossbar.receive at hr
    split at hr
    · cases hr
    · cases hr; rfl
  have hout : ∀ d, (h.receive dst e).received d ++ y.output d = h.received d ++ x.output d := by
    intro d
    unfold Crossbar.receive at hr
    split at hr
    · cases hr
    · rename_i q hq
      cases hr
      by_cases hd : d = dst
      · subst hd
        simp [History.receive, hq]
      · simp [History.receive, Function.update_of_ne hd]
  refine ⟨?_, ?_, t.past, fun d => ?_, t.shared⟩
  · rw [hin]; exact t.sent
  · rw [hin]; exact t.due
  · rw [hout]; exact t.arrived d

theorem due_range (hb : 0 < batch) (clock len : Nat) :
    (List.range len).map (fun j => clock + j / batch + 1) =
      List.replicate (min batch len) (clock + 1) ++
        (List.range (len - batch)).map fun j => clock + 1 + j / batch + 1 := by
  have hsplit : len = min batch len + (len - batch) := by omega
  conv_lhs => rw [hsplit, List.range_add, List.map_append]
  congr 1
  · apply List.eq_replicate_iff.mpr
    refine ⟨by simp, ?_⟩
    intro b hmem
    obtain ⟨j, hj, rfl⟩ := List.mem_map.mp hmem
    have hlt : j < batch := lt_of_lt_of_le (List.mem_range.mp hj) (Nat.min_le_left _ _)
    rw [Nat.div_eq_of_lt hlt]
  · rw [List.map_map]
    apply List.map_congr_left
    intro j hj
    have hmin : min batch len = batch := by
      have := List.mem_range.mp hj
      omega
    show clock + (min batch len + j) / batch + 1 = _
    rw [hmin, Nat.add_div_left _ hb]
    omega

theorem Tracks.tick (hb : 0 < batch) (t : Tracks batch x h) :
    Tracks batch (x.tick batch) (h.tick x (x.tick batch)) := by
  have hmoved : ∀ c, (h.tick x (x.tick batch)).moved c =
      h.moved c ++ ((x.input c).take batch).map fun e => ⟨e.1, e.2, h.clock + 1⟩ := by
    intro c
    have htake : (x.input c).take ((x.input c).length - ((x.tick batch).input c).length) = (x.input c).take batch := by
      rw [tick_input, List.length_drop, List.take_eq_take_iff]
      omega
    simp only [History.tick, htake]
  have harrived : ∀ d, (h.tick x (x.tick batch)).arrived d =
      h.arrived d ++ (List.finRange n).flatMap fun c => x.share batch c d := by
    intro d
    simp only [History.tick, tick_output, List.drop_left]
  refine ⟨fun c => ?_, fun c => ?_, fun c e he => ?_, fun d => ?_, fun c d => ?_⟩
  · rw [hmoved, tick_input, List.map_append, List.map_map, List.append_assoc]
    show (h.sent c).map _ = _ ++ (((x.input c).take batch).map id ++ _)
    rw [t.sent, List.map_id, List.take_append_drop]
  · rw [hmoved, tick_input, List.map_append, List.map_map, List.append_assoc]
    show (h.sent c).map _ = _ ++ (((x.input c).take batch).map (fun _ => h.clock + 1) ++ _)
    rw [t.due, due_range hb, List.map_const', List.length_take, List.length_drop]
    rfl
  · rw [hmoved] at he
    rcases List.mem_append.mp he with he | he
    · exact Nat.le_succ_of_le (t.past c e he)
    · obtain ⟨f, -, rfl⟩ := List.mem_map.mp he
      exact Nat.le_refl _
  · rw [harrived, tick_output, t.arrived, List.append_assoc]
    rfl
  · rw [harrived, hmoved, List.filter_append, t.shared, flatMap_share batch (List.nodup_finRange n),
      if_pos (List.mem_finRange c), List.filter_append, List.map_append]
    congr 1
    rw [share, List.filter_map, List.map_map]
    rfl

theorem Tracks.output_sent (t : Tracks batch x h) {c d : Fin n} {a : α} (hout : (c, a) ∈ x.output d) :
    ∃ e ∈ h.sent c, e.item = a := by
  have harr : (c, a) ∈ (h.arrived d).filter (fun e => e.1 = c) := by
    rw [t.arrived]
    exact List.mem_filter.mpr ⟨List.mem_append_right _ hout, by simp⟩
  rw [t.shared] at harr
  obtain ⟨f, hf, heq⟩ := List.mem_map.mp harr
  obtain ⟨-, rfl⟩ := Prod.mk.inj heq
  have hmem : (f.dst, f.item) ∈ (h.sent c).map fun e => (e.dst, e.item) := by
    rw [t.sent]
    exact List.mem_append_left _ (List.mem_map.mpr ⟨f, (List.mem_filter.mp hf).1, rfl⟩)
  obtain ⟨e, he, hpair⟩ := List.mem_map.mp hmem
  exact ⟨e, he, (Prod.mk.inj hpair).2⟩

/-- What a destination has received from a source is the beginning of what the source sent there. -/
theorem Tracks.receivedFrom_isPrefix (t : Tracks batch x h) (c d : Fin n) :
    (h.receivedFrom d c).IsPrefix (h.sentTo c d) := by
  have hsent : h.sentTo c d = (((h.moved c).map fun e => (e.dst, e.item)).filter (fun e => e.1 = d)).map Prod.snd ++
      ((x.input c).filter (fun e => e.1 = d)).map Prod.snd := by
    rw [← List.map_append, ← List.filter_append, ← t.sent, List.filter_map, List.map_map]
    rfl
  have hmoved : (((h.moved c).map fun e => (e.dst, e.item)).filter (fun e => e.1 = d)).map Prod.snd =
      h.receivedFrom d c ++ ((x.output d).filter (fun e => e.1 = c)).map Prod.snd := by
    have := congrArg (List.map Prod.snd) (t.shared c d)
    rw [t.arrived, List.filter_append, List.map_append, List.map_map] at this
    rw [History.receivedFrom, this, List.filter_map, List.map_map]
    rfl
  rw [hsent, hmoved, List.append_assoc]
  exact List.prefix_append _ _

/-- An item is moved at its due tick, and stays in its input queue until then. -/
theorem Tracks.moved_at_due (t : Tracks batch x h) {c : Fin n} {i : Nat} {e : Sent n α} (he : (h.sent c)[i]? = some e) :
    (h.moved c)[i]? = if e.due batch ≤ h.clock then some ⟨e.dst, e.item, e.due batch⟩ else none := by
  have hitem := congrArg (fun l => l[i]?) (t.sent c)
  have hdue := congrArg (fun l => l[i]?) (t.due c)
  simp only [List.getElem?_map, he, Option.map_some] at hitem hdue
  cases hm : (h.moved c)[i]? with
  | some f =>
    have hi : i < (h.moved c).length := (List.getElem?_eq_some_iff.mp hm).1
    rw [List.getElem?_append_left (by simpa using hi), List.getElem?_map, hm] at hitem hdue
    have hpast := t.past c f (List.mem_of_getElem? hm)
    simp only [Option.map_some, Option.some.injEq, Prod.mk.injEq] at hitem hdue
    obtain ⟨hd, ha⟩ := hitem
    rw [if_pos (by omega), hd, ha, hdue]
  | none =>
    have hi : (h.moved c).length ≤ i := List.getElem?_eq_none_iff.mp hm
    rw [List.getElem?_append_right (by simpa using hi), List.getElem?_map] at hdue
    obtain ⟨j, -, hj⟩ := Option.map_eq_some_iff.mp hdue.symm
    have hpos : h.clock < e.due batch :=
      hj ▸ Nat.lt_succ_of_le (Nat.le_add_right _ _)
    rw [if_neg (Nat.not_le_of_lt hpos)]

end

end Crossbar

end Anna
