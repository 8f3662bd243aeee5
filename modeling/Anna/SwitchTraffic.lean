import Anna.Lib.CrossbarHistory
import Anna.MemorySwitch

/-!
# The traffic through the memory switch

A run of the switch is any sequence of its five operations, with a history for
the requests and one for the responses. What a receiver sees of a request is
what `getReq` returns, where -1 stands for an empty queue.
-/

namespace Anna

variable {n : Nat}

inductive SwitchOp (n : Nat) where
  | sendReq (coreId memId : Fin n) (addr : UInt64)
  | getReq (memId : Fin n)
  | sendRes (memId coreId : Fin n) (addr : UInt64)
  | getRes (coreId : Fin n)
  | clockTick
  deriving DecidableEq, Repr

namespace SwitchOp

/-- No address is the mark of an empty queue. -/
def Valid : SwitchOp n → Prop
  | .sendReq _ _ addr => addr ≠ -1
  | .sendRes _ _ addr => addr ≠ -1
  | _ => True

instance : DecidablePred (Valid (n := n))
  | .sendReq _ _ addr => inferInstanceAs (Decidable (addr ≠ -1))
  | .getReq _ => isTrue trivial
  | .sendRes _ _ addr => inferInstanceAs (Decidable (addr ≠ -1))
  | .getRes _ => isTrue trivial
  | .clockTick => isTrue trivial

def isRequest : SwitchOp n → Bool
  | .sendReq .. => true
  | .getReq _ => true
  | _ => false

def isResponse : SwitchOp n → Bool
  | .sendRes .. => true
  | .getRes _ => true
  | _ => false

end SwitchOp

structure SwitchRun (n : Nat) where
  memorySwitch : MemorySwitch n
  req : Crossbar.History n UInt64
  res : Crossbar.History n UInt64

namespace SwitchRun

def new : SwitchRun n := ⟨MemorySwitch.empty, Crossbar.History.empty, Crossbar.History.empty⟩

/-- The history after `getReq` returned `addr`; the source is that of the entry at the front. -/
def sawReq (s : SwitchRun n) (memId : Fin n) (addr : UInt64) : Crossbar.History n UInt64 :=
  match s.memorySwitch.req.output memId with
  | [] => s.req
  | (src, _) :: _ => if addr = -1 then s.req else s.req.receive memId (src, addr)

def sawRes (s : SwitchRun n) (coreId : Fin n) : Option (Fin n × UInt64) → Crossbar.History n UInt64
  | none => s.res
  | some e => s.res.receive coreId e

def exec (s : SwitchRun n) : SwitchOp n → SwitchRun n
  | .sendReq coreId memId addr =>
    { s with
      memorySwitch := s.memorySwitch.sendReq coreId memId addr
      req := s.req.send s.memorySwitch.req coreId memId addr }
  | .getReq memId =>
    { s with
      memorySwitch := (s.memorySwitch.getReq memId).2
      req := s.sawReq memId (s.memorySwitch.getReq memId).1 }
  | .sendRes memId coreId addr =>
    { s with
      memorySwitch := s.memorySwitch.sendRes memId coreId addr
      res := s.res.send s.memorySwitch.res memId coreId addr }
  | .getRes coreId =>
    { s with
      memorySwitch := (s.memorySwitch.getRes coreId).2
      res := s.sawRes coreId (s.memorySwitch.getRes coreId).1 }
  | .clockTick =>
    { memorySwitch := s.memorySwitch.clockTick
      req := s.req.tick s.memorySwitch.req s.memorySwitch.clockTick.req
      res := s.res.tick s.memorySwitch.res s.memorySwitch.clockTick.res }

def run (ops : List (SwitchOp n)) : SwitchRun n := ops.foldl exec new

/-! ## Both directions keep their history -/

structure Sound (s : SwitchRun n) : Prop where
  req : Crossbar.Tracks switchBatchSize s.memorySwitch.req s.req
  res : Crossbar.Tracks switchBatchSize s.memorySwitch.res s.res
  real : ∀ c, ∀ e ∈ s.req.sent c, e.item ≠ -1

section
variable {s : SwitchRun n}

theorem Sound.getReq (h : s.Sound) (memId : Fin n) : (s.exec (.getReq memId)).Sound := by
  cases hq : s.memorySwitch.req.output memId with
  | nil =>
    have hempty : s.memorySwitch.getReq memId = (-1, s.memorySwitch) := by
      simp [MemorySwitch.getReq, Crossbar.receive, hq]
    have hexec : s.exec (.getReq memId) = s := by
      simp [exec, sawReq, hempty, hq]
    rw [hexec]
    exact h
  | cons e q =>
    obtain ⟨src, addr⟩ := e
    have hrec : s.memorySwitch.req.receive memId =
        (some (src, addr), { s.memorySwitch.req with output := Function.update s.memorySwitch.req.output memId q }) := by
      simp [Crossbar.receive, hq]
    have hget : s.memorySwitch.getReq memId = (addr, { s.memorySwitch with
        req := { s.memorySwitch.req with output := Function.update s.memorySwitch.req.output memId q } }) := by
      simp [MemorySwitch.getReq, hrec]
    -- an address was sent, so it is not taken for an empty queue
    have hne : addr ≠ -1 := by
      obtain ⟨e, he, rfl⟩ := h.req.output_sent (c := src) (d := memId) (a := addr) (by simp [hq])
      exact h.real src e he
    have hexec : s.exec (.getReq memId) = { s with
        memorySwitch := { s.memorySwitch with
          req := { s.memorySwitch.req with output := Function.update s.memorySwitch.req.output memId q } }
        req := s.req.receive memId (src, addr) } := by
      simp [exec, sawReq, hget, hq, hne]
    rw [hexec]
    exact ⟨h.req.receive hrec, h.res, h.real⟩

theorem Sound.getRes (h : s.Sound) (coreId : Fin n) : (s.exec (.getRes coreId)).Sound := by
  cases hrec : s.memorySwitch.res.receive coreId with
  | mk e res =>
    cases e with
    | none =>
      have hexec : s.exec (.getRes coreId) = s := by
        simp [exec, sawRes, MemorySwitch.getRes, hrec]
      rw [hexec]
      exact h
    | some e =>
      have hexec : s.exec (.getRes coreId) = { s with
          memorySwitch := { s.memorySwitch with res := res }
          res := s.res.receive coreId e } := by
        simp [exec, sawRes, MemorySwitch.getRes, hrec]
      rw [hexec]
      exact ⟨h.req, h.res.receive hrec, h.real⟩

theorem Sound.exec (h : s.Sound) {op : SwitchOp n} (hop : op.Valid) : (s.exec op).Sound := by
  cases op with
  | sendReq coreId memId addr =>
    refine ⟨h.req.send coreId memId addr, h.res, fun c e he => ?_⟩
    simp only [SwitchRun.exec, Crossbar.History.send] at he
    by_cases hc : c = coreId
    · subst hc
      rw [Function.update_self] at he
      rcases List.mem_append.mp he with he | he
      · exact h.real c e he
      · rw [List.mem_singleton.mp he]
        exact hop
    · rw [Function.update_of_ne hc] at he
      exact h.real c e he
  | getReq memId => exact h.getReq memId
  | sendRes memId coreId addr => exact ⟨h.req, h.res.send memId coreId addr, h.real⟩
  | getRes coreId => exact h.getRes coreId
  | clockTick => exact ⟨h.req.tick (by decide), h.res.tick (by decide), h.real⟩

end

theorem sound_run (ops : List (SwitchOp n)) (hops : ∀ op ∈ ops, op.Valid) : (run ops).Sound := by
  induction ops using List.reverseRecOn with
  | nil => exact ⟨Crossbar.tracks_empty, Crossbar.tracks_empty, fun _ _ he => absurd he List.not_mem_nil⟩
  | append_singleton ops op ih =>
    rw [run, List.foldl_append]
    apply Sound.exec
    · exact ih fun o ho => hops o (List.mem_append_left _ ho)
    · exact hops op (List.mem_append_right _ (List.mem_singleton_self op))

/-! ## The two directions are apart -/

theorem getReq_congr {w v : MemorySwitch n} (h : w.req = v.req) (memId : Fin n) :
    (w.getReq memId).1 = (v.getReq memId).1 ∧ (w.getReq memId).2.req = (v.getReq memId).2.req := by
  unfold MemorySwitch.getReq
  rw [h]
  split
  · exact ⟨rfl, h⟩
  · exact ⟨rfl, rfl⟩

theorem getRes_congr {w v : MemorySwitch n} (h : w.res = v.res) (coreId : Fin n) :
    (w.getRes coreId).1 = (v.getRes coreId).1 ∧ (w.getRes coreId).2.res = (v.getRes coreId).2.res := by
  unfold MemorySwitch.getRes
  rw [h]
  split
  · exact ⟨rfl, h⟩
  · exact ⟨rfl, rfl⟩

/-- The request side, as the queues and as what was seen at the ports. -/
def requests (s : SwitchRun n) : Crossbar n UInt64 × Crossbar.History n UInt64 := (s.memorySwitch.req, s.req)

def responses (s : SwitchRun n) : Crossbar n UInt64 × Crossbar.History n UInt64 := (s.memorySwitch.res, s.res)

theorem exec_response (s : SwitchRun n) {op : SwitchOp n} (h : op.isResponse = true) :
    (s.exec op).requests = s.requests := by
  cases op with
  | sendRes => rfl
  | getRes coreId =>
    simp only [requests, exec, MemorySwitch.getRes]
    split <;> rfl
  | _ => cases h

theorem exec_request (s : SwitchRun n) {op : SwitchOp n} (h : op.isRequest = true) :
    (s.exec op).responses = s.responses := by
  cases op with
  | sendReq => rfl
  | getReq memId =>
    simp only [responses, exec, MemorySwitch.getReq]
    split <;> rfl
  | _ => cases h

theorem exec_requests_congr {s t : SwitchRun n} (h : s.requests = t.requests) (op : SwitchOp n) :
    (s.exec op).requests = (t.exec op).requests := by
  obtain ⟨hx, hh⟩ := Prod.mk.inj h
  cases op with
  | sendReq => simp [exec, requests, MemorySwitch.sendReq, hx, hh]
  | getReq memId =>
    obtain ⟨hval, hreq⟩ := getReq_congr hx memId
    simp only [requests, exec, sawReq, hval, hreq, hx, hh]
  | sendRes => exact h
  | getRes coreId =>
    rw [exec_response s rfl, exec_response t rfl]
    exact h
  | clockTick => simp [exec, requests, MemorySwitch.clockTick, hx, hh]

theorem exec_responses_congr {s t : SwitchRun n} (h : s.responses = t.responses) (op : SwitchOp n) :
    (s.exec op).responses = (t.exec op).responses := by
  obtain ⟨hx, hh⟩ := Prod.mk.inj h
  cases op with
  | sendReq => exact h
  | getReq memId =>
    rw [exec_request s rfl, exec_request t rfl]
    exact h
  | sendRes => simp [exec, responses, MemorySwitch.sendRes, hx, hh]
  | getRes coreId =>
    obtain ⟨hval, hres⟩ := getRes_congr hx coreId
    simp only [responses, exec, sawRes, hval, hres, hh]
  | clockTick => simp [exec, responses, MemorySwitch.clockTick, hx, hh]

/-- The responses can be left out of a run without a change to the requests, and the other way round. -/
theorem run_requests (ops : List (SwitchOp n)) : (run ops).requests = (run (ops.filter (!·.isResponse))).requests := by
  induction ops using List.reverseRecOn with
  | nil => rfl
  | append_singleton ops op ih =>
    rw [run, List.foldl_append, List.filter_append]
    cases hop : op.isResponse with
    | true =>
      simp only [List.filter_cons, hop, Bool.not_true, Bool.false_eq_true, if_false, List.filter_nil, List.append_nil]
      rw [← ih]
      exact exec_response _ hop
    | false =>
      simp only [List.filter_cons, hop, Bool.not_false, if_true, List.filter_nil]
      rw [run, List.foldl_append]
      exact exec_requests_congr ih op

theorem run_responses (ops : List (SwitchOp n)) :
    (run ops).responses = (run (ops.filter (!·.isRequest))).responses := by
  induction ops using List.reverseRecOn with
  | nil => rfl
  | append_singleton ops op ih =>
    rw [run, List.foldl_append, List.filter_append]
    cases hop : op.isRequest with
    | true =>
      simp only [List.filter_cons, hop, Bool.not_true, Bool.false_eq_true, if_false, List.filter_nil, List.append_nil]
      rw [← ih]
      exact exec_request _ hop
    | false =>
      simp only [List.filter_cons, hop, Bool.not_false, if_true, List.filter_nil]
      rw [run, List.foldl_append]
      exact exec_responses_congr ih op

/-- One direction of the switch: the order between two ports, the tick at
which each item is moved, and where it is then. -/
def Delivers (p : Crossbar n UInt64 × Crossbar.History n UInt64) : Prop :=
  (∀ c m, (p.2.receivedFrom m c).IsPrefix (p.2.sentTo c m)) ∧
    (∀ c (i : Nat) (e : Crossbar.Sent n UInt64), (p.2.sent c)[i]? = some e →
      (p.2.moved c)[i]? = if e.clock + (e.ahead / switchBatchSize + 1) ≤ p.2.clock then
        some (⟨e.dst, e.item, e.clock + (e.ahead / switchBatchSize + 1)⟩ : Crossbar.Moved n UInt64) else none) ∧
    ∀ c m, ((p.2.moved c).filter fun e => e.dst = m).map (fun e => (c, e.item)) =
      (p.2.received m ++ p.1.output m).filter fun e => e.1 = c

theorem delivers_of_tracks {x : Crossbar n UInt64} {h : Crossbar.History n UInt64}
    (t : Crossbar.Tracks switchBatchSize x h) : Delivers (x, h) := by
  refine ⟨fun c m => t.receivedFrom_isPrefix c m, fun _ _ _ he => t.moved_at_due he, fun c m => ?_⟩
  rw [← t.shared, t.arrived]

/-- In every run, requests and responses each arrive in order and on time, and neither depends on the other. -/
theorem switch_delivers (ops : List (SwitchOp n)) (hops : ∀ op ∈ ops, op.Valid) :
    Delivers (run ops).requests ∧ Delivers (run ops).responses ∧
      (run ops).requests = (run (ops.filter (!·.isResponse))).requests ∧
      (run ops).responses = (run (ops.filter (!·.isRequest))).responses :=
  ⟨delivers_of_tracks (sound_run ops hops).req, delivers_of_tracks (sound_run ops hops).res, run_requests ops,
    run_responses ops⟩

theorem switch_delivers_three :
    let ops : List (SwitchOp 2) := [.sendReq 0 1 5, .sendReq 0 1 7, .sendReq 0 1 9, .sendRes 1 0 5, .clockTick, .getReq 1]
    (run ops).req.receivedFrom 1 0 = [5] ∧ Delivers (run ops).requests :=
  ⟨by decide, (switch_delivers _ (by decide)).1⟩

end SwitchRun

end Anna
