import Anna.MultiMemory
import Mathlib.Logic.Relation

/-!
# Atomic steps of the memory interface

The loops of `ClockTick` are runs of a few atomic steps over an interface
whose stacks are bags of outstanding reads: a request leaves the switch, a
response leaves it, a stack answers one read, a stack accepts one read. `abs`
forgets all of a stack but its bag, and every call of the interface is a
sequence of atomic steps (`exec_abs`). What holds along all atomic steps
therefore holds in every run, for every stack and every loop of the code.
-/

namespace Anna

open Relation

/-- A stack seen from outside: how many reads of each address it owes. -/
abbrev Bag := UInt64 → Nat

namespace MultiMemoryInterface

variable {δ δ' : Type}

def withMem (s : MultiMemoryInterface δ) (mem : Port → δ') : MultiMemoryInterface δ' :=
  { s with memorySystemList := mem, memoryReqCnt := 0 }

def withSwitch (s : MultiMemoryInterface δ) (w : MemorySwitch 8) : MultiMemoryInterface δ :=
  { s with memorySwitch := w }

inductive Move : MultiMemoryInterface Bag → MultiMemoryInterface Bag → Prop
  | tick {s} : Move s (s.withSwitch s.memorySwitch.clockTick)
  | arrive {s core st addr req} : s.memorySwitch.req.receive st = (some (core, addr), req) → addr ≠ -1 →
      Move s ((s.withSwitch { s.memorySwitch with req := req }).arrive core st addr)
  | lose {s core st addr req} : s.memorySwitch.req.receive st = (some (core, addr), req) → addr = -1 →
      Move s (s.withSwitch { s.memorySwitch with req := req })
  | deliver {s core st addr res} : s.memorySwitch.res.receive core = (some (st, addr), res) →
      Move s ((s.withSwitch { s.memorySwitch with res := res }).deliver core st addr)
  | answer {s : MultiMemoryInterface Bag} {st addr} {mem : Port → Bag} :
      (∀ i a, s.memorySystemList i a = mem i a + if st = i ∧ addr = a then 1 else 0) →
      Move s ((s.withMem mem).readCallback st addr)
  | accept {s : MultiMemoryInterface Bag} {st addr q} {mem : Port → Bag} :
      s.readRequestQueue st = addr :: q →
      (∀ i a, mem i a = s.memorySystemList i a + if st = i ∧ addr = a then 1 else 0) →
      Move s { s.withMem mem with readRequestQueue := Function.update s.readRequestQueue st q }

abbrev Moves := ReflTransGen Move

/-- One atomic step; requests are made only where `ok` allows. -/
inductive Atom (ok : MultiMemoryInterface Bag → Nat → UInt64 → Prop) :
    MultiMemoryInterface Bag → MultiMemoryInterface Bag → Prop
  | registerId {s} (coreId : Port) : Atom ok s (s.registerId coreId)
  | requestRead {s id x} : id < s.idNum → ok s id x → Atom ok s (s.requestRead id x)
  | collect {s id} : id < s.idNum → Atom ok s (s.getAllReadyReadRequest id).2
  | move {s t} : Move s t → Atom ok s t

abbrev Atoms (ok : MultiMemoryInterface Bag → Nat → UInt64 → Prop) := ReflTransGen (Atom ok)

def AtomReach (useMemorySwitch : Bool) (ok : MultiMemoryInterface Bag → Nat → UInt64 → Prop) :=
  Atoms ok (new useMemorySwitch fun _ _ => 0)

theorem withMem_requestRead (s : MultiMemoryInterface δ) (mem : Port → δ') (id : Nat) (x : UInt64) :
    (s.requestRead id x).withMem mem = (s.withMem mem).requestRead id x := by
  unfold requestRead
  by_cases hw : s.useMemorySwitch = true
  · by_cases hc : s.id2core id = stackOf x <;> simp [withMem, record, enqueue, hw, hc]
  · simp [withMem, record, enqueue, hw]

theorem withMem_deliver (s : MultiMemoryInterface δ) (mem : Port → δ') (core st : Port) (addr : UInt64) :
    (s.deliver core st addr).withMem mem = (s.withMem mem).deliver core st addr := by
  simp only [deliver, withMem]
  split <;> rfl

theorem withMem_readCallback (s : MultiMemoryInterface δ) (mem : Port → δ') (st : Port) (addr : UInt64) :
    (s.readCallback st addr).withMem mem = (s.withMem mem).readCallback st addr := by
  cases hf : (s.idMap st).find? addr with
  | none => simp [readCallback, withMem, hf]
  | some id =>
    by_cases hw : s.useMemorySwitch = true
    · by_cases hc : s.id2core id = st <;> simp [readCallback, withMem, credit, record, hf, hw, hc]
    · simp [readCallback, withMem, credit, record, hf, hw]

theorem readCallback_mem (s : MultiMemoryInterface δ) (st : Port) (addr : UInt64) :
    (s.readCallback st addr).memorySystemList = s.memorySystemList := by
  unfold readCallback
  split
  · rfl
  · split
    · split <;> rfl
    · rfl

theorem deliver_mem (s : MultiMemoryInterface δ) (core st : Port) (addr : UInt64) :
    (s.deliver core st addr).memorySystemList = s.memorySystemList := by
  unfold deliver
  split <;> rfl

theorem requestRead_mem (s : MultiMemoryInterface δ) (id : Nat) (x : UInt64) :
    (s.requestRead id x).memorySystemList = s.memorySystemList := by
  unfold requestRead
  by_cases hw : s.useMemorySwitch = true
  · by_cases hc : s.id2core id = stackOf x <;> simp [record, enqueue, hw, hc]
  · simp [record, enqueue, hw]

variable [MemorySystem δ]

def abs (s : MultiMemoryInterface δ) : MultiMemoryInterface Bag :=
  s.withMem fun st => MemorySystem.outstanding (s.memorySystemList st)

theorem foldl_abs {f : MultiMemoryInterface δ → Port → MultiMemoryInterface δ}
    (hf : ∀ s i, Moves s.abs (f s i).abs) (l : List Port) (s : MultiMemoryInterface δ) :
    Moves s.abs (l.foldl f s).abs := by
  induction l generalizing s with
  | nil => exact .refl
  | cons i l ih => exact (hf s i).trans (ih _)

theorem drainReq_abs (st : Port) (fuel : Nat) (s : MultiMemoryInterface δ) :
    Moves s.abs (drainReq st fuel s).abs := by
  induction fuel generalizing s with
  | zero => exact .refl
  | succ fuel ih =>
    unfold drainReq
    split
    · exact .refl
    · rename_i core a q hout
      have hrec : s.memorySwitch.req.receive st =
          (some (core, a), { s.memorySwitch.req with output := Function.update s.memorySwitch.req.output st q }) := by
        simp [Crossbar.receive, hout]
      simp only [MemorySwitch.getReq, hrec]
      split
      · rename_i ha
        exact .single (.lose (s := s.abs) hrec ha)
      · rename_i ha
        have harr : Move s.abs _ := .arrive hrec ha
        exact .head harr (ih ((s.withSwitch { s.memorySwitch with req := _ }).arrive core st a))

theorem drainRes_abs (core : Port) (fuel : Nat) (s : MultiMemoryInterface δ) :
    Moves s.abs (drainRes core fuel s).abs := by
  induction fuel generalizing s with
  | zero => exact .refl
  | succ fuel ih =>
    unfold drainRes
    split
    · exact .refl
    · rename_i st addr w hget
      obtain ⟨res, hrec, rfl⟩ : ∃ res, s.memorySwitch.res.receive core = (some (st, addr), res) ∧
          w = { s.memorySwitch with res := res } := by
        unfold MemorySwitch.getRes at hget
        split at hget
        · cases hget
        · rename_i e res hrec; cases hget; exact ⟨res, hrec, rfl⟩
      refine .head (.deliver (s := s.abs) hrec) ?_
      have := ih ((s.withSwitch { s.memorySwitch with res := res }).deliver core st addr)
      simp only [abs, withMem_deliver, deliver_mem] at this
      exact this

theorem tickSwitch_abs (s : MultiMemoryInterface δ) : Moves s.abs s.tickSwitch.abs := by
  refine .head .tick ?_
  refine (foldl_abs (fun s st => drainReq_abs st (s.memorySwitch.req.output st).length s) (List.finRange 8)
    (s.withSwitch s.memorySwitch.clockTick)).trans ?_
  exact foldl_abs (fun s core => drainRes_abs core (s.memorySwitch.res.output core).length s) (List.finRange 8) _

/-- A batch of answers: while it is worked through, the stack's bag still
holds the answers to come. -/
theorem answers_abs (i : Port) (l : List UInt64) (s : MultiMemoryInterface δ) (mem : Port → Bag)
    (h : ∀ j a, mem j a = MemorySystem.outstanding (s.memorySystemList j) a + if i = j then l.count a else 0) :
    Moves (s.withMem mem) (l.foldl (fun s addr => s.readCallback i addr) s).abs := by
  induction l generalizing s mem with
  | nil =>
    have : mem = fun j => MemorySystem.outstanding (s.memorySystemList j) := by
      funext j a; rw [h]; simp
    subst this; exact .refl
  | cons addr l ih =>
    let mem' : Port → Bag := fun j a =>
      MemorySystem.outstanding (s.memorySystemList j) a + if i = j then l.count a else 0
    have hmem : ∀ j a, mem j a = mem' j a + if i = j ∧ addr = a then 1 else 0 := by
      intro j a
      rw [h]
      by_cases hj : i = j <;> simp [mem', hj, List.count_cons, Nat.add_assoc]
    refine .head (Move.answer (s := s.withMem mem) hmem) ?_
    have := ih (s.readCallback i addr) mem' (by intro j a; rw [readCallback_mem])
    rw [withMem_readCallback] at this
    exact this

theorem fill_abs (i : Port) (q : List UInt64) (d : δ) (s : MultiMemoryInterface Bag) (mem : Port → δ)
    (hq : s.readRequestQueue i = q) (hs : s.memoryReqCnt = 0)
    (hm : s.memorySystemList = fun j => MemorySystem.outstanding (Function.update mem i d j)) :
    Moves s { s with
      memorySystemList := fun j => MemorySystem.outstanding (Function.update mem i (fill d q).1 j)
      readRequestQueue := Function.update s.readRequestQueue i (fill d q).2.1 } := by
  induction q generalizing d s with
  | nil =>
    have h1 : Function.update s.readRequestQueue i [] = s.readRequestQueue := by
      rw [← hq, Function.update_eq_self]
    simp only [fill, h1, ← hm]
    exact .refl
  | cons addr q ih =>
    unfold fill
    by_cases hacc : MemorySystem.willAcceptTransaction d addr = true
    · rw [if_pos hacc]
      have hmem : ∀ j a, MemorySystem.outstanding (Function.update mem i (MemorySystem.addTransaction d addr) j) a =
          s.memorySystemList j a + if i = j ∧ addr = a then 1 else 0 := by
        intro j a
        rw [hm]
        by_cases hj : j = i
        · subst hj; simp [MemorySystem.outstanding_addTransaction]
        · simp [Function.update_of_ne hj, Ne.symm hj]
      refine .head (.accept hq hmem) ?_
      have := ih (MemorySystem.addTransaction d addr)
        { s.withMem (fun j => MemorySystem.outstanding (Function.update mem i (MemorySystem.addTransaction d addr) j))
          with readRequestQueue := Function.update s.readRequestQueue i q } (by simp) rfl rfl
      simpa [withMem, hs] using this
    · rw [if_neg hacc]
      have h1 : Function.update s.readRequestQueue i (addr :: q) = s.readRequestQueue := by
        rw [← hq, Function.update_eq_self]
      simp only [h1, ← hm]
      exact .refl

theorem tickStack_abs (s : MultiMemoryInterface δ) (i : Port) : Moves s.abs (s.tickStack i).abs := by
  unfold tickStack
  let t := MemorySystem.clockTick (s.memorySystemList i)
  let s₁ : MultiMemoryInterface δ := { s with memorySystemList := Function.update s.memorySystemList i t.2 }
  let s₂ := t.1.foldl (fun s addr => s.readCallback i addr) s₁
  have h₁ : Moves s.abs s₂.abs := by
    refine answers_abs i t.1 s₁ (fun st => MemorySystem.outstanding (s.memorySystemList st)) fun j a => ?_
    by_cases hj : j = i
    · subst hj
      simp only [s₁, Function.update_self, if_true]
      rw [MemorySystem.outstanding_clockTick, Nat.add_comm]
    · simp [s₁, Function.update_of_ne hj, Ne.symm hj]
  refine h₁.trans ?_
  apply fill_abs i (s₂.readRequestQueue i) (s₂.memorySystemList i) s₂.abs s₂.memorySystemList rfl rfl
  rw [Function.update_eq_self]; rfl

theorem clockTick_abs (s : MultiMemoryInterface δ) : Moves s.abs s.clockTick.abs := by
  unfold clockTick
  by_cases hw : s.useMemorySwitch = true
  · rw [if_pos hw]; exact (tickSwitch_abs s).trans (foldl_abs tickStack_abs _ _)
  · rw [if_neg hw]; exact foldl_abs tickStack_abs _ _

section
variable {ok : MultiMemoryInterface Bag → Nat → UInt64 → Prop}

/-- Every call of the interface is a sequence of atomic steps. -/
theorem exec_abs {s : MultiMemoryInterface δ} {op : Op} (hr : s.Registered op)
    (hok : ∀ id x, op = .requestRead id x → ok s.abs id x) : Atoms ok s.abs (s.exec op).abs := by
  cases op with
  | registerId coreId => exact .single (.registerId (s := s.abs) coreId)
  | requestRead id x =>
    have h : Atom ok s.abs (s.abs.requestRead id x) := .requestRead hr (hok id x rfl)
    simp only [exec, abs, requestRead_mem, withMem_requestRead]
    exact .single h
  | getAllReadyReadRequest id =>
    have h : Atom ok s.abs (s.abs.getAllReadyReadRequest id).2 := .collect hr
    exact .single h
  | clockTick => exact ReflTransGen.mono (fun _ _ => Atom.move) _ _ (clockTick_abs s)

variable (ok) in
theorem reach_abs {useMemorySwitch : Bool} {P : MultiMemoryInterface δ → Op → Prop} {s : MultiMemoryInterface δ}
    (h : Reach useMemorySwitch P s) (hok : ∀ s id x, P s (.requestRead id x) → ok s.abs id x) :
    AtomReach useMemorySwitch ok s.abs := by
  induction h with
  | new mem hmem =>
    have hz : (fun st => MemorySystem.outstanding (mem st)) = fun _ _ => 0 := by
      funext st a; exact hmem st a
    have : (new useMemorySwitch mem).abs = new useMemorySwitch fun _ _ => 0 := by
      simp only [abs, withMem, new, hz]
    rw [this]; exact .refl
  | step op _ hr hp ih =>
    exact ih.trans (exec_abs hr fun id x e => hok _ id x (e ▸ hp))

end

end MultiMemoryInterface

end Anna
