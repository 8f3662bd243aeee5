import Anna.AddressMap
import Anna.MemorySwitch
import Anna.Lib.Multimap
import Mathlib.Data.List.Sort
import Mathlib.Order.Basic
import Mathlib.Data.UInt

/-!
# The memory interface

`MultiMemoryInterface` takes 64-byte reads of any number of readers to eight
DRAM stacks and hands the completions back. The stacks are a parameter
(`MemorySystem`): the vendored simulator is used through three functions, and
relied on to answer every accepted read once. Two flags stand for the places
where the program would stop: the `assert` of `ReadCallback` and the iterator
that `ClockTick` dereferences unchecked.
-/

namespace Anna

/-- One DRAM stack. `clockTick` yields the addresses that the read callback is
called with, in order; `outstanding` counts the accepted, unanswered reads. -/
class MemorySystem (δ : Type) where
  clockTick : δ → List UInt64 × δ
  willAcceptTransaction : δ → UInt64 → Bool
  addTransaction : δ → UInt64 → δ
  outstanding : δ → UInt64 → Nat
  outstanding_clockTick : ∀ d a, outstanding d a = (clockTick d).1.count a + outstanding (clockTick d).2 a
  outstanding_addTransaction : ∀ d a b,
    outstanding (addTransaction d a) b = outstanding d b + if a = b then 1 else 0

/-- A stack that accepts every read and answers it at its next tick. -/
abbrev IdealDram := List UInt64

instance : MemorySystem IdealDram where
  clockTick d := (d, [])
  willAcceptTransaction _ _ := true
  addTransaction d addr := d ++ [addr]
  outstanding d a := d.count a
  outstanding_clockTick d a := by simp
  outstanding_addTransaction d a b := by simp [List.count_append, List.count_cons]

/-- What the interface has done, at the points where its debug output stands. -/
inductive MemoryEvent where
  | reqIn (id : Nat) (st : Port) (addr : UInt64) (port : Option Port)
  | reqOut (core st : Port) (addr : UInt64)
  | credit (id : Nat) (st : Port) (addr : UInt64) (port : Option Port)
  deriving DecidableEq, Repr

/-- The multisets are sorted lists. `log` is history that no function reads:
`port` is the core at whose port a request entered or a completion left the
switch, `none` if it did not cross. -/
structure MultiMemoryInterface (δ : Type) where
  useMemorySwitch : Bool
  memorySystemList : Port → δ
  readRequestQueue : Port → List UInt64
  readReadyQueues : Port → Nat → List UInt64
  idMap : Port → Multimap UInt64 Nat
  idNum : Nat
  id2core : Nat → Port
  memorySwitch : MemorySwitch 8
  memoryReqCnt : Nat
  assertFailed : Bool
  endDereferenced : Bool
  log : List MemoryEvent

namespace MultiMemoryInterface

variable {δ : Type}

def new (useMemorySwitch : Bool) (memorySystemList : Port → δ) : MultiMemoryInterface δ where
  useMemorySwitch := useMemorySwitch
  memorySystemList := memorySystemList
  readRequestQueue := fun _ => []
  readReadyQueues := fun _ _ => []
  idMap := fun _ => []
  idNum := 0
  id2core := fun _ => 0
  memorySwitch := MemorySwitch.empty
  memoryReqCnt := 0
  assertFailed := false
  endDereferenced := false
  log := []

def registerId (s : MultiMemoryInterface δ) (coreId : Port) : MultiMemoryInterface δ :=
  { s with
    id2core := Function.update s.id2core s.idNum coreId
    idNum := s.idNum + 1
    readReadyQueues := fun st => Function.update (s.readReadyQueues st) s.idNum [] }

def record (s : MultiMemoryInterface δ) (e : MemoryEvent) : MultiMemoryInterface δ := { s with log := s.log ++ [e] }

def enqueue (s : MultiMemoryInterface δ) (st : Port) (addr : UInt64) : MultiMemoryInterface δ :=
  { s with readRequestQueue :=
      Function.update s.readRequestQueue st ((s.readRequestQueue st).orderedInsert (· ≤ ·) addr) }

/-- Put a completion into the ready queue of the entry found for `addr`, and erase that entry. -/
def credit (s : MultiMemoryInterface δ) (st : Port) (addr : UInt64) (id : Nat) (port : Option Port) :
    MultiMemoryInterface δ :=
  { s.record (.credit id st addr port) with
    readReadyQueues := Function.update s.readReadyQueues st
      (Function.update (s.readReadyQueues st) id ((s.readReadyQueues st id).orderedInsert (· ≤ ·) addr))
    idMap := Function.update s.idMap st ((s.idMap st).erase addr) }

def requestRead (s : MultiMemoryInterface δ) (id : Nat) (x : UInt64) : MultiMemoryInterface δ :=
  let st := stackOf x
  let addr := addrIn x
  let s :=
    if s.useMemorySwitch then
      if s.id2core id = st then (s.record (.reqIn id st addr none)).enqueue st addr
      else { s.record (.reqIn id st addr (some (s.id2core id))) with
        memorySwitch := s.memorySwitch.sendReq (s.id2core id) st addr }
    else (s.record (.reqIn id st addr none)).enqueue st addr
  { s with idMap := Function.update s.idMap st ((s.idMap st).insert addr id) }

def getAllReadyReadRequest (s : MultiMemoryInterface δ) (id : Nat) : Nat × MultiMemoryInterface δ :=
  (∑ st, (s.readReadyQueues st id).length,
   { s with readReadyQueues := fun st => Function.update (s.readReadyQueues st) id [] })

def readCallback (s : MultiMemoryInterface δ) (st : Port) (addr : UInt64) : MultiMemoryInterface δ :=
  match (s.idMap st).find? addr with
  | none => { s with assertFailed := true }
  | some id =>
    if s.useMemorySwitch then
      if s.id2core id = st then s.credit st addr id none
      else { s with memorySwitch := s.memorySwitch.sendRes st (s.id2core id) addr }
    else s.credit st addr id none

def arrive (s : MultiMemoryInterface δ) (core st : Port) (addr : UInt64) : MultiMemoryInterface δ :=
  (s.enqueue st addr).record (.reqOut core st addr)

/-- The loop `while ((addr = memory_switch.getReq(st)) != -1)`; it runs at most
once for each request at the port, `fuel`. -/
def drainReq (st : Port) : Nat → MultiMemoryInterface δ → MultiMemoryInterface δ
  | 0, s => s
  | fuel + 1, s =>
    match s.memorySwitch.req.output st with
    | [] => s
    | (core, _) :: _ =>
      let r := s.memorySwitch.getReq st
      let s := { s with memorySwitch := r.2 }
      if r.1 = -1 then s else drainReq st fuel (s.arrive core st r.1)

def deliver (s : MultiMemoryInterface δ) (core st : Port) (addr : UInt64) : MultiMemoryInterface δ :=
  match (s.idMap st).find? addr with
  | none => { s with endDereferenced := true }
  | some id => s.credit st addr id (some core)

def drainRes (core : Port) : Nat → MultiMemoryInterface δ → MultiMemoryInterface δ
  | 0, s => s
  | fuel + 1, s =>
    match s.memorySwitch.getRes core with
    | (none, _) => s
    | (some (st, addr), w) => drainRes core fuel ({ s with memorySwitch := w }.deliver core st addr)

/-- The part of `ClockTick` under `if (use_memory_switch)`. -/
def tickSwitch (s : MultiMemoryInterface δ) : MultiMemoryInterface δ :=
  let s := { s with memorySwitch := s.memorySwitch.clockTick }
  let s := (List.finRange 8).foldl (fun s st => drainReq st (s.memorySwitch.req.output st).length s) s
  (List.finRange 8).foldl (fun s core => drainRes core (s.memorySwitch.res.output core).length s) s

variable [MemorySystem δ]

/-- Hand the front of a request queue to the stack as long as it accepts: the
stack, the remaining queue and the number of reads handed over. -/
def fill : δ → List UInt64 → δ × List UInt64 × Nat
  | d, [] => (d, [], 0)
  | d, addr :: q =>
    if MemorySystem.willAcceptTransaction d addr then
      let r := fill (MemorySystem.addTransaction d addr) q
      (r.1, r.2.1, r.2.2 + 1)
    else (d, addr :: q, 0)

def tickStack (s : MultiMemoryInterface δ) (i : Port) : MultiMemoryInterface δ :=
  let t := MemorySystem.clockTick (s.memorySystemList i)
  let s := { s with memorySystemList := Function.update s.memorySystemList i t.2 }
  let s := t.1.foldl (fun s addr => s.readCallback i addr) s
  let r := fill (s.memorySystemList i) (s.readRequestQueue i)
  { s with
    memorySystemList := Function.update s.memorySystemList i r.1
    readRequestQueue := Function.update s.readRequestQueue i r.2.1
    memoryReqCnt := s.memoryReqCnt + r.2.2 }

def clockTick (s : MultiMemoryInterface δ) : MultiMemoryInterface δ :=
  let s := if s.useMemorySwitch then s.tickSwitch else s
  (List.finRange 8).foldl tickStack s

/-! ## Runs -/

inductive Op where
  | registerId (coreId : Port)
  | requestRead (id : Nat) (addr : UInt64)
  | getAllReadyReadRequest (id : Nat)
  | clockTick
  deriving DecidableEq, Repr

def exec (s : MultiMemoryInterface δ) : Op → MultiMemoryInterface δ
  | .registerId coreId => s.registerId coreId
  | .requestRead id addr => s.requestRead id addr
  | .getAllReadyReadRequest id => (s.getAllReadyReadRequest id).2
  | .clockTick => s.clockTick

def Registered (s : MultiMemoryInterface δ) : Op → Prop
  | .requestRead id _ => id < s.idNum
  | .getAllReadyReadRequest id => id < s.idNum
  | _ => True

/-- The states of the runs from construction, with the switch on or off, in
which every call meets `ok`. -/
inductive Reach (useMemorySwitch : Bool) (ok : MultiMemoryInterface δ → Op → Prop) :
    MultiMemoryInterface δ → Prop
  | new (mem : Port → δ) : (∀ st a, MemorySystem.outstanding (mem st) a = 0) →
      Reach useMemorySwitch ok (new useMemorySwitch mem)
  | step {s : MultiMemoryInterface δ} (op : Op) : Reach useMemorySwitch ok s → s.Registered op → ok s op →
      Reach useMemorySwitch ok (s.exec op)

abbrev Reachable (useMemorySwitch : Bool) : MultiMemoryInterface δ → Prop :=
  Reach useMemorySwitch (fun _ _ => True)

def Allowed (ok : MultiMemoryInterface δ → Op → Prop) : MultiMemoryInterface δ → List Op → Prop
  | _, [] => True
  | s, op :: ops => s.Registered op ∧ ok s op ∧ Allowed ok (s.exec op) ops

theorem reach_foldl {useMemorySwitch : Bool} {ok : MultiMemoryInterface δ → Op → Prop} (ops : List Op)
    {s : MultiMemoryInterface δ} (h : Reach useMemorySwitch ok s) (hops : Allowed ok s ops) :
    Reach useMemorySwitch ok (ops.foldl exec s) := by
  induction ops generalizing s with
  | nil => exact h
  | cons op ops ih => exact ih (.step op h hops.1 hops.2.1) hops.2.2

instance (s : MultiMemoryInterface δ) : (op : Op) → Decidable (s.Registered op)
  | .registerId _ => inferInstanceAs (Decidable True)
  | .requestRead id _ => inferInstanceAs (Decidable (id < s.idNum))
  | .getAllReadyReadRequest id => inferInstanceAs (Decidable (id < s.idNum))
  | .clockTick => inferInstanceAs (Decidable True)

instance Allowed.decidable (ok : MultiMemoryInterface δ → Op → Prop) [∀ s op, Decidable (ok s op)] :
    (s : MultiMemoryInterface δ) → (ops : List Op) → Decidable (Allowed ok s ops)
  | _, [] => inferInstanceAs (Decidable True)
  | s, op :: ops =>
    have := Allowed.decidable ok (s.exec op) ops
    inferInstanceAs (Decidable (s.Registered op ∧ ok s op ∧ Allowed ok (s.exec op) ops))

def replay (ops : List Op) : MultiMemoryInterface IdealDram := ops.foldl exec (new true fun _ => [])

theorem reach_replay {ok : MultiMemoryInterface IdealDram → Op → Prop} {ops : List Op}
    (h : Allowed ok (new true fun _ => []) ops) : Reach true ok (replay ops) :=
  reach_foldl ops (.new _ fun _ _ => rfl) h

end MultiMemoryInterface

end Anna
