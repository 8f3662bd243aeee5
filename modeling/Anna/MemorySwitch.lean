import Anna.Lib.Crossbar

/-!
# The memory switch

`MemorySwitch` is two crossbars, one for requests (cores to stacks) and one
for responses (stacks to cores), which a tick moves independently.
-/

namespace Anna

def switchBatchSize : Nat := 128 / 64

structure MemorySwitch (n : Nat) where
  req : Crossbar n UInt64
  res : Crossbar n UInt64

namespace MemorySwitch

variable {n : Nat}

def empty : MemorySwitch n := ⟨Crossbar.empty, Crossbar.empty⟩

def clockTick (w : MemorySwitch n) : MemorySwitch n := ⟨w.req.tick switchBatchSize, w.res.tick switchBatchSize⟩

def sendReq (w : MemorySwitch n) (coreId memId : Fin n) (addr : UInt64) : MemorySwitch n :=
  { w with req := w.req.send coreId memId addr }

/-- The address at the front of a stack's port, or `-1` if there is none. -/
def getReq (w : MemorySwitch n) (memId : Fin n) : UInt64 × MemorySwitch n :=
  match w.req.receive memId with
  | (none, _) => (-1, w)
  | (some (_, addr), req) => (addr, { w with req := req })

def sendRes (w : MemorySwitch n) (memId coreId : Fin n) (addr : UInt64) : MemorySwitch n :=
  { w with res := w.res.send memId coreId addr }

/-- The stack and address at the front of a core's port; `none` is the pair
`(-1, -1)`, which no port number and address make. -/
def getRes (w : MemorySwitch n) (coreId : Fin n) : Option (Fin n × UInt64) × MemorySwitch n :=
  match w.res.receive coreId with
  | (none, _) => (none, w)
  | (some e, res) => (some e, { w with res := res })

end MemorySwitch

end Anna
