import Anna.Config
import Mathlib.Data.Nat.Bitwise

/-!
# The stack mapping

`AddressStackMaper` cuts the stack number out of the middle of an address and
closes the gap.
-/

namespace Anna

structure AddressStackMaper where
  lPos : Nat
  rPos : Nat
  le : lPos ≤ rPos
  lMask : UInt64
  stMask : UInt64

def AddressStackMaper.new (lPos rPos : Nat) (le : lPos ≤ rPos) : AddressStackMaper :=
  ⟨lPos, rPos, le, UInt64.ofNat (2 ^ lPos - 1), UInt64.ofNat (2 ^ (rPos - lPos) - 1)⟩

def AddressStackMaper.map (p : AddressStackMaper) (x : UInt64) : UInt64 × UInt64 :=
  ((x >>> UInt64.ofNat p.lPos) &&& p.stMask,
   (x &&& p.lMask) ||| ((x >>> UInt64.ofNat (p.rPos - p.lPos)) &&& ~~~p.lMask))

def mapperOffset : Nat := 16

def mapper : AddressStackMaper := AddressStackMaper.new mapperOffset (mapperOffset + 3) (by decide)

theorem mapper_stack_lt (x : UInt64) : (mapper.map x).1.toNat < 8 := by
  have h : mapper.stMask = 7 := by decide
  simp only [AddressStackMaper.map, h, UInt64.toNat_and]
  exact Nat.lt_succ_of_le Nat.and_le_right

/-- No mapped address is the switch's mark for an empty queue: its top bit is clear. -/
theorem mapper_addr_ne (x : UInt64) : (mapper.map x).2 ≠ -1 := by
  have hl : mapper.lMask = 65535 := by decide
  have hs : UInt64.ofNat (mapper.rPos - mapper.lPos) = 3 := by decide
  intro h
  have hbit := congrArg (fun v : UInt64 => v.toBitVec.getLsbD 63) h
  simp only [AddressStackMaper.map, hl, hs, UInt64.toBitVec_or, UInt64.toBitVec_and, UInt64.toBitVec_not,
    UInt64.toBitVec_shiftRight, BitVec.getLsbD_or, BitVec.getLsbD_and] at hbit
  revert hbit
  simp

def stackOf (addr : UInt64) : Port := ⟨(mapper.map addr).1.toNat, mapper_stack_lt addr⟩

def addrIn (addr : UInt64) : UInt64 := (mapper.map addr).2

theorem addrIn_ne (addr : UInt64) : addrIn addr ≠ -1 := mapper_addr_ne addr

end Anna
