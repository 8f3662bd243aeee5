import Mathlib.Algebra.Group.Int.Defs
import Mathlib.Algebra.GroupWithZero.Nat

/-!
# Configuration

The constants of `config.hpp`, the address tables that `prepare_config` fills
without looking at its input, and the integer conversions and the 64-bit
subtraction that the modules share.
-/

namespace Anna

/-- `W` of the source. -/
def nprobe : UInt64 := 128
def clusterNum : Nat := 16384
def metadataLen : UInt64 := 64

def metadataAddrStart : UInt64 := 0x10000
def clusterCentroidAddrStart : UInt64 := 0x20000
def clusterAddrStart : UInt64 := 0x30000

def vectorElementSize : Nat := 2
def nCu : Nat := 128
def nScm : Nat := 36
def nU : Nat := 32
def dim : Nat := 384
def subVectorNum : Nat := 32
def scmCyclesPerQuery : Nat := (subVectorNum - 1) / nU + 1
def logKStar : Nat := 8
def kStar : Nat := 2 ^ logKStar
def vectorSize : Nat := dim * vectorElementSize

/-- `MultiANNA anna(8)`: as many cores as stacks, since both are ports of the
switch and the address mapping cuts out three bits. -/
abbrev Port := Fin 8

-- with a name, a numeral of a port is the same term in every module
instance port_neZero : NeZero 8 := ⟨by decide⟩

structure Cluster where
  startAddr : UInt64
  bytes : UInt64
  vectorNum : UInt64
  deriving DecidableEq, Repr

def metadataAddr (cluster : Nat) : UInt64 × UInt64 :=
  (metadataAddrStart + UInt64.ofNat cluster * metadataLen, metadataLen)

def clusterCentroid (cluster : Nat) : UInt64 :=
  clusterCentroidAddrStart + UInt64.ofNat (cluster * vectorSize)

/-- An `int` where a `uint64_t` is computed with. -/
def uint64OfInt (x : Int32) : UInt64 := UInt64.ofNat (x.toInt % 2 ^ 64).toNat

theorem toNat_uint64OfInt {x : Int32} (h : 0 ≤ x.toInt) : (uint64OfInt x).toNat = x.toInt.toNat := by
  have hlt : x.toInt < 2 ^ 31 := Int32.toInt_lt x
  have hmod : (x.toInt % 2 ^ 64).toNat = x.toInt.toNat := by omega
  rw [uint64OfInt, hmod, UInt64.toNat_ofNat_of_lt' (by simp only [UInt64.size]; omega)]

/-- A `uint64_t` that is stored in an `int`. -/
def intOfUint64 (x : UInt64) : Int32 := x.toUInt32.toInt32

theorem toInt_intOfUint64 {x : UInt64} (h : x.toNat < 2 ^ 31) : (intOfUint64 x).toInt = x.toNat := by
  show x.toUInt32.toBitVec.toInt = _
  rw [BitVec.toInt_eq_toNat_of_lt]
  · show ((x.toUInt32.toNat : Nat) : Int) = _
    rw [UInt64.toNat_toUInt32]
    omega
  · show 2 * x.toUInt32.toNat < 2 ^ 32
    rw [UInt64.toNat_toUInt32]
    omega

/-- The conversion cuts bits off: what it leaves is not more. -/
theorem toInt_intOfUint64_le (x : UInt64) : (intOfUint64 x).toInt ≤ x.toNat := by
  show x.toUInt32.toBitVec.toInt ≤ _
  have hcut : x.toUInt32.toBitVec.toNat = x.toNat % 2 ^ 32 := UInt64.toNat_toUInt32 x
  rw [BitVec.toInt_eq_toNat_cond, hcut]
  split <;> omega

theorem uint64OfInt_intOfUint64 {x : UInt64} (h : x.toNat < 2 ^ 31) : uint64OfInt (intOfUint64 x) = x := by
  have hmod : ((x.toNat : Int) % 2 ^ 64).toNat = x.toNat := by omega
  rw [uint64OfInt, toInt_intOfUint64 h, hmod, UInt64.ofNat_toNat]

/-- Subtraction of `uint64_t` counters: it wraps below zero. -/
def wsub (a b : Nat) : Nat := if b ≤ a then a - b else a + 2 ^ 64 - b

theorem wsub_of_le {a b : Nat} (h : b ≤ a) : wsub a b = a - b := if_pos h

end Anna
