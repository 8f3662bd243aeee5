import Anna.Config
import Anna.Lib.FieldTokens

/-!
# The field mapping

`AddressMapper` cuts an address into fields whose order a string of two-letter
tokens gives, the offset last, takes the device out and packs the other fields
again in an order of their own.
-/

namespace Anna

inductive Field
  | de
  | ch
  | ra
  | bg
  | ba
  | of
  deriving DecidableEq, Repr

namespace Field

def token : Field → List Char
  | de => ['d', 'e']
  | ch => ['c', 'h']
  | ra => ['r', 'a']
  | bg => ['b', 'g']
  | ba => ['b', 'a']
  | of => ['o', 'f']

/-- The key of `field_widths` that a token is, if it is one. -/
def find? : List Char → Option Field := findKey token [de, ch, ra, bg, ba, of]

end Field

structure AddressMapper where
  devices : Int32
  channels : Int32
  ranks : Int32
  bankgroups : Int32
  banks : Int32
  offset : Int32

/-- What `makeMapper` computes; the source has a member for each field and entry. -/
structure FieldPlan where
  pos : Field → Nat
  width : Field → Nat
  mask : Field → UInt64

inductive MapperError
  /-- The program prints `Unrecognized field: ` and the token, and exits. -/
  | unrecognizedField (token : List Char)
  /-- `std::out_of_range`, thrown by `map::at`. -/
  | outOfRange
  deriving DecidableEq, Repr

namespace AddressMapper

def logBase2 (powerOfTwo : Int) : Nat := if 1 < powerOfTwo then logBase2 (powerOfTwo / 2) + 1 else 0
termination_by powerOfTwo.toNat
decreasing_by omega

def size (a : AddressMapper) : Field → Int32
  | .de => a.devices
  | .ch => a.channels
  | .ra => a.ranks
  | .bg => a.bankgroups
  | .ba => a.banks
  | .of => a.offset

def fieldWidths (a : AddressMapper) (f : Field) : Nat := logBase2 (a.size f).toInt

/-- The loop over `fields`. -/
def placeFields (widths : Field → Nat) :
    List (List Char) → Nat → (Field → Option Nat) → Except MapperError (Field → Option Nat) :=
  placeTokens Field.find? .unrecognizedField widths

/-- `field_pos.at(f)`. -/
def posAt : (Field → Option Nat) → Field → Except MapperError Nat := placeAt .outOfRange

/-- A width is that of an `int` and thus at most 30, so that `1 << width` does not overflow. -/
def makeMapper (a : AddressMapper) (x : List Char) : Except MapperError FieldPlan := do
  let fieldPos ← placeFields a.fieldWidths (tokens x ++ [Field.of.token]).reverse 0 fun _ => none
  let dePos ← posAt fieldPos .de
  let chPos ← posAt fieldPos .ch
  let raPos ← posAt fieldPos .ra
  let bgPos ← posAt fieldPos .bg
  let baPos ← posAt fieldPos .ba
  let ofPos ← posAt fieldPos .of
  return {
    pos := fun
      | .de => dePos
      | .ch => chPos
      | .ra => raPos
      | .bg => bgPos
      | .ba => baPos
      | .of => ofPos
    width := a.fieldWidths
    mask := fun f => UInt64.ofNat (2 ^ a.fieldWidths f - 1) }

end AddressMapper

namespace FieldPlan

/-- A field of an address, as an `int`. -/
def field (m : FieldPlan) (x : UInt64) (f : Field) : Int32 :=
  intOfUint64 ((x >>> UInt64.ofNat (m.pos f)) &&& m.mask f)

/-- `res <<= width; res += value`. -/
def append (m : FieldPlan) (x : UInt64) (res : UInt64) (f : Field) : UInt64 :=
  (res <<< UInt64.ofNat (m.width f)) + uint64OfInt (m.field x f)

def map (m : FieldPlan) (x : UInt64) : UInt64 × UInt64 :=
  let res : UInt64 := 0 + uint64OfInt (m.field x .ch)
  let res := m.append x res .ra
  let res := m.append x res .bg
  let res := m.append x res .ba
  let res := m.append x res .of
  (uint64OfInt (m.field x .de), res)

end FieldPlan

end Anna
