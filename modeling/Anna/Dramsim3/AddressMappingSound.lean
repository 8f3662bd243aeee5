import Anna.Dramsim3.ControllerSafe
import Anna.AddressMapperSound

/-!
# The address mapping of the simulator

From the back, the tokens of the configuration place the fields one over the
other, above the bits inside a request. Every address is then mapped to a bank
that exists, also where a size is no power of two, and two addresses have the
same place exactly if they are in the same request.
-/

namespace Anna

namespace Dramsim3

/-- A field never reaches the size that its width comes from. -/
theorem two_pow_logBase2_le {n : Int} (h : 0 < n) : (2 : Int) ^ AddressMapper.logBase2 n ≤ n := by
  rw [AddressMapper.logBase2]
  split
  · have hrec := two_pow_logBase2_le (n := n / 2) (by omega)
    rw [Int.pow_succ]
    omega
  · rw [Int.pow_zero]
    omega
termination_by n.toNat
decreasing_by omega

theorem logBase2_le {n : Int} {k : Nat} (h : n < 2 ^ (k + 1)) : AddressMapper.logBase2 n ≤ k := by
  induction k generalizing n with
  | zero =>
    rw [AddressMapper.logBase2, if_neg (by omega)]
  | succ k ih =>
    rw [AddressMapper.logBase2]
    split
    · rw [Int.pow_succ] at h
      have := ih (n := n / 2) (by omega)
      omega
    · exact Nat.zero_le _

theorem le_logBase2 {n : Int} {k : Nat} (h : 2 ^ k ≤ n) : k ≤ AddressMapper.logBase2 n := by
  induction k generalizing n with
  | zero => exact Nat.zero_le _
  | succ k ih =>
    have hpos : (0 : Int) < 2 ^ k := Int.pow_pos (by decide)
    rw [Int.pow_succ] at h
    rw [AddressMapper.logBase2, if_pos (by omega)]
    exact Nat.succ_le_succ (ih (by omega))

theorem logBase2_mono {n m : Int} (hn : 0 < n) (h : n ≤ m) : AddressMapper.logBase2 n ≤ AddressMapper.logBase2 m :=
  le_logBase2 (Int.le_trans (two_pow_logBase2_le hn) h)

/-- The bits inside a request. -/
def DeviceParams.offsetWidth (device : DeviceParams) : Nat :=
  AddressMapper.logBase2 (device.busWidth.tdiv 8 * device.bl)

def Address.get (addr : Address) : AddressField → Int
  | .ch => addr.channel
  | .ra => addr.rank
  | .bg => addr.bankgroup
  | .ba => addr.bank
  | .ro => addr.row
  | .co => addr.column

theorem Address.ext_get {addr addr' : Address} (h : ∀ f, addr.get f = addr'.get f) : addr = addr' := by
  cases addr
  cases addr'
  rw [Address.mk.injEq]
  exact ⟨h .ch, h .ra, h .bg, h .ba, h .ro, h .co⟩

namespace Config

theorem token_length (f : AddressField) : f.token.length = 2 := by cases f <;> rfl

theorem find?_token (f : AddressField) : AddressField.find? f.token = some f := by
  refine findKey_token (fun f g h => ?_) (by cases f <;> decide)
  cases f <;> cases g <;> first | rfl | exact absurd h (by decide)

/-- The configuration with its fields placed in the order of `ks`, from the low end. -/
def placed (config : Config) (shiftBits : Nat) (w : AddressField → Nat) (ks : List AddressField) : Config :=
  { config with shiftBits := shiftBits, pos := place w ks, mask := fun f => UInt64.ofNat (2 ^ w f - 1) }

theorem setAddressMapping_eq (config : Config) (device : DeviceParams) (fields : List AddressField)
    (hfields : fields.Perm [.ch, .ra, .bg, .ba, .ro, .co])
    (hmapping : device.addressMapping = fields.flatMap AddressField.token)
    (hcolumns : AddressMapper.logBase2 device.bl ≤ AddressMapper.logBase2 device.columns) :
    config.setAddressMapping device = .ok (config.placed
      (AddressMapper.logBase2 (device.busWidth.tdiv 8 * device.bl)) (config.fieldWidths device) fields.reverse) := by
  have hnodup : fields.reverse.Nodup := List.nodup_reverse.mpr (hfields.nodup_iff.mpr (by decide))
  have hall : ∀ f, f ∈ fields.reverse := by
    intro f
    rw [List.mem_reverse, hfields.mem_iff]
    cases f <;> decide
  have hlength : device.addressMapping.length = 12 := by
    rw [hmapping, length_flatMap_token token_length, hfields.length_eq]
    rfl
  have hplace := placeTokens_eq Exit.unrecognizedField (config.fieldWidths device) find?_token hnodup 0 fun _ => none
  rw [List.map_reverse] at hplace
  unfold setAddressMapping
  dsimp only
  rw [if_neg (not_not.mpr hlength), hmapping, tokens_flatMap token_length, placeFields, hplace]
  simp only [posAt, placeAt_place _ hall, if_neg (Nat.not_lt_of_le hcolumns), bind, Except.bind, pure, Except.pure]
  congr 2
  funext f
  cases f <;> rfl

/-! ## What is read -/

section
variable {config : Config} {shiftBits : Nat} {w : AddressField → Nat} {ks : List AddressField}

theorem placed_field (hw : ∀ f, w f ≤ 30) {f : AddressField} (hpos : place w ks f < 64) (x : UInt64) :
    (config.placed shiftBits w ks).field x f = fieldsOf w ks x.toNat f := by
  have hmask := AddressStackMaper.toNat_mask (Nat.lt_succ_of_le (hw f))
  have hcut : ((x >>> UInt64.ofNat (place w ks f)) &&& UInt64.ofNat (2 ^ w f - 1)).toNat = fieldsOf w ks x.toNat f := by
    rw [UInt64.toNat_and, UInt64.toNat_shiftRight, AddressStackMaper.toNat_ofNat_pos hpos, hmask,
      Nat.and_two_pow_sub_one_eq_mod, Nat.shiftRight_eq_div_pow]
    rfl
  have hint : fieldsOf w ks x.toNat f < 2 ^ 31 :=
    Nat.lt_of_lt_of_le (fieldsOf_lt _ _ _) (Nat.pow_le_pow_right (by decide) (Nat.le_succ_of_le (hw f)))
  show (intOfUint64 ((x >>> UInt64.ofNat (place w ks f)) &&& UInt64.ofNat (2 ^ w f - 1))).toInt = _
  rw [toInt_intOfUint64 (by rw [hcut]; exact hint), hcut]

variable (hw : ∀ f, w f ≤ 30) (hpos : ∀ f, place w ks f < 64) (hshift : shiftBits < 64)
include hw hpos hshift

theorem placed_get (config : Config) (x : UInt64) (f : AddressField) :
    ((config.placed shiftBits w ks).addressMapping x).get f = fieldsOf w ks (x.toNat / 2 ^ shiftBits) f := by
  have hline : (x >>> UInt64.ofNat shiftBits).toNat = x.toNat / 2 ^ shiftBits := by
    rw [UInt64.toNat_shiftRight, AddressStackMaper.toNat_ofNat_pos hshift, Nat.shiftRight_eq_div_pow]
  rw [← hline, ← placed_field hw (hpos f)]
  cases f <;> rfl

theorem placed_mapped (hsize : (2 : Int) ^ w .ch ≤ config.channels ∧ (2 : Int) ^ w .ra ≤ config.ranks ∧
    (2 : Int) ^ w .bg ≤ config.bankgroups ∧ (2 : Int) ^ w .ba ≤ config.banksPerGroup) :
    (config.placed shiftBits w ks).Mapped := by
  obtain ⟨hch, hra, hbg, hba⟩ := hsize
  have hlt : ∀ x f, 0 ≤ ((config.placed shiftBits w ks).addressMapping x).get f ∧
      ((config.placed shiftBits w ks).addressMapping x).get f < 2 ^ w f := by
    intro x f
    rw [placed_get hw hpos hshift]
    exact ⟨Int.natCast_nonneg _, by exact_mod_cast fieldsOf_lt ks _ f⟩
  refine ⟨fun a => ?_, fun a => ⟨?_, ?_, ?_⟩⟩
  · exact ⟨(hlt a .ch).1, Int.lt_of_lt_of_le (hlt a .ch).2 hch⟩
  · exact ⟨(hlt a .ra).1, Int.lt_of_lt_of_le (hlt a .ra).2 hra⟩
  · exact ⟨(hlt a .bg).1, Int.lt_of_lt_of_le (hlt a .bg).2 hbg⟩
  · exact ⟨(hlt a .ba).1, Int.lt_of_lt_of_le (hlt a .ba).2 hba⟩

/-- Two addresses have the same place exactly if they are in the same request. -/
theorem placed_eq_iff (config : Config) (hks : ks.Nodup) {x y : UInt64} (hx : x.toNat / 2 ^ shiftBits < 2 ^ packWidth w ks)
    (hy : y.toNat / 2 ^ shiftBits < 2 ^ packWidth w ks) :
    (config.placed shiftBits w ks).addressMapping x = (config.placed shiftBits w ks).addressMapping y ↔
      x.toNat / 2 ^ shiftBits = y.toNat / 2 ^ shiftBits := by
  constructor
  · intro h
    have hfields : ∀ f ∈ ks, fieldsOf w ks (x.toNat / 2 ^ shiftBits) f = fieldsOf w ks (y.toNat / 2 ^ shiftBits) f := by
      intro f _
      have hget := placed_get hw hpos hshift config y f
      rw [← h, placed_get hw hpos hshift] at hget
      exact_mod_cast hget
    rw [← pack_fieldsOf hks hx, ← pack_fieldsOf hks hy, pack_congr hfields]
  · intro h
    refine Address.ext_get fun f => ?_
    rw [placed_get hw hpos hshift, placed_get hw hpos hshift, h]

/-- Every place whose fields are in range is the place of a request. -/
theorem placed_surj (config : Config) (hall : ∀ f, f ∈ ks) {addr : Address} (haddr : ∀ f, 0 ≤ addr.get f ∧ addr.get f < 2 ^ w f)
    (hfit : shiftBits + packWidth w ks ≤ 64) :
    ∃ x : UInt64, x.toNat % 2 ^ shiftBits = 0 ∧ x.toNat / 2 ^ shiftBits < 2 ^ packWidth w ks ∧
      (config.placed shiftBits w ks).addressMapping x = addr := by
  let v : AddressField → Nat := fun f => (addr.get f).toNat
  have hv : ∀ f ∈ ks, v f < 2 ^ w f := by
    intro f _
    obtain ⟨hnonneg, hlt⟩ := haddr f
    have hcast : ((2 ^ w f : Nat) : Int) = 2 ^ w f := by exact_mod_cast rfl
    exact (Int.toNat_lt hnonneg).mpr (hcast ▸ hlt)
  have hpack : pack w v ks < 2 ^ packWidth w ks := pack_lt hv
  have hword : pack w v ks * 2 ^ shiftBits < 2 ^ 64 := by
    calc pack w v ks * 2 ^ shiftBits < 2 ^ packWidth w ks * 2 ^ shiftBits :=
          Nat.mul_lt_mul_of_pos_right hpack (Nat.two_pow_pos _)
      _ = 2 ^ (packWidth w ks + shiftBits) := (Nat.pow_add _ _ _).symm
      _ ≤ 2 ^ 64 := Nat.pow_le_pow_right (by decide) (by omega)
  have hx : (UInt64.ofNat (pack w v ks * 2 ^ shiftBits)).toNat = pack w v ks * 2 ^ shiftBits :=
    UInt64.toNat_ofNat_of_lt' hword
  have hline : (UInt64.ofNat (pack w v ks * 2 ^ shiftBits)).toNat / 2 ^ shiftBits = pack w v ks := by
    rw [hx, Nat.mul_div_cancel _ (Nat.two_pow_pos _)]
  refine ⟨UInt64.ofNat (pack w v ks * 2 ^ shiftBits), ?_, ?_, ?_⟩
  · rw [hx, Nat.mul_mod_left]
  · rw [hline]
    exact hpack
  · refine Address.ext_get fun f => ?_
    rw [placed_get hw hpos hshift, hline, fieldsOf_pack hv (hall f)]
    exact Int.toNat_of_nonneg (haddr f).1

end

/-! ## Every order of the fields -/

def addressWidth (config : Config) (device : DeviceParams) : Nat :=
  packWidth (config.fieldWidths device) [.ch, .ra, .bg, .ba, .ro, .co]

/-- The sizes are positive `int`s. -/
structure Sized (config : Config) (device : DeviceParams) : Prop where
  channels : 0 < config.channels ∧ config.channels < 2 ^ 31
  ranks : 0 < config.ranks ∧ config.ranks < 2 ^ 31
  bankgroups : 0 < config.bankgroups ∧ config.bankgroups < 2 ^ 31
  banksPerGroup : 0 < config.banksPerGroup ∧ config.banksPerGroup < 2 ^ 31
  rows : 0 < device.rows ∧ device.rows < 2 ^ 31
  columns : 0 < device.bl ∧ device.bl ≤ device.columns ∧ device.columns < 2 ^ 31

theorem Sized.width_le {config : Config} {device : DeviceParams} (h : config.Sized device) (f : AddressField) :
    config.fieldWidths device f ≤ 30 := by
  have hnat : ∀ {n : Nat}, n < 2 ^ 31 → AddressMapper.logBase2 n ≤ 30 := fun hn => logBase2_le (by exact_mod_cast hn)
  cases f with
  | ch => exact hnat h.channels.2
  | ra => exact hnat h.ranks.2
  | bg => exact hnat h.bankgroups.2
  | ba => exact hnat h.banksPerGroup.2
  | ro => exact logBase2_le h.rows.2
  | co => exact Nat.le_trans (Nat.sub_le _ _) (logBase2_le h.columns.2.2)

theorem Sized.two_pow_le {config : Config} {device : DeviceParams} (h : config.Sized device) :
    (2 : Int) ^ config.fieldWidths device .ch ≤ config.channels ∧
      (2 : Int) ^ config.fieldWidths device .ra ≤ config.ranks ∧
      (2 : Int) ^ config.fieldWidths device .bg ≤ config.bankgroups ∧
      (2 : Int) ^ config.fieldWidths device .ba ≤ config.banksPerGroup :=
  ⟨two_pow_logBase2_le (Int.natCast_pos.mpr h.channels.1), two_pow_logBase2_le (Int.natCast_pos.mpr h.ranks.1),
    two_pow_logBase2_le (Int.natCast_pos.mpr h.bankgroups.1),
    two_pow_logBase2_le (Int.natCast_pos.mpr h.banksPerGroup.1)⟩

/-- `configs/HBM2_8Gb_x128.ini`, with the defaults of what it leaves out. -/
def hbm2Params : Config where
  protocol := .hbm
  channels := 8
  ranks := 1
  bankgroups := 4
  banksPerGroup := 4
  shiftBits := 0
  pos := fun _ => 0
  mask := fun _ => 0
  burstCycle := 2
  al := 0
  cl := 14
  cwl := 4
  tCCDL := 2
  tCCDS := 1
  tRTRS := 2
  tRTP := 5
  tWTRL := 8
  tWTRS := 6
  tWR := 16
  tRP := 14
  tRRDL := 6
  tRRDS := 4
  tRAS := 34
  tRCD := 10
  tRFC := 260
  tCKESR := 12
  tXS := 268
  tRFCb := 20
  tREFI := 3900
  tREFIb := 128
  tFAW := 30
  tPPD := 0
  t32AW := 330
  tRCDRD := 14
  tRCDWR := 14
  queueStructure := .perBank
  rowBufPolicy := .openPage
  refreshPolicy := .rankLevelStaggered
  cmdQueueSize := 8
  transQueueSize := 32
  unifiedQueue := false
  enableSelfRefresh := false
  srefThreshold := 1000
  hbmDualCmd := true
  epochPeriod := 1000000

def hbm2Device : DeviceParams where
  rows := 32768
  columns := 128
  busWidth := 128
  bl := 4
  addressMapping := ['r', 'o', 'r', 'a', 'b', 'g', 'b', 'a', 'c', 'h', 'c', 'o']

def hbm2Widths : AddressField → Nat
  | .ch => 3
  | .ra => 0
  | .bg => 2
  | .ba => 2
  | .ro => 15
  | .co => 5

/-- The configuration after `SetAddressMapping`. -/
def hbm2 : Config := hbm2Params.placed 6 hbm2Widths [.co, .ch, .ba, .bg, .ra, .ro]

theorem hbm2_widths : hbm2Params.fieldWidths hbm2Device = hbm2Widths ∧ hbm2Device.offsetWidth = 6 := by
  have hlog : ∀ k : Nat, AddressMapper.logBase2 ((2 ^ k : Nat) : Int) = k := fun k => by
    rw [Int.natCast_pow]
    exact AddressMapper.logBase2_two_pow k
  refine ⟨?_, hlog 6⟩
  funext f
  cases f with
  | ch => exact hlog 3
  | ra => exact hlog 0
  | bg => exact hlog 2
  | ba => exact hlog 2
  | ro => exact hlog 15
  | co => exact congrArg₂ (· - ·) (hlog 7) (hlog 2)

theorem hbm2_mapped : hbm2.Mapped := by
  refine placed_mapped (fun f => ?_) (fun f => ?_) (by decide) ?_
  · cases f <;> decide
  · cases f <;> decide
  · exact ⟨by decide, by decide, by decide, by decide⟩

/-- A single bank with short delays, on which a run is quickly followed. -/
def oneBank : Config :=
  placed { hbm2Params with
    channels := 1
    bankgroups := 1
    banksPerGroup := 1
    cl := 1
    burstCycle := 1
    tRCDRD := 1 } 6 (fun _ => 0) []

theorem oneBank_mapped : oneBank.Mapped :=
  placed_mapped (fun _ => Nat.zero_le _) (fun _ => Nat.zero_lt_succ _) (by decide) ⟨by decide, by decide, by decide, by decide⟩

end Config

end Dramsim3

end Anna
