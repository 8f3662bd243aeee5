import Anna.AddressMapper
import Anna.AddressMapSound
import Anna.Lib.BitFields

/-!
# The field mapping loses nothing

From the back, the tokens of a string that names every field once place the
fields one over the other, so that they tile the address. The mapped address
is packed from the same fields, without the device and in another order; both
orders can be read back, so the mapping is a bijection.
-/

namespace Anna

namespace AddressMapper

/-! ## The plan -/

theorem logBase2_two_pow (k : Nat) : logBase2 (2 ^ k) = k := by
  induction k with
  | zero =>
    rw [logBase2]
    rfl
  | succ k ih =>
    have hpos : (0 : Int) < 2 ^ k := Int.pow_pos (by decide)
    have hhalf : (2 : Int) ^ (k + 1) / 2 = 2 ^ k := by
      rw [Int.pow_succ]
      omega
    rw [logBase2, if_pos (by rw [Int.pow_succ]; omega), hhalf, ih]

theorem token_length (f : Field) : f.token.length = 2 := by cases f <;> rfl

theorem find?_token (f : Field) : Field.find? f.token = some f := by
  refine findKey_token (fun f g h => ?_) (by cases f <;> decide)
  cases f <;> cases g <;> first | rfl | exact absurd h (by decide)

def planOf (w : Field → Nat) (ks : List Field) : FieldPlan :=
  ⟨place w ks, w, fun f => UInt64.ofNat (2 ^ w f - 1)⟩

theorem makeMapper_eq (a : AddressMapper) {fields : List Field} (hnodup : (Field.of :: fields.reverse).Nodup)
    (hall : ∀ f, f ∈ Field.of :: fields.reverse) :
    a.makeMapper (fields.flatMap Field.token) = .ok (planOf a.fieldWidths (Field.of :: fields.reverse)) := by
  have hback : (tokens (fields.flatMap Field.token) ++ [Field.of.token]).reverse =
      (Field.of :: fields.reverse).map Field.token := by
    rw [tokens_flatMap token_length, List.reverse_append, List.map_cons, List.map_reverse]
    rfl
  have hplace := placeTokens_eq MapperError.unrecognizedField a.fieldWidths find?_token hnodup 0 fun _ => none
  rw [makeMapper, hback, placeFields, hplace]
  simp only [posAt, placeAt_place _ hall, bind, Except.bind, pure, Except.pure]
  congr 2
  funext f
  cases f <;> rfl

/-! ## What the plan reads -/

section
variable {w : Field → Nat} {ks : List Field}

theorem toNat_field (hw : ∀ f, w f ≤ 30) {f : Field} (hpos : place w ks f < 64) (x : UInt64) :
    (uint64OfInt ((planOf w ks).field x f)).toNat = fieldsOf w ks x.toNat f := by
  have hmask := AddressStackMaper.toNat_mask (Nat.lt_succ_of_le (hw f))
  have hcut : ((x >>> UInt64.ofNat (place w ks f)) &&& UInt64.ofNat (2 ^ w f - 1)).toNat = fieldsOf w ks x.toNat f := by
    rw [UInt64.toNat_and, UInt64.toNat_shiftRight, AddressStackMaper.toNat_ofNat_pos hpos, hmask,
      Nat.and_two_pow_sub_one_eq_mod, Nat.shiftRight_eq_div_pow]
    rfl
  have hint : fieldsOf w ks x.toNat f < 2 ^ 31 :=
    Nat.lt_of_lt_of_le (fieldsOf_lt _ _ _) (Nat.pow_le_pow_right (by decide) (Nat.le_succ_of_le (hw f)))
  show (uint64OfInt (intOfUint64 ((x >>> UInt64.ofNat (place w ks f)) &&& UInt64.ofNat (2 ^ w f - 1)))).toNat = _
  rw [uint64OfInt_intOfUint64 (by rw [hcut]; exact hint), hcut]

/-- Shifting in one more field packs it below the others, as long as they fit into the word. -/
theorem toNat_append (hw : ∀ f, w f ≤ 30) {f : Field} (hpos : place w ks f < 64) {x res : UInt64} {ls : List Field}
    (hfit : packWidth w (f :: ls) ≤ 63) (hres : res.toNat = pack w (fieldsOf w ks x.toNat) ls) :
    ((planOf w ks).append x res f).toNat = pack w (fieldsOf w ks x.toNat) (f :: ls) := by
  have hshift : (UInt64.ofNat (w f)).toNat % 64 = w f :=
    AddressStackMaper.toNat_ofNat_pos (Nat.lt_of_le_of_lt (hw f) (by decide))
  have hlt : fieldsOf w ks x.toNat f + 2 ^ w f * pack w (fieldsOf w ks x.toNat) ls < 2 ^ 64 := by
    have hpack : pack w (fieldsOf w ks x.toNat) (f :: ls) < 2 ^ packWidth w (f :: ls) :=
      pack_lt fun k _ => fieldsOf_lt ks x.toNat k
    have hword : 2 ^ packWidth w (f :: ls) ≤ 2 ^ 63 := Nat.pow_le_pow_right (by decide) hfit
    rw [pack] at hpack
    omega
  show ((res <<< UInt64.ofNat (w f)) + uint64OfInt ((planOf w ks).field x f)).toNat = _
  rw [UInt64.toNat_add, toNat_field hw hpos, UInt64.toNat_shiftLeft, hshift, Nat.shiftLeft_eq, hres, Nat.mul_comm,
    Nat.mod_eq_of_lt (Nat.lt_of_le_of_lt (Nat.le_add_left _ _) hlt), Nat.add_comm, Nat.mod_eq_of_lt hlt, pack]

/-- On numbers, `map` takes the device out and packs the other fields in the order of the code. -/
theorem toNat_map (hw : ∀ f, w f ≤ 30) (hpos : ∀ f, place w ks f < 64)
    (hfit : packWidth w [.of, .ba, .bg, .ra, .ch] ≤ 63) (x : UInt64) :
    (((planOf w ks).map x).1.toNat, ((planOf w ks).map x).2.toNat) =
      repack w ks [.of, .ba, .bg, .ra, .ch] .de x.toNat := by
  simp only [packWidth_cons] at hfit
  have hch : (0 + uint64OfInt ((planOf w ks).field x .ch)).toNat = pack w (fieldsOf w ks x.toNat) [.ch] := by
    rw [UInt64.zero_add, toNat_field hw (hpos .ch), pack, pack, Nat.mul_zero, Nat.add_zero]
  have hra := toNat_append hw (hpos .ra) (by simp only [packWidth_cons]; omega) hch
  have hbg := toNat_append hw (hpos .bg) (by simp only [packWidth_cons]; omega) hra
  have hba := toNat_append hw (hpos .ba) (by simp only [packWidth_cons]; omega) hbg
  have hof := toNat_append hw (hpos .of) (by simp only [packWidth_cons]; omega) hba
  exact Prod.ext (toNat_field hw (hpos .de) x) hof

theorem planOf_bijOn (hw : ∀ f, w f ≤ 30) (hks : ks.Nodup) (hperm : ks.Perm [.de, .of, .ba, .bg, .ra, .ch])
    (hwidth : packWidth w ks ≤ 63) :
    Set.BijOn (planOf w ks).map {x | x.toNat < 2 ^ packWidth w ks}
      {p | p.1.toNat < 2 ^ w .de ∧ p.2.toNat < 2 ^ packWidth w [.of, .ba, .bg, .ra, .ch]} := by
  have hsum := packWidth_perm (w := w) hperm
  rw [packWidth_cons] at hsum
  have hpos : ∀ f, place w ks f < 64 := by
    intro f
    have hf : f ∈ ks := by
      rw [hperm.mem_iff]
      cases f <;> decide
    have := place_add_le (w := w) hf
    omega
  have hmap := toNat_map hw hpos (by omega)
  obtain ⟨hmaps, hinj, hsurj⟩ := repack_bijOn (w := w) hks hperm
  refine ⟨?_, ?_, ?_⟩
  · intro x hx
    have hrange := hmaps hx
    rw [← hmap] at hrange
    exact hrange
  · intro x hx y hy hxy
    refine UInt64.toNat_inj.mp (hinj hx hy ?_)
    rw [← hmap, ← hmap, hxy]
  · intro p hp
    obtain ⟨n, hn, hpn⟩ := hsurj (show (p.1.toNat, p.2.toNat) ∈ _ from hp)
    have hword : 2 ^ packWidth w ks ≤ 2 ^ 63 := Nat.pow_le_pow_right (by decide) hwidth
    have hx : (UInt64.ofNat n).toNat = n := by
      apply UInt64.toNat_ofNat_of_lt'
      exact Nat.lt_of_lt_of_le hn (Nat.le_trans hword (by decide))
    refine ⟨UInt64.ofNat n, ?_, ?_⟩
    · show (UInt64.ofNat n).toNat < _
      rw [hx]
      exact hn
    · have heq := (hmap (UInt64.ofNat n)).trans (hx.symm ▸ hpn)
      obtain ⟨hfst, hsnd⟩ := Prod.mk.inj heq
      exact Prod.ext (UInt64.toNat_inj.mp hfst) (UInt64.toNat_inj.mp hsnd)

end

/-! ## Every order of the fields -/

section
variable {fields : List Field}

theorem fields_perm (h : fields.Perm [.de, .ch, .ra, .bg, .ba]) :
    (Field.of :: fields.reverse).Perm [.de, .of, .ba, .bg, .ra, .ch] := by
  have hrev : fields.reverse.Perm [.de, .ch, .ra, .bg, .ba] := fields.reverse_perm.trans h
  exact (hrev.cons _).trans (by decide)

theorem fields_nodup (h : fields.Perm [.de, .ch, .ra, .bg, .ba]) : (Field.of :: fields.reverse).Nodup :=
  (fields_perm h).nodup_iff.mpr (by decide)

theorem mem_fields (h : fields.Perm [.de, .ch, .ra, .bg, .ba]) (f : Field) : f ∈ Field.of :: fields.reverse := by
  rw [(fields_perm h).mem_iff]
  cases f <;> decide

end

def addressWidth (w : Field → Nat) : Nat := w .de + w .ch + w .ra + w .bg + w .ba + w .of

/-- For every order of the fields, they tile the address, and the mapping is a bijection between the addresses of that
width and the pairs of a device and an address in it. -/
theorem makeMapper_bijective (a : AddressMapper) (w : Field → Nat) (fields : List Field)
    (hfields : fields.Perm [.de, .ch, .ra, .bg, .ba]) (hsize : ∀ f, (a.size f).toInt = 2 ^ w f) (hw : ∀ f, w f ≤ 30)
    (hwidth : addressWidth w ≤ 63) :
    ∃ m, a.makeMapper (fields.flatMap Field.token) = .ok m ∧
      (∀ i, i < addressWidth w ↔ ∃ f, m.pos f ≤ i ∧ i < m.pos f + w f) ∧
      (∀ f g i, m.pos f ≤ i ∧ i < m.pos f + w f → m.pos g ≤ i ∧ i < m.pos g + w g → f = g) ∧
      Set.BijOn m.map {x | x.toNat < 2 ^ addressWidth w}
        {p | (p.1.toNat : Int) < a.devices.toInt ∧ p.2.toNat < 2 ^ (addressWidth w - w .de)} := by
  let ks := Field.of :: fields.reverse
  have hperm := fields_perm hfields
  have hnodup := fields_nodup hfields
  have hmem := mem_fields hfields
  have hwidths : a.fieldWidths = w := by
    funext f
    rw [fieldWidths, hsize, logBase2_two_pow]
  have hall : packWidth w ks = addressWidth w := by
    rw [packWidth_perm hperm]
    simp only [packWidth_cons, packWidth_nil, addressWidth]
    omega
  have hrest : packWidth w [.of, .ba, .bg, .ra, .ch] = addressWidth w - w .de := by
    simp only [packWidth_cons, packWidth_nil, addressWidth]
    omega
  have hdevices : ∀ n : Nat, (n : Int) < a.devices.toInt ↔ n < 2 ^ w .de := by
    intro n
    rw [show a.devices.toInt = 2 ^ w .de from hsize .de]
    exact_mod_cast Iff.rfl
  have hbij := planOf_bijOn hw hnodup hperm (hall.le.trans hwidth)
  rw [hall, hrest] at hbij
  refine ⟨planOf w ks, hwidths ▸ makeMapper_eq a hnodup hmem, ?_, ?_, ?_⟩
  · intro i
    rw [← hall]
    constructor
    · intro hi
      obtain ⟨f, -, hf⟩ := exists_place hnodup hi
      exact ⟨f, hf⟩
    · rintro ⟨f, -, hlt⟩
      exact Nat.lt_of_lt_of_le hlt (place_add_le (hmem f))
  · intro f g i hf hg
    exact place_unique (hmem f) (hmem g) hf hg
  · simp only [hdevices]
    exact hbij

def eightWidths : Field → Nat
  | .de => 3
  | .ch => 3
  | .ra => 0
  | .bg => 2
  | .ba => 2
  | .of => 6

/-- Eight devices, with the device between the channel and the bank group. -/
theorem makeMapper_bijective_eight :
    ∃ m, AddressMapper.makeMapper ⟨8, 8, 1, 4, 4, 64⟩ ['r', 'a', 'b', 'a', 'c', 'h', 'd', 'e', 'b', 'g'] = .ok m ∧
      Set.BijOn m.map {x | x.toNat < 2 ^ 16} {p | (p.1.toNat : Int) < 8 ∧ p.2.toNat < 2 ^ 13} := by
  obtain ⟨m, hm, -, -, hbij⟩ := makeMapper_bijective ⟨8, 8, 1, 4, 4, 64⟩ eightWidths [.ra, .ba, .ch, .de, .bg]
    (by decide) (by intro f; cases f <;> rfl) (by intro f; cases f <;> decide) (by decide)
  exact ⟨m, hm, hbij⟩

end AddressMapper

end Anna
