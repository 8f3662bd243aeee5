import Anna.AddressMap
import Mathlib.Data.Set.Function

/-!
# The stack mapping loses nothing

In numbers, `map` divides an address by `2 ^ lPos`, takes the stack from the
low `rPos - lPos` bits of the quotient and puts the rest of the quotient back
over the remainder. So it is a bijection, and keeps the order of the addresses
of one stack.
-/

namespace Anna

namespace AddressStackMaper

variable {l r : Nat} {le : l ≤ r}

theorem toNat_ofNat_pos {k : Nat} (hk : k < 64) : (UInt64.ofNat k).toNat % 64 = k := by
  rw [UInt64.toNat_ofNat_of_lt' (by simp [UInt64.size]; omega), Nat.mod_eq_of_lt hk]

theorem toNat_mask {k : Nat} (hk : k < 31) : (UInt64.ofNat (2 ^ k - 1)).toNat = 2 ^ k - 1 := by
  have : 2 ^ k < 2 ^ 64 := Nat.pow_lt_pow_right (by decide) (by omega)
  exact UInt64.toNat_ofNat_of_lt' (by simp only [UInt64.size]; omega)

/-- Masking the low bits away, in a word. -/
theorem toNat_and_not_mask {k : Nat} (hk : k < 31) (y : UInt64) :
    (y &&& ~~~UInt64.ofNat (2 ^ k - 1)).toNat = y.toNat / 2 ^ k * 2 ^ k := by
  apply Nat.eq_of_testBit_eq
  intro j
  have hy : 64 ≤ j → y.toNat.testBit j = false := fun hj =>
    Nat.testBit_lt_two_pow (Nat.lt_of_lt_of_le y.toNat_lt (Nat.pow_le_pow_right (by decide) hj))
  have hn : (~~~UInt64.ofNat (2 ^ k - 1)).toNat = 2 ^ 64 - (2 ^ k - 1 + 1) := by
    rw [UInt64.toNat_not, toNat_mask hk]; simp only [UInt64.size]; omega
  have hb : 2 ^ k - 1 < 2 ^ 64 := toNat_mask hk ▸ UInt64.toNat_lt _
  rw [UInt64.toNat_and, hn, Nat.testBit_and, Nat.testBit_two_pow_sub_succ hb, Nat.testBit_two_pow_sub_one,
    Nat.testBit_mul_two_pow, Nat.testBit_div_two_pow]
  by_cases hj : j < 64
  · by_cases hkj : k ≤ j
    · simp [hj, hkj, Nat.sub_add_cancel hkj]
    · simp [hj, hkj]; omega
  · have := hy (by omega)
    by_cases hkj : k ≤ j
    · simp [this, hkj, Nat.sub_add_cancel hkj]
    · simp [this, hkj]

theorem map_stack (hl : l < 31) (hw : r - l < 31) (x : UInt64) :
    ((new l r le).map x).1.toNat = x.toNat / 2 ^ l % 2 ^ (r - l) := by
  have hpos : l < 64 := by omega
  simp only [map, new, UInt64.toNat_and, UInt64.toNat_shiftRight, toNat_mask hw, toNat_ofNat_pos hpos,
    Nat.and_two_pow_sub_one_eq_mod, Nat.shiftRight_eq_div_pow]

theorem map_addr (hl : l < 31) (hw : r - l < 31) (x : UInt64) :
    ((new l r le).map x).2.toNat = x.toNat / 2 ^ l / 2 ^ (r - l) * 2 ^ l + x.toNat % 2 ^ l := by
  have hlow : x.toNat % 2 ^ l < 2 ^ l := Nat.mod_lt _ (Nat.two_pow_pos l)
  have hpos : r - l < 64 := by omega
  simp only [map, new, UInt64.toNat_or, toNat_and_not_mask hl, UInt64.toNat_shiftRight, toNat_ofNat_pos hpos,
    Nat.shiftRight_eq_div_pow]
  rw [UInt64.toNat_and, toNat_mask hl, Nat.and_two_pow_sub_one_eq_mod, Nat.or_comm, ← Nat.shiftLeft_eq,
    ← Nat.shiftLeft_add_eq_or_of_lt hlow, Nat.shiftLeft_eq, Nat.div_div_eq_div_mul, Nat.div_div_eq_div_mul,
    Nat.mul_comm (2 ^ l)]

theorem map_stack_lt (hl : l < 31) (hw : r - l < 31) (x : UInt64) :
    ((new l r le).map x).1.toNat < 2 ^ (r - l) := by
  rw [map_stack hl hw]
  exact Nat.mod_lt _ (Nat.two_pow_pos _)

theorem add_div_two_pow {c : Nat} (hc : c < 2 ^ l) (q : Nat) : (q * 2 ^ l + c) / 2 ^ l = q := by
  rw [Nat.add_comm, Nat.add_mul_div_right _ _ (Nat.two_pow_pos l), Nat.div_eq_of_lt hc, Nat.zero_add]

theorem add_mod_two_pow {c : Nat} (hc : c < 2 ^ l) (q : Nat) : (q * 2 ^ l + c) % 2 ^ l = c := by
  rw [Nat.mul_add_mod_self_right, Nat.mod_eq_of_lt hc]

/-- The address of which `st` and `a` are the two parts. -/
def unmap (l w st a : Nat) : Nat := (a / 2 ^ l * 2 ^ w + st) * 2 ^ l + a % 2 ^ l

theorem unmap_map (hl : l < 31) (hw : r - l < 31) (x : UInt64) :
    unmap l (r - l) ((new l r le).map x).1.toNat ((new l r le).map x).2.toNat = x.toNat := by
  have hlow : x.toNat % 2 ^ l < 2 ^ l := Nat.mod_lt _ (Nat.two_pow_pos l)
  rw [map_stack hl hw, map_addr hl hw, unmap, add_div_two_pow hlow, add_mod_two_pow hlow, Nat.div_add_mod',
    Nat.div_add_mod']

theorem unmap_strictMono (l w st : Nat) : StrictMono (unmap l w st) := by
  intro a b hab
  have hla : a % 2 ^ l < 2 ^ l := Nat.mod_lt _ (Nat.two_pow_pos l)
  have hdiv : a / 2 ^ l ≤ b / 2 ^ l := Nat.div_le_div_right hab.le
  unfold unmap
  obtain hlt | heq := hdiv.lt_or_eq
  · have hquot : a / 2 ^ l * 2 ^ w + st + 1 ≤ b / 2 ^ l * 2 ^ w + st := by
      have hpos := Nat.two_pow_pos w
      have hmul := Nat.mul_le_mul_right (2 ^ w) (Nat.succ_le_of_lt hlt)
      rw [Nat.succ_mul] at hmul
      omega
    calc (a / 2 ^ l * 2 ^ w + st) * 2 ^ l + a % 2 ^ l
        < (a / 2 ^ l * 2 ^ w + st + 1) * 2 ^ l := by rw [Nat.succ_mul]; omega
      _ ≤ (b / 2 ^ l * 2 ^ w + st) * 2 ^ l := Nat.mul_le_mul_right _ hquot
      _ ≤ (b / 2 ^ l * 2 ^ w + st) * 2 ^ l + b % 2 ^ l := Nat.le_add_right _ _
  · have ha := Nat.div_add_mod' a (2 ^ l)
    have hb := Nat.div_add_mod' b (2 ^ l)
    rw [heq] at ha ⊢
    omega

/-- A pair in range is the pair of an address. -/
theorem unmap_lt {w st a : Nat} (hlw : l + w ≤ 64) (hst : st < 2 ^ w) (ha : a < 2 ^ (64 - w)) :
    unmap l w st a < 2 ^ 64 := by
  have hla : a % 2 ^ l < 2 ^ l := Nat.mod_lt _ (Nat.two_pow_pos l)
  have hq : a / 2 ^ l < 2 ^ (64 - w - l) := by
    rw [Nat.div_lt_iff_lt_mul (Nat.two_pow_pos l), ← pow_add, Nat.sub_add_cancel (by omega)]
    exact ha
  have hquot : a / 2 ^ l * 2 ^ w + st + 1 ≤ 2 ^ (64 - l) := by
    calc a / 2 ^ l * 2 ^ w + st + 1 ≤ (a / 2 ^ l + 1) * 2 ^ w := by rw [Nat.succ_mul]; omega
      _ ≤ 2 ^ (64 - w - l) * 2 ^ w := Nat.mul_le_mul_right _ hq
      _ = 2 ^ (64 - l) := by rw [← pow_add]; congr 1; omega
  calc unmap l w st a < (a / 2 ^ l * 2 ^ w + st + 1) * 2 ^ l := by rw [unmap, Nat.succ_mul]; omega
    _ ≤ 2 ^ (64 - l) * 2 ^ l := Nat.mul_le_mul_right _ hquot
    _ = 2 ^ 64 := by rw [← pow_add, Nat.sub_add_cancel (by omega)]

theorem map_unmap (hl : l < 31) (hw : r - l < 31) {st a : UInt64} (hst : st.toNat < 2 ^ (r - l))
    (ha : a.toNat < 2 ^ (64 - (r - l))) :
    (new l r le).map (UInt64.ofNat (unmap l (r - l) st.toNat a.toNat)) = (st, a) := by
  have hla : a.toNat % 2 ^ l < 2 ^ l := Nat.mod_lt _ (Nat.two_pow_pos l)
  have hx : (UInt64.ofNat (unmap l (r - l) st.toNat a.toNat)).toNat = unmap l (r - l) st.toNat a.toNat :=
    UInt64.toNat_ofNat_of_lt' (unmap_lt (by omega) hst ha)
  refine Prod.ext (UInt64.toNat_inj.mp ?_) (UInt64.toNat_inj.mp ?_)
  · rw [map_stack hl hw, hx, unmap, add_div_two_pow hla, add_mod_two_pow hst]
  · rw [map_addr hl hw, hx, unmap, add_div_two_pow hla, add_mod_two_pow hla, add_div_two_pow hst, Nat.div_add_mod']

theorem map_addr_lt (hl : l < 31) (hw : r - l < 31) (x : UInt64) :
    ((new l r le).map x).2.toNat < 2 ^ (64 - (r - l)) := by
  have hlow : x.toNat % 2 ^ l < 2 ^ l := Nat.mod_lt _ (Nat.two_pow_pos l)
  have hq : x.toNat / 2 ^ l / 2 ^ (r - l) + 1 ≤ 2 ^ (64 - (r - l) - l) := by
    apply Nat.succ_le_of_lt
    rw [Nat.div_div_eq_div_mul, Nat.div_lt_iff_lt_mul (Nat.mul_pos (Nat.two_pow_pos l) (Nat.two_pow_pos _)), ← pow_add,
      ← pow_add]
    have hexp : 64 - (r - l) - l + (l + (r - l)) = 64 := by omega
    rw [hexp]
    exact x.toNat_lt
  rw [map_addr hl hw]
  calc x.toNat / 2 ^ l / 2 ^ (r - l) * 2 ^ l + x.toNat % 2 ^ l
      < (x.toNat / 2 ^ l / 2 ^ (r - l) + 1) * 2 ^ l := by rw [Nat.succ_mul]; omega
    _ ≤ 2 ^ (64 - (r - l) - l) * 2 ^ l := Nat.mul_le_mul_right _ hq
    _ = 2 ^ (64 - (r - l)) := by rw [← pow_add, Nat.sub_add_cancel (by omega)]

theorem map_lt_iff (hl : l < 31) (hw : r - l < 31) {x y : UInt64}
    (h : ((new l r le).map x).1 = ((new l r le).map y).1) :
    ((new l r le).map x).2 < ((new l r le).map y).2 ↔ x < y := by
  rw [UInt64.lt_iff_toNat_lt, UInt64.lt_iff_toNat_lt, ← @unmap_map l r le hl hw x, ← @unmap_map l r le hl hw y,
    h, (unmap_strictMono l (r - l) _).lt_iff_lt]

/-- `map` is a bijection between the addresses and the pairs of a stack and an
address in it, in the order of the addresses on each stack; the mapper of the
memory interface never gives the mark of an empty queue. -/
theorem map_bijective (l r : Nat) (le : l ≤ r) (hl : l < 31) (hw : r - l < 31) :
    Set.BijOn (new l r le).map Set.univ {p | p.1.toNat < 2 ^ (r - l) ∧ p.2.toNat < 2 ^ (64 - (r - l))} ∧
      (∀ x y : UInt64, ((new l r le).map x).1 = ((new l r le).map y).1 →
        (((new l r le).map x).2 < ((new l r le).map y).2 ↔ x < y)) ∧
      ∀ x : UInt64, (mapper.map x).2 ≠ -1 := by
  refine ⟨⟨fun x _ => ?_, fun x _ y _ h => ?_, fun p hp => ?_⟩, fun x y => map_lt_iff hl hw, mapper_addr_ne⟩
  · exact ⟨map_stack_lt hl hw x, map_addr_lt hl hw x⟩
  · have hx := @unmap_map l r le hl hw x
    have hy := @unmap_map l r le hl hw y
    rw [h] at hx
    exact UInt64.toNat_inj.mp (hx.symm.trans hy)
  · exact ⟨_, Set.mem_univ _, map_unmap hl hw hp.1 hp.2⟩

theorem map_bijective_mapper : Set.BijOn mapper.map Set.univ {p | p.1.toNat < 2 ^ 3 ∧ p.2.toNat < 2 ^ 61} :=
  (map_bijective 16 19 (by decide) (by decide) (by decide)).1

end AddressStackMaper

end Anna
