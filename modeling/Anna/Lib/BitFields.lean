import Mathlib.Data.List.Nodup
import Mathlib.Algebra.BigOperators.Group.List.Basic
import Mathlib.Algebra.GroupWithZero.Nat
import Mathlib.Data.Set.Function

/-!
# Fields of a number

A list of keys, each with a width in bits, cuts a number into fields, the
first key at the low end. The fields tile the bits; taking them out of a
number and packing them again are inverse to each other, so packing all but
one of them in another order loses nothing.
-/

namespace Anna

section
variable {K : Type} (w : K → Nat)

/-- The number whose field at `k` is `v k`. -/
def pack (v : K → Nat) : List K → Nat
  | [] => 0
  | k :: ks => v k + 2 ^ w k * pack v ks

def packWidth (ks : List K) : Nat := (ks.map w).sum

def fieldAt (x pos width : Nat) : Nat := x / 2 ^ pos % 2 ^ width

/-- The position of the field `k`, counted from the low end. -/
def place [DecidableEq K] : List K → K → Nat
  | [], _ => 0
  | l :: ks, k => if l = k then 0 else w l + place ks k

def fieldsOf [DecidableEq K] (ks : List K) (x : Nat) (k : K) : Nat := fieldAt x (place w ks k) (w k)

/-- The field at `d`, and the others packed in the order of `ls`. -/
def repack [DecidableEq K] (ks ls : List K) (d : K) (x : Nat) : Nat × Nat :=
  (fieldsOf w ks x d, pack w (fieldsOf w ks x) ls)

variable {w}

theorem packWidth_nil : packWidth w [] = 0 := rfl

theorem packWidth_cons (k : K) (ks : List K) : packWidth w (k :: ks) = w k + packWidth w ks := by
  rw [packWidth, List.map_cons, List.sum_cons, packWidth]

theorem packWidth_perm {ks ls : List K} (h : ks.Perm ls) : packWidth w ks = packWidth w ls := (h.map w).sum_eq

theorem pack_congr {v v' : K → Nat} {ks : List K} (h : ∀ k ∈ ks, v k = v' k) : pack w v ks = pack w v' ks := by
  induction ks with
  | nil => rfl
  | cons k ks ih => rw [pack, pack, h k List.mem_cons_self, ih fun l hl => h l (List.mem_cons_of_mem _ hl)]

theorem pack_lt {v : K → Nat} {ks : List K} (h : ∀ k ∈ ks, v k < 2 ^ w k) : pack w v ks < 2 ^ packWidth w ks := by
  induction ks with
  | nil => exact Nat.one_pos
  | cons k ks ih =>
    have hk := h k List.mem_cons_self
    have hrest := ih fun l hl => h l (List.mem_cons_of_mem _ hl)
    rw [pack, packWidth_cons, Nat.pow_add]
    calc v k + 2 ^ w k * pack w v ks < 2 ^ w k * (pack w v ks + 1) := by rw [Nat.mul_succ]; omega
      _ ≤ 2 ^ w k * 2 ^ packWidth w ks := Nat.mul_le_mul_left _ hrest

theorem fieldAt_add (x p pos width : Nat) : fieldAt x (p + pos) width = fieldAt (x / 2 ^ p) pos width := by
  rw [fieldAt, fieldAt, Nat.pow_add, Nat.div_div_eq_div_mul]

variable [DecidableEq K]

theorem place_self (k : K) (ks : List K) : place w (k :: ks) k = 0 := if_pos rfl

theorem place_of_ne {k l : K} (h : l ≠ k) (ks : List K) : place w (l :: ks) k = w l + place w ks k := if_neg h

theorem fieldsOf_self (k : K) (ks : List K) (x : Nat) : fieldsOf w (k :: ks) x k = x % 2 ^ w k := by
  rw [fieldsOf, place_self, fieldAt, Nat.pow_zero, Nat.div_one]

theorem fieldsOf_of_ne {k l : K} (h : l ≠ k) (ks : List K) (x : Nat) :
    fieldsOf w (l :: ks) x k = fieldsOf w ks (x / 2 ^ w l) k := by
  rw [fieldsOf, place_of_ne h, fieldAt_add, fieldsOf]

theorem fieldsOf_lt (ks : List K) (x : Nat) (k : K) : fieldsOf w ks x k < 2 ^ w k := Nat.mod_lt _ (Nat.two_pow_pos _)

theorem fieldsOf_pack {v : K → Nat} {ks : List K} (h : ∀ k ∈ ks, v k < 2 ^ w k) {k : K} (hk : k ∈ ks) :
    fieldsOf w ks (pack w v ks) k = v k := by
  induction ks with
  | nil => cases hk
  | cons l ks ih =>
    have hl := h l List.mem_cons_self
    by_cases hlk : l = k
    · subst hlk
      rw [fieldsOf_self, pack, Nat.add_mul_mod_self_left, Nat.mod_eq_of_lt hl]
    · have hmem : k ∈ ks := (List.mem_cons.mp hk).resolve_left (Ne.symm hlk)
      rw [fieldsOf_of_ne hlk, pack, Nat.add_mul_div_left _ _ (Nat.two_pow_pos _), Nat.div_eq_of_lt hl, Nat.zero_add]
      exact ih (fun m hm => h m (List.mem_cons_of_mem _ hm)) hmem

theorem pack_fieldsOf {ks : List K} (hks : ks.Nodup) {x : Nat} (hx : x < 2 ^ packWidth w ks) :
    pack w (fieldsOf w ks x) ks = x := by
  induction ks generalizing x with
  | nil => exact (Nat.lt_one_iff.mp hx).symm
  | cons l ks ih =>
    obtain ⟨hl, hks⟩ := List.nodup_cons.mp hks
    have hrest : x / 2 ^ w l < 2 ^ packWidth w ks := by
      rw [Nat.div_lt_iff_lt_mul (Nat.two_pow_pos _), ← Nat.pow_add, Nat.add_comm, ← packWidth_cons]
      exact hx
    have htail : pack w (fieldsOf w (l :: ks) x) ks = x / 2 ^ w l := by
      rw [← ih hks hrest]
      apply pack_congr
      intro k hk
      have hlk : l ≠ k := fun heq => hl (heq ▸ hk)
      exact fieldsOf_of_ne hlk ks x
    rw [pack, htail, fieldsOf_self]
    exact Nat.mod_add_div x (2 ^ w l)

/-! ## Packing in another order -/

theorem repack_injOn {ks ls : List K} {d : K} (hks : ks.Nodup) (hperm : ks.Perm (d :: ls)) {x y : Nat}
    (hx : x < 2 ^ packWidth w ks) (hy : y < 2 ^ packWidth w ks) (h : repack w ks ls d x = repack w ks ls d y) :
    x = y := by
  obtain ⟨hd, hpack⟩ := Prod.mk.inj h
  have hsame : ∀ k ∈ ks, fieldsOf w ks x k = fieldsOf w ks y k := by
    intro k hk
    rcases List.mem_cons.mp (hperm.mem_iff.mp hk) with rfl | hk
    · exact hd
    · rw [← fieldsOf_pack (fun l _ => fieldsOf_lt ks x l) hk, ← fieldsOf_pack (fun l _ => fieldsOf_lt ks y l) hk, hpack]
  rw [← pack_fieldsOf hks hx, ← pack_fieldsOf hks hy, pack_congr hsame]

theorem repack_surjOn {ks ls : List K} {d : K} (hks : ks.Nodup) (hperm : ks.Perm (d :: ls)) {e a : Nat}
    (he : e < 2 ^ w d) (ha : a < 2 ^ packWidth w ls) :
    ∃ x < 2 ^ packWidth w ks, repack w ks ls d x = (e, a) := by
  obtain ⟨hd, hls⟩ := List.nodup_cons.mp (hperm.nodup_iff.mp hks)
  let v : K → Nat := fun k => if k = d then e else fieldsOf w ls a k
  have hv : ∀ k ∈ ks, v k < 2 ^ w k := by
    intro k _
    by_cases hkd : k = d
    · subst hkd
      rw [show v k = e from if_pos rfl]
      exact he
    · rw [show v k = fieldsOf w ls a k from if_neg hkd]
      exact fieldsOf_lt ls a k
  have hread : ∀ k ∈ d :: ls, fieldsOf w ks (pack w v ks) k = v k := by
    intro k hk
    exact fieldsOf_pack hv (hperm.mem_iff.mpr hk)
  have hrest : pack w (fieldsOf w ks (pack w v ks)) ls = a := by
    rw [← pack_fieldsOf hls ha]
    apply pack_congr
    intro k hk
    have hkd : k ≠ d := fun heq => hd (heq ▸ hk)
    rw [hread k (List.mem_cons_of_mem _ hk)]
    exact if_neg hkd
  refine ⟨pack w v ks, pack_lt hv, ?_⟩
  rw [repack, hread d List.mem_cons_self, hrest]
  exact congrArg (·, a) (if_pos rfl)

/-- Taking one field out and packing the others in any order is a bijection. -/
theorem repack_bijOn {ks ls : List K} {d : K} (hks : ks.Nodup) (hperm : ks.Perm (d :: ls)) :
    Set.BijOn (repack w ks ls d) {x | x < 2 ^ packWidth w ks} {p | p.1 < 2 ^ w d ∧ p.2 < 2 ^ packWidth w ls} := by
  refine ⟨?_, ?_, ?_⟩
  · intro x _
    exact ⟨fieldsOf_lt ks x d, pack_lt fun k _ => fieldsOf_lt ks x k⟩
  · intro x hx y hy h
    exact repack_injOn hks hperm hx hy h
  · intro p hp
    exact repack_surjOn hks hperm hp.1 hp.2

/-! ## Tiling -/

theorem place_add_le {ks : List K} {k : K} (hk : k ∈ ks) : place w ks k + w k ≤ packWidth w ks := by
  induction ks with
  | nil => cases hk
  | cons l ks ih =>
    rw [packWidth_cons]
    by_cases hlk : l = k
    · subst hlk
      rw [place_self]
      omega
    · have := ih ((List.mem_cons.mp hk).resolve_left (Ne.symm hlk))
      rw [place_of_ne hlk]
      omega

/-- Every bit is in a field. -/
theorem exists_place {ks : List K} (hks : ks.Nodup) {i : Nat} (hi : i < packWidth w ks) :
    ∃ k ∈ ks, place w ks k ≤ i ∧ i < place w ks k + w k := by
  induction ks generalizing i with
  | nil => cases hi
  | cons l ks ih =>
    obtain ⟨hl, hks⟩ := List.nodup_cons.mp hks
    rw [packWidth_cons] at hi
    by_cases hlow : i < w l
    · refine ⟨l, List.mem_cons_self, ?_⟩
      rw [place_self]
      omega
    · obtain ⟨k, hk, hle, hlt⟩ := ih hks (show i - w l < packWidth w ks by omega)
      have hlk : l ≠ k := fun heq => hl (heq ▸ hk)
      refine ⟨k, List.mem_cons_of_mem _ hk, ?_⟩
      rw [place_of_ne hlk]
      omega

/-- No bit is in two fields. -/
theorem place_unique {ks : List K} {k l : K} (hk : k ∈ ks) (hl : l ∈ ks) {i : Nat}
    (hki : place w ks k ≤ i ∧ i < place w ks k + w k) (hli : place w ks l ≤ i ∧ i < place w ks l + w l) : k = l := by
  induction ks generalizing i with
  | nil => cases hk
  | cons m ks ih =>
    by_cases hmk : m = k
    · by_cases hml : m = l
      · exact hmk.symm.trans hml
      · subst hmk
        rw [place_self] at hki
        rw [place_of_ne hml] at hli
        omega
    · by_cases hml : m = l
      · subst hml
        rw [place_self] at hli
        rw [place_of_ne hmk] at hki
        omega
      · rw [place_of_ne hmk] at hki
        rw [place_of_ne hml] at hli
        have hk' := (List.mem_cons.mp hk).resolve_left (Ne.symm hmk)
        have hl' := (List.mem_cons.mp hl).resolve_left (Ne.symm hml)
        exact ih hk' hl' (i := i - w m) (by omega) (by omega)

end

end Anna
