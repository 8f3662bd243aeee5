import Anna.Lib.BitFields

/-!
# Fields named by tokens

A string of two-letter tokens gives the order of the fields of a number. Taken
from the back, each token places its field over those before. If every key has
a token of its own, the fields of a string that names each key once are placed
as `place` says.
-/

namespace Anna

/-- `x.substr(i, 2)` for every second `i`; of an odd number of letters the last is a token of its own. -/
def tokens : List Char → List (List Char)
  | [] => []
  | [c] => [[c]]
  | c :: d :: x => [c, d] :: tokens x

section
variable {K ε : Type}

/-- The key that a token is, if it is one. -/
def findKey (token : K → List Char) (keys : List K) (x : List Char) : Option K := keys.find? fun k => token k = x

/-- The loop that takes the tokens from the back: the list is given from there. -/
def placeTokens [DecidableEq K] (find : List Char → Option K) (unknown : List Char → ε) (w : K → Nat) :
    List (List Char) → Nat → (K → Option Nat) → Except ε (K → Option Nat)
  | [], _, fieldPos => .ok fieldPos
  | x :: xs, pos, fieldPos =>
    match find x with
    | none => .error (unknown x)
    | some k => placeTokens find unknown w xs (pos + w k) (Function.update fieldPos k (some pos))

def placeAt (missing : ε) (fieldPos : K → Option Nat) (k : K) : Except ε Nat :=
  match fieldPos k with
  | none => .error missing
  | some pos => .ok pos

variable {token : K → List Char}

theorem tokens_flatMap (htwo : ∀ k, (token k).length = 2) : ∀ ks : List K, tokens (ks.flatMap token) = ks.map token
  | [] => rfl
  | k :: ks => by
    obtain ⟨c, d, hk⟩ := List.length_eq_two.mp (htwo k)
    rw [List.flatMap_cons, hk, List.map_cons, hk, ← tokens_flatMap htwo ks]
    rfl

theorem length_flatMap_token (htwo : ∀ k, (token k).length = 2) (ks : List K) :
    (ks.flatMap token).length = 2 * ks.length := by
  induction ks with
  | nil => rfl
  | cons k ks ih =>
    rw [List.flatMap_cons, List.length_append, htwo, ih, List.length_cons]
    omega

theorem findKey_token (hinj : Function.Injective token) {keys : List K} {k : K} (hk : k ∈ keys) :
    findKey token keys (token k) = some k := by
  induction keys with
  | nil => cases hk
  | cons l keys ih =>
    unfold findKey
    rw [List.find?_cons]
    by_cases hl : token l = token k
    · rw [decide_eq_true hl, hinj hl]
    · rw [decide_eq_false hl]
      refine ih ((List.mem_cons.mp hk).resolve_left ?_)
      rintro rfl
      exact hl rfl

variable [DecidableEq K] {find : List Char → Option K}

theorem placeTokens_eq (unknown : List Char → ε) (w : K → Nat) (hfind : ∀ k, find (token k) = some k) {ks : List K}
    (hks : ks.Nodup) (pos : Nat) (fieldPos : K → Option Nat) : placeTokens find unknown w (ks.map token) pos fieldPos =
      .ok fun k => if k ∈ ks then some (pos + place w ks k) else fieldPos k := by
  induction ks generalizing pos fieldPos with
  | nil => rfl
  | cons l ks ih =>
    obtain ⟨hl, hks⟩ := List.nodup_cons.mp hks
    rw [List.map_cons, placeTokens, hfind]
    dsimp only
    rw [ih hks]
    congr 1
    funext k
    by_cases hkl : l = k
    · subst hkl
      rw [if_neg hl, if_pos List.mem_cons_self, place_self, Function.update_self, Nat.add_zero]
    · rw [place_of_ne hkl, Function.update_of_ne (Ne.symm hkl), ← Nat.add_assoc]
      simp only [List.mem_cons, Ne.symm hkl, false_or]

theorem placeAt_place {w : K → Nat} (missing : ε) {ks : List K} (hall : ∀ k, k ∈ ks) (k : K) :
    placeAt missing (fun k => if k ∈ ks then some (0 + place w ks k) else none) k = .ok (place w ks k) := by
  rw [placeAt, if_pos (hall k), Nat.zero_add]

end

end Anna
