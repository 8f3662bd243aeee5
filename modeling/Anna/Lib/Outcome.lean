/-!
# Computations that may end the program

A computation in `Except` either yields a value or names the place where the
program ends. The rules take a successful run of a sequence apart and put one
together.
-/

namespace Anna

section
variable {ε α β : Type} {x : Except ε α} {f : α → Except ε β} {a a' : α} {b : β}

theorem bind_eq_ok : x >>= f = .ok b ↔ ∃ a, x = .ok a ∧ f a = .ok b := by
  constructor
  · intro h
    cases x with
    | error e => cases h
    | ok a => exact ⟨a, rfl, h⟩
  · rintro ⟨a, rfl, h⟩
    exact h

theorem pure_eq_ok : (pure a : Except ε α) = .ok a' ↔ a = a' := by
  constructor
  · intro h
    exact Except.ok.inj h
  · rintro rfl
    rfl

/-- The part of a sequence that succeeds may be replaced by its value. -/
theorem ok_bind (h : x = .ok a) : x >>= f = f a := by
  rw [h]
  rfl

/-- A computation of which some part is known succeeds. -/
theorem map_eq_ok {g : α → β} : x.map g = .ok b ↔ ∃ a, x = .ok a ∧ g a = b := by
  constructor
  · intro h
    cases x with
    | error e => cases h
    | ok a => exact ⟨a, rfl, Except.ok.inj h⟩
  · rintro ⟨a, rfl, rfl⟩
    rfl

end

end Anna
