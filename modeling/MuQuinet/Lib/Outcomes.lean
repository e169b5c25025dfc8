import Mathlib.Logic.Basic

namespace MuQuinet.Lib.Outcomes

universe u v

variable {ε : Type u} {α β : Type v}

theorem bind_eq_ok_iff {x : Except ε α} {f : α → Except ε β} {b : β} :
    (x >>= f) = .ok b ↔ ∃ a, x = .ok a ∧ f a = .ok b := by
  constructor
  · intro h
    rcases x with e | a
    · cases h
    · exact ⟨a, rfl, h⟩
  · rintro ⟨a, rfl, hf⟩
    exact hf

theorem map_eq_ok_iff {x : Except ε α} {f : α → β} {b : β} :
    x.map f = .ok b ↔ ∃ a, x = .ok a ∧ f a = b := by
  constructor
  · intro h
    rcases x with e | a
    · cases h
    · exact ⟨a, rfl, Except.ok.inj h⟩
  · rintro ⟨a, rfl, rfl⟩
    rfl

theorem toOption_eq_some_iff {x : Except ε α} {a : α} : x.toOption = some a ↔ x = .ok a := by
  rcases x with e | b
  · simp [Except.toOption]
  · simp [Except.toOption]

end MuQuinet.Lib.Outcomes
