import Mathlib.Data.List.Nodup
import Mathlib.Logic.Function.Basic

namespace MuQuinet.Lib.Registries

/-- At most one value for each key. -/
abbrev Registry (Key Value : Type*) :=
  Key → Option Value

section Operations

variable {Key Value : Type*} [DecidableEq Key]

/-- A key that is taken is not given a second time. -/
def add (r : Registry Key Value) (k : Key) (v : Value) : Registry Key Value :=
  if (r k).isSome then r else Function.update r k (some v)

/-- A key that is not there is not made. -/
def modify (r : Registry Key Value) (k : Key) (v : Value) : Registry Key Value :=
  if (r k).isSome then Function.update r k (some v) else r

def delete (r : Registry Key Value) (k : Key) : Registry Key Value :=
  Function.update r k none

theorem add_of_none {r : Registry Key Value} {k : Key} (h : r k = none) (v : Value) :
    add r k v = Function.update r k (some v) := by
  rw [add, h]
  exact if_neg Bool.false_ne_true

theorem modify_of_some {r : Registry Key Value} {k : Key} {v : Value} (h : r k = some v)
    (v' : Value) : modify r k v' = Function.update r k (some v') := by
  rw [modify, h]
  exact if_pos rfl

end Operations

section Mirrors

variable {Owner Key Value : Type*} {owners : List Owner} {key : Owner → Key}
  {value : Owner → Value} {r : Registry Key Value} {o : Owner}

/-- The registry holds the value of each owner under its key, and nothing else. -/
structure Mirrors (owners : List Owner) (key : Owner → Key) (value : Owner → Value)
    (r : Registry Key Value) : Prop where
  held : ∀ o ∈ owners, r (key o) = some (value o)
  only : ∀ k v, r k = some v → ∃ o ∈ owners, key o = k

theorem mirrors_nil (key : Owner → Key) (value : Owner → Value) :
    Mirrors [] key value fun _ => none :=
  ⟨fun _ hmem => absurd hmem List.not_mem_nil, fun _ _ h => absurd h.symm (Option.some_ne_none _)⟩

theorem Mirrors.isSome_iff (h : Mirrors owners key value r) (k : Key) :
    (r k).isSome ↔ ∃ o ∈ owners, key o = k := by
  constructor
  · intro hsome
    obtain ⟨v, hv⟩ := Option.isSome_iff_exists.mp hsome
    exact h.only k v hv
  · rintro ⟨o, hmem, rfl⟩
    rw [h.held o hmem, Option.isSome_some]

theorem Mirrors.eq_none (h : Mirrors owners key value r) (hkey : Function.Injective key)
    (ho : o ∉ owners) : r (key o) = none := by
  rw [← Option.not_isSome_iff_eq_none, h.isSome_iff]
  rintro ⟨o', hmem, heq⟩
  exact ho (hkey heq ▸ hmem)

/-- The value of an owner outside the list is of no account. -/
theorem Mirrors.update_value [DecidableEq Owner] (h : Mirrors owners key value r)
    (ho : o ∉ owners) (v : Value) :
    Mirrors owners key (Function.update value o v) r := by
  refine ⟨?_, h.only⟩
  intro o' hmem
  have hne : o' ≠ o := by
    rintro rfl
    exact ho hmem
  rw [Function.update_of_ne hne, h.held o' hmem]

variable [DecidableEq Key]

theorem Mirrors.add (h : Mirrors owners key value r) (hkey : Function.Injective key)
    (ho : o ∉ owners) :
    Mirrors (owners ++ [o]) key value (Registries.add r (key o) (value o)) := by
  rw [add_of_none (h.eq_none hkey ho)]
  constructor
  · intro o' hmem
    rcases List.mem_append.mp hmem with hmem | hmem
    · have hne : key o' ≠ key o := fun heq => ho (hkey heq ▸ hmem)
      rw [Function.update_of_ne hne, h.held o' hmem]
    · rw [List.mem_singleton.mp hmem, Function.update_self]
  · intro k v hv
    rcases eq_or_ne k (key o) with rfl | hne
    · exact ⟨o, by simp, rfl⟩
    · rw [Function.update_of_ne hne] at hv
      obtain ⟨o', hmem, heq⟩ := h.only k v hv
      exact ⟨o', List.mem_append_left _ hmem, heq⟩

variable [DecidableEq Owner]

theorem Mirrors.delete (h : Mirrors owners key value r) (hkey : Function.Injective key)
    (hnodup : owners.Nodup) :
    Mirrors (owners.erase o) key value (Registries.delete r (key o)) := by
  unfold Registries.delete
  constructor
  · intro o' hmem
    obtain ⟨hne, hmem⟩ := hnodup.mem_erase_iff.mp hmem
    rw [Function.update_of_ne (hkey.ne hne), h.held o' hmem]
  · intro k v hv
    rcases eq_or_ne k (key o) with rfl | hne
    · rw [Function.update_self] at hv
      cases hv
    · rw [Function.update_of_ne hne] at hv
      obtain ⟨o', hmem, rfl⟩ := h.only k v hv
      exact ⟨o', hnodup.mem_erase_iff.mpr ⟨fun heq => hne (heq ▸ rfl), hmem⟩, rfl⟩

theorem Mirrors.modify (h : Mirrors owners key value r) (hkey : Function.Injective key)
    (ho : o ∈ owners) (v : Value) :
    Mirrors owners key (Function.update value o v) (Registries.modify r (key o) v) := by
  rw [modify_of_some (h.held o ho)]
  constructor
  · intro o' hmem
    rcases eq_or_ne o' o with rfl | hne
    · rw [Function.update_self, Function.update_self]
    · rw [Function.update_of_ne (hkey.ne hne), Function.update_of_ne hne, h.held o' hmem]
  · intro k v' hv
    rcases eq_or_ne k (key o) with rfl | hne
    · exact ⟨o, ho, rfl⟩
    · rw [Function.update_of_ne hne] at hv
      exact h.only k v' hv

end Mirrors

end MuQuinet.Lib.Registries
