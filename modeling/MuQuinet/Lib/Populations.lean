import MuQuinet.Lib.Machines
import Mathlib.Data.List.GetD

namespace MuQuinet.Lib.Populations

open MuQuinet.Lib.Machines

/-- Objects that live in a list, each at a place of its own.  While an object lives it is in
a state of `machine`; `gone` is what it leaves in its place. -/
structure Population (Object Element Label : Type*) where
  machine : Machine Object Label
  element : Object → Element
  gone : Element
  element_injective : Function.Injective element
  element_ne_gone : ∀ object, element object ≠ gone

namespace Population

variable {Object Element Label : Type*} (P : Population Object Element Label)

/-- What a step does to place `i` of a list that had `n` places before it. -/
inductive Moves (n i : ℕ) : Element → Element → Prop
  | kept (e : Element) : Moves n i e e
  | closed (e : Element) : Moves n i e P.gone
  | opened {object : Object} : n ≤ i → P.machine.initial object →
      Moves n i P.gone (P.element object)
  | moved {object object' : Object} : P.machine.Leads object object' →
      Moves n i (P.element object) (P.element object')

structure Step (xs xs' : List Element) : Prop where
  moves : ∀ i, P.Moves xs.length i (xs.getD i P.gone) (xs'.getD i P.gone)
  length_le : xs.length ≤ xs'.length

def Lives (e : Element) : Prop :=
  e = P.gone ∨ ∃ object, e = P.element object ∧ P.machine.Reachable object

/-- Every object of the list is in a state that it can reach by itself. -/
def AllLive (xs : List Element) : Prop :=
  ∀ i, P.Lives (xs.getD i P.gone)

/-- What becomes of an object: its place is never given to another. -/
inductive Later : Element → Element → Prop
  | closed (e : Element) : Later e P.gone
  | moved {object object' : Object} : P.machine.Leads object object' →
      Later (P.element object) (P.element object')

structure Run (xs xs' : List Element) : Prop where
  later : ∀ i < xs.length, P.Later (xs.getD i P.gone) (xs'.getD i P.gone)
  length_le : xs.length ≤ xs'.length

variable {P} {xs xs' xs'' : List Element}

theorem getD_set_cases (xs : List Element) (i j : ℕ) (e gone : Element) :
    (xs.set i e).getD j gone = xs.getD j gone ∨ i = j ∧ (xs.set i e).getD j gone = e := by
  rcases eq_or_ne i j with rfl | hne
  · rcases Nat.lt_or_ge i xs.length with hlt | hge
    · right
      simp [hlt]
    · left
      rw [List.set_eq_of_length_le hge]
  · left
    simp [hne]

theorem getD_append_cases (xs : List Element) (e gone : Element) (i : ℕ) :
    (xs ++ [e]).getD i gone = xs.getD i gone ∨
      i = xs.length ∧ xs.getD i gone = gone ∧ (xs ++ [e]).getD i gone = e := by
  rcases Nat.lt_trichotomy i xs.length with hlt | rfl | hgt
  · exact .inl (List.getD_append _ _ _ _ hlt)
  · right
    refine ⟨rfl, List.getD_eq_default _ _ (Nat.le_refl _), ?_⟩
    simp
  · left
    have hge : (xs ++ [e]).length ≤ i := by
      rw [List.length_append, List.length_singleton]
      exact hgt
    rw [List.getD_eq_default _ _ hge, List.getD_eq_default _ _ (Nat.le_of_lt hgt)]

theorem Step.refl (xs : List Element) : P.Step xs xs :=
  ⟨fun _ => .kept _, Nat.le_refl _⟩

theorem Step.set {i : ℕ} {e : Element} (h : P.Moves xs.length i (xs.getD i P.gone) e) :
    P.Step xs (xs.set i e) := by
  constructor
  · intro j
    rcases getD_set_cases xs i j e P.gone with heq | ⟨rfl, heq⟩
    · rw [heq]
      exact .kept _
    · rw [heq]
      exact h
  · exact Nat.le_of_eq List.length_set.symm

theorem Step.close (h : P.Step xs xs') (i : ℕ) : P.Step xs (xs'.set i P.gone) := by
  constructor
  · intro j
    rcases getD_set_cases xs' i j P.gone P.gone with heq | ⟨-, heq⟩
    · rw [heq]
      exact h.moves j
    · rw [heq]
      exact .closed _
  · rw [List.length_set]
    exact h.length_le

theorem Step.append {object : Object} (h : P.machine.initial object) :
    P.Step xs (xs ++ [P.element object]) := by
  constructor
  · intro i
    rcases getD_append_cases xs (P.element object) P.gone i with heq | ⟨rfl, hgone, heq⟩
    · rw [heq]
      exact .kept _
    · rw [hgone, heq]
      exact .opened (Nat.le_refl _) h
  · rw [List.length_append]
    exact Nat.le_add_right _ _

/-- A place that holds an object holds no other. -/
theorem Lives.object {object : Object} (h : P.Lives (P.element object)) :
    P.machine.Reachable object := by
  rcases h with hgone | ⟨object', heq, hreached⟩
  · exact absurd hgone (P.element_ne_gone object)
  · rw [P.element_injective heq]
    exact hreached

theorem Moves.lives {n i : ℕ} {e e' : Element} (h : P.Moves n i e e') (hlives : P.Lives e) :
    P.Lives e' := by
  cases h with
  | kept => exact hlives
  | closed => exact .inl rfl
  | opened _ hinitial => exact .inr ⟨_, rfl, .initial hinitial⟩
  | moved hleads => exact .inr ⟨_, rfl, hlives.object.leads hleads⟩

theorem allLive_nil : P.AllLive [] :=
  fun _ => .inl rfl

theorem Step.allLive (h : P.Step xs xs') (hlive : P.AllLive xs) : P.AllLive xs' :=
  fun i => (h.moves i).lives (hlive i)

theorem Later.trans_leads {e : Element} {object object' : Object}
    (h : P.Later e (P.element object)) (hleads : P.machine.Leads object object') :
    P.Later e (P.element object') := by
  generalize heq : P.element object = e' at h
  cases h with
  | closed => exact absurd heq (P.element_ne_gone object)
  | moved hbefore =>
      rw [P.element_injective heq] at hleads
      exact .moved (hbefore.trans hleads)

theorem Moves.later {n i : ℕ} {e e' e'' : Element} (h : P.Moves n i e' e'') (hi : i < n)
    (hbefore : P.Later e e') : P.Later e e'' := by
  cases h with
  | kept => exact hbefore
  | closed => exact .closed _
  | opened hge => exact absurd hi (Nat.not_lt.mpr hge)
  | moved hleads => exact hbefore.trans_leads hleads

theorem Run.refl (h : P.AllLive xs) : P.Run xs xs := by
  refine ⟨?_, Nat.le_refl _⟩
  intro i _
  rcases h i with hgone | ⟨object, heq, -⟩
  · rw [hgone]
    exact .closed _
  · rw [heq]
    exact .moved (.refl object)

theorem Run.step (h : P.Run xs xs') (hstep : P.Step xs' xs'') : P.Run xs xs'' := by
  refine ⟨?_, Nat.le_trans h.length_le hstep.length_le⟩
  intro i hi
  exact (hstep.moves i).later (Nat.lt_of_lt_of_le hi h.length_le) (h.later i hi)

/-- An object that has lived on is gone for good, or in a state that it leads to. -/
theorem Later.cases {e e' : Element} (h : P.Later e e') :
    e' = P.gone ∨ ∃ object object', e = P.element object ∧ e' = P.element object' ∧
      P.machine.Leads object object' := by
  cases h with
  | closed => exact .inl rfl
  | moved hleads => exact .inr ⟨_, _, rfl, rfl, hleads⟩

end Population

end MuQuinet.Lib.Populations
