import Mathlib.Data.Option.Basic

namespace MuQuinet.Lib.Loops

/-- With enough fuel a computation returns the result, and with more fuel no other. -/
def Returns {Result : Type*} (compute : Nat → Option Result) (result : Result) : Prop :=
  ∃ enough, ∀ fuel, enough ≤ fuel → compute fuel = some result

section Returns

variable {Result Result' : Type*} {compute : Nat → Option Result} {result : Result}

theorem returns_const (result : Result) : Returns (fun _ => some result) result :=
  ⟨0, fun _ _ => rfl⟩

theorem Returns.unique {result' : Result} (h : Returns compute result)
    (h' : Returns compute result') : result = result' := by
  obtain ⟨enough, hfuel⟩ := h
  obtain ⟨enough', hfuel'⟩ := h'
  have hresult := hfuel (max enough enough') (Nat.le_max_left _ _)
  have hresult' := hfuel' (max enough enough') (Nat.le_max_right _ _)
  exact Option.some.inj (hresult.symm.trans hresult')

theorem Returns.map (h : Returns compute result) (f : Result → Result') :
    Returns (fun fuel => (compute fuel).map f) (f result) := by
  obtain ⟨enough, hfuel⟩ := h
  refine ⟨enough, ?_⟩
  intro fuel hle
  dsimp only
  rw [hfuel fuel hle, Option.map_some]

theorem Returns.bind {f : Nat → Result → Option Result'} {result' : Result'}
    (h : Returns compute result) (hf : Returns (fun fuel => f fuel result) result') :
    Returns (fun fuel => (compute fuel).bind (f fuel)) result' := by
  obtain ⟨enough, hfuel⟩ := h
  obtain ⟨enough', hfuel'⟩ := hf
  refine ⟨max enough enough', ?_⟩
  intro fuel hle
  dsimp only
  rw [hfuel fuel (Nat.le_trans (Nat.le_max_left _ _) hle), Option.bind_some]
  exact hfuel' fuel (Nat.le_trans (Nat.le_max_right _ _) hle)

end Returns

section While

variable {State : Type*} (guard : State → Bool) (body : State → State)

/-- `while (guard) body`, given up when `fuel` tests of the guard did not end it. -/
def run : Nat → State → Option State
  | 0, _ => none
  | fuel + 1, s => if guard s then run fuel (body s) else some s

variable {guard body}

theorem returns_run_of_false {s : State} (hguard : guard s = false) :
    Returns (fun fuel => run guard body fuel s) s := by
  refine ⟨1, ?_⟩
  intro fuel hle
  obtain ⟨more, rfl⟩ := Nat.exists_eq_add_of_le' hle
  simp only [run, hguard, Bool.false_eq_true, if_false]

theorem returns_run_of_true {s t : State} (hguard : guard s = true)
    (h : Returns (fun fuel => run guard body fuel (body s)) t) :
    Returns (fun fuel => run guard body fuel s) t := by
  obtain ⟨enough, hfuel⟩ := h
  refine ⟨enough + 1, ?_⟩
  intro fuel hle
  obtain ⟨more, rfl⟩ := Nat.exists_eq_add_of_le' hle
  have hrest := hfuel (more + enough) (Nat.le_add_left _ _)
  simp only [run, hguard, if_true]
  exact hrest

/-- The rule of total correctness: a loop whose body keeps an invariant and makes a variant
smaller ends, in a state where the invariant holds and the guard does not. -/
theorem exists_returns_run {inv : State → Prop} (variant : State → Nat)
    (hbody : ∀ s, inv s → guard s = true → inv (body s) ∧ variant (body s) < variant s)
    {s : State} (hs : inv s) :
    ∃ t, Returns (fun fuel => run guard body fuel s) t ∧ inv t ∧ guard t = false := by
  induction hvariant : variant s using Nat.strongRecOn generalizing s with
  | ind n ih =>
      cases hguard : guard s with
      | false => exact ⟨s, returns_run_of_false hguard, hs, hguard⟩
      | true =>
          obtain ⟨hkept, hless⟩ := hbody s hs hguard
          obtain ⟨t, hreturns, ht⟩ := ih (variant (body s)) (hvariant ▸ hless) hkept rfl
          exact ⟨t, returns_run_of_true hguard hreturns, ht⟩

end While

end MuQuinet.Lib.Loops
