import Mathlib.Data.List.Basic

namespace MuQuinet.Lib.Isolation

variable {State Event Result : Type*}

/-- The answers of a component to a list of events, as long as none of them
makes it fail. -/
def answers (step : State → Event → Option (State × Result)) :
    State → List Event → Option (State × List Result)
  | s, [] => some (s, [])
  | s, e :: events => do
      let (s', r) ← step s e
      let (s'', rs) ← answers step s' events
      return (s'', r :: rs)

/-- Those of the results that were given to the events of one party. -/
def resultsOf (own : Event → Bool) (events : List Event) (results : List Result) :
    List Result :=
  ((events.zip results).filter fun p => own p.1).map Prod.snd

@[simp] theorem resultsOf_nil (own : Event → Bool) (results : List Result) :
    resultsOf own [] results = [] := rfl

theorem resultsOf_cons_of_own {own : Event → Bool} {e : Event} (h : own e = true)
    (events : List Event) (r : Result) (results : List Result) :
    resultsOf own (e :: events) (r :: results) = r :: resultsOf own events results := by
  simp [resultsOf, h]

theorem resultsOf_cons_of_other {own : Event → Bool} {e : Event} (h : own e = false)
    (events : List Event) (r : Result) (results : List Result) :
    resultsOf own (e :: events) (r :: results) = resultsOf own events results := by
  simp [resultsOf, h]

variable {step : State → Event → Option (State × Result)}

theorem answers_cons_eq_some {s s' : State} {e : Event} {events : List Event}
    {results : List Result} :
    answers step s (e :: events) = some (s', results) ↔
      ∃ t r rs, step s e = some (t, r) ∧ answers step t events = some (s', rs) ∧
        results = r :: rs := by
  simp only [answers, Option.bind_eq_bind, Option.pure_def, Option.bind_eq_some_iff,
    Option.some.injEq, Prod.exists, Prod.mk.injEq]
  constructor
  · rintro ⟨t, r, hstep, s'', rs, hrest, rfl, rfl⟩
    exact ⟨t, r, rs, hstep, hrest, rfl⟩
  · rintro ⟨t, r, rs, hstep, hrest, rfl⟩
    exact ⟨t, r, hstep, s', rs, hrest, rfl, rfl⟩

theorem answers_append_eq_some {s s' : State} {events later : List Event}
    {results : List Result} :
    answers step s (events ++ later) = some (s', results) ↔
      ∃ t rs rs', answers step s events = some (t, rs) ∧ answers step t later = some (s', rs') ∧
        results = rs ++ rs' := by
  induction events generalizing s results with
  | nil =>
      simp only [List.nil_append, answers, Option.some.injEq, Prod.mk.injEq]
      constructor
      · intro h
        exact ⟨s, [], results, ⟨rfl, rfl⟩, h, rfl⟩
      · rintro ⟨t, rs, rs', ⟨rfl, rfl⟩, h, rfl⟩
        exact h
  | cons e events ih =>
      simp only [List.cons_append, answers_cons_eq_some, ih]
      constructor
      · rintro ⟨u, r, _, hstep, ⟨t, rs, rs', hfirst, hlater, rfl⟩, rfl⟩
        exact ⟨t, r :: rs, rs', ⟨u, r, rs, hstep, hfirst, rfl⟩, hlater, rfl⟩
      · rintro ⟨t, _, rs', ⟨u, r, rs, hstep, hfirst, rfl⟩, hlater, rfl⟩
        exact ⟨u, r, rs ++ rs', hstep, ⟨t, rs, rs', hfirst, hlater, rfl⟩, rfl⟩

/-- Two states agree about a party when its events get the same answers in both
and the events of the others leave the agreement alone. -/
structure Unwinding (step : State → Event → Option (State × Result)) (own : Event → Bool)
    (Agree : State → State → Prop) : Prop where
  own_step : ∀ {s s' t e r}, own e = true → Agree s t → step s e = some (s', r) →
    ∃ t', step t e = some (t', r) ∧ Agree s' t'
  other_step : ∀ {s s' t e r}, own e = false → Agree s t → step s e = some (s', r) →
    Agree s' t

/-- The unwinding rule: the answers to the events of one party do not depend on
the events of the others. -/
theorem Unwinding.answers_own {own : Event → Bool} {Agree : State → State → Prop}
    (h : Unwinding step own Agree) {s s' t : State} {events : List Event}
    {results : List Result} (hagree : Agree s t)
    (hanswers : answers step s events = some (s', results)) :
    ∃ t', answers step t (events.filter own) = some (t', resultsOf own events results) ∧
      Agree s' t' := by
  induction events generalizing s t results with
  | nil =>
      simp only [answers, Option.some.injEq, Prod.mk.injEq] at hanswers
      obtain ⟨rfl, rfl⟩ := hanswers
      exact ⟨t, rfl, hagree⟩
  | cons e events ih =>
      obtain ⟨u, r, rs, hstep, hrest, rfl⟩ := answers_cons_eq_some.mp hanswers
      cases hown : own e with
      | true =>
          obtain ⟨t₁, hstep', hagree₁⟩ := h.own_step hown hagree hstep
          obtain ⟨t', hlater, hagree'⟩ := ih hagree₁ hrest
          refine ⟨t', ?_, hagree'⟩
          rw [List.filter_cons_of_pos hown, resultsOf_cons_of_own hown]
          exact answers_cons_eq_some.mpr ⟨t₁, r, _, hstep', hlater, rfl⟩
      | false =>
          obtain ⟨t', hlater, hagree'⟩ := ih (h.other_step hown hagree hstep) hrest
          refine ⟨t', ?_, hagree'⟩
          rw [List.filter_cons_of_neg (by simp [hown]), resultsOf_cons_of_other hown]
          exact hlater

end MuQuinet.Lib.Isolation
