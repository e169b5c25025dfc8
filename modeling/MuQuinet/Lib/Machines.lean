import Mathlib.Data.Option.Basic

namespace MuQuinet.Lib.Machines

/-- A machine driven by labels.  `next` is undefined where the machine has no
such step: the label does not apply to the state, or the step crashes. -/
structure Machine (State Label : Type*) where
  initial : State → Prop
  next : State → Label → Option State

namespace Machine

variable {State Label : Type*} (M : Machine State Label)

def exec : State → List Label → Option State
  | s, [] => some s
  | s, a :: labels => (M.next s a).bind fun t => exec t labels

/-- A run that stops where a step does not meet `guard`. -/
def execUnder (guard : State → Label → Prop) [∀ s a, Decidable (guard s a)] :
    State → List Label → Option State
  | s, [] => some s
  | s, a :: labels =>
      if guard s a then (M.next s a).bind fun t => execUnder guard t labels else none

def Leads (s t : State) : Prop :=
  ∃ labels, M.exec s labels = some t

/-- The states reached by runs all of whose steps meet `guard`, a condition on
the label and on the state before the step. -/
inductive ReachableUnder (guard : State → Label → Prop) : State → Prop
  | initial {s : State} : M.initial s → ReachableUnder guard s
  | step {s t : State} {a : Label} :
      ReachableUnder guard s → guard s a → M.next s a = some t →
        ReachableUnder guard t

abbrev Reachable : State → Prop :=
  M.ReachableUnder fun _ _ => True

variable {M} {guard guard' : State → Label → Prop}

/-- The invariant rule: what holds initially and is kept by every step that
meets the guard holds in every state reached. -/
theorem ReachableUnder.invariant {I : State → Prop}
    (hinitial : ∀ s, M.initial s → I s)
    (hstep : ∀ s a t, I s → guard s a → M.next s a = some t → I t)
    {s : State} (h : M.ReachableUnder guard s) : I s := by
  induction h with
  | initial hs => exact hinitial _ hs
  | step _ hguard hnext ih => exact hstep _ _ _ ih hguard hnext

theorem ReachableUnder.mono (hguard : ∀ s a, guard s a → guard' s a)
    {s : State} (h : M.ReachableUnder guard s) : M.ReachableUnder guard' s := by
  induction h with
  | initial hs => exact .initial hs
  | step _ hg hnext ih => exact .step ih (hguard _ _ hg) hnext

theorem ReachableUnder.reachable {s : State}
    (h : M.ReachableUnder guard s) : M.Reachable s :=
  h.mono fun _ _ _ => trivial

theorem reachableUnder_of_exec {s t : State} {labels : List Label}
    (hs : M.ReachableUnder guard s) (hguard : ∀ s, ∀ a ∈ labels, guard s a)
    (h : M.exec s labels = some t) : M.ReachableUnder guard t := by
  induction labels generalizing s with
  | nil =>
      obtain rfl : s = t := by simpa [exec] using h
      exact hs
  | cons a labels ih =>
      simp only [exec, Option.bind_eq_some_iff] at h
      obtain ⟨u, hnext, hrest⟩ := h
      exact ih (.step hs (hguard s a (by simp)) hnext)
        (fun s b hb => hguard s b (by simp [hb])) hrest

theorem reachableUnder_of_execUnder [∀ s a, Decidable (guard s a)] {s t : State}
    {labels : List Label} (hs : M.ReachableUnder guard s)
    (h : M.execUnder guard s labels = some t) : M.ReachableUnder guard t := by
  induction labels generalizing s with
  | nil =>
      obtain rfl : s = t := by simpa [execUnder] using h
      exact hs
  | cons a labels ih =>
      rw [execUnder] at h
      split at h
      · rename_i hguard
        obtain ⟨u, hnext, hrest⟩ := Option.bind_eq_some_iff.mp h
        exact ih (.step hs hguard hnext) hrest
      · cases h

theorem reachable_of_exec {s t : State} {labels : List Label}
    (hs : M.Reachable s) (h : M.exec s labels = some t) : M.Reachable t :=
  reachableUnder_of_exec hs (fun _ _ _ => trivial) h

theorem Leads.refl (s : State) : M.Leads s s :=
  ⟨[], rfl⟩

theorem Leads.head {s t u : State} {a : Label} (hnext : M.next s a = some t)
    (h : M.Leads t u) : M.Leads s u := by
  obtain ⟨labels, hexec⟩ := h
  refine ⟨a :: labels, ?_⟩
  rw [exec, hnext, Option.bind_some, hexec]

theorem Leads.single {s t : State} {a : Label} (hnext : M.next s a = some t) : M.Leads s t :=
  .head hnext (.refl t)

theorem Leads.trans {s t u : State} (h : M.Leads s t) (h' : M.Leads t u) : M.Leads s u := by
  obtain ⟨labels, hexec⟩ := h
  induction labels generalizing s with
  | nil =>
      obtain rfl : s = t := by simpa [exec] using hexec
      exact h'
  | cons a labels ih =>
      simp only [exec, Option.bind_eq_some_iff] at hexec
      obtain ⟨v, hnext, hrest⟩ := hexec
      exact .head hnext (ih hrest)

/-- What every step keeps is kept from then on. -/
theorem Leads.invariant {I : State → Prop} (hstep : ∀ s a t, I s → M.next s a = some t → I t)
    {s t : State} (h : M.Leads s t) (hs : I s) : I t := by
  obtain ⟨labels, hexec⟩ := h
  induction labels generalizing s with
  | nil =>
      obtain rfl : s = t := by simpa [exec] using hexec
      exact hs
  | cons a labels ih =>
      simp only [exec, Option.bind_eq_some_iff] at hexec
      obtain ⟨u, hnext, hrest⟩ := hexec
      exact ih (hstep s a u hs hnext) hrest

theorem ReachableUnder.leads {s t : State} (hs : M.Reachable s) (h : M.Leads s t) :
    M.Reachable t := by
  obtain ⟨labels, hexec⟩ := h
  exact reachable_of_exec hs hexec

end Machine

end MuQuinet.Lib.Machines
