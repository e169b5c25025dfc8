import MuQuinet.Lib.Machines
import Mathlib.Data.List.Basic

namespace MuQuinet.Lib.Simulations

open MuQuinet.Lib.Machines

variable {State State' Label Label' : Type*} {N : Machine State Label} {M : Machine State' Label'}

theorem exec_append (s : State') (labels labels' : List Label') :
    M.exec s (labels ++ labels') = (M.exec s labels).bind fun t => M.exec t labels' := by
  induction labels generalizing s with
  | nil => rfl
  | cons a labels ih =>
      rw [List.cons_append, Machine.exec, Machine.exec, Option.bind_assoc]
      congr 1
      funext t
      exact ih t

/-- The steps of another machine that a run stands for. -/
def expansion (N : Machine State Label) (expand : State → Label → List Label') :
    State → List Label → List Label'
  | _, [] => []
  | s, a :: labels => expand s a ++ (N.next s a).elim [] fun t => expansion N expand t labels

variable {expand : State → Label → List Label'}

/-- The rule of expansion: where each step stands for steps of another machine, each run
stands for a run of that machine. -/
theorem exec_expansion {R : State → State' → Prop}
    (hstep : ∀ s a t s', R s s' → N.next s a = some t →
      ∃ t', M.exec s' (expand s a) = some t' ∧ R t t')
    {s t : State} {s' : State'} {labels : List Label} (hs : R s s')
    (h : N.exec s labels = some t) :
    ∃ t', M.exec s' (expansion N expand s labels) = some t' ∧ R t t' := by
  induction labels generalizing s s' with
  | nil =>
      obtain rfl : s = t := by simpa [Machine.exec] using h
      exact ⟨s', rfl, hs⟩
  | cons a labels ih =>
      simp only [Machine.exec, Option.bind_eq_some_iff] at h
      obtain ⟨u, hnext, hrest⟩ := h
      obtain ⟨u', hfirst, hu⟩ := hstep s a u s' hs hnext
      obtain ⟨t', hothers, ht⟩ := ih hu hrest
      refine ⟨t', ?_, ht⟩
      rw [expansion, hnext, Option.elim_some, exec_append, hfirst, Option.bind_some, hothers]

/-- What a run puts in comes out in that order, or is still held. -/
theorem expansion_in_order {β : Type*} {output : Label' → List β} {held : State → List β}
    {input : Label → List β}
    (hstep : ∀ s a t, N.next s a = some t →
      (expand s a).flatMap output ++ held t = held s ++ input a)
    {s t : State} {labels : List Label} (h : N.exec s labels = some t) :
    (expansion N expand s labels).flatMap output ++ held t =
      held s ++ labels.flatMap input := by
  induction labels generalizing s with
  | nil =>
      obtain rfl : s = t := by simpa [Machine.exec] using h
      rw [expansion, List.flatMap_nil, List.flatMap_nil, List.append_nil, List.nil_append]
  | cons a labels ih =>
      simp only [Machine.exec, Option.bind_eq_some_iff] at h
      obtain ⟨u, hnext, hrest⟩ := h
      calc (expansion N expand s (a :: labels)).flatMap output ++ held t
          = (expand s a).flatMap output ++
              ((expansion N expand u labels).flatMap output ++ held t) := by
            rw [expansion, hnext, Option.elim_some, List.flatMap_append, List.append_assoc]
        _ = (expand s a).flatMap output ++ held u ++ labels.flatMap input := by
            rw [ih hrest, List.append_assoc]
        _ = held s ++ (a :: labels).flatMap input := by
            rw [hstep s a u hnext, List.flatMap_cons, List.append_assoc]

end MuQuinet.Lib.Simulations
