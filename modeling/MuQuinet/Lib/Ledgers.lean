import MuQuinet.Lib.Machines
import Mathlib.Algebra.BigOperators.Group.List.Basic
import Mathlib.Algebra.Order.Monoid.Unbundled.Basic
import Mathlib.Tactic.Abel

namespace MuQuinet.Lib.Ledgers

open MuQuinet.Lib.Machines

variable {α M : Type*} [AddCommMonoid M]

/-- What the elements of a list are worth together. -/
def total (worth : α → M) (xs : List α) : M :=
  (xs.map worth).sum

section Total

variable (worth : α → M)

@[simp] theorem total_nil : total worth [] = 0 := rfl

@[simp] theorem total_cons (x : α) (xs : List α) :
    total worth (x :: xs) = worth x + total worth xs := by
  simp [total]

@[simp] theorem total_append (xs ys : List α) :
    total worth (xs ++ ys) = total worth xs + total worth ys := by
  simp [total]

variable {worth} [PartialOrder M] [AddLeftMono M]

/-- To put an element in the place of another changes the total as it changes the place. -/
theorem total_set_le {xs : List α} {i : ℕ} {a e : α} {gained lost : M} (hi : i < xs.length)
    (h : worth a + lost ≤ worth (xs.getD i e) + gained) :
    total worth (xs.set i a) + lost ≤ total worth xs + gained := by
  induction xs generalizing i with
  | nil => exact absurd hi (Nat.not_lt_zero _)
  | cons x xs ih =>
      cases i with
      | zero =>
          rw [List.getD_cons_zero] at h
          rw [List.set_cons_zero, total_cons, total_cons]
          calc worth a + total worth xs + lost
              = total worth xs + (worth a + lost) := by abel
            _ ≤ total worth xs + (worth x + gained) := add_le_add_right h _
            _ = worth x + total worth xs + gained := by abel
      | succ i =>
          rw [List.getD_cons_succ] at h
          rw [List.set_cons_succ, total_cons, total_cons, add_assoc, add_assoc]
          exact add_le_add_right (ih (Nat.lt_of_succ_lt_succ hi) h) _

end Total

section Runs

variable {State Label : Type*} {N : Machine State Label}

/-- What a run spends, step by step. -/
def spending (N : Machine State Label) (spent : State → Label → M) : State → List Label → M
  | _, [] => 0
  | s, a :: labels =>
      spent s a + (N.next s a).elim 0 fun t => spending N spent t labels

variable [PartialOrder M] [AddLeftMono M]

/-- The rule of accounts: where no step makes more than it takes in, no run does. -/
theorem exec_balanced {I : State → Prop} {guard : Label → Prop} {held : State → M}
    {income : Label → M} {spent : State → Label → M}
    (hkeeps : ∀ s a t, I s → guard a → N.next s a = some t → I t)
    (hstep : ∀ s a t, I s → guard a → N.next s a = some t →
      held t + spent s a ≤ held s + income a)
    {s t : State} {labels : List Label} (hs : I s) (hguard : ∀ a ∈ labels, guard a)
    (h : N.exec s labels = some t) :
    held t + spending N spent s labels ≤ held s + total income labels := by
  induction labels generalizing s with
  | nil =>
      obtain rfl : s = t := by simpa [Machine.exec] using h
      exact le_refl _
  | cons a labels ih =>
      simp only [Machine.exec, Option.bind_eq_some_iff] at h
      obtain ⟨u, hnext, hrest⟩ := h
      have hguarda : guard a := hguard a List.mem_cons_self
      have hu := hkeeps s a u hs hguarda hnext
      have hlater := ih hu (fun b hb => hguard b (List.mem_cons_of_mem a hb)) hrest
      have hnow := hstep s a u hs hguarda hnext
      rw [spending, hnext, Option.elim_some, total_cons]
      calc held t + (spent s a + spending N spent u labels)
          = spent s a + (held t + spending N spent u labels) := by abel
        _ ≤ spent s a + (held u + total income labels) := add_le_add_right hlater _
        _ = total income labels + (held u + spent s a) := by abel
        _ ≤ total income labels + (held s + income a) := add_le_add_right hnow _
        _ = held s + (income a + total income labels) := by abel

end Runs

end MuQuinet.Lib.Ledgers
