import Mathlib.Data.List.Forall2
import MuQuinet.Lib.Machines

namespace MuQuinet.Lib.Lockstep

open MuQuinet.Lib.Machines

section Outcomes

variable {ε α β γ δ : Type} {T : α → β → Prop} {U : γ → δ → Prop}

/-- Two computations fail alike, or their results are related. -/
inductive Agree (T : α → β → Prop) : Except ε α → Except ε β → Prop
  | ok {a : α} {b : β} : T a b → Agree T (.ok a) (.ok b)
  | error (e : ε) : Agree T (.error e) (.error e)

theorem Agree.bind {x : Except ε α} {y : Except ε β} {f : α → Except ε γ} {g : β → Except ε δ}
    (h : Agree T x y) (hfg : ∀ a b, T a b → Agree U (f a) (g b)) : Agree U (x >>= f) (y >>= g) := by
  cases h with
  | ok hab => exact hfg _ _ hab
  | error e => exact .error e

theorem Agree.map {x : Except ε α} {y : Except ε β} {f : α → γ} {g : β → δ}
    (h : Agree T x y) (hfg : ∀ a b, T a b → U (f a) (g b)) : Agree U (x.map f) (y.map g) := by
  cases h with
  | ok hab => exact .ok (hfg _ _ hab)
  | error e => exact .error e

theorem Agree.refl {T : α → α → Prop} (hT : ∀ a, T a a) (x : Except ε α) : Agree T x x := by
  rcases x with e | a
  · exact .error e
  · exact .ok (hT a)

end Outcomes

section Lists

variable {α β : Type*} {R : α → β → Prop} {xs : List α} {ys : List β}

theorem forall₂_set (h : List.Forall₂ R xs ys) {a : α} {b : β} (hab : R a b) (i : Nat) :
    List.Forall₂ R (xs.set i a) (ys.set i b) := by
  induction h generalizing i with
  | nil => exact .nil
  | cons hxy htail ih =>
      rcases i with _ | i
      · exact .cons hab htail
      · exact .cons hxy (ih i)

theorem forall₂_getD (h : List.Forall₂ R xs ys) {a : α} {b : β} (hab : R a b) (i : Nat) :
    R (xs.getD i a) (ys.getD i b) := by
  induction h generalizing i with
  | nil => exact hab
  | cons hxy htail ih =>
      rcases i with _ | i
      · exact hxy
      · exact ih i

theorem forall₂_append (h : List.Forall₂ R xs ys) {a : α} {b : β} (hab : R a b) :
    List.Forall₂ R (xs ++ [a]) (ys ++ [b]) :=
  List.rel_append h (.cons hab .nil)

end Lists

variable {State Label : Type} {M : Machine State Label}

/-- The two-run rule: steps that take related labels between related states take
related runs between related states. -/
theorem exec_related {R : State → State → Prop} {L : Label → Label → Prop}
    (hnext : ∀ s t a b, R s t → L a b → Option.Rel R (M.next s a) (M.next t b))
    {labels labels' : List Label} (hlabels : List.Forall₂ L labels labels') {s t : State}
    (hst : R s t) : Option.Rel R (M.exec s labels) (M.exec t labels') := by
  induction hlabels generalizing s t with
  | nil => exact .some hst
  | @cons a b labels labels' hab _ ih =>
      have hstep := hnext s t a b hst hab
      rw [Machine.exec, Machine.exec]
      generalize M.next s a = next, M.next t b = next' at hstep
      cases hstep with
      | none => exact .none
      | some hst' => exact ih hst'

variable {State' : Type} {N : Machine State' Label}

/-- A machine whose steps are the images of those of another machine runs as the image
of its runs. -/
theorem exec_map {f : State → State'} {I : State → Prop} {allowed : Label → Prop}
    (hnext : ∀ s a, I s → allowed a → N.next (f s) a = (M.next s a).map f)
    (hkeeps : ∀ s a t, I s → allowed a → M.next s a = some t → I t)
    {labels : List Label} (hallowed : ∀ a ∈ labels, allowed a) {s : State} (hs : I s) :
    N.exec (f s) labels = (M.exec s labels).map f := by
  induction labels generalizing s with
  | nil => rfl
  | cons a labels ih =>
      have ha := hallowed a List.mem_cons_self
      rw [Machine.exec, Machine.exec, hnext s a hs ha]
      rcases hstep : M.next s a with _ | t
      · rfl
      · exact ih (fun b hb => hallowed b (List.mem_cons_of_mem a hb)) (hkeeps s a t hs ha hstep)

end MuQuinet.Lib.Lockstep
