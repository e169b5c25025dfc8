import Mathlib.Data.List.TakeWhile
import Mathlib.Order.Lattice

namespace MuQuinet.Lib.OrderedLists

variable {α β : Type*} [LinearOrder β] (key : α → β)

def Ordered (xs : List α) : Prop :=
  xs.Pairwise fun x y => key x ≤ key y

/-- The elements with keys below `k`, then `x`, then the others: where `x` would
go if its key were `k`. -/
def placeAt (k : β) (x : α) (xs : List α) : List α :=
  xs.takeWhile (fun y => decide (key y < k)) ++ x :: xs.dropWhile fun y => decide (key y < k)

variable {key} {k : β} {xs : List α}

theorem lt_of_mem_takeWhile {y : α} (h : y ∈ xs.takeWhile fun y => decide (key y < k)) :
    key y < k := by
  have hall := List.all_eq_true.mp (List.all_takeWhile (p := fun y => decide (key y < k)) (l := xs))
  exact of_decide_eq_true (hall y h)

theorem le_of_mem_dropWhile (hordered : Ordered key xs) {y : α}
    (h : y ∈ xs.dropWhile fun y => decide (key y < k)) : k ≤ key y := by
  induction xs with
  | nil => cases h
  | cons x xs ih =>
      obtain ⟨hfirst, hrest⟩ := List.pairwise_cons.mp hordered
      by_cases hlt : key x < k
      · rw [List.dropWhile_cons_of_pos (by simpa using hlt)] at h
        exact ih hrest h
      · rw [List.dropWhile_cons_of_neg (by simpa using hlt)] at h
        have hle : k ≤ key x := not_lt.mp hlt
        rcases List.mem_cons.mp h with rfl | hmem
        · exact hle
        · exact hle.trans (hfirst y hmem)

theorem placeAt_of_lt (h : ∀ y ∈ xs, key y < k) (x : α) : placeAt key k x xs = xs ++ [x] := by
  have hall : ∀ y ∈ xs, decide (key y < k) = true := fun y hy => decide_eq_true (h y hy)
  rw [placeAt, List.takeWhile_eq_self_iff.mpr hall, List.dropWhile_eq_nil_iff.mpr hall]

/-- An element may be placed by another key than its own if no element of the
list tells the two keys apart. -/
theorem ordered_placeAt_iff (hordered : Ordered key xs) (k : β) (x : α) :
    Ordered key (placeAt key k x xs) ↔
      ∀ y ∈ xs, (key y < k → key y ≤ key x) ∧ (k ≤ key y → key x ≤ key y) := by
  have hsplit := List.takeWhile_append_dropWhile (p := fun y => decide (key y < k)) (l := xs)
  unfold Ordered placeAt
  rw [List.pairwise_append, List.pairwise_cons]
  constructor
  · rintro ⟨-, ⟨hafter, -⟩, hacross⟩ y hy
    rw [← hsplit] at hy
    rcases List.mem_append.mp hy with hbelow | habove
    · have hlt := lt_of_mem_takeWhile hbelow
      exact ⟨fun _ => hacross y hbelow x List.mem_cons_self, fun hle => absurd hlt hle.not_gt⟩
    · have hle := le_of_mem_dropWhile hordered habove
      exact ⟨fun hlt => absurd hlt hle.not_gt, fun _ => hafter y habove⟩
  · intro hagree
    have hsorted := hordered
    unfold Ordered at hsorted
    rw [← hsplit, List.pairwise_append] at hsorted
    obtain ⟨hbefore, hbehind, hbetween⟩ := hsorted
    refine ⟨hbefore, ⟨?_, hbehind⟩, ?_⟩
    · intro y hy
      have hmem : y ∈ xs := List.dropWhile_subset _ hy
      exact (hagree y hmem).2 (le_of_mem_dropWhile hordered hy)
    · intro y hy z hz
      rcases List.mem_cons.mp hz with rfl | hz
      · have hmem : y ∈ xs := List.takeWhile_subset _ hy
        exact (hagree y hmem).1 (lt_of_mem_takeWhile hy)
      · exact hbetween y hy z hz

end MuQuinet.Lib.OrderedLists
