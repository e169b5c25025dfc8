import Mathlib.Data.List.Range
import Mathlib.Data.Multiset.AddSub

namespace MuQuinet.Lib.Exchanges

variable {R : Type}

/-- What stands for a question on its way: its number, and its answer once there is one. -/
abbrev Token (R : Type) := Nat × Option R

/-- The books of a party that asks one question at a time: how many it asked, whether
it waits, what was answered to which question, what came back and what is on its way. -/
structure Ledger (R : Type) where
  asked : Nat
  waiting : Bool
  answered : List (Nat × R)
  returned : List (Nat × R)
  tokens : Multiset (Token R)

inductive Phase (l : Ledger R) : Prop
  | idle : l.waiting = false → l.asked = l.returned.length → l.tokens = 0 →
      l.answered = l.returned → Phase l
  | asked : l.waiting = true → l.asked = l.returned.length + 1 →
      l.tokens ≤ {(l.returned.length, none)} → l.answered = l.returned → Phase l
  | answered (r : R) : l.waiting = true → l.asked = l.returned.length + 1 →
      l.tokens ≤ {(l.returned.length, some r)} →
      l.answered = l.returned ++ [(l.returned.length, r)] → Phase l

/-- Answers come back in the order of their questions, and no more than one token
is on its way, which belongs to the question asked last. -/
structure Matched (l : Ledger R) : Prop where
  numbered : l.returned.map Prod.fst = List.range l.returned.length
  phase : Phase l

theorem cons_le_singleton {α : Type} {a b : α} {rest : Multiset α} (h : a ::ₘ rest ≤ {b}) :
    a = b ∧ rest = 0 := by
  constructor
  · exact Multiset.mem_singleton.mp (Multiset.mem_of_le h (Multiset.mem_cons_self a rest))
  · have hcard := Multiset.card_le_card h
    rw [Multiset.card_cons, Multiset.card_singleton] at hcard
    exact Multiset.card_eq_zero.mp (Nat.le_zero.mp (Nat.le_of_succ_le_succ hcard))

theorem matched_of_nothing_asked {l : Ledger R} (hasked : l.asked = 0)
    (hwaiting : l.waiting = false)
    (hanswered : l.answered = []) (hreturned : l.returned = []) (htokens : l.tokens = 0) :
    Matched l := by
  constructor
  · rw [hreturned]
    rfl
  · refine .idle hwaiting ?_ htokens (hanswered.trans hreturned.symm)
    rw [hasked, hreturned]
    rfl

section Steps

variable {l : Ledger R} {tokens rest : Multiset (Token R)} {tag : Nat} {r : R}

/-- A token stays, moves or is lost. -/
theorem Matched.move (h : Matched l) (hle : tokens ≤ l.tokens) :
    Matched { l with tokens := tokens } := by
  refine ⟨h.numbered, ?_⟩
  cases h.phase with
  | idle hwaiting hasked htokens hanswered =>
      exact .idle hwaiting hasked (Multiset.le_zero.mp (htokens ▸ hle)) hanswered
  | asked hwaiting hasked htokens hanswered =>
      exact .asked hwaiting hasked (hle.trans htokens) hanswered
  | answered r hwaiting hasked htokens hanswered =>
      exact .answered r hwaiting hasked (hle.trans htokens) hanswered

theorem Matched.ask (h : Matched l) (hidle : l.waiting = false)
    (hle : tokens ≤ (l.asked, none) ::ₘ l.tokens) :
    Matched { l with asked := l.asked + 1, waiting := true, tokens := tokens } := by
  refine ⟨h.numbered, ?_⟩
  cases h.phase with
  | idle _ hasked htokens hanswered =>
      refine .asked rfl (congrArg Nat.succ hasked) ?_ hanswered
      rw [htokens, hasked] at hle
      exact hle
  | asked hwaiting => exact nomatch hidle.symm.trans hwaiting
  | answered r hwaiting => exact nomatch hidle.symm.trans hwaiting

theorem Matched.answer (h : Matched l) (htoken : l.tokens = (tag, none) ::ₘ rest)
    (hle : tokens ≤ (tag, some r) ::ₘ rest) :
    Matched { l with answered := l.answered ++ [(tag, r)], tokens := tokens } := by
  refine ⟨h.numbered, ?_⟩
  cases h.phase with
  | idle _ _ htokens => exact absurd (htoken.symm.trans htokens) (Multiset.cons_ne_zero)
  | asked hwaiting hasked htokens hanswered =>
      rw [htoken] at htokens
      obtain ⟨hlast, rfl⟩ := cons_le_singleton htokens
      cases hlast
      refine .answered r hwaiting hasked hle ?_
      rw [hanswered]
  | answered _ _ _ htokens =>
      rw [htoken] at htokens
      cases (cons_le_singleton htokens).1

theorem Matched.return (h : Matched l) (htoken : l.tokens = (tag, some r) ::ₘ rest)
    (hle : tokens ≤ rest) :
    Matched { l with waiting := false, returned := l.returned ++ [(tag, r)], tokens :=
      tokens } := by
  cases h.phase with
  | idle _ _ htokens => exact absurd (htoken.symm.trans htokens) (Multiset.cons_ne_zero)
  | asked _ _ htokens =>
      rw [htoken] at htokens
      cases (cons_le_singleton htokens).1
  | answered _ _ hasked htokens hanswered =>
      rw [htoken] at htokens
      obtain ⟨hlast, rfl⟩ := cons_le_singleton htokens
      cases hlast
      constructor
      · simp only [List.map_append, List.map_cons, List.map_nil, List.length_append,
          List.length_singleton, List.range_succ, h.numbered]
      · refine .idle rfl ?_ (Multiset.le_zero.mp hle) hanswered
        rw [List.length_append, List.length_singleton]
        exact hasked

end Steps

theorem filter_last_of_ne {entry : Nat × R} {n : Nat} (hne : entry.1 ≠ n) :
    ([entry].filter fun e => e.1 = n) = [] := by
  simp [hne]

theorem filter_of_numbered {xs : List (Nat × R)} (h : xs.map Prod.fst = List.range xs.length)
    {n : Nat} {entry : Nat × R} (hget : xs[n]? = some entry) :
    entry.1 = n ∧ (xs.filter fun e => e.1 = n) = [entry] := by
  induction xs using List.reverseRecOn generalizing n entry with
  | nil => cases hget
  | append_singleton xs last ih =>
      rw [List.map_append, List.length_append, List.length_singleton, List.range_succ] at h
      obtain ⟨hxs, hlast⟩ := List.append_inj' h rfl
      replace hlast : last.1 = xs.length := (List.cons.inj hlast).1
      rcases Nat.lt_trichotomy n xs.length with hlt | rfl | hgt
      · rw [List.getElem?_append_left hlt] at hget
        obtain ⟨htag, hfilter⟩ := ih hxs hget
        refine ⟨htag, ?_⟩
        rw [List.filter_append, hfilter, filter_last_of_ne (hlast ▸ Nat.ne_of_gt hlt)]
        rfl
      · rw [List.getElem?_concat_length] at hget
        obtain rfl := Option.some.inj hget
        refine ⟨hlast, ?_⟩
        have hothers : (xs.filter fun e => e.1 = xs.length) = [] := by
          rw [List.filter_eq_nil_iff]
          intro e he
          have hmem : e.1 ∈ List.range xs.length := hxs ▸ List.mem_map_of_mem he
          simpa using Nat.ne_of_lt (List.mem_range.mp hmem)
        rw [List.filter_append, hothers]
        simp [hlast]
      · have hle : (xs ++ [last]).length ≤ n := by
          rw [List.length_append, List.length_singleton]
          exact hgt
        rw [List.getElem?_eq_none hle] at hget
        cases hget

/-- What comes back as the n-th is the answer to the n-th question, which has no other. -/
theorem Matched.returned_spec {l : Ledger R} (h : Matched l) {n : Nat} {entry : Nat × R}
    (hget : l.returned[n]? = some entry) :
    entry.1 = n ∧ (l.answered.filter fun e => e.1 = n) = [entry] := by
  obtain ⟨htag, hfilter⟩ := filter_of_numbered h.numbered hget
  refine ⟨htag, ?_⟩
  cases h.phase with
  | idle _ _ _ hanswered => rw [hanswered, hfilter]
  | asked _ _ _ hanswered => rw [hanswered, hfilter]
  | answered r _ _ _ hanswered =>
      obtain ⟨hlt, -⟩ := List.getElem?_eq_some_iff.mp hget
      rw [hanswered, List.filter_append, hfilter, filter_last_of_ne (Nat.ne_of_gt hlt)]
      rfl

end MuQuinet.Lib.Exchanges
