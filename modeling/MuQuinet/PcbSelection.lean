import MuQuinet.DeliveryIsolation

namespace MuQuinet.PcbSelection

open MuQuinet.DeliveryIsolation
open MuQuinet.Pcbs

/-- How much of a four-tuple a PCB fixes: its local port, and its other port and
addresses where they are set. -/
def specificity (t : FourTuple) (pcb : Pcb) : Int :=
  (if pcb.lport = t.lport then 1 else 0) +
    (if pcb.fport ≠ 0 ∧ pcb.fport = t.fport then 1 else 0) +
    (if pcb.faddr ≠ 0 ∧ pcb.faddr = t.faddr then 1 else 0) +
    (if pcb.laddr ≠ 0 ∧ pcb.laddr = t.laddr then 1 else 0)

theorem inAddrMatch_eq {ours theirs : UInt32} (h : ours = 0 ∨ ours = theirs) :
    inAddrMatch ours theirs = if ours ≠ 0 ∧ ours = theirs then 1 else 0 := by
  unfold inAddrMatch
  by_cases hzero : ours = 0
  · simp [hzero]
  · have heq : ours = theirs := h.resolve_left hzero
    rw [if_neg hzero, if_pos heq, if_pos ⟨hzero, heq⟩]

/-- The `accum` of a live PCB that matches is its specificity. -/
theorem score_eq_specificity {t : FourTuple} {pcb : Pcb} (h : Matches t pcb) :
    ∃ m, score t pcb = some (specificity t pcb, m) := by
  have hkeep : ¬ (pcb.fport ≠ 0 ∧ pcb.fport ≠ t.fport) := by
    rintro ⟨hne, hne'⟩
    exact h.fport_eq.elim hne hne'
  have hfport : (if pcb.fport ≠ 0 then (1 : Int) else 0) =
      if pcb.fport ≠ 0 ∧ pcb.fport = t.fport then 1 else 0 := by
    by_cases hzero : pcb.fport = 0
    · simp [hzero]
    · rw [if_pos hzero, if_pos ⟨hzero, h.fport_eq.resolve_left hzero⟩]
  have hfaddr := (inAddrMatch_nonneg_iff _ _).mpr h.faddr_eq
  have hladdr := (inAddrMatch_nonneg_iff _ _).mpr h.laddr_eq
  refine ⟨inAddrMatch pcb.laddr t.laddr, ?_⟩
  simp only [score]
  rw [if_neg (not_not.mpr h.lport_eq), if_neg hkeep, if_neg hfaddr, if_neg hladdr, hfport,
    inAddrMatch_eq h.faddr_eq, inAddrMatch_eq h.laddr_eq, specificity, if_pos h.lport_eq]

/-- The element of a list is a live PCB that matches, and no other fixes more. -/
def MostSpecific (t : FourTuple) (pcbs : List (Option Pcb)) (i : Nat) : Prop :=
  ∃ pcb, pcbs[i]? = some (some pcb) ∧ Matches t pcb ∧
    ∀ other, some other ∈ pcbs → Matches t other → specificity t other ≤ specificity t pcb

/-- No PCB that matches fixes more than the last one that does. -/
def LastFixesMost (t : FourTuple) (pcbs : List (Option Pcb)) : Prop :=
  ∀ i last, LastMatch t pcbs i last → ∀ earlier, some earlier ∈ pcbs → Matches t earlier →
    specificity t earlier ≤ specificity t last

/-- The most specific PCB is found where it is the last that matches, or no less
specific than any before the last is. -/
theorem mostSpecific_iff_lastFixesMost (t : FourTuple) (pcbs : List (Option Pcb)) :
    (∀ i, find pcbs t = some i → MostSpecific t pcbs i) ↔ LastFixesMost t pcbs := by
  constructor
  · intro h i last hlast earlier hmem hmatch
    obtain ⟨pcb, hpcb, -, hmost⟩ := h i (find_of_lastMatch hlast)
    have heq : last = pcb := by simpa [hlast.get_eq] using hpcb
    rw [heq]
    exact hmost earlier hmem hmatch
  · intro h i hfind
    obtain ⟨last, hlast⟩ := lastMatch_of_find hfind
    exact ⟨last, hlast.get_eq, hlast.isMatch, h i last hlast⟩

def sampleConnected : Pcb :=
  { faddr := 0x0100000a, fport := 0x3500, laddr := 0x0200000a, lport := 0x0104 }

def sampleUnconnected : Pcb :=
  { faddr := 0, fport := 0, laddr := 0x0200000a, lport := 0x0104 }

def sampleTuple : FourTuple :=
  { faddr := 0x0100000a, fport := 0x3500, laddr := 0x0200000a, lport := 0x0104 }

/-- A PCB connected to the sender comes before an unconnected one, which gets the
packet. -/
theorem unconnected_preferred :
    find [some sampleConnected, some sampleUnconnected] sampleTuple = some 1 ∧
      ¬ ∀ i, find [some sampleConnected, some sampleUnconnected] sampleTuple = some i →
        MostSpecific sampleTuple [some sampleConnected, some sampleUnconnected] i := by
  have hfind : find [some sampleConnected, some sampleUnconnected] sampleTuple = some 1 := by
    decide
  refine ⟨hfind, ?_⟩
  intro hmost
  obtain ⟨pcb, hget, -, hbest⟩ := hmost 1 hfind
  obtain rfl : sampleUnconnected = pcb := by simpa using hget
  have hmatch : Matches sampleTuple sampleConnected :=
    ⟨rfl, .inr rfl, .inr rfl, .inr rfl⟩
  have hle := hbest sampleConnected (by simp) hmatch
  exact absurd hle (by decide)

end MuQuinet.PcbSelection
