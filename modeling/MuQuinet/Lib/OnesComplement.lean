import Mathlib.Data.Nat.ModEq
import Mathlib.Algebra.BigOperators.Group.List.Basic

namespace MuQuinet.Lib.OnesComplement

/-- Addition with end-around carry of numbers up to `m`, which is `2 ^ w - 1`
for words of `w` bits. -/
def add (m a b : Nat) : Nat :=
  if a + b ≤ m then a + b else a + b - m

def sum (m : Nat) (words : List Nat) : Nat :=
  words.foldl (add m) 0

section Sums

variable {m : Nat}

theorem add_le {a b : Nat} (ha : a ≤ m) (hb : b ≤ m) : add m a b ≤ m := by
  unfold add
  split
  · assumption
  · omega

theorem add_modEq (a b : Nat) : add m a b ≡ a + b [MOD m] := by
  unfold add
  split
  · exact .refl _
  · rename_i hcarry
    have hsub : a + b - m + m = a + b := Nat.sub_add_cancel (Nat.le_of_lt (Nat.not_le.mp hcarry))
    have hmod : (a + b - m) % m = (a + b - m + m) % m := (Nat.add_mod_right _ _).symm
    rw [hsub] at hmod
    exact hmod

theorem add_pos_iff (a b : Nat) : 0 < add m a b ↔ 0 < a + b := by
  unfold add
  split
  · exact .rfl
  · omega

theorem foldl_add {acc : Nat} {words : List Nat} (hacc : acc ≤ m) (hwords : ∀ w ∈ words, w ≤ m) :
    words.foldl (add m) acc ≤ m ∧ words.foldl (add m) acc ≡ acc + words.sum [MOD m] ∧
      (0 < words.foldl (add m) acc ↔ 0 < acc + words.sum) := by
  induction words generalizing acc with
  | nil => exact ⟨hacc, .refl _, .rfl⟩
  | cons w words ih =>
      have hw : w ≤ m := hwords w (by simp)
      obtain ⟨hle, hmod, hpos⟩ := ih (add_le hacc hw) fun w' hw' => hwords w' (by simp [hw'])
      have hassoc : acc + (w :: words).sum = acc + w + words.sum := by
        rw [List.sum_cons, Nat.add_assoc]
      refine ⟨hle, ?_, ?_⟩
      · rw [List.foldl_cons, hassoc]
        exact hmod.trans ((add_modEq acc w).add_right words.sum)
      · have hfirst := add_pos_iff (m := m) acc w
        rw [List.foldl_cons, hassoc, hpos]
        omega

/-- Congruent numbers up to `m` are equal, once the two representations of zero are told
apart. -/
theorem eq_of_modEq {a b : Nat} (ha : a ≤ m) (hb : b ≤ m) (hmod : a ≡ b [MOD m])
    (hpos : 0 < a ↔ 0 < b) : a = b := by
  rcases Nat.lt_or_eq_of_le ha with hlt | rfl
  · rcases Nat.lt_or_eq_of_le hb with hlt' | rfl
    · exact hmod.eq_of_lt_of_lt hlt hlt'
    · have hdvd : b ∣ a := (hmod.dvd_iff (dvd_refl _)).mpr (dvd_refl _)
      have hzero : a = 0 := Nat.eq_zero_of_dvd_of_lt hdvd hlt
      omega
  · have hdvd : a ∣ b := (hmod.dvd_iff (dvd_refl _)).mp (dvd_refl _)
    rcases Nat.eq_zero_or_pos b with rfl | hposb
    · omega
    · exact Nat.le_antisymm (Nat.le_of_dvd hposb hdvd) hb

/-- A sum of words is the one number up to `m` that is congruent to their plain sum and
vanishes with it. -/
theorem sum_eq_of_modEq {words : List Nat} (hwords : ∀ w ∈ words, w ≤ m) {n : Nat} (hn : n ≤ m)
    (hmod : n ≡ words.sum [MOD m]) (hpos : 0 < n ↔ 0 < words.sum) : sum m words = n := by
  obtain ⟨hle, htotal, htotalPos⟩ := foldl_add (Nat.zero_le m) hwords
  rw [Nat.zero_add] at htotal htotalPos
  exact eq_of_modEq hle hn (htotal.trans hmod.symm) (htotalPos.trans hpos.symm)

/-- A sum of words is all ones exactly when it vanishes modulo `m` and some word
does not vanish. -/
theorem sum_eq_top_iff (hm : 0 < m) {words : List Nat} (hwords : ∀ w ∈ words, w ≤ m) :
    sum m words = m ↔ m ∣ words.sum ∧ 0 < words.sum := by
  constructor
  · intro htop
    obtain ⟨-, hmod, hpos⟩ := foldl_add (Nat.zero_le m) hwords
    rw [Nat.zero_add] at hmod hpos
    change sum m words ≡ words.sum [MOD m] at hmod
    change 0 < sum m words ↔ 0 < words.sum at hpos
    rw [htop] at hmod hpos
    exact ⟨(hmod.dvd_iff (dvd_refl _)).mp (dvd_refl _), hpos.mp hm⟩
  · rintro ⟨hdvd, hsum⟩
    refine sum_eq_of_modEq hwords (Nat.le_refl m) ?_ (iff_of_true hm hsum)
    exact (Nat.modEq_zero_iff_dvd.mpr (dvd_refl m)).trans (Nat.modEq_zero_iff_dvd.mpr hdvd).symm

end Sums

/-- The 16-bit words of a list of bytes, read by `word`, with a zero byte behind
the last one if it is left over. -/
def words (word : UInt8 → UInt8 → Nat) : List UInt8 → List Nat
  | first :: second :: rest => word first second :: words word rest
  | [first] => [word first 0]
  | [] => []

/-- The two 16-bit words of a number below `2 ^ 32`. -/
def halves (n : Nat) : List Nat := [n % 65536, n / 65536]

theorem sum_halves_modEq (n : Nat) : (halves n).sum ≡ n [MOD 65535] := by
  have hsum : (halves n).sum = n % 65536 + n / 65536 := by simp [halves]
  rw [hsum]
  unfold Nat.ModEq
  omega

theorem sum_halves_pos_iff (n : Nat) : 0 < (halves n).sum ↔ 0 < n := by
  have hsum : (halves n).sum = n % 65536 + n / 65536 := by simp [halves]
  rw [hsum]
  omega

theorem halves_le {n : Nat} (h : n < 2 ^ 32) : ∀ w ∈ halves n, w ≤ 65535 := by
  intro w hw
  simp only [halves, List.mem_cons, List.not_mem_nil, or_false] at hw
  omega

def bigEndian (high low : UInt8) : Nat := 256 * high.toNat + low.toNat
def littleEndian (low high : UInt8) : Nat := low.toNat + 256 * high.toNat

theorem words_append (word : UInt8 → UInt8 → Nat) {bytes : List UInt8}
    (heven : bytes.length % 2 = 0) (rest : List UInt8) :
    words word (bytes ++ rest) = words word bytes ++ words word rest := by
  induction bytes using words.induct with
  | case1 first second bytes ih =>
      have heven' : bytes.length % 2 = 0 := by
        simp only [List.length_cons] at heven
        omega
      simp only [List.cons_append, words, ih heven']
  | case2 first => simp at heven
  | case3 => rfl

theorem littleEndian_le (low high : UInt8) : littleEndian low high ≤ 65535 := by
  have hlow := low.toNat_lt
  have hhigh := high.toNat_lt
  unfold littleEndian
  omega

theorem bigEndian_le (high low : UInt8) : bigEndian high low ≤ 65535 := by
  have hlow := low.toNat_lt
  have hhigh := high.toNat_lt
  unfold bigEndian
  omega

theorem words_le {word : UInt8 → UInt8 → Nat} (h : ∀ a b, word a b ≤ 65535) (bytes : List UInt8) :
    ∀ w ∈ words word bytes, w ≤ 65535 := by
  induction bytes using words.induct with
  | case1 first second bytes ih =>
      intro w hw
      rcases List.mem_cons.mp hw with rfl | hw
      · exact h first second
      · exact ih w hw
  | case2 first =>
      intro w hw
      obtain rfl := List.mem_singleton.mp hw
      exact h first 0
  | case3 => simp [words]

theorem sum_words_le {word : UInt8 → UInt8 → Nat} (h : ∀ a b, word a b ≤ 65535)
    (bytes : List UInt8) : (words word bytes).sum ≤ 65535 * ((bytes.length + 1) / 2) := by
  induction bytes using words.induct with
  | case1 first second bytes ih =>
      have hword := h first second
      simp only [words, List.sum_cons, List.length_cons]
      omega
  | case2 first => simpa [words] using h first 0
  | case3 => simp [words]

/-- Swapping the bytes of every word multiplies the sum by 256. -/
theorem sum_bigEndian_modEq (bytes : List UInt8) :
    (words bigEndian bytes).sum ≡ 256 * (words littleEndian bytes).sum [MOD 65535] := by
  have hword : ∀ a b : UInt8, bigEndian a b ≡ 256 * littleEndian a b [MOD 65535] := by
    intro a b
    unfold bigEndian littleEndian Nat.ModEq
    omega
  induction bytes using words.induct with
  | case1 first second bytes ih =>
      rw [words, words, List.sum_cons, List.sum_cons, Nat.mul_add]
      exact (hword first second).add ih
  | case2 first =>
      rw [words, words, List.sum_singleton, List.sum_singleton]
      exact hword first 0
  | case3 => rfl

theorem sum_bigEndian_pos {bytes : List UInt8} (h : 0 < (words littleEndian bytes).sum) :
    0 < (words bigEndian bytes).sum := by
  have hword : ∀ a b : UInt8, 0 < littleEndian a b → 0 < bigEndian a b := by
    intro a b hpos
    unfold littleEndian at hpos
    unfold bigEndian
    omega
  induction bytes using words.induct with
  | case1 first second bytes ih =>
      rw [words, List.sum_cons] at h ⊢
      rcases Nat.eq_zero_or_pos (words littleEndian bytes).sum with hzero | hpos
      · rw [hzero, Nat.add_zero] at h
        exact Nat.add_pos_left (hword first second h) _
      · exact Nat.add_pos_right _ (ih hpos)
  | case2 first =>
      rw [words, List.sum_singleton] at h ⊢
      exact hword first 0 h
  | case3 => cases h

/-- A checksum that verifies in one byte order does in the other. -/
theorem sum_bigEndian_eq_top {bytes : List UInt8} (hdvd : 65535 ∣ (words littleEndian bytes).sum)
    (hpos : 0 < (words littleEndian bytes).sum) : sum 65535 (words bigEndian bytes) = 65535 := by
  apply (sum_eq_top_iff (by decide) (words_le bigEndian_le bytes)).mpr
  refine ⟨?_, sum_bigEndian_pos hpos⟩
  exact ((sum_bigEndian_modEq bytes).dvd_iff (dvd_refl _)).mpr (Dvd.dvd.mul_left hdvd 256)

end MuQuinet.Lib.OnesComplement
