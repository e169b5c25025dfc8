import MuQuinet.Lib.OnesComplement
import MuQuinet.Wire

namespace MuQuinet.Checksums

open MuQuinet.Lib.OnesComplement
open MuQuinet.Lib.Words
open MuQuinet.Wire

/-- The accumulator has room for the words of some bytes. -/
def Fits (start : UInt32) (bytes : List UInt8) : Prop :=
  start.toNat + (words littleEndian bytes).sum < 2 ^ 32

/-- The loop of `InternetChecksum::checksum` adds up the words as the host loads them. -/
theorem wordSum_eq (start : UInt32) (bytes : List UInt8) :
    wordSum start bytes = start + .ofNat (words littleEndian bytes).sum := by
  induction bytes using words.induct generalizing start with
  | case1 first second bytes ih =>
      rw [words, List.sum_cons, UInt32.ofNat_add, ← UInt32.add_assoc]
      exact ih _
  | case2 first =>
      have hword : littleEndian first 0 = first.toNat := rfl
      rw [words, List.sum_singleton, hword, wordSum]
  | case3 => exact (UInt32.add_zero start).symm

theorem toNat_wordSum {start : UInt32} {bytes : List UInt8} (hfits : Fits start bytes) :
    (wordSum start bytes).toNat = start.toNat + (words littleEndian bytes).sum := by
  rw [wordSum_eq, UInt32.toNat_add, UInt32.toNat_ofNat', Nat.add_mod_mod]
  exact Nat.mod_eq_of_lt hfits

theorem fits_of_length_le {bytes : List UInt8} (h : bytes.length ≤ 131072) : Fits 0 bytes := by
  have hbound := sum_words_le littleEndian_le bytes
  rw [Fits, UInt32.toNat_zero]
  omega

/-- A payload and the headers in front of it fit together. -/
theorem fits_wordSum {payload bytes : List UInt8}
    (h : payload.length + bytes.length ≤ 131072) : Fits (wordSum 0 payload) bytes := by
  have hpayload := sum_words_le littleEndian_le payload
  have hbytes := sum_words_le littleEndian_le bytes
  have hfits : Fits 0 payload := fits_of_length_le (Nat.le_trans (Nat.le_add_right _ _) h)
  rw [Fits, toNat_wordSum hfits, UInt32.toNat_zero]
  omega

theorem wordSum_append {bytes : List UInt8} (heven : bytes.length % 2 = 0) (start : UInt32)
    (rest : List UInt8) : wordSum start (bytes ++ rest) = wordSum (wordSum start bytes) rest := by
  rw [wordSum_eq, wordSum_eq, wordSum_eq, words_append littleEndian heven, List.sum_append,
    UInt32.ofNat_add, UInt32.add_assoc]

theorem wordSum_comm (start : UInt32) (bytes rest : List UInt8) :
    wordSum (wordSum start bytes) rest = wordSum (wordSum start rest) bytes := by
  rw [wordSum_eq, wordSum_eq, wordSum_eq, wordSum_eq, UInt32.add_assoc, UInt32.add_assoc,
    UInt32.add_comm (.ofNat _) (.ofNat _)]

theorem foldSum_spec (n : Nat) :
    foldSum n ≤ 65535 ∧ foldSum n ≡ n [MOD 65535] ∧ (0 < foldSum n ↔ 0 < n) := by
  induction n using foldSum.induct with
  | case1 n hsmall =>
      rw [foldSum, if_pos hsmall]
      exact ⟨by omega, .refl _, .rfl⟩
  | case2 n hlarge ih =>
      obtain ⟨hle, hmod, hpos⟩ := ih
      rw [foldSum, if_neg hlarge]
      refine ⟨hle, hmod.trans ?_, hpos.trans ?_⟩
      · unfold Nat.ModEq
        omega
      · omega

theorem toNat_checksum (bytes : List UInt8) (start : UInt32) :
    (checksum bytes start).toUInt16.toNat = 65535 - foldSum (wordSum start bytes).toNat := by
  have hle := (foldSum_spec (wordSum start bytes).toNat).1
  have hfold : (UInt32.ofNat (foldSum (wordSum start bytes).toNat)).toNat =
      foldSum (wordSum start bytes).toNat := by
    rw [UInt32.toNat_ofNat']
    exact Nat.mod_eq_of_lt (by omega)
  have hnot : (checksum bytes start).toNat = 4294967295 - foldSum (wordSum start bytes).toNat := by
    rw [checksum, UInt32.toNat_not, hfold]
    rfl
  rw [UInt32.toNat_toUInt16, hnot]
  omega

/-- The checksum makes the sum of the words vanish modulo `0xffff`. -/
theorem checksum_completes {bytes : List UInt8} {start : UInt32} (hfits : Fits start bytes) :
    65535 ∣ start.toNat + (words littleEndian bytes).sum + (checksum bytes start).toUInt16.toNat ∧
      0 < start.toNat + (words littleEndian bytes).sum +
        (checksum bytes start).toUInt16.toNat := by
  rw [toNat_checksum, toNat_wordSum hfits]
  generalize start.toNat + (words littleEndian bytes).sum = total
  obtain ⟨hle, hmod, hpos⟩ := foldSum_spec total
  unfold Nat.ModEq at hmod
  constructor
  · omega
  · omega

theorem sum_words_store16 {bytes : List UInt8} {offset : Nat} (heven : offset % 2 = 0)
    (hlt : offset + 1 < bytes.length) (word : UInt16) :
    (words littleEndian (store16 bytes offset word)).sum + (load16 bytes offset).toNat =
      (words littleEndian bytes).sum + word.toNat := by
  obtain ⟨pre, low, high, post, rfl, rfl⟩ := exists_append_of_lt hlt
  have hword : word.toNat < 65536 := word.toNat_lt
  rw [store16_append, load16_append_word, words_append littleEndian heven,
    words_append littleEndian heven, List.sum_append, List.sum_append, words, words,
    List.sum_cons, List.sum_cons]
  simp only [littleEndian, UInt8.toNat_ofNat']
  omega

/-- The checksum complements the one's complement sum of the words and the two halves of the
start. -/
theorem toUInt16_checksum {bytes : List UInt8} {start : UInt32} (hfits : Fits start bytes) :
    (checksum bytes start).toUInt16 =
      ~~~ .ofNat (sum 65535 (words littleEndian bytes ++ halves start.toNat)) := by
  have hwords : ∀ w ∈ words littleEndian bytes ++ halves start.toNat, w ≤ 65535 := by
    intro w hw
    rcases List.mem_append.mp hw with hw | hw
    · exact words_le littleEndian_le bytes w hw
    · exact halves_le start.toNat_lt w hw
  obtain ⟨hle, hmod, hpos⟩ := foldSum_spec (start.toNat + (words littleEndian bytes).sum)
  have hsum : (words littleEndian bytes ++ halves start.toNat).sum =
      (halves start.toNat).sum + (words littleEndian bytes).sum := by
    rw [List.sum_append, Nat.add_comm]
  have htotal : sum 65535 (words littleEndian bytes ++ halves start.toNat) =
      foldSum (start.toNat + (words littleEndian bytes).sum) := by
    apply sum_eq_of_modEq hwords hle
    · rw [hsum]
      exact hmod.trans ((sum_halves_modEq start.toNat).symm.add_right _)
    · have hhalves := sum_halves_pos_iff start.toNat
      rw [hsum, hpos]
      omega
  apply UInt16.toNat_inj.mp
  rw [toNat_checksum, toNat_wordSum hfits, htotal, UInt16.toNat_not, UInt16.toNat_ofNat',
    Nat.mod_eq_of_lt (by omega)]
  rfl

/-- A buffer that is cut at an even offset has the checksum of either part with the sum of
the other as its start. -/
theorem checksum_cut {bytes : List UInt8} {offset : Nat} (heven : offset % 2 = 0)
    (hle : offset ≤ bytes.length) (start : UInt32) :
    checksum (bytes.drop offset) (wordSum start (bytes.take offset)) = checksum bytes start ∧
      checksum (bytes.take offset) (wordSum start (bytes.drop offset)) = checksum bytes start := by
  have hlength : (bytes.take offset).length % 2 = 0 := by
    rw [List.length_take_of_le hle]
    exact heven
  have hwhole : wordSum (wordSum start (bytes.take offset)) (bytes.drop offset) =
      wordSum start bytes := by
    rw [← wordSum_append hlength, List.take_append_drop]
  constructor
  · rw [checksum, hwhole, checksum]
  · rw [checksum, wordSum_comm, hwhole, checksum]

/-- Bytes that complete the checksum verify. -/
theorem toUInt16_checksum_eq_zero {bytes : List UInt8} (hfits : Fits 0 bytes)
    (hdvd : 65535 ∣ (words littleEndian bytes).sum) (hpos : 0 < (words littleEndian bytes).sum) :
    (checksum bytes 0).toUInt16 = 0 := by
  obtain ⟨hle, hmod, hfoldPos⟩ := foldSum_spec (words littleEndian bytes).sum
  have htop : foldSum (words littleEndian bytes).sum = 65535 := by
    have hfold : 65535 ∣ foldSum (words littleEndian bytes).sum :=
      (hmod.dvd_iff (dvd_refl _)).mpr hdvd
    exact Nat.le_antisymm hle (Nat.le_of_dvd (hfoldPos.mpr hpos) hfold)
  apply UInt16.toNat_inj.mp
  rw [toNat_checksum, toNat_wordSum hfits, UInt32.toNat_zero, Nat.zero_add, htop]
  rfl

/-- A checksum stored into its zeroed field completes the buffer it is taken over. -/
theorem checksum_store16 {bytes : List UInt8} {offset : Nat} (heven : offset % 2 = 0)
    (hlt : offset + 1 < bytes.length) (hzero : load16 bytes offset = 0) (hfits : Fits 0 bytes) :
    (checksum (store16 bytes offset (checksum bytes 0).toUInt16) 0).toUInt16 = 0 := by
  obtain ⟨hdvd, hpos⟩ := checksum_completes hfits
  have hstored := sum_words_store16 heven hlt (checksum bytes 0).toUInt16
  rw [hzero, UInt16.toNat_zero, Nat.add_zero] at hstored
  rw [UInt32.toNat_zero, Nat.zero_add, ← hstored] at hdvd hpos
  refine toUInt16_checksum_eq_zero ?_ hdvd hpos
  -- The completed sum is the next multiple of `0xffff`, as `2 ^ 32 - 1` is one itself.
  obtain ⟨-, -, hfoldPos⟩ := foldSum_spec (words littleEndian bytes).sum
  have hcheck := toNat_checksum bytes 0
  rw [toNat_wordSum hfits, UInt32.toNat_zero, Nat.zero_add] at hcheck
  rw [Fits, UInt32.toNat_zero, Nat.zero_add] at hfits ⊢
  omega

end MuQuinet.Checksums
