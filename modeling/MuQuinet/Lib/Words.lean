import Mathlib.Data.Nat.Bitwise
import Mathlib.Tactic.Ring

namespace MuQuinet.Lib.Words

/-- The byte at an offset of a zero-filled buffer whose first bytes are given. -/
def byteAt (bytes : List UInt8) (offset : Nat) : Nat :=
  (bytes.getD offset 0).toNat

/-- The 16-bit word a little-endian host loads at an offset. -/
def load16 (bytes : List UInt8) (offset : Nat) : UInt16 :=
  .ofNat (byteAt bytes offset + 256 * byteAt bytes (offset + 1))

def load32 (bytes : List UInt8) (offset : Nat) : UInt32 :=
  .ofNat (byteAt bytes offset + 256 * byteAt bytes (offset + 1) +
    65536 * byteAt bytes (offset + 2) + 16777216 * byteAt bytes (offset + 3))

/-- The bytes of a number as a little-endian host lays them out. -/
def bytesLE : Nat → Nat → List UInt8
  | 0, _ => []
  | width + 1, n => .ofNat (n % 256) :: bytesLE width (n / 256)

@[simp] theorem length_bytesLE (width n : Nat) : (bytesLE width n).length = width := by
  induction width generalizing n with
  | zero => rfl
  | succ width ih => simp [bytesLE, ih]

theorem bytesLE_inj {width n m : Nat} (hn : n < 256 ^ width) (hm : m < 256 ^ width)
    (h : bytesLE width n = bytesLE width m) : n = m := by
  induction width generalizing n m with
  | zero =>
      rw [pow_zero] at hn hm
      omega
  | succ width ih =>
      obtain ⟨hlow, hhigh⟩ := List.cons.inj h
      have hdigit := congrArg UInt8.toNat hlow
      simp only [UInt8.toNat_ofNat', Nat.reducePow, Nat.mod_mod] at hdigit
      rw [pow_succ] at hn hm
      have hrest := ih (Nat.div_lt_of_lt_mul (by omega)) (Nat.div_lt_of_lt_mul (by omega)) hhigh
      omega

theorem byteAt_append_right (pre bytes : List UInt8) (offset : Nat) :
    byteAt (pre ++ bytes) (pre.length + offset) = byteAt bytes offset := by
  rw [byteAt, List.getD_append_right _ _ _ _ (Nat.le_add_right _ _), Nat.add_sub_cancel_left]
  rfl

theorem load16_append_right (pre bytes : List UInt8) (offset : Nat) :
    load16 (pre ++ bytes) (pre.length + offset) = load16 bytes offset := by
  simp only [load16, Nat.add_assoc, byteAt_append_right]

theorem load32_append_right (pre bytes : List UInt8) (offset : Nat) :
    load32 (pre ++ bytes) (pre.length + offset) = load32 bytes offset := by
  simp only [load32, Nat.add_assoc, byteAt_append_right]

/-- A word that was laid out somewhere is loaded from there again. -/
theorem load16_bytesLE (pre : List UInt8) (word : UInt16) (rest : List UInt8) :
    load16 (pre ++ (bytesLE 2 word.toNat ++ rest)) pre.length = word := by
  have hword : word.toNat < 65536 := word.toNat_lt
  apply UInt16.toNat_inj.mp
  rw [← Nat.add_zero pre.length, load16_append_right]
  simp [load16, byteAt, bytesLE]
  omega

theorem load32_bytesLE (pre : List UInt8) (word : UInt32) (rest : List UInt8) :
    load32 (pre ++ (bytesLE 4 word.toNat ++ rest)) pre.length = word := by
  have hword : word.toNat < 4294967296 := word.toNat_lt
  apply UInt32.toNat_inj.mp
  rw [← Nat.add_zero pre.length, load32_append_right]
  simp [load32, byteAt, bytesLE]
  omega

theorem byteAt_append_of_le {pre : List UInt8} {offset : Nat} (h : pre.length ≤ offset)
    (bytes : List UInt8) : byteAt (pre ++ bytes) offset = byteAt bytes (offset - pre.length) := by
  obtain ⟨rest, rfl⟩ := Nat.exists_eq_add_of_le h
  rw [byteAt_append_right, Nat.add_sub_cancel_left]

theorem load16_append_of_le {pre : List UInt8} {offset : Nat} (h : pre.length ≤ offset)
    (bytes : List UInt8) : load16 (pre ++ bytes) offset = load16 bytes (offset - pre.length) := by
  obtain ⟨rest, rfl⟩ := Nat.exists_eq_add_of_le h
  rw [load16_append_right, Nat.add_sub_cancel_left]

theorem load32_append_of_le {pre : List UInt8} {offset : Nat} (h : pre.length ≤ offset)
    (bytes : List UInt8) : load32 (pre ++ bytes) offset = load32 bytes (offset - pre.length) := by
  obtain ⟨rest, rfl⟩ := Nat.exists_eq_add_of_le h
  rw [load32_append_right, Nat.add_sub_cancel_left]

@[simp] theorem load16_bytesLE_zero (word : UInt16) (rest : List UInt8) :
    load16 (bytesLE 2 word.toNat ++ rest) 0 = word :=
  load16_bytesLE [] word rest

@[simp] theorem load32_bytesLE_zero (word : UInt32) (rest : List UInt8) :
    load32 (bytesLE 4 word.toNat ++ rest) 0 = word :=
  load32_bytesLE [] word rest

def store16 (bytes : List UInt8) (offset : Nat) (word : UInt16) : List UInt8 :=
  (bytes.set offset (.ofNat (word.toNat % 256))).set (offset + 1)
    (.ofNat (word.toNat / 256))

@[simp] theorem length_store16 (bytes : List UInt8) (offset : Nat) (word : UInt16) :
    (store16 bytes offset word).length = bytes.length := by
  simp [store16]

/-- A word that is stored leaves the other bytes alone. -/
theorem getD_store16_of_ne {index offset : Nat} (hfirst : offset ≠ index)
    (hsecond : offset + 1 ≠ index) (bytes : List UInt8) (word : UInt16) :
    (store16 bytes offset word).getD index 0 = bytes.getD index 0 := by
  rw [store16, List.getD_eq_getElem?_getD, List.getD_eq_getElem?_getD,
    List.getElem?_set_ne hsecond, List.getElem?_set_ne hfirst]

theorem byteAt_store16_of_lt {index offset : Nat} (h : index < offset) (bytes : List UInt8)
    (word : UInt16) : byteAt (store16 bytes offset word) index = byteAt bytes index :=
  congrArg UInt8.toNat (getD_store16_of_ne (by omega) (by omega) bytes word)

theorem load16_store16 {bytes : List UInt8} {offset : Nat} (h : offset + 1 < bytes.length)
    (word : UInt16) : load16 (store16 bytes offset word) offset = word := by
  have hword : word.toNat < 65536 := word.toNat_lt
  have hlt : offset < bytes.length := by omega
  apply UInt16.toNat_inj.mp
  simp [load16, store16, byteAt, h, hlt]
  omega

theorem exists_append_of_lt {bytes : List UInt8} {offset : Nat} (h : offset + 1 < bytes.length) :
    ∃ pre low high post, bytes = pre ++ low :: high :: post ∧ pre.length = offset := by
  have hlt : offset < bytes.length := Nat.lt_of_succ_lt h
  refine ⟨bytes.take offset, bytes[offset], bytes[offset + 1], bytes.drop (offset + 2), ?_, ?_⟩
  · rw [List.getElem_cons_drop, List.getElem_cons_drop, List.take_append_drop]
  · exact List.length_take_of_le (Nat.le_of_lt hlt)

theorem store16_append (pre : List UInt8) (low high : UInt8) (post : List UInt8) (word : UInt16) :
    store16 (pre ++ low :: high :: post) pre.length word =
      pre ++ .ofNat (word.toNat % 256) :: .ofNat (word.toNat / 256) :: post := by
  rw [store16, List.set_append_right _ _ (Nat.le_refl _), Nat.sub_self,
    List.set_append_right _ _ (Nat.le_add_right _ 1), Nat.add_sub_cancel_left]
  rfl

theorem load16_append_word (pre : List UInt8) (low high : UInt8) (post : List UInt8) :
    (load16 (pre ++ low :: high :: post) pre.length).toNat = low.toNat + 256 * high.toNat := by
  have hlow := low.toNat_lt
  have hhigh := high.toNat_lt
  rw [← Nat.add_zero pre.length, load16_append_right, load16, UInt16.toNat_ofNat']
  simp only [byteAt, List.getD_cons_zero, Nat.zero_add, List.getD_cons_succ]
  exact Nat.mod_eq_of_lt (by omega)

def swap16 (word : UInt16) : UInt16 :=
  .ofNat (word.toNat % 256 * 256 + word.toNat / 256)

theorem toNat_swap16 (word : UInt16) :
    (swap16 word).toNat = word.toNat % 256 * 256 + word.toNat / 256 := by
  have hword : word.toNat < 65536 := word.toNat_lt
  rw [swap16, UInt16.toNat_ofNat']
  exact Nat.mod_eq_of_lt (by omega)

@[simp] theorem swap16_swap16 (word : UInt16) : swap16 (swap16 word) = word := by
  have hword : word.toNat < 65536 := word.toNat_lt
  apply UInt16.toNat_inj.mp
  rw [toNat_swap16, toNat_swap16]
  omega

def swap32 (word : UInt32) : UInt32 :=
  .ofNat (word.toNat % 256 * 16777216 + word.toNat / 256 % 256 * 65536 +
    word.toNat / 65536 % 256 * 256 + word.toNat / 16777216)

theorem toNat_swap32 (word : UInt32) :
    (swap32 word).toNat =
      word.toNat % 256 * 16777216 + word.toNat / 256 % 256 * 65536 +
        word.toNat / 65536 % 256 * 256 + word.toNat / 16777216 := by
  have hword : word.toNat < 4294967296 := word.toNat_lt
  rw [swap32, UInt32.toNat_ofNat']
  exact Nat.mod_eq_of_lt (by omega)

theorem toNat_swap32_digits {word : UInt32} {a b c d : Nat}
    (ha : a < 256) (hb : b < 256) (hc : c < 256)
    (hword : word.toNat = a + 256 * b + 65536 * c + 16777216 * d) :
    (swap32 word).toNat = d + 256 * c + 65536 * b + 16777216 * a := by
  have hdigit₀ : word.toNat % 256 = a := by omega
  have hdigit₁ : word.toNat / 256 % 256 = b := by omega
  have hdigit₂ : word.toNat / 65536 % 256 = c := by omega
  have hdigit₃ : word.toNat / 16777216 = d := by omega
  rw [toNat_swap32, hdigit₀, hdigit₁, hdigit₂, hdigit₃]
  omega

@[simp] theorem swap32_swap32 (word : UInt32) : swap32 (swap32 word) = word := by
  have hlt : word.toNat < 4294967296 := word.toNat_lt
  obtain ⟨a, b, c, d, ha, hb, hc, hd, hword⟩ :
      ∃ a b c d, a < 256 ∧ b < 256 ∧ c < 256 ∧ d < 256 ∧
        word.toNat = a + 256 * b + 65536 * c + 16777216 * d :=
    ⟨word.toNat % 256, word.toNat / 256 % 256, word.toNat / 65536 % 256,
      word.toNat / 16777216, by omega, by omega, by omega, by omega, by omega⟩
  apply UInt32.toNat_inj.mp
  rw [toNat_swap32_digits hd hc hb (toNat_swap32_digits ha hb hc hword), hword]

def slice (bytes : List UInt8) (first last : Nat) : List UInt8 :=
  (bytes.drop first).take (last - first)

theorem slice_length {bytes : List UInt8} {first last : Nat}
    (hlast : last ≤ bytes.length) : (slice bytes first last).length = last - first := by
  simp only [slice, List.length_take, List.length_drop]
  omega

end MuQuinet.Lib.Words
