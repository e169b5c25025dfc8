import MuQuinet.Lib.WireFormat

namespace MuQuinet.Lib.Base128

open MuQuinet.Lib.WireFormat

/-- The digits of a number in base 128, the least significant first; all but the last
have their high bit set. -/
def digits : Nat → Nat → List UInt8
  | 0, _ => []
  | count + 1, n =>
      if n < 128 then [.ofNat n] else .ofNat (n % 128 + 128) :: digits count (n / 128)

def number : Nat → List UInt8 → Option (Nat × List UInt8)
  | 0, _ => none
  | _ + 1, [] => none
  | count + 1, digit :: rest =>
      if digit.toNat < 128 then some (digit.toNat, rest)
      else (number count rest).map fun (n, rest) => (digit.toNat - 128 + 128 * n, rest)

theorem div_lt_pow {count n : Nat} (hn : n < 128 ^ (count + 1)) : n / 128 < 128 ^ count := by
  rw [Nat.pow_succ, Nat.mul_comm] at hn
  exact Nat.div_lt_of_lt_mul hn

theorem length_digits {count n : Nat} (hcount : 0 < count) (hn : n < 128 ^ count) :
    (digits count n).length = Nat.log2 n / 7 + 1 := by
  induction count generalizing n with
  | zero => exact absurd hcount (Nat.lt_irrefl 0)
  | succ count ih =>
      rw [digits]
      split
      · rename_i hlt
        have hlog : Nat.log2 n < 7 := by
          rcases Nat.eq_zero_or_pos n with rfl | hpos
          · decide
          · exact (Nat.log2_lt (Nat.ne_of_gt hpos)).mpr hlt
        rw [Nat.div_eq_of_lt hlog, List.length_singleton]
      · rename_i hge
        have hquotient := div_lt_pow hn
        have hcount' : 0 < count := by
          rcases Nat.eq_zero_or_pos count with rfl | hpos
          · omega
          · exact hpos
        have hlog : Nat.log2 n = Nat.log2 (n / 128) + 7 := by
          have hpow : Nat.log 2 (n / 128) = Nat.log 2 n - 7 := Nat.log_div_base_pow 2 n 7
          have hle : 7 ≤ Nat.log 2 n := Nat.le_log_of_pow_le (by decide) (by omega)
          rw [Nat.log2_eq_log_two, Nat.log2_eq_log_two]
          omega
        rw [List.length_cons, ih hcount' hquotient, hlog]
        omega

theorem number_digits {count n : Nat} (hn : n < 128 ^ count) (hcount : 0 < count)
    (rest : List UInt8) : number count (digits count n ++ rest) = some (n, rest) := by
  induction count generalizing n with
  | zero => exact absurd hcount (Nat.lt_irrefl 0)
  | succ count ih =>
      rw [digits]
      split
      · rename_i hlt
        have hdigit : (UInt8.ofNat n).toNat = n := by
          rw [UInt8.toNat_ofNat']
          omega
        simp only [List.singleton_append, number, hdigit, hlt, if_true]
      · rename_i hge
        have hquotient := div_lt_pow hn
        have hcount' : 0 < count := by
          rcases Nat.eq_zero_or_pos count with rfl | hpos
          · omega
          · exact hpos
        have hdigit : (UInt8.ofNat (n % 128 + 128)).toNat = n % 128 + 128 := by
          rw [UInt8.toNat_ofNat']
          omega
        have hhigh : ¬ n % 128 + 128 < 128 := by omega
        simp only [List.cons_append, number, hdigit, hhigh, if_false, ih hquotient hcount',
          Option.map_some, Option.some.injEq, Prod.mk.injEq, and_true]
        omega

theorem number_shrinks {count n : Nat} {bytes rest : List UInt8}
    (h : number count bytes = some (n, rest)) : rest.length < bytes.length := by
  induction count generalizing bytes n with
  | zero => cases h
  | succ count ih =>
      rcases bytes with _ | ⟨digit, bytes⟩
      · cases h
      · rw [number] at h
        split at h
        · cases h
          exact Nat.lt_succ_self _
        · obtain ⟨⟨m, rest'⟩, hnumber, heq⟩ := Option.map_eq_some_iff.mp h
          cases heq
          exact (ih hnumber).trans (Nat.lt_succ_self _)

/-- A word of 64 bits takes at most ten digits. -/
theorem toNat_lt_pow (x : UInt64) : x.toNat < 128 ^ 10 :=
  x.toNat_lt.trans (by decide)

def writer : Writer where
  varint x := digits 10 x.toNat
  length_varint x := length_digits (by decide) (toNat_lt_pow x)

def readVarint (bytes : List UInt8) : Option (UInt64 × List UInt8) :=
  (number 10 bytes).map fun (n, rest) => (.ofNat n, rest)

def readRaw (n : Nat) (bytes : List UInt8) : List UInt8 × Option (List UInt8) :=
  if n ≤ bytes.length then (bytes.take n, some (bytes.drop n)) else ([], none)

def pushLimit (n : Nat) (bytes : List UInt8) : Option (List UInt8 × List UInt8) :=
  if n ≤ bytes.length then some (bytes.take n, bytes.drop n) else none

/-- The payloads of a number of bytes that is known before, by their wire type. -/
def skipField (tag : Nat) (bytes : List UInt8) : Option (List UInt8) :=
  if tag % 8 = wiretypeVarint then (readVarint bytes).map Prod.snd
  else if tag % 8 = wiretypeLengthDelimited then
    (readVarint bytes).bind fun (x, rest) => (readRaw (x.toNat % 4294967296) rest).2
  else if tag % 8 = 1 then (readRaw 8 bytes).2
  else if tag % 8 = 5 then (readRaw 4 bytes).2
  else none

def expectTag (tag : Nat) (bytes : List UInt8) : Option (List UInt8) :=
  (readVarint bytes).bind fun (x, rest) => if x.toNat % 4294967296 = tag then some rest else none

theorem readVarint_shrinks {bytes rest : List UInt8} {x : UInt64}
    (h : readVarint bytes = some (x, rest)) : rest.length < bytes.length := by
  obtain ⟨⟨n, rest'⟩, hnumber, heq⟩ := Option.map_eq_some_iff.mp h
  cases heq
  exact number_shrinks hnumber

theorem readRaw_shrinks {n : Nat} {bytes rest : List UInt8} (h : (readRaw n bytes).2 = some rest) :
    rest.length ≤ bytes.length := by
  unfold readRaw at h
  split at h
  · cases h
    rw [List.length_drop]
    exact Nat.sub_le _ _
  · cases h

theorem skipField_shrinks {tag : Nat} {bytes rest : List UInt8}
    (h : skipField tag bytes = some rest) : rest.length ≤ bytes.length := by
  unfold skipField at h
  split at h
  · obtain ⟨⟨x, rest'⟩, hvarint, rfl⟩ := Option.map_eq_some_iff.mp h
    exact Nat.le_of_lt (readVarint_shrinks hvarint)
  · split at h
    · obtain ⟨⟨x, rest'⟩, hvarint, hraw⟩ := Option.bind_eq_some_iff.mp h
      exact (readRaw_shrinks hraw).trans (Nat.le_of_lt (readVarint_shrinks hvarint))
    · split at h
      · exact readRaw_shrinks h
      · split at h
        · exact readRaw_shrinks h
        · cases h

def reader : Reader where
  varint := readVarint
  raw := readRaw
  limit := pushLimit
  skipField := skipField
  expectTag := expectTag
  varint_shrinks := readVarint_shrinks
  raw_shrinks := readRaw_shrinks
  limit_shrinks {n bytes inner rest} h := by
    unfold pushLimit at h
    split at h
    · cases h
      rw [List.length_drop]
      exact Nat.sub_le _ _
    · cases h
  skipField_shrinks := skipField_shrinks
  expectTag_varint {tag bytes rest} h := by
    obtain ⟨⟨x, rest'⟩, hvarint, htag⟩ := Option.bind_eq_some_iff.mp h
    dsimp only at htag
    split at htag
    · rename_i heq
      cases htag
      exact ⟨x, hvarint, heq⟩
    · cases htag

theorem reads : reader.Reads writer := by
  constructor
  · intro x rest
    change (number 10 (digits 10 x.toNat ++ rest)).map _ = _
    rw [number_digits (toNat_lt_pow x) (by decide), Option.map_some]
    dsimp only
    rw [UInt64.ofNat_toNat]
  · intro bytes rest
    have hle : bytes.length ≤ (bytes ++ rest).length := by
      rw [List.length_append]
      exact Nat.le_add_right _ _
    change readRaw bytes.length (bytes ++ rest) = _
    rw [readRaw, if_pos hle, List.take_left, List.drop_left]
  · intro bytes rest
    have hle : bytes.length ≤ (bytes ++ rest).length := by
      rw [List.length_append]
      exact Nat.le_add_right _ _
    change pushLimit bytes.length (bytes ++ rest) = _
    rw [pushLimit, if_pos hle, List.take_left, List.drop_left]

end MuQuinet.Lib.Base128
