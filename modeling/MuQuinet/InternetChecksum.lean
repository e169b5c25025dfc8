import MuQuinet.Lib.Loops
import MuQuinet.Checksums
import MuQuinet.Rpc
import MuQuinet.Transmit

namespace MuQuinet.InternetChecksum

open MuQuinet.Lib.Loops
open MuQuinet.Lib.OnesComplement
open MuQuinet.Lib.Words
open MuQuinet.Checksums
open MuQuinet.Rpc
open MuQuinet.TcpLayer
open MuQuinet.Transmit
open MuQuinet.Wire

/-- The variables of the inner loop; `ptr` counts the bytes from `addr`. -/
structure Inner where
  ptr : Nat
  count : Int32
  sum : UInt32
deriving DecidableEq, Repr

def innerGuard (s : Inner) : Bool :=
  1 < s.count

def innerLoop (addr : List UInt8) (s : Inner) : Inner :=
  { ptr := s.ptr + 2
    count := s.count - 2
    sum := s.sum + (load16 addr s.ptr).toUInt32 }

def leftOver (addr : List UInt8) (s : Inner) : UInt32 :=
  if 0 < s.count then s.sum + (addr.getD s.ptr 0).toUInt32 else s.sum

/-- The inner loop and the left-over byte. -/
def addWords (fuel : Nat) (addr : List UInt8) (count : Int32) (sum : UInt32) : Option UInt32 :=
  (run innerGuard (innerLoop addr) fuel { ptr := 0, count := count, sum := sum }).map
    (leftOver addr)

def carries (sum : UInt32) : Bool :=
  sum >>> 16 != 0

def fold (sum : UInt32) : UInt32 :=
  (sum &&& (0xffff : UInt32)) + (sum >>> (16 : UInt32))

/-- `InternetChecksum::checksum` on the memory from `addr` on, each of its loops given up
after `fuel` tests. -/
def checksum (fuel : Nat) (addr : List UInt8) (count startSum : Int32) : Option UInt32 :=
  (addWords fuel addr count startSum.toUInt32).bind fun sum =>
    (run carries fold fuel sum).map fun sum => ~~~ sum

/-- The sum that `TcpPcb::prepareBeforeIpTx` takes over the payload and passes on as the
start. -/
def payloadSum (fuel : Nat) (buf : List UInt8) : Option UInt32 :=
  if buf.length ≠ 0 then addWords fuel buf (.ofNat buf.length) 0 else some 0

section Loops

/-- What the inner loop has left of a buffer, and of its sum. -/
structure Remaining (bytes : List UInt8) (start : UInt32) (s : Inner) : Prop where
  ptr_le : s.ptr ≤ bytes.length
  count_eq : s.count.toInt = bytes.length - s.ptr
  sum_eq : wordSum s.sum (bytes.drop s.ptr) = wordSum start bytes

variable {bytes beyond : List UInt8} {start : UInt32}

theorem toUInt32_load16 {ptr : Nat} (h : ptr + 1 < bytes.length) (beyond : List UInt8) :
    ∃ low high, bytes.drop ptr = low :: high :: bytes.drop (ptr + 2) ∧
      (load16 (bytes ++ beyond) ptr).toUInt32 = .ofNat (low.toNat + 256 * high.toNat) := by
  obtain ⟨pre, low, high, post, rfl, rfl⟩ := exists_append_of_lt h
  refine ⟨low, high, ?_, ?_⟩
  · have hdrop : (pre ++ low :: high :: post).drop (pre.length + 2) = post := by
      rw [List.append_cons, List.append_cons]
      exact List.drop_left' (by simp)
    rw [List.drop_left, hdrop]
  · have hlow := low.toNat_lt
    have hhigh := high.toNat_lt
    apply UInt32.toNat_inj.mp
    rw [UInt16.toNat_toUInt32, List.append_assoc, List.cons_append, List.cons_append,
      load16_append_word, UInt32.toNat_ofNat']
    exact (Nat.mod_eq_of_lt (by omega)).symm

theorem innerGuard_eq_true_iff (s : Inner) : innerGuard s = true ↔ 1 < s.count.toInt := by
  rw [innerGuard, decide_eq_true_eq]
  exact Int32.lt_iff_toInt_lt

theorem Remaining.inner {s : Inner} (h : Remaining bytes start s) (hguard : innerGuard s = true)
    (beyond : List UInt8) :
    Remaining bytes start (innerLoop (bytes ++ beyond) s) ∧
      (innerLoop (bytes ++ beyond) s).count.toInt.toNat < s.count.toInt.toNat := by
  obtain ⟨hptr, hcount, hsum⟩ := h
  rw [innerGuard_eq_true_iff] at hguard
  have hsub : (s.count - 2).toInt = s.count.toInt - 2 := by
    have hlt := s.count.toInt_lt
    have htwo : (2 : Int32).toInt = 2 := rfl
    rw [Int32.toInt_sub, htwo]
    exact Int.bmod_eq_of_le (by omega) (by omega)
  obtain ⟨low, high, hdrop, hload⟩ := toUInt32_load16 (by omega : s.ptr + 1 < bytes.length) beyond
  refine ⟨⟨?_, ?_, ?_⟩, ?_⟩
  · simp only [innerLoop]
    omega
  · simp only [innerLoop]
    omega
  · rw [hdrop, wordSum] at hsum
    simp only [innerLoop]
    rw [hload]
    exact hsum
  · simp only [innerLoop]
    omega

theorem Remaining.leftOver {s : Inner} (h : Remaining bytes start s)
    (hguard : innerGuard s = false) (beyond : List UInt8) :
    InternetChecksum.leftOver (bytes ++ beyond) s = wordSum start bytes := by
  obtain ⟨hptr, hcount, hsum⟩ := h
  rw [← Bool.not_eq_true, innerGuard_eq_true_iff] at hguard
  have hleft : 0 < s.count ↔ 0 < s.count.toInt := Int32.lt_iff_toInt_lt
  have hend : bytes.length ≤ s.ptr + 1 := by omega
  unfold InternetChecksum.leftOver
  split
  · rename_i hpos
    rw [hleft] at hpos
    have hlt : s.ptr < bytes.length := by omega
    have hlast : bytes.drop s.ptr = [bytes[s.ptr]] := by
      rw [List.drop_eq_getElem_cons hlt, List.drop_eq_nil_of_le hend]
    rw [← hsum, hlast, wordSum, List.getD_append _ _ _ _ hlt, List.getD_eq_getElem _ _ hlt,
      UInt32.ofNat_uInt8ToNat]
  · rename_i hnone
    rw [hleft] at hnone
    have hempty : bytes.length ≤ s.ptr := by omega
    rw [← hsum, List.drop_eq_nil_of_le hempty, wordSum]

/-- The loop adds up the words of the buffer and reads nothing behind it. -/
theorem returns_addWords {count : Int32} (hcount : count.toInt = bytes.length)
    (beyond : List UInt8) (start : UInt32) :
    Returns (fun fuel => addWords fuel (bytes ++ beyond) count start) (wordSum start bytes) := by
  have hstart : Remaining bytes start { ptr := 0, count := count, sum := start } := by
    refine ⟨Nat.zero_le _, ?_, rfl⟩
    rw [hcount]
    exact (Int.sub_zero _).symm
  obtain ⟨t, hreturns, hremaining, hguard⟩ := exists_returns_run
    (fun s : Inner => s.count.toInt.toNat) (fun s hs hguard => hs.inner hguard beyond) hstart
  rw [← hremaining.leftOver hguard beyond]
  exact hreturns.map (leftOver (bytes ++ beyond))

theorem toNat_shiftRight (sum : UInt32) : (sum >>> (16 : UInt32)).toNat = sum.toNat / 65536 :=
  Nat.shiftRight_eq_div_pow sum.toNat 16

theorem toNat_fold (sum : UInt32) :
    (fold sum).toNat = sum.toNat % 65536 + sum.toNat / 65536 := by
  have hlt := sum.toNat_lt
  have hlow : (sum &&& (0xffff : UInt32)).toNat = sum.toNat % 65536 :=
    Nat.and_two_pow_sub_one_eq_mod sum.toNat 16
  rw [fold, UInt32.toNat_add, hlow, toNat_shiftRight]
  exact Nat.mod_eq_of_lt (by omega)

theorem carries_eq_true_iff (sum : UInt32) : carries sum = true ↔ sum.toNat / 65536 ≠ 0 := by
  rw [carries, bne_iff_ne, ne_eq, ← UInt32.toNat_inj, toNat_shiftRight, UInt32.toNat_zero]

/-- Folding keeps what there is to fold to, and makes the sum smaller. -/
theorem foldSum_fold {sum : UInt32} (h : carries sum = true) :
    foldSum (fold sum).toNat = foldSum sum.toNat ∧ (fold sum).toNat < sum.toNat := by
  rw [carries_eq_true_iff] at h
  constructor
  · rw [toNat_fold]
    conv_rhs => rw [foldSum, if_neg h]
  · rw [toNat_fold]
    omega

/-- The folding loop ends, whatever it starts from. -/
theorem returns_fold (sum : UInt32) :
    Returns (fun fuel => run carries fold fuel sum) (.ofNat (foldSum sum.toNat)) := by
  have hbody : ∀ s : UInt32, foldSum s.toNat = foldSum sum.toNat → carries s = true →
      foldSum (fold s).toNat = foldSum sum.toNat ∧ (fold s).toNat < s.toNat := by
    intro s hs hguard
    obtain ⟨hkept, hless⟩ := foldSum_fold hguard
    exact ⟨hkept.trans hs, hless⟩
  obtain ⟨t, hreturns, hkept, hguard⟩ := exists_returns_run UInt32.toNat hbody rfl
  rw [← Bool.not_eq_true, carries_eq_true_iff, not_not] at hguard
  rw [foldSum, if_pos hguard] at hkept
  rw [← hkept, UInt32.ofNat_toNat]
  exact hreturns

/-- `InternetChecksum::checksum` returns, and the round trip of its start through `int`
loses nothing. -/
theorem returns_checksum {count : Int32} (hcount : count.toInt = bytes.length)
    (beyond : List UInt8) (start : UInt32) :
    Returns (fun fuel => checksum fuel (bytes ++ beyond) count start.toInt32)
      (Wire.checksum bytes start) := by
  have hfolded := (returns_fold (wordSum start bytes)).map fun sum => ~~~ sum
  exact (returns_addWords hcount beyond start).bind hfolded

theorem returns_payloadSum {buf : List UInt8} (h : buf.length < 2 ^ 31) :
    Returns (fun fuel => payloadSum fuel buf) (wordSum 0 buf) := by
  unfold payloadSum
  split
  · have hsum := returns_addWords (Int32.toInt_ofNat_of_lt h) [] 0
    rw [List.append_nil] at hsum
    exact hsum
  · rename_i hempty
    obtain rfl := List.length_eq_zero_iff.mp (not_not.mp hempty)
    exact returns_const 0

end Loops

/-- The calls of `InternetChecksum::checksum`, by the buffer and the start, with the payloads
that the RPC layer admits. -/
inductive Called : List UInt8 → UInt32 → Prop
  | prepareBeforeIpTx (ipovly : IpHeaderOverlay) (hdr : TcpHeader) {buf : List UInt8}
      {sum : UInt32} : buf.length ≤ rpcMessageMaxSize →
      Returns (fun fuel => payloadSum fuel buf) sum →
      Called ((ipovly.bytes ++ hdr.bytes).take (hdr.doff * 4 + 20)) sum
  | tx (hdrs : List UInt8) : Called (hdrs.take (20 / 4 * 4)) 0

theorem called_prepareBeforeIpTx (pcb : TcpPcb) (hdr : TcpHeader) {buf : List UInt8}
    (h : buf.length ≤ rpcMessageMaxSize) : ∃ bytes start, Called bytes start ∧
      (pcb.prepareBeforeIpTx hdr buf).hdr.check = (Wire.checksum bytes start).toUInt16 := by
  have hlt : buf.length < 2 ^ 31 := Nat.lt_of_le_of_lt h (by decide)
  exact ⟨_, _, .prepareBeforeIpTx _ hdr h (returns_payloadSum hlt), rfl⟩

theorem called_tx (gen : IpIdGenerator) (hdrs userPayload : List UInt8) :
    ∃ filled start, Called (filled.take 20) start ∧
      (tx gen hdrs userPayload).2 =
        store16 filled 10 (Wire.checksum (filled.take 20) start).toUInt16 ++ userPayload :=
  ⟨_, 0, .tx _, rfl⟩

theorem fits_of_called {bytes : List UInt8} {start : UInt32} (h : Called bytes start) :
    Fits start bytes := by
  cases h with
  | @prepareBeforeIpTx ipovly hdr buf _ hlength hsum =>
      have hlt : buf.length < 2 ^ 31 := Nat.lt_of_le_of_lt hlength (by decide)
      obtain rfl := hsum.unique (returns_payloadSum hlt)
      have hheaders := List.length_take_le' (hdr.doff * 4 + 20) (ipovly.bytes ++ hdr.bytes)
      rw [List.length_append, IpHeaderOverlay.length_bytes, TcpHeader.length_bytes] at hheaders
      unfold rpcMessageMaxSize at hlength
      exact fits_wordSum (by omega)
  | tx hdrs =>
      have hheader := List.length_take_le (20 / 4 * 4) hdrs
      exact fits_of_length_le (by omega)

/-- `InternetChecksum::checksum` returns, reads its buffer only, and complements the one's
complement sum of the words and its start, as long as these fit, which they do in every
call.  A buffer may be cut at even offsets, and a checksum stored into it completes it. -/
theorem checksum_complements {bytes : List UInt8} {count : Int32} {start : UInt32}
    (hcount : count.toInt = bytes.length) (hfits : Fits start bytes) :
    (∀ beyond, Returns (fun fuel => checksum fuel (bytes ++ beyond) count start.toInt32)
      (Wire.checksum bytes start)) ∧
    (Wire.checksum bytes start).toUInt16 =
      ~~~ .ofNat (sum 65535 (words littleEndian bytes ++ halves start.toNat)) ∧
    (∀ offset, offset % 2 = 0 → offset ≤ bytes.length →
      Wire.checksum (bytes.drop offset) (wordSum start (bytes.take offset)) =
          Wire.checksum bytes start ∧
        Wire.checksum (bytes.take offset) (wordSum start (bytes.drop offset)) =
          Wire.checksum bytes start) ∧
    (start = 0 → ∀ offset, offset % 2 = 0 → offset + 1 < bytes.length → load16 bytes offset = 0 →
      (Wire.checksum (store16 bytes offset (Wire.checksum bytes start).toUInt16) 0).toUInt16 = 0) ∧
    ∀ bytes start, Called bytes start → Fits start bytes := by
  refine ⟨?_, toUInt16_checksum hfits, ?_, ?_, fun _ _ => fits_of_called⟩
  · intro beyond
    exact returns_checksum hcount beyond start
  · intro offset heven hle
    exact checksum_cut heven hle start
  · rintro rfl offset heven hlt hzero
    exact checksum_store16 heven hlt hzero hfits

def sampleBytes : List UInt8 := [0x00, 0x01, 0xf2, 0x03, 0xf4, 0xf5, 0xf6, 0xf7]

/-- A header with a zeroed field at offset 2. -/
def sampleZeroed : List UInt8 := [0x45, 0x00, 0x00, 0x00, 0xf2, 0x03]

theorem sample_checksums :
    Returns (fun fuel => checksum fuel (sampleBytes ++ [0xff]) 8 (-2147483648))
        (Wire.checksum sampleBytes 0x80000000) ∧
      (Wire.checksum sampleBytes 0x80000000).toUInt16 = 0x8d21 ∧
      (Wire.checksum (store16 sampleZeroed 2 (Wire.checksum sampleZeroed 0).toUInt16) 0).toUInt16 =
        0 := by
  have hfits : Fits 0x80000000 sampleBytes := by
    unfold Fits
    decide
  have hzeroed : Fits 0 sampleZeroed := fits_of_length_le (by decide)
  have hcount : (8 : Int32).toInt = sampleBytes.length := rfl
  obtain ⟨hreturns, hcomplements, -⟩ := checksum_complements hcount hfits
  have hcount' : (6 : Int32).toInt = sampleZeroed.length := rfl
  obtain ⟨-, -, -, hstored, -⟩ := checksum_complements hcount' hzeroed
  refine ⟨hreturns [0xff], ?_, hstored rfl 2 rfl (by decide) rfl⟩
  rw [hcomplements]
  decide

example : (checksum 5 sampleBytes 8 (-2147483648)).map UInt32.toUInt16 = some 0x8d21 := by decide

end MuQuinet.InternetChecksum
