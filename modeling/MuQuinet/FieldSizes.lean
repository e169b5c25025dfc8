import MuQuinet.Lib.WireFormat
import MuQuinet.Rpc

namespace MuQuinet.FieldSizes

open MuQuinet.Lib.WireFormat
open MuQuinet.Rpc

variable {σ τ : Type} (w : Writer)

theorem length_varint (x : UInt64) : (w.varint x).length = varintSize x.toNat :=
  w.length_varint x

theorem length_varint_ofNat {n : Nat} (hn : n < 18446744073709551616) :
    (w.varint (.ofNat n)).length = varintSize n := by
  rw [length_varint, UInt64.toNat_ofNat', Nat.mod_eq_of_lt hn]

theorem length_tag {number wireType : Nat} (hnumber : number < 16) (htype : wireType < 8) :
    (w.varint (.ofNat (makeTag number wireType))).length = 1 := by
  have htag : makeTag number wireType < 128 := by
    unfold makeTag
    omega
  rw [length_varint_ofNat w (by omega), varintSize_of_lt htag]

theorem varintSize_int32 (x : Int32) : varintSize (int32Varint x).toNat = int32Size x := by
  rw [toNat_int32Varint, int32Size]
  split
  · have hlower := x.le_toInt
    have hlog : Nat.log2 (x.toInt + 18446744073709551616).toNat = 63 := by
      rw [Nat.log2_eq_log_two]
      exact Nat.log_eq_of_pow_le_of_lt_pow (by omega) (by omega)
    rw [varintSize, hlog]
  · rfl

theorem length_record_int32 {number : Nat} (hnumber : number < 16) (get : σ → Option Int32)
    (m : σ) : (record w (.int32 w number get) m).length = optionalSize int32FieldSize (get m) := by
  rw [length_record]
  change ((get m).map fun x => w.varint (int32Varint x)).elim _ _ = _
  rcases get m with _ | x
  · rfl
  · change (w.varint (.ofNat (makeTag number wiretypeVarint))).length +
      (w.varint (int32Varint x)).length = 1 + int32Size x
    rw [length_tag w hnumber (by decide), length_varint, varintSize_int32]

theorem length_record_bool {number : Nat} (hnumber : number < 16) (get : σ → Option Bool)
    (m : σ) : (record w (.bool w number get) m).length = optionalSize (fun _ => 2) (get m) := by
  rw [length_record]
  change ((get m).map fun b => w.varint (boolVarint b)).elim _ _ = _
  rcases get m with _ | b
  · rfl
  · change (w.varint (.ofNat (makeTag number wiretypeVarint))).length +
      (w.varint (boolVarint b)).length = 2
    rw [length_tag w hnumber (by decide), length_varint]
    cases b <;> rfl

theorem length_record_uint64 {number : Nat} (hnumber : number < 16) (get : σ → Option UInt64)
    (m : σ) :
    (record w (.uint64 w number get) m).length =
      optionalSize (fun x => 1 + varintSize x.toNat) (get m) := by
  rw [length_record]
  change ((get m).map fun x => w.varint x).elim _ _ = _
  rcases get m with _ | x
  · rfl
  · change (w.varint (.ofNat (makeTag number wiretypeVarint))).length +
      (w.varint x).length = 1 + varintSize x.toNat
    rw [length_tag w hnumber (by decide), length_varint]

theorem length_record_bytes {number : Nat} (hnumber : number < 16)
    (get : σ → Option (List UInt8)) {m : σ}
    (hlength : ∀ bytes ∈ get m, bytes.length < 18446744073709551616) :
    (record w (.bytes w number get) m).length = optionalSize bytesFieldSize (get m) := by
  rw [length_record]
  change ((get m).map fun bytes => w.varint (.ofNat bytes.length) ++ bytes).elim _ _ = _
  rcases hget : get m with _ | bytes
  · rfl
  · change (w.varint (.ofNat (makeTag number wiretypeLengthDelimited))).length +
      (w.varint (.ofNat bytes.length) ++ bytes).length = bytesFieldSize bytes
    rw [length_tag w hnumber (by decide), List.length_append,
      length_varint_ofNat w (hlength bytes hget), bytesFieldSize]
    omega

/-- Of the fields with a message, one has a number whose tag takes two bytes. -/
theorem length_record_message {number : Nat} (get : σ → Option τ) (byteSize : τ → Nat)
    (fields : List (FieldWriter τ)) {m : σ} {sub : τ} (hget : get m = some sub)
    (hsize : byteSize sub = (serialize w fields sub).length)
    (hlt : byteSize sub < 18446744073709551616) (hnumber : number < 2048) :
    (record w (.message w number get byteSize fields) m).length =
      (if number < 16 then 1 else 2) + (varintSize (byteSize sub) + byteSize sub) := by
  have htag : (w.varint (.ofNat (makeTag number wiretypeLengthDelimited))).length =
      if number < 16 then 1 else 2 := by
    split
    · rename_i hsmall
      exact length_tag w hsmall (by decide)
    · rename_i hlarge
      have hmakeTag : makeTag number wiretypeLengthDelimited = 8 * number + 2 := rfl
      have hlog : 7 ≤ Nat.log2 (8 * number + 2) ∧ Nat.log2 (8 * number + 2) < 14 := by
        rw [Nat.log2_eq_log_two]
        exact ⟨Nat.le_log_of_pow_le (by decide) (by omega),
          Nat.log_lt_of_lt_pow (by omega) (by omega)⟩
      rw [hmakeTag, length_varint_ofNat w (by omega), varintSize]
      omega
  rw [length_record]
  change ((get m).map fun sub =>
    w.varint (.ofNat (byteSize sub)) ++ serialize w fields sub).elim _ _ = _
  rw [hget, Option.map_some, Option.elim_some]
  change (w.varint (.ofNat (makeTag number wiretypeLengthDelimited))).length +
    (w.varint (.ofNat (byteSize sub)) ++ serialize w fields sub).length = _
  rw [htag, List.length_append, length_varint_ofNat w hlt, ← hsize]

theorem length_record_message_of_none {number : Nat} (get : σ → Option τ) (byteSize : τ → Nat)
    (fields : List (FieldWriter τ)) {m : σ} (hget : get m = none) :
    (record w (.message w number get byteSize fields) m).length = 0 := by
  rw [length_record]
  change ((get m).map fun sub =>
    w.varint (.ofNat (byteSize sub)) ++ serialize w fields sub).elim _ _ = _
  rw [hget]
  rfl

end MuQuinet.FieldSizes
