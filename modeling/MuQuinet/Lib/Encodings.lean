import Mathlib.Data.List.Forall2
import Mathlib.Data.List.Pairwise
import Mathlib.Data.List.ReduceOption
import Mathlib.Data.List.Perm.Basic
import Mathlib.Logic.Function.Conjugate
import MuQuinet.Lib.WireFormat

namespace MuQuinet.Lib.Encodings

open MuQuinet.Lib.WireFormat

/-- A field with all the payloads that encode it: `payload` is one of them, and the
others are as long. -/
structure FieldFormat (σ : Type) extends FieldWriter σ where
  Admits : σ → List UInt8 → Prop
  admits : ∀ {m bytes}, payload m = some bytes → Admits m bytes
  length_admitted : ∀ {m bytes}, Admits m bytes →
    (payload m).map List.length = some bytes.length

/-- The fields by their first payloads, in their own order. -/
def writers {σ : Type} (fields : List (FieldFormat σ)) : List (FieldWriter σ) :=
  fields.map FieldFormat.toFieldWriter

@[simp] theorem writers_nil {σ : Type} : writers ([] : List (FieldFormat σ)) = [] :=
  rfl

@[simp] theorem writers_cons {σ : Type} (field : FieldFormat σ) (fields : List (FieldFormat σ)) :
    writers (field :: fields) = field.toFieldWriter :: writers fields :=
  rfl

/-- The records of the fields that a message has. -/
inductive Records {σ : Type} (w : Writer) (m : σ) :
    List (FieldFormat σ) → List (List UInt8) → Prop
  | nil : Records w m [] []
  | absent {field : FieldFormat σ} {fields : List (FieldFormat σ)} {records : List (List UInt8)} :
      field.payload m = none → Records w m fields records → Records w m (field :: fields) records
  | present {field : FieldFormat σ} {fields : List (FieldFormat σ)}
      {records : List (List UInt8)} {payload : List UInt8} :
      field.Admits m payload → Records w m fields records →
      Records w m (field :: fields) ((w.varint (.ofNat field.tag) ++ payload) :: records)

/-- The fields that a message has follow each other in any order. -/
def Encodes {σ : Type} (w : Writer) (fields : List (FieldFormat σ)) (m : σ)
    (bytes : List UInt8) : Prop :=
  ∃ records order, Records w m fields records ∧ List.Perm order records ∧ bytes = order.flatten

section Writing

variable {σ ρ τ : Type} {w : Writer}

theorem Records.length_eq {m : σ} {fields : List (FieldFormat σ)} {records : List (List UInt8)}
    (h : Records w m fields records) :
    (records.map List.length).sum = (serialize w (writers fields) m).length := by
  induction h with
  | nil => rfl
  | absent hnone _ ih =>
      rw [writers_cons, length_serialize_cons, length_record, hnone, Option.elim_none,
        Nat.zero_add, ih]
  | present hadmits _ ih =>
      obtain ⟨payload, hpayload, hlength⟩ :=
        Option.map_eq_some_iff.mp (FieldFormat.length_admitted _ hadmits)
      rw [writers_cons, length_serialize_cons, List.map_cons, List.sum_cons, ih, length_record,
        hpayload, Option.elim_some, hlength, List.length_append]

/-- All the encodings of a message are as long. -/
theorem Encodes.length_eq {m : σ} {fields : List (FieldFormat σ)} {bytes : List UInt8}
    (h : Encodes w fields m bytes) :
    bytes.length = (serialize w (writers fields) m).length := by
  obtain ⟨records, order, hrecords, hperm, rfl⟩ := h
  rw [List.length_flatten, ← hrecords.length_eq]
  exact (hperm.map List.length).sum_nat

/-- A writer writes of one message what a field of another admits. -/
structure Conforms (writer : FieldWriter ρ) (field : FieldFormat σ) (source : ρ) (m : σ) :
    Prop where
  tag : writer.tag = field.tag
  absent : writer.payload source = none → field.payload m = none
  present : ∀ {payload}, writer.payload source = some payload → field.Admits m payload

theorem FieldFormat.conforms (field : FieldFormat σ) (m : σ) :
    Conforms field.toFieldWriter field m m :=
  ⟨rfl, id, field.admits⟩

theorem records_of_conforms {source : ρ} {m : σ} {writers : List (FieldWriter ρ)}
    {fields : List (FieldFormat σ)}
    (h : List.Forall₂ (fun writer field => Conforms writer field source m) writers fields) :
    ∃ records, Records w m fields records ∧ serialize w writers source = records.flatten := by
  induction h with
  | nil => exact ⟨[], .nil, rfl⟩
  | @cons writer field writers fields hfirst _ ih =>
      obtain ⟨records, hrecords, hserialize⟩ := ih
      rw [serialize, List.flatMap_cons, record]
      rcases hpayload : writer.payload source with _ | payload
      · exact ⟨records, .absent (hfirst.absent hpayload) hrecords, hserialize⟩
      · refine ⟨_, .present (hfirst.present hpayload) hrecords, ?_⟩
        rw [List.flatten_cons, ← hserialize, ← hfirst.tag]
        rfl

theorem encodes_of_conforms {source : ρ} {m : σ} {writers : List (FieldWriter ρ)}
    {fields : List (FieldFormat σ)}
    (h : List.Forall₂ (fun writer field => Conforms writer field source m) writers fields) :
    Encodes w fields m (serialize w writers source) := by
  obtain ⟨records, hrecords, hserialize⟩ := records_of_conforms (w := w) h
  exact ⟨records, records, hrecords, .refl _, hserialize⟩

/-- The fields in their own order are an encoding. -/
theorem encodes_serialize (fields : List (FieldFormat σ)) (m : σ) :
    Encodes w fields m (serialize w (writers fields) m) := by
  refine encodes_of_conforms ?_
  induction fields with
  | nil => exact .nil
  | cons field fields ih => exact .cons (field.conforms m) ih

theorem Encodes.ne_nil {m : σ} {field : FieldFormat σ} {fields : List (FieldFormat σ)}
    {bytes : List UInt8} (h : Encodes w fields m bytes) (hfield : field ∈ fields)
    (hpresent : field.payload m ≠ none) : bytes ≠ [] := by
  rintro rfl
  have hnil : serialize w (writers fields) m = [] :=
    List.length_eq_zero_iff.mp h.length_eq.symm
  have hrecord : record w field.toFieldWriter m = [] :=
    List.flatMap_eq_nil_iff.mp hnil _ (List.mem_map_of_mem hfield)
  obtain ⟨payload, hpayload⟩ := Option.ne_none_iff_exists'.mp hpresent
  rw [record, hpayload, Option.elim_some] at hrecord
  exact w.varint_ne_nil _ (List.append_eq_nil_iff.mp hrecord).1

end Writing

namespace FieldFormat

variable {σ τ α : Type} (w : Writer)

/-- A field with one payload alone. -/
def ofWriter (field : FieldWriter σ) : FieldFormat σ where
  toFieldWriter := field
  Admits m bytes := field.payload m = some bytes
  admits := id
  length_admitted h := by rw [h, Option.map_some]

def varint (number : Nat) (toVarint : α → UInt64) (get : σ → Option α) : FieldFormat σ :=
  ofWriter (.varint w number toVarint get)

def int32 (number : Nat) (get : σ → Option Int32) : FieldFormat σ :=
  varint w number int32Varint get

def uint64 (number : Nat) (get : σ → Option UInt64) : FieldFormat σ :=
  varint w number id get

def bool (number : Nat) (get : σ → Option Bool) : FieldFormat σ :=
  varint w number boolVarint get

def bytes (number : Nat) (get : σ → Option (List UInt8)) : FieldFormat σ :=
  ofWriter (.bytes w number get)

@[simp] theorem toFieldWriter_int32 (number : Nat) (get : σ → Option Int32) :
    (int32 w number get).toFieldWriter = .int32 w number get :=
  rfl

@[simp] theorem toFieldWriter_uint64 (number : Nat) (get : σ → Option UInt64) :
    (uint64 w number get).toFieldWriter = .uint64 w number get :=
  rfl

@[simp] theorem toFieldWriter_bool (number : Nat) (get : σ → Option Bool) :
    (bool w number get).toFieldWriter = .bool w number get :=
  rfl

@[simp] theorem toFieldWriter_bytes (number : Nat) (get : σ → Option (List UInt8)) :
    (bytes w number get).toFieldWriter = .bytes w number get :=
  rfl

/-- Inside another, too, the fields of a message are in any order. -/
def message (number : Nat) (get : σ → Option τ) (fields : List (FieldFormat τ)) :
    FieldFormat σ where
  toFieldWriter := .message w number get (fun sub => (serialize w (writers fields) sub).length)
    (writers fields)
  Admits m payload := ∃ sub bytes, get m = some sub ∧ Encodes w fields sub bytes ∧
    payload = w.varint (.ofNat bytes.length) ++ bytes
  admits {m payload} h := by
    obtain ⟨sub, hget, rfl⟩ := Option.map_eq_some_iff.mp h
    exact ⟨sub, _, hget, encodes_serialize fields sub, rfl⟩
  length_admitted {m payload} h := by
    obtain ⟨sub, bytes, hget, hencodes, rfl⟩ := h
    simp only [FieldWriter.message, hget, Option.map_some, List.length_append,
      hencodes.length_eq]

@[simp] theorem toFieldWriter_message (number : Nat) (get : σ → Option τ)
    (fields : List (FieldFormat τ)) :
    (message w number get fields).toFieldWriter =
      .message w number get (fun sub => (serialize w (writers fields) sub).length)
        (writers fields) :=
  rfl

end FieldFormat

/-- A message inside another is written under the length that its writer announces. -/
theorem conforms_message {σ ρ τ : Type} {w : Writer} (number : Nat) {get : ρ → Option τ}
    {get' : σ → Option τ} {byteSize : τ → Nat} (fields : List (FieldFormat τ)) {source : ρ} {m : σ}
    (hget : get source = get' m)
    (hsize : ∀ sub ∈ get' m, byteSize sub = (serialize w (writers fields) sub).length) :
    Conforms (.message w number get byteSize (writers fields)) (.message w number get' fields)
      source m := by
  refine ⟨rfl, ?_, ?_⟩
  · intro habsent
    rw [FieldFormat.toFieldWriter_message]
    exact Option.map_eq_none_iff.mpr (hget ▸ Option.map_eq_none_iff.mp habsent)
  · intro payload hpresent
    obtain ⟨sub, hsub, rfl⟩ := Option.map_eq_some_iff.mp hpresent
    rw [hget] at hsub
    exact ⟨sub, _, hsub, encodes_serialize fields sub, by rw [hsize sub hsub]⟩

section Reading

variable {σ ρ τ υ α β : Type} {w : Writer} {r : Reader}

/-- A reader puts into a message what a field of another holds. -/
structure Carries (field : FieldFormat σ) (reader : FieldReader ρ) (source : σ)
    (copy : Option (ρ → ρ)) : Prop where
  tag : field.tag = reader.tag
  absent : field.payload source = none → copy = none
  present : ∀ {payload}, field.Admits source payload → payload.length < 4294967296 →
    ∃ put, copy = some put ∧ ∀ m rest, reader.read m (payload ++ rest) = (put m, some rest)

theorem carries_varint (h : r.Reads w) (number : Nat) (toVarint : α → UInt64)
    (get : σ → Option α) (ofVarint : UInt64 → β) (set : ρ → β → ρ) (source : σ) :
    Carries (.varint w number toVarint get) (.varint r number ofVarint set) source
      ((get source).map fun a m => set m (ofVarint (toVarint a))) := by
  refine ⟨rfl, ?_, ?_⟩
  · intro habsent
    rw [Option.map_eq_none_iff.mp habsent, Option.map_none]
  · intro payload hpresent _
    obtain ⟨a, hget, rfl⟩ := Option.map_eq_some_iff.mp hpresent
    refine ⟨_, by rw [hget, Option.map_some], ?_⟩
    intro m rest
    simp only [FieldReader.varint, h.varint]

theorem carries_int32 (h : r.Reads w) (number : Nat) (get : σ → Option Int32)
    (set : ρ → Int32 → ρ) (source : σ) :
    Carries (.int32 w number get) (.int32 r number set) source
      ((get source).map fun x m => set m x) := by
  have hcarries := carries_varint h number int32Varint get int32OfVarint set source
  simp only [int32OfVarint_int32Varint] at hcarries
  exact hcarries

theorem carries_bool (h : r.Reads w) (number : Nat) (get : σ → Option Bool)
    (set : ρ → Bool → ρ) (source : σ) :
    Carries (.bool w number get) (.bool r number set) source
      ((get source).map fun b m => set m b) := by
  have hbool : ∀ b, boolOfVarint (boolVarint b) = b := by decide
  have hcarries := carries_varint h number boolVarint get boolOfVarint set source
  simp only [hbool] at hcarries
  exact hcarries

theorem carries_bytes (h : r.Reads w) (number : Nat) (get : σ → Option (List UInt8))
    (getRead : ρ → Option (List UInt8)) (set : ρ → List UInt8 → ρ) (source : σ) :
    Carries (.bytes w number get) (.bytes r number getRead set) source
      ((get source).map fun bytes m => set m bytes) := by
  refine ⟨rfl, ?_, ?_⟩
  · intro habsent
    rw [Option.map_eq_none_iff.mp habsent, Option.map_none]
  · intro payload hpresent hlt
    obtain ⟨bytes, hget, rfl⟩ := Option.map_eq_some_iff.mp hpresent
    refine ⟨_, by rw [hget, Option.map_some], ?_⟩
    intro m rest
    rw [List.length_append] at hlt
    obtain ⟨x, hvarint, hx⟩ := h.word (n := bytes.length) (by omega) (bytes ++ rest)
    rw [List.append_assoc]
    simp only [FieldReader.bytes, hvarint, hx, h.raw]

/-- What the parser of a message inside another makes of it, whatever the order of its
fields. -/
theorem carries_message (h : r.Reads w) (number : Nat) (get : σ → Option τ)
    (fields : List (FieldFormat τ)) (mutable : ρ → υ) (set : ρ → υ → ρ)
    (parse : υ → List UInt8 → υ × Bool) {source : σ} (merged : τ → υ → υ)
    (hparse : ∀ sub ∈ get source, ∀ bytes, Encodes w fields sub bytes →
      bytes.length < 4294967296 → ∀ m, parse (mutable m) bytes = (merged sub (mutable m), true)) :
    Carries (.message w number get fields) (.message r number mutable set parse) source
      ((get source).map fun sub m => set m (merged sub (mutable m))) := by
  refine ⟨rfl, ?_, ?_⟩
  · intro habsent
    rw [Option.map_eq_none_iff.mp habsent, Option.map_none]
  · rintro payload ⟨sub, bytes, hget, hencodes, rfl⟩ hlt
    refine ⟨_, by rw [hget, Option.map_some], ?_⟩
    intro m rest
    rw [List.length_append] at hlt
    obtain ⟨x, hvarint, hx⟩ := h.word (n := bytes.length) (by omega) (bytes ++ rest)
    have hended := hparse sub hget bytes hencodes (by omega) m
    rw [List.append_assoc]
    simp only [FieldReader.message, hvarint, hx, h.limit, hended, if_true]

theorem commute_iff {put put' : ρ → ρ} :
    Function.Commute put put' ↔ ∀ m, put (put' m) = put' (put m) :=
  Iff.rfl

/-- A table of readers carries what the fields of a table hold: the last list tells what
becomes of the message that is parsed into. -/
inductive CarriesAll (source : σ) :
    List (FieldFormat σ) → List (FieldReader ρ) → List (Option (ρ → ρ)) → Prop
  | nil : CarriesAll source [] [] []
  | cons {field : FieldFormat σ} {reader : FieldReader ρ} {copy : Option (ρ → ρ)}
      {fields : List (FieldFormat σ)} {readers : List (FieldReader ρ)}
      {copies : List (Option (ρ → ρ))} :
      Carries field reader source copy → CarriesAll source fields readers copies →
      CarriesAll source (field :: fields) (reader :: readers) (copy :: copies)

section Parsing

variable {lookup : Nat → Lookup ρ} {source : σ} {fields : List (FieldFormat σ)}
variable {readers : List (FieldReader ρ)} {copies : List (Option (ρ → ρ))}

/-- Each record does to the message what its field is copied by. -/
theorem Records.parsed (h : r.Reads w) (hzero : lookup 0 = .stop)
    (hcarries : CarriesAll source fields readers copies)
    (hlookup : ∀ reader ∈ readers, lookup reader.tag = .field reader)
    (htag : ∀ reader ∈ readers, reader.tag < 4294967296) {records : List (List UInt8)}
    (hrecords : Records w source fields records)
    (hlt : ∀ record ∈ records, record.length < 4294967296) :
    List.Forall₂
      (fun record put => ∀ m rest, parse r lookup m (record ++ rest) = parse r lookup (put m) rest)
      records copies.reduceOption := by
  induction hcarries generalizing records with
  | nil =>
      cases hrecords
      exact .nil
  | cons hfirst _ ih =>
      have hlookupRest := fun reader hmem => hlookup reader (List.mem_cons_of_mem _ hmem)
      have htagRest := fun reader hmem => htag reader (List.mem_cons_of_mem _ hmem)
      cases hrecords with
      | absent hnone hrecords =>
          rw [hfirst.absent hnone, List.reduceOption_cons_of_none]
          exact ih hlookupRest htagRest hrecords hlt
      | present hadmits hrecords =>
          have hrecord := hlt _ List.mem_cons_self
          rw [List.length_append] at hrecord
          obtain ⟨put, rfl, hread⟩ := hfirst.present hadmits (by omega)
          rw [List.reduceOption_cons_of_some]
          refine .cons ?_ (ih hlookupRest htagRest hrecords
            fun record hmem => hlt record (List.mem_cons_of_mem _ hmem))
          intro m rest
          rw [hfirst.tag, List.append_assoc]
          exact parse_record h hzero (hlookup _ List.mem_cons_self) (htag _ List.mem_cons_self)
            (hread m rest)

theorem parse_flatten {records : List (List UInt8)} {puts : List (ρ → ρ)}
    (h : List.Forall₂
      (fun record put => ∀ m rest, parse r lookup m (record ++ rest) = parse r lookup (put m) rest)
      records puts) (m : ρ) :
    parse r lookup m records.flatten = (puts.foldl (fun m put => put m) m, true) := by
  induction h generalizing m with
  | nil => rfl
  | cons hfirst _ ih => rw [List.flatten_cons, hfirst, ih, List.foldl_cons]

/-- Parsing an encoding copies the fields of its message, where it makes no difference
in which order. -/
theorem Encodes.parsed (h : r.Reads w) (hzero : lookup 0 = .stop)
    (hcarries : CarriesAll source fields readers copies)
    (hlookup : ∀ reader ∈ readers, lookup reader.tag = .field reader)
    (htag : ∀ reader ∈ readers, reader.tag < 4294967296)
    (hcommute : copies.reduceOption.Pairwise Function.Commute) {bytes : List UInt8}
    (hencodes : Encodes w fields source bytes) (hlt : bytes.length < 4294967296) (m : ρ) :
    parse r lookup m bytes = (copies.reduceOption.foldl (fun m put => put m) m, true) := by
  obtain ⟨records, order, hrecords, hperm, rfl⟩ := hencodes
  have hshort : ∀ record ∈ records, record.length < 4294967296 := by
    intro record hmem
    have hsublist := List.sublist_flatten_of_mem (hperm.mem_iff.mpr hmem)
    exact Nat.lt_of_le_of_lt hsublist.length_le hlt
  have hparsed := hrecords.parsed h hzero hcarries hlookup htag hshort
  obtain ⟨puts, hputs, hpermuted⟩ := List.perm_comp_forall₂ hperm hparsed
  have hcommuteAll : ∀ put ∈ copies.reduceOption, ∀ put' ∈ copies.reduceOption,
      Function.Commute put put' :=
    hcommute.forall_of_forall_of_flip (fun put _ => .refl put) (hcommute.imp fun h => h.symm)
  rw [parse_flatten hputs, hpermuted.symm.foldl_eq' ?_ m]
  intro put hput put' hput' m
  exact hcommuteAll put' hput' put hput m

end Parsing

section Cases

variable {readers : List (FieldReader ρ)} {fields : List (FieldFormat σ)}
variable {copies : List (Option (ρ → ρ))} {source : σ}

theorem mergePartial_encoded (hcases : Cases readers) (h : r.Reads w)
    (hcarries : CarriesAll source fields readers copies)
    (hcommute : copies.reduceOption.Pairwise Function.Commute) {bytes : List UInt8}
    (hencodes : Encodes w fields source bytes) (hlt : bytes.length < 4294967296) (m : ρ) :
    mergePartial r readers m bytes =
      (copies.reduceOption.foldl (fun m put => put m) m, true) := by
  rw [mergePartial_eq_parse hcases]
  exact hencodes.parsed h rfl hcarries (fun _ hreader => hcases.plainLookup_eq hreader)
    (fun _ hreader => hcases.lt _ (List.mem_map_of_mem hreader)) hcommute hlt m

end Cases

end Reading

end MuQuinet.Lib.Encodings
