import Mathlib.Data.List.Nodup
import Mathlib.Data.List.TakeWhile
import Mathlib.Data.Nat.Log
import Mathlib.Tactic.Ring

namespace MuQuinet.Lib.WireFormat

/-- Records of a tag and a payload.  The low three bits of a tag tell how its
payload is laid out. -/
def makeTag (number wireType : Nat) : Nat :=
  8 * number + wireType

def wiretypeVarint : Nat := 0
def wiretypeLengthDelimited : Nat := 2
def wiretypeEndGroup : Nat := 4

/-- What a runtime gives to a program that writes messages. -/
structure Writer where
  varint : UInt64 → List UInt8
  length_varint : ∀ x, (varint x).length = Nat.log2 x.toNat / 7 + 1

/-- What a runtime gives to a program that reads messages.  No call gives back more
input than it got. -/
structure Reader where
  varint : List UInt8 → Option (UInt64 × List UInt8)
  /-- The bytes it stored of those asked for, and the input after them if they were all there. -/
  raw : Nat → List UInt8 → List UInt8 × Option (List UInt8)
  /-- The input up to a limit and the input behind it. -/
  limit : Nat → List UInt8 → Option (List UInt8 × List UInt8)
  skipField : Nat → List UInt8 → Option (List UInt8)
  /-- The input after a tag, where it begins with that tag. -/
  expectTag : Nat → List UInt8 → Option (List UInt8)
  varint_shrinks : ∀ {bytes x rest}, varint bytes = some (x, rest) → rest.length < bytes.length
  raw_shrinks : ∀ {n bytes rest}, (raw n bytes).2 = some rest → rest.length ≤ bytes.length
  limit_shrinks : ∀ {n bytes inner rest}, limit n bytes = some (inner, rest) →
    rest.length ≤ bytes.length
  skipField_shrinks : ∀ {tag bytes rest}, skipField tag bytes = some rest →
    rest.length ≤ bytes.length
  expectTag_varint : ∀ {tag bytes rest}, expectTag tag bytes = some rest →
    ∃ x, varint bytes = some (x, rest) ∧ x.toNat % 4294967296 = tag

/-- A reader reads what a writer wrote. -/
structure Reader.Reads (r : Reader) (w : Writer) : Prop where
  varint : ∀ x rest, r.varint (w.varint x ++ rest) = some (x, rest)
  raw : ∀ bytes rest, r.raw bytes.length (bytes ++ rest) = (bytes, some rest)
  limit : ∀ bytes rest, r.limit bytes.length (bytes ++ rest) = some (bytes, rest)

theorem Writer.varint_ne_nil (w : Writer) (x : UInt64) : w.varint x ≠ [] := by
  intro hnil
  have hlength := w.length_varint x
  rw [hnil, List.length_nil] at hlength
  omega

structure FieldWriter (σ : Type) where
  tag : Nat
  /-- What follows the tag, where the message has the field. -/
  payload : σ → Option (List UInt8)

structure FieldReader (σ : Type) where
  tag : Nat
  /-- The message with what was read, and the input after it unless the input is malformed. -/
  read : σ → List UInt8 → σ × Option (List UInt8)
  read_shrinks : ∀ {m bytes rest}, (read m bytes).2 = some rest → rest.length ≤ bytes.length

/-- A negative word of 32 bits is sign-extended to 64 bits. -/
def int32Varint (x : Int32) : UInt64 :=
  x.toInt64.toUInt64

def int32OfVarint (x : UInt64) : Int32 :=
  x.toUInt32.toInt32

theorem toNat_int32Varint (x : Int32) :
    (int32Varint x).toNat =
      if x.toInt < 0 then (x.toInt + 18446744073709551616).toNat else x.toInt.toNat := by
  have hlt : (int32Varint x).toNat < 18446744073709551616 := (int32Varint x).toNat_lt
  have hsigned := BitVec.toInt_eq_toNat_cond x.toInt64.toBitVec
  have htoInt : x.toInt64.toBitVec.toInt = x.toInt := Int32.toInt_toInt64 x
  have htoNat : x.toInt64.toBitVec.toNat = (int32Varint x).toNat := rfl
  rw [htoInt, htoNat] at hsigned
  split at hsigned
  · rw [if_neg (by omega)]
    omega
  · rw [if_pos (by omega)]
    omega

theorem int32OfVarint_int32Varint (x : Int32) : int32OfVarint (int32Varint x) = x := by
  apply Int32.toInt_inj.mp
  have hvarint := toNat_int32Varint x
  have hlow : (int32Varint x).toUInt32.toBitVec.toNat = (int32Varint x).toNat % 4294967296 :=
    UInt64.toNat_toUInt32 _
  have hlower := x.le_toInt
  have hupper := x.toInt_lt
  change (int32Varint x).toUInt32.toBitVec.toInt = x.toInt
  rw [BitVec.toInt_eq_toNat_cond, hlow]
  split at hvarint
  · split <;> omega
  · split <;> omega

def boolVarint (b : Bool) : UInt64 :=
  if b then 1 else 0

def boolOfVarint (x : UInt64) : Bool :=
  x ≠ 0

section Writing

variable {σ τ α : Type} (w : Writer)

def record (field : FieldWriter σ) (m : σ) : List UInt8 :=
  (field.payload m).elim [] fun payload => w.varint (.ofNat field.tag) ++ payload

def serialize (fields : List (FieldWriter σ)) (m : σ) : List UInt8 :=
  fields.flatMap fun field => record w field m

namespace FieldWriter

def varint (number : Nat) (toVarint : α → UInt64) (get : σ → Option α) : FieldWriter σ where
  tag := makeTag number wiretypeVarint
  payload m := (get m).map fun a => w.varint (toVarint a)

def int32 (number : Nat) (get : σ → Option Int32) : FieldWriter σ :=
  varint w number int32Varint get

def uint64 (number : Nat) (get : σ → Option UInt64) : FieldWriter σ :=
  varint w number id get

def bool (number : Nat) (get : σ → Option Bool) : FieldWriter σ :=
  varint w number boolVarint get

def bytes (number : Nat) (get : σ → Option (List UInt8)) : FieldWriter σ where
  tag := makeTag number wiretypeLengthDelimited
  payload m := (get m).map fun bytes => w.varint (.ofNat bytes.length) ++ bytes

/-- `byteSize` is the length that the program announces. -/
def message (number : Nat) (get : σ → Option τ) (byteSize : τ → Nat)
    (fields : List (FieldWriter τ)) : FieldWriter σ where
  tag := makeTag number wiretypeLengthDelimited
  payload m := (get m).map fun sub => w.varint (.ofNat (byteSize sub)) ++ serialize w fields sub

end FieldWriter

end Writing

section Reading

variable {σ τ α : Type} (r : Reader)

/-- The tag is a word of 32 bits, and zero where no tag can be read. -/
def readTag (bytes : List UInt8) : Nat × List UInt8 :=
  match r.varint bytes with
  | none => (0, bytes)
  | some (x, rest) => (x.toNat % 4294967296, rest)

/-- The fields from one on, each read where the tag of the next is expected and found
behind the one before; then the loop goes on. -/
def readFrom (loop : σ → List UInt8 → σ × Bool) :
    List (FieldReader σ) → σ → List UInt8 → σ × Bool
  | [], m, bytes => loop m bytes
  | field :: fields, m, bytes =>
      match field.read m bytes with
      | (m, none) => (m, false)
      | (m, some bytes) =>
          match fields with
          | [] => if bytes = [] then (m, true) else loop m bytes
          | next :: _ =>
              match r.expectTag next.tag bytes with
              | none => loop m bytes
              | some bytes => readFrom loop fields m bytes

/-- The loop of a parser.  The result is whether it ended at the end of the input. -/
def mergeLoop (fields : List (FieldReader σ)) : Nat → σ → List UInt8 → σ × Bool
  | 0, m, _ => (m, false)
  | fuel + 1, m, bytes =>
      if bytes = [] then (m, true)
      else
        let (tag, rest) := readTag r bytes
        if tag = 0 then (m, false)
        else
          match fields.dropWhile (·.tag ≠ tag) with
          | [] =>
              if tag % 8 = wiretypeEndGroup then (m, false)
              else
                match r.skipField tag rest with
                | none => (m, false)
                | some rest => mergeLoop fields fuel m rest
          | field :: following => readFrom r (mergeLoop fields fuel) (field :: following) m rest

def mergePartial (fields : List (FieldReader σ)) (m : σ) (bytes : List UInt8) : σ × Bool :=
  mergeLoop r fields (bytes.length + 1) m bytes

namespace FieldReader

def varint (number : Nat) (ofVarint : UInt64 → α) (set : σ → α → σ) : FieldReader σ where
  tag := makeTag number wiretypeVarint
  read m bytes :=
    match r.varint bytes with
    | none => (m, none)
    | some (x, rest) => (set m (ofVarint x), some rest)
  read_shrinks {m bytes rest} hread := by
    rcases hvarint : r.varint bytes with _ | ⟨x, rest'⟩
    · simp [hvarint] at hread
    · rw [hvarint] at hread
      cases hread
      exact Nat.le_of_lt (r.varint_shrinks hvarint)

def int32 (number : Nat) (set : σ → Int32 → σ) : FieldReader σ :=
  varint r number int32OfVarint set

def uint64 (number : Nat) (set : σ → UInt64 → σ) : FieldReader σ :=
  varint r number id set

def bool (number : Nat) (set : σ → Bool → σ) : FieldReader σ :=
  varint r number boolOfVarint set

/-- The field is set before its bytes are read. -/
def bytes (number : Nat) (get : σ → Option (List UInt8)) (set : σ → List UInt8 → σ) :
    FieldReader σ where
  tag := makeTag number wiretypeLengthDelimited
  read m bytes :=
    match r.varint bytes with
    | none => (set m ((get m).getD []), none)
    | some (x, rest) =>
        let (stored, rest) := r.raw (x.toNat % 4294967296) rest
        (set m stored, rest)
  read_shrinks {m bytes rest} hread := by
    rcases hvarint : r.varint bytes with _ | ⟨x, rest'⟩
    · simp [hvarint] at hread
    · rw [hvarint] at hread
      exact (r.raw_shrinks hread).trans (Nat.le_of_lt (r.varint_shrinks hvarint))

/-- The field is set before the message in it is parsed. -/
def message (number : Nat) (mutable : σ → τ) (set : σ → τ → σ)
    (parse : τ → List UInt8 → τ × Bool) : FieldReader σ where
  tag := makeTag number wiretypeLengthDelimited
  read m bytes :=
    match r.varint bytes with
    | none => (set m (mutable m), none)
    | some (x, rest) =>
        match r.limit (x.toNat % 4294967296) rest with
        | none => (set m (mutable m), none)
        | some (inner, rest) =>
            let (sub, ended) := parse (mutable m) inner
            (set m sub, if ended then some rest else none)
  read_shrinks {m bytes rest} hread := by
    rcases hvarint : r.varint bytes with _ | ⟨x, rest'⟩
    · simp [hvarint] at hread
    · have hshorter := r.varint_shrinks hvarint
      rcases hlimit : r.limit (x.toNat % 4294967296) rest' with _ | ⟨inner, rest''⟩
      · simp [hvarint, hlimit] at hread
      · simp only [hvarint, hlimit] at hread
        split at hread
        · cases hread
          exact (r.limit_shrinks hlimit).trans (Nat.le_of_lt hshorter)
        · cases hread

end FieldReader

/-- What a parser does about a tag. -/
inductive Lookup (σ : Type)
  | field (field : FieldReader σ)
  | unknown
  | stop

/-- The switch of a parser without its expectations. -/
def plainLookup (fields : List (FieldReader σ)) (tag : Nat) : Lookup σ :=
  if tag = 0 then .stop
  else
    match fields.find? (·.tag = tag) with
    | some field => .field field
    | none => if tag % 8 = wiretypeEndGroup then .stop else .unknown

def parseLoop (lookup : Nat → Lookup σ) : Nat → σ → List UInt8 → σ × Bool
  | 0, m, _ => (m, false)
  | fuel + 1, m, bytes =>
      if bytes = [] then (m, true)
      else
        let (tag, rest) := readTag r bytes
        match lookup tag with
        | .stop => (m, false)
        | .unknown =>
            match r.skipField tag rest with
            | none => (m, false)
            | some rest => parseLoop lookup fuel m rest
        | .field field =>
            match field.read m rest with
            | (m, none) => (m, false)
            | (m, some rest) => parseLoop lookup fuel m rest

def parse (lookup : Nat → Lookup σ) (m : σ) (bytes : List UInt8) : σ × Bool :=
  parseLoop r lookup (bytes.length + 1) m bytes

section Loops

variable {r : Reader} {lookup : Nat → Lookup σ} {fields : List (FieldReader σ)}

theorem readTag_shrinks {bytes : List UInt8} (htag : (readTag r bytes).1 ≠ 0) :
    (readTag r bytes).2.length < bytes.length := by
  unfold readTag at htag ⊢
  split at htag
  · exact absurd rfl htag
  · rename_i hvarint
    exact r.varint_shrinks hvarint

theorem readTag_shrinks_of_lookup (r : Reader) (hzero : lookup 0 = .stop) (bytes : List UInt8)
    (hlookup : lookup (readTag r bytes).1 ≠ .stop) :
    (readTag r bytes).2.length < bytes.length := by
  refine readTag_shrinks ?_
  intro htag
  exact hlookup (htag ▸ hzero)

theorem parseLoop_eq (hzero : lookup 0 = .stop) {fuel fuel' : Nat} {m : σ} {bytes : List UInt8}
    (h : bytes.length < fuel) (h' : bytes.length < fuel') :
    parseLoop r lookup fuel m bytes = parseLoop r lookup fuel' m bytes := by
  induction fuel generalizing fuel' m bytes with
  | zero => exact absurd h (Nat.not_lt_zero _)
  | succ fuel ih =>
      obtain ⟨fuel', rfl⟩ : ∃ k, fuel' = k + 1 := ⟨fuel' - 1, by omega⟩
      simp only [parseLoop]
      split
      · rfl
      · split
        · rfl
        · rename_i hlookup
          have hrest := readTag_shrinks_of_lookup r hzero bytes (by simp [hlookup])
          split
          · rfl
          · rename_i hskip
            have hskipped := r.skipField_shrinks hskip
            exact ih (by omega) (by omega)
        · rename_i field hlookup
          have hrest := readTag_shrinks_of_lookup r hzero bytes (by simp [hlookup])
          split
          · rfl
          · rename_i hread
            have hfield := field.read_shrinks (congrArg Prod.snd hread)
            exact ih (by omega) (by omega)

@[simp] theorem parse_nil (m : σ) : parse r lookup m [] = (m, true) :=
  rfl

/-- One round of the loop. -/
theorem parse_of_ne_nil (hzero : lookup 0 = .stop) {m : σ} {bytes : List UInt8}
    (hne : bytes ≠ []) :
    parse r lookup m bytes =
      match lookup (readTag r bytes).1 with
      | .stop => (m, false)
      | .unknown =>
          match r.skipField (readTag r bytes).1 (readTag r bytes).2 with
          | none => (m, false)
          | some rest => parse r lookup m rest
      | .field field =>
          match field.read m (readTag r bytes).2 with
          | (m, none) => (m, false)
          | (m, some rest) => parse r lookup m rest := by
  rw [parse, parseLoop, if_neg hne]
  dsimp only
  split
  · rfl
  · rename_i hlookup
    have hrest := readTag_shrinks_of_lookup r hzero bytes (by simp [hlookup])
    split
    · rfl
    · rename_i hskip
      have hskipped := r.skipField_shrinks hskip
      exact parseLoop_eq hzero (by omega) (Nat.lt_succ_self _)
  · rename_i field hlookup
    have hrest := readTag_shrinks_of_lookup r hzero bytes (by simp [hlookup])
    split
    · rfl
    · rename_i hread
      have hfield := field.read_shrinks (congrArg Prod.snd hread)
      exact parseLoop_eq hzero (by omega) (Nat.lt_succ_self _)

/-- No two fields of a message have one number, and the tags are words of 32 bits. -/
structure Cases (fields : List (FieldReader σ)) : Prop where
  distinct : (fields.map (·.tag / 8)).Nodup
  pos : ∀ number ∈ fields.map (·.tag / 8), 0 < number
  lt : ∀ tag ∈ fields.map (·.tag), tag < 4294967296

theorem cases_of_tags {tags : List Nat} (htags : fields.map (·.tag) = tags)
    (hdistinct : (tags.map (· / 8)).Nodup) (hpos : ∀ tag ∈ tags, 0 < tag / 8)
    (hlt : ∀ tag ∈ tags, tag < 4294967296) : Cases fields := by
  have hnumbers : fields.map (·.tag / 8) = tags.map (· / 8) := by
    rw [← htags, List.map_map]
    rfl
  refine ⟨hnumbers ▸ hdistinct, ?_, htags ▸ hlt⟩
  intro number hnumber
  rw [hnumbers] at hnumber
  obtain ⟨tag, htag, rfl⟩ := List.mem_map.mp hnumber
  exact hpos tag htag

theorem find_of_distinct {k : FieldReader σ → Nat} (hdistinct : (fields.map k).Nodup)
    {field : FieldReader σ} (hfield : field ∈ fields) :
    fields.find? (k · = k field) = some field := by
  induction fields with
  | nil => cases hfield
  | cons head fields ih =>
      rw [List.map_cons, List.nodup_cons] at hdistinct
      rcases List.mem_cons.mp hfield with rfl | htail
      · simp
      · have hne : k head ≠ k field := by
          intro heq
          exact hdistinct.1 (heq ▸ List.mem_map_of_mem htail)
        rw [List.find?_cons_of_neg (by simpa using hne)]
        exact ih hdistinct.2 htail

namespace Cases

theorem distinct_tag (h : Cases fields) : (fields.map (·.tag)).Nodup := by
  have hdistinct := h.distinct
  have hmap : fields.map (·.tag / 8) = (fields.map (·.tag)).map (· / 8) := by
    rw [List.map_map]
    rfl
  rw [hmap] at hdistinct
  exact List.Nodup.of_map _ hdistinct

theorem number_pos (h : Cases fields) {field : FieldReader σ} (hfield : field ∈ fields) :
    field.tag / 8 ≠ 0 :=
  Nat.ne_of_gt (h.pos _ (List.mem_map_of_mem hfield))

theorem plainLookup_eq (h : Cases fields) {field : FieldReader σ} (hfield : field ∈ fields) :
    plainLookup fields field.tag = .field field := by
  have hne : field.tag ≠ 0 := by
    intro hzero
    exact h.number_pos hfield (by rw [hzero])
  rw [plainLookup, if_neg hne, find_of_distinct h.distinct_tag hfield]

end Cases

theorem readFrom_eq (h : Cases fields) {loop : σ → List UInt8 → σ × Bool}
    {following : List (FieldReader σ)} {field : FieldReader σ}
    (hsuffix : field :: following <:+ fields) (m : σ) {bytes : List UInt8}
    (hloop : ∀ m rest, rest.length ≤ bytes.length →
      loop m rest = parse r (plainLookup fields) m rest) :
    readFrom r loop (field :: following) m bytes =
      match field.read m bytes with
      | (m, none) => (m, false)
      | (m, some rest) => parse r (plainLookup fields) m rest := by
  induction following generalizing field m bytes with
  | nil =>
      rcases hread : field.read m bytes with ⟨m', _ | rest⟩
      · simp only [readFrom, hread]
      · have hshorter := field.read_shrinks (congrArg Prod.snd hread)
        simp only [readFrom, hread]
        split
        · rename_i hnil
          rw [hnil, parse_nil]
        · exact hloop m' rest hshorter
  | cons next following ih =>
      rcases hread : field.read m bytes with ⟨m', _ | rest⟩
      · simp only [readFrom, hread]
      · have hshorter := field.read_shrinks (congrArg Prod.snd hread)
        rcases hexpect : r.expectTag next.tag rest with _ | rest'
        · simp only [readFrom, hread, hexpect]
          exact hloop m' rest hshorter
        · -- The tag of the next field is there, so the loop would have read it.
          obtain ⟨x, hvarint, htag⟩ := r.expectTag_varint hexpect
          have hvarintShorter := r.varint_shrinks hvarint
          have hnext : next ∈ fields := hsuffix.subset (by simp)
          have hreadTag : readTag r rest = (next.tag, rest') := by
            rw [readTag, hvarint, ← htag]
          have hne : rest ≠ [] := by
            rintro rfl
            exact absurd hvarintShorter (Nat.not_lt_zero _)
          have hfollowing : readFrom r loop (next :: following) m' rest' =
              match next.read m' rest' with
              | (m, none) => (m, false)
              | (m, some rest) => parse r (plainLookup fields) m rest := by
            refine ih ((List.suffix_cons _ _).trans hsuffix) m' ?_
            intro m'' rest'' hle
            exact hloop m'' rest'' (by omega)
          rw [readFrom, hread]
          dsimp only
          rw [parse_of_ne_nil rfl hne, hreadTag, h.plainLookup_eq hnext, hexpect]
          exact hfollowing

theorem mergeLoop_eq_parse (h : Cases fields) {fuel : Nat} {m : σ} {bytes : List UInt8}
    (hfuel : bytes.length < fuel) :
    mergeLoop r fields fuel m bytes = parse r (plainLookup fields) m bytes := by
  induction fuel generalizing m bytes with
  | zero => exact absurd hfuel (Nat.not_lt_zero _)
  | succ fuel ih =>
      rw [mergeLoop]
      split
      · rename_i hnil
        rw [hnil, parse_nil]
      · rename_i hne
        rw [parse_of_ne_nil rfl hne, plainLookup]
        dsimp only
        split
        · rfl
        · rename_i htag
          have hrest := readTag_shrinks htag
          have hfind : fields.find? (·.tag = (readTag r bytes).1) =
              (fields.dropWhile (·.tag ≠ (readTag r bytes).1)).head? := by
            simp only [List.find?_eq_head?_dropWhile_not, decide_not]
          have hsuffix := List.dropWhile_suffix (l := fields) (·.tag ≠ (readTag r bytes).1)
          rw [hfind]
          generalize fields.dropWhile (·.tag ≠ (readTag r bytes).1) = suffix at hsuffix ⊢
          rcases suffix with _ | ⟨field, following⟩
          · dsimp only [List.head?_nil]
            split
            · rfl
            · dsimp only
              split
              · rfl
              · rename_i hskip
                have hskipped := r.skipField_shrinks hskip
                exact ih (by omega)
          · refine readFrom_eq h hsuffix m ?_
            intro m' rest' hle
            exact ih (by omega)

/-- Expecting tags never changes what is parsed. -/
theorem mergePartial_eq_parse (h : Cases fields) (m : σ) (bytes : List UInt8) :
    mergePartial r fields m bytes = parse r (plainLookup fields) m bytes :=
  mergeLoop_eq_parse h (Nat.lt_succ_self _)

end Loops

end Reading

section Lengths

variable {σ : Type} {w : Writer}

theorem length_record (field : FieldWriter σ) (m : σ) :
    (record w field m).length =
      (field.payload m).elim 0 fun payload =>
        (w.varint (.ofNat field.tag)).length + payload.length := by
  rcases hpayload : field.payload m with _ | payload
  · rw [record, hpayload]
    rfl
  · rw [record, hpayload, Option.elim_some, Option.elim_some, List.length_append]

@[simp] theorem length_serialize_nil (m : σ) : (serialize w [] m).length = 0 :=
  rfl

@[simp] theorem length_serialize_cons (field : FieldWriter σ) (fields : List (FieldWriter σ))
    (m : σ) :
    (serialize w (field :: fields) m).length =
      (record w field m).length + (serialize w fields m).length := by
  rw [serialize, List.flatMap_cons, List.length_append, serialize]

end Lengths

section Records

variable {ρ : Type} {w : Writer} {r : Reader}

theorem Reader.Reads.word (h : r.Reads w) {n : Nat} (hn : n < 4294967296) (rest : List UInt8) :
    ∃ x, r.varint (w.varint (.ofNat n) ++ rest) = some (x, rest) ∧ x.toNat % 4294967296 = n := by
  refine ⟨_, h.varint _ rest, ?_⟩
  rw [UInt64.toNat_ofNat']
  omega

theorem readTag_varint (h : r.Reads w) {tag : Nat} (htag : tag < 4294967296) (rest : List UInt8) :
    readTag r (w.varint (.ofNat tag) ++ rest) = (tag, rest) := by
  obtain ⟨x, hvarint, hx⟩ := h.word htag rest
  rw [readTag, hvarint]
  dsimp only
  rw [hx]

/-- The loop reads a record whose field it finds, and goes on behind it. -/
theorem parse_record (h : r.Reads w) {lookup : Nat → Lookup ρ} (hzero : lookup 0 = .stop)
    {reader : FieldReader ρ} (hlookup : lookup reader.tag = .field reader)
    (htag : reader.tag < 4294967296) {m m' : ρ} {bytes rest : List UInt8}
    (hread : reader.read m bytes = (m', some rest)) :
    parse r lookup m (w.varint (.ofNat reader.tag) ++ bytes) = parse r lookup m' rest := by
  have hne : w.varint (.ofNat reader.tag) ++ bytes ≠ [] := by
    intro hnil
    exact w.varint_ne_nil _ (List.append_eq_nil_iff.mp hnil).1
  rw [parse_of_ne_nil hzero hne, readTag_varint h htag]
  dsimp only
  rw [hlookup]
  dsimp only
  rw [hread]

end Records

end MuQuinet.Lib.WireFormat
