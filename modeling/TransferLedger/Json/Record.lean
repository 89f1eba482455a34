import TransferLedger.Json.Scalar
import TransferLedger.Json.Skipped

/-!
Reading records from JSON: objects whose fields may come in any order, with unknown fields passed
over, or arrays that hold all fields in the order of declaration.
-/
namespace TransferLedger.Json
set_option autoImplicit false

/-- A field of a record `σ`: its reader answers what the value does to the record. The two defaults
apply where an object lacks the field and where an array is too short for it. -/
structure Field (σ : Type) where
  name : String
  read : Reader (σ → σ)
  missing : Option (σ → σ)
  short : Option (σ → σ)

namespace Field

variable {σ : Type}

def required {α : Type} (name : String) (read : Reader α) (set : α → σ → σ) : Field σ :=
  ⟨name, fun bs => do let (a, rest) ← read bs; .ok (set a, rest), none, none⟩

/-- A field that may be left out everywhere; the record starts out with its default. -/
def optional {α : Type} (name : String) (read : Reader α) (set : α → σ → σ) : Field σ :=
  ⟨name, fun bs => do let (a, rest) ← read bs; .ok (set a, rest), some id, some id⟩

def nullable {α : Type} (name : String) (read : Reader α) (set : α → σ → σ) : Field σ :=
  ⟨name, fun bs => do let (a, rest) ← read bs; .ok (set a, rest), some id, none⟩

end Field

/-- The shape of a record: its name in reports, its fields in order and the record to start from. -/
structure Shape (σ : Type) where
  name : String
  fields : List (Field σ)
  blank : σ

namespace Shape

variable {σ : Type}

/-- Fills in the fields that an object did not have; the first one without default is reported. -/
def complete (seen : List String) : List (Field σ) → σ → Except ReadError σ
  | [], r => .ok r
  | f :: fs, r =>
    if seen.contains f.name then complete seen fs r
    else match f.missing with
      | some set => complete seen fs (set r)
      | none => .error (.unfit none (.missingField f.name))

def readField (fields : List (Field σ)) (seen : List String) (name : String) (r : σ) :
    Reader (List String × σ) := fun bs =>
  match fields.find? fun f => f.name == name with
  | none => do
    let rest ← skipValue bs
    .ok ((seen, r), rest)
  | some f =>
    if seen.contains name then .error (.unfit none (.duplicateField name))
    else match f.read bs with
      | .ok (set, rest) => .ok ((name :: seen, set r), rest)
      | .error e => .error (e.inside name)

/-- The fields of an object after its opening brace or after one of its fields; the first argument
bounds the number of steps. -/
def readFields (fields : List (Field σ)) :
    Nat → Bool → List String → σ → Reader (List String × σ)
  | 0, _, _, _, _ => .error .malformed
  | fuel + 1, first, seen, r, bs =>
    match skipSpace bs with
    | [] => .error .ended
    | b :: rest =>
      if b = 0x7D then .ok ((seen, r), rest)
      else do
        let rest ←
          if first then pure (b :: rest)
          else if b = 0x2C then pure (skipSpace rest)
          else throw .malformed
        let rest ← expectByte 0x22 rest
        let (name, rest) ← readString rest
        let rest ← expectByte 0x3A (skipSpace rest)
        let ((seen, r), rest) ← readField fields seen name r rest
        readFields fields fuel false seen r rest

/-- The elements of an array, one per field, up to and with its closing bracket. -/
def readElements (shape : Shape σ) : List (Field σ) → Nat → σ → Reader σ
  | [], _, r => fun bs =>
    match skipSpace bs with
    | [] => .error .ended
    | b :: rest => if b = 0x5D then .ok (r, rest) else .error .malformed
  | f :: fs, index, r => fun bs =>
    match skipSpace bs with
    | [] => .error .ended
    | b :: rest =>
      if b = 0x5D then
        match f.short with
        | some set => readElements shape fs (index + 1) (set r) bs
        | none =>
          let n := shape.fields.length
          let unit := if n = 1 then "element" else "elements"
          .error (.unfit none (.invalidLength index s!"struct {shape.name} with {n} {unit}"))
      else do
        let rest ←
          if index = 0 then pure (b :: rest)
          else if b = 0x2C then
            match skipSpace rest with
            | [] => throw .ended
            | c :: rest => if c = 0x5D then throw .malformed else pure (c :: rest)
          else throw .malformed
        match f.read rest with
        | .ok (set, rest) => readElements shape fs (index + 1) (set r) rest
        | .error e => .error (e.inside s!"[{index}]")

def read (shape : Shape σ) : Reader σ := fun bs =>
  match skipSpace bs with
  | [] => .error .ended
  | b :: rest =>
    if b = 0x7B then do
      let ((seen, r), rest) ← readFields shape.fields (rest.length + 1) true [] shape.blank rest
      let r ← complete seen shape.fields r
      .ok (r, rest)
    else if b = 0x5B then readElements shape shape.fields 0 shape.blank rest
    else .error (mismatchAt s!"struct {shape.name}" b rest)

end Shape

/-- A text that holds one value and nothing else but white space. -/
def readAll {α : Type} (read : Reader α) (bs : Bytes) : Except ReadError α := do
  let (a, rest) ← read bs
  if (skipSpace rest).isEmpty then .ok a else .error .malformed

end TransferLedger.Json
