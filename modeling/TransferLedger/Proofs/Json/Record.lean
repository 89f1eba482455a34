import TransferLedger.Json.Record
import TransferLedger.Proofs.Json.Number
import TransferLedger.Proofs.Json.Text

/-! # Records in JSON read back

`Field.Reads` says what a field makes of a written value, whatever follows it; `Written` puts this
together for the fields of an object, up to the first fault. What the object is read as is then
known (`readFields_written`, `Shape.read_written`), however many fields it has and in whatever order
they come.
-/

namespace TransferLedger.Json
set_option autoImplicit false

open Text (encodeAll encodeAll_cons encodeAll_append)

variable {σ : Type}

/-! ## Values -/

/-- The bytes of a written value. -/
def valueBytes (v : Value) : Bytes := encodeAll v.chars

theorem valueBytes_text (s : String) : valueBytes (.text s) = stringBytes s := rfl

theorem valueBytes_integer (n : Int) : valueBytes (.integer n) = integerBytes n := rfl

theorem Value.bytes_eq (v : Value) : v.bytes = valueBytes v := Text.toBytes_ofList _

theorem readTextAs_written (expected s : String) (rest : Bytes) :
    readTextAs expected (stringBytes s ++ rest) = .ok (s, rest) := by
  have hread := readString_written s rest
  rw [stringBytes_eq, List.cons_append, List.append_assoc, List.singleton_append]
  exact hread

/-! ## Fields -/

/-- What a field makes of a written value, whatever follows the value. -/
def Field.Reads (f : Field σ) (v : Value) (out : Except ReadError (σ → σ)) : Prop :=
  ∀ rest, Ends rest → f.read (valueBytes v ++ rest) = out.map fun set => (set, rest)

theorem Field.reads_text (name s : String) (set : String → σ → σ) :
    (Field.required name readText set).Reads (.text s) (.ok (set s)) := by
  intro rest _
  simp only [required, valueBytes_text, readText, readTextAs_written]
  rfl

theorem Field.reads_optionalText (name s : String) (set : String → σ → σ) :
    (Field.optional name readText set).Reads (.text s) (.ok (set s)) := by
  intro rest _
  simp only [optional, valueBytes_text, readText, readTextAs_written]
  rfl

theorem Field.reads_integer (name : String) {n : Int} (set : Int → σ → σ)
    (hlow : -9223372036854775808 ≤ n) (hhigh : n < 9223372036854775808) :
    (Field.required name readInt64 set).Reads (.integer n) (.ok (set n)) := by
  intro rest hrest
  simp only [required, valueBytes_integer, readInt64_written hlow hhigh hrest]
  rfl

theorem Field.reads_integer_outside (name : String) {n : Int} (set : Int → σ → σ)
    (h : ¬ (-9223372036854775808 ≤ n ∧ n < 9223372036854775808)) :
    ∃ e, (Field.required name readInt64 set).Reads (.integer n) (.error e) := by
  obtain ⟨e, he⟩ := readInt64_outside h
  refine ⟨e, fun rest hrest => ?_⟩
  simp only [required, valueBytes_integer, he rest hrest]
  rfl

/-! ## Objects -/

/-- What the fields of a shape make of the fields that were written: of all of them, or of those
before the first fault. -/
inductive Written (fields : List (Field σ)) :
    List String → σ → List (String × Value) → Except ReadError (List String × σ) → Prop
  | nil (seen : List String) (r : σ) : Written fields seen r [] (.ok (seen, r))
  | field {seen : List String} {r : σ} {name : String} {v : Value} {f : Field σ} {set : σ → σ}
      {ws : List (String × Value)} {out : Except ReadError (List String × σ)}
      (hf : fields.find? (fun f => f.name == name) = some f) (hnew : seen.contains name = false)
      (hread : f.Reads v (.ok set)) (h : Written fields (name :: seen) (set r) ws out) :
      Written fields seen r ((name, v) :: ws) out
  | fault {seen : List String} {r : σ} {name : String} {v : Value} {f : Field σ} {e : ReadError}
      {ws : List (String × Value)}
      (hf : fields.find? (fun f => f.name == name) = some f) (hnew : seen.contains name = false)
      (hread : f.Reads v (.error e)) :
      Written fields seen r ((name, v) :: ws) (.error (e.inside name))

/-- Fields that follow others are read on from what these made. -/
theorem Written.append {fields : List (Field σ)} {seen seen' : List String} {r r' : σ}
    {ws ws' : List (String × Value)} {out : Except ReadError (List String × σ)}
    (h : Written fields seen r ws (.ok (seen', r'))) (h' : Written fields seen' r' ws' out) :
    Written fields seen r (ws ++ ws') out := by
  generalize hout : Except.ok (seen', r') = first at h
  induction h with
  | nil seen r =>
    cases hout
    exact h'
  | field hf hnew hread _ ih => exact .field hf hnew hread (ih hout)
  | fault => cases hout

theorem fieldsBytes_cons (first : Bool) (name : String) (v : Value) (ws : List (String × Value))
    (rest : Bytes) :
    encodeAll (fieldsChars first ((name, v) :: ws)) ++ 0x7D :: rest =
      (if first then [] else [0x2C]) ++ (0x22 :: (encodeAll (name.toList.flatMap escapeChar) ++
        0x22 :: 0x3A :: (valueBytes v ++ (encodeAll (fieldsChars false ws) ++ 0x7D :: rest)))) := by
  have hcolon : String.utf8EncodeChar ':' = [0x3A] := by decide
  have hcomma : encodeAll (if first then [] else [',']) = if first then [] else [0x2C] := by
    cases first <;> decide
  have hname := stringBytes_eq name
  rw [stringBytes] at hname
  rw [fieldsChars, encodeAll_append, encodeAll_append, encodeAll_append, encodeAll_cons, hcolon,
    hcomma, hname]
  simp only [List.append_assoc, List.cons_append, List.nil_append, valueBytes]

/-- What follows a written value in an object may follow a value. -/
theorem ends_fields (ws : List (String × Value)) (rest : Bytes) :
    Ends (encodeAll (fieldsChars false ws) ++ 0x7D :: rest) := by
  cases ws with
  | nil => exact .brace rest
  | cons w ws =>
    rw [fieldsBytes_cons]
    exact .comma _

theorem length_le_fieldsChars (first : Bool) (ws : List (String × Value)) (rest : Bytes) :
    ws.length ≤ (encodeAll (fieldsChars first ws) ++ 0x7D :: rest).length := by
  induction ws generalizing first with
  | nil => exact Nat.zero_le _
  | cons w ws ih =>
    have := ih false
    rw [fieldsBytes_cons]
    simp only [List.length_append, List.length_cons] at this ⊢
    omega

/-- The name of a written field is read before its value. -/
theorem readFields_cons (fields : List (Field σ)) (fuel : Nat) (first : Bool) (seen : List String)
    (r : σ) (name : String) (v : Value) (ws : List (String × Value)) (rest : Bytes) :
    Shape.readFields fields (fuel + 1) first seen r
        (encodeAll (fieldsChars first ((name, v) :: ws)) ++ 0x7D :: rest) =
      Shape.readField fields seen name r
          (valueBytes v ++ (encodeAll (fieldsChars false ws) ++ 0x7D :: rest)) >>= fun x =>
        Shape.readFields fields fuel false x.1.1 x.1.2 x.2 := by
  have hname := readString_written name
    (0x3A :: (valueBytes v ++ (encodeAll (fieldsChars false ws) ++ 0x7D :: rest)))
  have hcolon : ∀ bs : Bytes, expectByte 0x3A (skipSpace (0x3A :: bs)) = .ok bs := fun _ => rfl
  have hquote : ∀ bs : Bytes, expectByte 0x22 (0x22 :: bs) = .ok bs := fun _ => rfl
  rw [fieldsBytes_cons]
  cases first with
  | true =>
    have hskip : ∀ bs : Bytes, skipSpace (0x22 :: bs) = 0x22 :: bs := fun _ => rfl
    have hbrace : ¬ ((0x22 : UInt8) = 0x7D) := by decide
    rw [Shape.readFields, if_pos rfl, List.nil_append, hskip]
    simp only [if_neg hbrace, if_true, bind, Except.bind, pure, Except.pure, hquote, hname, hcolon]
  | false =>
    have hskip : ∀ bs : Bytes, skipSpace (0x2C :: bs) = 0x2C :: bs := fun _ => rfl
    have hskip' : ∀ bs : Bytes, skipSpace (0x22 :: bs) = 0x22 :: bs := fun _ => rfl
    have hbrace : ¬ ((0x2C : UInt8) = 0x7D) := by decide
    rw [Shape.readFields, if_neg Bool.false_ne_true, List.singleton_append, hskip]
    simp only [if_neg hbrace, if_neg Bool.false_ne_true, if_true, bind, Except.bind, pure,
      Except.pure, hskip', hquote, hname, hcolon]

theorem readFields_written {fields : List (Field σ)} {seen : List String} {r : σ}
    {ws : List (String × Value)} {out : Except ReadError (List String × σ)}
    (h : Written fields seen r ws out) :
    ∀ (fuel : Nat) (first : Bool) (rest : Bytes), ws.length < fuel →
      Shape.readFields fields fuel first seen r
        (encodeAll (fieldsChars first ws) ++ 0x7D :: rest) = out.map fun x => (x, rest) := by
  induction h with
  | nil seen r =>
    intro fuel first rest hfuel
    obtain ⟨fuel, rfl⟩ := Nat.exists_eq_succ_of_ne_zero (Nat.ne_of_gt hfuel)
    rfl
  | @field seen r name v f set ws out hf hnew hread _ ih =>
    intro fuel first rest hfuel
    obtain ⟨fuel, rfl⟩ := Nat.exists_eq_succ_of_ne_zero (Nat.ne_of_gt (Nat.zero_lt_of_lt hfuel))
    have hvalue := hread _ (ends_fields ws rest)
    have hfield : Shape.readField fields seen name r
        (valueBytes v ++ (encodeAll (fieldsChars false ws) ++ 0x7D :: rest)) =
          .ok ((name :: seen, set r), encodeAll (fieldsChars false ws) ++ 0x7D :: rest) := by
      simp only [Shape.readField, hf, hnew, Bool.false_eq_true, if_false, hvalue]
      rfl
    rw [readFields_cons, hfield]
    exact ih fuel false rest (Nat.lt_of_succ_lt_succ hfuel)
  | @fault seen r name v f e ws hf hnew hread =>
    intro fuel first rest hfuel
    obtain ⟨fuel, rfl⟩ := Nat.exists_eq_succ_of_ne_zero (Nat.ne_of_gt (Nat.zero_lt_of_lt hfuel))
    have hvalue := hread _ (ends_fields ws rest)
    have hfield : Shape.readField fields seen name r
        (valueBytes v ++ (encodeAll (fieldsChars false ws) ++ 0x7D :: rest)) =
          .error (e.inside name) := by
      simp only [Shape.readField, hf, hnew, Bool.false_eq_true, if_false, hvalue]
      rfl
    rw [readFields_cons, hfield]
    rfl

/-- Nothing is missing where every field was seen or may be left out without effect. -/
theorem complete_eq {fields : List (Field σ)} {seen : List String}
    (h : ∀ f ∈ fields, seen.contains f.name = true ∨ f.missing = some id) (r : σ) :
    Shape.complete seen fields r = .ok r := by
  induction fields with
  | nil => rfl
  | cons f fields ih =>
    have hrest := ih fun x hx => h x (List.mem_cons_of_mem f hx)
    rw [Shape.complete]
    split
    · exact hrest
    · next hseen =>
      rcases h f List.mem_cons_self with hf | hf
      · exact absurd hf hseen
      · rw [hf]
        exact hrest

/-- A written object is read as its fields say. -/
theorem Shape.read_written {shape : Shape σ} {ws : List (String × Value)}
    {out : Except ReadError (List String × σ)} (h : Written shape.fields [] shape.blank ws out)
    (rest : Bytes) :
    shape.read (valueBytes (.record ws) ++ rest) =
      out >>= fun x => complete x.1 shape.fields x.2 >>= fun r => .ok (r, rest) := by
  have hbytes : valueBytes (.record ws) ++ rest =
      0x7B :: (encodeAll (fieldsChars true ws) ++ 0x7D :: rest) := by
    rw [valueBytes, Value.chars, List.cons_append, encodeAll_cons, encodeAll_append,
      List.append_assoc, List.append_assoc]
    rfl
  have hskip : ∀ bs : Bytes, skipSpace (0x7B :: bs) = 0x7B :: bs := fun _ => rfl
  have hfuel := Nat.lt_succ_of_le (length_le_fieldsChars true ws rest)
  rw [read, hbytes, hskip]
  simp only [if_true, readFields_written h _ true rest hfuel]
  cases out with
  | error e => rfl
  | ok x => rfl

theorem readAll_written {shape : Shape σ} {ws : List (String × Value)} {seen : List String} {r : σ}
    (h : Written shape.fields [] shape.blank ws (.ok (seen, r)))
    (hall : ∀ f ∈ shape.fields, seen.contains f.name = true ∨ f.missing = some id) :
    readAll shape.read (Value.record ws).bytes = .ok r := by
  have hread := Shape.read_written h []
  rw [List.append_nil] at hread
  rw [readAll, Value.bytes_eq, hread]
  simp only [bind, Except.bind, complete_eq hall]
  rfl

theorem readAll_fault {shape : Shape σ} {ws : List (String × Value)} {e : ReadError}
    (h : Written shape.fields [] shape.blank ws (.error e)) :
    readAll shape.read (Value.record ws).bytes = .error e := by
  have hread := Shape.read_written h []
  rw [List.append_nil] at hread
  rw [readAll, Value.bytes_eq, hread]
  rfl

end TransferLedger.Json
