import TransferLedger.Json.Number
import TransferLedger.Json.Text

/-!
Passing over a JSON value whose content does not matter, of any depth.
-/
namespace TransferLedger.Json
set_option autoImplicit false

/-- An array or object whose end has not been reached. -/
inductive Frame
  | array
  | object
deriving DecidableEq, Repr

/-- What comes next while passing over a value: a value, or the rest of the innermost frame, where
a comma may stand only after a first element. -/
inductive Skipping
  | value
  | rest (comma : Bool)
deriving DecidableEq, Repr

/-- Passes over a value of any depth; the first argument bounds the number of steps. -/
def skipFrames : Nat → Skipping → List Frame → Bytes → Except ReadError Bytes
  | 0, _, _, _ => .error .malformed
  | fuel + 1, .value, frames, bs =>
    let after (rest : Bytes) : Except ReadError Bytes :=
      if frames.isEmpty then .ok rest else skipFrames fuel (.rest true) frames rest
    match skipSpace bs with
    | [] => .error .ended
    | b :: rest =>
      if b = 0x6E then (do after (← readWord restOfNull rest))
      else if b = 0x74 then (do after (← readWord restOfTrue rest))
      else if b = 0x66 then (do after (← readWord restOfFalse rest))
      else if b = 0x22 then (do after (← skipString rest))
      else if b = 0x2D || isDigit b then (do after (← skipNumber (b :: rest)))
      else if b = 0x5B then skipFrames fuel (.rest false) (.array :: frames) rest
      else if b = 0x7B then skipFrames fuel (.rest false) (.object :: frames) rest
      else .error .malformed
  | _, .rest _, [], bs => .ok bs
  | fuel + 1, .rest comma, frame :: frames, bs =>
    let key (bs : Bytes) : Except ReadError Bytes :=
      match frame with
      | .array => .ok bs
      | .object => do
        let bs ← expectByte 0x22 (skipSpace bs)
        let bs ← skipString bs
        expectByte 0x3A (skipSpace bs)
    match skipSpace bs with
    | [] => .error .ended
    | b :: rest =>
      if b = 0x2C && comma then (do skipFrames fuel .value (frame :: frames) (← key rest))
      else if (b = 0x5D && frame == .array) || (b = 0x7D && frame == .object) then
        skipFrames fuel (.rest true) frames rest
      else if comma then .error .malformed
      else (do skipFrames fuel .value (frame :: frames) (← key (b :: rest)))

/-- What is left after a value that does not matter. -/
def skipValue (bs : Bytes) : Except ReadError Bytes :=
  skipFrames (2 * bs.length + 2) .value [] bs

end TransferLedger.Json
