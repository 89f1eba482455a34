import TransferLedger.Json.Scanner

/-!
Reading JSON numbers. Integers of up to 64 bits are exact; all other numbers become binary numbers,
computed from the digits that fit into 64 bits and a rounded power of ten.
-/
namespace TransferLedger.Json
set_option autoImplicit false

/-- A number: integers of up to 64 bits are exact, all others are binary numbers. -/
inductive Number
  | integer (n : Int)
  | float (x : Binary64)
deriving DecidableEq, Repr

/-- A number as something found in the wrong place. -/
def Number.found : Number → Found
  | .integer n => .integer n
  | .float x => .float x

/-- The largest unsigned number of 64 bits. -/
def maxWord : Nat := 18446744073709551615

/-- Appends digits to a significand as long as it stays below 2^64: the significand and how many
digits it took. -/
def accumulate (significand : Nat) : Bytes → Nat × Nat
  | [] => (significand, 0)
  | d :: ds =>
    let n := significand * 10 + digitValue d
    if maxWord < n then (significand, 0)
    else
      let (m, used) := accumulate n ds
      (m, used + 1)

/-- `significand · 10^exponent` in binary: the significand is rounded, then multiplied or divided by
a rounded power of ten, in several steps if the exponent is very small. A number too large for a
binary number is refused. -/
def floatOfParts (significand : Binary64) (exponent : Int) : Nat → Except ReadError Binary64
  | 0 => .ok (.zero false)
  | fuel + 1 =>
    if exponent.natAbs ≤ 308 then
      if 0 ≤ exponent then
        let x := significand.mul (.ofNat (Nat.pow 10 exponent.natAbs))
        if x.isInfinite then .error .malformed else .ok x
      else .ok (significand.div (.ofNat (Nat.pow 10 exponent.natAbs)))
    else if significand.isZero then .ok significand
    else if 0 ≤ exponent then .error .malformed
    else floatOfParts (significand.div (.ofNat (Nat.pow 10 308))) (exponent + 308) fuel

/-- The binary number of a sign, a significand and an exponent. -/
def signedFloat (negative : Bool) (significand : Nat) (exponent : Int) :
    Except ReadError Number := do
  let x ← floatOfParts (.ofNat significand) exponent 8
  pure (.float (if negative then x.neg else x))

def readExponent (negative : Bool) (significand : Nat) (exponent : Int) : Reader Number :=
  fun bs =>
    let (down, bs) := match bs with
      | 0x2B :: rest => (false, rest)
      | 0x2D :: rest => (true, rest)
      | _ => (false, bs)
    match bs with
    | [] => .error .ended
    | d :: _ =>
      if !isDigit d then .error .malformed
      else
        let ds := bs.takeWhile isDigit
        let rest := bs.dropWhile isDigit
        let e := ds.foldl (fun n d => 10 * n + digitValue d) 0
        if e < 2147483648 then do
          let x ← signedFloat negative significand (if down then exponent - e else exponent + e)
          .ok (x, rest)
        else if significand ≠ 0 && !down then .error .malformed
        else .ok (.float (.zero negative), rest)

def readFraction (negative : Bool) (significand : Nat) (exponent : Int) : Reader Number :=
  fun bs =>
    let ds := bs.takeWhile isDigit
    let rest := bs.dropWhile isDigit
    if ds.isEmpty then .error (if rest.isEmpty then .ended else .malformed)
    else
      let (significand, used) := accumulate significand ds
      let exponent := exponent - used
      match rest with
      | b :: rest' =>
        if b = 0x65 || b = 0x45 then readExponent negative significand exponent rest'
        else do
          let x ← signedFloat negative significand exponent
          .ok (x, rest)
      | [] => do
        let x ← signedFloat negative significand exponent
        .ok (x, rest)

/-- An integer without point and exponent. Minus zero is a binary number. -/
def integerNumber (negative : Bool) (n : Nat) : Number :=
  if !negative then .integer n
  else if 0 < n && n ≤ 9223372036854775808 then .integer (-n)
  else .float (Binary64.ofNat n).neg

def readUnsigned (negative : Bool) : Reader Number := fun bs =>
  match bs with
  | [] => .error .ended
  | b :: _ =>
    if !isDigit b then .error .malformed
    else
      let ds := bs.takeWhile isDigit
      let rest := bs.dropWhile isDigit
      if b = 0x30 && 1 < ds.length then .error .malformed
      else
        let (significand, used) := accumulate 0 ds
        let dropped : Int := (ds.length : Int) - used
        match rest with
        | 0x2E :: rest => readFraction negative significand dropped rest
        | 0x65 :: rest => readExponent negative significand dropped rest
        | 0x45 :: rest => readExponent negative significand dropped rest
        | _ =>
          if dropped = 0 then .ok (integerNumber negative significand, rest)
          else do
            let x ← signedFloat negative significand dropped
            .ok (x, rest)

/-- A number, at its sign or first digit. -/
def readNumber : Reader Number
  | 0x2D :: rest => readUnsigned true rest
  | bs => readUnsigned false bs

/-- What is left after the exponent of a number that does not matter. -/
def skipExponent (bs : Bytes) : Except ReadError Bytes :=
  let bs := match bs with
    | 0x2B :: rest => rest
    | 0x2D :: rest => rest
    | _ => bs
  match bs with
  | [] => .error .malformed
  | d :: _ => if isDigit d then .ok (bs.dropWhile isDigit) else .error .malformed

/-- What is left after a number that does not matter. -/
def skipNumber (bs : Bytes) : Except ReadError Bytes :=
  let bs := match bs with
    | 0x2D :: rest => rest
    | _ => bs
  let ds := bs.takeWhile isDigit
  let rest := bs.dropWhile isDigit
  if ds.isEmpty || (ds.head? == some 0x30 && 1 < ds.length) then .error .malformed
  else match rest with
    | 0x2E :: rest =>
      if (rest.takeWhile isDigit).isEmpty then .error .malformed
      else match rest.dropWhile isDigit with
        | 0x65 :: rest => skipExponent rest
        | 0x45 :: rest => skipExponent rest
        | rest => .ok rest
    | 0x65 :: rest => skipExponent rest
    | 0x45 :: rest => skipExponent rest
    | rest => .ok rest

end TransferLedger.Json
