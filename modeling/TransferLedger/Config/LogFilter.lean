import TransferLedger.Text.Integer
import TransferLedger.Text.Split
import TransferLedger.Text.Upper

/-!
Filters of log messages: directives between commas, each a level, a target, or a target with a
level. Of the directives whose target begins the target of a message, the longest decides, and a
later one replaces an earlier one of the same target.
-/
namespace TransferLedger
set_option autoImplicit false

/-- Messages of a target are shown up to a level: 0 shows none, 5 all. -/
structure LogDirective where
  target : String
  level : Nat
deriving DecidableEq, Repr

namespace LogDirective

/-- The names of the levels, from 0 on. -/
def levelNames : List String := ["off", "error", "warn", "info", "debug", "trace"]

/-- The level of normal operation. -/
def info : Nat := 3

/-- A level by name, in any letter case, or by number. -/
def levelOf? (text : String) : Option Nat :=
  match Text.readNatural 5 text with
  | .ok n => some n
  | .error _ => levelNames.idxOf? (Text.asciiLower text)

/-- The report on a directive with a level that there is not. -/
def badLevel : String :=
  "error parsing level filter: expected one of \"off\", \"error\", \"warn\", \"info\", \"debug\", " ++
    "\"trace\", or a number 0-5"

def begins (c : Char) : Bool := c.isAlphanum || ['-', ':', '_'].contains c || 127 < c.toNat

/-- Reads a directive; a target without a level shows everything. -/
def read (text : String) : Except String LogDirective :=
  match text.toList with
  | [] => .ok ⟨"", 5⟩
  | c :: _ =>
    if !begins c then .error "invalid filter directive"
    else match Text.cut '=' text.toList with
      | (target, some level) =>
        if level.isEmpty then .ok ⟨String.ofList target, 5⟩
        else match levelOf? (String.ofList level) with
          | some n => .ok ⟨String.ofList target, n⟩
          | none => .error badLevel
      | (_, none) =>
        match levelOf? text with
        | some n => .ok ⟨"", n⟩
        | none => .ok ⟨text, 5⟩

end LogDirective

/-- The directives of a filter. -/
abbrev LogFilter := List LogDirective

namespace LogFilter

def parts (text : String) : List String :=
  ((Text.split ',' text.toList).filter fun p => !p.isEmpty).map String.ofList

/-- Reads a filter all of whose directives are right. -/
def read? (text : String) : Option LogFilter :=
  (parts text).mapM fun p => (LogDirective.read p).toOption

/-- Reads the directives that are right, with a warning for each of the others. -/
def readSome (text : String) : LogFilter × List String :=
  (parts text).foldl (fun (filter, warnings) p =>
    match LogDirective.read p with
    | .ok d => (filter ++ [d], warnings)
    | .error reason => (filter, warnings ++ [s!"ignoring `{p}`: {reason}"])) ([], [])

/-- The directive that decides about a target: of the matching ones the longest, of those the last. -/
def deciding? (filter : LogFilter) (target : String) : Option LogDirective :=
  (filter.filter fun d => d.target.toList.isPrefixOf target.toList).foldl (fun best d =>
    match best with
    | none => some d
    | some b => if b.target.length ≤ d.target.length then some d else some b) none

/-- Messages of normal operation are shown for a target. -/
def showsInfo (filter : LogFilter) (target : String) : Bool :=
  (filter.deciding? target).any fun d => LogDirective.info ≤ d.level

end LogFilter

end TransferLedger
