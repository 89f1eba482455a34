import TransferLedger.Config.Command
import TransferLedger.Config.Server

/-!
Reading settings from arguments and the environment. A flag takes its value after an equals sign or
from the next argument, which must not look like a flag. A value is examined when the next flag
begins or the arguments end, and what the arguments leave open is looked up in the environment.
-/
namespace TransferLedger
set_option autoImplicit false

/-- Why arguments are refused. -/
inductive UsageError
  | invalidValue (setting : Setting) (value reason : String)
  | missingValue (setting : Setting)
  | repeated (setting : Setting)
  | unknownArgument (text : String)
  | unknownCommand (name : String)
  /-- A value is attached to a flag that takes none. -/
  | unexpectedValue (flag value : String)
  /-- Help was asked for. -/
  | help (page : HelpPage)
deriving DecidableEq, Repr

def UsageError.message : UsageError → String
  | .invalidValue s v r => s!"error: invalid value '{v}' for '{s.usage}': {r}"
  | .missingValue s => s!"error: a value is required for '{s.usage}' but none was supplied"
  | .repeated s => s!"error: the argument '{s.usage}' cannot be used multiple times"
  | .unknownArgument t => s!"error: unexpected argument '{t}' found"
  | .unknownCommand n => s!"error: unrecognized subcommand '{n}'"
  | .unexpectedValue f v => s!"error: unexpected value '{v}' for '{f}' found; no more were expected"
  | .help _ => ""

/-- The values that were given, first one first, and a flag whose value is not examined yet. -/
structure Arguments where
  given : List (Setting × String)
  pending : Option (Setting × Option String)
deriving DecidableEq, Repr

namespace Arguments

def empty : Arguments := ⟨[], none⟩

def value? (a : Arguments) (s : Setting) : Option String :=
  (a.given.find? fun e => e.1 == s).map (·.2)

/-- A setting takes a value. -/
def checkValue (s : Setting) (value : String) : Except UsageError Unit :=
  match s.set value {} with
  | .ok _ => .ok ()
  | .error reason => .error (.invalidValue s value reason)

def give (a : Arguments) (s : Setting) (value : String) : Except UsageError Arguments := do
  if (a.value? s).isSome then .error (.repeated s)
  else
    checkValue s value
    .ok { a with given := a.given ++ [(s, value)] }

/-- Examines the flag that is pending. -/
def settle (a : Arguments) : Except UsageError Arguments :=
  match a.pending with
  | none => .ok a
  | some (s, none) => .error (.missingValue s)
  | some (s, some value) => give { a with pending := none } s value

/-- What an argument looks like. -/
inductive Shape
  /-- Everything after it is no flag. -/
  | separator
  | long (name : String) (value : Option String)
  | short (letter : Char)
  | plain
deriving DecidableEq, Repr

def shapeOf (argument : String) : Shape :=
  match argument.toList with
  | ['-', '-'] => .separator
  | '-' :: '-' :: rest =>
    let (name, value) := Text.cut '=' rest
    .long (String.ofList name) (value.map String.ofList)
  | '-' :: c :: _ => .short c
  | _ => .plain

/-- Takes a long flag; help is about a page. -/
def takeLong (page : HelpPage) (a : Arguments) (name : String) (value : Option String) :
    Except UsageError Arguments :=
  match Setting.ofFlag? name with
  | some s => do
    let a ← a.settle
    match value with
    | some v => a.give s v
    | none => .ok { a with pending := some (s, none) }
  | none =>
    if name = "help" then
      match value with
      | some v => .error (.unexpectedValue "--help" v)
      | none => do
        let _ ← a.settle
        .error (.help page)
    else .error (.unknownArgument ("--" ++ name))

/-- Takes a short flag; help is about a page. -/
def takeShort (page : HelpPage) (a : Arguments) (letter : Char) : Except UsageError Arguments :=
  if letter = 'h' then do
    let _ ← a.settle
    .error (.help page)
  else .error (.unknownArgument (String.ofList ['-', letter]))

/-- Reads arguments up to the first one that is neither a flag nor a value; that one and those after
it are left, with whether a separator stands before them. A question for help is about a page. -/
def read (page : HelpPage) :
    List String → Arguments → Except UsageError (Arguments × Bool × List String)
  | [], a => .ok (a, false, [])
  | argument :: rest, a =>
    match shapeOf argument with
    | .separator => .ok (a, true, rest)
    | .long name value => do
      let a ← a.takeLong page name value
      read page rest a
    | .short letter => do
      let a ← a.takeShort page letter
      read page rest a
    | .plain =>
      match a.pending with
      | some (s, none) => read page rest { a with pending := some (s, some argument) }
      | _ => .ok (a, false, argument :: rest)

/-- Every setting that was not given takes the value that the environment has for it. -/
def checkEnvironment (env : String → Option String) (a : Arguments) : Except UsageError Unit :=
  Setting.all.forM fun s =>
    match a.value? s, env s.variableName with
    | none, some value => checkValue s value
    | _, _ => .ok ()

def finish (env : String → Option String) (a : Arguments) : Except UsageError Arguments := do
  let a ← a.settle
  a.checkEnvironment env
  .ok a

/-- The configuration of some arguments over the environment over the defaults. -/
def config (env : String → Option String) (a : Arguments) : ServerConfig :=
  Setting.all.foldl (fun c s =>
    match (a.value? s).or (env s.variableName) with
    | some value => (s.set value c).toOption.getD c
    | none => c) {}

end Arguments

/-- The configuration of arguments that are flags only. -/
def ServerConfig.read (env : String → Option String) (arguments : List String) :
    Except UsageError ServerConfig := do
  let (a, _, rest) ← Arguments.read .program arguments .empty
  match rest with
  | [] =>
    let a ← a.finish env
    .ok (a.config env)
  | extra :: _ => .error (.unknownArgument extra)

end TransferLedger
