import TransferLedger.Bank.Error
import TransferLedger.Config.Arguments
import TransferLedger.Config.Help
import TransferLedger.Config.LogFilter
import TransferLedger.Ledger.Error
import TransferLedger.Store.Address

/-!
The command line: which command is meant under which configuration, and what each command comes to
on a machine. Flags may stand before and after the name of the command; those after it count first.
-/
namespace TransferLedger
set_option autoImplicit false

/-- A command and its configuration. -/
structure Invocation where
  command : Command
  config : ServerConfig
deriving DecidableEq, Repr

namespace Invocation

/-- Asking for help on a command, on the help itself or on all. -/
def helpOn : List String → UsageError
  | [] => .help .program
  | name :: rest =>
    match (if name = "help" then some .help else (Command.ofName? name).map .command), rest with
    | none, _ => .unknownCommand name
    | some _, extra :: _ => .unknownCommand extra
    | some page, [] => .help page

/-- Reads the command after the flags of the whole. -/
def readCommand (env : String → Option String) (whole : Arguments) (name : String)
    (rest : List String) : Except UsageError Invocation :=
  match Command.ofName? name with
  | none => .error (if name = "help" then helpOn rest else .unknownCommand name)
  | some command => do
    let (own, _, extra) ← Arguments.read (.command command) rest .empty
    match extra with
    | text :: _ => .error (.unknownArgument text)
    | [] =>
      let own ← own.finish env
      let whole ← whole.finish env
      let both : Arguments := ⟨own.given ++ whole.given, none⟩
      .ok ⟨command, both.config env⟩

/-- Reads the arguments of the program; without a command it serves. -/
def read (env : String → Option String) (arguments : List String) :
    Except UsageError Invocation := do
  let (whole, separated, rest) ← Arguments.read .program arguments .empty
  match rest with
  | [] =>
    let whole ← whole.finish env
    .ok ⟨.serve, whole.config env⟩
  | name :: rest =>
    if separated then
      .error (if (Command.ofName? name).isSome then .unknownArgument name else .unknownCommand name)
    else readCommand env whole name rest

end Invocation

/-! ## Running -/

/-- What the program finds on a machine. -/
structure Machine where
  env : String → Option String
  files : Files
  /-- The address can be listened on. -/
  canListen : Bool

/-- How a run ends: the exit code, the first lines of what is said, and what the server logs. -/
structure Ending where
  exit : Nat
  stdout : String := ""
  stderr : String := ""
  log : List String := []
deriving DecidableEq, Repr

def programVersion : String := "dbank 0.1.0"

def Ending.failed (reason : String) : Ending where
  exit := 1
  stderr := s!"Error: {reason}"

def ServerConfig.openDatabases (c : ServerConfig) (files : Files) : Except String Unit := do
  (DatabaseAddress.open? files c.dbUrl).mapError fun e => (BankError.database e).message
  match c.ledgerDbUrl with
  | none => .ok ()
  | some url => (DatabaseAddress.open? files url).mapError fun e => (StoreError.ofEngine e).message

/-- The filter of log messages: the one in the environment if it is right, else one made of the
configured level, with a warning for every part of it that is not. -/
def logFilter (m : Machine) (c : ServerConfig) : LogFilter × List String :=
  match (m.env "RUST_LOG").bind LogFilter.read? with
  | some filter => (filter, [])
  | none => LogFilter.readSome s!"{c.logLevel},tower_http={c.logLevel}"

/-- What the server logs from its start to its end by an interrupt, with the targets. -/
def operationLog : List (String × String) :=
  [("event relay started", "dbank_bus::relay"), ("DBank server listening", "dbank"),
    ("shutdown signal received", "dbank"), ("event relay stopped", "dbank_bus::relay"),
    ("DBank server stopped", "dbank")]

/-- Ends a run of the server before it listens, if something is in its way. -/
def serveFails (m : Machine) (c : ServerConfig) : Option Ending :=
  match c.openDatabases m.files with
  | .error _ => some (.failed "failed to initialize application")
  | .ok _ =>
    if m.canListen then none else some (.failed s!"failed to bind {c.bindAddress}")

/-- How a run ends; a server that listens ends when it is interrupted. -/
def Invocation.run (m : Machine) (i : Invocation) : Ending :=
  match i.command with
  | .version => { exit := 0, stdout := programVersion ++ "\n" }
  | .migrate =>
    match i.config.openDatabases m.files with
    | .error reason => .failed reason
    | .ok _ => { exit := 0, stdout := s!"✅ Schema ready at {i.config.dbUrl}\n" }
  | .serve =>
    (serveFails m i.config).getD
      { exit := 0
        log := (operationLog.filter fun e => (logFilter m i.config).1.showsInfo e.2).map (·.1) }

/-- How a run with some arguments ends. Warnings about the log filter come first. -/
def runProgram (m : Machine) (arguments : List String) : Ending :=
  match Invocation.read m.env arguments with
  | .ok i =>
    let ending := i.run m
    { ending with stderr := (logFilter m i.config).2.headD ending.stderr }
  | .error (.help page) => { exit := 0, stdout := page.text m.env }
  | .error e => { exit := 2, stderr := e.message }

end TransferLedger
