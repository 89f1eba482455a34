import TransferLedger.Config.CommandLine
import TransferLedger.Http.Line
import TransferLedger.Service.Identifier

/-!
The program. It looks at the environment and the files that its configuration names, prints what the
run comes to, and serves requests from standard input, one a line, until the input ends.
-/
namespace TransferLedger
set_option autoImplicit false

/-- The variables that the program looks at, with their values. -/
def readEnvironment : IO (List (String × String)) := do
  let names := "RUST_LOG" :: Setting.all.map (·.variableName)
  let found ← names.mapM fun name => do
    let value ← IO.getEnv name
    return value.map fun v => (name, v)
  return found.filterMap id

/-- The paths that the databases of an invocation depend on. -/
def pathsOf (env : String → Option String) (arguments : List String) : List String :=
  match Invocation.read env arguments with
  | .error _ => []
  | .ok i =>
    (i.config.dbUrl :: i.config.ledgerDbUrl.toList).flatMap fun url =>
      match DatabaseAddress.read url with
      | .ok address => [address.file, DatabaseAddress.directory address.file]
      | .error _ => []

/-- Something at a path can be opened for reading. -/
def opens (path : String) : IO Bool := do
  try
    let _ ← IO.FS.Handle.mk path .read
    return true
  catch _ => return false

/-- What an invocation finds on this machine. The empty path is the working directory. -/
def readMachine (arguments : List String) : IO Machine := do
  let found ← readEnvironment
  let env := fun name => found.lookup name
  let paths := pathsOf env arguments
  let directories ← paths.filterM fun path => opens ((if path.isEmpty then "." else path) ++ "/.")
  let files ← paths.filterM fun path => do
    let found ← opens path
    return found && !directories.contains path
  return { env := env, files := ⟨files.contains, directories.contains⟩, canListen := true }

def readInstant : IO Instant := do
  let nanos ← IO.monoNanosNow
  return ⟨nanos / 1000000000, nanos % 1000000000⟩

/-- Answers lines until the input ends. -/
partial def serveLines (s : Settings) (input output : IO.FS.Stream) (w : World) : IO Unit := do
  let line ← input.getLine
  if line.isEmpty then return
  let now ← readInstant
  let random ← IO.getRandomBytes 16
  let text := String.ofList (line.toList.filter fun c => c != '\n' && c != '\r')
  let (answer, w) := w.exchange s ⟨.sound, now, Identifier.ofBytes random.toList⟩ text
  output.putStrLn answer
  output.flush
  serveLines s input output w

/-- Serves an empty world under a configuration. -/
def serveConfig (c : ServerConfig) : IO Unit := do
  match World.start c.settings .empty .empty with
  | .ok w => serveLines c.settings (← IO.getStdin) (← IO.getStdout) w
  | .error e => IO.eprintln e.message

def runArguments (arguments : List String) : IO UInt32 := do
  let machine ← readMachine arguments
  let ending := runProgram machine arguments
  IO.print ending.stdout
  if !ending.stderr.isEmpty then IO.eprintln ending.stderr
  if ending.exit = 0 then
    if let .ok ⟨.serve, config⟩ := Invocation.read machine.env arguments then serveConfig config
  return ending.exit.toUInt32

end TransferLedger

def main (arguments : List String) : IO UInt32 := TransferLedger.runArguments arguments
