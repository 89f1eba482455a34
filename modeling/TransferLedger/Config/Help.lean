import TransferLedger.Config.Command
import TransferLedger.Config.Server

/-!
The pages of the help. A page says what it is about, how it is used, and which commands and options
there are. Every option has a line of its own under it, with its variable, the value that the
environment has for it, and its default.
-/
namespace TransferLedger
set_option autoImplicit false

namespace Setting

def summary : Setting → String
  | .logLevel => "Log level used when RUST_LOG is not set"
  | .host => "Address to listen on"
  | .httpPort => "HTTP port"
  | .dbUrl => "SQLite database URL"
  | .ledgerDbUrl => "SQLite URL of the ledger store; the relational database when unset"
  | .relayMaxDeliveries => "Deliveries before a failing event is dead-lettered"
  | .ledgerMaxAttempts => "Attempts per ledger write"
  | .ledgerBackoffMillis => "First ledger retry delay in milliseconds"

def get (s : Setting) (c : ServerConfig) : Option String :=
  match s with
  | .logLevel => some c.logLevel
  | .host => some c.host
  | .httpPort => some (toString c.httpPort)
  | .dbUrl => some c.dbUrl
  | .ledgerDbUrl => c.ledgerDbUrl
  | .relayMaxDeliveries => some (toString c.relayMaxDeliveries)
  | .ledgerMaxAttempts => some (toString c.ledgerMaxAttempts)
  | .ledgerBackoffMillis => some (toString c.ledgerBackoffMillis)

def helpLines (env : String → Option String) (s : Setting) : List String :=
  let value := (env s.variableName).getD ""
  let default := ((s.get {}).map fun d => s!" [default: {d}]").getD ""
  [s!"      {s.usage}", s!"          {s.summary} [env: {s.variableName}={value}]{default}"]

end Setting

namespace HelpPage

def helpSummary : String := "Print this message or the help of the given subcommand(s)"

def padded (width : Nat) (s : String) : String :=
  s ++ String.ofList (List.replicate (width - s.length) ' ')

def commandLines : List String :=
  let rows := (Command.all.map fun c => (c.name, c.summary)) ++ [("help", helpSummary)]
  "Commands:" :: rows.map fun r => "  " ++ padded 7 r.1 ++ "  " ++ r.2

def optionLines (env : String → Option String) : List String :=
  "Options:" :: (Setting.all.flatMap (Setting.helpLines env)
    ++ ["  -h, --help", "          Print help"])

def lines (env : String → Option String) : HelpPage → List String
  | .program =>
    ["DBank - transfer execution and ledger pipeline", "", "Usage: dbank [OPTIONS] [COMMAND]", ""]
      ++ commandLines ++ [""] ++ optionLines env
  | .command c => [c.summary, "", s!"Usage: dbank {c.name} [OPTIONS]", ""] ++ optionLines env
  | .help =>
    [helpSummary, "", "Usage: dbank help [COMMAND]...", "", "Arguments:",
      "  [COMMAND]...  Print help for the subcommand(s)"]

def text (env : String → Option String) (p : HelpPage) : String :=
  String.join ((p.lines env).map fun l => l ++ "\n")

end HelpPage

end TransferLedger
