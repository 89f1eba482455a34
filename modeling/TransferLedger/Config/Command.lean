/-!
The commands of the program and the pages of its help.
-/
namespace TransferLedger
set_option autoImplicit false

/-- The commands. -/
inductive Command
  | serve
  | migrate
  | version
deriving DecidableEq, Repr

namespace Command

/-- All commands, in the order of the help. -/
def all : List Command := [.serve, .migrate, .version]

def name : Command → String
  | .serve => "serve"
  | .migrate => "migrate"
  | .version => "version"

def summary : Command → String
  | .serve => "Run the HTTP server and the event relay (default)"
  | .migrate => "Create the relational and ledger schemas and exit"
  | .version => "Print the version"

def ofName? (name : String) : Option Command := all.find? fun c => c.name == name

end Command

/-- A page of the help: the whole program, one command, or the help itself. -/
inductive HelpPage
  | program
  | command (c : Command)
  | help
deriving DecidableEq, Repr

end TransferLedger
