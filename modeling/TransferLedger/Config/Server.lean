import TransferLedger.Service.World
import TransferLedger.Text.Integer

/-!
The settings of the server: what each one is called as a flag and in the environment, which values
it takes and what it is by default.
-/
namespace TransferLedger
set_option autoImplicit false

/-- How the server is set up. -/
structure ServerConfig where
  logLevel : String := "info"
  host : String := "0.0.0.0"
  httpPort : Nat := 8080
  dbUrl : String := "sqlite:dbank.db?mode=rwc"
  ledgerDbUrl : Option String := none
  relayMaxDeliveries : UInt32 := 5
  ledgerMaxAttempts : Nat := 3
  ledgerBackoffMillis : Nat := 100
deriving DecidableEq, Repr

namespace ServerConfig

def bindAddress (c : ServerConfig) : String := s!"{c.host}:{c.httpPort}"

def retryPolicy (c : ServerConfig) : RetryPolicy where
  maxAttempts := c.ledgerMaxAttempts
  baseNanos := c.ledgerBackoffMillis * 1000000

def relayConfig (c : ServerConfig) : RelayConfig where
  maxDeliveries := c.relayMaxDeliveries

def settings (c : ServerConfig) : Settings := ⟨c.retryPolicy, c.relayConfig⟩

end ServerConfig

/-- One of the settings. -/
inductive Setting
  | logLevel
  | host
  | httpPort
  | dbUrl
  | ledgerDbUrl
  | relayMaxDeliveries
  | ledgerMaxAttempts
  | ledgerBackoffMillis
deriving DecidableEq, Repr

namespace Setting

/-- All settings, in the order in which the environment is looked at. -/
def all : List Setting :=
  [.logLevel, .host, .httpPort, .dbUrl, .ledgerDbUrl, .relayMaxDeliveries, .ledgerMaxAttempts,
    .ledgerBackoffMillis]

/-- The flag, without its dashes. -/
def flag : Setting → String
  | .logLevel => "log-level"
  | .host => "host"
  | .httpPort => "http-port"
  | .dbUrl => "db-url"
  | .ledgerDbUrl => "ledger-db-url"
  | .relayMaxDeliveries => "relay-max-deliveries"
  | .ledgerMaxAttempts => "ledger-max-attempts"
  | .ledgerBackoffMillis => "ledger-backoff-ms"

/-- The environment variable; it also names the value of the flag in messages. -/
def variableName : Setting → String
  | .logLevel => "LOG_LEVEL"
  | .host => "HOST"
  | .httpPort => "HTTP_PORT"
  | .dbUrl => "DB_URL"
  | .ledgerDbUrl => "LEDGER_DB_URL"
  | .relayMaxDeliveries => "RELAY_MAX_DELIVERIES"
  | .ledgerMaxAttempts => "LEDGER_MAX_ATTEMPTS"
  | .ledgerBackoffMillis => "LEDGER_BACKOFF_MS"

def usage (s : Setting) : String := s!"--{s.flag} <{s.variableName}>"

def ofFlag? (name : String) : Option Setting := all.find? fun s => s.flag == name

/-- A number up to a limit of less than 64 bits. -/
def readBelow (limit : Nat) (value : String) : Except String Nat :=
  match Text.readInteger64 value with
  | .error e => .error e.message
  | .ok n =>
    if 0 ≤ n ∧ n ≤ limit then .ok n.toNat else .error s!"{n} is not in 0..={limit}"

/-- Puts a value into a configuration, unless the setting does not take it. -/
def set (s : Setting) (value : String) (c : ServerConfig) : Except String ServerConfig :=
  match s with
  | .logLevel => .ok { c with logLevel := value }
  | .host => .ok { c with host := value }
  | .httpPort => do
    let n ← readBelow 65535 value
    .ok { c with httpPort := n }
  | .dbUrl => .ok { c with dbUrl := value }
  | .ledgerDbUrl => .ok { c with ledgerDbUrl := some value }
  | .relayMaxDeliveries => do
    let n ← readBelow 4294967295 value
    .ok { c with relayMaxDeliveries := .ofNat n }
  | .ledgerMaxAttempts => do
    let n ← readBelow 4294967295 value
    .ok { c with ledgerMaxAttempts := n }
  | .ledgerBackoffMillis => do
    let n ← (Text.readNatural 18446744073709551615 value).mapError (·.message)
    .ok { c with ledgerBackoffMillis := n }

end Setting

end TransferLedger
