import TransferLedger.Text.Percent
import TransferLedger.Store.Engine
import TransferLedger.Text.Quoted

/-!
Addresses of databases, `sqlite:file?parameters`: a file or memory, and how it may be opened.
-/
namespace TransferLedger
set_option autoImplicit false

/-- Where a database is and how it is opened. -/
structure DatabaseAddress where
  file : String
  inMemory : Bool := false
  readOnly : Bool := false
  /-- The named way to reach the file system, where one is named. -/
  fileSystem : Option String := none
deriving DecidableEq, Repr

/-- Which files and directories there are. -/
structure Files where
  hasFile : String → Bool
  hasDirectory : String → Bool

namespace DatabaseAddress

/-- A text without a beginning, as often as it has it; the first argument bounds the number. -/
def dropRepeated (beginning : List Char) : Nat → List Char → List Char
  | 0, cs => cs
  | fuel + 1, cs =>
    if beginning.isPrefixOf cs then dropRepeated beginning fuel (cs.drop beginning.length) else cs

def withoutScheme (url : String) : List Char :=
  let cs := url.toList
  dropRepeated "//".toList cs.length (dropRepeated "sqlite:".toList cs.length cs)

def unknownValue (parameter value : String) : EngineError :=
  .configuration s!"unknown value {Text.quoted value} for `{parameter}`"

def applyParameter (a : DatabaseAddress) (name value : String) :
    Except EngineError DatabaseAddress :=
  match name with
  | "mode" =>
    match value with
    | "ro" => .ok { a with readOnly := true }
    | "rw" | "rwc" => .ok a
    | "memory" => .ok { a with inMemory := true }
    | _ => .error (unknownValue name value)
  | "cache" =>
    match value with
    | "private" | "shared" => .ok a
    | _ => .error (unknownValue name value)
  | "immutable" =>
    match value with
    | "true" | "1" | "false" | "0" => .ok a
    | _ => .error (unknownValue name value)
  | "vfs" => .ok { a with fileSystem := some value }
  | _ => .error (.configuration s!"unknown query parameter `{name}` while parsing connection URL")

def read (url : String) : Except EngineError DatabaseAddress := do
  let (database, parameters) := Text.cut '?' (withoutScheme url)
  let address : DatabaseAddress ←
    if database = ":memory:".toList then .ok { file := "", inMemory := true }
    else match Percent.decodeSegment? (String.ofList database) with
      | some file => .ok { file := file }
      | none => .error (.configuration "invalid utf-8 sequence")
  (Percent.queryPairs (parameters.getD [])).foldlM
    (fun a (p : String × String) => applyParameter a p.1 p.2) address

/-- The directory of a file: what stands before the last slash of its path. -/
def directory (file : String) : String :=
  match (Text.split '/' file.toList).dropLast with
  | [] => ""
  | [[]] => "/"
  | parts => String.ofList ("/".toList.intercalate parts)

def fileSystems : List String := ["unix", "unix-dotfile", "unix-excl", "unix-none", "memdb"]

/-- The file can be opened, or created where that is allowed. -/
def reachable (a : DatabaseAddress) (files : Files) : Bool :=
  a.file = "" || files.hasFile a.file
    || (!a.readOnly && !files.hasDirectory a.file && a.file.toList.getLast? != some '/'
      && files.hasDirectory (directory a.file))

/-- Opens a database, creating its file if it may be written. -/
def connect (files : Files) (a : DatabaseAddress) : Except EngineError Unit :=
  match a.fileSystem.filter fun name => !fileSystems.contains name with
  | some name => .error (.database 1 s!"no such vfs: {name}")
  | none =>
    if a.inMemory || a.reachable files then .ok ()
    else .error (.database 14 "unable to open database file")

def open? (files : Files) (url : String) : Except EngineError Unit := do
  let address ← read url
  address.connect files

end DatabaseAddress

end TransferLedger
