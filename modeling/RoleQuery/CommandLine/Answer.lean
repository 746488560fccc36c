import RoleQuery.Catalog.Build
import RoleQuery.CommandLine.Options
import RoleQuery.Json.Depth
import RoleQuery.Service.Read

/-!
# Answers to command lines

A command line is answered from the files it names: with the statement of the request, or,
where there are tables, with the page that the request asks for. What fails first is reported.
-/
namespace RoleQuery

open Json (Raw)

/-- Why a command line has no answer. -/
inductive CommandFailure where
  | configuration (file : String) (fault : LoadFault)
  | requestUnreadable (file : String)
  | requestInvalid
  | dataUnreadable (file : String)
  | dataInvalid
  | refused (error : RequestError)
  /-- The text of the page nests too deep to be laid out, from `column` on. -/
  | pageTooDeep (column : Nat)
  deriving Repr

def CommandFailure.message : CommandFailure → String
  | .configuration file _ => s!"Failed to load configuration {file}"
  | .requestUnreadable file => s!"Failed to read request {file}"
  | .requestInvalid => "Invalid read request"
  | .dataUnreadable file => s!"Failed to read data {file}"
  | .dataInvalid => "Data file must map object names to document lists"
  | .refused error => error.problem.compact
  | .pageTooDeep column => s!"recursion limit exceeded at line 1 column {column}"

/-- The tables of a document that maps each of them to its rows; of a repeated table
the last entry counts. -/
def Tables.ofRaw? (r : Raw) : Option Tables :=
  (r.mapOf? (Raw.listOf? Raw.value?)).map fun entries =>
    entries.foldl (fun t entry => t.put entry.1 entry.2) .empty

def Tables.ofText? (text : String) : Option Tables := (Raw.ofText? text).bind Tables.ofRaw?

/-- The page that a read asks for, unless its text nests too deep to be laid out. -/
def CompiledRead.page (t : Tables) (q : CompiledRead) : Except CommandFailure Json :=
  match q.answer t with
  | .error error => .error (.refused error)
  | .ok answer =>
    match answer.tooDeepAt? with
    | some column => .error (.pageTooDeep column)
    | none => .ok answer

namespace Options

/-- The contents of files by name; absent where a file cannot be read as text. -/
abbrev Files := String → Option String

/-- The tables to read from, if there are any. -/
def readTables (o : Options) (files : Files) : Except CommandFailure (Option Tables) :=
  match o.data with
  | none => .ok none
  | some file =>
    match files file with
    | none => .error (.dataUnreadable file)
    | some text =>
      match Tables.ofText? text with
      | none => .error .dataInvalid
      | some t => .ok (some t)

def readRequest (o : Options) (files : Files) : Except CommandFailure ReadRequest :=
  match files o.request with
  | none => .error (.requestUnreadable o.request)
  | some text =>
    match ReadRequest.ofText? text with
    | none => .error .requestInvalid
    | some request => .ok request

/-- The answer from given files. -/
def answer (o : Options) (files : Files) : Except CommandFailure Json := do
  let catalog ← (Catalog.ofFile (files o.config)).mapError (.configuration o.config)
  let request ← o.readRequest files
  let tables ← o.readTables files
  let q ← (catalog.compileRead request o.caller).mapError .refused
  match tables with
  | none => return q.statement.toJson
  | some t => q.page t

def files (o : Options) : List String := [o.config, o.request] ++ o.data.toList

end Options

/-- What becomes of a command line. -/
inductive CommandResult where
  /-- The arguments give no options. -/
  | usage
  | failed (message : String)
  | printed (text : String)
  deriving DecidableEq, Repr

namespace CommandResult

def ofOptions (o : Options) (files : Options.Files) : CommandResult :=
  match o.answer files with
  | .error failure => .failed failure.message
  | .ok answer => .printed (answer.indented ++ "\n")

def ofArguments (arguments : List String) (files : Options.Files) : CommandResult :=
  match Options.ofArguments? arguments with
  | none => .usage
  | some o => ofOptions o files

/-- The exit code. -/
def code : CommandResult → Nat
  | .usage => 2
  | .failed _ => 1
  | .printed _ => 0

end CommandResult

end RoleQuery
