import RoleQuery.Access.Caller
import RoleQuery.Json.Parser

/-!
# Options of the command line

An option is written with its value behind it or attached to it: `--role editor`,
`--role=editor`, `-c FILE`, `-cFILE` or `-c=FILE`. Short flags may stand before a short
option in one argument, as in `-dcFILE`. Only claims may be given more than once, and
there is nothing but options.
-/
namespace RoleQuery

/-- What a command line asks for. -/
structure Options where
  /-- The file of the configuration. -/
  config : String
  /-- The file of the read request. -/
  request : String
  role : String
  claims : List (String × Value)
  /-- The file of the tables to read from; absent when only the statement is asked for. -/
  data : Option String
  /-- Ask for a log, which is no part of the answer. -/
  debug : Bool
  deriving Repr

namespace Options

/-- The options that take a value. -/
inductive Setting where
  | config
  | request
  | role
  | claim
  | data
  deriving DecidableEq, Repr

/-- An option as it was given. -/
inductive Given where
  | debug
  | value (setting : Setting) (text : String)
  deriving DecidableEq, Repr

/-- What one argument gives, and the option at its end that takes the next
argument as its value. -/
structure Argument where
  given : List Given
  awaits : Option Setting
  deriving Repr

def longSetting? (name : String) : Option Setting :=
  [("config", .config), ("request", .request), ("role", .role), ("claim", .claim),
    ("data", .data)].lookup name

def shortSetting? (c : Char) : Option Setting :=
  [('c', .config), ('r', .request)].lookup c

/-- Read the letters of an argument that begins with one dash. -/
def readLetters? : List Char → Option Argument
  | [] => some ⟨[], none⟩
  | c :: rest =>
    if c = 'd' then (readLetters? rest).map fun a => { a with given := .debug :: a.given }
    else
      (shortSetting? c).map fun setting =>
        match rest with
        | [] => ⟨[], some setting⟩
        | '=' :: text | text => ⟨[.value setting (String.ofList text)], none⟩

/-- Read the name, and the attached value, of an argument that begins with two dashes. -/
def readLong? (chars : List Char) : Option Argument :=
  let name := String.ofList (chars.takeWhile (· ≠ '='))
  match chars.dropWhile (· ≠ '=') with
  | [] =>
    if name = "debug" then some ⟨[.debug], none⟩
    else (longSetting? name).map fun setting => ⟨[], some setting⟩
  | _ :: text =>
    (longSetting? name).map fun setting => ⟨[.value setting (String.ofList text)], none⟩

/-- Read one argument, which must be an option. -/
def readArgument? (argument : String) : Option Argument :=
  match argument.toList with
  | '-' :: '-' :: rest => readLong? rest
  | '-' :: c :: rest => readLetters? (c :: rest)
  | _ => none

/-- Whether an argument can be the value of the option before it. A lone dash can. -/
def isValue (argument : String) : Bool :=
  match argument.toList with
  | '-' :: _ :: _ => false
  | _ => true

/-- What the arguments give, in order. Two dashes may end them. -/
def readArguments? : List String → Option (List Given)
  | [] => some []
  | argument :: rest =>
    if argument = "--" ∧ rest = [] then some []
    else match readArgument? argument with
      | none => none
      | some ⟨given, none⟩ => (readArguments? rest).map (given ++ ·)
      | some ⟨given, some setting⟩ =>
        match rest with
        | [] => none
        | value :: rest =>
          if isValue value then
            (readArguments? rest).map fun others => given ++ .value setting value :: others
          else none

/-- The values given to an option, in order. -/
def valuesOf (setting : Setting) (given : List Given) : List String :=
  given.filterMap fun
    | .value s text => if s = setting then some text else none
    | .debug => none

/-- The value of an option that may be left out, and may not be given twice. -/
def atMostOne? (setting : Setting) (given : List Given) : Option (Option String) :=
  match valuesOf setting given with
  | [] => some none
  | [text] => some (some text)
  | _ => none

/-- The name of a file, which is never empty. -/
def readFile? (name : String) : Option String := if name.isEmpty then none else some name

/-- A claim, as `name=value`. The value is a scalar of JSON, or else the text as it stands. -/
def readClaim? (text : String) : Option (String × Value) :=
  let chars := text.toList
  match chars.dropWhile (· ≠ '=') with
  | [] => none
  | _ :: rest =>
    let value := String.ofList rest
    some (String.ofList (chars.takeWhile (· ≠ '=')),
      ((Json.parse? value).bind Value.ofJson?).getD (.text value))

def ofArguments? (arguments : List String) : Option Options := do
  let given ← readArguments? arguments
  let config ← (← atMostOne? .config given).bind readFile?
  let request ← (← atMostOne? .request given).bind readFile?
  let role ← atMostOne? .role given
  let claims ← (valuesOf .claim given).mapM readClaim?
  let data ← (← atMostOne? .data given).mapM readFile?
  if 1 < given.count .debug then none
  else return {
    config, request, claims, data
    role := role.getD anonymousRole
    debug := given.contains .debug }

/-- The caller that requests are made by. -/
def caller (o : Options) : Caller :=
  o.claims.foldl (fun caller claim => caller.withClaim claim.1 claim.2) (.ofRole o.role)

end Options

end RoleQuery
