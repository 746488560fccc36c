import RoleQuery.CommandLine.Answer

/-!
# The program

The outer layer: it reads the files that a command line names and prints the result.
-/
namespace RoleQuery

/-- The contents of a file, unless it cannot be read as text. -/
def readText? (file : String) : IO (Option String) := do
  try return some (← IO.FS.readFile file)
  catch _ => return none

/-- The line that says how the program is used. -/
def usageLine : String :=
  "usage: rolequery --config FILE --request FILE [--role ROLE] [--claim NAME=VALUE]... " ++
    "[--data FILE] [--debug]"

def CommandResult.print : CommandResult → IO Unit
  | .usage => IO.eprintln usageLine
  | .failed message => IO.eprintln ("Error: " ++ message)
  | .printed text => IO.print text

end RoleQuery

open RoleQuery

/-- Answer one command line. -/
def main (arguments : List String) : IO UInt32 := do
  let names := ((Options.ofArguments? arguments).map Options.files).getD []
  let contents ← names.mapM fun name => return (name, ← readText? name)
  let result := CommandResult.ofArguments arguments fun name => (contents.lookup name).join
  result.print
  return UInt32.ofNat result.code
