import SelectorIndex.Cli

/-!
# The program

Reads the files that a command names, runs the command on texts of JSON, and
writes what it leaves behind.
-/

namespace SelectorIndex.Main

open SelectorIndex.Cli

/-- A failure of the system, by its number. -/
def faultOf (failure : IO.Error) (number : UInt32) : FileFault :=
  if number = 2 then .notFound
  else if number = 20 then .notFolder
  else if number = 21 then .isFolder
  else if number = 36 then .nameTooLong
  else .other (toString failure)

def readFailure (failure : IO.Error) : FileFault :=
  match failure with
  | .noFileOrDirectory _ number _ => faultOf failure number
  | .inappropriateType _ number _ => faultOf failure number
  | .invalidArgument _ number _ => faultOf failure number
  | .resourceExhausted _ number _ => faultOf failure number
  | _ => .other (toString failure)

def readContents (path : String) : IO (Except FileFault String) := do
  match ← (IO.FS.readFile path).toBaseIO with
  | .ok contents => return .ok contents
  | .error failure => return .error (readFailure failure)

def readFiles (args : List String) : IO Files := do
  match Command.ofArgs args with
  | .error _ => return fun _ => .error .notFound
  | .ok command =>
    let contents ← command.files.mapM fun path => return (path, ← readContents path)
    return fun path => (contents.lookup path).getD (.error .notFound)

end SelectorIndex.Main

def main (args : List String) : IO UInt32 := do
  let files ← SelectorIndex.Main.readFiles args
  let outcome := SelectorIndex.Cli.run files args .json
  (← IO.getStdout).putStr outcome.out
  (← IO.getStderr).putStr outcome.err
  return outcome.code
