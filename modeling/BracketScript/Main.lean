import BracketScript.Terminal

/-!
# The program

The command line on the standard streams and the files of the machine.
-/

namespace BracketScript

def errorNumber (code : UInt32) : Nat :=
  if code < 0x80000000 then code.toNat else (0 - code).toNat

def Entry.ofError (error : IO.Error) : Entry :=
  match error with
  | .noFileOrDirectory _ _ _ => .missing .notFound
  | .inappropriateType _ code _ =>
    if errorNumber code = 20 then .missing .notDirectory else .directory
  | .invalidArgument _ code _ =>
    if errorNumber code = 36 then .missing .nameTooLong
    else .file (.error (.other (toString error)))
  | .permissionDenied _ _ _ => .file (.error (.other "Permission denied (os error 13)"))
  | error => .file (.error (.other (toString error)))

def lookAt (path : String) : IO Entry := do
  try
    let bytes ← IO.FS.readBinFile path
    match String.fromUTF8? bytes with
    | some text => return .file (.ok text)
    | none => return .file (.error .invalidText)
  catch error => return .ofError error

def nextLine : IO (Option String) := do
  let text ← (← IO.getStdin).getLine
  return if text.isEmpty then none else some ((Text.lines text).headD "")

def printNow (text : String) : IO Unit := do
  IO.print text
  (← IO.getStdout).flush

def environment : IO (List (String × String)) :=
  [Config.homeVariable, Config.logVariable, "HOME"].filterMapM fun name => do
    return (← IO.getEnv name).map fun value => (name, value)

def console : IO (CommandLine.Console IO) := do
  let settings ← environment
  return Terminal.console lookAt (fun name => settings.lookup name) printNow IO.eprint nextLine

end BracketScript

def main (arguments : List String) : IO UInt32 := do
  let status ← BracketScript.CommandLine.run (← BracketScript.console) arguments
  return status.toUInt32
