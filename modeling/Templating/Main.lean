import Templating.Command

namespace Templating.Command

def errorNumber (code : UInt32) : UInt32 := min code (0 - code)

def fileError (e : IO.Error) : FileError :=
  match e with
  | .noFileOrDirectory .. => .missing
  | .inappropriateType _ code _ => if errorNumber code = 20 then .notDirectory else .directory
  | .invalidArgument _ code _ =>
    if errorNumber code = 36 then .nameTooLong else .other (toString e)
  | e => .other (toString e)

def readAsText (path : String) : IO (Except FileError String) := do
  try
    let bytes ← IO.FS.readBinFile path
    match String.fromUTF8? bytes with
    | some text => return .ok text
    | none => return .error .notText
  catch e => return .error (fileError e)

/-- What the arguments name; those that are no files are never asked for. -/
def readFiles (paths : List String) : IO Files := do
  let contents ← paths.mapM fun path => return (path, ← readAsText path)
  return fun path => (contents.lookup path).getD (.error .missing)

end Templating.Command

def main (arguments : List String) : IO UInt32 := do
  let files ← Templating.Command.readFiles arguments
  let answer := Templating.Command.run files arguments
  IO.print answer.out
  IO.eprint answer.err
  return answer.code.toUInt32
