import Templating.Engine

namespace Templating
namespace Command

inductive FileError where
  | missing
  | directory
  | notDirectory
  | nameTooLong
  | notText
  | other (text : String)

def FileError.text : FileError → String
  | .missing => "No such file or directory (os error 2)"
  | .directory => "Is a directory (os error 21)"
  | .notDirectory => "Not a directory (os error 20)"
  | .nameTooLong => "File name too long (os error 36)"
  | .notText => "stream did not contain valid UTF-8"
  | .other text => text

abbrev Files := String → Except FileError String

structure Answer where
  code : Nat
  out : String
  err : String

def lines (ls : List String) : String := String.join (ls.map (· ++ "\n"))

def renderUsage : String := lines
  ["Usage: quill render <template> [options]",
   "",
   "Options:",
   "  -d, --data <file>     JSON object to render against",
   "  -c, --config <file>   JSON engine options",
   "  --strict              Fail on undefined variables",
   "  --own-properties      Ignore inherited properties",
   "  --async               Wait on deferred data instead of failing"]

def usage : String := lines
  ["Quill template renderer",
   "",
   "Usage: quill <command> [options]",
   "",
   "Commands:",
   "  render <template>    Render a template to stdout",
   "  vars <template>      List the data variables a template reads",
   "  help                 Show this message",
   ""]

def version : String := "quill 0.1.0-alpha.1\n"

def failure (text : String) : Answer := ⟨1, "", "error: " ++ text ++ "\n"⟩

structure RenderArguments where
  template : Option String
  data : Option String
  config : Option String
  strict : Bool
  ownOnly : Bool
  waits : Bool
  ignored : List String

def RenderArguments.none : RenderArguments :=
  ⟨Option.none, Option.none, Option.none, false, false, false, []⟩

def takeFlag (p : RenderArguments) (argument : String) : RenderArguments :=
  if argument = "--strict" then { p with strict := true }
  else if argument = "--own-properties" then { p with ownOnly := true }
  else if argument = "--async" then { p with waits := true }
  else if !argument.startsWith "-" && p.template.isNone then { p with template := some argument }
  else { p with ignored := p.ignored ++ [argument] }

/-- An option that takes a value but comes last is ignored like an unknown one. -/
def readArguments (p : RenderArguments) : List String → RenderArguments
  | [] => p
  | [argument] => takeFlag p argument
  | argument :: value :: rest =>
    if argument = "--data" || argument = "-d" then readArguments { p with data := some value } rest
    else if argument = "--config" || argument = "-c" then
      readArguments { p with config := some value } rest
    else readArguments (takeFlag p argument) (value :: rest)

def RenderArguments.warnings (p : RenderArguments) : String :=
  lines (p.ignored.map fun a => "warning: ignoring argument '" ++ a ++ "'")

def readFile (files : Files) (path : String) : Except String String :=
  match files path with
  | .ok text => .ok text
  | .error e => .error ("cannot read '" ++ path ++ "': " ++ e.text)

def loadOptions (files : Files) : Option String → Except String Options
  | none => .ok .default
  | some path => do
    let text ← readFile files path
    match Options.read text with
    | .ok o => return o
    | .error fault => .error (path ++ ": invalid options: " ++ fault.message text)

def loadData (files : Files) : Option String → Except String Object
  | none => .ok .empty
  | some path => do
    let text ← readFile files path
    match Json.read text with
    | .ok (.object members) => return ⟨Json.toEntries members, none⟩
    | .ok _ => .error (path ++ ": data must be a JSON object")
    | .error fault => .error (path ++ ": invalid JSON: " ++ fault.message text)

def inTemplate {α : Type} (path : String) : Except ParseError α → Except String α
  | .ok a => .ok a
  | .error e => .error (path ++ ": " ++ e.message)

structure Prepared where
  nodes : List Node
  state : State

def prepare (files : Files) (path : String) (p : RenderArguments) : Except String Prepared := do
  let options ← loadOptions files p.config
  let options := { options with
    strict := options.strict || p.strict, ownOnly := options.ownOnly || p.ownOnly }
  let data ← loadData files p.data
  let source ← readFile files path
  let engine := Engine.make options
  let nodes ← inTemplate path (engine.parse source)
  let settings := { Settings.default with immediate := some !p.waits }
  return ⟨nodes, engine.start data settings .empty .empty⟩

def renderFile (files : Files) (path : String) (p : RenderArguments) : Answer :=
  match prepare files path p with
  | .error text => failure text
  | .ok prepared =>
    let run := Engine.render prepared.nodes prepared.state .empty
    let out := run.state.sink.output
    match run.ending with
    | .failed e => { failure (path ++ ": " ++ e.message) with out }
    | .finished _ | .unfinished => ⟨0, out, ""⟩

def render (files : Files) (arguments : List String) : Answer :=
  let p := readArguments .none arguments
  match p.template with
  | none => ⟨1, "", p.warnings ++ "error: missing template path\n" ++ renderUsage⟩
  | some path =>
    let answer := renderFile files path p
    { answer with err := p.warnings ++ answer.err }

def valueAfter (flag : String) : List String → Option String
  | [] => none
  | argument :: rest => if argument = flag then rest.head? else valueAfter flag rest

def listVariables (files : Files) (path : String) (config : Option String) :
    Except String (List String) := do
  let options ← loadOptions files config
  let source ← readFile files path
  inTemplate path ((Engine.make options).globalVariables source)

def nameVariables (files : Files) : List String → Answer
  | [] => ⟨1, "", "Usage: quill vars <template> [--config <options.json>]\n"⟩
  | path :: rest =>
    match listVariables files path (valueAfter "--config" (path :: rest)) with
    | .ok names => ⟨0, lines names, ""⟩
    | .error text => failure text

def run (files : Files) : List String → Answer
  | [] => ⟨0, usage, renderUsage⟩
  | command :: arguments =>
    if command = "render" then render files arguments
    else if command = "vars" then nameVariables files arguments
    else if command = "help" || command = "--help" || command = "-h" then ⟨0, usage, renderUsage⟩
    else if command = "--version" || command = "-V" then ⟨0, version, ""⟩
    else ⟨1, usage, "error: unknown command '" ++ command ++ "'\n" ++ renderUsage⟩

end Command
end Templating
