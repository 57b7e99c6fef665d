import Templating.Json.Skip
import Templating.Source.Markup
import Templating.Text.Quoted
import Templating.Decimal.Shortest

/-!
Options of an engine. They are read from a JSON object in which every field may be missing and
unknown fields are passed over, or from a list of the fields in their order.
-/
namespace Templating

structure Options where
  strict : Bool
  ownOnly : Bool
  ordered : Bool
  separator : Char
  memoryLimit : Option Nat
  /-- In milliseconds. -/
  timeLimit : Option Nat
  globals : Object
  trimming : Trimming

namespace Options

def default : Options := ⟨false, false, false, ':', none, none, .empty, .none⟩

instance : Inhabited Options := ⟨default⟩

/-- A float as diagnostics show it: the even number at a tie, always with a point
    or an exponent, and written out from `0.00001` up to sixteen whole digits. -/
def shownFloat (x : Float) : String :=
  let body := match Dyadic.ofFloat? x with
    | none => ['0', '.', '0']
    | some d =>
      let d := Decimal.stripZeros 20 (d.shortest .toEven)
      let whole := (naturalText d.digits).length + d.exponent
      if whole ≤ -5 || 16 < whole then d.scientific
      else if 0 ≤ d.exponent then d.positional ++ ['.', '0']
      else d.positional
  String.ofList (if isNegative x then '-' :: body else body)

def shown : Json → String
  | .null => "null"
  | .bool b => "boolean `" ++ (if b then "true" else "false") ++ "`"
  | .integer n => "integer `" ++ toString n ++ "`"
  | .real x => "floating point `" ++ shownFloat x ++ "`"
  | .str s => "string " ++ quoted s
  | .array _ => "sequence"
  | .object _ => "map"

def wrongType {α : Type} (j : Json) (expected : String) : Except String α :=
  .error ("invalid type: " ++ shown j ++ ", expected " ++ expected)

def wrongValue {α : Type} (j : Json) (expected : String) : Except String α :=
  .error ("invalid value: " ++ shown j ++ ", expected " ++ expected)

def flag : Json → Except String Bool
  | .bool b => .ok b
  | j => wrongType j "a boolean"

def character : Json → Except String Char
  | .str s =>
    match s.toList with
    | [c] => .ok c
    | _ => wrongValue (.str s) "a character"
  | j => wrongType j "a character"

def bound : Json → Except String (Option Nat)
  | .null => .ok none
  | .integer n => if n < 0 then wrongValue (.integer n) "u64" else .ok (some n.toNat)
  | j => wrongType j "u64"

def members : Json → Except String Object
  | .object members => .ok ⟨Json.toEntries members, none⟩
  | j => wrongType j "a map"

structure Field where
  name : String
  isObject : Bool
  set : Options → Json → Except String Options

def fields : List Field :=
  [⟨"strict_variables", false, fun o j => (flag j).map fun b => { o with strict := b }⟩,
   ⟨"own_property_only", false, fun o j => (flag j).map fun b => { o with ownOnly := b }⟩,
   ⟨"ordered_hash_arguments", false, fun o j => (flag j).map fun b => { o with ordered := b }⟩,
   ⟨"key_value_separator", false, fun o j =>
      (character j).map fun c => { o with separator := c }⟩,
   ⟨"memory_limit", false, fun o j => (bound j).map fun n => { o with memoryLimit := n }⟩,
   ⟨"render_limit_ms", false, fun o j => (bound j).map fun n => { o with timeLimit := n }⟩,
   ⟨"globals", true, fun o j => (members j).map fun g => { o with globals := g }⟩,
   ⟨"trim_tag_left", false, fun o j =>
      (flag j).map fun b => { o with trimming := { o.trimming with tagLeft := b } }⟩,
   ⟨"trim_tag_right", false, fun o j =>
      (flag j).map fun b => { o with trimming := { o.trimming with tagRight := b } }⟩,
   ⟨"trim_output_left", false, fun o j =>
      (flag j).map fun b => { o with trimming := { o.trimming with outputLeft := b } }⟩,
   ⟨"trim_output_right", false, fun o j =>
      (flag j).map fun b => { o with trimming := { o.trimming with outputRight := b } }⟩]

def field? (name : String) : Option Field := fields.find? (·.name == name)

def setInOrder (o : Options) : List Field → List Json → Except String Options
  | _, [] => .ok o
  | [], _ :: _ => .error "trailing characters"
  | f :: rest, j :: items => do setInOrder (← f.set o j) rest items

def ofJson : Json → Except String Options
  | .object members => members.foldlM (fun o member =>
      match field? member.1 with
      | some f => f.set o member.2
      | none => .ok o) default
  | .array items => setInOrder default fields items
  | j => wrongType j "struct QuillOptions"

open Json (Fault refuse refuseNext)

/-- Reads the value of a field. Lists and objects are refused before they are
    read where the field does not hold one, other values after. -/
def readField (f : Field) (o : Options) (cs : List Char) : Except Fault (Options × List Char) :=
  let start := Json.skipSpace cs
  let refused (j : Json) (rest : List Char) : Except Fault (Options × List Char) :=
    match f.set o j with
    | .ok o => .ok (o, rest)
    | .error text => refuse (.mismatch text) rest
  match start with
  | '[' :: _ => refused (.array []) start
  | '\x7b' :: _ =>
    if f.isObject then do
      let (j, rest) ← Json.readValue (Json.stepsFor start) (Json.deepest - 1) start
      refused j rest
    else refused (.object []) start
  | _ => do
    let (j, rest) ← Json.readValue (Json.stepsFor start) (Json.deepest - 1) start
    refused j rest

/-- Where reading goes on after a fault inside an object that is closed properly. -/
def afterClosing (cs : List Char) : List Char :=
  match Json.skipSpace cs with
  | '\x7d' :: rest => rest
  | rest => rest

def readMember (seen : List String) (o : Options) (cs : List Char) :
    Except Fault (List String × Options × List Char) := do
  let (key, rest) ← Json.stringAfterQuote (cs.drop 1)
  match field? key with
  | none => do
    let ((), rest) ← Json.readColon rest
    let ((), rest) ← Json.skip rest
    return (seen, o, rest)
  | some f =>
    if seen.contains key then
      refuse (.mismatch ("duplicate field `" ++ key ++ "`")) (afterClosing rest)
    else do
      let ((), rest) ← Json.readColon rest
      let (o, rest) ← readField f o rest
      return (key :: seen, o, rest)

def readMembers : Nat → Bool → List String → Options → List Char →
    Except Fault (Options × List Char)
  | 0, _, _, _, cs => refuse .unfinishedObject cs
  | fuel + 1, first, seen, o, cs => do
    let (more, rest) ← Json.nextMember first cs
    if more then
      let (seen, o, rest) ← readMember seen o rest
      readMembers fuel false seen o rest
    else return (o, rest)

def readClosing (o : Options) (cs : List Char) : Except Fault (Options × List Char) :=
  match Json.skipSpace cs with
  | [] => refuseNext .unfinishedList []
  | ']' :: rest => .ok (o, rest)
  | ',' :: rest =>
    match Json.skipSpace rest with
    | ']' :: rest => refuseNext .trailingComma (']' :: rest)
    | rest => refuseNext .trailingCharacters rest
  | rest => refuseNext .trailingCharacters rest

def readItems (o : Options) (first : Bool) : List Field → List Char →
    Except Fault (Options × List Char)
  | [], cs => readClosing o cs
  | f :: rest, cs => do
    let (more, cs) ← Json.nextElement first cs
    if more then
      let (o, cs) ← readField f o cs
      readItems o false rest cs
    else return (o, cs)

def readOptions (cs : List Char) : Except Fault (Options × List Char) :=
  match Json.skipSpace cs with
  | [] => refuseNext .unfinishedValue []
  | '\x7b' :: rest => readMembers (rest.length + 1) true [] default rest
  | '[' :: rest => readItems default true fields rest
  | rest => do
    let (j, rest) ← Json.readValue (Json.stepsFor rest) Json.deepest rest
    refuse (.mismatch ("invalid type: " ++ shown j ++ ", expected struct QuillOptions")) rest

def read (source : String) : Except Fault Options := do
  Json.atEnd (← readOptions source.toList)

end Options
end Templating
