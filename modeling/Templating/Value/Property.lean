import Templating.Value.Store
import Templating.Value.Reading

/-!
One property of a value. Where nothing is found under the key of it, `size`, `first` and `last`
still have a meaning for arrays, strings and objects.
-/
namespace Templating

/-- What reading gives, and the store after it. -/
abbrev Read (α : Type) := Store → α × Store

def callIfComputed : Value → Read Value
  | .computed id label answer => fun s => s.call id label answer
  | v => fun s => (v, s)

def Object.plain (o : Object) (key : String) (ownOnly : Bool) : Value :=
  ((if ownOnly then o.own? key else o.get? key)).getD .undefined

/-- Reads from an object or scope; a `size` that is not there is the number of entries. -/
def Object.read (o : Object) (key : String) (ownOnly : Bool) : Read Value := fun s =>
  let (value, s) := callIfComputed (o.plain key ownOnly) s
  if value.isUndefined && key == "size" then (.int (Int64.ofNat o.size), s) else (value, s)

def Drop.ask (d : Drop) (key : String) : Read Value := fun s =>
  let s := s.note (.asked · key) d.label
  match d.answer key with
  | some v => if v.isUndefined then missed s else (v, s)
  | none => missed s
where
  missed (s : Store) : Value × Store := (d.missing key, s.note (.missed · key) d.label)

def elementAt (items : List Value) (key : String) : Value :=
  ((index? key.toList).bind fun i => items[i]?).getD .undefined

def characterAt (s : String) (key : String) : Value :=
  match (index? key.toList).bind fun i => s.toList[i]? with
  | some c => .str (String.singleton c)
  | none => .undefined

def fromEnd (items : List Value) (index : Int64) : Value :=
  let position := items.length + index.toInt
  if position < 0 then .undefined else (items[position.toNat]?).getD .undefined

def negativeIndex? (key : Value) : Option Int64 := key.asIndex?.filter (·.toInt < 0)

def plainRead (receiver : Value) (name : String) (ownOnly : Bool) : Read Value := fun s =>
  match receiver with
  | .object o => (o.plain name ownOnly, s)
  | .drop d => d.ask name s
  | .position p => ((p.answer? (s.index p.id) name).getD .undefined, s)
  | .array items => (elementAt items name, s)
  | .str text => (characterAt text name, s)
  | _ => (.undefined, s)

def countOf : Value → Read Value
  | .array items => fun s => (.int (Int64.ofNat items.length), s)
  | .str text => fun s => (.int (Int64.ofNat text.length), s)
  | .object o => o.read "size" false
  | _ => fun s => (.undefined, s)

def firstOf : Value → Read Value
  | .array items => fun s => (items.head?.getD .undefined, s)
  | .object o => o.read "first" false
  | _ => fun s => (.undefined, s)

def lastOf : Value → Read Value
  | .array items => fun s => (items.getLast?.getD .undefined, s)
  | .object o => o.read "last" false
  | _ => fun s => (.undefined, s)

/-- The readings that exist without being stored. -/
def synthetic (receiver : Value) (name : String) : Read Value :=
  if name = "size" then countOf receiver
  else if name = "first" then firstOf receiver
  else if name = "last" then lastOf receiver
  else fun s => (.undefined, s)

def readByName (receiver : Value) (name : String) (ownOnly : Bool) : Read Value := fun s =>
  let (found, s) := plainRead receiver name ownOnly s
  let (value, s) := callIfComputed found s
  if value.isUndefined then synthetic receiver name s else (value, s)

/-- Reads a property when neither receiver nor key is still deferred. -/
def readProperty (receiver key : Value) (ownOnly : Bool) : Read Value :=
  if receiver.isNullish then fun s => (receiver, s)
  else
    match receiver, negativeIndex? key with
    | .array items, some index => fun s => (fromEnd items index, s)
    | _, _ => readByName receiver key.keyText ownOnly

end Templating
