import Templating.Value.Basic

namespace Templating
namespace Object

def empty : Object := ⟨[], none⟩

instance : Inhabited Object := ⟨empty⟩

def derive (ancestor : Object) : Object := ⟨[], some ancestor⟩

def own? (o : Object) (key : String) : Option Value := o.entries.lookup key

def hasOwn (o : Object) (key : String) : Bool := (o.own? key).isSome

mutual

/-- The entry under `key`, own or inherited from the nearest ancestor that has it. -/
def get? : Object → String → Option Value
  | ⟨entries, ancestor⟩, key =>
    match entries.lookup key with
    | some v => some v
    | none => inherited? ancestor key
termination_by structural o => o

def inherited? : Option Object → String → Option Value
  | none, _ => none
  | some o, key => o.get? key
termination_by structural o => o

end

def contains (o : Object) (key : String) : Bool := (o.get? key).isSome

def size (o : Object) : Nat := o.entries.length

def keys (o : Object) : List String := o.entries.map (·.1)

def values (o : Object) : List Value := o.entries.map (·.2)

def insertEntry (key : String) (value : Value) : List (String × Value) → List (String × Value)
  | [] => [(key, value)]
  | (k, v) :: rest => if k = key then (k, value) :: rest else (k, v) :: insertEntry key value rest

/-- A new key goes last, a known one keeps its place. -/
def insert (o : Object) (key : String) (value : Value) : Object :=
  { o with entries := insertEntry key value o.entries }

def remove (o : Object) (key : String) : Object :=
  { o with entries := o.entries.filter (·.1 != key) }

def assign (o other : Object) : Object :=
  other.entries.foldl (fun o entry => o.insert entry.1 entry.2) o

def ofList (entries : List (String × Value)) : Object :=
  entries.foldl (fun o entry => o.insert entry.1 entry.2) empty

def single (key : String) (value : Value) : Object := ⟨[(key, value)], none⟩

theorem lookup_insertEntry (key : String) (value : Value) (entries : List (String × Value))
    (k : String) : (insertEntry key value entries).lookup k
      = if k = key then some value else entries.lookup k := by
  induction entries with
  | nil =>
    by_cases h : k = key
    · simp [insertEntry, h]
    · simp [insertEntry, List.lookup_cons, beq_false_of_ne h, h]
  | cons entry rest ih =>
    obtain ⟨k', v'⟩ := entry
    by_cases h : k' = key
    · subst h
      by_cases hk : k = k'
      · simp [insertEntry, hk]
      · simp [insertEntry, List.lookup_cons, beq_false_of_ne hk, hk]
    · by_cases hk : k = k'
      · subst hk
        simp [insertEntry, h]
      · simp [insertEntry, h, List.lookup_cons, beq_false_of_ne hk, ih]

theorem own?_insert (o : Object) (key : String) (value : Value) (k : String) :
    (o.insert key value).own? k = if k = key then some value else o.own? k :=
  lookup_insertEntry key value o.entries k

theorem contains_iff (o : Object) (key : String) :
    o.contains key = (o.hasOwn key || (inherited? o.ancestor key).isSome) := by
  obtain ⟨entries, ancestor⟩ := o
  simp only [contains, get?, hasOwn, own?]
  cases entries.lookup key <;> simp

end Object
end Templating
