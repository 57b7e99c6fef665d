import Templating.Value.Basic

namespace Templating

inductive Event where
  | called (label : String)
  | asked (label key : String)
  | missed (label key : String)
  | completed (label : String)
  deriving DecidableEq

structure Store where
  calls : List (Nat × Nat)
  positions : Array Nat
  log : List Event

namespace Store

def empty : Store := ⟨[], #[], []⟩

instance : Inhabited Store := ⟨empty⟩

def note (s : Store) (event : String → Event) : Option String → Store
  | none => s
  | some label => { s with log := s.log ++ [event label] }

def timesCalled (s : Store) (id : Nat) : Nat := (s.calls.lookup id).getD 0

def countCall (id : Nat) : List (Nat × Nat) → List (Nat × Nat)
  | [] => [(id, 1)]
  | (i, n) :: rest => if i = id then (i, n + 1) :: rest else (i, n) :: countCall id rest

def call (s : Store) (id : Nat) (label : Option String) (answer : Nat → Value) : Value × Store :=
  (answer (s.timesCalled id),
    { s with calls := countCall id s.calls }.note .called label)

def begin (s : Store) : Nat × Store :=
  (s.positions.size, { s with positions := s.positions.push 0 })

def index (s : Store) (id : Nat) : Nat := (s.positions[id]?).getD 0

def step (s : Store) (id : Nat) : Store :=
  { s with positions := s.positions.modify id (· + 1) }

end Store

namespace LoopPosition

def make (id length : Nat) (variableName collection : String) : LoopPosition :=
  ⟨id, length, variableName ++ "-" ++ collection⟩

def answer? (p : LoopPosition) (index : Nat) (key : String) : Option Value :=
  let int (n : Int) : Option Value := some (.int (Int64.ofInt n))
  match key with
  | "length" => int p.length
  | "name" => some (.str p.name)
  | "index" => int (index + 1)
  | "index0" => int index
  | "rindex" => int (p.length - index)
  | "rindex0" => int (p.length - index - 1)
  | "first" => some (.bool (index == 0))
  | "last" => some (.bool (index + 1 == p.length))
  | _ => none

end LoopPosition
end Templating
