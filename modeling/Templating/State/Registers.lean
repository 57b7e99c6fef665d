import Templating.Value.Basic
import Templating.Text.Quoted
import Templating.Value.Text

/-!
Registers: what tags remember from one render to the next. A slot names a cell, and a cell keeps
its number when its content changes, so a snapshot of slots shows later writes into the cells it
holds.
-/
namespace Templating

inductive Cell where
  | offsets (entries : List (String × Int64))
  | integer (n : Int64)
  | text (s : String)
  /-- What a tag keeps in a type of its own: types are numbered, and so are the values of each,
      from its default on. -/
  | own (type value : Nat)

inductive CellKind where
  | offsets
  | integer
  | text
  | own (type : Nat)
  deriving DecidableEq

def Cell.kind : Cell → CellKind
  | .offsets _ => .offsets
  | .integer _ => .integer
  | .text _ => .text
  | .own type _ => .own type

def CellKind.blank : CellKind → Cell
  | .offsets => .offsets []
  | .integer => .integer 0
  | .text => .text ""
  | .own type => .own type 0

/-- A bag of registers: `id` tells one bag from another. -/
structure Registers where
  id : Nat
  cells : List Cell
  slots : List (String × Nat)

structure Snapshot where
  saved : List (String × Option Nat)

namespace Registers

def empty (id : Nat) : Registers := ⟨id, [], []⟩

instance : Inhabited Registers := ⟨empty 0⟩

def sameBag (a b : Registers) : Bool := a.id == b.id

def slot? (r : Registers) (key : String) : Option Nat := r.slots.lookup key

def content? (r : Registers) (cell : Nat) : Option Cell := r.cells[cell]?

def contains (r : Registers) (key : String) : Bool := (r.slot? key).isSome

def setSlot (key : String) (cell : Nat) (slots : List (String × Nat)) : List (String × Nat) :=
  (key, cell) :: slots.filter (·.1 != key)

def dropSlot (key : String) (slots : List (String × Nat)) : List (String × Nat) :=
  slots.filter (·.1 != key)

def set (r : Registers) (key : String) (content : Cell) : Nat × Registers :=
  (r.cells.length,
    { r with cells := r.cells ++ [content], slots := setSlot key r.cells.length r.slots })

def find? (r : Registers) (kind : CellKind) (key : String) : Option Nat :=
  (r.slot? key).filter fun cell => (r.content? cell).map Cell.kind == some kind

/-- The cell of a slot, a blank new one unless its content is of that kind. -/
def get (r : Registers) (kind : CellKind) (key : String) : Nat × Registers :=
  match r.find? kind key with
  | some cell => (cell, r)
  | none => r.set key kind.blank

def write (r : Registers) (cell : Nat) (content : Cell) : Registers :=
  { r with cells := r.cells.set cell content }

def offsetsAt (r : Registers) (cell : Nat) : List (String × Int64) :=
  match r.content? cell with
  | some (.offsets entries) => entries
  | _ => []

def integerAt (r : Registers) (cell : Nat) : Int64 :=
  match r.content? cell with
  | some (.integer n) => n
  | _ => 0

def textAt (r : Registers) (cell : Nat) : String :=
  match r.content? cell with
  | some (.text s) => s
  | _ => ""

def save (r : Registers) (keys : List String) : Snapshot :=
  ⟨keys.map fun key => (key, r.slot? key)⟩

def restoreSlot (slots : List (String × Nat)) : String × Option Nat → List (String × Nat)
  | (key, some cell) => setSlot key cell slots
  | (key, none) => dropSlot key slots

/-- Puts the saved slots back in the order of saving; a slot that was not there goes. -/
def restore (r : Registers) (snapshot : Snapshot) : Registers :=
  { r with slots := snapshot.saved.foldl restoreSlot r.slots }

end Registers

def Snapshot.keys (s : Snapshot) : List String := s.saved.map (·.1)

def Snapshot.description (s : Snapshot) : String := "[" ++ joined ", " (s.keys.map quoted) ++ "]"

def nameSet (names : List String) : String :=
  "\x7b" ++ joined ", " ((names.mergeSort (fun a b => decide (a ≤ b))).map quoted) ++ "\x7d"

def Registers.description (r : Registers) : String := nameSet (r.slots.map (·.1))

end Templating
