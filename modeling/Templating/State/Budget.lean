/-!
Budgets of a render: units of memory, or a deadline. A budget that is exceeded stays so.
-/
namespace Templating

inductive Resource where
  | memory
  | rendering
  deriving DecidableEq

def Resource.text : Resource → String
  | .memory => "memory alloc"
  | .rendering => "template render"

inductive Allowance where
  | unbounded
  | units (limit used : Nat)
  /-- A moment, told by how often the clock is looked at until it turns out to have passed; none
      if it never does. -/
  | deadline (looks : Option Nat)
  deriving DecidableEq

/-- How often a clock is looked at until a time limit of so many milliseconds is over; none if that
    is never seen. -/
def Clock := Nat → Option Nat

def Clock.still : Clock := fun milliseconds => if milliseconds = 0 then some 0 else none

structure Budget where
  resource : Resource
  allowance : Allowance
  deriving DecidableEq

namespace Budget

def unbounded (resource : Resource) : Budget := ⟨resource, .unbounded⟩

def memory (limit : Nat) : Budget := ⟨.memory, .units limit 0⟩

/-- A deadline that has passed, or one that is too far off to be met. -/
def deadline (passed : Bool) : Budget := ⟨.rendering, .deadline (if passed then some 0 else none)⟩

def used (b : Budget) : Nat :=
  match b.allowance with
  | .units _ used => used
  | .unbounded | .deadline _ => 0

def mostUnits : Nat := 0xFFFFFFFFFFFFFFFF

/-- The clock goes on between one look at it and the next. -/
def look (b : Budget) : Budget :=
  match b.allowance with
  | .deadline looks => { b with allowance := .deadline (looks.map Nat.pred) }
  | .unbounded | .units _ _ => b

def charge (b : Budget) (count : Nat) : Budget :=
  match b.allowance with
  | .units limit used => { b with allowance := .units limit (min (used + count) mostUnits) }
  | .unbounded | .deadline _ => b.look

def isExceeded (b : Budget) : Bool :=
  match b.allowance with
  | .unbounded => false
  | .units limit used => limit < used
  | .deadline looks => looks == some 0

end Budget
end Templating
