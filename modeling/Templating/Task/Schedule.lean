import Templating.Task.Basic

/-!
Running tasks. Deferred values become available after some number of polls, or never.
-/
namespace Templating

inductive Progress where
  | completed
  | pending (polls : Nat)
  | never
  deriving DecidableEq

/-- How far each deferred value is; one that is not listed is completed. -/
structure Schedule where
  entries : List (Nat × Progress)

namespace Schedule

def empty : Schedule := ⟨[]⟩

def progress (s : Schedule) (id : Nat) : Progress := (s.entries.lookup id).getD .completed

def isCompleted (s : Schedule) (id : Nat) : Bool := s.progress id == .completed

def update (id : Nat) (p : Progress) : List (Nat × Progress) → List (Nat × Progress)
  | [] => [(id, p)]
  | (i, q) :: rest => if i = id then (i, p) :: rest else (i, q) :: update id p rest

def set (s : Schedule) (id : Nat) (p : Progress) : Schedule := ⟨update id p s.entries⟩

end Schedule

inductive Ending (α : Type) where
  | finished (result : α)
  | failed (error : EvalError)
  | unfinished

structure Run (α : Type) where
  ending : Ending α
  state : State
  schedule : Schedule

def State.complete (s : State) (label : Option String) : State :=
  { s with store := s.store.note .completed label }

namespace Step

/-- Polls once and fails at the first value that is still pending. -/
def runNow {α : Type} : Step α → Schedule → Run α
  | .done a s, schedule => ⟨.finished a, s, schedule⟩
  | .failed e s, schedule => ⟨.failed e, s, schedule⟩
  | .waiting id label s unwind resume, schedule =>
    match schedule.progress id with
    | .completed => (resume s).runNow schedule
    | .pending 0 => (resume (s.complete label)).runNow (schedule.set id .completed)
    | .pending (polls + 1) => ⟨.failed .pendingValue, unwind s, schedule.set id (.pending polls)⟩
    | .never => ⟨.failed .pendingValue, unwind s, schedule⟩

/-- Polls the whole computation up to `polls` times; each poll gets to the next
    value that is not available. -/
def runWaiting {α : Type} : Step α → (polls : Nat) → Schedule → Run α
  | .done a s, _, schedule => ⟨.finished a, s, schedule⟩
  | .failed e s, _, schedule => ⟨.failed e, s, schedule⟩
  | .waiting id label s unwind resume, polls, schedule =>
    match schedule.progress id with
    | .completed => (resume s).runWaiting polls schedule
    | .pending needed =>
      if needed < polls then
        (resume (s.complete label)).runWaiting (polls - needed) (schedule.set id .completed)
      else ⟨.unfinished, unwind s, schedule.set id (.pending (needed - polls))⟩
    | .never => ⟨.unfinished, unwind s, schedule⟩

end Step

namespace Task

def patience : Nat := 1000

def runNow {α : Type} (t : Task α) (s : State) (schedule : Schedule) : Run α :=
  (t s).runNow schedule

def runWaiting {α : Type} (t : Task α) (s : State) (schedule : Schedule) : Run α :=
  (t s).runWaiting patience schedule

def run {α : Type} (t : Task α) (s : State) (schedule : Schedule) : Run α :=
  if s.modes.immediate then t.runNow s schedule else t.runWaiting s schedule

end Task
end Templating
