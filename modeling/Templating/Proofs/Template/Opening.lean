import Templating.Proofs.Expr.Locality
import Templating.Template.Rendering

namespace Templating

def openLoop (header : LoopHeader) (items : List Value) : Task (LoopPosition × List Value) := do
  let cell ← offsetsCell
  let previous ← recallOffset cell header.continueKey
  let modifiers ← evaluateModifiers header previous
  let selected := select header.ordered modifiers items
  recordOffset cell header.continueKey (resumeAt modifiers selected)
  let position ← beginLoop selected.length header
  return (position, selected)

def loopScope (position : LoopPosition) : Object := .single "forloop" (.position position)

theorem visit_eq (header : LoopHeader) (items : List Value) (body : Task Unit) :
    visit header items body = (do
      let opened ← openLoop header items
      Task.within (loopScope opened.1) do
        iterate header.variableName opened.1 body opened.2
        Task.modify State.clearJumps) := by
  simp only [visit, openLoop, loopScope, bind_assoc, pure_bind]

def State.opened (s : State) (registers : Registers) (memory : Budget) (store : Store) : State :=
  { s with registers, memory, store }

def Opened (s t s' t' : State) : Prop :=
  ∃ registers memory store,
    s' = s.opened registers memory store ∧ t' = t.opened registers memory store

theorem evaluateModifiers_local {names : List String} (header : LoopHeader) (previous : Value)
    (covered : ∀ name ∈ rootsOf (givenValues header.modifiers), name ≠ "continue" → name ∈ names) :
    (evaluateModifiers header previous).Local names := by
  refine (evaluateNamed_local .empty header.modifiers).within fun name member free => ?_
  refine covered name member fun same => ?_
  simp [same, Object.single, Object.hasOwn, Object.own?] at free

theorem evaluateModifiers_keeps (header : LoopHeader) (previous : Value) :
    (evaluateModifiers header previous).Keeps After :=
  (evaluateModifiers_local header previous fun _ member _ => member).keeps fun _ _ h => h

theorem openLoop_apply (header : LoopHeader) (items : List Value) {s : State} {cell : Nat}
    {registers : Registers} (got : s.registers.get .offsets offsetsRegister = (cell, registers)) :
    openLoop header items s =
      let previous := ((registers.offsetsAt cell).lookup header.continueKey).getD 0
      (evaluateModifiers header (.int previous) { s with registers }).bind fun modifiers x =>
        let selected := select header.ordered modifiers items
        let entries := storeOffset header.continueKey (resumeAt modifiers selected)
          (x.registers.offsetsAt cell)
        .done (.make x.store.begin.1 selected.length header.variableName header.collection.text,
            selected)
          { x with
            registers := x.registers.write cell (.offsets entries)
            store := x.store.begin.2 } := by
  have first : offsetsCell s = .done cell { s with registers } := by simp only [offsetsCell, got]
  rw [openLoop, Task.bind_apply, first]
  rfl

theorem openLoop_agrees {names : List String} {header : LoopHeader} {s t : State}
    (covered : ∀ name ∈ rootsOf (givenValues header.modifiers), name ≠ "continue" → name ∈ names)
    (alike : Alike names s t) (same : s.registers = t.registers) (items : List Value) :
    Step.Agree (fun a x b y => a = b ∧ Opened s t x y) (Opened s t)
      (openLoop header items s) (openLoop header items t) := by
  obtain ⟨⟨cell, registers⟩, got⟩ : ∃ p, s.registers.get .offsets offsetsRegister = p := ⟨_, rfl⟩
  have start : Alike names { s with registers } { t with registers } := { alike with }
  rw [openLoop_apply header items got, openLoop_apply header items (same ▸ got)]
  have early : ∀ x y, Moved { s with registers } { t with registers } x y → Opened s t x y := by
    rintro _ _ ⟨memory, store, rfl, rfl⟩
    exact ⟨registers, memory, store, rfl, rfl⟩
  have evaluated := evaluateModifiers_local header
    (.int (((registers.offsetsAt cell).lookup header.continueKey).getD 0)) covered _ _ start
  refine (evaluated.mono (fun _ _ _ _ h => h) early).bind ?_
  rintro modifiers _ _ _ ⟨rfl, memory, store, rfl, rfl⟩
  exact .done ⟨rfl, _, memory, store.begin.2, rfl, rfl⟩

end Templating
