import Templating.Proofs.Expr.Closure
import Templating.Proofs.Task.Ledger
import Templating.Proofs.Template.Closure
import Templating.Proofs.Template.Opening

namespace Templating

namespace Store

@[simp] theorem note_positions (s : Store) (event : String → Event) (label : Option String) :
    (s.note event label).positions = s.positions := by
  cases label <;> rfl

@[simp] theorem call_positions (s : Store) (id : Nat) (label : Option String)
    (answer : Nat → Value) : (s.call id label answer).2.positions = s.positions := by
  simp [call]

theorem index_begin (s : Store) {id : Nat} (old : id < s.positions.size) :
    s.begin.2.index id = s.index id := by
  simp only [begin, index, Array.getElem?_push, if_neg (Nat.ne_of_lt old)]

theorem index_begun (s : Store) : s.begin.2.index s.begin.1 = 0 := by
  simp [begin, index]

theorem size_step (s : Store) (id : Nat) : (s.step id).positions.size = s.positions.size :=
  Array.size_modify

theorem index_step (s : Store) {id : Nat} (begun : id < s.positions.size) :
    (s.step id).index id = s.index id + 1 := by
  simp [step, index, begun, Array.getElem_modify]

theorem index_step_other (s : Store) {id other : Nat} (apart : other ≠ id) :
    (s.step id).index other = s.index other := by
  simp [step, index, Array.getElem?_modify, Ne.symm apart]

end Store

def Read.Still {α : Type} (r : Read α) : Prop := ∀ s, (r s).2.positions = s.positions

namespace Read

theorem still_constant {α : Type} (a : α) : Still fun s => (a, s) := fun _ => rfl

theorem still_callIfComputed (v : Value) : Still (callIfComputed v) := by
  intro s
  cases v <;> first | rfl | exact s.call_positions _ _ _

theorem still_object (o : Object) (key : String) (ownOnly : Bool) : Still (o.read key ownOnly) := by
  intro s
  unfold Object.read
  dsimp only
  split <;> exact still_callIfComputed _ s

theorem still_ask (d : Drop) (key : String) : Still (d.ask key) := by
  intro s
  unfold Drop.ask
  dsimp only
  split
  · split <;> simp [Drop.ask.missed]
  · simp [Drop.ask.missed]

theorem still_plainRead (receiver : Value) (name : String) (ownOnly : Bool) :
    Still (plainRead receiver name ownOnly) := by
  intro s
  cases receiver with
  | drop d => exact still_ask d name s
  | _ => rfl

theorem still_countOf (receiver : Value) : Still (countOf receiver) := by
  cases receiver with
  | object o => exact still_object o "size" false
  | _ => exact still_constant _

theorem still_firstOf (receiver : Value) : Still (firstOf receiver) := by
  cases receiver with
  | object o => exact still_object o "first" false
  | _ => exact still_constant _

theorem still_lastOf (receiver : Value) : Still (lastOf receiver) := by
  cases receiver with
  | object o => exact still_object o "last" false
  | _ => exact still_constant _

theorem still_synthetic (receiver : Value) (name : String) : Still (synthetic receiver name) := by
  unfold synthetic
  split
  · exact still_countOf receiver
  split
  · exact still_firstOf receiver
  split
  · exact still_lastOf receiver
  · exact still_constant Value.undefined

theorem still_readByName (receiver : Value) (name : String) (ownOnly : Bool) :
    Still (readByName receiver name ownOnly) := by
  intro s
  have found := still_plainRead receiver name ownOnly s
  have called := still_callIfComputed (plainRead receiver name ownOnly s).1
    (plainRead receiver name ownOnly s).2
  unfold readByName
  dsimp only
  split
  · rw [still_synthetic, called, found]
  · rw [called, found]

theorem still_readProperty (receiver key : Value) (ownOnly : Bool) :
    Still (readProperty receiver key ownOnly) := by
  unfold readProperty
  split
  · exact still_constant _
  · split
    · exact fun _ => rfl
    · exact still_readByName _ _ ownOnly

end Read

namespace Task
variable {α β : Type} {K : State → State → Prop}

def Leads (K : State → State → Prop) (t : Task α) : Prop := ∀ s, (t s).Gives fun _ s' => K s s'

theorem leads_pure (refl : ∀ s, K s s) (a : α) : (pure a : Task α).Leads K := fun s =>
  .done (refl s)

theorem leads_modify {change : State → State} (related : ∀ s, K s (change s)) :
    (modify change).Leads K := fun s => .done (related s)

theorem leads_state (refl : ∀ s, K s s) : state.Leads K := fun s => .done (refl s)

theorem Leads.bind (trans : ∀ s t u, K s t → K t u → K s u) {t : Task α} {f : α → Task β}
    (first : t.Leads K) (rest : ∀ a, (f a).Leads K) : (t >>= f).Leads K := fun s =>
  (first s).bind fun a s' before => (rest a s').mono fun _ _ after => trans _ _ _ before after

end Task

def State.Spares (below : Nat) (s t : State) : Prop :=
  below ≤ s.store.positions.size →
    below ≤ t.store.positions.size ∧ ∀ id < below, t.store.index id = s.store.index id

namespace State.Spares
variable {below : Nat} {s t : State}

theorem of_positions (same : t.store.positions = s.store.positions) : s.Spares below t := by
  intro begun
  rw [same]
  exact ⟨begun, fun id _ => by rw [Store.index, same, Store.index]⟩

theorem refl (s : State) : s.Spares below s := of_positions rfl

theorem trans (s t u : State) (first : s.Spares below t) (second : t.Spares below u) :
    s.Spares below u := by
  intro begun
  obtain ⟨still, same⟩ := first begun
  obtain ⟨last, again⟩ := second still
  exact ⟨last, fun id old => (again id old).trans (same id old)⟩

theorem of_begin (begins : t.store = s.store.begin.2) : s.Spares below t := by
  intro begun
  rw [begins]
  refine ⟨?_, fun id old => s.store.index_begin (by omega)⟩
  simp only [Store.begin, Array.size_push]
  omega

theorem of_step {id : Nat} (later : below ≤ id) (steps : t.store = s.store.step id) :
    s.Spares below t := by
  intro begun
  rw [steps, Store.size_step]
  exact ⟨begun, fun other old => s.store.index_step_other (by omega)⟩

end State.Spares

open State (Spares)

section
variable {below : Nat}

theorem evaluation_spares : EvaluationClosed fun _ t => t.Leads (Spares below) where
  pure := Task.leads_pure Spares.refl
  bind := .bind Spares.trans
  state := Task.leads_state Spares.refl
  wait _ label s :=
    .waiting (.done (.refl s)) (.done (.of_positions (s.store.note_positions .completed label)))
  property receiver key ownOnly s :=
    .done (.of_positions (Read.still_readProperty receiver key ownOnly s.store))
  name o name ownOnly s := .done (.of_positions (Read.still_object o name ownOnly s.store))
  charge count s := by
    unfold Task.charge
    dsimp only
    split
    · exact .failed
    · exact .done (.of_positions rfl)
  checkDefined value walked s := by
    unfold checkDefined
    split
    · exact .failed
    · exact .done (.refl s)

theorem evaluateModifiers_spares (header : LoopHeader) (previous : Value) :
    (evaluateModifiers header previous).Leads (Spares below) := fun s =>
  (evaluation_spares.named .empty header.modifiers
    (s.mapBindings (·.push (.single "continue" previous)))).ensuring fun _ _ spared => spared

theorem iterate_spares (variableName : String) {position : LoopPosition}
    (later : below ≤ position.id) {body : Task Unit} (inside : body.Leads (Spares below))
    (items : List Value) : (iterate variableName position body items).Leads (Spares below) := by
  induction items with
  | nil => exact Task.leads_pure Spares.refl ()
  | cons item rest ih =>
    have entered : (enterElement variableName item).Leads (Spares below) :=
      Task.leads_modify fun _ => .of_positions rfl
    refine entered.bind Spares.trans fun _ => inside.bind Spares.trans fun _ => ?_
    refine (Task.leads_state Spares.refl).bind Spares.trans fun s => ?_
    cases s.breaking with
    | true => exact Task.leads_pure Spares.refl ()
    | false =>
      have moved : (stepLoop position).Leads (Spares below) :=
        Task.leads_modify fun _ => .of_step later rfl
      exact moved.bind Spares.trans fun _ => ih

/-- The step for loops: one that begins now has a number that none had before. -/
theorem visit_spares (header : LoopHeader) (items : List Value) {body : Task Unit}
    (inside : body.Leads (Spares below)) : (visit header items body).Leads (Spares below) := by
  intro s
  by_cases begun : below ≤ s.store.positions.size
  · obtain ⟨⟨cell, registers⟩, got⟩ : ∃ p, s.registers.get .offsets offsetsRegister = p := ⟨_, rfl⟩
    rw [visit_eq, Task.bind_apply, openLoop_apply header items got, Step.bind_assoc]
    have evaluated : (evaluateModifiers header
        (.int (((registers.offsetsAt cell).lookup header.continueKey).getD 0))).Leads
        (Spares below) := evaluateModifiers_spares header _
    refine (evaluated { s with registers }).bind fun modifiers x kept => ?_
    let selected := select header.ordered modifiers items
    let position := LoopPosition.make x.store.begin.1 selected.length header.variableName
      header.collection.text
    have later : below ≤ position.id := (kept begun).1
    have cleared : (Task.modify State.clearJumps).Leads (Spares below) :=
      Task.leads_modify fun _ => .of_positions rfl
    have rounds := (iterate_spares header.variableName later inside selected).bind Spares.trans
      fun _ => cleared
    refine (rounds _).ensuring fun _ t spared => ?_
    exact Spares.trans _ _ _ kept (Spares.trans _ _ _ (.of_begin rfl) spared)
  · exact .of_forall (fun _ _ old => absurd old begun) _

theorem renderLoop_spares (header : LoopHeader) {body otherwise : Task Unit}
    (inside : body.Leads (Spares below)) (instead : otherwise.Leads (Spares below)) :
    (renderLoop header body otherwise).Leads (Spares below) := by
  refine evaluation_spares.bind (evaluation_spares.expr header.collection.expr) fun v => ?_
  refine evaluation_spares.bind (evaluation_spares.resolve v) fun v => ?_
  cases v.elements with
  | nil => exact instead
  | cons item rest => exact visit_spares header (item :: rest) inside

theorem renderAll_spares {nodes : List Node} (builtIn : BuiltIn nodes) :
    (renderAll nodes).Leads (Spares below) := by
  have still : ∀ {change : State → State}, (∀ s, (change s).store = s.store) →
      (Task.modify change).Leads (Spares below) := fun same =>
    Task.leads_modify fun s => .of_positions (congrArg Store.positions (same s))
  have closed : RenderClosed (·.Leads (Spares below)) (·.custom? = none) :=
    { nothing := Task.leads_pure Spares.refl ()
      sequence := fun first rest kept later => by
        have timed : Task.checkTime.Leads (Spares below) := fun s => by
          unfold Task.checkTime
          split
          · exact .failed
          · exact .done (.of_positions rfl)
        refine timed.bind Spares.trans fun _ => kept.bind Spares.trans fun _ => ?_
        refine (Task.leads_state Spares.refl).bind Spares.trans fun s => ?_
        cases s.stopped with
        | true => exact Task.leads_pure Spares.refl ()
        | false => exact later
      text := fun _ => still fun _ => rfl
      output := fun value _ _ => by
        cases value with
        | none => exact Task.leads_pure Spares.refl ()
        | some a =>
          refine evaluation_spares.bind (evaluation_spares.expr a.expr) fun v => ?_
          exact evaluation_spares.bind (evaluation_spares.resolve v) fun v => still fun _ => rfl
      loop := fun header _ _ _ _ _ _ => renderLoop_spares header
      choice := fun _ _ _ _ taken _ _ _ body other => by
        refine evaluation_spares.bind (evaluation_spares.condition taken.1) fun holds => ?_
        cases holds with
        | true => exact body
        | false => exact other
      assign := fun name value _ _ =>
        evaluation_spares.bind (evaluation_spares.expr value.expr) fun v => still fun _ => rfl
      increment := fun _ _ _ _ => .done (.of_positions rfl)
      decrement := fun _ _ _ _ => .done (.of_positions rfl)
      leave := still fun _ => rfl
      next := still fun _ => rfl
      custom := fun c _ _ none => by cases none }
  exact renderAll_closed closed nodes (List.filterMap_eq_nil_iff.mp builtIn)

end
end Templating
