import Templating.Proofs.Task.Driving
import Templating.Proofs.Template.Opening
import Templating.Proofs.Template.Resuming
import Templating.Engine

namespace Templating

/-- What a loop goes on from once its header is evaluated. -/
structure Heading where
  items : List Value
  cell : Nat
  modifiers : Object

def evaluateCollection (header : LoopHeader) : Task Value := do
  Task.resolve (← header.collection.evaluate)

/-- Everything in the header, in order; without elements the modifiers are not looked at. -/
def evaluateHeader (header : LoopHeader) : Task (Option Heading) := do
  let collection ← evaluateCollection header
  match collection.elements with
  | [] => return none
  | item :: rest => do
    let cell ← offsetsCell
    let previous ← recallOffset cell header.continueKey
    let modifiers ← evaluateModifiers header previous
    return some ⟨item :: rest, cell, modifiers⟩

def enterLoop (header : LoopHeader) (body : Task Unit) (heading : Heading) : Task Unit := do
  let selected := select header.ordered heading.modifiers heading.items
  recordOffset heading.cell header.continueKey (resumeAt heading.modifiers selected)
  let position ← beginLoop selected.length header
  Task.within (loopScope position) do
    iterate header.variableName position body selected
    Task.modify State.clearJumps

theorem renderLoop_eq (header : LoopHeader) (body otherwise : Task Unit) :
    renderLoop header body otherwise = (do
      match ← evaluateHeader header with
      | none => otherwise
      | some heading => enterLoop header body heading) := by
  simp only [renderLoop, evaluateHeader, evaluateCollection, bind_assoc]
  refine bind_congr fun v => bind_congr fun collection => ?_
  cases collection.elements with
  | nil => rfl
  | cons item rest => simp only [visit, enterLoop, loopScope, bind_assoc, pure_bind]

/-- What can be seen of a render from outside of an evaluation is as it was: output, names, modes
    and jumps, what is recorded for loops, and all other registers. -/
structure Untraced (s t : State) : Prop where
  output : t.sink = s.sink
  names : t.bindings = s.bindings
  modes : t.modes = s.modes
  breaking : t.breaking = s.breaking
  continuing : t.continuing = s.continuing
  offsets : ∀ key, t.registers.recorded? key = s.registers.recorded? key
  registers : Registers.TouchedOnly offsetsRegister s.registers t.registers

theorem Untraced.of_after {s t : State} (after : After s t) : Untraced s t := by
  obtain ⟨memory, store, rfl⟩ := after
  exact ⟨rfl, rfl, rfl, rfl, rfl, fun _ => rfl, .refl _⟩

theorem Untraced.refl (s : State) : Untraced s s := .of_after ⟨s.memory, s.store, rfl⟩

theorem Untraced.trans (s t u : State) (first : Untraced s t) (second : Untraced t u) :
    Untraced s u where
  output := second.output.trans first.output
  names := second.names.trans first.names
  modes := second.modes.trans first.modes
  breaking := second.breaking.trans first.breaking
  continuing := second.continuing.trans first.continuing
  offsets key := (second.offsets key).trans (first.offsets key)
  registers := first.registers.trans second.registers

theorem evaluateCollection_keeps (header : LoopHeader) :
    (evaluateCollection header).Keeps After :=
  (header.collection.evaluate_local.bind Task.local_resolve).keeps fun _ _ h => h

theorem offsetsCell_keeps : offsetsCell.Keeps Untraced := fun s =>
  .done ⟨rfl, rfl, rfl, rfl, rfl, s.registers.recorded?_get, s.registers.get_touches _ _⟩

theorem evaluateHeader_keeps (header : LoopHeader) : (evaluateHeader header).Keeps Untraced := by
  have after {α : Type} {t : Task α} (h : t.Keeps After) : t.Keeps Untraced :=
    h.mono fun _ _ => .of_after
  refine (after (evaluateCollection_keeps header)).bind Untraced.trans fun collection => ?_
  cases collection.elements with
  | nil => exact Task.keeps_pure Untraced.refl _
  | cons item rest =>
    refine offsetsCell_keeps.bind Untraced.trans fun cell => ?_
    have recalled : (recallOffset cell header.continueKey).Keeps Untraced :=
      fun s => .done (.refl s)
    refine recalled.bind Untraced.trans fun previous => ?_
    refine (after (evaluateModifiers_keeps header previous)).bind Untraced.trans fun modifiers => ?_
    exact Task.keeps_pure Untraced.refl _

theorem evaluateHeader_none {header : LoopHeader} {m : Moment}
    (none : ((evaluateHeader header).drive m).ending = .finished none) :
    After m.state ((evaluateHeader header).drive m).moment.state := by
  have after := (evaluateCollection_keeps header).drive After.trans m
  rw [evaluateHeader, Task.drive_bind] at none ⊢
  obtain ⟨collection, given, rest⟩ := Halt.andThen_finished none
  generalize (evaluateCollection header).drive m = h at given after rest ⊢
  obtain ⟨ending, later⟩ := h
  obtain rfl : ending = .finished collection := given
  cases found : collection.elements with
  | nil => simpa only [Halt.andThen, found, Task.drive_pure] using after
  | cons item more =>
    -- with an element the header fails, or it gives something
    simp only [found, Task.drive_bind] at rest
    obtain ⟨_, -, rest⟩ := Halt.andThen_finished rest
    obtain ⟨_, -, rest⟩ := Halt.andThen_finished rest
    obtain ⟨_, -, rest⟩ := Halt.andThen_finished rest
    cases rest

/-- A loop whose header fails or waits in vain ends just so and leaves no trace; and a header
    without elements has left none when the nodes that stand in their place are rendered. -/
theorem header_leaves_no_trace (header : LoopHeader) (body otherwise : List Node) (span : Span)
    (s : State) (schedule : Schedule) (d : Driver) :
    let reached := (evaluateHeader header).drive ⟨s, schedule, d⟩
    let run := d.run (Node.loop header body otherwise span).render s schedule
    (∀ e, reached.ending = .failed e → run.ending = .failed e ∧ Untraced s run.state) ∧
    (reached.ending = .unfinished → run.ending = .unfinished ∧ Untraced s run.state) ∧
    (reached.ending = .finished none →
      Untraced s reached.moment.state ∧ reached.moment.state.registers = s.registers ∧
      run = ((renderAll otherwise).drive reached.moment).run) := by
  intro reached run
  have untraced : Untraced s reached.moment.state :=
    (evaluateHeader_keeps header).drive Untraced.trans ⟨s, schedule, d⟩
  have after (none : reached.ending = .finished none) : After s reached.moment.state :=
    evaluateHeader_none none
  have onward : run = (reached.andThen fun heading m => match heading with
      | none => (renderAll otherwise).drive m
      | some heading => (enterLoop header (renderAll body) heading).drive m).run := by
    change d.run (renderLoop header (renderAll body) (renderAll otherwise)) s schedule = _
    rw [Task.run_eq_drive, renderLoop_eq, Task.drive_bind]
    congr 2
    funext heading m
    cases heading <;> rfl
  generalize reached = halt at *
  obtain ⟨ending, later⟩ := halt
  refine ⟨?_, ?_, ?_⟩
  · rintro e rfl
    exact onward ▸ ⟨rfl, untraced⟩
  · rintro rfl
    exact onward ▸ ⟨rfl, untraced⟩
  · rintro rfl
    obtain ⟨memory, store, same⟩ := after rfl
    exact ⟨untraced, (congrArg State.registers same :), onward⟩

def pendingOffset (collection : Expr) : LoopHeader :=
  let span : Span := ⟨0, 0⟩
  ⟨"x", ⟨collection, "xs", span⟩, [⟨"limit", some ⟨.literal (.int 1), "1", span⟩, span⟩,
    ⟨"offset", some ⟨.path "p" [], "p", span⟩, span⟩], false⟩

theorem header_leaves_no_trace_pending :
    let span : Span := ⟨0, 0⟩
    let s := Engine.start default (.single "p" (.deferred 1 none (.int 1))) default .empty .empty
    let schedule : Schedule := ⟨[(1, .pending 1)]⟩
    let otherwise : List Node := [.text "none" span]
    let render (collection : Expr) : Run Unit := Driver.now.run
      (Node.loop (pendingOffset collection) [.leave span] otherwise span).render s schedule
    let some := render (.range (.literal (.int 1)) (.literal (.int 2)))
    let none := render (.literal .nil)
    (some.ending = .failed .pendingValue ∧ Untraced s some.state) ∧
      none.ending = .finished () ∧ none.state.sink.output = "none" ∧
      ∃ m, Untraced s m.state ∧ none = ((renderAll otherwise).drive m).run := by
  intro span s schedule otherwise render some none
  have stops := header_leaves_no_trace
    (pendingOffset (.range (.literal (.int 1)) (.literal (.int 2)))) [.leave span] otherwise span
    s schedule .now
  have passes := header_leaves_no_trace (pendingOffset (.literal .nil)) [.leave span] otherwise
    span s schedule .now
  obtain ⟨untraced, -, same⟩ := passes.2.2 rfl
  exact ⟨stops.1 .pendingValue rfl, rfl, by decide, _, untraced, same⟩

end Templating
