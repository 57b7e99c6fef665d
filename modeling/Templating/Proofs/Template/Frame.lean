import Templating.Proofs.State.Registers
import Templating.Proofs.Template.Closure
import Templating.Proofs.Template.Opening

/-!
What a render leaves alone, however it ends. A frame is a relation between an earlier and a
later state, together with what is left of it inside a loop, where the innermost scope belongs
to the loop.
-/
namespace Templating

/-- `K` outside of a loop, `I` inside of one. -/
structure Frame (K I : State → State → Prop) : Prop where
  refl : ∀ s, K s s
  trans : ∀ s t u, K s t → K t u → K s u
  inside_refl : ∀ s, I s s
  inside_trans : ∀ s t u, I s t → I t u → I s u
  enter : ∀ s t, K s t → I s t
  leave : ∀ (s t u : State) scope, I (s.mapBindings (·.push scope)) t → I t u → K t.pop u.pop
  bindTop : ∀ s name value, I s (s.mapBindings (·.bindTop name value))
  open_loop : ∀ s registers memory store, s.registers.TouchedOnly offsetsRegister registers →
    K s (s.opened registers memory store)
  jump : ∀ s breaking continuing, K s { s with breaking, continuing }
  write : ∀ s text, K s (s.write text)
  look : ∀ s, K s s.look

namespace Frame
variable {K I : State → State → Prop}

theorem pure_keeps {α : Type} (frame : Frame K I) (a : α) : (pure a : Task α).Keeps K :=
  Task.keeps_pure frame.refl a

theorem bind_keeps {α β : Type} (frame : Frame K I) {t : Task α} {f : α → Task β}
    (first : t.Keeps K) (rest : ∀ a, (f a).Keeps K) : (t >>= f).Keeps K :=
  first.bind frame.trans rest

theorem after (frame : Frame K I) (s t : State) (h : After s t) : K s t := by
  obtain ⟨memory, store, rfl⟩ := h
  exact frame.open_loop s s.registers memory store (.refl _)

theorem local_keeps {α : Type} {names : List String} (frame : Frame K I) {t : Task α}
    (h : t.Local names) : t.Keeps K := h.keeps frame.after

theorem openLoop_keeps (frame : Frame K I) (header : LoopHeader) (items : List Value) :
    (openLoop header items).Keeps K := by
  intro s
  obtain ⟨⟨cell, registers⟩, got⟩ : ∃ p, s.registers.get .offsets offsetsRegister = p := ⟨_, rfl⟩
  have touched := s.registers.get_touches .offsets offsetsRegister
  have mine := s.registers.slot?_get .offsets offsetsRegister
  rw [got] at touched mine
  have asked : K s { s with registers } := frame.open_loop s registers s.memory s.store touched
  rw [openLoop_apply header items got]
  -- Up to the end of the modifiers the registers are those that were asked for.
  have evaluated := evaluateModifiers_keeps header
    (.int (((registers.offsetsAt cell).lookup header.continueKey).getD 0)) { s with registers }
  refine Step.Keeps.from_earlier frame.trans asked ?_
  refine evaluated.bind After.trans frame.trans frame.after ?_
  rintro modifiers _ ⟨memory, store, rfl⟩
  exact .done (frame.open_loop _ _ memory _ (Registers.write_touches mine _))

theorem enterElement_keeps (frame : Frame K I) (name : String) (item : Value) :
    (enterElement name item).Keeps I :=
  Task.keeps_modify fun s => by
    have cleared := frame.jump (s.mapBindings (·.bindTop name item)) false false
    exact frame.inside_trans _ _ _ (frame.bindTop s name item) (frame.enter _ _ cleared)

theorem stepLoop_keeps (frame : Frame K I) (position : LoopPosition) :
    (stepLoop position).Keeps K :=
  Task.keeps_modify fun s => frame.after _ _ ⟨s.memory, s.store.step position.id, rfl⟩

theorem iterate_keeps (frame : Frame K I) (name : String) (position : LoopPosition)
    {body : Task Unit} (kept : body.Keeps K) (items : List Value) :
    (iterate name position body items).Keeps I := by
  induction items with
  | nil => exact Task.keeps_pure frame.inside_refl ()
  | cons item rest ih =>
    refine (frame.enterElement_keeps name item).bind frame.inside_trans fun _ => ?_
    refine (kept.mono frame.enter).bind frame.inside_trans fun _ s => ?_
    -- The state read after the body decides which way the loop goes on.
    change Step.Keeps _ _ ((if s.breaking then pure () else do
      stepLoop position
      iterate name position body rest : Task Unit) s)
    cases s.breaking with
    | true => exact Task.keeps_pure frame.inside_refl () s
    | false =>
      have step := (frame.stepLoop_keeps position).mono frame.enter
      exact step.bind frame.inside_trans (fun _ => ih) s

theorem within_keeps {α : Type} (frame : Frame K I) (scope : Object) {t : Task α}
    (kept : t.Keeps I) : (Task.within scope t).Keeps K := fun s =>
  (kept (s.mapBindings (·.push scope))).ensuring frame.inside_refl frame.inside_trans
    fun t u => frame.leave s t u scope

theorem visit_keeps (frame : Frame K I) (header : LoopHeader) (items : List Value)
    {body : Task Unit} (kept : body.Keeps K) : (visit header items body).Keeps K := by
  rw [visit_eq]
  refine frame.bind_keeps (frame.openLoop_keeps header items) fun opened => ?_
  refine frame.within_keeps _ ?_
  refine (frame.iterate_keeps header.variableName opened.1 kept opened.2).bind
    frame.inside_trans fun _ => ?_
  exact Task.keeps_modify fun s => frame.enter _ _ (frame.jump s false false)

theorem renderLoop_keeps (frame : Frame K I) (header : LoopHeader) {body otherwise : Task Unit}
    (inside : body.Keeps K) (instead : otherwise.Keeps K) :
    (renderLoop header body otherwise).Keeps K := by
  refine frame.bind_keeps (frame.local_keeps header.collection.evaluate_local) fun v => ?_
  have resolved : (Task.resolve v).Local [] := Task.local_resolve v
  refine frame.bind_keeps (frame.local_keeps resolved) fun v => ?_
  cases v.elements with
  | nil => exact instead
  | cons item rest => exact frame.visit_keeps header (item :: rest) inside

theorem branch_keeps (frame : Frame K I) (condition : Condition) {body rest : Task Unit}
    (taken : body.Keeps K) (other : rest.Keeps K) : (branch condition body rest).Keeps K := by
  refine frame.bind_keeps (frame.local_keeps condition.evaluate_local) fun holds => ?_
  cases holds with
  | true => exact taken
  | false => exact other

theorem sequence_keeps (frame : Frame K I) {first rest : Task Unit} (kept : first.Keeps K)
    (later : rest.Keeps K) : (sequence first rest).Keeps K := by
  have timed : Task.checkTime.Keeps K := fun s => by
    unfold Task.checkTime
    split
    · exact .failed (frame.look s)
    · exact .done (frame.look s)
  refine frame.bind_keeps timed fun _ => frame.bind_keeps kept fun _ s => ?_
  change Step.Keeps _ _ ((if s.stopped then pure () else rest : Task Unit) s)
  cases s.stopped with
  | true => exact frame.pure_keeps () s
  | false => exact later s

theorem renderOutput_keeps (frame : Frame K I) (value : Option Argument) :
    (renderOutput value).Keeps K := by
  cases value with
  | none => exact frame.pure_keeps ()
  | some a =>
    refine frame.bind_keeps (frame.local_keeps a.evaluate_local) fun v => ?_
    have resolved : (Task.resolve v).Local [] := Task.local_resolve v
    refine frame.bind_keeps (frame.local_keeps resolved) fun v => ?_
    exact Task.keeps_modify fun s => frame.write s v.text

/-- A frame that admits what assignments, counters and custom nodes of a template
    do admits its render. -/
theorem render_keeps (frame : Frame K I) (nodes : List Node)
    (assign : ∀ s, ∀ name ∈ assignedNames nodes, ∀ v, K s (s.mapBindings (·.bindBottom name v)))
    (tally : ∀ s, ∀ name ∈ countedNames nodes, ∀ v, K s (s.mapBindings (·.bindData name v)))
    (custom : ∀ c ∈ customs nodes, ∀ parts : List (Task Unit),
      (∀ part ∈ parts, part.Keeps K) → (c.render parts).Keeps K) :
    (renderAll nodes).Keeps K := by
  have counted : ∀ n ∈ preorderAll nodes, ∀ name ∈ n.counted, ∀ delta showsBefore,
      (count name delta showsBefore).Keeps K := fun n member name mine delta showsBefore s =>
    .done (frame.trans _ _ _ (tally s name (List.mem_flatMap.mpr ⟨n, member, mine⟩) _)
      (frame.write _ _))
  have closed : RenderClosed (·.Keeps K) (· ∈ preorderAll nodes) :=
    { nothing := frame.pure_keeps ()
      sequence := fun _ _ => frame.sequence_keeps
      text := fun text => Task.keeps_modify fun s => frame.write s text
      output := fun value _ _ => frame.renderOutput_keeps value
      loop := fun header _ _ _ _ _ _ => frame.renderLoop_keeps header
      choice := fun _ _ _ _ taken _ _ _ => frame.branch_keeps taken.1
      assign := fun name value span member => by
        refine frame.bind_keeps (frame.local_keeps value.evaluate_local) fun v => ?_
        have mine : name ∈ assignedNames nodes :=
          List.mem_flatMap.mpr ⟨_, member, List.mem_singleton_self name⟩
        exact Task.keeps_modify fun s => assign s name mine v
      increment := fun name _ member => counted _ member name (List.mem_singleton_self name) _ _
      decrement := fun name _ member => counted _ member name (List.mem_singleton_self name) _ _
      leave := Task.keeps_modify fun s => frame.jump s true s.continuing
      next := Task.keeps_modify fun s => frame.jump s s.breaking true
      custom := fun c _ _ member => custom c (List.mem_filterMap.mpr ⟨_, member, rfl⟩) }
  exact renderAll_closed closed nodes fun _ member => member

end Frame
end Templating
