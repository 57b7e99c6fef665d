import Templating.Proofs.Template.Closure
import Templating.Proofs.Template.Opening

namespace Templating

namespace Task
variable {R : State → State → Prop} {body rest : Task Unit}

theorem respects_checkTime (time : ∀ s t, R s t → s.time = t.time)
    (look : ∀ s t, R s t → R s.look t.look) : checkTime.Respects R := by
  intro s t related
  have looked := look s t related
  unfold checkTime
  rw [time s.look t.look looked, time s t related]
  split
  · exact .failed looked (by simp)
  · exact .done ⟨rfl, looked⟩

theorem Respects.branch {condition : Condition} (tested : condition.evaluate.Respects R)
    (taken : body.Respects R) (other : rest.Respects R) :
    (branch condition body rest).Respects R := by
  refine tested.bind fun holds => ?_
  cases holds with
  | true => exact taken
  | false => exact other

theorem Respects.sequence (time : ∀ s t, R s t → s.time = t.time)
    (look : ∀ s t, R s t → R s.look t.look)
    (stopped : ∀ s t, R s t → s.stopped = t.stopped) (first : body.Respects R)
    (later : rest.Respects R) : (sequence body rest).Respects R := by
  refine (respects_checkTime time look).bind fun _ => first.bind fun _ s t related => ?_
  change Step.Agree _ _ ((if s.stopped then pure () else rest : Task Unit) s)
    ((if t.stopped then pure () else rest : Task Unit) t)
  rw [stopped s t related]
  cases t.stopped with
  | true => exact .done ⟨rfl, related⟩
  | false => exact later s t related

theorem Respects.iterate (breaking : ∀ s t, R s t → s.breaking = t.breaking) {name : String}
    {position : LoopPosition} (stepped : (stepLoop position).Respects R) (inside : body.Respects R)
    {items : List Value} (entered : ∀ item ∈ items, (enterElement name item).Respects R) :
    (iterate name position body items).Respects R := by
  induction items with
  | nil => exact respects_pure ()
  | cons item rest ih =>
    rw [List.forall_mem_cons] at entered
    refine entered.1.bind fun _ => inside.bind fun _ s t related => ?_
    change Step.Agree _ _
      ((if s.breaking then pure () else do
        stepLoop position
        Templating.iterate name position body rest : Task Unit) s)
      ((if t.breaking then pure () else do
        stepLoop position
        Templating.iterate name position body rest : Task Unit) t)
    rw [breaking s t related]
    cases t.breaking with
    | true => exact .done ⟨rfl, related⟩
    | false => exact (stepped.bind fun _ => ih entered.2) s t related

end Task

/-- Related states that a node without jumps cannot tell apart. `names` are those that
    may be read, `counted` those that may be counted. -/
structure Matching (R : State → State → Prop) (names counted : List String) : Prop where
  alike : ∀ s t, R s t → Alike names s t
  registers : ∀ s t, R s t → s.registers = t.registers
  time : ∀ s t, R s t → s.time = t.time
  look : ∀ s t, R s t → R s.look t.look
  counter : ∀ s t, R s t → ∀ name ∈ counted,
    s.bindings.data.own? name = t.bindings.data.own? name
  opened : ∀ s t registers memory store, R s t →
    R (s.opened registers memory store) (t.opened registers memory store)
  write : ∀ s t text, R s t → R (s.write text) (t.write text)
  bindBottom : ∀ s t name v, R s t →
    R (s.mapBindings (·.bindBottom name v)) (t.mapBindings (·.bindBottom name v))
  bindData : ∀ s t, ∀ name ∈ counted, ∀ v, R s t →
    R (s.mapBindings (·.bindData name v)) (t.mapBindings (·.bindData name v))

structure Parallel (R : State → State → Prop) (names counted : List String) : Prop
    extends Matching R names counted where
  breaking : ∀ s t, R s t → s.breaking = t.breaking
  continuing : ∀ s t, R s t → s.continuing = t.continuing
  jump : ∀ s t breaking continuing, R s t →
    R { s with breaking, continuing } { t with breaking, continuing }
  push : ∀ s t scope, R s t → R (s.mapBindings (·.push scope)) (t.mapBindings (·.push scope))
  pop : ∀ s t, R s t → R s.pop t.pop
  bindTop : ∀ s t name v, R s t →
    R (s.mapBindings (·.bindTop name v)) (t.mapBindings (·.bindTop name v))

namespace Matching
variable {R : State → State → Prop} {names counted : List String}

theorem local_respects {α : Type} {fewer : List String} (matching : Matching R names counted)
    {t : Task α} (h : t.Local fewer) (covered : fewer ⊆ names) : t.Respects R := by
  intro s s' related
  have moved : ∀ x y, Moved s s' x y → R x y := by
    rintro _ _ ⟨memory, store, rfl, rfl⟩
    have still : s'.opened s.registers memory store = s'.after memory store := by
      rw [matching.registers s s' related]
      rfl
    exact still ▸ matching.opened s s' s.registers memory store related
  have alike := (matching.alike s s' related).subset covered
  exact (h s s' alike).mono (fun _ x _ y r => ⟨r.1, moved x y r.2⟩) moved

theorem openLoop_respects (matching : Matching R names counted) {header : LoopHeader}
    (covered : ∀ name ∈ rootsOf (givenValues header.modifiers), name ≠ "continue" → name ∈ names)
    (items : List Value) : (openLoop header items).Respects R := by
  intro s s' related
  have opened : ∀ x y, Opened s s' x y → R x y := by
    rintro _ _ ⟨registers, memory, store, rfl, rfl⟩
    exact matching.opened s s' registers memory store related
  have agree := openLoop_agrees covered (matching.alike s s' related)
    (matching.registers s s' related) items
  exact agree.mono (fun _ x _ y r => ⟨r.1, opened x y r.2⟩) opened

theorem resolve_respects (matching : Matching R names counted) (v : Value) :
    (Task.resolve v).Respects R :=
  matching.local_respects (Task.local_resolve v) (List.nil_subset names)

theorem checkTime_respects (matching : Matching R names counted) : Task.checkTime.Respects R :=
  Task.respects_checkTime matching.time matching.look

theorem renderOutput_respects (matching : Matching R names counted) {value : Option Argument}
    (covered : rootsOf value.toList ⊆ names) : (renderOutput value).Respects R := by
  cases value with
  | none => exact Task.respects_pure ()
  | some a =>
    refine (matching.local_respects a.evaluate_local covered).bind fun v => ?_
    refine (matching.resolve_respects v).bind fun v => ?_
    exact Task.respects_modify fun s t => matching.write s t v.text

theorem renderAssign_respects (matching : Matching R names counted) (name : String)
    {value : Argument} (covered : rootsOf [value] ⊆ names) : (renderAssign name value).Respects R :=
  (matching.local_respects value.evaluate_local covered).bind fun v =>
    Task.respects_modify fun s t => matching.bindBottom s t name v

theorem count_respects (matching : Matching R names counted) {name : String}
    (member : name ∈ counted) (delta : Int) (showsBefore : Bool) :
    (count name delta showsBefore).Respects R := by
  intro s t related
  have same : counterBefore s.bindings.data name = counterBefore t.bindings.data name := by
    rw [counterBefore, counterBefore, matching.counter s t related name member]
  unfold count
  rw [same]
  exact .done ⟨rfl, matching.write _ _ _ (matching.bindData s t name member _ related)⟩

end Matching

namespace Parallel
variable {R : State → State → Prop} {names counted : List String}

theorem iterate_respects (parallel : Parallel R names counted) (name : String)
    (position : LoopPosition) {body : Task Unit} (h : body.Respects R) (items : List Value) :
    (iterate name position body items).Respects R := by
  have stepped : (stepLoop position).Local names := fun _ _ alike =>
    .done ⟨rfl, alike.moved_store (·.step position.id)⟩
  refine .iterate parallel.breaking (parallel.local_respects stepped fun _ h => h) h ?_
  exact fun item _ => Task.respects_modify fun s t related =>
    parallel.jump _ _ false false (parallel.bindTop s t name item related)

theorem within_respects {α : Type} (parallel : Parallel R names counted) (scope : Object)
    {t : Task α} (h : t.Respects R) : (Task.within scope t).Respects R := fun s s' related =>
  (h _ _ (parallel.push s s' scope related)).ensuring
    (fun _ x _ y r => ⟨r.1, parallel.pop x y r.2⟩) parallel.pop

theorem visit_respects (parallel : Parallel R names counted) {header : LoopHeader}
    (covered : rootsOf (givenValues header.modifiers) ⊆ names) (items : List Value)
    {body : Task Unit} (h : body.Respects R) : (visit header items body).Respects R := by
  rw [visit_eq]
  have opens := parallel.openLoop_respects (fun _ member _ => covered member) items
  refine opens.bind fun opened => ?_
  refine parallel.within_respects _ ?_
  refine (parallel.iterate_respects header.variableName opened.1 h opened.2).bind fun _ => ?_
  exact Task.respects_modify fun s t => parallel.jump s t false false

theorem renderLoop_respects (parallel : Parallel R names counted) {header : LoopHeader}
    (covered : rootsOf header.arguments ⊆ names) {body otherwise : Task Unit}
    (inside : body.Respects R) (instead : otherwise.Respects R) :
    (renderLoop header body otherwise).Respects R := by
  rw [LoopHeader.arguments, ← List.singleton_append, rootsOf_append, List.append_subset] at covered
  refine (parallel.local_respects header.collection.evaluate_local covered.1).bind fun v => ?_
  refine (parallel.resolve_respects v).bind fun v => ?_
  cases v.elements with
  | nil => exact instead
  | cons item rest => exact parallel.visit_respects covered.2 (item :: rest) inside

theorem branch_respects (parallel : Parallel R names counted) {condition : Condition}
    (covered : rootsOf condition.arguments ⊆ names) {body rest : Task Unit}
    (taken : body.Respects R) (other : rest.Respects R) :
    (branch condition body rest).Respects R :=
  .branch (parallel.local_respects condition.evaluate_local covered) taken other

theorem stopped (parallel : Parallel R names counted) (s t : State) (related : R s t) :
    s.stopped = t.stopped := by
  rw [State.stopped, parallel.breaking s t related, parallel.continuing s t related]
  rfl

end Parallel

def readNames (nodes : List Node) : List String :=
  (preorderAll nodes).flatMap fun n => rootsOf n.arguments

theorem Parallel.render_respects {R : State → State → Prop} (nodes : List Node)
    (parallel : Parallel R (readNames nodes) (countedNames nodes))
    (custom : ∀ c ∈ customs nodes, ∀ parts : List (Task Unit),
      (∀ part ∈ parts, part.Respects R) → (c.render parts).Respects R) :
    (renderAll nodes).Respects R := by
  have covered : ∀ n ∈ preorderAll nodes, rootsOf n.arguments ⊆ readNames nodes :=
    fun n member name mine => List.mem_flatMap.mpr ⟨n, member, mine⟩
  have counts : ∀ n ∈ preorderAll nodes, ∀ name ∈ n.counted, name ∈ countedNames nodes :=
    fun n member name mine => List.mem_flatMap.mpr ⟨n, member, mine⟩
  have closed : RenderClosed (·.Respects R) (· ∈ preorderAll nodes) :=
    { nothing := Task.respects_pure ()
      sequence := fun _ _ => Task.Respects.sequence parallel.time parallel.look parallel.stopped
      text := fun text => Task.respects_modify fun s t => parallel.write s t text
      output := fun value _ member => parallel.renderOutput_respects (covered _ member)
      loop := fun header _ _ _ member _ _ => parallel.renderLoop_respects (covered _ member)
      choice := fun branches _ _ member taken mine _ _ => by
        refine parallel.branch_respects fun name root => covered _ member ?_
        obtain ⟨a, given, root⟩ := List.mem_flatMap.mp root
        exact List.mem_flatMap.mpr ⟨a, List.mem_flatMap.mpr ⟨taken, mine, given⟩, root⟩
      assign := fun name value _ member => parallel.renderAssign_respects name (covered _ member)
      increment := fun name _ member =>
        parallel.count_respects (counts _ member name (List.mem_singleton_self name)) _ _
      decrement := fun name _ member =>
        parallel.count_respects (counts _ member name (List.mem_singleton_self name)) _ _
      leave := Task.respects_modify fun s t related => by
        rw [parallel.continuing s t related]
        exact parallel.jump s t true t.continuing related
      next := Task.respects_modify fun s t related => by
        rw [parallel.breaking s t related]
        exact parallel.jump s t t.breaking true related
      custom := fun c _ _ member => custom c (List.mem_filterMap.mpr ⟨_, member, rfl⟩) }
  exact renderAll_closed closed nodes fun _ member => member

end Templating
