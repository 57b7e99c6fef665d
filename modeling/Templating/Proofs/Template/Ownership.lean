import Templating.Proofs.Expr.Ownership
import Templating.Proofs.Template.Drivers

namespace Templating

open Templating.Task (respects_pure)

variable {ownOnly : Bool}

namespace Task
variable {α : Type} {V : α → Prop} {t : Task α}

theorem Yields.within {scope : Object} (orphan : scope.Orphan)
    (h : t.Yields (Seeing ownOnly) V) : (within scope t).Yields (Seeing ownOnly) V := by
  intro s s' related
  have entered := related.map (·.mapBindings (·.push scope)) rfl (related.orphan.push orphan)
  have left : ∀ x y, Seeing ownOnly x y → Seeing ownOnly x.pop y.pop := fun x _ h =>
    h.map State.pop rfl h.orphan.pop
  exact (h _ _ entered).ensuring (fun _ x _ y r => ⟨r.1, r.2.1, left x y r.2.2⟩) left

theorem Respects.within {scope : Object} (orphan : scope.Orphan)
    (h : t.Respects (Seeing ownOnly)) : (within scope t).Respects (Seeing ownOnly) :=
  (h.yields.within orphan).respects

theorem Respects.isolated {data : Object} (orphan : data.Orphan)
    (h : t.Respects (Seeing ownOnly)) : (isolated data t).Respects (Seeing ownOnly) := by
  rintro s _ ⟨outer, rfl⟩
  have entered : Seeing ownOnly (s.spawn data) ((s.seeing ownOnly).spawn data) :=
    ⟨.start orphan outer.globals, rfl⟩
  have left : ∀ x y, Seeing ownOnly x y →
      Seeing ownOnly (s.rejoin x) ((s.seeing ownOnly).rejoin y) := by
    rintro x _ ⟨-, rfl⟩
    exact ⟨outer, rfl⟩
  exact (h _ _ entered).ensuring (fun _ x _ y r => ⟨r.1, left x y r.2⟩) left

end Task

theorem write_respects (text : String) : (Task.write text).Respects (Seeing ownOnly) :=
  Task.respects_modify fun _ _ h => h.map (·.write text) rfl h.orphan

theorem Seeing.time (s t : State) (h : Seeing ownOnly s t) : s.time = t.time := by
  rw [h.same]
  rfl

theorem Seeing.look (s t : State) (h : Seeing ownOnly s t) : Seeing ownOnly s.look t.look :=
  h.map State.look rfl h.orphan

theorem Seeing.breaking (s t : State) (h : Seeing ownOnly s t) : s.breaking = t.breaking := by
  rw [h.same]
  rfl

theorem Seeing.stopped (s t : State) (h : Seeing ownOnly s t) : s.stopped = t.stopped := by
  rw [h.same]
  rfl

theorem renderOutput_respects (value : Option Argument) :
    (renderOutput value).Respects (Seeing ownOnly) := by
  cases value with
  | none => exact respects_pure ()
  | some a =>
    refine a.expr.evaluate_yields.then fun v _ => (Task.resolve_respects v).bind fun v => ?_
    exact write_respects v.text

theorem renderAssign_respects (name : String) (value : Argument) :
    (renderAssign name value).Respects (Seeing ownOnly) := by
  refine value.expr.evaluate_yields.then fun v orphan => ?_
  exact Task.respects_modify fun _ _ h =>
    h.map (·.mapBindings (·.bindBottom name v)) rfl (h.orphan.bindBottom name orphan)

theorem counterAfter_orphan (delta : Int) (data : Object) (name : String) :
    (counterAfter delta (counterBefore data name)).Orphan := by
  unfold counterBefore
  split
  · exact .int _
  · exact .float _
  · exact .int _

theorem count_respects (name : String) (delta : Int) (showsBefore : Bool) :
    (count name delta showsBefore).Respects (Seeing ownOnly) := by
  rintro s _ ⟨orphan, rfl⟩
  have counted := counterAfter_orphan delta s.bindings.data name
  exact .done ⟨rfl, orphan.bindData name counted, rfl⟩

theorem evaluateModifiers_yields (header : LoopHeader) (previous : Int64) :
    (evaluateModifiers header (.int previous)).Yields (Seeing ownOnly) Object.Orphan :=
  (evaluateNamed_yields .empty header.modifiers).within (.single "continue" (.int previous))

theorem openLoop_yields (header : LoopHeader) {items : List Value} (h : ∀ v ∈ items, v.Orphan) :
    (openLoop header items).Yields (Seeing ownOnly) fun opened => ∀ v ∈ opened.2, v.Orphan := by
  rintro s _ ⟨orphan, rfl⟩
  obtain ⟨⟨cell, registers⟩, got⟩ : ∃ p, s.registers.get .offsets offsetsRegister = p := ⟨_, rfl⟩
  rw [openLoop_apply header items got, openLoop_apply header items (s := s.seeing ownOnly) got]
  let previous := ((registers.offsetsAt cell).lookup header.continueKey).getD 0
  have start : Seeing ownOnly { s with registers } { s.seeing ownOnly with registers } :=
    ⟨orphan, rfl⟩
  refine (evaluateModifiers_yields header previous _ _ start).bind ?_
  rintro modifiers x _ _ ⟨rfl, -, orphan, rfl⟩
  exact .done ⟨rfl, fun v member => h v (select_subset _ _ _ member), orphan, rfl⟩

theorem enterElement_respects (name : String) {item : Value} (h : item.Orphan) :
    (enterElement name item).Respects (Seeing ownOnly) :=
  Task.respects_modify fun _ _ related =>
    related.map (fun s => (s.mapBindings (·.bindTop name item)).clearJumps) rfl
      (related.orphan.bindTop name h)

theorem iterate_respects (name : String) (position : LoopPosition) {body : Task Unit}
    (inside : body.Respects (Seeing ownOnly)) {items : List Value} (h : ∀ v ∈ items, v.Orphan) :
    (iterate name position body items).Respects (Seeing ownOnly) := by
  have stepped : (stepLoop position).Respects (Seeing ownOnly) :=
    Task.respects_modify fun _ _ related =>
      related.map (fun s => { s with store := s.store.step position.id }) rfl related.orphan
  exact .iterate Seeing.breaking stepped inside fun item member =>
    enterElement_respects name (h item member)

theorem visit_respects (header : LoopHeader) {items : List Value} (h : ∀ v ∈ items, v.Orphan)
    {body : Task Unit} (inside : body.Respects (Seeing ownOnly)) :
    (visit header items body).Respects (Seeing ownOnly) := by
  rw [visit_eq]
  refine (openLoop_yields header h).then fun opened selected => ?_
  have scope : (loopScope opened.1).Orphan := .single "forloop" (.position opened.1)
  have iterated := iterate_respects header.variableName opened.1 inside selected
  refine Task.Respects.within scope (iterated.bind fun _ => ?_)
  exact Task.respects_modify fun _ _ related => related.map State.clearJumps rfl related.orphan

theorem renderLoop_respects (header : LoopHeader) {body otherwise : Task Unit}
    (inside : body.Respects (Seeing ownOnly)) (instead : otherwise.Respects (Seeing ownOnly)) :
    (renderLoop header body otherwise).Respects (Seeing ownOnly) := by
  refine header.collection.expr.evaluate_yields.then fun v h => ?_
  refine (Task.resolve_yields v h).then fun v h => ?_
  have visited := h.elements
  cases items : v.elements with
  | nil => exact instead
  | cons item rest => exact visit_respects header (items ▸ visited) inside

/-- A custom node that does not look at the mode and binds nothing that inherits, if its bodies
    are like that. -/
def Custom.Indifferent (c : Custom) : Prop :=
  ∀ parts : List (Task Unit), (∀ part ∈ parts, part.Respects (Seeing false)) →
    (c.render parts).Respects (Seeing false)

theorem seeing_closed {nodes : List Node} (custom : ∀ c ∈ customs nodes, c.Indifferent) :
    RenderClosed (·.Respects (Seeing false)) (· ∈ preorderAll nodes) where
  nothing := respects_pure ()
  sequence _ _ := .sequence Seeing.time Seeing.look Seeing.stopped
  text := write_respects
  output value _ _ := renderOutput_respects value
  loop header _ _ _ _ _ _ := renderLoop_respects header
  choice _ _ _ _ taken _ _ _ := .branch taken.1.evaluate_respects
  assign name value _ _ := renderAssign_respects name value
  increment name _ _ := count_respects name 1 true
  decrement name _ _ := count_respects name (-1) false
  leave := Task.respects_modify fun _ _ h => h.map ({ · with breaking := true }) rfl h.orphan
  next := Task.respects_modify fun _ _ h => h.map ({ · with continuing := true }) rfl h.orphan
  custom c _ _ member := custom c (List.mem_filterMap.mpr ⟨_, member, rfl⟩)

theorem Run.Agree.seeing {α : Type} {r r' : Run α}
    (h : Run.Agree (fun a s b t => a = b ∧ Seeing ownOnly s t) (Seeing ownOnly) r r') :
    r' = { r with state := r.state.seeing ownOnly } ∧ r.state.bindings.Orphan := by
  cases h with
  | finished h =>
    obtain ⟨rfl, orphan, rfl⟩ := h
    exact ⟨rfl, orphan⟩
  | failed h =>
    obtain ⟨orphan, rfl⟩ := h
    exact ⟨rfl, orphan⟩
  | unfinished h =>
    obtain ⟨orphan, rfl⟩ := h
    exact ⟨rfl, orphan⟩

/-- From a state in which nothing that is bound inherits, a render that sees own entries alone
    and one that sees all end alike, with the same text written and the same state but for that
    mode; and nothing that is bound then inherits either. -/
theorem own_entries_suffice (nodes : List Node)
    (custom : ∀ c ∈ customs nodes, c.Indifferent) (s : State) (orphan : s.bindings.Orphan)
    (schedule : Schedule) :
    let now := fun ownOnly => (renderAll nodes).runNow (s.seeing ownOnly) schedule
    let later := fun ownOnly polls =>
      (renderAll nodes (s.seeing ownOnly)).runWaiting polls schedule
    now false = { now true with state := (now true).state.seeing false } ∧
      (now true).state.bindings.Orphan ∧
      ∀ polls, later false polls
          = { later true polls with state := (later true polls).state.seeing false } ∧
        (later true polls).state.bindings.Orphan := by
  intro now later
  have agree := renderAll_closed (seeing_closed custom) nodes (fun _ member => member)
    (s.seeing true) (s.seeing false) ⟨orphan, rfl⟩
  obtain ⟨same, still⟩ := (agree.runNow schedule).seeing
  exact ⟨same, still, fun polls => (agree.runWaiting polls schedule).seeing⟩

def secluded : Custom :=
  { framed with render := fun parts => Task.isolated (.single "n" (.int 3)) (framed.render parts) }

theorem secluded_indifferent : secluded.Indifferent := fun _ all =>
  (framed_respects write_respects all).isolated (.single "n" (.int 3))

/-- `{% for x in user.items %}{{ x.size }}{% endfor %}{% assign y = user %}{{ y.size }}`, and a
    secluded `{{ n }}`. -/
def sizes : List Node :=
  let span : Span := ⟨0, 0⟩
  let path (root : String) (names : List String) : Argument :=
    ⟨.path root (names.map .name), root, span⟩
  let shown (root : String) (names : List String) : Node := .output (some (path root names)) span
  [.loop ⟨"x", path "user" ["items"], [], false⟩ [shown "x" ["size"]] [] span,
    .assign "y" (path "user" []) span, shown "y" ["size"],
    .custom secluded [[shown "n" []]] span]

def sizedItems : State :=
  let items : Value :=
    .array [.object (.single "size" (.int 5)), .object ⟨[("a", .int 1), ("b", .nil)], none⟩]
  let user : Object := .single "items" (.computed 2 none fun _ => items)
  Engine.start default (.single "user" (.deferred 1 none (.object user))) default .empty .empty

theorem own_entries_suffice_for_sizes :
    let later := fun ownOnly =>
      (renderAll sizes (sizedItems.seeing ownOnly)).runWaiting 2 ⟨[(1, .pending 1)]⟩
    (∀ c ∈ customs sizes, c.Indifferent) ∧ sizedItems.bindings.Orphan ∧
      (later true).ending = .finished () ∧ (later true).state.sink.output = "521<3>" ∧
      later false = { later true with state := (later true).state.seeing false } := by
  intro later
  have indifferent : ∀ c ∈ customs sizes, c.Indifferent := by
    intro c member
    rw [List.mem_singleton.mp (show c ∈ [secluded] from member)]
    exact secluded_indifferent
  have orphan : sizedItems.bindings.Orphan := by
    refine .start (.single "user" (.deferred (.object (.single "items" (.computed fun _ => ?_)))))
      .empty
    have sized : (Object.single "size" (.int 5)).Orphan := .single "size" (.int 5)
    have counted : Object.Orphan ⟨[("a", .int 1), ("b", .nil)], none⟩ :=
      .mk (by simp [Value.Orphan.int, Value.Orphan.nil])
    exact .array (by simp [Value.Orphan.object sized, Value.Orphan.object counted])
  have waits := (own_entries_suffice sizes indifferent sizedItems orphan ⟨[(1, .pending 1)]⟩).2.2
  exact ⟨indifferent, orphan, by decide +kernel, by decide +kernel, (waits 2).1⟩

example :
    let heir : Object := ⟨[], some (.single "a" (.int 5))⟩
    let start : State := Engine.start default (.single "y" (.object heir)) default .empty .empty
    let shown : List Node := [.output (some ⟨.path "y" [.name "a"], "y.a", ⟨0, 0⟩⟩) ⟨0, 0⟩]
    let writes := fun ownOnly =>
      ((renderAll shown).runNow (start.seeing ownOnly) .empty).state.sink.output
    writes true = "" ∧ writes false = "5" := by
  decide +kernel

end Templating
