import Templating.Engine
import Templating.Proofs.Template.Confinement
import Templating.Proofs.Template.Standing

/-!
The rounds of a loop. A loop that keeps a ledger of what it collected, of its modifiers and of
where each round begins and ends does what the loop does.
-/
namespace Templating

open Booked (lift enter)
open State (Spares)

/-- What is noted while a loop is rendered. -/
inductive Milestone where
  | collected (items : List Value)
  | evaluated (modifiers : Object)
  | begins (s : State)
  | ends (s : State)
  | instead

abbrev Noted (α : Type) := Booked Milestone α

def noteRounds (variableName : String) (position : LoopPosition) (body : Task Unit) :
    List Value → Noted Unit
  | [] => pure ()
  | item :: rest => do
    lift (enterElement variableName item)
    enter .begins
    lift body
    enter .ends
    let s ← lift Task.state
    if s.breaking then pure ()
    else do
      lift (stepLoop position)
      noteRounds variableName position body rest

def noteAllRounds (header : LoopHeader) (position : LoopPosition) (body : Task Unit)
    (selected : List Value) : Noted Unit := do
  noteRounds header.variableName position body selected
  lift (Task.modify State.clearJumps)

def noteVisit (header : LoopHeader) (items : List Value) (body : Task Unit) : Noted Unit := do
  let cell ← lift offsetsCell
  let previous ← lift (recallOffset cell header.continueKey)
  let modifiers ← lift (evaluateModifiers header previous)
  enter fun _ => .evaluated modifiers
  let selected := select header.ordered modifiers items
  lift (recordOffset cell header.continueKey (resumeAt modifiers selected))
  let position ← lift (beginLoop selected.length header)
  Booked.within (loopScope position) (noteAllRounds header position body selected)

def noteElements (header : LoopHeader) (body otherwise : Task Unit) : List Value → Noted Unit
  | [] => do
    enter fun _ => .instead
    lift otherwise
  | item :: rest => noteVisit header (item :: rest) body

def noteLoop (header : LoopHeader) (body otherwise : Task Unit) : Noted Unit := do
  let collection ← lift header.collection.evaluate
  let collection ← lift (Task.resolve collection)
  enter fun _ => .collected collection.elements
  noteElements header body otherwise collection.elements

theorem erase_noteRounds (variableName : String) (position : LoopPosition) (body : Task Unit)
    (items : List Value) : (noteRounds variableName position body items).erase
      = iterate variableName position body items := by
  induction items with
  | nil => rfl
  | cons item rest ih =>
    simp only [noteRounds, iterate, Booked.erase_bind, Booked.erase_lift, Booked.erase_enter,
      pure_bind]
    refine congrArg (enterElement variableName item >>= ·) (funext fun _ => ?_)
    refine congrArg (body >>= ·) (funext fun _ => ?_)
    refine congrArg (Task.state >>= ·) (funext fun s => ?_)
    cases s.breaking with
    | true => rfl
    | false => exact congrArg (stepLoop position >>= ·) (funext fun _ : Unit => ih)

theorem erase_noteVisit (header : LoopHeader) (items : List Value) (body : Task Unit) :
    (noteVisit header items body).erase = visit header items body := by
  simp only [noteVisit, visit, noteAllRounds, Booked.erase_bind, Booked.erase_lift,
    Booked.erase_within, Booked.erase_enter, erase_noteRounds, loopScope, pure_bind]

theorem erase_noteLoop (header : LoopHeader) (body otherwise : Task Unit) :
    (noteLoop header body otherwise).erase = renderLoop header body otherwise := by
  simp only [noteLoop, renderLoop, Booked.erase_bind, Booked.erase_lift, Booked.erase_enter,
    pure_bind]
  refine congrArg (header.collection.evaluate >>= ·) (funext fun v => ?_)
  refine congrArg (Task.resolve v >>= ·) (funext fun v => ?_)
  cases v.elements with
  | nil => exact Booked.erase_lift otherwise
  | cons item rest => exact erase_noteVisit header (item :: rest) body

def loopProperties (n k : Nat) : List (String × Value) :=
  [("index0", .int (.ofNat k)), ("index", .int (.ofNat (k + 1))), ("rindex", .int (.ofNat (n - k))),
    ("rindex0", .int (.ofNat (n - k - 1))), ("length", .int (.ofNat n)), ("first", .bool (k = 0)),
    ("last", .bool (k = n - 1))]

/-- The loop over `selected` in `outer` begins its round `k` in the state `s`. -/
structure RoundBegins (header : LoopHeader) (outer : State) (selected : List Value) (k : Nat)
    (s : State) : Prop where
  breaking : s.breaking = false
  continuing : s.continuing = false
  scope : ∃ position item, selected[k]? = some item ∧
    s.bindings.inner = ⟨[("forloop", .position position), (header.variableName, item)], none⟩
      :: outer.bindings.inner
  reads : ∀ property ∈ loopProperties selected.length k,
    (Expr.path "forloop" [.name property.1]).evaluate s = .done property.2 s

inductive Rounds (Begins : Nat → State → Prop) (n : Nat) (finished : Prop) :
    Nat → List Milestone → Prop where
  | all (ended : finished) : Rounds Begins n finished n []
  | left {k : Nat} {s t : State} (more : k < n) (begins : Begins k s) (leaves : t.breaking = true)
      (ended : finished) : Rounds Begins n finished k [.begins s, .ends t]
  | stopped {k : Nat} {s : State} (more : k < n) (begins : Begins k s) (unended : ¬ finished) :
      Rounds Begins n finished k [.begins s]
  | next {k : Nat} {s t : State} {later : List Milestone} (more : k < n) (begins : Begins k s)
      (stays : t.breaking = false) (rest : Rounds Begins n finished (k + 1) later) :
      Rounds Begins n finished k (.begins s :: .ends t :: later)

inductive Course (header : LoopHeader) (outer final : State) (finished : Prop) :
    List Milestone → Prop where
  | uncollected (unended : ¬ finished) : Course header outer final finished []
  | instead : Course header outer final finished [.collected [], .instead]
  | unmodified {items : List Value} (some : items ≠ []) (unended : ¬ finished) :
      Course header outer final finished [.collected items]
  | visited {items : List Value} {modifiers : Object} {later : List Milestone} (some : items ≠ [])
      (rounds : let selected := select header.ordered modifiers items
        Rounds (RoundBegins header outer selected) selected.length finished 0 later)
      (cleared : finished → final.breaking = false ∧ final.continuing = false) :
      Course header outer final finished (.collected items :: .evaluated modifiers :: later)

/-- The course of a loop whose rendering in `outer` was run with these milestones. -/
def CourseOf (header : LoopHeader) (outer : State) (r : Run Unit) : List Milestone → Prop :=
  Course header outer r.state (r.ending = .finished ())

def Value.IsPlain (v : Value) : Prop := (∃ n, v = .int n) ∨ ∃ b, v = .bool b

theorem evaluate_position {position : LoopPosition} {s : State} {key : String} {v : Value}
    (bound : (s.bindings.owner "forloop").own? "forloop" = some (.position position))
    (answers : position.answer? (s.store.index position.id) key = some v) (plain : v.IsPlain) :
    (Expr.path "forloop" [.name key]).evaluate s = .done v s := by
  have named : readName "forloop" s = .done (.position position) s := readName_of_own bound rfl rfl
  have answered : readProperty (.position position) (.str key) s.modes.ownOnly s.store
      = (v, s.store) := by
    change readByName (.position position) key s.modes.ownOnly s.store = _
    simp only [readByName, plainRead, answers, Option.getD_some]
    rcases plain with ⟨n, rfl⟩ | ⟨b, rfl⟩ <;> rfl
  have found : property (.position position) (.str key) s = .done v s := by
    change Task.read (readProperty (.position position) (.str key) s.modes.ownOnly) s = _
    rw [Task.read, answered]
  obtain ⟨settled, defined⟩ : Task.settle v = pure v ∧ v.isUndefined = false := by
    rcases plain with ⟨n, rfl⟩ | ⟨b, rfl⟩ <;> exact ⟨rfl, rfl⟩
  change lookup [.str "forloop", .str key] s = _
  rw [lookup_of_defined named rfl rfl, follow_of_defined found settled defined]
  rfl

theorem loopProperties_plain (n k : Nat) :
    ∀ property ∈ loopProperties n k, property.2.IsPlain := by
  simp only [loopProperties, List.forall_mem_cons]
  exact ⟨.inl ⟨_, rfl⟩, .inl ⟨_, rfl⟩, .inl ⟨_, rfl⟩, .inl ⟨_, rfl⟩, .inl ⟨_, rfl⟩,
    .inr ⟨_, rfl⟩, .inr ⟨_, rfl⟩, List.forall_mem_nil _⟩

theorem answer?_loopProperties {position : LoopPosition} {n k : Nat} (long : position.length = n)
    (more : k < n) : ∀ property ∈ loopProperties n k,
      position.answer? k property.1 = some property.2 := by
  have behind : (n : Int) - k = (n - k : Nat) := by omega
  have left : ((n - k : Nat) : Int) - 1 = (n - k - 1 : Nat) := by omega
  simp only [loopProperties, List.forall_mem_cons, LoopPosition.answer?, long, behind, left]
  have first : (k == 0) = decide (k = 0) := by rw [Bool.eq_iff_iff, beq_iff_eq, decide_eq_true_iff]
  have final : (k + 1 == n) = decide (k = n - 1) := by
    rw [Bool.eq_iff_iff, beq_iff_eq, decide_eq_true_iff]
    omega
  rw [first, final]
  exact ⟨rfl, rfl, rfl, rfl, rfl, rfl, rfl, List.forall_mem_nil _⟩

/-- Between two rounds the scope of the loop, on top of those in `outer`, binds the position and
    perhaps the variable, and the position stands at `k`. -/
structure Ready (variableName : String) (position : LoopPosition) (outer : List Object) (k : Nat)
    (s : State) : Prop where
  begun : position.id < s.store.positions.size
  stands : s.store.index position.id = k
  scope : ∃ rest, (rest = [] ∨ ∃ v, rest = [(variableName, v)]) ∧
    s.bindings.inner = ⟨("forloop", .position position) :: rest, none⟩ :: outer

theorem owner_of_top {b : Bindings} {top : Object} {rest : List Object} {name : String}
    (inner : b.inner = top :: rest) (bound : top.hasOwn name = true) : b.owner name = top := by
  simp [Bindings.owner, Bindings.scopes, inner, bound]

def enteredElement (variableName : String) (item : Value) (s : State) : State :=
  (s.mapBindings (·.bindTop variableName item)).clearJumps

namespace Ready
variable {header : LoopHeader} {position : LoopPosition} {outer : State} {selected : List Value}
  {k : Nat} {s t : State} {item : Value}

theorem enters {variableName : String} {outer : List Object}
    (ready : Ready variableName position outer k s) (named : variableName ≠ "forloop")
    (item : Value) : (enteredElement variableName item s).bindings.inner
      = ⟨[("forloop", .position position), (variableName, item)], none⟩ :: outer := by
  obtain ⟨rest, bound, inner⟩ := ready.scope
  rcases bound with rfl | ⟨v, rfl⟩ <;>
    simp [enteredElement, State.clearJumps, State.mapBindings, Bindings.bindTop, Bindings.mapTop,
      inner, Object.insert, Object.insertEntry, Ne.symm named]

theorem begins (ready : Ready header.variableName position outer.bindings.inner k s)
    (named : header.variableName ≠ "forloop") (long : position.length = selected.length)
    (here : selected[k]? = some item) :
    RoundBegins header outer selected k (enteredElement header.variableName item s) := by
  have inner := ready.enters named item
  have more : k < selected.length := (List.getElem?_eq_some_iff.mp here).1
  refine ⟨rfl, rfl, ⟨position, item, here, inner⟩, fun property member => ?_⟩
  have bound : ((enteredElement header.variableName item s).bindings.owner "forloop").own? "forloop"
      = some (.position position) := by
    rw [owner_of_top inner rfl]
    rfl
  have answers := answer?_loopProperties long more property member
  rw [← ready.stands] at answers
  exact evaluate_position bound answers (loopProperties_plain _ _ property member)

theorem next {variableName : String} {outer : List Object}
    (ready : Ready variableName position outer k s) (named : variableName ≠ "forloop")
    (item : Value) (scopes : t.bindings.inner = (enteredElement variableName item s).bindings.inner)
    (spares : (enteredElement variableName item s).Spares (position.id + 1) t) :
    Ready variableName position outer (k + 1) { t with store := t.store.step position.id } := by
  obtain ⟨still, same⟩ := spares ready.begun
  refine ⟨?_, ?_, ⟨[(variableName, item)], .inr ⟨item, rfl⟩, ?_⟩⟩
  · change position.id < (t.store.step position.id).positions.size
    rw [Store.size_step]
    exact still
  · have index := same position.id (Nat.lt_succ_self _)
    rw [Store.index_step _ still, index]
    exact congrArg (· + 1) ready.stands
  · exact scopes.trans (ready.enters named item)

end Ready

theorem renderAll_results {nodes : List Node} (builtIn : BuiltIn nodes) (below : Nat) (s : State) :
    (renderAll nodes s).Gives fun _ t =>
      t.bindings.inner = s.bindings.inner ∧ s.Spares below t := by
  have confined : (renderAll nodes s).Gives fun _ t => t.bindings.inner = s.bindings.inner :=
    .of_keeps (built_in_keeps_confined builtIn s) (confined_frame _ _).trans
      fun _ _ kept => kept.inner
  exact confined.and (renderAll_spares builtIn s)

def RoundsFrom (header : LoopHeader) (outer : State) (selected : List Value) (k : Nat)
    (before : List Milestone) (ending : Ending Unit) (entries : List Milestone) : Prop :=
  ∃ later, entries = before ++ later ∧
    Rounds (RoundBegins header outer selected) selected.length (ending = .finished ()) k later

section
variable {header : LoopHeader} {position : LoopPosition} {outer : State} {selected : List Value}
  {body : List Node}

/-- The run: from round `seen.length` on. -/
theorem noteRounds_ends (named : header.variableName ≠ "forloop") (builtIn : BuiltIn body)
    (long : position.length = selected.length) (seen items : List Value)
    (parts : selected = seen ++ items) {s : State}
    (ready : Ready header.variableName position outer.bindings.inner seen.length s)
    (before : List Milestone) :
    (noteRounds header.variableName position (renderAll body) items s).Ends
      (fun ending es _ => RoundsFrom header outer selected seen.length before ending es)
      before := by
  induction items generalizing seen s before with
  | nil =>
    have all : seen.length = selected.length := by rw [parts, List.append_nil]
    rw [all]
    exact .done ⟨[], (List.append_nil before).symm, .all rfl⟩
  | cons item rest ih =>
    have here : selected[seen.length]? = some item := by simp [parts]
    have more : seen.length < selected.length := (List.getElem?_eq_some_iff.mp here).1
    have begins := ready.begins named long here
    let entered := enteredElement header.variableName item s
    change Ledger.Ends _ _ (.entry (.begins entered) ((renderAll body entered).ledger.bind
      fun _ t => .entry (.ends t) ((if t.breaking then pure () else do
        lift (stepLoop position)
        noteRounds header.variableName position (renderAll body) rest : Noted Unit) t)))
    refine .entry (.bind_gives (renderAll_results builtIn (position.id + 1) entered) ?_ ?_)
    · intro ending t unended
      exact ⟨[.begins entered], rfl, .stopped more begins (unended ())⟩
    · rintro _ t ⟨scopes, spares⟩
      refine .entry ?_
      cases jump : t.breaking with
      | true =>
        exact .done ⟨[.begins entered, .ends t], List.append_assoc .., .left more begins jump rfl⟩
      | false =>
        have further := ih (seen ++ [item]) (by simp [parts])
          (by simpa using ready.next named item scopes spares)
          (before ++ [.begins entered] ++ [.ends t])
        refine Ledger.Ends.mono further ?_
        rintro ending es u ⟨later, rfl, rounds⟩
        rw [List.length_append] at rounds
        exact ⟨.begins entered :: .ends t :: later, by simp, .next more begins jump rounds⟩

theorem noteAllRounds_ends (named : header.variableName ≠ "forloop") (builtIn : BuiltIn body)
    (long : position.length = selected.length) {s : State}
    (ready : Ready header.variableName position outer.bindings.inner 0 s)
    (before : List Milestone) :
    (noteAllRounds header position (renderAll body) selected s).Ends
      (fun ending es t => RoundsFrom header outer selected 0 before ending es ∧
        (ending = .finished () → t.breaking = false ∧ t.continuing = false)) before := by
  have rounds := noteRounds_ends named builtIn long [] selected rfl ready before
  refine Ledger.Ends.bind rounds ?_ ?_ ?_
  · exact fun e es t course => ⟨course, nofun⟩
  · exact fun es t course => ⟨course, nofun⟩
  · exact fun _ es t course => .done ⟨course, fun _ => ⟨rfl, rfl⟩⟩

end

theorem noteVisit_apply (header : LoopHeader) (items : List Value) (body : Task Unit) {s : State}
    {cell : Nat} {registers : Registers}
    (got : s.registers.get .offsets offsetsRegister = (cell, registers)) :
    noteVisit header items body s =
      let previous := ((registers.offsetsAt cell).lookup header.continueKey).getD 0
      (evaluateModifiers header (.int previous) { s with registers }).ledger.bind
        fun modifiers x =>
          let selected := select header.ordered modifiers items
          let entries := storeOffset header.continueKey (resumeAt modifiers selected)
            (x.registers.offsetsAt cell)
          let position := LoopPosition.make x.store.begin.1 selected.length header.variableName
            header.collection.text
          let opened : State :=
            { x with
              registers := x.registers.write cell (.offsets entries)
              store := x.store.begin.2 }
          .entry (.evaluated modifiers) (Booked.within (loopScope position)
            (noteAllRounds header position body selected) opened) := by
  have first : offsetsCell s = .done cell { s with registers } := by simp only [offsetsCell, got]
  rw [noteVisit, Booked.bind_apply, lift, first]
  rfl

theorem local_leads_bindings {α : Type} {names : List String} {t : Task α} (h : t.Local names) :
    t.Leads fun s s' => s'.bindings = s.bindings := by
  have kept : t.Keeps fun s s' => s'.bindings = s.bindings := h.keeps fun s s' after => by
    obtain ⟨memory, store, rfl⟩ := after
    rfl
  exact fun s => .of_keeps (kept s) (fun _ _ _ first second => second.trans first) fun _ _ h => h

section
variable {header : LoopHeader} {outer : State} {body : List Node}

theorem noteVisit_ends (named : header.variableName ≠ "forloop") (builtIn : BuiltIn body)
    {items : List Value} (some : items ≠ []) {s : State}
    (same : s.bindings.inner = outer.bindings.inner) :
    (noteVisit header items (renderAll body) s).Ends
      (fun ending es t => Course header outer t (ending = .finished ()) es)
      [.collected items] := by
  obtain ⟨⟨cell, registers⟩, got⟩ : ∃ p, s.registers.get .offsets offsetsRegister = p := ⟨_, rfl⟩
  let previous := ((registers.offsetsAt cell).lookup header.continueKey).getD 0
  have modified : (evaluateModifiers header (.int previous)).Local
      (rootsOf (givenValues header.modifiers)) :=
    evaluateModifiers_local header _ fun _ member _ => member
  rw [noteVisit_apply header items (renderAll body) got]
  refine .bind_gives (local_leads_bindings modified { s with registers }) ?_ ?_
  · intro ending t unended
    exact .unmodified some (unended ())
  intro modifiers x kept
  let selected := select header.ordered modifiers items
  let position := LoopPosition.make x.store.begin.1 selected.length header.variableName
    header.collection.text
  let opened : State :=
    { x with
      registers := x.registers.write cell (.offsets (storeOffset header.continueKey
        (resumeAt modifiers selected) (x.registers.offsetsAt cell)))
      store := x.store.begin.2 }
  have ready : Ready header.variableName position outer.bindings.inner 0
      (opened.mapBindings (·.push (loopScope position))) := by
    refine ⟨?_, x.store.index_begun, [], .inl rfl, ?_⟩
    · change x.store.positions.size < (x.store.positions.push 0).size
      rw [Array.size_push]
      omega
    · change loopScope position :: x.bindings.inner = _
      rw [kept, same]
      rfl
  have long : position.length = selected.length := rfl
  have rounds := noteAllRounds_ends named builtIn long ready
    [.collected items, .evaluated modifiers]
  refine .entry (Ledger.Ends.ensuring rounds ?_)
  rintro ending es t ⟨⟨later, rfl, rounds⟩, cleared⟩
  exact .visited some rounds cleared

theorem noteLoop_ends (named : header.variableName ≠ "forloop") (builtIn : BuiltIn body)
    (otherwise : Task Unit) (s : State) :
    (noteLoop header (renderAll body) otherwise s).Ends
      (fun ending es t => Course header s t (ending = .finished ()) es) [] := by
  have early : ∀ (ending : Ending Unit) (t : State), (∀ u, ending ≠ .finished u) →
      Course header s t (ending = .finished ()) [] := fun _ _ unended => .uncollected (unended ())
  refine .bind_gives (local_leads_bindings header.collection.evaluate_local s) early ?_
  intro v x evaluated
  have whole : (Task.resolve v).Local [] := Task.local_resolve v
  refine .bind_gives (local_leads_bindings whole x) early ?_
  intro v x' resolved
  have same : x'.bindings.inner = s.bindings.inner := by rw [resolved, evaluated]
  refine .entry ?_
  cases elements : v.elements with
  | nil =>
    have anyway : (otherwise x').Gives fun _ _ => True := .of_forall (fun _ _ => trivial) _
    exact .entry (.of_gives anyway (fun _ _ _ => .instead) fun _ _ _ => .instead)
  | cons item rest => exact noteVisit_ends named builtIn (List.cons_ne_nil item rest) same

end

/-- A loop over built-in nodes whose variable is not called like its position, in any state. The
    notes change nothing, and whether it is rendered at once or waited for they are of this
    course: nothing is collected, and what comes instead is rendered; or there are elements, and
    once the modifiers are evaluated the body is rendered for each one selected, in order and
    once, from a state that binds this element and shows its position, until a round leaves the
    loop or does not end. If the loop ends, the jumps are cleared. -/
theorem loop_visits_each_element (header : LoopHeader) (body otherwise : List Node) (span : Span)
    (named : header.variableName ≠ "forloop") (builtIn : BuiltIn body) (s : State)
    (schedule : Schedule) :
    let loop := (Node.loop header body otherwise span).render
    let noted := noteLoop header (renderAll body) (renderAll otherwise)
    noted.erase = loop ∧
    CourseOf header s (loop.runNow s schedule) ((noted s).entries 1 schedule) ∧
    ∀ polls, CourseOf header s ((loop s).runWaiting polls schedule)
      ((noted s).entries polls schedule) := by
  intro loop noted
  have erased : noted.erase = loop := erase_noteLoop header _ _
  have same : (noted s).erase = loop s := congrFun erased s
  have ends := noteLoop_ends named builtIn (renderAll otherwise) s
  refine ⟨erased, ?_, fun polls => ?_⟩
  · have now := ends.runNow (fun es t course => ?_) schedule
    · rw [same] at now
      exact now
    · have unended : ((.failed .pendingValue : Ending Unit) = .finished ()) = False := by simp
      have waiting : ((.unfinished : Ending Unit) = .finished ()) = False := by simp
      rw [waiting] at course
      rw [unended]
      exact course
  · have later := ends.runWaiting polls schedule
    rw [same] at later
    exact later

def Milestone.text : Milestone → String
  | .collected _ => "collected"
  | .evaluated _ => "evaluated"
  | .begins _ => "begins"
  | .ends _ => "ends"
  | .instead => "instead"

def fourOfFive : LoopHeader :=
  let span : Span := ⟨0, 0⟩
  ⟨"i", ⟨.range (.literal (.int 1)) (.literal (.int 5)), "(1..5)", span⟩,
    [⟨"limit", some ⟨.literal (.int 4), "4", span⟩, span⟩], false⟩

/-- `{% for i in (6..7) %}{{ forloop.index }}{% endfor %}{% assign i = slow %}{{ i }}`, and
    `{% break %}` in the second round. -/
def disturbing : List Node :=
  let span : Span := ⟨0, 0⟩
  let shown (property : String) : Expr := .path "forloop" [.name property]
  let inner : LoopHeader :=
    ⟨"i", ⟨.range (.literal (.int 6)) (.literal (.int 7)), "(6..7)", span⟩, [], false⟩
  let second : Condition := .test ⟨shown "index0", "forloop.index0", span⟩
    (some (.equal, ⟨.literal (.int 1), "1", span⟩))
  [.loop inner [.output (some ⟨shown "index", "forloop.index", span⟩) span] [] span,
    .assign "i" ⟨.path "slow" [], "slow", span⟩ span,
    .output (some ⟨.path "i" [], "i", span⟩) span, .choice [(second, [.leave span])] [] span]

theorem loop_visits_each_element_disturbed :
    let s := Engine.start default (.single "slow" (.deferred 1 none .nil)) default .empty .empty
    let schedule := Schedule.delays [(1, 2)]
    let loop := (Node.loop fourOfFive disturbing [] ⟨0, 0⟩).render
    let noted := noteLoop fourOfFive (renderAll disturbing) (renderAll [])
    let r := (loop s).runWaiting 3 schedule
    fourOfFive.variableName ≠ "forloop" ∧ BuiltIn disturbing ∧
      r.state.sink.output = "121122" ∧ r.state.breaking = false ∧
      ((noted s).entries 3 schedule).map Milestone.text
        = ["collected", "evaluated", "begins", "ends", "begins", "ends"] ∧
      ((noted s).entries 1 schedule).map Milestone.text = ["collected", "evaluated", "begins"] ∧
      CourseOf fourOfFive s r ((noted s).entries 3 schedule) ∧
      CourseOf fourOfFive s (loop.runNow s schedule) ((noted s).entries 1 schedule) := by
  intro s schedule loop noted r
  have named : fourOfFive.variableName ≠ "forloop" := by decide
  have builtIn : BuiltIn disturbing := rfl
  obtain ⟨-, now, later⟩ := loop_visits_each_element fourOfFive disturbing [] ⟨0, 0⟩ named builtIn s
    schedule
  exact ⟨named, builtIn, by decide +kernel, by decide +kernel, by decide +kernel,
    by decide +kernel, later 3, now⟩

end Templating
