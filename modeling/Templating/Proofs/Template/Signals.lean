import Templating.Proofs.Template.Parallel
import Templating.Engine

/-!
Rendering without jump flags. Here a node says how it ended: normally, or asking to leave the
loop around it, or asking for the next element; lists, choices and loops pass such signals on or
deal with them.
-/
namespace Templating

/-- How rendering a node ended. -/
inductive Signal where
  | normal
  | leave
  | next
  deriving DecidableEq

def iterateSignals (variableName : String) (position : LoopPosition) (body : Task Signal) :
    List Value → Task Unit
  | [] => pure ()
  | item :: rest => do
    Task.modify (·.mapBindings (·.bindTop variableName item))
    match ← body with
    | .leave => pure ()
    | .normal | .next => do
      stepLoop position
      iterateSignals variableName position body rest

def visitSignals (header : LoopHeader) (items : List Value) (body : Task Signal) : Task Signal := do
  let opened ← openLoop header items
  Task.within (loopScope opened.1)
    (iterateSignals header.variableName opened.1 body opened.2)
  return .normal

def loopSignal (header : LoopHeader) (body otherwise : Task Signal) : Task Signal := do
  let collection ← Task.resolve (← header.collection.evaluate)
  match collection.elements with
  | [] => otherwise
  | item :: rest => visitSignals header (item :: rest) body

mutual

/-- Custom nodes have no signals of their own and are left out. -/
def Node.signal : Node → Task Signal
  | .text text _ => do Task.write text; return .normal
  | .output value _ => do renderOutput value; return .normal
  | .loop header body otherwise _ => loopSignal header (signalAll body) (signalAll otherwise)
  | .choice branches otherwise _ => signalBranches (signalAll otherwise) branches
  | .assign name value _ => do renderAssign name value; return .normal
  | .increment name _ => do count name 1 true; return .normal
  | .decrement name _ => do count name (-1) false; return .normal
  | .leave _ => pure .leave
  | .next _ => pure .next
  | .custom .. => pure .normal
termination_by structural n => n

/-- A list stops at its first node that does not end normally. -/
def signalAll : List Node → Task Signal
  | [] => pure .normal
  | n :: rest => do
    Task.checkTime
    match ← n.signal with
    | .normal => signalAll rest
    | signal => return signal
termination_by structural nodes => nodes

def signalBranches (otherwise : Task Signal) : List (Condition × List Node) → Task Signal
  | [] => otherwise
  | (condition, nodes) :: rest => do
    if ← condition.evaluate then signalAll nodes else signalBranches otherwise rest
termination_by structural branches => branches

end

def Ending.map {α β : Type} (f : α → β) : Ending α → Ending β
  | .finished a => .finished (f a)
  | .failed e => .failed e
  | .unfinished => .unfinished

def State.raise (s : State) : Signal → State
  | .normal => s.clearJumps
  | .leave => { s with breaking := true, continuing := false }
  | .next => { s with breaking := false, continuing := true }

theorem State.clearJumps_eq (s : State) (stays : s.breaking = false)
    (proceeds : s.continuing = false) : s.clearJumps = s := by
  cases s
  cases stays
  cases proceeds
  rfl

theorem breaking_raise (s : State) (signal : Signal) :
    (s.raise signal).breaking = true ↔ signal = .leave := by
  cases signal <;> simp [State.raise, State.clearJumps]

theorem continuing_raise (s : State) (signal : Signal) :
    (s.raise signal).continuing = true ↔ signal = .next := by
  cases signal <;> simp [State.raise, State.clearJumps]

def Cleared (s t : State) : Prop := s = t.clearJumps

theorem cleared_matching (names counted : List String) : Matching Cleared names counted where
  alike _ _ h := by cases h; exact .of_bindings rfl rfl rfl rfl rfl
  registers _ _ h := by cases h; rfl
  time _ _ h := by cases h; rfl
  look _ _ h := by cases h; rfl
  counter _ _ h _ _ := by cases h; rfl
  opened _ _ _ _ _ h := by cases h; rfl
  write _ _ _ h := by cases h; rfl
  bindBottom _ _ _ _ h := by cases h; rfl
  bindData _ _ _ _ _ h := by cases h; rfl

/-- The first task, started with clear flags, goes in step with the second one,
    started with any flags, and ends with the flags that the signal calls for. -/
def Signalled (t : Task Unit) (u : Task Signal) : Prop :=
  ∀ s : State, Step.Agree (fun _ x signal y => x = y.raise signal) Cleared (t s.clearJumps) (u s)

namespace Signalled

theorem after {α : Type} {t : Task α} {f : α → Task Unit} {g : α → Task Signal}
    (h : t.Respects Cleared) (rest : ∀ a, Signalled (f a) (g a)) :
    Signalled (t >>= f) (t >>= g) := by
  intro s
  refine (h _ s rfl).bind ?_
  rintro a _ _ y ⟨rfl, rfl⟩
  exact rest a y

theorem plain {t : Task Unit} (h : t.Respects Cleared) :
    Signalled t (t >>= fun _ => pure .normal) := fun s =>
  (h _ s rfl).bind_right fun _ _ _ _ same => .done same.2

theorem leave : Signalled (Task.modify fun s => { s with breaking := true }) (pure .leave) :=
  fun _ => .done rfl

theorem next : Signalled (Task.modify fun s => { s with continuing := true }) (pure .next) :=
  fun _ => .done rfl

theorem sequence {first rest : Task Unit} {u v : Task Signal} (h : Signalled first u)
    (later : Signalled rest v) :
    Signalled (Templating.sequence first rest) (do
      Task.checkTime
      match ← u with
      | .normal => v
      | signal => return signal) := by
  refine after (cleared_matching [] []).checkTime_respects fun _ s => (h s).bind ?_
  rintro _ _ signal y rfl
  cases signal with
  | normal => exact later y
  | leave => exact .done rfl
  | next => exact .done rfl

theorem branch (condition : Condition) {body rest : Task Unit} {u v : Task Signal}
    (taken : Signalled body u) (other : Signalled rest v) :
    Signalled (Templating.branch condition body rest)
      (do if ← condition.evaluate then u else v) := by
  have tested := (cleared_matching _ []).local_respects condition.evaluate_local fun _ h => h
  refine after tested fun holds => ?_
  cases holds with
  | true => exact taken
  | false => exact other

/-- Whatever the flags said of the element before, they are cleared as an element
    begins, and after it they say what the signal says. -/
theorem iterate (variableName : String) (position : LoopPosition) {body : Task Unit}
    {u : Task Signal} (h : Signalled body u) (items : List Value) (s : State) (last : Signal) :
    Step.Agree (fun _ x _ y => x.clearJumps = y.clearJumps) Cleared
      (Templating.iterate variableName position body items (s.raise last))
      (iterateSignals variableName position u items s) := by
  induction items generalizing s last with
  | nil => cases last <;> exact .done rfl
  | cons item rest ih =>
    have entered : enterElement variableName item (s.raise last)
        = .done () (s.mapBindings (·.bindTop variableName item)).clearJumps := by
      cases last <;> rfl
    rw [Templating.iterate, Task.bind_apply, entered]
    refine (h (s.mapBindings (·.bindTop variableName item))).bind ?_
    rintro _ _ signal y rfl
    cases signal with
    | leave => exact .done rfl
    | normal => exact ih { y with store := y.store.step position.id } .normal
    | next => exact ih { y with store := y.store.step position.id } .next

theorem visit (header : LoopHeader) (items : List Value) {body : Task Unit} {u : Task Signal}
    (h : Signalled body u) :
    Signalled (Templating.visit header items body) (visitSignals header items u) := by
  rw [visit_eq]
  have opening : (openLoop header items).Respects Cleared :=
    (cleared_matching _ []).openLoop_respects (fun _ member _ => member) items
  refine after opening fun opened s => ?_
  -- The loop clears the flags at its end, so what its last element left is not seen outside.
  let inside := s.mapBindings (·.push (loopScope opened.1))
  have cleared : Step.Agree (fun _ x _ y => Cleared x y) Cleared
      ((do
        Templating.iterate header.variableName opened.1 body opened.2
        Task.modify State.clearJumps : Task Unit) inside.clearJumps)
      (iterateSignals header.variableName opened.1 u opened.2 inside) :=
    (iterate header.variableName opened.1 h opened.2 inside .normal).bind_left
      fun _ _ _ _ same => .done same
  have closed : Step.Agree (fun _ x _ y => Cleared x y) Cleared
      (Task.within (loopScope opened.1) (do
        Templating.iterate header.variableName opened.1 body opened.2
        Task.modify State.clearJumps) s.clearJumps)
      (Task.within (loopScope opened.1)
        (iterateSignals header.variableName opened.1 u opened.2) s) :=
    cleared.ensuring (fun _ _ _ _ same => same ▸ rfl) (fun _ _ same => same ▸ rfl)
  exact closed.bind_right fun _ _ _ _ same => .done same

theorem renderLoop (header : LoopHeader) {body otherwise : Task Unit} {u v : Task Signal}
    (inside : Signalled body u) (instead : Signalled otherwise v) :
    Signalled (Templating.renderLoop header body otherwise) (loopSignal header u v) := by
  have collected := (cleared_matching _ []).local_respects header.collection.evaluate_local
    fun _ h => h
  refine after collected fun v => after ((cleared_matching [] []).resolve_respects v) fun v => ?_
  cases v.elements with
  | nil => exact instead
  | cons item rest => exact visit header (item :: rest) inside

end Signalled

mutual

theorem Node.signalled : ∀ n : Node, (∀ m ∈ n.preorder, m.custom? = none) →
    Signalled n.render n.signal
  | .text text _, _ => .plain (Task.respects_modify fun _ _ same => same ▸ rfl)
  | .output value _, _ => .plain ((cleared_matching _ []).renderOutput_respects fun _ h => h)
  | .loop header body otherwise span, all => by
    simp only [Node.preorder, List.forall_mem_cons, List.forall_mem_append] at all
    exact .renderLoop header (renderAll_signalled body all.2.1)
      (renderAll_signalled otherwise all.2.2)
  | .choice branches otherwise span, all => by
    simp only [Node.preorder, List.forall_mem_cons, List.forall_mem_append] at all
    exact renderBranches_signalled (renderAll_signalled otherwise all.2.2) branches all.2.1
  | .assign name value _, _ =>
    .plain ((cleared_matching _ []).renderAssign_respects name fun _ h => h)
  | .increment name _, _ =>
    .plain ((cleared_matching [] [name]).count_respects (List.mem_singleton_self name) 1 true)
  | .decrement name _, _ =>
    .plain ((cleared_matching [] [name]).count_respects (List.mem_singleton_self name) (-1) false)
  | .leave _, _ => .leave
  | .next _, _ => .next
  | .custom c bodies span, all => by
    have builtIn := all _ (mem_preorder_self _)
    simp [Node.custom?] at builtIn
termination_by structural n => n

theorem renderAll_signalled : ∀ nodes : List Node, (∀ m ∈ preorderAll nodes, m.custom? = none) →
    Signalled (renderAll nodes) (signalAll nodes)
  | [], _ => fun _ => .done rfl
  | n :: rest, all => by
    simp only [preorderAll, List.forall_mem_append] at all
    exact .sequence (Node.signalled n all.1) (renderAll_signalled rest all.2)
termination_by structural nodes => nodes

theorem renderBranches_signalled {otherwise : Task Unit} {u : Task Signal}
    (instead : Signalled otherwise u) :
    ∀ branches : List (Condition × List Node),
      (∀ m ∈ preorderBranches branches, m.custom? = none) →
      Signalled (renderBranches otherwise branches) (signalBranches u branches)
  | [], _ => instead
  | (condition, nodes) :: rest, all => by
    simp only [preorderBranches, List.forall_mem_append] at all
    exact .branch condition (renderAll_signalled nodes all.1)
      (renderBranches_signalled instead rest all.2)
termination_by structural branches => branches

end

/-- A run with flags tells what a run with signals tells: it ends as that one does,
    in the same state but for the flags, and these say which signal the result is. -/
structure Run.Follows (r : Run Unit) (reference : Run Signal) : Prop where
  ending : r.ending = reference.ending.map fun _ => ()
  state : r.state.clearJumps = reference.state.clearJumps
  schedule : r.schedule = reference.schedule
  breaking : ∀ signal, reference.ending = .finished signal →
    (r.state.breaking = true ↔ signal = .leave)
  continuing : ∀ signal, reference.ending = .finished signal →
    (r.state.continuing = true ↔ signal = .next)

theorem Run.Follows.of_agree {r : Run Unit} {reference : Run Signal}
    (h : Run.Agree (fun _ x signal y => x = y.raise signal) Cleared r reference) :
    r.Follows reference := by
  cases h with
  | @finished _ _ signal t schedule same =>
    subst same
    refine ⟨rfl, by cases signal <;> rfl, rfl, ?_, ?_⟩
    · rintro _ ⟨⟩
      exact breaking_raise t signal
    · rintro _ ⟨⟩
      exact continuing_raise t signal
  | failed same =>
    subst same
    exact ⟨rfl, rfl, rfl, nofun, nofun⟩
  | unfinished same =>
    subst same
    exact ⟨rfl, rfl, rfl, nofun, nofun⟩

/-- Rendering built-in nodes in a state without jumps follows rendering them with
    signals, in a state where the flags say anything, under either driver. -/
theorem render_follows_signals (nodes : List Node) (builtIn : BuiltIn nodes) (s : State)
    (stays : s.breaking = false) (proceeds : s.continuing = false) (schedule : Schedule)
    (b c : Bool) :
    let t := { s with breaking := b, continuing := c }
    ((renderAll nodes).runNow s schedule).Follows ((signalAll nodes).runNow t schedule) ∧
      ∀ polls, ((renderAll nodes s).runWaiting polls schedule).Follows
        ((signalAll nodes t).runWaiting polls schedule) := by
  intro t
  have clear : t.clearJumps = s := s.clearJumps_eq stays proceeds
  have plain : ∀ m ∈ preorderAll nodes, m.custom? = none := List.filterMap_eq_nil_iff.mp builtIn
  have agree := renderAll_signalled nodes plain t
  rw [clear] at agree
  constructor
  · exact .of_agree (agree.runNow schedule)
  · intro polls
    exact .of_agree (agree.runWaiting polls schedule)

/-- `{% for i in (1..2) %}{% for j in nil %}{% else %}{% if true %}{% break %}…`: the
    first jump leaves the outer loop, the last one is there when the list ends. -/
def nestedJumps : List Node :=
  let span : Span := ⟨0, 0⟩
  let outer : LoopHeader :=
    ⟨"i", ⟨.range (.literal (.int 1)) (.literal (.int 2)), "(1..2)", span⟩, [], false⟩
  let inner : LoopHeader := ⟨"j", ⟨.literal .nil, "nil", span⟩, [], false⟩
  let always : Condition := .test ⟨.literal (.bool true), "true", span⟩ none
  let jump : Node := .choice [(always, [.leave span])] [] span
  [.loop outer [.loop inner [] [jump] span, .text "x" span] [] span, .text "y" span, jump]

/-- The second render is out of time at the first jump, with an element of the outer loop in
    hand. -/
theorem render_follows_signals_nested :
    let s := Engine.start default .empty default .empty .empty
    let late := { s with time := ⟨.rendering, .deadline (some 4)⟩ }
    let raised := fun (t : State) => { t with breaking := true, continuing := true }
    let expired := (renderAll nestedJumps).runNow late .empty
    BuiltIn nestedJumps ∧ s.breaking = false ∧ s.continuing = false ∧
      ((renderAll nestedJumps).runNow s .empty).state.sink.output = "y" ∧
      ((renderAll nestedJumps).runNow s .empty).Follows
        ((signalAll nestedJumps).runNow (raised s) .empty) ∧
      expired.ending = .failed (.resourceExceeded .rendering) ∧
      expired.state.time = ⟨.rendering, .deadline (some 0)⟩ ∧
      expired.Follows ((signalAll nestedJumps).runNow (raised late) .empty) :=
  ⟨rfl, rfl, rfl, by decide, (render_follows_signals _ (by rfl) _ rfl rfl .empty true true).1,
    by decide, by decide, (render_follows_signals _ (by rfl) _ rfl rfl .empty true true).1⟩

end Templating
