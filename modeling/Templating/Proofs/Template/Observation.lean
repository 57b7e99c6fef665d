import Templating.Expr.Condition
import Templating.Proofs.Task.Ledger
import Templating.Proofs.Template.Closure
import Templating.Proofs.Template.Opening

namespace Templating

open Booked (lift asks)

/-- What looks at a value as it stands, whether or not something in it is deferred. -/
inductive Use where
  | reading (walked : List Value) (value : Value)
  | key (v : Value)
  | printing (v : Value)
  | comparing (operator : Operator) (left right : Value)
  | counting (entry : Option Value)

abbrev Trail := Ledger (Use × State)

abbrev Observed := Booked (Use × State)

def note (use : Use) : Observed Unit := Booked.enter fun s => (use, s)

def readKey (receiver key : Value) : Task Value := do
  let s ← Task.state
  Task.read (readProperty receiver key s.modes.ownOnly)

def observeProperty (receiver key : Value) : Observed Value := do
  let receiver ← lift (Task.settle receiver)
  let key ← lift (Task.resolve key)
  note (.key key)
  lift (readKey receiver key)

def observeReading (value : Value) (walked : List Value) : Observed Unit := do
  note (.reading walked value)
  lift (checkDefined value walked)

def observeFollow (value : Value) (walked : List Value) : List Value → Observed Value
  | [] => pure value
  | key :: rest => do
    let next ← observeProperty value key
    let next ← lift (Task.settle next)
    observeReading next (walked ++ [key])
    observeFollow next (walked ++ [key]) rest

def observeLookup (root : String) (keys : List Value) : Observed Value := do
  let found ← lift (readName root)
  let value ← lift (Task.settle found)
  observeReading value [.str root]
  observeFollow value [.str root] keys

mutual

def Expr.observe : Expr → Observed Value
  | .literal l => pure l.toValue
  | .path root segments => do
    let keys ← observeKeys segments
    observeLookup root keys
  | .range low high => do
    let low ← low.observe
    let low ← lift (boundOf low)
    let high ← high.observe
    let high ← lift (boundOf high)
    lift (Task.charge (rangeCharge low high))
    return .array (rangeElements low high)
termination_by structural e => e

def Segment.observe : Segment → Observed Value
  | .name s => pure (.str s)
  | .index e => e.observe
termination_by structural s => s

def observeKeys : List Segment → Observed (List Value)
  | [] => pure []
  | s :: rest => do
    let key ← s.observe
    let keys ← observeKeys rest
    return key :: keys
termination_by structural segments => segments

end

def NamedArgument.observe (a : NamedArgument) : Observed Value :=
  match a.value with
  | some v => v.expr.observe
  | none => pure (.bool true)

def observeNamed (before : Object) : List NamedArgument → Observed Object
  | [] => pure before
  | a :: rest => do
    let v ← a.observe
    observeNamed (before.insert a.key v) rest

def Condition.observe : Condition → Observed Bool
  | .test left none => do
    let left ← left.expr.observe
    let left ← lift (Task.resolve left)
    return left.isTruthy
  | .test left (some (operator, right)) => do
    let left ← left.expr.observe
    let left ← lift (Task.resolve left)
    let right ← right.expr.observe
    let right ← lift (Task.resolve right)
    note (.comparing operator left right)
    return operator.holds left right
  | .both c d => do
    if ← c.observe then d.observe else return false
  | .either c d => do
    if ← c.observe then return true else d.observe

def observeOutput : Option Argument → Observed Unit
  | none => pure ()
  | some a => do
    let v ← a.expr.observe
    let v ← lift (Task.resolve v)
    note (.printing v)
    lift (Task.write v.text)

def observeAssign (name : String) (value : Argument) : Observed Unit := do
  let v ← value.expr.observe
  lift (Task.modify (·.mapBindings (·.bindBottom name v)))

def observeCount (name : String) (delta : Int) (showsBefore : Bool) : Observed Unit := do
  let entry ← asks fun s => s.bindings.data.own? name
  note (.counting entry)
  lift (count name delta showsBefore)

def observeIterate (variableName : String) (position : LoopPosition) (body : Observed Unit) :
    List Value → Observed Unit
  | [] => pure ()
  | item :: rest => do
    lift (enterElement variableName item)
    body
    let breaking ← asks State.breaking
    if breaking then pure ()
    else do
      lift (stepLoop position)
      observeIterate variableName position body rest

def observeOpening (header : LoopHeader) (items : List Value) :
    Observed (LoopPosition × List Value) := do
  let cell ← lift offsetsCell
  let previous ← lift (recallOffset cell header.continueKey)
  let modifiers ← Booked.within (.single "continue" previous)
    (observeNamed .empty header.modifiers)
  let selected := select header.ordered modifiers items
  lift (recordOffset cell header.continueKey (resumeAt modifiers selected))
  let position ← lift (beginLoop selected.length header)
  return (position, selected)

def observeVisit (header : LoopHeader) (items : List Value) (body : Observed Unit) :
    Observed Unit := do
  let opened ← observeOpening header items
  Booked.within (loopScope opened.1) do
    observeIterate header.variableName opened.1 body opened.2
    lift (Task.modify State.clearJumps)

def observeElements (header : LoopHeader) (body otherwise : Observed Unit) :
    List Value → Observed Unit
  | [] => otherwise
  | item :: rest => observeVisit header (item :: rest) body

def observeLoop (header : LoopHeader) (body otherwise : Observed Unit) : Observed Unit := do
  let collection ← header.collection.expr.observe
  let collection ← lift (Task.resolve collection)
  observeElements header body otherwise collection.elements

def observeSequence (first rest : Observed Unit) : Observed Unit := do
  lift Task.checkTime
  first
  let stopped ← asks State.stopped
  if stopped then pure () else rest

def observeBranch (condition : Condition) (body rest : Observed Unit) : Observed Unit := do
  if ← condition.observe then body else rest

/-- How each custom node is observed, given the observed renders of its bodies. -/
abbrev View := Custom → List (Observed Unit) → Observed Unit

mutual

def Node.observe (view : View) : Node → Observed Unit
  | .text text _ => lift (Task.write text)
  | .output value _ => observeOutput value
  | .loop header body otherwise _ =>
    observeLoop header (observeAll view body) (observeAll view otherwise)
  | .choice branches otherwise _ => observeBranches view (observeAll view otherwise) branches
  | .assign name value _ => observeAssign name value
  | .increment name _ => observeCount name 1 true
  | .decrement name _ => observeCount name (-1) false
  | .leave _ => lift (Task.modify fun s => { s with breaking := true })
  | .next _ => lift (Task.modify fun s => { s with continuing := true })
  | .custom c bodies _ => view c (observeBodies view bodies)
termination_by structural n => n

def observeAll (view : View) : List Node → Observed Unit
  | [] => pure ()
  | n :: rest => observeSequence (n.observe view) (observeAll view rest)
termination_by structural nodes => nodes

def observeBranches (view : View) (otherwise : Observed Unit) :
    List (Condition × List Node) → Observed Unit
  | [] => otherwise
  | (condition, nodes) :: rest =>
    observeBranch condition (observeAll view nodes) (observeBranches view otherwise rest)
termination_by structural branches => branches

def observeBodies (view : View) : List (List Node) → List (Observed Unit)
  | [] => []
  | nodes :: rest => observeAll view nodes :: observeBodies view rest
termination_by structural bodies => bodies

end

theorem erase_note (use : Use) : (note use).erase = pure () := rfl

theorem erase_observeFollow (value : Value) (walked keys : List Value) :
    (observeFollow value walked keys).erase = follow value walked keys := by
  induction keys generalizing value walked with
  | nil => rfl
  | cons key rest ih =>
    simp only [observeFollow, observeProperty, observeReading, follow, property, readKey,
      Booked.erase_bind, Booked.erase_lift, erase_note, pure_bind, ih, bind_assoc]

theorem erase_observeLookup (root : String) (keys : List Value) :
    (observeLookup root keys).erase = lookup (.str root :: keys) := by
  rw [lookup_root]
  simp only [observeLookup, observeReading, Booked.erase_bind, Booked.erase_lift,
    erase_note, pure_bind, erase_observeFollow]

mutual

theorem Expr.erase_observe : ∀ e : Expr, e.observe.erase = e.evaluate
  | .literal _ => rfl
  | .path root segments => by
    simp only [Expr.observe, Expr.evaluate, Booked.erase_bind, erase_observeKeys segments,
      erase_observeLookup]
  | .range low high => by
    simp only [Expr.observe, Expr.evaluate, Booked.erase_bind, Booked.erase_lift,
      Booked.erase_pure, Expr.erase_observe low, Expr.erase_observe high]
termination_by structural e => e

theorem Segment.erase_observe : ∀ s : Segment, s.observe.erase = s.key
  | .name _ => rfl
  | .index e => Expr.erase_observe e
termination_by structural s => s

theorem erase_observeKeys : ∀ segments : List Segment,
    (observeKeys segments).erase = segmentKeys segments
  | [] => rfl
  | s :: rest => by
    simp only [observeKeys, segmentKeys, Booked.erase_bind, Booked.erase_pure,
      Segment.erase_observe s, erase_observeKeys rest]
termination_by structural segments => segments

end

theorem NamedArgument.erase_observe (a : NamedArgument) : a.observe.erase = a.evaluate := by
  unfold NamedArgument.observe NamedArgument.evaluate
  cases a.value with
  | none => rfl
  | some v => exact v.expr.erase_observe

theorem erase_observeNamed (before : Object) (named : List NamedArgument) :
    (observeNamed before named).erase = evaluateNamed before named := by
  induction named generalizing before with
  | nil => rfl
  | cons a rest ih =>
    simp only [observeNamed, evaluateNamed, Booked.erase_bind, a.erase_observe, ih]

theorem Condition.erase_observe (c : Condition) : c.observe.erase = c.evaluate := by
  induction c with
  | test left comparison =>
    cases comparison with
    | none =>
      simp only [Condition.observe, Condition.evaluate, Argument.evaluate, Booked.erase_bind,
        Booked.erase_lift, Booked.erase_pure, Expr.erase_observe]
    | some pair =>
      simp only [Condition.observe, Condition.evaluate, Argument.evaluate, Booked.erase_bind,
        Booked.erase_lift, Booked.erase_pure, erase_note, pure_bind,
        Expr.erase_observe]
  | both c d first second =>
    simp only [Condition.observe, Condition.evaluate, Booked.erase_bind, first]
    refine congrArg (c.evaluate >>= ·) (funext fun holds => ?_)
    cases holds with
    | true => exact second
    | false => rfl
  | either c d first second =>
    simp only [Condition.observe, Condition.evaluate, Booked.erase_bind, first]
    refine congrArg (c.evaluate >>= ·) (funext fun holds => ?_)
    cases holds with
    | true => rfl
    | false => exact second

theorem erase_observeOutput (value : Option Argument) :
    (observeOutput value).erase = renderOutput value := by
  cases value with
  | none => rfl
  | some a =>
    simp only [observeOutput, renderOutput, Argument.evaluate, Booked.erase_bind,
      Booked.erase_lift, erase_note, pure_bind, Expr.erase_observe]

theorem erase_observeAssign (name : String) (value : Argument) :
    (observeAssign name value).erase = renderAssign name value := by
  simp only [observeAssign, renderAssign, Argument.evaluate, Booked.erase_bind,
    Booked.erase_lift, Expr.erase_observe]

theorem erase_observeCount (name : String) (delta : Int) (showsBefore : Bool) :
    (observeCount name delta showsBefore).erase = count name delta showsBefore := rfl

theorem erase_observeIterate (variableName : String) (position : LoopPosition)
    {body : Observed Unit} {task : Task Unit} (same : body.erase = task) (items : List Value) :
    (observeIterate variableName position body items).erase
      = iterate variableName position task items := by
  induction items with
  | nil => rfl
  | cons item rest ih =>
    simp only [observeIterate, iterate, Booked.erase_bind, Booked.erase_lift, same]
    refine congrArg (enterElement variableName item >>= ·) (funext fun _ => ?_)
    refine congrArg (task >>= ·) (funext fun _ => ?_)
    refine congrArg (Task.state >>= ·) (funext fun s => ?_)
    cases s.breaking with
    | true => rfl
    | false => exact congrArg (stepLoop position >>= ·) (funext fun _ => ih)

theorem erase_observeOpening (header : LoopHeader) (items : List Value) :
    (observeOpening header items).erase = openLoop header items := by
  simp only [observeOpening, openLoop, evaluateModifiers, Booked.erase_bind, Booked.erase_lift,
    Booked.erase_within, Booked.erase_pure, erase_observeNamed]

theorem erase_observeVisit (header : LoopHeader) (items : List Value) {body : Observed Unit}
    {task : Task Unit} (same : body.erase = task) :
    (observeVisit header items body).erase = visit header items task := by
  rw [visit_eq]
  simp only [observeVisit, Booked.erase_bind, Booked.erase_within, Booked.erase_lift,
    erase_observeOpening, erase_observeIterate _ _ same]

theorem erase_observeLoop (header : LoopHeader) {body otherwise : Observed Unit}
    {inside instead : Task Unit} (same : body.erase = inside) (other : otherwise.erase = instead) :
    (observeLoop header body otherwise).erase = renderLoop header inside instead := by
  simp only [observeLoop, renderLoop, Argument.evaluate, Booked.erase_bind, Booked.erase_lift,
    Expr.erase_observe]
  refine congrArg (header.collection.expr.evaluate >>= ·) (funext fun v => ?_)
  refine congrArg (Task.resolve v >>= ·) (funext fun v => ?_)
  cases v.elements with
  | nil => exact other
  | cons item rest => exact erase_observeVisit header (item :: rest) same

theorem erase_observeSequence {first rest : Observed Unit} {task later : Task Unit}
    (same : first.erase = task) (other : rest.erase = later) :
    (observeSequence first rest).erase = sequence task later := by
  simp only [observeSequence, sequence, Booked.erase_bind, Booked.erase_lift, same]
  refine congrArg (Task.checkTime >>= ·) (funext fun _ => ?_)
  refine congrArg (task >>= ·) (funext fun _ => ?_)
  refine congrArg (Task.state >>= ·) (funext fun s => ?_)
  cases s.stopped with
  | true => rfl
  | false => exact other

theorem erase_observeBranch (condition : Condition) {body rest : Observed Unit}
    {task later : Task Unit} (same : body.erase = task) (other : rest.erase = later) :
    (observeBranch condition body rest).erase = branch condition task later := by
  simp only [observeBranch, branch, Booked.erase_bind, Condition.erase_observe]
  refine congrArg (condition.evaluate >>= ·) (funext fun holds => ?_)
  cases holds with
  | true => exact same
  | false => exact other

/-- The view of a custom node shows what the node does. -/
def View.Shows (view : View) (c : Custom) : Prop :=
  ∀ parts, (view c parts).erase = c.render (parts.map Booked.erase)

mutual

theorem Node.erase_observe {view : View} :
    ∀ n : Node, (∀ m ∈ n.preorder, ∀ c ∈ m.custom?, view.Shows c) →
      (n.observe view).erase = n.render
  | .text _ _, _ => Booked.erase_lift _
  | .output value _, _ => erase_observeOutput value
  | .loop header body otherwise _, shown => by
    simp only [Node.preorder, List.forall_mem_cons, List.forall_mem_append] at shown
    exact erase_observeLoop header (erase_observeAll body shown.2.1)
      (erase_observeAll otherwise shown.2.2)
  | .choice branches otherwise _, shown => by
    simp only [Node.preorder, List.forall_mem_cons, List.forall_mem_append] at shown
    exact erase_observeBranches (erase_observeAll otherwise shown.2.2) branches shown.2.1
  | .assign name value _, _ => erase_observeAssign name value
  | .increment name _, _ => erase_observeCount name 1 true
  | .decrement name _, _ => erase_observeCount name (-1) false
  | .leave _, _ => Booked.erase_lift _
  | .next _, _ => Booked.erase_lift _
  | .custom c bodies _, shown => by
    simp only [Node.preorder, List.forall_mem_cons] at shown
    rw [Node.observe, Node.render, shown.1 c rfl, erase_observeBodies bodies shown.2]
termination_by structural n => n

theorem erase_observeAll {view : View} :
    ∀ nodes : List Node, (∀ m ∈ preorderAll nodes, ∀ c ∈ m.custom?, view.Shows c) →
      (observeAll view nodes).erase = renderAll nodes
  | [], _ => rfl
  | n :: rest, shown => by
    simp only [preorderAll, List.forall_mem_append] at shown
    exact erase_observeSequence (Node.erase_observe n shown.1) (erase_observeAll rest shown.2)
termination_by structural nodes => nodes

theorem erase_observeBranches {view : View} {otherwise : Observed Unit} {instead : Task Unit}
    (other : otherwise.erase = instead) :
    ∀ branches : List (Condition × List Node),
      (∀ m ∈ preorderBranches branches, ∀ c ∈ m.custom?, view.Shows c) →
      (observeBranches view otherwise branches).erase = renderBranches instead branches
  | [], _ => other
  | (condition, nodes) :: rest, shown => by
    simp only [preorderBranches, List.forall_mem_append] at shown
    exact erase_observeBranch condition (erase_observeAll nodes shown.1)
      (erase_observeBranches other rest shown.2)
termination_by structural branches => branches

theorem erase_observeBodies {view : View} :
    ∀ bodies : List (List Node),
      (∀ m ∈ preorderBodies bodies, ∀ c ∈ m.custom?, view.Shows c) →
      (observeBodies view bodies).map Booked.erase = renderBodies bodies
  | [], _ => rfl
  | nodes :: rest, shown => by
    simp only [preorderBodies, List.forall_mem_append] at shown
    simp only [observeBodies, renderBodies, List.map_cons, erase_observeAll nodes shown.1,
      erase_observeBodies rest shown.2]
termination_by structural bodies => bodies

end

structure ObserveClosed (view : View) (T : Observed Unit → Prop) (fits : Node → Prop) : Prop where
  nothing : T (pure ())
  sequence : ∀ first rest, T first → T rest → T (observeSequence first rest)
  text : ∀ text, T (lift (Task.write text))
  output : ∀ value, T (observeOutput value)
  loop : ∀ header inside instead, T inside → T instead → T (observeLoop header inside instead)
  branch : ∀ condition body rest, T body → T rest → T (observeBranch condition body rest)
  assign : ∀ name value, T (observeAssign name value)
  count : ∀ name delta showsBefore, T (observeCount name delta showsBefore)
  leave : T (lift (Task.modify fun s => { s with breaking := true }))
  next : T (lift (Task.modify fun s => { s with continuing := true }))
  custom : ∀ c bodies span, fits (.custom c bodies span) →
    ∀ parts, (∀ part ∈ parts, T part) → T (view c parts)

variable {view : View} {T : Observed Unit → Prop} {fits : Node → Prop}

mutual

theorem Node.observe_closed (closed : ObserveClosed view T fits) :
    ∀ n : Node, (∀ m ∈ n.preorder, fits m) → T (n.observe view)
  | .text text _, _ => closed.text text
  | .output value _, _ => closed.output value
  | .loop header body otherwise _, all => by
    simp only [Node.preorder, List.forall_mem_cons, List.forall_mem_append] at all
    exact closed.loop header _ _ (observeAll_closed closed body all.2.1)
      (observeAll_closed closed otherwise all.2.2)
  | .choice branches otherwise _, all => by
    simp only [Node.preorder, List.forall_mem_cons, List.forall_mem_append] at all
    exact observeBranches_closed closed (observeAll_closed closed otherwise all.2.2) branches
      all.2.1
  | .assign name value _, _ => closed.assign name value
  | .increment name _, _ => closed.count name 1 true
  | .decrement name _, _ => closed.count name (-1) false
  | .leave _, _ => closed.leave
  | .next _, _ => closed.next
  | .custom c bodies span, all => by
    simp only [Node.preorder, List.forall_mem_cons] at all
    exact closed.custom c bodies span all.1 _ (observeBodies_closed closed bodies all.2)
termination_by structural n => n

theorem observeAll_closed (closed : ObserveClosed view T fits) :
    ∀ nodes : List Node, (∀ m ∈ preorderAll nodes, fits m) → T (observeAll view nodes)
  | [], _ => closed.nothing
  | n :: rest, all => by
    simp only [preorderAll, List.forall_mem_append] at all
    exact closed.sequence _ _ (Node.observe_closed closed n all.1)
      (observeAll_closed closed rest all.2)
termination_by structural nodes => nodes

theorem observeBranches_closed (closed : ObserveClosed view T fits) {otherwise : Observed Unit}
    (last : T otherwise) :
    ∀ branches : List (Condition × List Node), (∀ m ∈ preorderBranches branches, fits m) →
      T (observeBranches view otherwise branches)
  | [], _ => last
  | (condition, nodes) :: rest, all => by
    simp only [preorderBranches, List.forall_mem_append] at all
    exact closed.branch condition _ _ (observeAll_closed closed nodes all.1)
      (observeBranches_closed closed last rest all.2)
termination_by structural branches => branches

theorem observeBodies_closed (closed : ObserveClosed view T fits) :
    ∀ bodies : List (List Node), (∀ m ∈ preorderBodies bodies, fits m) →
      ∀ part ∈ observeBodies view bodies, T part
  | [], _ => by simp [observeBodies]
  | nodes :: rest, all => by
    simp only [preorderBodies, List.forall_mem_append] at all
    simp only [observeBodies, List.forall_mem_cons]
    exact ⟨observeAll_closed closed nodes all.1, observeBodies_closed closed rest all.2⟩
termination_by structural bodies => bodies

end

end Templating
