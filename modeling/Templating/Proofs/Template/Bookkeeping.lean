import Templating.Proofs.Expr.Ranges
import Templating.Proofs.Task.Ledger
import Templating.Proofs.Template.Closure
import Templating.Proofs.Template.Opening

/-!
The books of a render: an entry for each range array that is built and for each loop that is
opened.
-/
namespace Templating

inductive Entry where
  | range (elements : List Value)
  /-- A loop over `items` was opened, leaving this state, in order to visit those selected. -/
  | loop (header : LoopHeader) (items selected : List Value) (state : State)

abbrev Books (α : Type) := Booked Entry α

open Booked (lift enter)

def bookRange (low high : Int64) : Books Value := do
  lift (Task.charge (rangeCharge low high))
  enter fun _ => .range (rangeElements low high)
  return .array (rangeElements low high)

mutual

def Expr.book : Expr → Books Value
  | .literal l => pure l.toValue
  | .path root segments => do
    let keys ← bookKeys segments
    lift (lookup (.str root :: keys))
  | .range low high => do
    let low ← low.book
    let low ← lift (boundOf low)
    let high ← high.book
    let high ← lift (boundOf high)
    bookRange low high
termination_by structural e => e

def Segment.book : Segment → Books Value
  | .name s => pure (.str s)
  | .index e => e.book
termination_by structural s => s

def bookKeys : List Segment → Books (List Value)
  | [] => pure []
  | s :: rest => do
    let key ← s.book
    let keys ← bookKeys rest
    return key :: keys
termination_by structural segments => segments

end

def NamedArgument.book (a : NamedArgument) : Books Value :=
  match a.value with
  | some v => v.expr.book
  | none => pure (.bool true)

def bookNamed (before : Object) : List NamedArgument → Books Object
  | [] => pure before
  | a :: rest => do
    let v ← a.book
    bookNamed (before.insert a.key v) rest

def Condition.book : Condition → Books Bool
  | .test left none => do
    let left ← left.expr.book
    let left ← lift (Task.resolve left)
    return left.isTruthy
  | .test left (some (operator, right)) => do
    let left ← left.expr.book
    let left ← lift (Task.resolve left)
    let right ← right.expr.book
    let right ← lift (Task.resolve right)
    return operator.holds left right
  | .both c d => do
    if ← c.book then d.book else return false
  | .either c d => do
    if ← c.book then return true else d.book

def bookOutput : Option Argument → Books Unit
  | none => pure ()
  | some a => do
    let v ← a.expr.book
    let v ← lift (Task.resolve v)
    lift (Task.write v.text)

def bookAssign (name : String) (value : Argument) : Books Unit := do
  let v ← value.expr.book
  lift (Task.modify (·.mapBindings (·.bindBottom name v)))

def bookModifiers (header : LoopHeader) (previous : Value) : Books Object :=
  Booked.within (.single "continue" previous) (bookNamed .empty header.modifiers)

def bookOpening (header : LoopHeader) (items : List Value) :
    Books (LoopPosition × List Value) := do
  let cell ← lift offsetsCell
  let previous ← lift (recallOffset cell header.continueKey)
  let modifiers ← bookModifiers header previous
  let selected := select header.ordered modifiers items
  lift (recordOffset cell header.continueKey (resumeAt modifiers selected))
  let position ← lift (beginLoop selected.length header)
  enter (.loop header items selected)
  return (position, selected)

def bookIterate (variableName : String) (position : LoopPosition) (body : Books Unit) :
    List Value → Books Unit
  | [] => pure ()
  | item :: rest => do
    lift (enterElement variableName item)
    body
    let s ← lift Task.state
    if s.breaking then pure ()
    else do
      lift (stepLoop position)
      bookIterate variableName position body rest

def bookVisit (header : LoopHeader) (items : List Value) (body : Books Unit) : Books Unit := do
  let opened ← bookOpening header items
  Booked.within (loopScope opened.1) do
    bookIterate header.variableName opened.1 body opened.2
    lift (Task.modify State.clearJumps)

def bookElements (header : LoopHeader) (body otherwise : Books Unit) : List Value → Books Unit
  | [] => otherwise
  | item :: rest => bookVisit header (item :: rest) body

def bookLoop (header : LoopHeader) (body otherwise : Books Unit) : Books Unit := do
  let collection ← header.collection.expr.book
  let collection ← lift (Task.resolve collection)
  bookElements header body otherwise collection.elements

def bookSequence (first rest : Books Unit) : Books Unit := do
  lift Task.checkTime
  first
  let s ← lift Task.state
  if s.stopped then pure () else rest

def bookBranch (condition : Condition) (body rest : Books Unit) : Books Unit := do
  if ← condition.book then body else rest

mutual

def Node.book : Node → Books Unit
  | .text text _ => lift (Task.write text)
  | .output value _ => bookOutput value
  | .loop header body otherwise _ => bookLoop header (bookAll body) (bookAll otherwise)
  | .choice branches otherwise _ => bookBranches (bookAll otherwise) branches
  | .assign name value _ => bookAssign name value
  | .increment name _ => lift (count name 1 true)
  | .decrement name _ => lift (count name (-1) false)
  | .leave _ => lift (Task.modify fun s => { s with breaking := true })
  | .next _ => lift (Task.modify fun s => { s with continuing := true })
  | .custom c bodies _ => lift (c.render (renderBodies bodies))
termination_by structural n => n

def bookAll : List Node → Books Unit
  | [] => pure ()
  | n :: rest => bookSequence n.book (bookAll rest)
termination_by structural nodes => nodes

def bookBranches (otherwise : Books Unit) : List (Condition × List Node) → Books Unit
  | [] => otherwise
  | (condition, nodes) :: rest =>
    bookBranch condition (bookAll nodes) (bookBranches otherwise rest)
termination_by structural branches => branches

end

def Task.Quiet {α : Type} (t : Task α) : Prop :=
  t.Keeps fun s s' => s'.memory = s.memory ∧ s'.registers = s.registers

namespace Task
variable {α β : Type}

theorem quiet_pure (a : α) : (pure a : Task α).Quiet := keeps_pure (fun _ => ⟨rfl, rfl⟩) a

theorem quiet_modify {change : State → State}
    (same : ∀ s, (change s).memory = s.memory ∧ (change s).registers = s.registers) :
    (modify change).Quiet := keeps_modify same

theorem Quiet.bind {t : Task α} {f : α → Task β} (first : t.Quiet) (rest : ∀ a, (f a).Quiet) :
    (t >>= f).Quiet :=
  Keeps.bind (fun _ _ _ h h' => ⟨h'.1.trans h.1, h'.2.trans h.2⟩) first rest

theorem quiet_state : state.Quiet := fun _ => .done ⟨rfl, rfl⟩

theorem quiet_read (r : Read α) : (read r).Quiet := fun _ => .done ⟨rfl, rfl⟩

theorem quiet_wait (id : Nat) (label : Option String) : (wait id label).Quiet := fun _ =>
  .waiting ⟨rfl, rfl⟩ (.done ⟨rfl, rfl⟩) (.done ⟨rfl, rfl⟩)

theorem quiet_settle (v : Value) : (settle v).Quiet :=
  settle_closed quiet_pure (fun id label _ rest => (quiet_wait id label).bind fun _ => rest) v

theorem quiet_resolve (v : Value) : (resolve v).Quiet :=
  resolve_closed quiet_pure (fun id label _ rest => (quiet_wait id label).bind fun _ => rest) v

theorem quiet_checkTime : checkTime.Quiet := by
  intro s
  unfold checkTime
  split
  · exact .failed ⟨rfl, rfl⟩
  · exact .done ⟨rfl, rfl⟩

end Task

open Templating.Task (quiet_pure quiet_modify quiet_state quiet_read quiet_settle quiet_resolve
  quiet_checkTime)

theorem quiet_boundOf (v : Value) : (boundOf v).Quiet :=
  (quiet_resolve v).bind fun _ => quiet_pure _

theorem quiet_checkDefined (value : Value) (walked : List Value) :
    (checkDefined value walked).Quiet := by
  intro s
  unfold checkDefined
  split
  · exact .failed ⟨rfl, rfl⟩
  · exact .done ⟨rfl, rfl⟩

theorem quiet_property (receiver key : Value) : (property receiver key).Quiet :=
  (quiet_settle receiver).bind fun _ => (quiet_resolve key).bind fun _ =>
    quiet_state.bind fun _ => quiet_read _

theorem quiet_follow (value : Value) (walked keys : List Value) :
    (follow value walked keys).Quiet := by
  induction keys generalizing value walked with
  | nil => exact quiet_pure value
  | cons key rest ih =>
    refine (quiet_property value key).bind fun next => (quiet_settle next).bind fun next => ?_
    exact (quiet_checkDefined next _).bind fun _ => ih next _

theorem quiet_lookup (keys : List Value) : (lookup keys).Quiet := by
  cases keys with
  | nil => exact quiet_pure Value.undefined
  | cons first rest =>
    refine (quiet_resolve first).bind fun key => ?_
    refine (quiet_state.bind fun s => quiet_read _).bind fun found => ?_
    refine (quiet_settle found).bind fun value => ?_
    exact (quiet_checkDefined value _).bind fun _ => quiet_follow value _ rest

/-- What booked tasks and tasks that are related hand on to what is made of them. -/
structure Bookkeeping (R : (α : Type) → Books α → Task α → Prop) : Prop where
  pure : ∀ {α : Type} (a : α), R α (pure a) (pure a)
  bind : ∀ {α β : Type} {b : Books α} {t : Task α} {next : α → Books β} {after : α → Task β},
    R α b t → (∀ a, R β (next a) (after a)) → R β (b >>= next) (t >>= after)
  quiet : ∀ {α : Type} {t : Task α}, t.Quiet → R α (lift t) t
  range : ∀ low high, R Value (bookRange low high) (buildRange low high)
  within : ∀ {α : Type} {b : Books α} {t : Task α} (scope : Object), R α b t →
    R α (Booked.within scope b) (Task.within scope t)

namespace Bookkeeping
variable {R : (α : Type) → Books α → Task α → Prop}

mutual

theorem expr (keeps : Bookkeeping R) : ∀ e : Expr, R Value e.book e.evaluate
  | .literal l => keeps.pure l.toValue
  | .path root segments =>
    keeps.bind (keeps.keys segments) fun keys => keeps.quiet (quiet_lookup (.str root :: keys))
  | .range low high => by
    refine keeps.bind (keeps.expr low) fun low => ?_
    refine keeps.bind (keeps.quiet (quiet_boundOf low)) fun low => ?_
    refine keeps.bind (keeps.expr high) fun high => ?_
    exact keeps.bind (keeps.quiet (quiet_boundOf high)) fun high => keeps.range low high
termination_by structural e => e

theorem segment (keeps : Bookkeeping R) : ∀ s : Segment, R Value s.book s.key
  | .name s => keeps.pure (Value.str s)
  | .index e => keeps.expr e
termination_by structural s => s

theorem keys (keeps : Bookkeeping R) :
    ∀ segments : List Segment, R (List Value) (bookKeys segments) (segmentKeys segments)
  | [] => keeps.pure []
  | s :: rest =>
    keeps.bind (keeps.segment s) fun _ => keeps.bind (keeps.keys rest) fun _ => keeps.pure _
termination_by structural segments => segments

end

theorem argument (keeps : Bookkeeping R) (a : NamedArgument) : R Value a.book a.evaluate := by
  unfold NamedArgument.book NamedArgument.evaluate
  cases a.value with
  | none => exact keeps.pure (Value.bool true)
  | some v => exact keeps.expr v.expr

theorem named (keeps : Bookkeeping R) (before : Object) (arguments : List NamedArgument) :
    R Object (bookNamed before arguments) (evaluateNamed before arguments) := by
  induction arguments generalizing before with
  | nil => exact keeps.pure before
  | cons a rest ih => exact keeps.bind (keeps.argument a) fun v => ih (before.insert a.key v)

theorem condition (keeps : Bookkeeping R) (c : Condition) : R Bool c.book c.evaluate := by
  induction c with
  | test left comparison =>
    cases comparison with
    | none =>
      refine keeps.bind (keeps.expr left.expr) fun v => ?_
      exact keeps.bind (keeps.quiet (quiet_resolve v)) fun _ => keeps.pure _
    | some pair =>
      refine keeps.bind (keeps.expr left.expr) fun v => ?_
      refine keeps.bind (keeps.quiet (quiet_resolve v)) fun _ => ?_
      refine keeps.bind (keeps.expr pair.2.expr) fun w => ?_
      exact keeps.bind (keeps.quiet (quiet_resolve w)) fun _ => keeps.pure _
  | both c d first second =>
    refine keeps.bind first fun holds => ?_
    cases holds with
    | true => exact second
    | false => exact keeps.pure false
  | either c d first second =>
    refine keeps.bind first fun holds => ?_
    cases holds with
    | true => exact keeps.pure true
    | false => exact second

theorem output (keeps : Bookkeeping R) (value : Option Argument) :
    R Unit (bookOutput value) (renderOutput value) := by
  cases value with
  | none => exact keeps.pure ()
  | some a =>
    refine keeps.bind (keeps.expr a.expr) fun v => ?_
    refine keeps.bind (keeps.quiet (quiet_resolve v)) fun v => ?_
    exact keeps.quiet (quiet_modify fun _ => ⟨rfl, rfl⟩)

theorem assign (keeps : Bookkeeping R) (name : String) (value : Argument) :
    R Unit (bookAssign name value) (renderAssign name value) :=
  keeps.bind (keeps.expr value.expr) fun _ => keeps.quiet (quiet_modify fun _ => ⟨rfl, rfl⟩)

theorem modifiers (keeps : Bookkeeping R) (header : LoopHeader) (previous : Value) :
    R Object (bookModifiers header previous) (evaluateModifiers header previous) :=
  keeps.within _ (keeps.named .empty header.modifiers)

theorem iterate (keeps : Bookkeeping R) (variableName : String) (position : LoopPosition)
    {body : Books Unit} {task : Task Unit} (inside : R Unit body task) (items : List Value) :
    R Unit (bookIterate variableName position body items)
      (iterate variableName position task items) := by
  induction items with
  | nil => exact keeps.pure ()
  | cons item rest ih =>
    refine keeps.bind (keeps.quiet (quiet_modify fun _ => ⟨rfl, rfl⟩)) fun _ => ?_
    refine keeps.bind inside fun _ => keeps.bind (keeps.quiet quiet_state) fun s => ?_
    cases s.breaking with
    | true => exact keeps.pure ()
    | false => exact keeps.bind (keeps.quiet (quiet_modify fun _ => ⟨rfl, rfl⟩)) fun _ => ih

theorem sequence (keeps : Bookkeeping R) {first rest : Books Unit} {task later : Task Unit}
    (related : R Unit first task) (other : R Unit rest later) :
    R Unit (bookSequence first rest) (sequence task later) := by
  refine keeps.bind (keeps.quiet quiet_checkTime) fun _ => ?_
  refine keeps.bind related fun _ => keeps.bind (keeps.quiet quiet_state) fun s => ?_
  cases s.stopped with
  | true => exact keeps.pure ()
  | false => exact other

theorem branch (keeps : Bookkeeping R) (condition : Condition) {body rest : Books Unit}
    {task later : Task Unit} (related : R Unit body task) (other : R Unit rest later) :
    R Unit (bookBranch condition body rest) (branch condition task later) := by
  refine keeps.bind (keeps.condition condition) fun holds => ?_
  cases holds with
  | true => exact related
  | false => exact other

end Bookkeeping

def Node.header? : Node → Option LoopHeader
  | .loop header _ _ _ => some header
  | _ => none

def headers (nodes : List Node) : List LoopHeader := (preorderAll nodes).filterMap Node.header?

def Node.Suits (fits : LoopHeader → Prop) (n : Node) : Prop :=
  n.custom? = none ∧ ∀ header ∈ n.header?, fits header

structure RenderBookkeeping (R : (α : Type) → Books α → Task α → Prop) (fits : LoopHeader → Prop) :
    Prop extends Bookkeeping R where
  opening : ∀ header, fits header → ∀ items,
    R (LoopPosition × List Value) (bookOpening header items) (openLoop header items)

namespace RenderBookkeeping
variable {R : (α : Type) → Books α → Task α → Prop} {fits : LoopHeader → Prop}

theorem loop (keeps : RenderBookkeeping R fits) (header : LoopHeader) (suits : fits header)
    {body otherwise : Books Unit} {inside instead : Task Unit} (related : R Unit body inside)
    (other : R Unit otherwise instead) :
    R Unit (bookLoop header body otherwise) (renderLoop header inside instead) := by
  refine keeps.bind (keeps.expr header.collection.expr) fun v => ?_
  refine keeps.bind (keeps.quiet (quiet_resolve v)) fun v => ?_
  cases v.elements with
  | nil => exact other
  | cons item rest =>
    change R Unit (bookVisit header (item :: rest) body) (visit header (item :: rest) inside)
    rw [visit_eq]
    refine keeps.bind (keeps.opening header suits (item :: rest)) fun opened => keeps.within _ ?_
    refine keeps.bind (keeps.iterate header.variableName opened.1 related opened.2) fun _ => ?_
    exact keeps.quiet (quiet_modify fun _ => ⟨rfl, rfl⟩)

mutual

theorem node (keeps : RenderBookkeeping R fits) :
    ∀ n : Node, (∀ m ∈ n.preorder, m.Suits fits) → R Unit n.book n.render
  | .text _ _, _ => keeps.quiet (quiet_modify fun _ => ⟨rfl, rfl⟩)
  | .output value _, _ => keeps.output value
  | .loop header body otherwise _, builtIn => by
    simp only [Node.preorder, List.forall_mem_cons, List.forall_mem_append] at builtIn
    exact keeps.loop header (builtIn.1.2 header rfl) (keeps.all body builtIn.2.1)
      (keeps.all otherwise builtIn.2.2)
  | .choice branches otherwise _, builtIn => by
    simp only [Node.preorder, List.forall_mem_cons, List.forall_mem_append] at builtIn
    exact keeps.branches (keeps.all otherwise builtIn.2.2) branches builtIn.2.1
  | .assign name value _, _ => keeps.assign name value
  | .increment _ _, _ => keeps.quiet fun _ => .done ⟨rfl, rfl⟩
  | .decrement _ _, _ => keeps.quiet fun _ => .done ⟨rfl, rfl⟩
  | .leave _, _ => keeps.quiet (quiet_modify fun _ => ⟨rfl, rfl⟩)
  | .next _, _ => keeps.quiet (quiet_modify fun _ => ⟨rfl, rfl⟩)
  | .custom c bodies span, builtIn => by
    have none := (builtIn _ (mem_preorder_self (.custom c bodies span))).1
    cases none
termination_by structural n => n

theorem all (keeps : RenderBookkeeping R fits) :
    ∀ nodes : List Node, (∀ m ∈ preorderAll nodes, m.Suits fits) →
      R Unit (bookAll nodes) (renderAll nodes)
  | [], _ => keeps.pure ()
  | n :: rest, builtIn => by
    simp only [preorderAll, List.forall_mem_append] at builtIn
    exact keeps.sequence (keeps.node n builtIn.1) (keeps.all rest builtIn.2)
termination_by structural nodes => nodes

theorem branches (keeps : RenderBookkeeping R fits) {otherwise : Books Unit} {instead : Task Unit}
    (other : R Unit otherwise instead) :
    ∀ branches : List (Condition × List Node),
      (∀ m ∈ preorderBranches branches, m.Suits fits) →
      R Unit (bookBranches otherwise branches) (renderBranches instead branches)
  | [], _ => other
  | (condition, nodes) :: rest, builtIn => by
    simp only [preorderBranches, List.forall_mem_append] at builtIn
    exact keeps.branch condition (keeps.all nodes builtIn.1)
      (keeps.branches other rest builtIn.2)
termination_by structural branches => branches

end

theorem render (keeps : RenderBookkeeping R fits) {nodes : List Node} (builtIn : BuiltIn nodes)
    (suit : ∀ header ∈ headers nodes, fits header) : R Unit (bookAll nodes) (renderAll nodes) := by
  refine keeps.all nodes fun m member => ⟨List.filterMap_eq_nil_iff.mp builtIn m member, ?_⟩
  intro header mine
  exact suit header (List.mem_filterMap.mpr ⟨m, member, mine⟩)

end RenderBookkeeping

theorem erase_keeps_books : Bookkeeping fun _ b t => b.erase = t where
  pure _ := rfl
  bind {_ _ b t next after} same later := by
    rw [Booked.erase_bind, same]
    exact congrArg (t >>= ·) (funext later)
  quiet {_ t} _ := Booked.erase_lift t
  range low high := by
    simp only [bookRange, buildRange, Booked.erase_bind, Booked.erase_lift]
    rfl
  within scope same := by rw [Booked.erase_within, same]

theorem erase_bookOpening (header : LoopHeader) (items : List Value) :
    (bookOpening header items).erase = openLoop header items := by
  simp only [bookOpening, openLoop, Booked.erase_bind, Booked.erase_lift,
    erase_keeps_books.modifiers]
  rfl

/-- Without its entries the booked render is the render. -/
theorem erase_bookAll {nodes : List Node} (builtIn : BuiltIn nodes) :
    (bookAll nodes).erase = renderAll nodes := by
  have keeps : RenderBookkeeping (fun _ b t => b.erase = t) fun _ => True :=
    ⟨erase_keeps_books, fun header _ => erase_bookOpening header⟩
  exact keeps.render builtIn fun _ _ => trivial

/-- An account of the memory budget and the registers that is kept where ranges are built. -/
structure Account (J : List Entry → State → Prop) (Excused : EvalError → State → Prop) : Prop where
  moved : ∀ es s t, J es s → t.memory = s.memory → t.registers = s.registers → J es t
  excused : ∀ e s t, Excused e s → t.memory = s.memory → t.registers = s.registers → Excused e t
  range : ∀ low high, (bookRange low high).Maintains J Excused

theorem Account.keeps_books {J : List Entry → State → Prop} {Excused : EvalError → State → Prop}
    (account : Account J Excused) : Bookkeeping fun _ b _ => b.Maintains J Excused where
  pure := .pure
  bind := .bind
  quiet quiet := by
    refine Booked.maintains_lift quiet ?_ fun es s t holds same => ?_
    · exact fun _ _ _ h h' => ⟨h'.1.trans h.1, h'.2.trans h.2⟩
    · exact account.moved es s t holds same.1 same.2
  range := account.range
  within scope h := h.ensuring (·.mapBindings (·.push scope)) State.pop
    (fun es s holds => account.moved es s _ holds rfl rfl)
    (fun es s holds => account.moved es s _ holds rfl rfl)
    (fun e s holds => account.excused e s _ holds rfl rfl)

theorem registers_account {I : List Entry → Registers → Prop}
    (ranges : ∀ es elements r, I es r → I (es ++ [.range elements]) r) :
    Account (fun es s => I es s.registers) Booked.NoExcuse where
  moved _ _ _ h _ same := by rw [same]; exact h
  excused _ _ _ h := absurd h id
  range low high := by
    intro es s h
    change Ledger.Ends _ _ ((Task.charge (rangeCharge low high) s).ledger.bind _)
    unfold Task.charge
    dsimp only
    split
    · exact .failed (.inl h)
    · exact .entry (.done (.inl (ranges es (rangeElements low high) s.registers h)))

end Templating
