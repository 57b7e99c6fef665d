import Templating.Expr.Condition
import Templating.Proofs.Task.Locality
import Templating.Proofs.Value.Object

namespace Templating

def rootsOf (arguments : List Argument) : List String := arguments.flatMap (·.expr.roots)

open Templating.Task (local_pure local_settle local_resolve local_read local_charge)

theorem checkDefined_local {names : List String} (value : Value) (walked : List Value) :
    (checkDefined value walked).Local names := by
  intro s s' alike
  unfold checkDefined
  rw [alike.strict]
  split
  · exact .failed alike.moved_here (by simp)
  · exact .done ⟨rfl, alike.moved_here⟩

theorem readMode_local {names : List String} (r : Bool → Read Value) :
    (do let s ← Task.state; Task.read (r s.modes.ownOnly) : Task Value).Local names := by
  intro s s' alike
  change Step.Agree _ _ (Task.read (r s.modes.ownOnly) s) (Task.read (r s'.modes.ownOnly) s')
  rw [alike.ownOnly]
  exact local_read _ s s' alike

theorem property_local {names : List String} (receiver key : Value) :
    (property receiver key).Local names :=
  (local_settle receiver).bind fun receiver => (local_resolve key).bind fun key =>
    readMode_local (readProperty receiver key)

theorem follow_local {names : List String} (value : Value) (walked keys : List Value) :
    (follow value walked keys).Local names := by
  induction keys generalizing value walked with
  | nil => exact local_pure value
  | cons key rest ih =>
    refine (property_local value key).bind fun next => (local_settle next).bind fun next => ?_
    exact (checkDefined_local next _).bind fun _ => ih next _

theorem readName_local {names : List String} {name : String} (member : name ∈ names) :
    (readName name).Local names := by
  intro s s' alike
  change Step.Agree _ _ (Task.read ((s.bindings.owner name).read name s.modes.ownOnly) s)
    (Task.read ((s'.bindings.owner name).read name s'.modes.ownOnly) s')
  rw [alike.ownOnly, alike.reads name member]
  exact local_read _ s s' alike

theorem lookup_root (root : String) (keys : List Value) :
    lookup (.str root :: keys) = (do
      let found ← readName root
      let value ← Task.settle found
      checkDefined value [.str root]
      follow value [.str root] keys) := rfl

theorem checkDefined_of_defined {v : Value} (defined : v.isUndefined = false) (walked : List Value)
    (s : State) : checkDefined v walked s = .done () s := by
  simp [checkDefined, defined]

theorem readName_of_own {name : String} {v : Value} {s : State}
    (bound : (s.bindings.owner name).own? name = some v)
    (itself : callIfComputed v = fun store => (v, store)) (defined : v.isUndefined = false) :
    readName name s = .done v s := by
  have read : (s.bindings.owner name).read name s.modes.ownOnly s.store = (v, s.store) := by
    rw [Object.read, Object.plain_of_own bound, itself]
    simp [defined]
  change Task.read ((s.bindings.owner name).read name s.modes.ownOnly) s = _
  rw [Task.read, read]

theorem lookup_of_defined {root : String} {v : Value} {s : State}
    (named : readName root s = .done v s) (settled : Task.settle v = pure v)
    (defined : v.isUndefined = false) (keys : List Value) :
    lookup (.str root :: keys) s = follow v [.str root] keys s := by
  rw [lookup_root, Task.bind_apply, named]
  change (Task.settle v >>= _) s = _
  rw [settled, pure_bind, Task.bind_apply, checkDefined_of_defined defined]
  rfl

theorem follow_of_defined {receiver key v : Value} {s : State}
    (found : property receiver key s = .done v s) (settled : Task.settle v = pure v)
    (defined : v.isUndefined = false) (walked rest : List Value) :
    follow receiver walked (key :: rest) s = follow v (walked ++ [key]) rest s := by
  rw [follow, Task.bind_apply, found]
  change (Task.settle v >>= _) s = _
  rw [settled, pure_bind, Task.bind_apply, checkDefined_of_defined defined]
  rfl

theorem lookup_local {names : List String} {root : String} (member : root ∈ names)
    (keys : List Value) : (lookup (.str root :: keys)).Local names := by
  rw [lookup_root]
  refine (readName_local member).bind fun found => (local_settle found).bind fun value => ?_
  exact (checkDefined_local value _).bind fun _ => follow_local value _ keys

theorem boundOf_local {names : List String} (v : Value) : (boundOf v).Local names :=
  (local_resolve v).bind fun v => local_pure (v.asInteger?.getD 0)

mutual

theorem Expr.evaluate_local : ∀ e : Expr, e.evaluate.Local e.roots
  | .literal l => local_pure l.toValue
  | .path root segments => by
    have keys := (segmentKeys_local segments).mono (List.subset_cons_self root _)
    exact keys.bind fun keys => lookup_local (List.mem_cons_self ..) keys
  | .range low high => by
    have lower := (Expr.evaluate_local low).mono (List.subset_append_left _ high.roots)
    have upper := (Expr.evaluate_local high).mono (List.subset_append_right low.roots _)
    refine lower.bind fun low => (boundOf_local low).bind fun low => ?_
    refine upper.bind fun high => (boundOf_local high).bind fun high => ?_
    exact (local_charge _).bind fun _ => local_pure _
termination_by structural e => e

theorem Segment.key_local : ∀ s : Segment, s.key.Local s.roots
  | .name s => local_pure (Value.str s)
  | .index e => Expr.evaluate_local e
termination_by structural s => s

theorem segmentKeys_local : ∀ segments : List Segment,
    (segmentKeys segments).Local (segmentRoots segments)
  | [] => local_pure []
  | s :: rest => by
    have first := (Segment.key_local s).mono (List.subset_append_left _ (segmentRoots rest))
    have others := (segmentKeys_local rest).mono (List.subset_append_right s.roots _)
    exact first.bind fun key => others.bind fun keys => local_pure (key :: keys)
termination_by structural segments => segments

end

theorem Argument.evaluate_local (a : Argument) : a.evaluate.Local (rootsOf [a]) :=
  a.expr.evaluate_local.mono (by simp [rootsOf])

theorem NamedArgument.evaluate_local (a : NamedArgument) :
    a.evaluate.Local (rootsOf a.value.toList) := by
  obtain ⟨key, value, span⟩ := a
  cases value with
  | none => exact local_pure (Value.bool true)
  | some value => exact value.evaluate_local

theorem rootsOf_append (as bs : List Argument) : rootsOf (as ++ bs) = rootsOf as ++ rootsOf bs :=
  List.flatMap_append

theorem givenValues_cons (a : NamedArgument) (rest : List NamedArgument) :
    givenValues (a :: rest) = a.value.toList ++ givenValues rest := by
  cases given : a.value <;> simp [givenValues, given]

theorem evaluateNamed_local (before : Object) (named : List NamedArgument) :
    (evaluateNamed before named).Local (rootsOf (givenValues named)) := by
  induction named generalizing before with
  | nil => exact local_pure before
  | cons a rest ih =>
    rw [givenValues_cons, rootsOf_append]
    have first := a.evaluate_local.mono (List.subset_append_left _ (rootsOf (givenValues rest)))
    refine first.bind fun v => ?_
    exact (ih (before.insert a.key v)).mono (List.subset_append_right _ _)

theorem Condition.evaluate_local (c : Condition) : c.evaluate.Local (rootsOf c.arguments) := by
  induction c with
  | test left comparison =>
    cases comparison with
    | none =>
      refine left.evaluate_local.bind fun v => (local_resolve v).bind fun v => ?_
      exact local_pure v.isTruthy
    | some pair =>
      obtain ⟨operator, right⟩ := pair
      have first := left.evaluate_local.mono (List.subset_append_left _ (rootsOf [right]))
      have second := right.evaluate_local.mono (List.subset_append_right (rootsOf [left]) _)
      rw [Condition.arguments, ← List.singleton_append, rootsOf_append]
      refine first.bind fun v => (local_resolve v).bind fun v => ?_
      refine second.bind fun w => (local_resolve w).bind fun w => ?_
      exact local_pure (operator.holds v w)
  | both c d first second =>
    rw [Condition.arguments, rootsOf_append]
    refine (first.mono (List.subset_append_left _ _)).bind fun holds => ?_
    cases holds with
    | true => exact second.mono (List.subset_append_right _ _)
    | false => exact local_pure false
  | either c d first second =>
    rw [Condition.arguments, rootsOf_append]
    refine (first.mono (List.subset_append_left _ _)).bind fun holds => ?_
    cases holds with
    | true => exact local_pure true
    | false => exact second.mono (List.subset_append_right _ _)

end Templating
