import Templating.Expr.Condition
import Templating.Proofs.Expr.Locality

namespace Templating

/-- The elementary steps of evaluation have `T`, and steps in a row hand it on. -/
structure EvaluationClosed (T : (α : Type) → Task α → Prop) : Prop where
  pure : ∀ {α : Type} (a : α), T α (pure a)
  bind : ∀ {α β : Type} {t : Task α} {f : α → Task β}, T α t → (∀ a, T β (f a)) → T β (t >>= f)
  state : T State Task.state
  wait : ∀ id label, T Unit (Task.wait id label)
  property : ∀ receiver key ownOnly, T Value (Task.read (readProperty receiver key ownOnly))
  name : ∀ (o : Object) name ownOnly, T Value (Task.read (o.read name ownOnly))
  charge : ∀ count, T Unit (Task.charge count)
  checkDefined : ∀ value walked, T Unit (checkDefined value walked)

namespace EvaluationClosed
variable {T : (α : Type) → Task α → Prop}

theorem settle (closed : EvaluationClosed T) (v : Value) : T Value (Task.settle v) :=
  Task.settle_closed closed.pure
    (fun id label _ rest => closed.bind (closed.wait id label) fun _ => rest) v

theorem resolve (closed : EvaluationClosed T) (v : Value) : T Value (Task.resolve v) :=
  Task.resolve_closed closed.pure
    (fun id label _ rest => closed.bind (closed.wait id label) fun _ => rest) v

theorem boundOf (closed : EvaluationClosed T) (v : Value) : T Int64 (boundOf v) :=
  closed.bind (closed.resolve v) fun _ => closed.pure _

theorem follow (closed : EvaluationClosed T) (value : Value) (walked keys : List Value) :
    T Value (follow value walked keys) := by
  induction keys generalizing value walked with
  | nil => exact closed.pure value
  | cons key rest ih =>
    have property : T Value (Templating.property value key) := by
      refine closed.bind (closed.settle value) fun receiver => ?_
      refine closed.bind (closed.resolve key) fun key => ?_
      exact closed.bind closed.state fun s => closed.property receiver key s.modes.ownOnly
    refine closed.bind property fun next => closed.bind (closed.settle next) fun next => ?_
    exact closed.bind (closed.checkDefined next _) fun _ => ih next _

theorem lookup (closed : EvaluationClosed T) (root : String) (keys : List Value) :
    T Value (lookup (.str root :: keys)) := by
  rw [lookup_root]
  have name : T Value (readName root) := closed.bind closed.state fun _ => closed.name _ _ _
  refine closed.bind name fun found => closed.bind (closed.settle found) fun value => ?_
  exact closed.bind (closed.checkDefined value _) fun _ => closed.follow value _ keys

mutual

theorem expr (closed : EvaluationClosed T) : ∀ e : Expr, T Value e.evaluate
  | .literal l => closed.pure l.toValue
  | .path root segments =>
    closed.bind (closed.keys segments) fun keys => closed.lookup root keys
  | .range low high => by
    refine closed.bind (closed.expr low) fun low => closed.bind (closed.boundOf low) fun low => ?_
    refine closed.bind (closed.expr high) fun high => ?_
    refine closed.bind (closed.boundOf high) fun high => ?_
    exact closed.bind (closed.charge _) fun _ => closed.pure _
termination_by structural e => e

theorem segment (closed : EvaluationClosed T) : ∀ s : Segment, T Value s.key
  | .name s => closed.pure (Value.str s)
  | .index e => closed.expr e
termination_by structural s => s

theorem keys (closed : EvaluationClosed T) :
    ∀ segments : List Segment, T (List Value) (segmentKeys segments)
  | [] => closed.pure []
  | s :: rest =>
    closed.bind (closed.segment s) fun _ => closed.bind (closed.keys rest) fun _ => closed.pure _
termination_by structural segments => segments

end

theorem argument (closed : EvaluationClosed T) (a : NamedArgument) : T Value a.evaluate := by
  unfold NamedArgument.evaluate
  cases a.value with
  | none => exact closed.pure (Value.bool true)
  | some v => exact closed.expr v.expr

theorem named (closed : EvaluationClosed T) (before : Object) (arguments : List NamedArgument) :
    T Object (evaluateNamed before arguments) := by
  induction arguments generalizing before with
  | nil => exact closed.pure before
  | cons a rest ih => exact closed.bind (closed.argument a) fun v => ih (before.insert a.key v)

theorem condition (closed : EvaluationClosed T) (c : Condition) : T Bool c.evaluate := by
  induction c with
  | test left comparison =>
    refine closed.bind (closed.expr left.expr) fun v => closed.bind (closed.resolve v) fun v => ?_
    cases comparison with
    | none => exact closed.pure v.isTruthy
    | some pair =>
      refine closed.bind (closed.expr pair.2.expr) fun w => ?_
      exact closed.bind (closed.resolve w) fun _ => closed.pure _
  | both c d first second =>
    refine closed.bind first fun holds => ?_
    cases holds with
    | true => exact second
    | false => exact closed.pure false
  | either c d first second =>
    refine closed.bind first fun holds => ?_
    cases holds with
    | true => exact closed.pure true
    | false => exact second

end EvaluationClosed
end Templating
