import Templating.Expr.Condition
import Templating.Proofs.Expr.Locality
import Templating.Proofs.Value.Orphans

namespace Templating

namespace Bindings

structure Orphan (b : Bindings) : Prop where
  inner : ∀ scope ∈ b.inner, scope.Orphan
  bottom : b.bottom.Orphan
  data : b.data.Orphan
  globals : b.globals.Orphan

namespace Orphan
variable {b : Bindings}

theorem start {data globals : Object} (h : data.Orphan) (h' : globals.Orphan) :
    (Bindings.start data globals).Orphan :=
  ⟨by simp [Bindings.start], .empty, h, h'⟩

theorem push (h : b.Orphan) {scope : Object} (orphan : scope.Orphan) : (b.push scope).Orphan :=
  { h with inner := List.forall_mem_cons.mpr ⟨orphan, h.inner⟩ }

theorem pop (h : b.Orphan) : b.pop.Orphan :=
  { h with inner := fun scope member => h.inner scope (List.mem_of_mem_tail member) }

theorem bindTop (h : b.Orphan) (name : String) {v : Value} (orphan : v.Orphan) :
    (b.bindTop name v).Orphan := by
  obtain ⟨inner, bottom, data, globals⟩ := h
  obtain ⟨scopes, _, _, _⟩ := b
  cases scopes with
  | nil => exact ⟨inner, bottom.insert name orphan, data, globals⟩
  | cons top rest =>
    obtain ⟨first, others⟩ := List.forall_mem_cons.mp inner
    exact ⟨List.forall_mem_cons.mpr ⟨first.insert name orphan, others⟩, bottom, data, globals⟩

theorem bindBottom (h : b.Orphan) (name : String) {v : Value} (orphan : v.Orphan) :
    (b.bindBottom name v).Orphan :=
  { h with bottom := h.bottom.insert name orphan }

theorem bindData (h : b.Orphan) (name : String) {v : Value} (orphan : v.Orphan) :
    (b.bindData name v).Orphan :=
  { h with data := h.data.insert name orphan }

theorem scopes (h : b.Orphan) : ∀ scope ∈ b.scopes, scope.Orphan := by
  intro scope member
  rcases List.mem_append.mp member with inner | bottom
  · exact h.inner scope inner
  · rw [List.mem_singleton.mp bottom]
    exact h.bottom

theorem owner (h : b.Orphan) (name : String) : (b.owner name).Orphan := by
  unfold Bindings.owner
  split
  · rename_i scope found
    exact h.scopes scope (List.mem_of_find?_eq_some found)
  · split
    · exact h.data
    · exact h.globals

end Orphan
end Bindings

def State.seeing (s : State) (ownOnly : Bool) : State :=
  { s with modes := { s.modes with ownOnly } }

structure Seeing (ownOnly : Bool) (s t : State) : Prop where
  orphan : s.bindings.Orphan
  same : t = s.seeing ownOnly

variable {ownOnly : Bool}

theorem Seeing.map {s t : State} (h : Seeing ownOnly s t) (change : State → State)
    (blind : change (s.seeing ownOnly) = (change s).seeing ownOnly)
    (orphan : (change s).bindings.Orphan) : Seeing ownOnly (change s) (change t) :=
  ⟨orphan, by rw [h.same, blind]⟩

namespace Task
variable {α β : Type} {R : State → State → Prop} {V : α → Prop} {W : β → Prop}

/-- From related states the task goes in step with itself, to related states and a result
    of the kind. -/
def Yields (R : State → State → Prop) (V : α → Prop) (t : Task α) : Prop :=
  ∀ s s', R s s' → Step.Agree (fun a x b y => a = b ∧ V a ∧ R x y) R (t s) (t s')

theorem yields_pure {a : α} (h : V a) : (pure a : Task α).Yields R V := fun _ _ related =>
  .done ⟨rfl, h, related⟩

theorem Yields.bind {t : Task α} {f : α → Task β} (first : t.Yields R V)
    (rest : ∀ a, V a → (f a).Yields R W) : (t >>= f).Yields R W := by
  intro s s' related
  refine (first s s' related).bind ?_
  rintro a x _ y ⟨rfl, kind, next⟩
  exact rest a kind x y next

theorem Yields.then {t : Task α} {f : α → Task β} (first : t.Yields R V)
    (rest : ∀ a, V a → (f a).Respects R) : (t >>= f).Respects R := by
  intro s s' related
  refine (first s s' related).bind ?_
  rintro a x _ y ⟨rfl, kind, next⟩
  exact rest a kind x y next

theorem Respects.then {t : Task α} {f : α → Task β} (first : t.Respects R)
    (rest : ∀ a, (f a).Yields R W) : (t >>= f).Yields R W := by
  intro s s' related
  refine (first s s' related).bind ?_
  rintro a x _ y ⟨rfl, next⟩
  exact rest a x y next

theorem Yields.respects {t : Task α} (h : t.Yields R V) : t.Respects R := fun s s' related =>
  (h s s' related).mono (fun _ _ _ _ r => ⟨r.1, r.2.2⟩) fun _ _ early => early

theorem Respects.yields {t : Task α} (h : t.Respects R) : t.Yields R fun _ => True :=
  fun s s' related =>
    (h s s' related).mono (fun _ _ _ _ r => ⟨r.1, trivial, r.2⟩) fun _ _ early => early

theorem wait_respects (id : Nat) (label : Option String) :
    (wait id label).Respects (Seeing ownOnly) := fun _ _ h =>
  .waiting h (.done ⟨rfl, h⟩) (.done ⟨rfl, h.map (·.complete label) rfl h.orphan⟩)

theorem resolve_respects (v : Value) : (resolve v).Respects (Seeing ownOnly) :=
  resolve_closed (fun v => respects_pure v)
    (fun id label _ rest => (wait_respects id label).bind fun _ => rest) v

theorem settle_yields : ∀ v : Value, v.Orphan → (settle v).Yields (Seeing ownOnly) Value.Orphan
  | .deferred id label result, .deferred h =>
    (wait_respects id label).then fun _ => settle_yields result h
  | .undefined, h | .nil, h | .bool _, h | .int _, h | .float _, h | .str _, h | .array _, h
  | .object _, h | .drop _, h | .position _, h | .computed .., h => yields_pure h
termination_by structural v => v

mutual

theorem resolve_yields : ∀ v : Value, v.Orphan → (resolve v).Yields (Seeing ownOnly) Value.Orphan
  | .deferred id label result, .deferred h =>
    (wait_respects id label).then fun _ => resolve_yields result h
  | .drop ⟨_, _, _, _, _, whole⟩, .drop answers missing stands =>
    resolveWhole_yields (.drop answers missing stands) whole stands
  | .undefined, h | .nil, h | .bool _, h | .int _, h | .float _, h | .str _, h | .array _, h
  | .object _, h | .position _, h | .computed .., h => yields_pure h
termination_by structural v => v

theorem resolveWhole_yields {d : Drop} (h : Value.Orphan (.drop d)) :
    ∀ whole : Option Value, (∀ v ∈ whole, v.Orphan) →
      (resolveWhole d whole).Yields (Seeing ownOnly) Value.Orphan
  | none, _ => yields_pure h
  | some v, stands => resolve_yields v (stands v rfl)
termination_by structural whole => whole

end

theorem charge_respects (count : Nat) : (charge count).Respects (Seeing ownOnly) := by
  rintro s _ ⟨orphan, rfl⟩
  have memory : (s.seeing ownOnly).memory = s.memory := rfl
  unfold charge
  rw [memory]
  dsimp only
  split
  · exact .failed ⟨orphan, rfl⟩ (by simp)
  · exact .done ⟨rfl, orphan, rfl⟩

end Task

open Templating.Task (yields_pure respects_pure)

theorem checkDefined_respects (value : Value) (walked : List Value) :
    (checkDefined value walked).Respects (Seeing ownOnly) := by
  rintro s _ ⟨orphan, rfl⟩
  have strict : (s.seeing ownOnly).modes.strict = s.modes.strict := rfl
  unfold checkDefined
  rw [strict]
  split
  · exact .failed ⟨orphan, rfl⟩ (by simp)
  · exact .done ⟨rfl, orphan, rfl⟩

theorem read_agrees {s : State} (orphan : s.bindings.Orphan) {r r' : Read Value}
    (found : Read.Orphan r) (same : r' = r) :
    Step.Agree (fun a x b y => a = b ∧ a.Orphan ∧ Seeing ownOnly x y) (Seeing ownOnly)
      (Task.read r s) (Task.read r' (s.seeing ownOnly)) := by
  rw [same]
  exact .done ⟨rfl, found s.store, orphan, rfl⟩

theorem property_yields {receiver : Value} (h : receiver.Orphan) (key : Value) :
    (property receiver key).Yields (Seeing ownOnly) Value.Orphan := by
  refine (Task.settle_yields receiver h).bind fun receiver h => ?_
  refine (Task.resolve_respects key).then fun key => ?_
  rintro s _ ⟨orphan, rfl⟩
  exact read_agrees orphan (h.readProperty key s.modes.ownOnly) (h.readProperty_eq key _ _)

theorem follow_yields {value : Value} (h : value.Orphan) (walked keys : List Value) :
    (follow value walked keys).Yields (Seeing ownOnly) Value.Orphan := by
  induction keys generalizing value walked with
  | nil => exact yields_pure h
  | cons key rest ih =>
    refine (property_yields h key).bind fun next h => ?_
    refine (Task.settle_yields next h).bind fun next h => ?_
    exact (checkDefined_respects next _).then fun _ => ih h _

theorem readName_yields (name : String) :
    (readName name).Yields (Seeing ownOnly) Value.Orphan := by
  rintro s _ ⟨orphan, rfl⟩
  have owner := orphan.owner name
  exact read_agrees orphan (owner.read name s.modes.ownOnly) (owner.read_eq name _ _)

theorem lookup_yields (keys : List Value) :
    (lookup keys).Yields (Seeing ownOnly) Value.Orphan := by
  cases keys with
  | nil => exact yields_pure .undefined
  | cons first rest =>
    refine (Task.resolve_respects first).then fun key => ?_
    refine (readName_yields key.keyText).bind fun found h => ?_
    refine (Task.settle_yields found h).bind fun value h => ?_
    exact (checkDefined_respects value _).then fun _ => follow_yields h _ rest

theorem boundOf_respects (v : Value) : (boundOf v).Respects (Seeing ownOnly) :=
  (Task.resolve_respects v).bind fun v => respects_pure (v.asInteger?.getD 0)

theorem rangeElements_orphan (low high : Int64) :
    (Value.array (rangeElements low high)).Orphan := by
  refine .array fun v member => ?_
  obtain ⟨k, -, rfl⟩ := List.mem_map.mp member
  exact .int _

mutual

theorem Expr.evaluate_yields : ∀ e : Expr, e.evaluate.Yields (Seeing ownOnly) Value.Orphan
  | .literal l => yields_pure (.literal l)
  | .path root segments =>
    (segmentKeys_respects segments).then fun keys => lookup_yields (.str root :: keys)
  | .range low high => by
    refine (Expr.evaluate_yields low).respects.then fun low => ?_
    refine (boundOf_respects low).then fun low => ?_
    refine (Expr.evaluate_yields high).respects.then fun high => ?_
    refine (boundOf_respects high).then fun high => ?_
    exact (Task.charge_respects _).then fun _ => yields_pure (rangeElements_orphan low high)
termination_by structural e => e

theorem Segment.key_respects : ∀ s : Segment, s.key.Respects (Seeing ownOnly)
  | .name s => respects_pure (Value.str s)
  | .index e => (Expr.evaluate_yields e).respects
termination_by structural s => s

theorem segmentKeys_respects : ∀ segments : List Segment,
    (segmentKeys segments).Respects (Seeing ownOnly)
  | [] => respects_pure []
  | s :: rest =>
    (Segment.key_respects s).bind fun key => (segmentKeys_respects rest).bind fun keys =>
      respects_pure (key :: keys)
termination_by structural segments => segments

end

theorem NamedArgument.evaluate_yields (a : NamedArgument) :
    a.evaluate.Yields (Seeing ownOnly) Value.Orphan := by
  unfold NamedArgument.evaluate
  split
  · rename_i value _
    exact value.expr.evaluate_yields
  · exact yields_pure (.bool true)

theorem evaluateNamed_yields {before : Object} (h : before.Orphan) (named : List NamedArgument) :
    (evaluateNamed before named).Yields (Seeing ownOnly) Object.Orphan := by
  induction named generalizing before with
  | nil => exact yields_pure h
  | cons a rest ih => exact a.evaluate_yields.bind fun v orphan => ih (h.insert a.key orphan)

theorem Condition.evaluate_respects (c : Condition) : c.evaluate.Respects (Seeing ownOnly) := by
  induction c with
  | test left comparison =>
    refine left.expr.evaluate_yields.then fun v _ => (Task.resolve_respects v).bind fun v => ?_
    cases comparison with
    | none => exact respects_pure v.isTruthy
    | some pair =>
      obtain ⟨operator, right⟩ := pair
      refine right.expr.evaluate_yields.then fun w _ => (Task.resolve_respects w).bind fun w => ?_
      exact respects_pure (operator.holds v w)
  | both c d first second =>
    refine first.bind fun holds => ?_
    cases holds with
    | true => exact second
    | false => exact respects_pure false
  | either c d first second =>
    refine first.bind fun holds => ?_
    cases holds with
    | true => exact respects_pure true
    | false => exact second

end Templating
