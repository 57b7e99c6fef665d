import Templating.Engine
import Templating.Proofs.Task.Waiting
import Templating.Proofs.Template.Observation
import Templating.Proofs.Value.Wrapping

/-!
Wrapped data. Around any value of the data, at any depth, there may be deferred values that are
completed from the start.
-/
namespace Templating

open Booked (lift asks)

variable (wrappers : Nat → Bool)

def Bindings.unwrap (b : Bindings) : Bindings where
  inner := b.inner.map (Object.unwrap wrappers)
  bottom := b.bottom.unwrap wrappers
  data := b.data.unwrap wrappers
  globals := b.globals.unwrap wrappers

def State.unwrap (s : State) : State := s.mapBindings (Bindings.unwrap wrappers)

/-- The use does not look at a wrapper. A read looks at the keys walked to a value that is
    absent: they may be named in an error. -/
def Use.Bare : Use → Prop
  | .reading walked value => value.isUndefined = true → ∀ key ∈ walked, key.Bare wrappers
  | .key v => v.Bare wrappers
  | .printing v => v.Bare wrappers
  | .comparing _ left right => left.Bare wrappers ∧ right.Bare wrappers
  | .counting entry => ∀ v ∈ entry, v.Bare wrappers

def Use.clear : Use → Bool
  | .reading walked value => !value.isUndefined || walked.all (Value.clear wrappers)
  | .key v => v.clear wrappers
  | .printing v => v.clear wrappers
  | .comparing _ left right => left.clear wrappers && right.clear wrappers
  | .counting entry => entry.all (Value.clear wrappers)

theorem Use.bare_of_clear (use : Use) (clear : use.clear wrappers = true) : use.Bare wrappers := by
  cases use with
  | reading walked value =>
    intro absent key member
    rw [Use.clear, absent, Bool.not_true, Bool.false_or, List.all_eq_true] at clear
    exact key.bare_of_clear (clear key member)
  | key v => exact v.bare_of_clear clear
  | printing v => exact v.bare_of_clear clear
  | comparing _ left right =>
    rw [Use.clear, Bool.and_eq_true] at clear
    exact ⟨left.bare_of_clear clear.1, right.bare_of_clear clear.2⟩
  | counting entry =>
    intro v found
    rw [Use.clear, Option.mem_def.mp found] at clear
    exact v.bare_of_clear clear

theorem Use.bare_of_all {uses : List (Use × State)}
    (clear : uses.all (·.1.clear wrappers) = true) : ∀ n ∈ uses, n.1.Bare wrappers :=
  fun n member => n.1.bare_of_clear wrappers (List.all_eq_true.mp clear n member)

variable {wrappers} {α β γ δ : Type}

namespace Ledger

/-- The computation goes the way of the trail over unwrapped values. It does not stop where the
    trail waits for a wrapper, and may go another way behind a use of one. -/
inductive Unwraps (wrappers : Nat → Bool) (Q : α → β → Prop) : Trail α → Step β → Prop where
  | done {a : α} {b : β} {s : State} (h : Q a b) :
      Unwraps wrappers Q (.done a s) (.done b (s.unwrap wrappers))
  | failed {e : EvalError} {s : State} :
      Unwraps wrappers Q (.failed e s) (.failed e (s.unwrap wrappers))
  | waiting {id : Nat} {label : Option String} {s : State} {unwind unwind' : State → State}
      {resume : State → Trail α} {resume' : State → Step β}
      (abandoned : unwind' (s.unwrap wrappers) = (unwind s).unwrap wrappers)
      (ready : Unwraps wrappers Q (resume s) (resume' (s.unwrap wrappers)))
      (completed : Unwraps wrappers Q (resume (s.complete label))
        (resume' ((s.unwrap wrappers).complete label))) :
      Unwraps wrappers Q (.waiting id label s unwind resume)
        (.waiting id label (s.unwrap wrappers) unwind' resume')
  | skipped {id : Nat} {label : Option String} {s : State} {unwind : State → State}
      {resume : State → Trail α} {y : Step β} (wrapper : wrappers id = true)
      (ready : Unwraps wrappers Q (resume s) y) :
      Unwraps wrappers Q (.waiting id label s unwind resume) y
  | noting {use : Use} {s : State} {x : Trail α} {y : Step β}
      (rest : use.Bare wrappers → Unwraps wrappers Q x y) :
      Unwraps wrappers Q (.entry (use, s) x) y

namespace Unwraps
variable {Q : α → β → Prop} {P : γ → δ → Prop} {x : Trail α} {y : Step β}

theorem bind {next : α → State → Trail γ} {next' : β → State → Step δ}
    (h : x.Unwraps wrappers Q y)
    (step : ∀ a b s, Q a b → (next a s).Unwraps wrappers P (next' b (s.unwrap wrappers))) :
    (x.bind next).Unwraps wrappers P (y.bind next') := by
  induction h with
  | done h => exact step _ _ _ h
  | failed => exact .failed
  | waiting abandoned _ _ ready completed => exact .waiting abandoned ready completed
  | skipped wrapper _ ready => exact .skipped wrapper ready
  | noting _ rest => exact .noting rest

theorem ensuring {cleanup : State → State} (h : x.Unwraps wrappers Q y)
    (closes : ∀ s, cleanup (s.unwrap wrappers) = (cleanup s).unwrap wrappers) :
    (x.ensuring cleanup).Unwraps wrappers Q (y.ensuring cleanup) := by
  induction h with
  | done h =>
    simp only [Ledger.ensuring, Step.ensuring, closes]
    exact .done h
  | failed =>
    simp only [Ledger.ensuring, Step.ensuring, closes]
    exact .failed
  | waiting abandoned _ _ ready completed =>
    refine .waiting ?_ ready completed
    rw [Function.comp_apply, abandoned, closes, Function.comp_apply]
  | skipped wrapper _ ready => exact .skipped wrapper ready
  | noting _ rest => exact .noting rest

/-- A run that makes no use of a wrapper stops where the run over unwrapped values does. -/
theorem runWaiting {x : Trail α} {y : Step α} (h : x.Unwraps wrappers Eq y) (polls : Nat)
    {schedule : Schedule} (there : ∀ id, wrappers id = true → schedule.progress id = .completed)
    (bare : ∀ n ∈ x.entries polls schedule, n.1.Bare wrappers) :
    let run := x.erase.runWaiting polls schedule
    y.runWaiting polls schedule = { run with state := run.state.unwrap wrappers } := by
  induction h generalizing polls schedule with
  | done h => rw [← h]; rfl
  | failed => rfl
  | @waiting id label s unwind unwind' resume resume' abandoned _ _ ready completed =>
    simp only [Ledger.erase, Step.runWaiting, Ledger.entries] at bare ⊢
    cases progress : schedule.progress id with
    | completed =>
      rw [progress] at bare
      exact ready polls there bare
    | never => simp only [abandoned]
    | pending needed =>
      rw [progress] at bare
      by_cases enough : needed < polls
      · simp only [enough, if_true] at bare ⊢
        refine completed _ (fun i wrapper => ?_) bare
        rw [Schedule.progress_set]
        split
        · rfl
        · exact there i wrapper
      · simp only [enough, if_false, abandoned]
  | skipped wrapper _ ready =>
    simp only [Ledger.erase, Step.runWaiting, Ledger.entries, there _ wrapper] at bare ⊢
    exact ready polls there bare
  | noting _ rest =>
    rw [Ledger.entries, List.forall_mem_cons] at bare
    exact rest bare.1 polls there bare.2

theorem runNow {x : Trail α} {y : Step α} (h : x.Unwraps wrappers Eq y) {schedule : Schedule}
    (there : ∀ id, wrappers id = true → schedule.progress id = .completed)
    (bare : ∀ n ∈ x.entries 1 schedule, n.1.Bare wrappers) :
    let run := x.erase.runNow schedule
    y.runNow schedule = { run with state := run.state.unwrap wrappers } := by
  have waited := h.runWaiting 1 there bare
  simp only [Step.runNow_eq, waited]
  cases ending : (x.erase.runWaiting 1 schedule).ending <;> simp only [Run.refused, ending]

end Unwraps
end Ledger

namespace Bindings

theorem owner_unwrap (b : Bindings) (name : String) :
    (b.unwrap wrappers).owner name = (b.owner name).unwrap wrappers := by
  have scopes : (b.unwrap wrappers).scopes = b.scopes.map (Object.unwrap wrappers) := by
    simp only [Bindings.scopes, Bindings.unwrap, List.map_append, List.map_cons, List.map_nil]
  simp only [Bindings.owner, scopes, List.find?_map, Function.comp_def, Object.hasOwn_unwrap]
  cases b.scopes.find? (·.hasOwn name) with
  | some scope => rfl
  | none =>
    simp only [Option.map_none, Bindings.unwrap, Object.contains_unwrap]
    split <;> rfl

theorem pop_unwrap (b : Bindings) : (b.unwrap wrappers).pop = b.pop.unwrap wrappers := by
  simp only [pop, Bindings.unwrap, List.map_tail]

theorem bindTop_unwrap (b : Bindings) (name : String) (v : Value) :
    (b.unwrap wrappers).bindTop name (v.unwrap wrappers)
      = (b.bindTop name v).unwrap wrappers := by
  obtain ⟨inner, bottom, data, globals⟩ := b
  cases inner with
  | nil => simp only [bindTop, mapTop, Bindings.unwrap, List.map_nil, Object.insert_unwrap]
  | cons top rest =>
    simp only [bindTop, mapTop, Bindings.unwrap, List.map_cons, Object.insert_unwrap]

theorem bindBottom_unwrap (b : Bindings) (name : String) (v : Value) :
    (b.unwrap wrappers).bindBottom name (v.unwrap wrappers)
      = (b.bindBottom name v).unwrap wrappers := by
  simp only [bindBottom, Bindings.unwrap, Object.insert_unwrap]

theorem bindData_unwrap (b : Bindings) (name : String) (v : Value) :
    (b.unwrap wrappers).bindData name (v.unwrap wrappers)
      = (b.bindData name v).unwrap wrappers := by
  simp only [bindData, Bindings.unwrap, Object.insert_unwrap]

end Bindings

def Booked.Unwraps (wrappers : Nat → Bool) (Q : α → β → Prop) (t : Observed α) (u : Task β) :
    Prop :=
  ∀ s, (t s).Unwraps wrappers Q (u (s.unwrap wrappers))

namespace Booked
variable {Q : α → β → Prop} {P : γ → δ → Prop}

theorem unwraps_pure {a : α} {b : β} (h : Q a b) :
    (pure a : Observed α).Unwraps wrappers Q (pure b) := fun _ => .done h

theorem Unwraps.bind {t : Observed α} {u : Task β} {f : α → Observed γ} {g : β → Task δ}
    (first : t.Unwraps wrappers Q u) (rest : ∀ a b, Q a b → (f a).Unwraps wrappers P (g b)) :
    (t >>= f).Unwraps wrappers P (u >>= g) := fun s =>
  (first s).bind fun a b x h => rest a b h x

theorem unwraps_note {use : Use} {t : Observed α} {u : Task β}
    (rest : use.Bare wrappers → t.Unwraps wrappers Q u) :
    (note use >>= fun _ => t).Unwraps wrappers Q u := fun s => .noting fun bare => rest bare s

theorem Unwraps.within {t : Observed α} {u : Task β} (h : t.Unwraps wrappers Q u)
    (scope : Object) :
    (within scope t).Unwraps wrappers Q (Task.within (scope.unwrap wrappers) u) := fun s =>
  (h (s.mapBindings (·.push scope))).ensuring fun x =>
    congrArg (fun b => { x with bindings := b }) x.bindings.pop_unwrap

theorem unwraps_choose {f : State → Bool} {x y : Observed α} {x' y' : Task β}
    (blind : ∀ s, f (s.unwrap wrappers) = f s) (yes : x.Unwraps wrappers Q x')
    (no : y.Unwraps wrappers Q y') :
    Unwraps wrappers Q (do let b ← asks f; if b then x else y)
      (do let s ← Task.state; if f s then x' else y') := by
  intro s
  change Ledger.Unwraps wrappers Q ((if f s then x else y : Observed α) s)
    ((if f (s.unwrap wrappers) then x' else y' : Task β) (s.unwrap wrappers))
  rw [blind]
  split
  · exact yes s
  · exact no s

theorem unwraps_step {t : Task α} {u : Task β} (f : State → α) (f' : State → β)
    (g : State → State) (left : ∀ s, t s = .done (f s) (g s))
    (right : ∀ s, u (s.unwrap wrappers) = .done (f' s) ((g s).unwrap wrappers))
    (h : ∀ s, Q (f s) (f' s)) : (lift t).Unwraps wrappers Q u := by
  intro s
  simp only [lift, left, right]
  exact .done (h s)

theorem unwraps_blind {t : Task α} (f : State → α) (g : State → State)
    (left : ∀ s, t s = .done (f s) (g s))
    (right : ∀ s, t (s.unwrap wrappers) = .done (f s) ((g s).unwrap wrappers)) :
    (lift t).Unwraps wrappers Eq t := unwraps_step f f g left right fun _ => rfl

theorem unwraps_wait {id : Nat} {label : Option String} {t : Task α} {u : Task β}
    (h : (lift t).Unwraps wrappers Q u) :
    (lift do Task.wait id label; t).Unwraps wrappers Q (do Task.wait id label; u) := fun s =>
  .waiting rfl (h s) (h (s.complete label))

theorem unwraps_skip {id : Nat} {label : Option String} {t : Task α} {u : Task β}
    (wrapper : wrappers id = true) (h : (lift t).Unwraps wrappers Q u) :
    (lift do Task.wait id label; t).Unwraps wrappers Q u := fun s => .skipped wrapper (h s)

end Booked

open Booked (unwraps_pure unwraps_note unwraps_choose unwraps_step unwraps_blind unwraps_wait
  unwraps_skip)

/-- A value that is not deferred any more, and the same value without wrappers. -/
structure Uncovered (wrappers : Nat → Bool) (v v' : Value) : Prop where
  settled : v.Settled
  unwrapped : v' = v.unwrap wrappers

theorem unwrap_deferred (id : Nat) (label : Option String) (result : Value) :
    (Value.deferred id label result).unwrap wrappers
        = .deferred id label (result.unwrap wrappers)
      ∨ wrappers id = true
        ∧ (Value.deferred id label result).unwrap wrappers = result.unwrap wrappers := by
  rw [Value.unwrap]
  split
  · rename_i wrapper
    cases result.unwrap wrappers with
    | undefined => exact .inl rfl
    | computed => exact .inl rfl
    | _ => exact .inr ⟨wrapper, rfl⟩
  · exact .inl rfl

theorem unwraps_settle : ∀ v : Value,
    (lift (Task.settle v)).Unwraps wrappers (Uncovered wrappers)
      (Task.settle (v.unwrap wrappers))
  | .deferred id label result => by
    have inside := unwraps_settle result
    rcases unwrap_deferred id label result with kept | ⟨wrapper, gone⟩
    · rw [kept]
      exact unwraps_wait inside
    · rw [gone]
      exact unwraps_skip wrapper inside
  | .undefined => unwraps_pure ⟨trivial, rfl⟩
  | .nil => unwraps_pure ⟨trivial, rfl⟩
  | .bool _ => unwraps_pure ⟨trivial, rfl⟩
  | .int _ => unwraps_pure ⟨trivial, rfl⟩
  | .float _ => unwraps_pure ⟨trivial, rfl⟩
  | .str _ => unwraps_pure ⟨trivial, rfl⟩
  | .array _ => unwraps_pure ⟨trivial, rfl⟩
  | .object _ => unwraps_pure ⟨trivial, rfl⟩
  | .drop _ => unwraps_pure ⟨trivial, rfl⟩
  | .position _ => unwraps_pure ⟨trivial, rfl⟩
  | .computed .. => unwraps_pure ⟨trivial, rfl⟩
termination_by structural v => v

mutual

theorem unwraps_resolve : ∀ v : Value,
    (lift (Task.resolve v)).Unwraps wrappers (Uncovered wrappers)
      (Task.resolve (v.unwrap wrappers))
  | .deferred id label result => by
    have inside := unwraps_resolve result
    rcases unwrap_deferred id label result with kept | ⟨wrapper, gone⟩
    · rw [kept]
      exact unwraps_wait inside
    · rw [gone]
      exact unwraps_skip wrapper inside
  | .drop ⟨_, _, _, _, _, whole⟩ => unwraps_resolveWhole _ whole
  | .undefined => unwraps_pure ⟨trivial, rfl⟩
  | .nil => unwraps_pure ⟨trivial, rfl⟩
  | .bool _ => unwraps_pure ⟨trivial, rfl⟩
  | .int _ => unwraps_pure ⟨trivial, rfl⟩
  | .float _ => unwraps_pure ⟨trivial, rfl⟩
  | .str _ => unwraps_pure ⟨trivial, rfl⟩
  | .array _ => unwraps_pure ⟨trivial, rfl⟩
  | .object _ => unwraps_pure ⟨trivial, rfl⟩
  | .position _ => unwraps_pure ⟨trivial, rfl⟩
  | .computed .. => unwraps_pure ⟨trivial, rfl⟩
termination_by structural v => v

theorem unwraps_resolveWhole (d : Drop) : ∀ whole : Option Value,
    (lift (Task.resolveWhole d whole)).Unwraps wrappers (Uncovered wrappers)
      (Task.resolveWhole (d.unwrap wrappers) (unwrapAnswer wrappers whole))
  | none => unwraps_pure ⟨trivial, rfl⟩
  | some v => unwraps_resolve v
termination_by structural whole => whole

end

def Stripped (wrappers : Nat → Bool) (v v' : Value) : Prop := v' = v.unwrap wrappers

theorem unwraps_read (r r' : State → Read Value)
    (same : ∀ s, r' (s.unwrap wrappers) = unwrapRead wrappers (r s)) :
    (lift fun s => Task.read (r s) s).Unwraps wrappers (Stripped wrappers)
      fun s => Task.read (r' s) s := by
  refine unwraps_step (fun s => (r s s.store).1) (fun s => ((r s s.store).1).unwrap wrappers)
    (fun s => { s with store := (r s s.store).2 }) (fun _ => rfl) (fun s => ?_) fun _ => rfl
  have read : (r' (s.unwrap wrappers)) s.store
      = (((r s s.store).1).unwrap wrappers, (r s s.store).2) := by rw [same]; rfl
  change Step.done ((r' (s.unwrap wrappers)) s.store).1
    { s.unwrap wrappers with store := ((r' (s.unwrap wrappers)) s.store).2 } = _
  rw [read]
  rfl

theorem unwraps_property (receiver key : Value) :
    (observeProperty receiver key).Unwraps wrappers (Stripped wrappers)
      (property (receiver.unwrap wrappers) (key.unwrap wrappers)) := by
  refine (unwraps_settle receiver).bind fun receiver _ opened => ?_
  obtain ⟨settled, rfl⟩ := opened
  refine (unwraps_resolve key).bind fun key _ resolved => ?_
  obtain ⟨-, rfl⟩ := resolved
  refine unwraps_note fun bare => ?_
  rw [show key.unwrap wrappers = key from bare]
  exact unwraps_read (fun s => readProperty receiver key s.modes.ownOnly) _
    fun s => readProperty_unwrap settled key s.modes.ownOnly

theorem unwraps_reading (value : Value) (walked : List Value) :
    (observeReading value walked).Unwraps wrappers Eq
      (checkDefined (value.unwrap wrappers) (walked.map (Value.unwrap wrappers))) := by
  refine unwraps_note fun bare s => ?_
  have strict : (s.unwrap wrappers).modes.strict = s.modes.strict := rfl
  simp only [lift, checkDefined, strict, Value.isUndefined_unwrap]
  split
  · rename_i absent
    have same : walked.map (Value.unwrap wrappers) = walked := by
      refine (List.map_congr_left fun key member => ?_).trans (List.map_id walked)
      exact bare (Bool.and_eq_true_iff.mp absent).2 key member
    rw [same]
    exact .failed
  · exact .done rfl

theorem unwraps_follow {value : Value} (settled : value.Settled) (walked keys : List Value) :
    (observeFollow value walked keys).Unwraps wrappers (Uncovered wrappers)
      (follow (value.unwrap wrappers) (walked.map (Value.unwrap wrappers))
        (keys.map (Value.unwrap wrappers))) := by
  induction keys generalizing value walked with
  | nil => exact unwraps_pure ⟨settled, rfl⟩
  | cons key rest ih =>
    refine (unwraps_property value key).bind fun next _ read => ?_
    rw [show _ = next.unwrap wrappers from read]
    refine (unwraps_settle next).bind fun next _ opened => ?_
    obtain ⟨settled, rfl⟩ := opened
    have walk : (walked ++ [key]).map (Value.unwrap wrappers)
        = walked.map (Value.unwrap wrappers) ++ [key.unwrap wrappers] := List.map_append
    have further := ih settled (walked ++ [key])
    rw [walk] at further
    exact (walk ▸ unwraps_reading next (walked ++ [key])).bind fun _ _ _ => further

theorem unwraps_lookup (root : String) (keys : List Value) :
    (observeLookup root keys).Unwraps wrappers (Uncovered wrappers)
      (lookup (.str root :: keys.map (Value.unwrap wrappers))) := by
  rw [lookup_root]
  let named := fun s : State => (s.bindings.owner root).read root s.modes.ownOnly
  have found : (lift (readName root)).Unwraps wrappers (Stripped wrappers) (readName root) :=
    unwraps_read named named fun s => by
      change ((s.bindings.unwrap wrappers).owner root).read root s.modes.ownOnly = _
      rw [Bindings.owner_unwrap, Object.read_unwrap]
  refine found.bind fun found _ read => ?_
  rw [show _ = found.unwrap wrappers from read]
  refine (unwraps_settle found).bind fun value _ opened => ?_
  obtain ⟨settled, rfl⟩ := opened
  exact (unwraps_reading value [.str root]).bind fun _ _ _ => unwraps_follow settled _ keys

theorem unwraps_boundOf (v : Value) :
    (lift (boundOf v)).Unwraps wrappers Eq (boundOf (v.unwrap wrappers)) := by
  rw [boundOf, Booked.lift_bind]
  refine (unwraps_resolve v).bind fun v _ resolved => ?_
  obtain ⟨settled, rfl⟩ := resolved
  rw [Value.asInteger?_unwrap settled]
  exact unwraps_pure rfl

theorem unwraps_charge (count : Nat) :
    (lift (Task.charge count)).Unwraps wrappers Eq (Task.charge count) := by
  intro s
  have memory : (s.unwrap wrappers).memory = s.memory := rfl
  simp only [lift, Task.charge, memory]
  split
  · exact .failed
  · exact .done rfl

theorem unwraps_checkTime :
    (lift Task.checkTime).Unwraps wrappers Eq Task.checkTime := by
  intro s
  have looked : (s.unwrap wrappers).look = s.look.unwrap wrappers := rfl
  have time : ∀ t : State, (t.unwrap wrappers).time = t.time := fun _ => rfl
  simp only [lift, Task.checkTime, looked, time]
  split
  · exact .failed
  · exact .done rfl

theorem rangeElements_unwrap (low high : Int64) :
    (Value.array (rangeElements low high)).unwrap wrappers = .array (rangeElements low high) := by
  rw [Value.unwrap, unwrapItems_eq, rangeElements, List.map_map]
  rfl

theorem toValue_uncovered (l : Literal) : Uncovered wrappers l.toValue l.toValue := by
  cases l <;> exact ⟨trivial, rfl⟩

mutual

theorem Expr.unwraps_observe : ∀ e : Expr,
    e.observe.Unwraps wrappers (Uncovered wrappers) e.evaluate
  | .literal l => unwraps_pure (toValue_uncovered l)
  | .path root segments =>
    (unwraps_keys segments).bind fun keys keys' same => by
      rw [same]
      exact unwraps_lookup root keys
  | .range low high => by
    refine (Expr.unwraps_observe low).bind fun low _ opened => ?_
    obtain ⟨-, rfl⟩ := opened
    refine (unwraps_boundOf low).bind fun first _ same => ?_
    subst same
    refine (Expr.unwraps_observe high).bind fun high _ opened => ?_
    obtain ⟨-, rfl⟩ := opened
    refine (unwraps_boundOf high).bind fun last _ same => ?_
    subst same
    refine (unwraps_charge _).bind fun _ _ _ => ?_
    exact unwraps_pure ⟨trivial, (rangeElements_unwrap first last).symm⟩
termination_by structural e => e

theorem Segment.unwraps_observe : ∀ s : Segment,
    s.observe.Unwraps wrappers (Uncovered wrappers) s.key
  | .name _ => unwraps_pure ⟨trivial, rfl⟩
  | .index e => Expr.unwraps_observe e
termination_by structural s => s

theorem unwraps_keys : ∀ segments : List Segment,
    (observeKeys segments).Unwraps wrappers
      (fun keys keys' => keys' = keys.map (Value.unwrap wrappers)) (segmentKeys segments)
  | [] => unwraps_pure rfl
  | s :: rest =>
    (Segment.unwraps_observe s).bind fun key _ opened => (unwraps_keys rest).bind fun keys _ same =>
      unwraps_pure (by rw [opened.unwrapped, same, List.map_cons])
termination_by structural segments => segments

end

theorem NamedArgument.unwraps_observe (a : NamedArgument) :
    a.observe.Unwraps wrappers (Uncovered wrappers) a.evaluate := by
  unfold NamedArgument.observe NamedArgument.evaluate
  cases a.value with
  | none => exact unwraps_pure ⟨trivial, rfl⟩
  | some v => exact v.expr.unwraps_observe

theorem unwraps_named {before : Object} (settled : before.Settled) (named : List NamedArgument) :
    (observeNamed before named).Unwraps wrappers
      (fun o o' => o.Settled ∧ o' = o.unwrap wrappers)
      (evaluateNamed (before.unwrap wrappers) named) := by
  induction named generalizing before with
  | nil => exact unwraps_pure ⟨settled, rfl⟩
  | cons a rest ih =>
    refine a.unwraps_observe.bind fun v _ opened => ?_
    obtain ⟨ready, rfl⟩ := opened
    rw [← Object.insert_unwrap]
    exact ih (settled.insert a.key ready)

theorem Condition.unwraps_observe (c : Condition) :
    c.observe.Unwraps wrappers Eq c.evaluate := by
  induction c with
  | test left comparison =>
    cases comparison with
    | none =>
      refine left.expr.unwraps_observe.bind fun v _ opened => ?_
      obtain ⟨-, rfl⟩ := opened
      refine (unwraps_resolve v).bind fun v _ resolved => ?_
      obtain ⟨settled, rfl⟩ := resolved
      exact unwraps_pure (Value.isTruthy_unwrap settled).symm
    | some pair =>
      obtain ⟨operator, right⟩ := pair
      refine left.expr.unwraps_observe.bind fun v _ opened => ?_
      obtain ⟨-, rfl⟩ := opened
      refine (unwraps_resolve v).bind fun v _ resolved => ?_
      obtain ⟨-, rfl⟩ := resolved
      refine right.expr.unwraps_observe.bind fun w _ opened => ?_
      obtain ⟨-, rfl⟩ := opened
      refine (unwraps_resolve w).bind fun w _ resolved => ?_
      obtain ⟨-, rfl⟩ := resolved
      refine unwraps_note fun bare => unwraps_pure ?_
      rw [show v.unwrap wrappers = v from bare.1, show w.unwrap wrappers = w from bare.2]
  | both c d first second =>
    refine first.bind fun holds _ same => ?_
    subst same
    cases holds with
    | true => exact second
    | false => exact unwraps_pure rfl
  | either c d first second =>
    refine first.bind fun holds _ same => ?_
    subst same
    cases holds with
    | true => exact unwraps_pure rfl
    | false => exact second

theorem unwraps_output (value : Option Argument) :
    (observeOutput value).Unwraps wrappers Eq (renderOutput value) := by
  cases value with
  | none => exact unwraps_pure rfl
  | some a =>
    refine a.expr.unwraps_observe.bind fun v _ opened => ?_
    obtain ⟨-, rfl⟩ := opened
    refine (unwraps_resolve v).bind fun v _ resolved => ?_
    obtain ⟨-, rfl⟩ := resolved
    refine unwraps_note fun bare => ?_
    rw [show v.unwrap wrappers = v from bare]
    exact unwraps_blind (fun _ => ()) (·.write v.text) (fun _ => rfl) fun _ => rfl

theorem unwraps_assign (name : String) (value : Argument) :
    (observeAssign name value).Unwraps wrappers Eq (renderAssign name value) := by
  refine value.expr.unwraps_observe.bind fun v _ opened => ?_
  obtain ⟨-, rfl⟩ := opened
  refine unwraps_step (fun _ => ()) (fun _ => ()) (·.mapBindings (·.bindBottom name v))
    (fun _ => rfl) (fun s => ?_) fun _ => rfl
  exact congrArg (fun b => Step.done () { s with bindings := b })
    (s.bindings.bindBottom_unwrap name v)

theorem counterAfter_unwrap (delta : Int) (data : Object) (name : String) :
    (counterAfter delta (counterBefore data name)).unwrap wrappers
      = counterAfter delta (counterBefore data name) := by
  unfold counterBefore
  split <;> rfl

theorem unwraps_count (name : String) (delta : Int) (showsBefore : Bool) :
    (observeCount name delta showsBefore).Unwraps wrappers Eq (count name delta showsBefore) := by
  refine fun s => .noting fun bare => ?_
  have entry : (s.bindings.data.unwrap wrappers).own? name = s.bindings.data.own? name := by
    rw [Object.own?_unwrap]
    cases found : s.bindings.data.own? name with
    | none => rfl
    | some v => exact congrArg some (bare v found)
  have before : counterBefore (s.unwrap wrappers).bindings.data name
      = counterBefore s.bindings.data name := by
    rw [counterBefore, show (s.unwrap wrappers).bindings.data.own? name = _ from entry,
      counterBefore]
  let after := counterAfter delta (counterBefore s.bindings.data name)
  let text := if showsBefore then (counterBefore s.bindings.data name).text else after.text
  have bound : ((s.unwrap wrappers).mapBindings (·.bindData name after)).write text
      = ((s.mapBindings (·.bindData name after)).write text).unwrap wrappers := by
    have data : (s.bindings.unwrap wrappers).bindData name (after.unwrap wrappers)
        = (s.bindings.bindData name after).unwrap wrappers := s.bindings.bindData_unwrap name after
    rw [counterAfter_unwrap] at data
    exact congrArg (fun b => State.write { s with bindings := b } text) data
  unfold count
  rw [before]
  change Ledger.Unwraps wrappers Eq (.done () _)
    (.done () (((s.unwrap wrappers).mapBindings (·.bindData name after)).write text))
  rw [bound]
  exact .done rfl

theorem unwraps_iterate (name : String) (position : LoopPosition) {body : Observed Unit}
    {task : Task Unit} (inside : body.Unwraps wrappers Eq task) (items : List Value) :
    (observeIterate name position body items).Unwraps wrappers Eq
      (iterate name position task (items.map (Value.unwrap wrappers))) := by
  induction items with
  | nil => exact unwraps_pure rfl
  | cons item rest ih =>
    have entered : (lift (enterElement name item)).Unwraps wrappers Eq
        (enterElement name (item.unwrap wrappers)) :=
      unwraps_step (fun _ => ()) (fun _ => ())
        (fun s => (s.mapBindings (·.bindTop name item)).clearJumps) (fun _ => rfl)
        (fun s => congrArg (fun b => Step.done () (State.clearJumps { s with bindings := b }))
          (s.bindings.bindTop_unwrap name item)) fun _ => rfl
    refine entered.bind fun _ _ _ => inside.bind fun _ _ _ => ?_
    have stepped : (lift (stepLoop position)).Unwraps wrappers Eq (stepLoop position) :=
      unwraps_blind (fun _ => ()) (fun s => { s with store := s.store.step position.id })
        (fun _ => rfl) fun _ => rfl
    exact unwraps_choose (fun _ => rfl) (unwraps_pure rfl) (stepped.bind fun _ _ _ => ih)

theorem unwraps_opening (header : LoopHeader) (items : List Value) :
    (observeOpening header items).Unwraps wrappers
      (fun opened opened' => opened' = (opened.1, opened.2.map (Value.unwrap wrappers)))
      (openLoop header (items.map (Value.unwrap wrappers))) := by
  have cell : (lift offsetsCell).Unwraps wrappers Eq offsetsCell :=
    unwraps_blind (fun s => (s.registers.get .offsets offsetsRegister).1)
      (fun s => { s with registers := (s.registers.get .offsets offsetsRegister).2 })
      (fun _ => rfl) fun _ => rfl
  refine cell.bind fun cell _ same => ?_
  subst same
  have recalled : (lift (recallOffset cell header.continueKey)).Unwraps wrappers
      (Stripped wrappers) (recallOffset cell header.continueKey) :=
    unwraps_step _ (fun s =>
        .int (((s.registers.offsetsAt cell).lookup header.continueKey).getD 0)) (fun s => s)
      (fun _ => rfl) (fun _ => rfl) fun _ => rfl
  refine recalled.bind fun previous _ same => ?_
  rw [show _ = previous.unwrap wrappers from same]
  refine ((unwraps_named Object.settled_empty header.modifiers).within
    (.single "continue" previous)).bind fun modifiers _ found => ?_
  obtain ⟨settled, rfl⟩ := found
  dsimp only
  rw [select_unwrap header.ordered settled items, resumeAt_unwrap settled, List.length_map]
  generalize select header.ordered modifiers items = selected
  have recorded : ∀ n, (lift (recordOffset cell header.continueKey n)).Unwraps wrappers Eq
      (recordOffset cell header.continueKey n) := fun n =>
    unwraps_blind (fun _ => ()) (fun s =>
      let entries := storeOffset header.continueKey n (s.registers.offsetsAt cell)
      { s with registers := s.registers.write cell (.offsets entries) })
      (fun _ => rfl) fun _ => rfl
  have begun : ∀ n, (lift (beginLoop n header)).Unwraps wrappers Eq (beginLoop n header) :=
    fun n => unwraps_blind
      (fun s => .make s.store.begin.1 n header.variableName header.collection.text)
      (fun s => { s with store := s.store.begin.2 }) (fun _ => rfl) fun _ => rfl
  refine (recorded _).bind fun _ _ _ => (begun _).bind fun position _ same => ?_
  subst same
  exact unwraps_pure rfl

theorem unwraps_visit (header : LoopHeader) (items : List Value) {body : Observed Unit}
    {task : Task Unit} (inside : body.Unwraps wrappers Eq task) :
    (observeVisit header items body).Unwraps wrappers Eq
      (visit header (items.map (Value.unwrap wrappers)) task) := by
  rw [visit_eq]
  refine (unwraps_opening header items).bind fun opened _ same => ?_
  rw [same]
  refine Booked.Unwraps.within ?_ (loopScope opened.1)
  refine (unwraps_iterate header.variableName opened.1 inside opened.2).bind fun _ _ _ => ?_
  exact unwraps_blind (fun _ => ()) State.clearJumps (fun _ => rfl) fun _ => rfl

theorem unwraps_loop (header : LoopHeader) {body otherwise : Observed Unit}
    {task instead : Task Unit} (inside : body.Unwraps wrappers Eq task)
    (other : otherwise.Unwraps wrappers Eq instead) :
    (observeLoop header body otherwise).Unwraps wrappers Eq (renderLoop header task instead) := by
  refine header.collection.expr.unwraps_observe.bind fun v _ opened => ?_
  obtain ⟨-, rfl⟩ := opened
  refine (unwraps_resolve v).bind fun v _ resolved => ?_
  obtain ⟨settled, rfl⟩ := resolved
  rw [Value.elements_unwrap settled]
  cases v.elements with
  | nil => exact other
  | cons item rest => exact unwraps_visit header (item :: rest) inside

theorem unwraps_sequence {first rest : Observed Unit} {task later : Task Unit}
    (h : first.Unwraps wrappers Eq task) (next : rest.Unwraps wrappers Eq later) :
    (observeSequence first rest).Unwraps wrappers Eq (sequence task later) :=
  unwraps_checkTime.bind fun _ _ _ => h.bind fun _ _ _ =>
    unwraps_choose (fun _ => rfl) (unwraps_pure rfl) next

theorem unwraps_branch (condition : Condition) {body rest : Observed Unit}
    {task later : Task Unit} (taken : body.Unwraps wrappers Eq task)
    (other : rest.Unwraps wrappers Eq later) :
    (observeBranch condition body rest).Unwraps wrappers Eq (branch condition task later) := by
  refine condition.unwraps_observe.bind fun holds _ same => ?_
  subst same
  cases holds with
  | true => exact taken
  | false => exact other

/-- An observed task that does the same over unwrapped values. -/
def Booked.Transparent (wrappers : Nat → Bool) (t : Observed Unit) : Prop :=
  t.Unwraps wrappers Eq t.erase

/-- A custom node whose view shows what it does, and which makes no use of values that the
    view does not note. -/
structure Custom.Transparent (c : Custom) (wrappers : Nat → Bool) (view : View) : Prop where
  shows : view.Shows c
  transparent : ∀ parts : List (Observed Unit), (∀ part ∈ parts, part.Transparent wrappers) →
    (view c parts).Transparent wrappers

theorem transparent_closed {view : View} {nodes : List Node}
    (transparent : ∀ c ∈ customs nodes, c.Transparent wrappers view) :
    ObserveClosed view (Booked.Transparent wrappers) (· ∈ preorderAll nodes) where
  nothing := unwraps_pure rfl
  sequence first rest before later := by
    rw [Booked.Transparent, erase_observeSequence rfl rfl]
    exact unwraps_sequence before later
  text text := unwraps_blind (fun _ => ()) (·.write text) (fun _ => rfl) fun _ => rfl
  output value := by
    rw [Booked.Transparent, erase_observeOutput]
    exact unwraps_output value
  loop header _ _ inside instead := by
    rw [Booked.Transparent, erase_observeLoop header rfl rfl]
    exact unwraps_loop header inside instead
  branch condition _ _ taken other := by
    rw [Booked.Transparent, erase_observeBranch condition rfl rfl]
    exact unwraps_branch condition taken other
  assign name value := by
    rw [Booked.Transparent, erase_observeAssign]
    exact unwraps_assign name value
  count := unwraps_count
  leave := unwraps_blind (fun _ => ()) (fun s => { s with breaking := true }) (fun _ => rfl)
    fun _ => rfl
  next := unwraps_blind (fun _ => ()) (fun s => { s with continuing := true }) (fun _ => rfl)
    fun _ => rfl
  custom c _ _ member :=
    (transparent c (List.mem_filterMap.mpr ⟨_, member, rfl⟩)).transparent

/-- Wrappers that are completed from the start change nothing about a render that does not look
    at one inside a value: from any state and under either driver, it ends as it does without
    them, in the same state but for the wrappers. -/
theorem render_ignores_wrappers (view : View) (nodes : List Node)
    (transparent : ∀ c ∈ customs nodes, c.Transparent wrappers view) (s : State)
    (schedule : Schedule) (there : ∀ id, wrappers id = true → schedule.isCompleted id = true) :
    let notes := observeAll view nodes s
    (observeAll view nodes).erase = renderAll nodes ∧
      ((∀ n ∈ notes.entries 1 schedule, n.1.Bare wrappers) →
        let run := (renderAll nodes).runNow s schedule
        (renderAll nodes).runNow (s.unwrap wrappers) schedule
          = { run with state := run.state.unwrap wrappers }) ∧
      ∀ polls, (∀ n ∈ notes.entries polls schedule, n.1.Bare wrappers) →
        let run := (renderAll nodes s).runWaiting polls schedule
        (renderAll nodes (s.unwrap wrappers)).runWaiting polls schedule
          = { run with state := run.state.unwrap wrappers } := by
  intro notes
  have shown : ∀ m ∈ preorderAll nodes, ∀ c ∈ m.custom?, view.Shows c := fun m member c custom =>
    (transparent c (List.mem_filterMap.mpr ⟨m, member, custom⟩)).shows
  have erased : (observeAll view nodes).erase = renderAll nodes := erase_observeAll nodes shown
  have unwraps : notes.Unwraps wrappers Eq ((observeAll view nodes).erase (s.unwrap wrappers)) :=
    observeAll_closed (transparent_closed transparent) nodes (fun _ member => member) s
  have available : ∀ id, wrappers id = true → schedule.progress id = .completed :=
    fun id wrapper => by simpa [Schedule.isCompleted] using there id wrapper
  rw [← erased]
  exact ⟨rfl, unwraps.runNow available, fun polls => unwraps.runWaiting polls available⟩

theorem same_sink {run run' : Run α} (h : run' = { run with state := run.state.unwrap wrappers }) :
    run'.state.sink = run.state.sink := by
  rw [h]
  rfl

/-- `{% for x in xs %}{% if x.on %}{{ x.name }}{% endif %}{% endfor %}{{ xs.size }}`. -/
def namesThatAreOn : List Node :=
  let span : Span := ⟨0, 0⟩
  let path (root : String) (names : List String) : Argument :=
    ⟨.path root (names.map .name), root, span⟩
  [.loop ⟨"x", path "xs" [], [], false⟩
      [.choice [(.test (path "x" ["on"]) none, [.output (some (path "x" ["name"])) span])] [] span]
      [] span,
    .output (some (path "xs" ["size"])) span]

def wrappedNames : State :=
  let first := Object.ofList
    [("name", .deferred 3 none (.str "a")), ("on", .deferred 4 none (.bool true))]
  let second := Object.ofList [("name", .str "b"), ("on", .bool false)]
  let items : Value := .array [.deferred 2 none (.object first), .object second]
  Engine.start default (.single "xs" (.deferred 1 none items)) default .empty .empty

theorem render_ignores_wrappers_everywhere :
    let wrappers : Nat → Bool := fun id => decide (1 ≤ id ∧ id ≤ 4)
    let plain := Object.ofList [("name", .str "a"), ("on", .bool true)]
    let other := Object.ofList [("name", .str "b"), ("on", .bool false)]
    wrappedNames.unwrap wrappers = Engine.start default
        (.single "xs" (.array [.object plain, .object other])) default .empty .empty ∧
      ((renderAll namesThatAreOn).runNow wrappedNames .empty).state.sink.output = "a2" ∧
      ((renderAll namesThatAreOn).runNow (wrappedNames.unwrap wrappers) .empty).state.sink.output
        = "a2" := by
  intro wrappers plain other
  have transparent : ∀ c ∈ customs namesThatAreOn, c.Transparent wrappers fun c _ => pure () :=
    nofun
  have clear : ((observeAll (fun _ _ => pure ()) namesThatAreOn wrappedNames).entries 1 .empty).all
      (fun n => n.1.clear wrappers) = true := by decide +kernel
  have wrote : ((renderAll namesThatAreOn).runNow wrappedNames .empty).state.sink.output
      = "a2" := by decide +kernel
  have ignores := (render_ignores_wrappers _ namesThatAreOn transparent wrappedNames .empty
    fun _ _ => rfl).2.1 (Use.bare_of_all wrappers clear)
  exact ⟨rfl, wrote, (congrArg Sink.output (same_sink ignores)).trans wrote⟩

/-- Where a wrapper is looked at it shows: an element that is wrapped is not printed with the
    array, a counter does not find the number that is wrapped, and a computed property that is
    wrapped is not called. -/
theorem whole_uses_show_wrappers :
    let wrappers : Nat → Bool := (· == 1)
    let start (data : Object) : State := Engine.start default data default .empty .empty
    let writes (nodes : List Node) (data : Object) : String :=
      ((renderAll nodes).runNow (start data) .empty).state.sink.output
    let shown : List Node := [.output (some ⟨.path "v" [], "v", ⟨0, 0⟩⟩) ⟨0, 0⟩]
    let counted : List Node := [.increment "v" ⟨0, 0⟩]
    let wrap (v : Value) : Value := .deferred 1 none v
    let items := Object.single "v" (.array [.int 1, wrap (.int 2)])
    let number := Object.single "v" (wrap (.int 5))
    let property : Value := .computed 2 none fun _ => .str "a"
    (start items).unwrap wrappers = start (.single "v" (.array [.int 1, .int 2])) ∧
      writes shown items = "1" ∧
      writes shown (.single "v" (.array [.int 1, .int 2])) = "12" ∧
      (start number).unwrap wrappers = start (.single "v" (.int 5)) ∧
      writes counted number = "0" ∧ writes counted (.single "v" (.int 5)) = "5" ∧
      writes shown (.single "v" (wrap property)) = "" ∧
      writes shown (.single "v" property) = "a" :=
  ⟨rfl, by decide +kernel, by decide +kernel, rfl, by decide +kernel, by decide +kernel,
    by decide +kernel, by decide +kernel⟩

end Templating
