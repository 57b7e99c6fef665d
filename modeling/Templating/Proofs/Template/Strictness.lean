import Templating.Proofs.Template.Drivers
import Templating.Proofs.Template.Observation

/-!
Strict reading restricts a render and does nothing else. As long as no variable that is read is
absent, a strict render and a lenient one do the same.
-/
namespace Templating

open Booked (lift asks)

def State.reading (s : State) (strict : Bool) : State := { s with modes := { s.modes with strict } }

def Laxer (s t : State) : Prop := ∃ u : State, s = u.reading true ∧ t = u.reading false

namespace Ledger
variable {α β : Type}

/-- The strict trail goes the way of the lenient one up to the first absent variable. -/
inductive Relaxed : Trail α → Trail α → Prop where
  | done {a : α} {s t : State} (h : Laxer s t) : Relaxed (.done a s) (.done a t)
  | failed {e : EvalError} {s t : State} (h : Laxer s t)
      (other : ∀ path, e ≠ .undefinedVariable path) : Relaxed (.failed e s) (.failed e t)
  | waiting {id : Nat} {label : Option String} {s t : State} {unwind unwind' : State → State}
      {resume resume' : State → Trail α} (abandoned : Laxer (unwind s) (unwind' t))
      (ready : Relaxed (resume s) (resume' t))
      (completed : Relaxed (resume (s.complete label)) (resume' (t.complete label))) :
      Relaxed (.waiting id label s unwind resume) (.waiting id label t unwind' resume')
  | noting {use : Use} {s t : State} {x y : Trail α} (h : Laxer s t)
      (found : ∀ walked, use ≠ .reading walked .undefined) (rest : Relaxed x y) :
      Relaxed (.entry (use, s) x) (.entry (use, t) y)
  | stopped {walked : List Value} {s t u : State} {y : Trail α} (h : Laxer s t)
      (written : u.sink = s.sink) :
      Relaxed
        (.entry (.reading walked .undefined, s) (.failed (.undefinedVariable (pathText walked)) u))
        (.entry (.reading walked .undefined, t) y)

namespace Relaxed
variable {x y : Trail α}

theorem bind {next next' : α → State → Trail β} (h : Relaxed x y)
    (step : ∀ a s t, Laxer s t → Relaxed (next a s) (next' a t)) :
    Relaxed (x.bind next) (y.bind next') := by
  induction h with
  | done h => exact step _ _ _ h
  | failed h other => exact .failed h other
  | waiting abandoned _ _ ready completed => exact .waiting abandoned ready completed
  | noting h found _ rest => exact .noting h found rest
  | stopped h written => exact .stopped h written

theorem ensuring {cleanup cleanup' : State → State} (h : Relaxed x y)
    (closes : ∀ s t, Laxer s t → Laxer (cleanup s) (cleanup' t))
    (silent : ∀ s, (cleanup s).sink = s.sink) :
    Relaxed (x.ensuring cleanup) (y.ensuring cleanup') := by
  induction h with
  | done h => exact .done (closes _ _ h)
  | failed h other => exact .failed (closes _ _ h) other
  | waiting abandoned _ _ ready completed =>
    exact .waiting (closes _ _ abandoned) ready completed
  | noting h found _ rest => exact .noting h found rest
  | stopped h written => exact .stopped h ((silent _).trans written)

end Relaxed
end Ledger

/-- What the runs of a strict and of a lenient render have to do with each other, given
    the notes on the way of each. -/
structure Run.Restricts {α : Type} (strict lenient : Run α) (uses uses' : List (Use × State)) :
    Prop where
  same : (∀ path, strict.ending ≠ .failed (.undefinedVariable path)) →
    lenient = { strict with state := strict.state.reading false }
  /-- One that does has made the notes of the lenient run up to the first absent variable, and
      has written what was written there. -/
  stops : ∀ path, strict.ending = .failed (.undefinedVariable path) →
    ∃ before walked s after, uses = before ++ [(.reading walked .undefined, s)] ∧
      uses' = before.map (fun n => (n.1, n.2.reading false))
        ++ (.reading walked .undefined, s.reading false) :: after ∧
      (∀ n ∈ before, ∀ keys, n.1 ≠ .reading keys .undefined) ∧
      path = pathText walked ∧ strict.state.sink = s.sink

namespace Run.Restricts
variable {α : Type} {strict lenient : Run α} {uses uses' : List (Use × State)}

theorem of_present (same : lenient = { strict with state := strict.state.reading false })
    (present : ∀ path, strict.ending ≠ .failed (.undefinedVariable path)) :
    Restricts strict lenient uses uses' where
  same _ := same
  stops path stopped := absurd stopped (present path)

theorem refused (h : Restricts strict lenient uses uses') :
    Restricts strict.refused lenient.refused uses uses' where
  same ended := by
    have other : ∀ path, strict.ending ≠ .failed (.undefinedVariable path) := fun path stopped =>
      ended path (by rw [refused_of_ended (by simp [stopped]), stopped])
    rw [h.same other]
    cases ending : strict.ending <;> simp only [Run.refused, ending]
  stops path stopped := by
    have ended : strict.ending ≠ .unfinished := fun waiting => by
      simp [Run.refused, waiting] at stopped
    rw [refused_of_ended ended] at stopped ⊢
    exact h.stops path stopped

theorem reaches (h : Restricts strict lenient uses uses') {path : String}
    (stopped : strict.ending = .failed (.undefinedVariable path)) :
    ∃ before walked s after, uses' = before ++ (.reading walked .undefined, s) :: after ∧
      pathText walked = path ∧ s.sink = strict.state.sink := by
  obtain ⟨before, walked, s, after, -, reached, -, named, written⟩ := h.stops path stopped
  exact ⟨_, walked, _, after, reached, named.symm, written.symm⟩

theorem noting {use : Use} {s t : State} (h : Restricts strict lenient uses uses')
    (laxer : Laxer s t) (found : ∀ walked, use ≠ .reading walked .undefined) :
    Restricts strict lenient ((use, s) :: uses) ((use, t) :: uses') where
  same := h.same
  stops path stopped := by
    obtain ⟨u, rfl, rfl⟩ := laxer
    obtain ⟨before, walked, v, after, rfl, rfl, all, named, written⟩ := h.stops path stopped
    refine ⟨(use, u.reading true) :: before, walked, v, after, rfl, rfl, ?_, named, written⟩
    rw [List.forall_mem_cons]
    exact ⟨found, all⟩

end Run.Restricts

theorem Ledger.Relaxed.runWaiting {α : Type} {x y : Trail α} (h : Relaxed x y) (polls : Nat)
    (schedule : Schedule) :
    Run.Restricts (x.erase.runWaiting polls schedule) (y.erase.runWaiting polls schedule)
      (x.entries polls schedule) (y.entries polls schedule) := by
  induction h generalizing polls schedule with
  | done h =>
    obtain ⟨u, rfl, rfl⟩ := h
    exact .of_present rfl (by simp [Ledger.erase, Step.runWaiting])
  | failed h other =>
    obtain ⟨u, rfl, rfl⟩ := h
    exact .of_present rfl fun path stopped => other path (Ending.failed.inj stopped)
  | @waiting id label s t unwind unwind' resume resume' abandoned _ _ ready completed =>
    obtain ⟨u, left, right⟩ := abandoned
    simp only [Ledger.erase, Step.runWaiting, Ledger.entries]
    cases schedule.progress id with
    | completed => exact ready polls schedule
    | never =>
      rw [left, right]
      exact .of_present rfl (by simp)
    | pending needed =>
      by_cases enough : needed < polls
      · simpa only [enough, if_true] using completed (polls - needed) _
      · simp only [enough, if_false, left, right]
        exact .of_present rfl (by simp)
  | noting h found _ rest => exact (rest polls schedule).noting h found
  | @stopped walked s t u y h written =>
    obtain ⟨v, rfl, rfl⟩ := h
    refine ⟨fun other => absurd rfl (other (pathText walked)), fun path stopped => ?_⟩
    obtain rfl := EvalError.undefinedVariable.inj (Ending.failed.inj stopped)
    exact ⟨[], walked, v.reading true, y.entries polls schedule, rfl, rfl, by simp, rfl, written⟩

theorem Ledger.Relaxed.runNow {α : Type} {x y : Trail α} (h : Relaxed x y) (schedule : Schedule) :
    Run.Restricts (x.erase.runNow schedule) (y.erase.runNow schedule)
      (x.entries 1 schedule) (y.entries 1 schedule) := by
  rw [Step.runNow_eq, Step.runNow_eq]
  exact (h.runWaiting 1 schedule).refused

namespace Booked
variable {α β : Type}

def Relaxed (t : Observed α) : Prop := ∀ s s' : State, Laxer s s' → (t s).Relaxed (t s')

theorem relaxed_pure (a : α) : (pure a : Observed α).Relaxed := fun _ _ h => .done h

theorem Relaxed.bind {t : Observed α} {f : α → Observed β} (first : t.Relaxed)
    (rest : ∀ a, (f a).Relaxed) : (t >>= f).Relaxed := fun s s' h => (first s s' h).bind rest

theorem Relaxed.within {t : Observed α} (h : t.Relaxed) (scope : Object) :
    (within scope t).Relaxed := by
  rintro _ _ ⟨u, rfl, rfl⟩
  refine (h _ _ ⟨u.mapBindings (·.push scope), rfl, rfl⟩).ensuring ?_ fun _ => rfl
  rintro _ _ ⟨v, rfl, rfl⟩
  exact ⟨v.pop, rfl, rfl⟩

theorem relaxed_step {t : Task α} (f : State → α) (g : State → State)
    (blind : ∀ s strict, t (s.reading strict) = .done (f s) ((g s).reading strict)) :
    (lift t).Relaxed := by
  rintro _ _ ⟨u, rfl, rfl⟩
  simp only [lift, blind]
  exact .done ⟨g u, rfl, rfl⟩

theorem relaxed_asks (f : State → α) (blind : ∀ s strict, f (s.reading strict) = f s) :
    (asks f).Relaxed := by
  rintro _ _ ⟨u, rfl, rfl⟩
  simp only [asks, blind]
  exact .done ⟨u, rfl, rfl⟩

theorem relaxed_note {use : Use} (found : ∀ walked, use ≠ .reading walked .undefined) :
    (note use).Relaxed := fun _ _ h => .noting h found (.done h)

theorem relaxed_wait (id : Nat) (label : Option String) :
    (lift (Task.wait id label)).Relaxed := by
  rintro _ _ ⟨u, rfl, rfl⟩
  exact .waiting ⟨u, rfl, rfl⟩ (.done ⟨u, rfl, rfl⟩) (.done ⟨u.complete label, rfl, rfl⟩)

theorem Relaxed.after_wait (id : Nat) (label : Option String) (t : Task Value)
    (rest : (lift t).Relaxed) : (lift (do Task.wait id label; t)).Relaxed := by
  rw [lift_bind]
  exact (relaxed_wait id label).bind fun _ => rest

theorem relaxed_settle : ∀ v : Value, (lift (Task.settle v)).Relaxed :=
  Task.settle_closed relaxed_pure Relaxed.after_wait

theorem relaxed_resolve : ∀ v : Value, (lift (Task.resolve v)).Relaxed :=
  Task.resolve_closed relaxed_pure Relaxed.after_wait

theorem relaxed_charge (count : Nat) : (lift (Task.charge count)).Relaxed := by
  rintro _ _ ⟨u, rfl, rfl⟩
  let charged := { u with memory := u.memory.charge count }
  change Ledger.Relaxed
    (if charged.memory.isExceeded then
      Step.failed (.resourceExceeded charged.memory.resource) (charged.reading true)
      else .done () (charged.reading true)).ledger
    (if charged.memory.isExceeded then
      Step.failed (.resourceExceeded charged.memory.resource) (charged.reading false)
      else .done () (charged.reading false)).ledger
  split
  · exact .failed ⟨charged, rfl, rfl⟩ (by simp)
  · exact .done ⟨charged, rfl, rfl⟩

theorem relaxed_checkTime : (lift Task.checkTime).Relaxed := by
  rintro _ _ ⟨u, rfl, rfl⟩
  change Ledger.Relaxed
    (if u.look.time.isExceeded then
      Step.failed (.resourceExceeded u.time.resource) (u.look.reading true)
      else .done () (u.look.reading true)).ledger
    (if u.look.time.isExceeded then
      Step.failed (.resourceExceeded u.time.resource) (u.look.reading false)
      else .done () (u.look.reading false)).ledger
  split
  · exact .failed ⟨u.look, rfl, rfl⟩ (by simp)
  · exact .done ⟨u.look, rfl, rfl⟩

end Booked

open Booked

theorem relaxed_observeReading (value : Value) (walked : List Value) :
    (observeReading value walked).Relaxed := by
  rintro _ _ ⟨u, rfl, rfl⟩
  cases value with
  | undefined => exact .stopped ⟨u, rfl, rfl⟩ rfl
  | _ => exact .noting ⟨u, rfl, rfl⟩ (by simp) (.done ⟨u, rfl, rfl⟩)

theorem relaxed_readKey (receiver key : Value) : (lift (readKey receiver key)).Relaxed :=
  relaxed_step (fun s => (readProperty receiver key s.modes.ownOnly s.store).1)
    (fun s => { s with store := (readProperty receiver key s.modes.ownOnly s.store).2 })
    fun _ _ => rfl

theorem relaxed_readName (name : String) : (lift (readName name)).Relaxed :=
  relaxed_step (fun s => ((s.bindings.owner name).read name s.modes.ownOnly s.store).1)
    (fun s =>
      { s with store := ((s.bindings.owner name).read name s.modes.ownOnly s.store).2 })
    fun _ _ => rfl

theorem relaxed_observeFollow (value : Value) (walked keys : List Value) :
    (observeFollow value walked keys).Relaxed := by
  induction keys generalizing value walked with
  | nil => exact relaxed_pure value
  | cons key rest ih =>
    refine Relaxed.bind ?_ fun next => (relaxed_settle next).bind fun next =>
      (relaxed_observeReading next _).bind fun _ => ih next _
    exact (relaxed_settle value).bind fun receiver => (relaxed_resolve key).bind fun key =>
      (relaxed_note (by simp)).bind fun _ => relaxed_readKey receiver key

theorem relaxed_observeLookup (root : String) (keys : List Value) :
    (observeLookup root keys).Relaxed :=
  (relaxed_readName root).bind fun found => (relaxed_settle found).bind fun value =>
    (relaxed_observeReading value _).bind fun _ => relaxed_observeFollow value _ keys

theorem relaxed_boundOf (v : Value) : (lift (boundOf v)).Relaxed := by
  rw [boundOf, lift_bind]
  exact (relaxed_resolve v).bind fun v => relaxed_pure (v.asInteger?.getD 0)

mutual

theorem Expr.observe_relaxed : ∀ e : Expr, e.observe.Relaxed
  | .literal l => relaxed_pure l.toValue
  | .path root segments =>
    (observeKeys_relaxed segments).bind fun keys => relaxed_observeLookup root keys
  | .range low high =>
    (Expr.observe_relaxed low).bind fun low => (relaxed_boundOf low).bind fun _ =>
      (Expr.observe_relaxed high).bind fun high => (relaxed_boundOf high).bind fun _ =>
        (relaxed_charge _).bind fun _ => relaxed_pure _
termination_by structural e => e

theorem Segment.observe_relaxed : ∀ s : Segment, s.observe.Relaxed
  | .name s => relaxed_pure (Value.str s)
  | .index e => Expr.observe_relaxed e
termination_by structural s => s

theorem observeKeys_relaxed : ∀ segments : List Segment, (observeKeys segments).Relaxed
  | [] => relaxed_pure []
  | s :: rest =>
    (Segment.observe_relaxed s).bind fun key => (observeKeys_relaxed rest).bind fun keys =>
      relaxed_pure (key :: keys)
termination_by structural segments => segments

end

theorem observeNamed_relaxed (before : Object) (named : List NamedArgument) :
    (observeNamed before named).Relaxed := by
  induction named generalizing before with
  | nil => exact relaxed_pure before
  | cons a rest ih =>
    obtain ⟨key, value, span⟩ := a
    refine Relaxed.bind ?_ fun v => ih (before.insert key v)
    cases value with
    | none => exact relaxed_pure (Value.bool true)
    | some value => exact value.expr.observe_relaxed

theorem Condition.observe_relaxed (c : Condition) : c.observe.Relaxed := by
  induction c with
  | test left comparison =>
    cases comparison with
    | none =>
      exact left.expr.observe_relaxed.bind fun v => (relaxed_resolve v).bind fun v =>
        relaxed_pure v.isTruthy
    | some pair =>
      obtain ⟨operator, right⟩ := pair
      exact left.expr.observe_relaxed.bind fun v => (relaxed_resolve v).bind fun v =>
        right.expr.observe_relaxed.bind fun w => (relaxed_resolve w).bind fun w =>
          (relaxed_note (by simp)).bind fun _ => relaxed_pure (operator.holds v w)
  | both c d first second =>
    refine first.bind fun holds => ?_
    cases holds with
    | true => exact second
    | false => exact relaxed_pure false
  | either c d first second =>
    refine first.bind fun holds => ?_
    cases holds with
    | true => exact relaxed_pure true
    | false => exact second

theorem observeOpening_relaxed (header : LoopHeader) (items : List Value) :
    (observeOpening header items).Relaxed := by
  have cell : (lift offsetsCell).Relaxed :=
    relaxed_step (fun s => (s.registers.get .offsets offsetsRegister).1)
      (fun s => { s with registers := (s.registers.get .offsets offsetsRegister).2 })
      fun _ _ => rfl
  refine cell.bind fun cell => ?_
  have recalled : (lift (recallOffset cell header.continueKey)).Relaxed :=
    relaxed_step
      (fun s => .int (((s.registers.offsetsAt cell).lookup header.continueKey).getD 0))
      (fun s => s) fun _ _ => rfl
  refine recalled.bind fun previous => ?_
  refine ((observeNamed_relaxed _ _).within _).bind fun modifiers => ?_
  have recorded : ∀ n, (lift (recordOffset cell header.continueKey n)).Relaxed := fun n =>
    relaxed_step _ (fun s =>
      let entries := storeOffset header.continueKey n (s.registers.offsetsAt cell)
      { s with registers := s.registers.write cell (.offsets entries) }) fun _ _ => rfl
  have begun : ∀ n, (lift (beginLoop n header)).Relaxed := fun n =>
    relaxed_step
      (fun s => .make s.store.begin.1 n header.variableName header.collection.text)
      (fun s => { s with store := s.store.begin.2 }) fun _ _ => rfl
  exact (recorded _).bind fun _ => (begun _).bind fun position => relaxed_pure _

theorem observeIterate_relaxed (name : String) (position : LoopPosition) {body : Observed Unit}
    (inside : body.Relaxed) (items : List Value) :
    (observeIterate name position body items).Relaxed := by
  induction items with
  | nil => exact relaxed_pure ()
  | cons item rest ih =>
    have entered : (lift (enterElement name item)).Relaxed := relaxed_step _
      (fun s => (s.mapBindings (·.bindTop name item)).clearJumps) fun _ _ => rfl
    refine entered.bind fun _ => inside.bind fun _ => ?_
    refine (relaxed_asks State.breaking fun _ _ => rfl).bind fun breaking => ?_
    cases breaking with
    | true => exact relaxed_pure ()
    | false =>
      have stepped : (lift (stepLoop position)).Relaxed := relaxed_step _
        (fun s => { s with store := s.store.step position.id }) fun _ _ => rfl
      exact stepped.bind fun _ => ih

theorem observeLoop_relaxed (header : LoopHeader) {body otherwise : Observed Unit}
    (inside : body.Relaxed) (instead : otherwise.Relaxed) :
    (observeLoop header body otherwise).Relaxed := by
  refine header.collection.expr.observe_relaxed.bind fun v => (relaxed_resolve v).bind fun v => ?_
  cases v.elements with
  | nil => exact instead
  | cons item rest =>
    refine (observeOpening_relaxed header (item :: rest)).bind fun opened => ?_
    have cleared : (lift (Task.modify State.clearJumps)).Relaxed :=
      relaxed_step _ State.clearJumps fun _ _ => rfl
    exact ((observeIterate_relaxed _ opened.1 inside opened.2).bind fun _ => cleared).within _

theorem observeOutput_relaxed (value : Option Argument) : (observeOutput value).Relaxed := by
  cases value with
  | none => exact relaxed_pure ()
  | some a =>
    refine a.expr.observe_relaxed.bind fun v => (relaxed_resolve v).bind fun v => ?_
    refine (relaxed_note (by simp)).bind fun _ => ?_
    exact relaxed_step _ (·.write v.text) fun _ _ => rfl

/-- A custom node whose view shows what it does, that does not look how variables are read,
    and that leaves the error for an absent one to the reads it makes. -/
structure Custom.Observable (c : Custom) (view : View) : Prop where
  shows : view.Shows c
  relaxed : ∀ parts : List (Observed Unit), (∀ part ∈ parts, part.Relaxed) →
    (view c parts).Relaxed

theorem relaxed_closed {view : View} {nodes : List Node}
    (observable : ∀ c ∈ customs nodes, c.Observable view) :
    ObserveClosed view Relaxed (· ∈ preorderAll nodes) where
  nothing := relaxed_pure ()
  sequence first rest before later := by
    refine relaxed_checkTime.bind fun _ => before.bind fun _ => ?_
    refine (relaxed_asks State.stopped fun _ _ => rfl).bind fun stopped => ?_
    cases stopped with
    | true => exact relaxed_pure ()
    | false => exact later
  text text := relaxed_step _ (·.write text) fun _ _ => rfl
  output := observeOutput_relaxed
  loop header _ _ := observeLoop_relaxed header
  branch condition body rest taken other := by
    refine condition.observe_relaxed.bind fun holds => ?_
    cases holds with
    | true => exact taken
    | false => exact other
  assign name value := by
    refine value.expr.observe_relaxed.bind fun v => ?_
    exact relaxed_step _ (·.mapBindings (·.bindBottom name v)) fun _ _ => rfl
  count name delta showsBefore := by
    refine (relaxed_asks _ fun _ _ => rfl).bind fun entry => ?_
    refine (relaxed_note (by simp)).bind fun _ => ?_
    exact relaxed_step _ (fun s =>
      let before := counterBefore s.bindings.data name
      let after := counterAfter delta before
      (s.mapBindings (·.bindData name after)).write
        (if showsBefore then before.text else after.text)) fun _ _ => rfl
  leave := relaxed_step _ (fun s => { s with breaking := true }) fun _ _ => rfl
  next := relaxed_step _ (fun s => { s with continuing := true }) fun _ _ => rfl
  custom c _ _ member := (observable c (List.mem_filterMap.mpr ⟨_, member, rfl⟩)).relaxed

/-- From any state and under either driver, a strict render that does not fail for want of a
    variable ends like the lenient one, in the same state but for the mode; one that does fail
    so has stopped where the lenient render reads a variable that is absent: at the same read,
    with the same text written, the error naming the keys walked. -/
theorem strict_render_restricts (view : View) (nodes : List Node)
    (observable : ∀ c ∈ customs nodes, c.Observable view) (s : State) (schedule : Schedule) :
    let strict := s.reading true
    let lenient := s.reading false
    let notes := observeAll view nodes
    notes.erase = renderAll nodes ∧
      Run.Restricts ((renderAll nodes).runNow strict schedule)
        ((renderAll nodes).runNow lenient schedule)
        ((notes strict).entries 1 schedule) ((notes lenient).entries 1 schedule) ∧
      ∀ polls, Run.Restricts ((renderAll nodes strict).runWaiting polls schedule)
        ((renderAll nodes lenient).runWaiting polls schedule)
        ((notes strict).entries polls schedule) ((notes lenient).entries polls schedule) := by
  intro strict lenient notes
  have shown : ∀ m ∈ preorderAll nodes, ∀ c ∈ m.custom?, view.Shows c := fun m member c custom =>
    (observable c (List.mem_filterMap.mpr ⟨m, member, custom⟩)).shows
  have erased : notes.erase = renderAll nodes := erase_observeAll nodes shown
  have relaxed : (notes strict).Relaxed (notes lenient) :=
    observeAll_closed (relaxed_closed observable) nodes (fun _ member => member) strict lenient
      ⟨s, rfl, rfl⟩
  rw [← erased]
  exact ⟨rfl, relaxed.runNow schedule, fun polls => relaxed.runWaiting polls schedule⟩

def framedView : View := fun _ parts => do
  lift (Task.write "<")
  parts.foldr (fun part rest => part >>= fun _ => rest) (lift (Task.write ">"))

theorem framed_observable : framed.Observable framedView where
  shows parts := by
    have closing : (parts.foldr (fun part rest => part >>= fun _ => rest)
          (lift (Task.write ">"))).erase
        = (parts.map Booked.erase).foldr (fun part rest => part >>= fun _ => rest)
          (Task.write ">") := by
      induction parts with
      | nil => exact erase_lift _
      | cons part rest ih => simp only [List.foldr_cons, List.map_cons, erase_bind, ih]
    simp only [framedView, erase_bind, erase_lift, closing]
    rfl
  relaxed parts all := by
    have wrote : ∀ text, (lift (Task.write text)).Relaxed := fun text =>
      relaxed_step _ (·.write text) fun _ _ => rfl
    refine (wrote "<").bind fun _ => ?_
    induction parts with
    | nil => exact wrote ">"
    | cons part rest ih =>
      rw [List.forall_mem_cons] at all
      exact all.1.bind fun _ => ih all.2

/-- A framed `{% for i in (1..2) %}{{ i }}{{ user.name.first }}{% endfor %}`, and text after it. -/
def namedTwice : List Node :=
  let span : Span := ⟨0, 0⟩
  let header : LoopHeader :=
    ⟨"i", ⟨.range (.literal (.int 1)) (.literal (.int 2)), "(1..2)", span⟩, [], false⟩
  let name : Argument := ⟨.path "user" [.name "name", .name "first"], "user.name.first", span⟩
  [.custom framed [[.loop header [.output (some ⟨.path "i" [], "i", span⟩) span,
    .output (some name) span] [] span]] span, .text "b" span]

def nameless : State :=
  Engine.start default (.single "user" (.object .empty)) default .empty .empty

theorem strict_render_restricts_nameless :
    (∀ c ∈ customs namedTwice, c.Observable framedView) ∧
      ((renderAll namedTwice).runNow (nameless.reading true) .empty).ending
        = .failed (.undefinedVariable "user.name") ∧
      ((renderAll namedTwice).runNow (nameless.reading false) .empty).state.sink.output
        = "<12>b" ∧
      ∃ before walked t after,
        (observeAll framedView namedTwice (nameless.reading false)).entries 1 .empty
          = before ++ (.reading walked .undefined, t) :: after ∧
        pathText walked = "user.name" ∧ t.sink.output = "<1" := by
  have observable : ∀ c ∈ customs namedTwice, c.Observable framedView := by
    intro c member
    rw [List.mem_singleton.mp (show c ∈ [framed] from member)]
    exact framed_observable
  have stopped : ((renderAll namedTwice).runNow (nameless.reading true) .empty).ending
      = .failed (.undefinedVariable "user.name") := by decide +kernel
  have wrote : ((renderAll namedTwice).runNow (nameless.reading true) .empty).state.sink.output
      = "<1" := by decide +kernel
  have restricts := (strict_render_restricts framedView namedTwice observable nameless .empty).2.1
  obtain ⟨before, walked, t, after, reached, named, sink⟩ := restricts.reaches stopped
  have lenient : ((renderAll namedTwice).runNow (nameless.reading false) .empty).state.sink.output
      = "<12>b" := by decide +kernel
  rw [← sink] at wrote
  exact ⟨observable, stopped, lenient, before, walked, t, after, reached, named, wrote⟩

end Templating
