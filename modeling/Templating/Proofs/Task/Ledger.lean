import Templating.Proofs.Task.Waiting

/-!
Computations that keep a ledger. Besides its steps a ledger has entries, each made when
something is done that is to be accounted for.
-/
namespace Templating

namespace Step
variable {α β : Type}

inductive Gives (Q : α → State → Prop) : Step α → Prop where
  | done {a : α} {s : State} (h : Q a s) : Gives Q (.done a s)
  | failed {e : EvalError} {s : State} : Gives Q (.failed e s)
  | waiting {id : Nat} {label : Option String} {s : State} {unwind : State → State}
      {resume : State → Step α} (ready : Gives Q (resume s))
      (completed : Gives Q (resume (s.complete label))) :
      Gives Q (.waiting id label s unwind resume)

namespace Gives
variable {Q : α → State → Prop} {x : Step α}

theorem mono {Q' : α → State → Prop} (h : x.Gives Q) (weaker : ∀ a s, Q a s → Q' a s) :
    x.Gives Q' := by
  induction h with
  | done h => exact .done (weaker _ _ h)
  | failed => exact .failed
  | waiting _ _ ready completed => exact .waiting ready completed

theorem and {R : α → State → Prop} (h : x.Gives Q) (h' : x.Gives R) :
    x.Gives fun a s => Q a s ∧ R a s := by
  induction h with
  | done h => cases h' with | done h' => exact .done ⟨h, h'⟩
  | failed => exact .failed
  | waiting _ _ ready completed =>
    cases h' with | waiting now later => exact .waiting (ready now) (completed later)

theorem bind {Q' : β → State → Prop} {next : α → State → Step β} (h : x.Gives Q)
    (step : ∀ a s, Q a s → (next a s).Gives Q') : (x.bind next).Gives Q' := by
  induction h with
  | done h => exact step _ _ h
  | failed => exact .failed
  | waiting _ _ ready completed => exact .waiting ready completed

theorem ensuring {Q' : α → State → Prop} {cleanup : State → State} (h : x.Gives Q)
    (closes : ∀ a s, Q a s → Q' a (cleanup s)) : (x.ensuring cleanup).Gives Q' := by
  induction h with
  | done h => exact .done (closes _ _ h)
  | failed => exact .failed
  | waiting _ _ ready completed => exact .waiting ready completed

theorem of_keeps {K : State → State → Prop} {s : State} (h : x.Keeps K s)
    (trans : ∀ s t u, K s t → K t u → K s u) (given : ∀ a t, K s t → Q a t) : x.Gives Q := by
  induction h with
  | done h => exact .done (given _ _ h)
  | failed => exact .failed
  | waiting left _ _ ready completed =>
    have later := fun a t between => given a t (trans _ _ _ left between)
    exact .waiting (ready later) (completed later)

theorem of_forall (always : ∀ a s, Q a s) (x : Step α) : x.Gives Q := by
  induction x with
  | done a s => exact .done (always a s)
  | failed e s => exact .failed
  | waiting id label s unwind resume ih => exact .waiting (ih _) (ih _)

end Gives

inductive MayGive (a : α) : Step α → Prop where
  | done {s : State} : MayGive a (.done a s)
  | ready {id : Nat} {label : Option String} {s : State} {unwind : State → State}
      {resume : State → Step α} (h : MayGive a (resume s)) :
      MayGive a (.waiting id label s unwind resume)
  | completed {id : Nat} {label : Option String} {s : State} {unwind : State → State}
      {resume : State → Step α} (h : MayGive a (resume (s.complete label))) :
      MayGive a (.waiting id label s unwind resume)

theorem gives_mayGive (x : Step α) : x.Gives fun a _ => x.MayGive a := by
  induction x with
  | done a s => exact .done .done
  | failed e s => exact .failed
  | waiting id label s unwind resume ih =>
    exact .waiting ((ih s).mono fun _ _ => .ready)
      ((ih (s.complete label)).mono fun _ _ => .completed)

theorem Gives.of_mayGive {Q : α → State → Prop} {x : Step α} {a : α} (h : x.Gives Q)
    (may : x.MayGive a) : ∃ s, Q a s := by
  induction may with
  | done => cases h with | done h => exact ⟨_, h⟩
  | ready _ ih => cases h with | waiting ready _ => exact ih ready
  | completed _ ih => cases h with | waiting _ completed => exact ih completed

end Step

inductive Ledger (ε α : Type) where
  | done (result : α) (state : State)
  | failed (error : EvalError) (state : State)
  | waiting (id : Nat) (label : Option String) (state : State) (unwind : State → State)
      (resume : State → Ledger ε α)
  | entry (e : ε) (rest : Ledger ε α)

def Step.ledger {ε α : Type} : Step α → Ledger ε α
  | .done a s => .done a s
  | .failed e s => .failed e s
  | .waiting id label s unwind resume => .waiting id label s unwind fun s => (resume s).ledger

namespace Ledger
variable {ε α β : Type}

def bind (next : α → State → Ledger ε β) : Ledger ε α → Ledger ε β
  | .done a s => next a s
  | .failed e s => .failed e s
  | .waiting id label s unwind resume =>
    .waiting id label s unwind fun s => (resume s).bind next
  | .entry e rest => .entry e (rest.bind next)

def ensuring (cleanup : State → State) : Ledger ε α → Ledger ε α
  | .done a s => .done a (cleanup s)
  | .failed e s => .failed e (cleanup s)
  | .waiting id label s unwind resume =>
    .waiting id label s (cleanup ∘ unwind) fun s => (resume s).ensuring cleanup
  | .entry e rest => .entry e (rest.ensuring cleanup)

def erase : Ledger ε α → Step α
  | .done a s => .done a s
  | .failed e s => .failed e s
  | .waiting id label s unwind resume => .waiting id label s unwind fun s => (resume s).erase
  | .entry _ rest => rest.erase

/-- The entries that a run of at most `polls` polls makes, in order. -/
def entries : Ledger ε α → (polls : Nat) → Schedule → List ε
  | .done _ _, _, _ => []
  | .failed _ _, _, _ => []
  | .waiting id label s _ resume, polls, schedule =>
    match schedule.progress id with
    | .completed => (resume s).entries polls schedule
    | .pending needed =>
      if needed < polls then
        (resume (s.complete label)).entries (polls - needed) (schedule.set id .completed)
      else []
    | .never => []
  | .entry e rest, polls, schedule => e :: rest.entries polls schedule

theorem erase_ledger (x : Step α) : (x.ledger : Ledger ε α).erase = x := by
  induction x with
  | done a s => rfl
  | failed e s => rfl
  | waiting id label s unwind resume ih =>
    simp only [Step.ledger, erase, Step.waiting.injEq, true_and]
    exact funext ih

theorem ledger_bind (x : Step α) (next : α → State → Step β) :
    ((x.bind next).ledger : Ledger ε β) = x.ledger.bind fun a s => (next a s).ledger := by
  induction x with
  | done a s => rfl
  | failed e s => rfl
  | waiting id label s unwind resume ih =>
    simp only [Step.bind, Step.ledger, bind, Ledger.waiting.injEq, true_and]
    exact funext ih

theorem erase_bind (x : Ledger ε α) (next : α → State → Ledger ε β) :
    (x.bind next).erase = x.erase.bind fun a s => (next a s).erase := by
  induction x with
  | done a s => rfl
  | failed e s => rfl
  | waiting id label s unwind resume ih =>
    simp only [bind, erase, Step.bind, Step.waiting.injEq, true_and]
    exact funext ih
  | entry e rest ih => exact ih

theorem erase_ensuring (cleanup : State → State) (x : Ledger ε α) :
    (x.ensuring cleanup).erase = x.erase.ensuring cleanup := by
  induction x with
  | done a s => rfl
  | failed e s => rfl
  | waiting id label s unwind resume ih =>
    simp only [ensuring, erase, Step.ensuring, Step.waiting.injEq, true_and]
    exact funext ih
  | entry e rest ih => exact ih

/-- After the entries `before`: at every end, `P` holds of the ending, the entries made by then
    and the state left behind. -/
inductive Ends (P : Ending α → List ε → State → Prop) : List ε → Ledger ε α → Prop where
  | done {before : List ε} {a : α} {s : State} (h : P (.finished a) before s) :
      Ends P before (.done a s)
  | failed {before : List ε} {e : EvalError} {s : State} (h : P (.failed e) before s) :
      Ends P before (.failed e s)
  | waiting {before : List ε} {id : Nat} {label : Option String} {s : State}
      {unwind : State → State} {resume : State → Ledger ε α}
      (abandoned : P .unfinished before (unwind s)) (ready : Ends P before (resume s))
      (completed : Ends P before (resume (s.complete label))) :
      Ends P before (.waiting id label s unwind resume)
  | entry {before : List ε} {e : ε} {rest : Ledger ε α} (h : Ends P (before ++ [e]) rest) :
      Ends P before (.entry e rest)

namespace Ends
variable {P : Ending α → List ε → State → Prop} {Q : Ending β → List ε → State → Prop}
  {before : List ε}

theorem bind {x : Ledger ε α} {next : α → State → Ledger ε β} (h : Ends P before x)
    (failed : ∀ e es s, P (.failed e) es s → Q (.failed e) es s)
    (abandoned : ∀ es s, P .unfinished es s → Q .unfinished es s)
    (step : ∀ a es s, P (.finished a) es s → Ends Q es (next a s)) :
    Ends Q before (x.bind next) := by
  induction h with
  | done h => exact step _ _ _ h
  | failed h => exact .failed (failed _ _ _ h)
  | waiting left _ _ ready completed => exact .waiting (abandoned _ _ left) ready completed
  | entry _ ih => exact .entry ih

theorem ensuring {Q : Ending α → List ε → State → Prop} {cleanup : State → State}
    {x : Ledger ε α} (h : Ends P before x)
    (closes : ∀ ending es s, P ending es s → Q ending es (cleanup s)) :
    Ends Q before (x.ensuring cleanup) := by
  induction h with
  | done h => exact .done (closes _ _ _ h)
  | failed h => exact .failed (closes _ _ _ h)
  | waiting left _ _ ready completed => exact .waiting (closes _ _ _ left) ready completed
  | entry _ ih => exact .entry ih

theorem of_gives {R : α → State → Prop} {x : Step α} (gives : x.Gives R)
    (early : ∀ ending s, (∀ a, ending ≠ .finished a) → P ending before s)
    (result : ∀ a s, R a s → P (.finished a) before s) : Ends P before x.ledger := by
  induction gives with
  | done given => exact .done (result _ _ given)
  | failed => exact .failed (early _ _ nofun)
  | waiting _ _ ready completed => exact .waiting (early _ _ nofun) ready completed

theorem bind_gives {R : α → State → Prop} {x : Step α} {next : α → State → Ledger ε β}
    (gives : x.Gives R) (early : ∀ ending s, (∀ b, ending ≠ .finished b) → Q ending before s)
    (step : ∀ a s, R a s → Ends Q before (next a s)) : Ends Q before (x.ledger.bind next) := by
  induction gives with
  | done given => exact step _ _ given
  | failed => exact .failed (early _ _ nofun)
  | waiting _ _ ready completed => exact .waiting (early _ _ nofun) ready completed

theorem of_keeps {K : State → State → Prop} {x : Step α} {s : State} (h : x.Keeps K s)
    (trans : ∀ s t u, K s t → K t u → K s u) (kept : ∀ ending t, K s t → P ending before t) :
    Ends P before x.ledger := by
  induction h with
  | done h => exact .done (kept _ _ h)
  | failed h => exact .failed (kept _ _ h)
  | waiting left _ _ ready completed =>
    have later := fun ending t between => kept ending t (trans _ _ _ left between)
    exact .waiting (kept _ _ left) (ready later) (completed later)

theorem mono {Q : Ending α → List ε → State → Prop} {x : Ledger ε α} (h : Ends P before x)
    (weaker : ∀ ending es s, P ending es s → Q ending es s) : Ends Q before x := by
  induction h with
  | done h => exact .done (weaker _ _ _ h)
  | failed h => exact .failed (weaker _ _ _ h)
  | waiting left _ _ ready completed => exact .waiting (weaker _ _ _ left) ready completed
  | entry _ ih => exact .entry ih

theorem with_results {R : α → State → Prop} {x : Ledger ε α} (h : Ends P before x)
    (gives : x.erase.Gives R) :
    Ends (fun ending es s => P ending es s ∧ ∀ a, ending = .finished a → R a s) before x := by
  induction h with
  | done h =>
    cases gives with
    | done result => exact .done ⟨h, fun _ same => by cases same; exact result⟩
  | failed h => exact .failed ⟨h, fun _ same => by cases same⟩
  | waiting left _ _ ready completed =>
    cases gives with
    | waiting now later =>
      exact .waiting ⟨left, fun _ same => by cases same⟩ (ready now) (completed later)
  | entry _ ih => exact .entry (ih gives)

theorem runWaiting {x : Ledger ε α} (h : Ends P before x) (polls : Nat) (schedule : Schedule) :
    P (x.erase.runWaiting polls schedule).ending (before ++ x.entries polls schedule)
      (x.erase.runWaiting polls schedule).state := by
  induction h generalizing polls schedule with
  | done h => simpa only [erase, Step.runWaiting, entries, List.append_nil] using h
  | failed h => simpa only [erase, Step.runWaiting, entries, List.append_nil] using h
  | @waiting before id label s unwind resume left _ _ ready completed =>
    simp only [erase, Step.runWaiting, entries]
    cases schedule.progress id with
    | completed => exact ready polls schedule
    | never => simpa only [List.append_nil] using left
    | pending needed =>
      by_cases enough : needed < polls
      · simpa only [enough, if_true] using completed (polls - needed) _
      · simpa only [enough, if_false, List.append_nil] using left
  | @entry before e rest _ ih =>
    simpa only [erase, entries, List.append_assoc, List.singleton_append] using ih polls schedule

theorem runNow {x : Ledger ε α} (h : Ends P before x)
    (refused : ∀ es s, P .unfinished es s → P (.failed .pendingValue) es s)
    (schedule : Schedule) :
    P (x.erase.runNow schedule).ending (before ++ x.entries 1 schedule)
      (x.erase.runNow schedule).state := by
  have polled := h.runWaiting 1 schedule
  rw [Step.runNow_eq, Run.refused_state]
  unfold Run.refused
  split
  · rename_i waiting
    rw [waiting] at polled
    exact refused _ _ polled
  · exact polled
  · exact polled

end Ends
end Ledger

def Booked (ε α : Type) := State → Ledger ε α

namespace Booked
variable {ε α β : Type}

instance : Monad (Booked ε) where
  pure a := fun s => .done a s
  bind t f := fun s => (t s).bind fun a s => f a s

def lift (t : Task α) : Booked ε α := fun s => (t s).ledger

def asks (f : State → α) : Booked ε α := fun s => .done (f s) s

def enter (e : State → ε) : Booked ε Unit := fun s => .entry (e s) (.done () s)

def within (scope : Object) (t : Booked ε α) : Booked ε α := fun s =>
  (t (s.mapBindings (·.push scope))).ensuring State.pop

def isolated (data : Object) (t : Booked ε α) : Booked ε α := fun s =>
  (t (s.spawn data)).ensuring (State.rejoin s)

def erase (t : Booked ε α) : Task α := fun s => (t s).erase

theorem bind_apply (t : Booked ε α) (f : α → Booked ε β) (s : State) :
    (t >>= f) s = (t s).bind fun a s => f a s := rfl

theorem erase_bind (t : Booked ε α) (f : α → Booked ε β) :
    (t >>= f).erase = t.erase >>= fun a => (f a).erase :=
  funext fun s => (t s).erase_bind fun a s => f a s

theorem erase_lift (t : Task α) : (lift t : Booked ε α).erase = t :=
  funext fun s => Ledger.erase_ledger (t s)

theorem lift_bind (t : Task α) (f : α → Task β) :
    (lift (t >>= f) : Booked ε β) = lift t >>= fun a => lift (f a) :=
  funext fun s => Ledger.ledger_bind (t s) fun a s => f a s

theorem erase_pure (a : α) : (Pure.pure a : Booked ε α).erase = Pure.pure a := rfl

theorem erase_enter (e : State → ε) : (enter e).erase = Pure.pure () := rfl

theorem erase_within (scope : Object) (t : Booked ε α) :
    (within scope t).erase = Task.within scope t.erase :=
  funext fun s => Ledger.erase_ensuring State.pop (t (s.mapBindings (·.push scope)))

theorem erase_isolated (data : Object) (t : Booked ε α) :
    (isolated data t).erase = Task.isolated data t.erase :=
  funext fun s => Ledger.erase_ensuring (State.rejoin s) (t (s.spawn data))

variable {J : List ε → State → Prop} {Excused : EvalError → State → Prop}

/-- What `J` says of the entries made so far and the state holds again at every end, but for
    failures that are excused. -/
def Maintains (J : List ε → State → Prop) (Excused : EvalError → State → Prop) (t : Booked ε α) :
    Prop :=
  ∀ es s, J es s →
    (t s).Ends (fun ending es s => J es s ∨ ∃ e, ending = .failed e ∧ Excused e s) es

theorem Maintains.pure (a : α) : (Pure.pure a : Booked ε α).Maintains J Excused :=
  fun _ _ holds => .done (.inl holds)

theorem Maintains.bind {t : Booked ε α} {f : α → Booked ε β} (first : t.Maintains J Excused)
    (rest : ∀ a, (f a).Maintains J Excused) : (t >>= f).Maintains J Excused := by
  intro es s holds
  refine (first es s holds).bind ?_ ?_ ?_
  · rintro e es s (holds | ⟨_, same, excused⟩)
    · exact .inl holds
    · cases same
      exact .inr ⟨e, rfl, excused⟩
  · rintro es s (holds | ⟨_, same, -⟩)
    · exact .inl holds
    · cases same
  · rintro a es s (holds | ⟨_, same, -⟩)
    · exact rest a es s holds
    · cases same

theorem Maintains.ensuring {t : Booked ε α} (h : t.Maintains J Excused)
    (enter cleanup : State → State) (entered : ∀ es s, J es s → J es (enter s))
    (left : ∀ es s, J es s → J es (cleanup s))
    (excused : ∀ e s, Excused e s → Excused e (cleanup s)) :
    Maintains J Excused fun s => (t (enter s)).ensuring cleanup := by
  intro es s holds
  refine (h es (enter s) (entered es s holds)).ensuring ?_
  rintro ending es s (holds | ⟨e, failed, excuse⟩)
  · exact .inl (left es s holds)
  · exact .inr ⟨e, failed, excused e s excuse⟩

theorem maintains_lift {K : State → State → Prop} {t : Task α} (kept : t.Keeps K)
    (trans : ∀ s t u, K s t → K t u → K s u) (holds : ∀ es s t, J es s → K s t → J es t) :
    (lift t : Booked ε α).Maintains J Excused := by
  intro es s start
  refine Ledger.Ends.of_keeps (kept s) trans ?_
  intro ending t changed
  exact .inl (holds es s t start changed)

def NoExcuse (_ : EvalError) (_ : State) : Prop := False

theorem Maintains.always {t : Booked ε α} (h : t.Maintains J NoExcuse) {es : List ε} {s : State}
    (holds : J es s) : (t s).Ends (fun _ es s => J es s) es := by
  refine (h es s holds).mono ?_
  rintro ending es s (holds | ⟨_, -, excuse⟩)
  · exact holds
  · exact absurd excuse id

end Booked
end Templating
