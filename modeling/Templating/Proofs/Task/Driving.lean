import Templating.Proofs.Task.Agreement

/-!
Running one computation after another. A run stands at a moment: a state, how far the deferred
values are, and a driver with the patience it has left.
-/
namespace Templating

inductive Driver where
  | now
  | waiting (polls : Nat)

namespace Driver

def polls : Driver → Nat
  | .now => 1
  | .waiting polls => polls

def spend (needed : Nat) : Driver → Driver
  | .now => .now
  | .waiting polls => .waiting (polls - needed)

def refusal {α : Type} : Driver → Ending α
  | .now => .failed .pendingValue
  | .waiting _ => .unfinished

def run {α : Type} (d : Driver) (t : Task α) (s : State) (schedule : Schedule) : Run α :=
  match d with
  | .now => t.runNow s schedule
  | .waiting polls => (t s).runWaiting polls schedule

end Driver

structure Moment where
  state : State
  schedule : Schedule
  driver : Driver

structure Halt (α : Type) where
  ending : Ending α
  moment : Moment

namespace Halt
variable {α β : Type}

def run (h : Halt α) : Run α := ⟨h.ending, h.moment.state, h.moment.schedule⟩

def andThen (next : α → Moment → Halt β) : Halt α → Halt β
  | ⟨.finished a, m⟩ => next a m
  | ⟨.failed e, m⟩ => ⟨.failed e, m⟩
  | ⟨.unfinished, m⟩ => ⟨.unfinished, m⟩

theorem andThen_refusal (next : α → Moment → Halt β) (d : Driver) (m : Moment) :
    (⟨d.refusal, m⟩ : Halt α).andThen next = ⟨d.refusal, m⟩ := by
  cases d <;> rfl

theorem andThen_failed {h : Halt α} {e : EvalError} (failed : h.ending = .failed e)
    (next : α → Moment → Halt β) : (h.andThen next).ending = .failed e := by
  obtain ⟨ending, m⟩ := h
  subst failed
  rfl

theorem andThen_finished {h : Halt α} {next : α → Moment → Halt β} {b : β}
    (finished : (h.andThen next).ending = .finished b) :
    ∃ a, h.ending = .finished a ∧ (next a h.moment).ending = .finished b := by
  obtain ⟨ending, m⟩ := h
  cases ending with
  | finished a => exact ⟨a, rfl, finished⟩
  | failed e => cases finished
  | unfinished => cases finished

inductive Agree (Q : α → State → β → State → Prop) (R : State → State → Prop) :
    Halt α → Halt β → Prop where
  | finished {a : α} {s : State} {b : β} {t : State} {schedule : Schedule} {d : Driver}
      (h : Q a s b t) : Agree Q R ⟨.finished a, s, schedule, d⟩ ⟨.finished b, t, schedule, d⟩
  | failed {e : EvalError} {s t : State} {schedule : Schedule} {d : Driver} (h : R s t) :
      Agree Q R ⟨.failed e, s, schedule, d⟩ ⟨.failed e, t, schedule, d⟩
  | unfinished {s t : State} {schedule : Schedule} {d : Driver} (h : R s t) :
      Agree Q R ⟨.unfinished, s, schedule, d⟩ ⟨.unfinished, t, schedule, d⟩

theorem Agree.refused {Q : α → State → β → State → Prop} {R : State → State → Prop} {s t : State}
    (h : R s t) (schedule : Schedule) (d : Driver) :
    Agree Q R ⟨d.refusal, s, schedule, d⟩ ⟨d.refusal, t, schedule, d⟩ := by
  cases d with
  | now => exact .failed h
  | waiting polls => exact .unfinished h

end Halt

namespace Step
variable {α β : Type}

def drive : Step α → Schedule → Driver → Halt α
  | .done a s, schedule, d => ⟨.finished a, s, schedule, d⟩
  | .failed e s, schedule, d => ⟨.failed e, s, schedule, d⟩
  | .waiting id label s unwind resume, schedule, d =>
    match schedule.progress id with
    | .completed => (resume s).drive schedule d
    | .pending needed =>
      if needed < d.polls then
        (resume (s.complete label)).drive (schedule.set id .completed) (d.spend needed)
      else ⟨d.refusal, unwind s, schedule.set id (.pending (needed - d.polls)), d⟩
    | .never => ⟨d.refusal, unwind s, schedule, d⟩

theorem runNow_eq_drive (x : Step α) (schedule : Schedule) :
    x.runNow schedule = (x.drive schedule .now).run := by
  induction x generalizing schedule with
  | done a s => rfl
  | failed e s => rfl
  | waiting id label s unwind resume ih =>
    simp only [runNow, drive]
    cases schedule.progress id with
    | completed => exact ih s schedule
    | never => rfl
    | pending needed =>
      cases needed with
      | zero => exact ih _ _
      | succ needed => simp [Driver.polls, Driver.refusal, Halt.run]

theorem runWaiting_eq_drive (x : Step α) (polls : Nat) (schedule : Schedule) :
    x.runWaiting polls schedule = (x.drive schedule (.waiting polls)).run := by
  induction x generalizing polls schedule with
  | done a s => rfl
  | failed e s => rfl
  | waiting id label s unwind resume ih =>
    simp only [runWaiting, drive, Driver.polls, Driver.spend]
    cases schedule.progress id with
    | completed => exact ih s polls schedule
    | never => rfl
    | pending needed =>
      by_cases enough : needed < polls
      · simpa only [enough, if_true] using ih _ _ _
      · simp only [enough, if_false]
        rfl

theorem drive_bind (x : Step α) (next : α → State → Step β) (schedule : Schedule) (d : Driver) :
    (x.bind next).drive schedule d
      = (x.drive schedule d).andThen fun a m => (next a m.state).drive m.schedule m.driver := by
  induction x generalizing schedule d with
  | done a s => rfl
  | failed e s => rfl
  | waiting id label s unwind resume ih =>
    simp only [bind, drive]
    cases schedule.progress id with
    | completed => exact ih s schedule d
    | never => exact (Halt.andThen_refusal _ _ _).symm
    | pending needed =>
      dsimp only
      split
      · exact ih _ _ _
      · exact (Halt.andThen_refusal _ _ _).symm

theorem Agree.drive {Q : α → State → β → State → Prop} {R : State → State → Prop} {x : Step α}
    {y : Step β} (h : Agree Q R x y) (schedule : Schedule) (d : Driver) :
    Halt.Agree Q R (x.drive schedule d) (y.drive schedule d) := by
  induction h generalizing schedule d with
  | done h => exact .finished h
  | failed h own => exact .failed h
  | @waiting id label s t unwind unwind' resume resume' abandoned _ _ ready completed =>
    simp only [Step.drive]
    cases schedule.progress id with
    | completed => exact ready schedule d
    | never => exact .refused abandoned schedule d
    | pending needed =>
      dsimp only
      split
      · exact completed _ _
      · exact .refused abandoned _ d

end Step

namespace Task
variable {α β : Type}

def drive (t : Task α) (m : Moment) : Halt α := (t m.state).drive m.schedule m.driver

theorem run_eq_drive (d : Driver) (t : Task α) (s : State) (schedule : Schedule) :
    d.run t s schedule = (t.drive ⟨s, schedule, d⟩).run := by
  cases d with
  | now => exact (t s).runNow_eq_drive schedule
  | waiting polls => exact (t s).runWaiting_eq_drive polls schedule

theorem drive_pure (a : α) (m : Moment) : (pure a : Task α).drive m = ⟨.finished a, m⟩ := rfl

theorem drive_bind (t : Task α) (f : α → Task β) (m : Moment) :
    (t >>= f).drive m = (t.drive m).andThen fun a m => (f a).drive m :=
  (t m.state).drive_bind (fun a s => f a s) m.schedule m.driver

theorem Keeps.drive {K : State → State → Prop} {t : Task α} (h : t.Keeps K)
    (trans : ∀ s t u, K s t → K t u → K s u) (m : Moment) :
    K m.state (t.drive m).moment.state := by
  have stops : t.StopsIn m.state (t.drive m).moment.state := by
    obtain ⟨s, schedule, d⟩ := m
    have same := congrArg Run.state (run_eq_drive d t s schedule)
    cases d with
    | now => exact ⟨schedule, .inl same.symm⟩
    | waiting polls => exact ⟨schedule, .inr ⟨polls, same.symm⟩⟩
  exact h.stops trans stops

end Task
end Templating
