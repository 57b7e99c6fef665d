import Templating.Proofs.Task.Endings

/-!
Two computations that go in step: they wait for the same values, in the same order, and end
alike.
-/
namespace Templating

namespace Step
variable {α β γ δ : Type}

/-- Results and their states are related by `Q`, all other ends by `R`. The error
    for a value that is not there belongs to the driver: neither side raises it. -/
inductive Agree (Q : α → State → β → State → Prop) (R : State → State → Prop) :
    Step α → Step β → Prop where
  | done {a : α} {s : State} {b : β} {t : State} (h : Q a s b t) : Agree Q R (.done a s) (.done b t)
  | failed {e : EvalError} {s t : State} (h : R s t) (own : e ≠ .pendingValue) :
      Agree Q R (.failed e s) (.failed e t)
  | waiting {id : Nat} {label : Option String} {s t : State} {unwind unwind' : State → State}
      {resume : State → Step α} {resume' : State → Step β} (abandoned : R (unwind s) (unwind' t))
      (ready : Agree Q R (resume s) (resume' t))
      (completed : Agree Q R (resume (s.complete label)) (resume' (t.complete label))) :
      Agree Q R (.waiting id label s unwind resume) (.waiting id label t unwind' resume')

variable {Q Q' : α → State → β → State → Prop} {R R' : State → State → Prop}
  {x : Step α} {y : Step β}

theorem Agree.mono (h : Agree Q R x y) (result : ∀ a s b t, Q a s b t → Q' a s b t)
    (early : ∀ s t, R s t → R' s t) : Agree Q' R' x y := by
  induction h with
  | done h => exact .done (result _ _ _ _ h)
  | failed h own => exact .failed (early _ _ h) own
  | waiting abandoned _ _ ready completed => exact .waiting (early _ _ abandoned) ready completed

theorem Agree.bind {P : γ → State → δ → State → Prop} {next : α → State → Step γ}
    {next' : β → State → Step δ} (h : Agree Q R x y)
    (step : ∀ a s b t, Q a s b t → Agree P R (next a s) (next' b t)) :
    Agree P R (x.bind next) (y.bind next') := by
  induction h with
  | done h => exact step _ _ _ _ h
  | failed h own => exact .failed h own
  | waiting abandoned _ _ ready completed => exact .waiting abandoned ready completed

theorem Agree.bind_left {P : γ → State → β → State → Prop} {next : α → State → Step γ}
    (h : Agree Q R x y) (step : ∀ a s b t, Q a s b t → Agree P R (next a s) (.done b t)) :
    Agree P R (x.bind next) y := by
  rw [← y.bind_done_right]
  exact h.bind step

theorem Agree.bind_right {P : α → State → γ → State → Prop} {next : β → State → Step γ}
    (h : Agree Q R x y) (step : ∀ a s b t, Q a s b t → Agree P R (.done a s) (next b t)) :
    Agree P R x (y.bind next) := by
  rw [← x.bind_done_right]
  exact h.bind step

theorem Agree.ensuring {cleanup cleanup' : State → State} (h : Agree Q R x y)
    (result : ∀ a s b t, Q a s b t → Q' a (cleanup s) b (cleanup' t))
    (early : ∀ s t, R s t → R' (cleanup s) (cleanup' t)) :
    Agree Q' R' (x.ensuring cleanup) (y.ensuring cleanup') := by
  induction h with
  | done h => exact .done (result _ _ _ _ h)
  | failed h own => exact .failed (early _ _ h) own
  | waiting abandoned _ _ ready completed => exact .waiting (early _ _ abandoned) ready completed

theorem Agree.keeps {K : State → State → Prop} {M : State → Prop} {r : State} (h : Agree Q R x y)
    (result : ∀ a s b t, Q a s b t → M s) (early : ∀ s t, R s t → M s) (start : M r)
    (related : ∀ s t, M s → M t → K s t) : x.Keeps K r := by
  induction h generalizing r with
  | done h => exact .done (related _ _ start (result _ _ _ _ h))
  | failed h own => exact .failed (related _ _ start (early _ _ h))
  | waiting abandoned _ _ ready completed =>
    have left := early _ _ abandoned
    exact .waiting (related _ _ start left) (ready left) (completed left)

end Step

inductive Run.Agree {α β : Type} (Q : α → State → β → State → Prop) (R : State → State → Prop) :
    Run α → Run β → Prop where
  | finished {a : α} {s : State} {b : β} {t : State} {schedule : Schedule} (h : Q a s b t) :
      Agree Q R ⟨.finished a, s, schedule⟩ ⟨.finished b, t, schedule⟩
  | failed {e : EvalError} {s t : State} {schedule : Schedule} (h : R s t) :
      Agree Q R ⟨.failed e, s, schedule⟩ ⟨.failed e, t, schedule⟩
  | unfinished {s t : State} {schedule : Schedule} (h : R s t) :
      Agree Q R ⟨.unfinished, s, schedule⟩ ⟨.unfinished, t, schedule⟩

theorem Run.Agree.image {α : Type} {Q : State → State → Prop} {f : State → State} {r r' : Run α}
    (h : Run.Agree (fun a s b t => a = b ∧ Q s t) (fun s t => t = f s) r r')
    (result : ∀ s t, Q s t → t = f s) : r' = { r with state := f r.state } := by
  cases h with
  | finished related =>
    obtain ⟨rfl, related⟩ := related
    rw [result _ _ related]
  | failed related => rw [related]
  | unfinished related => rw [related]

namespace Step
variable {α β : Type} {Q : α → State → β → State → Prop} {R : State → State → Prop}
  {x : Step α} {y : Step β}

theorem Agree.runNow (h : Agree Q R x y) (schedule : Schedule) :
    Run.Agree Q R (x.runNow schedule) (y.runNow schedule) := by
  induction h generalizing schedule with
  | done h => exact .finished h
  | failed h own => exact .failed h
  | @waiting id label s t unwind unwind' resume resume' abandoned _ _ ready completed =>
    simp only [Step.runNow]
    cases schedule.progress id with
    | completed => exact ready schedule
    | never => exact .failed abandoned
    | pending polls =>
      cases polls with
      | zero => exact completed _
      | succ polls => exact .failed abandoned

theorem Agree.runWaiting (h : Agree Q R x y) (polls : Nat) (schedule : Schedule) :
    Run.Agree Q R (x.runWaiting polls schedule) (y.runWaiting polls schedule) := by
  induction h generalizing polls schedule with
  | done h => exact .finished h
  | failed h own => exact .failed h
  | @waiting id label s t unwind unwind' resume resume' abandoned _ _ ready completed =>
    simp only [Step.runWaiting]
    cases schedule.progress id with
    | completed => exact ready polls schedule
    | never => exact .unfinished abandoned
    | pending needed =>
      by_cases enough : needed < polls
      · simpa only [enough, if_true] using completed (polls - needed) _
      · simpa only [enough, if_false] using .unfinished abandoned

/-- A run that polls does not end with the error for a value that is not there. -/
theorem Agree.own_errors (h : Agree Q R x y) (polls : Nat) (schedule : Schedule) :
    (x.runWaiting polls schedule).ending ≠ .failed .pendingValue := by
  induction h generalizing polls schedule with
  | done h => simp [Step.runWaiting]
  | failed h own => simpa [Step.runWaiting] using own
  | @waiting id label s t unwind unwind' resume resume' abandoned _ _ ready completed =>
    simp only [Step.runWaiting]
    split
    · exact ready polls schedule
    · split
      · exact completed _ _
      · simp
    · simp

end Step

namespace Task
variable {α β : Type} {P P' Q Q' R E : State → State → Prop}

/-- From states related by `P` the task goes in step with itself, to states related by `Q`;
    errors and giving up leave states related by `E`. -/
def Shifts (P Q E : State → State → Prop) (t : Task α) : Prop :=
  ∀ s s', P s s' → Step.Agree (fun a x b y => a = b ∧ Q x y) E (t s) (t s')

theorem Shifts.bind {t : Task α} {f : α → Task β} (first : t.Shifts P Q E)
    (rest : ∀ a, (f a).Shifts Q Q' E) : (t >>= f).Shifts P Q' E := by
  intro s s' related
  refine (first s s' related).bind ?_
  rintro a x _ y ⟨rfl, shifted⟩
  exact rest a x y shifted

theorem Shifts.weaken {t : Task α} (h : t.Shifts P Q E) (before : ∀ s t, P' s t → P s t)
    (after : ∀ s t, Q s t → Q' s t) : t.Shifts P' Q' E := fun s s' related =>
  (h s s' (before s s' related)).mono (fun _ x _ y same => ⟨same.1, after x y same.2⟩)
    fun _ _ early => early

def Respects (R : State → State → Prop) (t : Task α) : Prop :=
  ∀ s s', R s s' → Step.Agree (fun a x b y => a = b ∧ R x y) R (t s) (t s')

theorem respects_pure (a : α) : (pure a : Task α).Respects R := fun _ _ related =>
  .done ⟨rfl, related⟩

theorem respects_modify {change : State → State} (both : ∀ s t, R s t → R (change s) (change t)) :
    (modify change).Respects R := fun s t related => .done ⟨rfl, both s t related⟩

theorem Respects.bind {t : Task α} {f : α → Task β} (first : t.Respects R)
    (rest : ∀ a, (f a).Respects R) : (t >>= f).Respects R := Shifts.bind first rest

theorem Respects.shifts {t : Task α} (h : t.Respects R) (early : ∀ s t, R s t → E s t) :
    t.Shifts R R E := fun s s' related => (h s s' related).mono (fun _ _ _ _ same => same) early

end Task
end Templating
