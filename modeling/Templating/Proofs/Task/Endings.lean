import Templating.Proofs.Task.Laws
import Templating.Task.Schedule

/-!
How a computation can end: with a result, with an error, or abandoned where it waits for a
value.
-/
namespace Templating

deriving instance DecidableEq for Ending

namespace Step
variable {α β : Type}

inductive Keeps (K : State → State → Prop) : State → Step α → Prop where
  | done {s t : State} {a : α} (h : K s t) : Keeps K s (.done a t)
  | failed {s t : State} {e : EvalError} (h : K s t) : Keeps K s (.failed e t)
  | waiting {s t : State} {id : Nat} {label : Option String} {unwind : State → State}
      {resume : State → Step α} (abandoned : K s (unwind t))
      (ready : Keeps K (unwind t) (resume t))
      (completed : Keeps K (unwind t) (resume (t.complete label))) :
      Keeps K s (.waiting id label t unwind resume)

namespace Keeps
variable {K I : State → State → Prop} {s : State} {x : Step α}

theorem mono {K' : State → State → Prop} (h : x.Keeps K s) (weaker : ∀ s t, K s t → K' s t) :
    x.Keeps K' s := by
  induction h with
  | done h => exact .done (weaker _ _ h)
  | failed h => exact .failed (weaker _ _ h)
  | waiting abandoned _ _ ready completed => exact .waiting (weaker _ _ abandoned) ready completed

theorem from_earlier (trans : ∀ s t u, K s t → K t u → K s u) {r : State} (before : K r s)
    (h : x.Keeps K s) : x.Keeps K r := by
  cases h with
  | done h => exact .done (trans _ _ _ before h)
  | failed h => exact .failed (trans _ _ _ before h)
  | waiting abandoned ready completed =>
    exact .waiting (trans _ _ _ before abandoned) ready completed

theorem bind {J : State → State → Prop} (before : ∀ s t u, J s t → J t u → J s u)
    (trans : ∀ s t u, K s t → K t u → K s u) (weaker : ∀ s t, J s t → K s t)
    {next : α → State → Step β} (h : x.Keeps J s)
    (step : ∀ a t, J s t → (next a t).Keeps K t) : (x.bind next).Keeps K s := by
  induction h with
  | done h => exact (step _ _ h).from_earlier trans (weaker _ _ h)
  | failed h => exact .failed (weaker _ _ h)
  | waiting abandoned _ _ ready completed =>
    have later : ∀ a t, J _ t → (next a t).Keeps K t := fun a t between =>
      step a t (before _ _ _ abandoned between)
    exact .waiting (weaker _ _ abandoned) (ready later) (completed later)

theorem ensuring (refl : ∀ s, I s s) (trans : ∀ s t u, I s t → I t u → I s u)
    {cleanup : State → State} (h : x.Keeps I s)
    (closes : ∀ t u, I s t → I t u → K (cleanup t) (cleanup u)) :
    (x.ensuring cleanup).Keeps K (cleanup s) := by
  induction h with
  | done h => exact .done (closes _ _ (refl _) h)
  | failed h => exact .failed (closes _ _ (refl _) h)
  | waiting abandoned _ _ ready completed =>
    have later : ∀ t u, I _ t → I t u → K (cleanup t) (cleanup u) := fun t u between =>
      closes t u (trans _ _ _ abandoned between)
    exact .waiting (closes _ _ (refl _) abandoned) (ready later) (completed later)

theorem runNow (trans : ∀ s t u, K s t → K t u → K s u) (h : x.Keeps K s) (schedule : Schedule) :
    K s (x.runNow schedule).state := by
  induction h generalizing schedule with
  | done h => exact h
  | failed h => exact h
  | @waiting s t id label unwind resume abandoned _ _ ready completed =>
    simp only [Step.runNow]
    split
    · exact trans _ _ _ abandoned (ready schedule)
    · exact trans _ _ _ abandoned (completed _)
    · exact abandoned
    · exact abandoned

theorem runWaiting (trans : ∀ s t u, K s t → K t u → K s u) (h : x.Keeps K s) (polls : Nat)
    (schedule : Schedule) : K s (x.runWaiting polls schedule).state := by
  induction h generalizing polls schedule with
  | done h => exact h
  | failed h => exact h
  | @waiting s t id label unwind resume abandoned _ _ ready completed =>
    simp only [Step.runWaiting]
    split
    · exact trans _ _ _ abandoned (ready polls schedule)
    · split
      · exact trans _ _ _ abandoned (completed _ _)
      · exact abandoned
    · exact abandoned

/-- Waiting longer gets to a state related to the one that less patience leaves. -/
theorem more_polls (refl : ∀ s, K s s) (trans : ∀ s t u, K s t → K t u → K s u)
    (h : x.Keeps K s) {few many : Nat} (more : few ≤ many) (schedule : Schedule) :
    K (x.runWaiting few schedule).state (x.runWaiting many schedule).state := by
  induction h generalizing few many schedule with
  | done h => exact refl _
  | failed h => exact refl _
  | @waiting s t id label unwind resume abandoned _ rest ready completed =>
    simp only [Step.runWaiting]
    cases schedule.progress id with
    | completed => exact ready more schedule
    | never => exact refl _
    | pending needed =>
      dsimp only
      by_cases early : needed < few
      · rw [if_pos early, if_pos (by omega)]
        exact completed (by omega) _
      · rw [if_neg early]
        -- The earlier run has given up; the later one gives up here too, or goes on from here.
        split
        · exact rest.runWaiting trans _ _
        · exact refl _

end Keeps
end Step

namespace Task
variable {α β : Type} {K : State → State → Prop}

def Keeps (K : State → State → Prop) (t : Task α) : Prop := ∀ s, (t s).Keeps K s

theorem Keeps.mono {K' : State → State → Prop} {t : Task α} (h : t.Keeps K)
    (weaker : ∀ s s', K s s' → K' s s') : t.Keeps K' := fun s => (h s).mono weaker

theorem keeps_pure (refl : ∀ s, K s s) (a : α) : (pure a : Task α).Keeps K := fun s =>
  .done (refl s)

theorem keeps_modify {change : State → State} (related : ∀ s, K s (change s)) :
    (modify change).Keeps K := fun s => .done (related s)

theorem Keeps.bind (trans : ∀ s t u, K s t → K t u → K s u) {t : Task α} {f : α → Task β}
    (first : t.Keeps K) (rest : ∀ a, (f a).Keeps K) : (t >>= f).Keeps K := fun s =>
  (first s).bind trans trans (fun _ _ h => h) fun a s' _ => rest a s'

/-- A run from `s` can stop in `final`: under some schedule, either driver, any patience. -/
def StopsIn (t : Task α) (s final : State) : Prop :=
  ∃ schedule, final = (t.runNow s schedule).state ∨
    ∃ polls, final = ((t s).runWaiting polls schedule).state

theorem Keeps.stops (trans : ∀ s t u, K s t → K t u → K s u) {t : Task α} {s final : State}
    (h : t.Keeps K) (stops : t.StopsIn s final) : K s final := by
  obtain ⟨schedule, rfl | ⟨polls, rfl⟩⟩ := stops
  · exact (h s).runNow trans schedule
  · exact (h s).runWaiting trans polls schedule

end Task
end Templating
