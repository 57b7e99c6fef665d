import Templating.Proofs.Task.Agreement

namespace Templating

namespace Schedule

theorem lookup_update (entries : List (Nat × Progress)) (id i : Nat) (p : Progress) :
    (update id p entries).lookup i = if i = id then some p else entries.lookup i := by
  induction entries with
  | nil =>
    by_cases same : i = id
    · simp [update, same]
    · simp [update, same, List.lookup_cons, beq_false_of_ne same]
  | cons entry rest ih =>
    obtain ⟨j, q⟩ := entry
    unfold update
    by_cases here : j = id
    · subst here
      by_cases same : i = j
      · simp [same]
      · simp [same, List.lookup_cons, beq_false_of_ne same]
    · rw [if_neg here]
      by_cases same : i = j
      · simp [same, here]
      · simp [List.lookup_cons, beq_false_of_ne same, ih]

theorem progress_set (s : Schedule) (id i : Nat) (p : Progress) :
    (s.set id p).progress i = if i = id then p else s.progress i := by
  unfold progress set
  rw [lookup_update]
  split <;> rfl

theorem isCompleted_set (s : Schedule) (id : Nat) :
    (s.set id .completed).isCompleted = fun i => i == id || s.isCompleted i := by
  funext i
  rw [isCompleted, progress_set]
  by_cases same : i = id
  · simp [same]
  · simp [same, isCompleted]

def Finite (s : Schedule) : Prop := ∀ id, s.progress id ≠ .never

theorem Finite.set {s : Schedule} (finite : s.Finite) (id : Nat) :
    (s.set id .completed).Finite := by
  intro i
  rw [progress_set]
  split
  · simp
  · exact finite i

def delays (polls : List (Nat × Nat)) : Schedule := ⟨polls.map fun p => (p.1, .pending p.2)⟩

theorem progress_delays_cons (i n : Nat) (rest : List (Nat × Nat)) (id : Nat) :
    (delays ((i, n) :: rest)).progress id
      = if id = i then .pending n else (delays rest).progress id := by
  unfold progress delays
  by_cases same : id = i
  · simp [same]
  · simp [same, List.lookup_cons, beq_false_of_ne same]

theorem delays_finite (polls : List (Nat × Nat)) : (delays polls).Finite := by
  intro id
  induction polls with
  | nil => simp [progress, delays]
  | cons p rest ih =>
    rw [progress_delays_cons]
    split
    · simp
    · exact ih

theorem isCompleted_delays (polls : List (Nat × Nat)) (id : Nat) :
    (delays polls).isCompleted id = decide (id ∉ polls.map (·.1)) := by
  induction polls with
  | nil => simp [isCompleted, progress, delays]
  | cons p rest ih =>
    rw [isCompleted, progress_delays_cons, List.map_cons]
    by_cases same : id = p.1
    · simp [same]
    · rw [if_neg same, ← isCompleted, ih]
      simp [same]

end Schedule

def Run.refused {α : Type} (r : Run α) : Run α :=
  match r.ending with
  | .unfinished => { r with ending := .failed .pendingValue }
  | .finished _ | .failed _ => r

namespace Run
variable {α : Type}

theorem refused_state (r : Run α) : r.refused.state = r.state := by
  unfold refused
  split <;> rfl

theorem refused_of_ended {r : Run α} (ended : r.ending ≠ .unfinished) : r.refused = r := by
  unfold refused
  split
  · rename_i waiting
    exact absurd waiting ended
  · rfl
  · rfl

theorem refused_ending {r : Run α} (own : r.ending ≠ .failed .pendingValue) :
    r.refused.ending = .failed .pendingValue ↔ r.ending = .unfinished := by
  unfold refused
  split
  · rename_i waiting
    simp only [waiting]
  · rename_i result
    simp [result]
  · rename_i error
    simp only [error, reduceCtorEq, iff_false]
    rwa [← error]

end Run

namespace Step
variable {α : Type}

theorem runNow_eq (x : Step α) (schedule : Schedule) :
    x.runNow schedule = (x.runWaiting 1 schedule).refused := by
  induction x generalizing schedule with
  | done a s => rfl
  | failed e s => rfl
  | waiting id label s unwind resume ih =>
    simp only [runNow, runWaiting]
    cases schedule.progress id with
    | completed => exact ih s schedule
    | never => rfl
    | pending needed =>
      cases needed with
      | zero => exact ih _ _
      | succ needed => simp [Run.refused]

/-- More polls change nothing about a run that is not waiting any more. -/
theorem runWaiting_stable (x : Step α) {few many : Nat} (schedule : Schedule)
    (ended : (x.runWaiting few schedule).ending ≠ .unfinished) (more : few ≤ many) :
    x.runWaiting many schedule = x.runWaiting few schedule := by
  induction x generalizing few many schedule with
  | done a s => rfl
  | failed e s => rfl
  | waiting id label s unwind resume ih =>
    simp only [runWaiting] at ended ⊢
    cases progress : schedule.progress id with
    | completed =>
      simp only [progress] at ended ⊢
      exact ih s schedule ended more
    | never => rfl
    | pending needed =>
      -- The shorter run got past this value, so both have the same polls less afterwards.
      simp only [progress] at ended ⊢
      by_cases enough : needed < few
      · rw [if_pos enough] at ended ⊢
        rw [if_pos (by omega)]
        exact ih _ _ ended (by omega)
      · rw [if_neg enough] at ended
        exact absurd rfl ended

def completions : Step α → (polls : Nat) → Schedule → List Nat
  | .done _ _, _, _ => []
  | .failed _ _, _, _ => []
  | .waiting id label s _ resume, polls, schedule =>
    match schedule.progress id with
    | .completed => (resume s).completions polls schedule
    | .pending needed =>
      if needed < polls then
        id :: (resume (s.complete label)).completions (polls - needed) (schedule.set id .completed)
      else []
    | .never => []

theorem isCompleted_runWaiting (x : Step α) (polls : Nat) (schedule : Schedule) (i : Nat) :
    (x.runWaiting polls schedule).schedule.isCompleted i = true ↔
      schedule.isCompleted i = true ∨ i ∈ x.completions polls schedule := by
  induction x generalizing polls schedule with
  | done a s => simp [runWaiting, completions]
  | failed e s => simp [runWaiting, completions]
  | waiting id label s unwind resume ih =>
    simp only [runWaiting, completions]
    cases progress : schedule.progress id with
    | completed => exact ih s polls schedule
    | never => simp
    | pending needed =>
      dsimp only
      split
      · rw [ih, Schedule.isCompleted_set, List.mem_cons, Bool.or_eq_true, beq_iff_eq,
          or_assoc]
        exact or_left_comm
      · by_cases same : i = id
        · simp [Schedule.isCompleted, Schedule.progress_set, same, progress]
        · simp [Schedule.isCompleted, Schedule.progress_set, same]

end Step

/-- What comes of a computation, without a word about time. -/
structure Outcome (α : Type) where
  ending : Ending α
  state : State
  order : List Nat

namespace Step
variable {α : Type}

def outcome : Step α → (available : Nat → Bool) → Outcome α
  | .done a s, _ => ⟨.finished a, s, []⟩
  | .failed e s, _ => ⟨.failed e, s, []⟩
  | .waiting id label s _ resume, available =>
    if available id then (resume s).outcome available
    else
      let later := (resume (s.complete label)).outcome fun i => i == id || available i
      { later with order := id :: later.order }

theorem outcome_ends (x : Step α) (available : Nat → Bool) :
    (x.outcome available).ending ≠ .unfinished := by
  induction x generalizing available with
  | done a s => simp [outcome]
  | failed e s => simp [outcome]
  | waiting id label s unwind resume ih =>
    unfold outcome
    split
    · exact ih s available
    · exact ih _ _

theorem outcome_order (x : Step α) (available : Nat → Bool) :
    (x.outcome available).order.Nodup ∧
      ∀ id ∈ (x.outcome available).order, available id = false := by
  induction x generalizing available with
  | done a s => simp [outcome]
  | failed e s => simp [outcome]
  | waiting id label s unwind resume ih =>
    unfold outcome
    split
    · exact ih s available
    · rename_i missing
      let now := fun i => i == id || available i
      have there : now id = true := by simp [now]
      obtain ⟨nodup, fresh⟩ := ih (s.complete label) now
      have absent : id ∉ ((resume (s.complete label)).outcome now).order := by
        intro member
        rw [fresh id member] at there
        exact absurd there Bool.false_ne_true
      constructor
      · exact List.nodup_cons.mpr ⟨absent, nodup⟩
      · intro i member
        rcases List.mem_cons.mp member with rfl | later
        · simpa using missing
        · exact (Bool.or_eq_false_iff.mp (fresh i later)).2

/-- With enough polls a run gets to the outcome, whenever the values come. -/
theorem reaches_outcome (x : Step α) (schedule : Schedule) (finite : schedule.Finite) :
    ∃ enough, ∀ polls, enough ≤ polls →
      (x.runWaiting polls schedule).ending = (x.outcome schedule.isCompleted).ending ∧
      (x.runWaiting polls schedule).state = (x.outcome schedule.isCompleted).state ∧
      x.completions polls schedule = (x.outcome schedule.isCompleted).order := by
  induction x generalizing schedule with
  | done a s => exact ⟨0, fun _ _ => ⟨rfl, rfl, rfl⟩⟩
  | failed e s => exact ⟨0, fun _ _ => ⟨rfl, rfl, rfl⟩⟩
  | waiting id label s unwind resume ih =>
    simp only [runWaiting, completions, outcome]
    cases progress : schedule.progress id with
    | never => exact absurd progress (finite id)
    | completed =>
      have there : schedule.isCompleted id = true := by simp [Schedule.isCompleted, progress]
      simpa only [there, if_true] using ih s schedule finite
    | pending needed =>
      have missing : schedule.isCompleted id = false := by simp [Schedule.isCompleted, progress]
      obtain ⟨enough, reached⟩ := ih (s.complete label) _ (finite.set id)
      rw [Schedule.isCompleted_set] at reached
      -- Polls for this value, and then for all that comes after it.
      refine ⟨enough + needed + 1, fun polls patient => ?_⟩
      obtain ⟨ending, state, order⟩ := reached (polls - needed) (by omega)
      have inTime : needed < polls := by omega
      simp only [inTime, if_true, missing, Bool.false_eq_true, if_false]
      exact ⟨ending, state, congrArg (id :: ·) order⟩

end Step
end Templating
