import Templating.Engine
import Templating.Proofs.Task.Waiting
import Templating.Proofs.Template.Frame
import Templating.Proofs.Template.Parallel

namespace Templating

def State.patient (s : State) : State := { s with modes := { s.modes with immediate := false } }

def Calm (s t : State) : Prop := t = s.patient

theorem calm_parallel (names counted : List String) : Parallel Calm names counted where
  alike _ _ h := by cases h; exact .of_bindings rfl rfl rfl rfl rfl
  registers _ _ h := by cases h; rfl
  time _ _ h := by cases h; rfl
  look _ _ h := by cases h; rfl
  counter _ _ h _ _ := by cases h; rfl
  opened _ _ _ _ _ h := by cases h; rfl
  write _ _ _ h := by cases h; rfl
  bindBottom _ _ _ _ h := by cases h; rfl
  bindData _ _ _ _ _ h := by cases h; rfl
  breaking _ _ h := by cases h; rfl
  continuing _ _ h := by cases h; rfl
  jump _ _ _ _ h := by cases h; rfl
  push _ _ _ h := by cases h; rfl
  pop _ _ h := by cases h; rfl
  bindTop _ _ _ _ h := by cases h; rfl

def Grows (s t : State) : Prop := ∃ more, t.sink.output = s.sink.output ++ more

namespace Grows

theorem of_sink {s t : State} (same : t.sink = s.sink) : Grows s t :=
  ⟨"", by rw [same, String.append_empty]⟩

theorem refl (s : State) : Grows s s := .of_sink rfl

theorem trans (s t u : State) (first : Grows s t) (second : Grows t u) : Grows s u := by
  obtain ⟨early, wrote⟩ := first
  obtain ⟨late, added⟩ := second
  exact ⟨early ++ late, by rw [added, wrote, String.append_assoc]⟩

theorem write (s : State) (text : String) : Grows s (s.write text) := by
  cases kept : s.sink with
  | kept pieces => exact ⟨text, by simp only [State.write, kept, Sink.output_write_kept]⟩
  | silent => exact .of_sink (by simp only [State.write, kept, Sink.write])

end Grows

theorem grows_frame : Frame Grows Grows where
  refl := .refl
  trans := .trans
  inside_refl := .refl
  inside_trans := .trans
  enter _ _ h := h
  leave _ _ _ _ _ h := h
  bindTop _ _ _ := .of_sink rfl
  open_loop _ _ _ _ _ := .of_sink rfl
  jump _ _ _ := .of_sink rfl
  write := .write
  look _ := .of_sink rfl

/-- A custom node that does not look which driver there is, leaves the error for a value
    that is not there to it, and takes back no text, if its bodies are like that. -/
structure Custom.Neutral (c : Custom) : Prop where
  respects : ∀ parts : List (Task Unit), (∀ part ∈ parts, part.Respects Calm) →
    (c.render parts).Respects Calm
  keeps : ∀ parts : List (Task Unit), (∀ part ∈ parts, part.Keeps Grows) →
    (c.render parts).Keeps Grows

theorem render_grows {nodes : List Node} (neutral : ∀ c ∈ customs nodes, c.Neutral) :
    (renderAll nodes).Keeps Grows :=
  grows_frame.render_keeps nodes (fun _ _ _ _ => .of_sink rfl) (fun _ _ _ _ => .of_sink rfl)
    fun c member => (neutral c member).keeps

/-- An immediate render and a waiting one from the same state: if the first does not fail
    for want of a value, the second ends with its result and its state; it does fail so
    if and only if the second waits after one poll, and has then written no other text. -/
theorem immediate_render_is_first_poll (nodes : List Node)
    (neutral : ∀ c ∈ customs nodes, c.Neutral) (s : State) (immediate : s.modes.immediate = true)
    (schedule : Schedule) :
    let now := Engine.render nodes s schedule
    let later := fun polls => (renderAll nodes s.patient).runWaiting polls schedule
    (now.ending ≠ .failed .pendingValue → ∀ polls, 1 ≤ polls →
      later polls = { now with state := now.state.patient }) ∧
    (now.ending = .failed .pendingValue ↔ (later 1).ending = .unfinished) ∧
    (now.ending = .failed .pendingValue → ∀ polls, 1 ≤ polls →
      ∃ more, (later polls).state.sink.output = now.state.sink.output ++ more) := by
  intro now later
  have agree := (calm_parallel _ _).render_respects nodes
    (fun c member => (neutral c member).respects) s s.patient rfl
  -- The render that waits, as it would go without a change of mode.
  let waits := fun polls => (renderAll nodes s).runWaiting polls schedule
  have calm : ∀ polls, later polls = { waits polls with state := (waits polls).state.patient } :=
    fun polls => (agree.runWaiting polls schedule).image fun _ _ h => h
  have own : (waits 1).ending ≠ .failed .pendingValue := agree.own_errors 1 schedule
  have first : now = (waits 1).refused := by
    simp only [now, Engine.render, Task.run, immediate, if_true]
    exact (renderAll nodes s).runNow_eq schedule
  have refused := Run.refused_ending own
  rw [← first] at refused
  refine ⟨fun ended polls polled => ?_, ?_, fun _ polls polled => ?_⟩
  · have stopped : (waits 1).ending ≠ .unfinished := fun waiting => ended (refused.mpr waiting)
    have stable : waits polls = waits 1 :=
      (renderAll nodes s).runWaiting_stable schedule stopped polled
    rw [calm, first, Run.refused_of_ended stopped, stable]
  · rw [calm]
    exact refused
  · rw [calm, first, Run.refused_state]
    exact (render_grows neutral s).more_polls .refl .trans polled schedule

def framed : Custom where
  arguments := []
  argumentScope := []
  blockScope := []
  declarations := []
  render parts := do
    Task.write "<"
    parts.foldr (fun part rest => part >>= fun _ => rest) (Task.write ">")

theorem framed_respects {R : State → State → Prop} (wrote : ∀ text, (Task.write text).Respects R)
    {parts : List (Task Unit)} (all : ∀ part ∈ parts, part.Respects R) :
    (framed.render parts).Respects R := by
  refine (wrote "<").bind fun _ => ?_
  induction parts with
  | nil => exact wrote ">"
  | cons part rest ih =>
    rw [List.forall_mem_cons] at all
    exact all.1.bind fun _ => ih all.2

theorem framed_neutral : framed.Neutral where
  respects _ := framed_respects fun text =>
    Task.respects_modify fun s t => (calm_parallel [] []).write s t text
  keeps parts all := by
    have wrote : ∀ text, (Task.write text).Keeps Grows := fun text =>
      Task.keeps_modify fun s => .write s text
    refine (wrote "<").bind .trans fun _ => ?_
    induction parts with
    | nil => exact wrote ">"
    | cons part rest ih =>
      rw [List.forall_mem_cons] at all
      exact all.1.bind .trans fun _ => ih all.2

def slowBody : List Node :=
  let span : Span := ⟨0, 0⟩
  let slow : Argument := ⟨.path "slow" [], "slow", span⟩
  [.custom framed [[.text "a" span, .output (some slow) span]] span, .text "b" span]

def slowStart : State :=
  Engine.start default (.single "slow" (.deferred 1 none (.str "c")))
    { Settings.default with immediate := some true } .empty .empty

theorem immediate_render_is_first_poll_pending :
    let schedule : Schedule := ⟨[(1, .pending 2)]⟩
    let now := Engine.render slowBody slowStart schedule
    let later := fun polls => (renderAll slowBody slowStart.patient).runWaiting polls schedule
    (∀ c ∈ customs slowBody, c.Neutral) ∧ slowStart.modes.immediate = true ∧
      now.ending = .failed .pendingValue ∧ now.state.sink.output = "<a" ∧
      (later 3).state.sink.output = "<ac>b" ∧
      ∃ more, (later 3).state.sink.output = now.state.sink.output ++ more := by
  have neutral : ∀ c ∈ customs slowBody, c.Neutral := by
    intro c member
    rw [List.mem_singleton.mp (show c ∈ [framed] from member)]
    exact framed_neutral
  have pending : (Engine.render slowBody slowStart ⟨[(1, .pending 2)]⟩).ending
      = .failed .pendingValue := by decide +kernel
  have follows := immediate_render_is_first_poll slowBody neutral slowStart rfl ⟨[(1, .pending 2)]⟩
  exact ⟨neutral, rfl, pending, by decide, by decide, follows.2.2 pending 3 (by decide)⟩

/-- Two schedules in which the same values are there at first and all others come at some
    time: given enough polls, renders end with the same result and the same state, and
    complete the same values in the same order, each of them once. -/
theorem render_ignores_delays (nodes : List Node) (s : State) {a b : Schedule}
    (known : ∀ id, a.isCompleted id = b.isCompleted id) (comes : a.Finite) (comes' : b.Finite) :
    ∃ enough, ∀ p q, enough ≤ p → enough ≤ q →
      let r := (renderAll nodes s).runWaiting p a
      let r' := (renderAll nodes s).runWaiting q b
      let order := (renderAll nodes s).completions p a
      r.ending ≠ .unfinished ∧ r.ending = r'.ending ∧ r.state = r'.state ∧
        order = (renderAll nodes s).completions q b ∧ order.Nodup ∧
        (∀ id ∈ order, a.isCompleted id = false) ∧
        ∀ id, r.schedule.isCompleted id = true ↔ a.isCompleted id = true ∨ id ∈ order := by
  have same : a.isCompleted = b.isCompleted := funext known
  obtain ⟨m, reached⟩ := (renderAll nodes s).reaches_outcome a comes
  obtain ⟨n, reached'⟩ := (renderAll nodes s).reaches_outcome b comes'
  refine ⟨max m n, fun p q patient patient' => ?_⟩
  obtain ⟨ending, state, order⟩ := reached p (by omega)
  obtain ⟨ending', state', order'⟩ := reached' q (by omega)
  rw [← same] at ending' state' order'
  obtain ⟨nodup, fresh⟩ := (renderAll nodes s).outcome_order a.isCompleted
  refine ⟨?_, ending.trans ending'.symm, state.trans state'.symm, order.trans order'.symm,
    ?_, ?_, ?_⟩
  · rw [ending]
    exact (renderAll nodes s).outcome_ends a.isCompleted
  · rw [order]
    exact nodup
  · rw [order]
    exact fresh
  · exact (renderAll nodes s).isCompleted_runWaiting p a

def slowTwice : List Node :=
  let span : Span := ⟨0, 0⟩
  let slow : Node := .output (some ⟨.path "slow" [], "slow", span⟩) span
  let header : LoopHeader :=
    ⟨"i", ⟨.range (.literal (.int 1)) (.literal (.int 2)), "(1..2)", span⟩, [], false⟩
  [slow, .loop header [slow] [] span]

def nestedStart : State :=
  let late : Value := .deferred 1 (some "outer") (.deferred 2 (some "inner") (.str "c"))
  Engine.start default (.single "slow" late) default .empty .empty

theorem render_ignores_delays_nested :
    let a := Schedule.delays [(1, 3), (2, 0)]
    let b := Schedule.delays [(1, 0), (2, 5)]
    (∀ id, a.isCompleted id = b.isCompleted id) ∧ a.Finite ∧ b.Finite ∧
      ((renderAll slowTwice nestedStart).runWaiting 9 a).state.sink.output = "ccc" ∧
      (renderAll slowTwice nestedStart).completions 9 a = [1, 2] ∧
      ∃ enough, ∀ p q, enough ≤ p → enough ≤ q →
        ((renderAll slowTwice nestedStart).runWaiting p a).state
          = ((renderAll slowTwice nestedStart).runWaiting q b).state := by
  have known : ∀ id, (Schedule.delays [(1, 3), (2, 0)]).isCompleted id
      = (Schedule.delays [(1, 0), (2, 5)]).isCompleted id := fun id => by
    rw [Schedule.isCompleted_delays, Schedule.isCompleted_delays]
    rfl
  obtain ⟨enough, same⟩ := render_ignores_delays slowTwice nestedStart known
    (Schedule.delays_finite _) (Schedule.delays_finite _)
  exact ⟨known, Schedule.delays_finite _, Schedule.delays_finite _, by decide +kernel,
    by decide +kernel, enough, fun p q long long' => (same p q long long').2.2.1⟩

end Templating
