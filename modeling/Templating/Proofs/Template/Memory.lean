import Templating.Engine
import Templating.Proofs.Template.Bookkeeping

namespace Templating

def Entry.units : Entry → Nat
  | .range elements => elements.length
  | .loop .. => 0

/-- The elements of all range arrays that are entered. -/
def unitsBuilt (entries : List Entry) : Nat := (entries.map Entry.units).sum

/-- The budget, of which `used` was used at first, has since been used for the arrays entered. -/
structure Fits (limit used : Nat) (entries : List Entry) (s : State) : Prop where
  spent : s.Spent limit (used + unitsBuilt entries)
  within : used + unitsBuilt entries ≤ limit

def Overdrawn (limit : Nat) (e : EvalError) (s : State) : Prop :=
  e = .resourceExceeded .memory ∧ ∃ reached, limit < reached ∧ s.Spent limit reached

section
variable {limit used : Nat}

theorem bookRange_fits (limited : limit < mostCharged) (low high : Int64) :
    (bookRange low high).Maintains (Fits limit used) (Overdrawn limit) := by
  intro entries s fits
  change Ledger.Ends _ _ ((Task.charge (rangeCharge low high) s).ledger.bind _)
  rcases charge_range limited fits.spent low high with
    ⟨enough, built⟩ | ⟨reached, beyond, -, failed⟩
  · rw [built]
    have total : used + unitsBuilt (entries ++ [.range (rangeElements low high)])
        = used + unitsBuilt entries + (rangeElements low high).length := by
      simp only [unitsBuilt, List.map_append, List.map_cons, List.map_nil, List.sum_append,
        List.sum_singleton, Entry.units]
      omega
    refine .entry (.done (.inl ⟨?_, ?_⟩))
    · rw [total]
      rfl
    · rw [total]
      exact enough
  · rw [failed]
    exact .failed (.inr ⟨_, rfl, rfl, reached, beyond, rfl⟩)

theorem memory_account (limited : limit < mostCharged) :
    Account (Fits limit used) (Overdrawn limit) where
  moved _ _ _ fits memory _ := ⟨memory.trans fits.spent, fits.within⟩
  excused _ _ _ overdrawn memory _ := by
    obtain ⟨same, reached, beyond, spent⟩ := overdrawn
    exact ⟨same, reached, beyond, memory.trans spent⟩
  range := bookRange_fits limited

theorem bookOpening_fits (limited : limit < mostCharged) (header : LoopHeader)
    (items : List Value) :
    (bookOpening header items).Maintains (Fits limit used) (Overdrawn limit) := by
  have keeps : Bookkeeping fun _ b _ => b.Maintains (Fits limit used) (Overdrawn limit) :=
    (memory_account limited).keeps_books
  have free : ∀ {α : Type} {t : Task α}, (t.Keeps fun s s' => s'.memory = s.memory) →
      (Booked.lift t : Books α).Maintains (Fits limit used) (Overdrawn limit) := by
    intro α t kept
    refine Booked.maintains_lift kept (fun _ _ _ h h' => h'.trans h) fun es s s' fits same => ?_
    exact ⟨same.trans fits.spent, fits.within⟩
  have found : offsetsCell.Keeps fun s s' => s'.memory = s.memory := fun _ => .done rfl
  refine (free found).bind fun cell => ?_
  have recalled : (recallOffset cell header.continueKey).Keeps
      fun s s' => s'.memory = s.memory := fun _ => .done rfl
  refine (free recalled).bind fun previous => ?_
  refine (keeps.modifiers header previous).bind fun modifiers => ?_
  have recorded : (recordOffset cell header.continueKey (resumeAt modifiers
      (select header.ordered modifiers items))).Keeps fun s s' => s'.memory = s.memory :=
    fun _ => .done rfl
  have begun : (beginLoop (select header.ordered modifiers items).length header).Keeps
      fun s s' => s'.memory = s.memory := fun _ => .done rfl
  refine (free recorded).bind fun _ => (free begun).bind fun position => ?_
  intro entries s fits
  have total : unitsBuilt (entries ++ [.loop header items
      (select header.ordered modifiers items) s]) = unitsBuilt entries := by
    simp [unitsBuilt, Entry.units]
  refine .entry (.done (.inl ⟨?_, ?_⟩))
  · rw [total]
    exact fits.spent
  · rw [total]
    exact fits.within

theorem bookAll_fits (limited : limit < mostCharged) {nodes : List Node}
    (builtIn : BuiltIn nodes) :
    (bookAll nodes).Maintains (Fits limit used) (Overdrawn limit) := by
  have keeps : RenderBookkeeping
      (fun _ b _ => b.Maintains (Fits limit used) (Overdrawn limit)) fun _ => True :=
    ⟨(memory_account limited).keeps_books, fun header _ => bookOpening_fits limited header⟩
  exact keeps.render builtIn fun _ _ => trivial

end

/-- What is rendered from one context on: nodes in it, a job in a context spawned from it over
    data of its own, or two jobs one after the other. -/
inductive Job where
  | here (nodes : List Node)
  | spawned (data : Object) (job : Job)
  | both (first second : Job)

namespace Job

def render : Job → Task Unit
  | .here nodes => renderAll nodes
  | .spawned data job => Task.isolated data job.render
  | .both first second => do first.render; second.render

def book : Job → Books Unit
  | .here nodes => bookAll nodes
  | .spawned data job => Booked.isolated data job.book
  | .both first second => do first.book; second.book

def BuiltIn : Job → Prop
  | .here nodes => Templating.BuiltIn nodes
  | .spawned _ job => job.BuiltIn
  | .both first second => first.BuiltIn ∧ second.BuiltIn

theorem erase_book : ∀ {job : Job}, job.BuiltIn → job.book.erase = job.render
  | .here _, builtIn => erase_bookAll builtIn
  | .spawned data job, builtIn => by
    rw [book, render, Booked.erase_isolated, job.erase_book builtIn]
  | .both first second, builtIn => by
    rw [book, render, Booked.erase_bind, first.erase_book builtIn.1]
    exact congrArg (first.render >>= ·) (funext fun _ => second.erase_book builtIn.2)

theorem book_fits {limit used : Nat} (limited : limit < mostCharged) :
    ∀ {job : Job}, job.BuiltIn → job.book.Maintains (Fits limit used) (Overdrawn limit)
  | .here _, builtIn => bookAll_fits limited builtIn
  | .spawned data job, builtIn => fun entries s =>
    (job.book_fits limited builtIn).ensuring (·.spawn data) s.rejoin
      (fun _ _ fits => ⟨fits.spent, fits.within⟩) (fun _ _ fits => ⟨fits.spent, fits.within⟩)
      (fun _ _ overdrawn => overdrawn) entries s
  | .both first second, builtIn =>
    (first.book_fits limited builtIn.1).bind fun _ => second.book_fits limited builtIn.2

end Job

/-- What the end of a run says about the budget, given the elements of all range arrays built. -/
structure Exact (limit used built : Nat) (r : Run Unit) : Prop where
  finished : r.ending = .finished () →
    r.state.memory = ⟨.memory, .units limit (used + built)⟩ ∧ used + built ≤ limit
  exceeded : limit < r.state.memory.used → r.ending = .failed (.resourceExceeded .memory)
  other : r.ending ≠ .failed (.resourceExceeded .memory) → r.state.memory.used ≤ limit

theorem Exact.of_ends {limit used : Nat} {entries : List Entry} {r : Run Unit}
    (h : Fits limit used entries r.state ∨
      ∃ e, r.ending = .failed e ∧ Overdrawn limit e r.state) :
    Exact limit used (unitsBuilt entries) r := by
  rcases h with ⟨spent, within⟩ | ⟨e, failed, rfl, reached, beyond, spent⟩
  · have total : r.state.memory.used = used + unitsBuilt entries := by rw [spent]; rfl
    exact ⟨fun _ => ⟨spent, within⟩, by omega, by omega⟩
  · refine ⟨?_, fun _ => failed, fun other => absurd failed other⟩
    intro finished
    rw [failed] at finished
    cases finished

/-- A job of built-in nodes under a memory limit that is not the largest 64-bit number. The
    booked job is the job, so the entries on the way of its run are those of the run: with
    success the budget has grown by the elements of all range arrays entered; beyond the limit
    it is only after a failure for want of memory. -/
theorem memory_budget_exact (job : Job) (builtIn : job.BuiltIn) (s : State) (limit used : Nat)
    (limited : limit < 2 ^ 63 - 1) (budget : s.memory = ⟨.memory, .units limit used⟩)
    (within : used ≤ limit) (schedule : Schedule) :
    job.book.erase = job.render ∧
    Exact limit used (unitsBuilt ((job.book s).entries 1 schedule)) (job.render.runNow s schedule) ∧
    ∀ polls, Exact limit used (unitsBuilt ((job.book s).entries polls schedule))
      ((job.render s).runWaiting polls schedule) := by
  have erased := Job.erase_book builtIn
  have fits : job.book.Maintains (Fits limit used) (Overdrawn limit) :=
    Job.book_fits limited builtIn
  have ends := fits [] s ⟨budget, within⟩
  have same : (job.book s).erase = job.render s := congrFun erased s
  refine ⟨erased, ?_, fun polls => ?_⟩
  · have now := ends.runNow (fun es t h => ?_) schedule
    · rw [same] at now
      exact .of_ends now
    · rcases h with fits | ⟨_, failed, -⟩
      · exact .inl fits
      · cases failed
  · have later := ends.runWaiting polls schedule
    rw [same] at later
    exact .of_ends later

/-- `{% for i in (1..3) %}{{ (1..i) }}{% endfor %}`, and `{{ (1..n) }}` in a spawned context. -/
def nestedRanges : Job :=
  let span : Span := ⟨0, 0⟩
  let upTo (name : String) : Expr := .range (.literal (.int 1)) (.path name [])
  let header : LoopHeader :=
    ⟨"i", ⟨.range (.literal (.int 1)) (.literal (.int 3)), "(1..3)", span⟩, [], false⟩
  .both (.here [.loop header [.output (some ⟨upTo "i", "(1..i)", span⟩) span] [] span])
    (.spawned (.single "n" (.deferred 1 none (.int 2)))
      (.here [.output (some ⟨upTo "n", "(1..n)", span⟩) span]))

def budgeted (limit used : Nat) : State :=
  { Engine.start default .empty default .empty .empty with memory := ⟨.memory, .units limit used⟩ }

/-- With one unit used before, twelve are just enough for three elements, one, two, three and
    two; with eleven the last array is not built. When time is over at the second element, the
    three elements and one are charged. -/
theorem memory_budget_exact_at_limit :
    let schedule := Schedule.delays [(1, 2)]
    let late := { budgeted 12 1 with time := ⟨.rendering, .deadline (some 3)⟩ }
    let r := (nestedRanges.render (budgeted 12 1)).runWaiting 3 schedule
    let short := (nestedRanges.render (budgeted 11 1)).runWaiting 3 schedule
    let expired := (nestedRanges.render late).runWaiting 3 schedule
    nestedRanges.BuiltIn ∧ r.ending = .finished () ∧ r.state.memory.used = 12 ∧
      unitsBuilt ((nestedRanges.book (budgeted 12 1)).entries 3 schedule) = 11 ∧
      short.ending = .failed (.resourceExceeded .memory) ∧ short.state.memory.used = 12 ∧
      expired.ending = .failed (.resourceExceeded .rendering) ∧ expired.state.memory.used = 5 ∧
      Exact 12 1 11 r ∧
      Exact 11 1 (unitsBuilt ((nestedRanges.book (budgeted 11 1)).entries 3 schedule)) short ∧
      Exact 12 1 (unitsBuilt ((nestedRanges.book late).entries 3 schedule)) expired := by
  intro schedule late r short expired
  have builtIn : nestedRanges.BuiltIn := ⟨rfl, rfl⟩
  have built : unitsBuilt ((nestedRanges.book (budgeted 12 1)).entries 3 schedule) = 11 := by
    decide +kernel
  have enough := (memory_budget_exact nestedRanges builtIn (budgeted 12 1) 12 1 (by decide) rfl
    (by decide) schedule).2.2 3
  have less := (memory_budget_exact nestedRanges builtIn (budgeted 11 1) 11 1 (by decide) rfl
    (by decide) schedule).2.2 3
  have timed := (memory_budget_exact nestedRanges builtIn late 12 1 (by decide) rfl
    (by decide) schedule).2.2 3
  rw [built] at enough
  exact ⟨builtIn, by decide +kernel, by decide +kernel, built, by decide +kernel,
    by decide +kernel, by decide +kernel, by decide +kernel, enough, less, timed⟩

end Templating
