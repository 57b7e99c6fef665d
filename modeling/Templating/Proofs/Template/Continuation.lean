import Templating.Engine
import Templating.Proofs.Template.Resuming

/-!
Loops that share a continuation key and go on from each other, over the same elements, in one
render or in several with the same registers.
-/
namespace Templating

def Entry.visits (key : String) : Entry → List Value
  | .loop header _ selected _ => if header.continueKey = key then selected else []
  | .range _ => []

def Entry.Opens (key : String) : Entry → Prop
  | .loop header _ _ _ => header.continueKey = key
  | .range _ => False

/-- If it opens a loop with this key, it is a loop over these items. -/
def Entry.Over (key : String) (items : List Value) : Entry → Prop
  | .loop header seen _ _ => header.continueKey = key → seen = items
  | .range _ => True

/-- Every loop with this key goes on where the last one stopped. -/
def Continues (key : String) (nodes : List Node) : Prop :=
  ∀ header ∈ headers nodes, header.continueKey = key → header.Continues

def visited (key : String) (entries : List Entry) : List Value := entries.flatMap (Entry.visits key)

theorem visited_append (key : String) (es fs : List Entry) :
    visited key (es ++ fs) = visited key es ++ visited key fs := List.flatMap_append

theorem visited_singleton (key : String) (e : Entry) : visited key [e] = e.visits key := by
  simp [visited]

theorem visits_of_other {key : String} {e : Entry} (other : ¬ e.Opens key) : e.visits key = [] := by
  cases e with
  | range elements => rfl
  | loop header seen selected s => exact if_neg other

/-- How far the loops with a key have got, with `first` recorded at the start, where it stands
    for the offset `start`. -/
structure Position (key : String) (items : List Value) (first : Option Int64) (start : Nat)
    (entries : List Entry) (r : Registers) : Prop where
  stretch : visited key entries <+: items.drop start
  opened : (∃ e ∈ entries, e.Opens key) →
    r.recorded? key = some (Int64.ofNat (start + (visited key entries).length))
  unopened : (∀ e ∈ entries, ¬ e.Opens key) → r.recorded? key = first
  /-- Each loop recorded how far it would get when it was opened. -/
  noted : ∀ before header seen selected (s : State) after,
    entries = before ++ .loop header seen selected s :: after → header.continueKey = key →
    s.registers.recorded? key
      = some (Int64.ofNat (start + (visited key before).length + selected.length))

theorem concat_split {α : Type} {es before after : List α} {e e' : α}
    (parts : es ++ [e'] = before ++ e :: after) :
    (es = before ∧ e' = e) ∨ ∃ rest, es = before ++ e :: rest := by
  rcases List.eq_nil_or_concat after with rfl | ⟨rest, x, rfl⟩
  · exact .inl ⟨(List.append_inj' parts rfl).1, by simpa using (List.append_inj' parts rfl).2⟩
  · rw [List.concat_eq_append, ← List.cons_append, ← List.append_assoc] at parts
    exact .inr ⟨rest, (List.append_inj' parts rfl).1⟩

namespace Position
variable {key : String} {items : List Value} {first : Option Int64} {start : Nat}
  {entries later : List Entry} {r r' : Registers}

theorem nil (recorded : r.recorded? key = first) : Position key items first start [] r where
  stretch := List.nil_prefix
  opened some := by simp at some
  unopened _ := recorded
  noted before header seen selected s after parts := by simp at parts

theorem recorded_getD (h : Position key items first start entries r)
    (begins : first.getD 0 = Int64.ofNat start) :
    (r.recorded? key).getD 0 = Int64.ofNat (start + (visited key entries).length) := by
  by_cases some : ∃ e ∈ entries, e.Opens key
  · rw [h.opened some, Option.getD_some]
  · have none : ∀ e ∈ entries, ¬ e.Opens key := fun e member opens => some ⟨e, member, opens⟩
    have nothing : visited key entries = [] :=
      List.flatMap_eq_nil_iff.mpr fun e member => visits_of_other (none e member)
    rw [h.unopened none, begins, nothing]
    rfl

theorem within (h : Position key items first start entries r) (inside : start ≤ items.length) :
    start + (visited key entries).length ≤ items.length := by
  have long := h.stretch.length_le
  rw [List.length_drop] at long
  omega

theorem of_recorded (h : Position key items first start entries r)
    (same : r'.recorded? key = r.recorded? key) : Position key items first start entries r' :=
  { h with
    opened := fun some => by rw [same]; exact h.opened some
    unopened := fun none => by rw [same]; exact h.unopened none }

theorem other (h : Position key items first start entries r) {e : Entry}
    (apart : ¬ e.Opens key) (same : r'.recorded? key = r.recorded? key) :
    Position key items first start (entries ++ [e]) r' := by
  have still : visited key (entries ++ [e]) = visited key entries := by
    rw [visited_append, visited_singleton, visits_of_other apart, List.append_nil]
  refine ⟨?_, ?_, ?_, ?_⟩
  · rw [still]
    exact h.stretch
  · rintro ⟨f, member, opens⟩
    rw [still, same]
    rcases List.mem_append.mp member with early | last
    · exact h.opened ⟨f, early, opens⟩
    · rw [List.mem_singleton.mp last] at opens
      exact absurd opens apart
  · intro none
    rw [same]
    exact h.unopened fun f member => none f (List.mem_append_left [e] member)
  · intro before header seen selected s after parts mine
    rcases concat_split parts with ⟨-, rfl⟩ | ⟨rest, early⟩
    · exact absurd mine apart
    · exact h.noted before header seen selected s rest early mine

theorem next (h : Position key items first start entries r) {header : LoopHeader}
    {seen selected : List Value} {s : State} {count : Nat} (mine : header.continueKey = key)
    (slice : selected
      = (items.drop (start + (visited key entries).length)).take count)
    (recorded : r'.recorded? key
      = some (Int64.ofNat (start + (visited key entries).length + selected.length)))
    (left : s.registers = r') :
    Position key items first start (entries ++ [.loop header seen selected s]) r' := by
  have more : visited key (entries ++ [.loop header seen selected s])
      = visited key entries ++ selected := by
    rw [visited_append, visited_singleton, Entry.visits, if_pos mine]
  refine ⟨?_, ?_, ?_, ?_⟩
  · rw [more, slice]
    obtain ⟨rest, whole⟩ := h.stretch
    have behind : items.drop (start + (visited key entries).length) = rest := by
      rw [← List.drop_drop, ← whole, List.drop_left]
    rw [behind, ← whole]
    exact (List.prefix_append_right_inj _).mpr (List.take_prefix count rest)
  · intro _
    rw [more, List.length_append, ← Nat.add_assoc]
    exact recorded
  · intro none
    exact absurd mine (none _ (List.mem_append_right entries (List.mem_singleton_self _)))
  · intro before header' seen' selected' s' after parts mine'
    rcases concat_split parts with ⟨rfl, same⟩ | ⟨rest, early⟩
    · cases same
      rw [left]
      exact recorded
    · exact h.noted before header' seen' selected' s' rest early mine'

theorem append {second : Option Int64} {length : Nat}
    (h : Position key items first start entries r)
    (reached : r.recorded? key = second) (sum : length = start + (visited key entries).length)
    (h' : Position key items second length later r') :
    Position key items first start (entries ++ later) r' := by
  subst sum
  have both : visited key (entries ++ later) = visited key entries ++ visited key later :=
    visited_append key entries later
  refine ⟨?_, ?_, ?_, ?_⟩
  · obtain ⟨rest, whole⟩ := h.stretch
    have behind : items.drop (start + (visited key entries).length) = rest := by
      rw [← List.drop_drop, ← whole, List.drop_left]
    have further := h'.stretch
    rw [behind] at further
    rw [both, ← whole]
    exact (List.prefix_append_right_inj _).mpr further
  · rintro ⟨e, member, opens⟩
    by_cases now : ∃ e ∈ later, e.Opens key
    · rw [h'.opened now, both, List.length_append, Nat.add_assoc]
    · have none : ∀ e ∈ later, ¬ e.Opens key := fun e member opens => now ⟨e, member, opens⟩
      have nothing : visited key later = [] :=
        List.flatMap_eq_nil_iff.mpr fun e member => visits_of_other (none e member)
      have early : e ∈ entries := (List.mem_append.mp member).resolve_right
        fun late => none e late opens
      rw [h'.unopened none, ← reached, h.opened ⟨e, early, opens⟩, both, nothing, List.append_nil]
  · intro none
    rw [h'.unopened fun e member => none e (List.mem_append_right entries member), ← reached]
    exact h.unopened fun e member => none e (List.mem_append_left later member)
  · intro before header seen selected s after parts mine
    rcases List.append_eq_append_iff.mp parts with ⟨gap, rfl, rest⟩ | ⟨gap, early, rest⟩
    · rw [visited_append, List.length_append]
      have noted := h'.noted gap header seen selected s after rest mine
      rw [noted]
      congr 2
      omega
    · cases gap with
      | nil =>
        have noted := h'.noted [] header seen selected s after rest.symm mine
        have same : before = entries := by simpa using early.symm
        rw [noted, same]
        rfl
      | cons e gap =>
        obtain ⟨rfl, -⟩ := List.cons.inj rest
        exact h.noted before header seen selected s gap early mine

end Position

def Continuing (key : String) (items : List Value) (first : Option Int64) (start : Nat)
    (entries : List Entry) (r : Registers) : Prop :=
  (∀ e ∈ entries, e.Over key items) → Position key items first start entries r

section
variable {key : String} {items : List Value} {first : Option Int64} {start : Nat}

theorem Continuing.range {entries : List Entry} {r : Registers}
    (h : Continuing key items first start entries r) (elements : List Value) :
    Continuing key items first start (entries ++ [.range elements]) r := by
  intro all
  rw [List.forall_mem_append] at all
  exact (h all.1).other (by simp [Entry.Opens]) rfl

theorem bookModifiers_continuing (header : LoopHeader) (previous : Value) {entries : List Entry}
    {s : State} {r : Registers} (given : s.registers = r)
    (h : Continuing key items first start entries r) :
    (bookModifiers header previous s).Ends
      (fun _ es t => t.registers = r ∧ Continuing key items first start es r) entries := by
  have account : Account (fun es t => t.registers = r ∧
      Continuing key items first start es r) Booked.NoExcuse :=
    registers_account (I := fun es now => now = r ∧ Continuing key items first start es r)
      fun es elements now h => ⟨h.1, h.2.range elements⟩
  exact (account.keeps_books.modifiers header previous).always ⟨given, h⟩

theorem int64_position {n : Nat} (bounded : n < 2 ^ 63) :
    (Int64.ofNat n).toInt = n ∧ Int64.ofInt n = Int64.ofNat n :=
  ⟨Int64.toInt_ofNat_of_lt bounded, rfl⟩

theorem Position.opens {entries : List Entry} {r r' : Registers} {header : LoopHeader}
    {modifiers : Object} {s : State} (h : Position key items first start entries r)
    (begins : first.getD 0 = Int64.ofNat start) (inside : start ≤ items.length)
    (bounded : items.length < 2 ^ 63) (mine : header.continueKey = key)
    (unordered : header.ordered = false)
    (resumes : Resumes ((r.recorded? key).getD 0) modifiers)
    (recorded : r'.recorded? key
      = some (resumeAt modifiers (select header.ordered modifiers items)))
    (left : s.registers = r') :
    Position key items first start
      (entries ++ [.loop header items (select header.ordered modifiers items) s]) r' := by
  rw [h.recorded_getD begins] at resumes
  have reached := h.within inside
  have long := int64_position (n := start + (visited key entries).length) (by omega)
  rw [unordered] at recorded ⊢
  obtain ⟨count, slice⟩ := resumes.selects (by rw [long.1]; omega) items
  rw [long.1, Int.toNat_natCast] at slice
  have cut := congrArg List.length slice
  rw [List.length_take, List.length_drop] at cut
  rw [resumes.resumeAt_eq (by rw [long.1]; omega) _ (by rw [long.1]; omega), long.1] at recorded
  exact h.next mine slice recorded left

/-- Opening a loop records its offset under its own key. A loop with the key gets further, any
    other one leaves the position where it is. -/
theorem Continuing.opens {entries : List Entry} {r : Registers} {cell : Nat} {header : LoopHeader}
    {seen : List Value} {modifiers : Object} {s : State}
    (h : Continuing key items first start entries r) (begins : first.getD 0 = Int64.ofNat start)
    (inside : start ≤ items.length) (bounded : items.length < 2 ^ 63)
    (continues : header.continueKey = key → header.Continues)
    (found : r.find? .offsets offsetsRegister = some cell)
    (resumes : header.Continues →
      Resumes (((r.offsetsAt cell).lookup header.continueKey).getD 0) modifiers)
    (left : s.registers = r.write cell (.offsets (storeOffset header.continueKey
      (resumeAt modifiers (select header.ordered modifiers seen)) (r.offsetsAt cell)))) :
    Continuing key items first start
      (entries ++ [.loop header seen (select header.ordered modifiers seen) s]) s.registers := by
  intro all
  rw [List.forall_mem_append] at all
  have position := h all.1
  have written := Registers.recorded?_write found (storeOffset header.continueKey
    (resumeAt modifiers (select header.ordered modifiers seen)) (r.offsetsAt cell)) key
  rw [lookup_storeOffset, ← left] at written
  by_cases mine : header.continueKey = key
  · obtain rfl := all.2 _ (List.mem_singleton_self _) mine
    rw [if_pos mine.symm] at written
    have goingOn := resumes (continues mine)
    rw [mine, ← Registers.recorded?_eq found] at goingOn
    exact position.opens begins inside bounded mine (continues mine).unordered goingOn written rfl
  · rw [if_neg (Ne.symm mine), ← Registers.recorded?_eq found] at written
    exact position.other mine written

theorem bookOpening_continuing (begins : first.getD 0 = Int64.ofNat start)
    (inside : start ≤ items.length) (bounded : items.length < 2 ^ 63) (header : LoopHeader)
    (continues : header.continueKey = key → header.Continues) (seen : List Value) :
    (bookOpening header seen).Maintains
      (fun es s => Continuing key items first start es s.registers) Booked.NoExcuse := by
  intro entries s h
  obtain ⟨⟨cell, registers⟩, got⟩ : ∃ p, s.registers.get .offsets offsetsRegister = p := ⟨_, rfl⟩
  have asked := s.registers.recorded?_get key
  have found := s.registers.find?_get .offsets offsetsRegister
  rw [got] at asked found
  have now : Continuing key items first start entries registers := fun all =>
    (h all).of_recorded asked
  let previous := ((registers.offsetsAt cell).lookup header.continueKey).getD 0
  have kept := bookModifiers_continuing header (.int previous) (s := { s with registers })
    (r := registers) rfl now
  have evaluated := kept.with_results (R := fun m _ => header.Continues → Resumes previous m)
    (bookModifiers_resume header previous _)
  rw [bookOpening_apply header seen got]
  refine evaluated.bind ?_ ?_ ?_
  · rintro e es t ⟨⟨rfl, continuing⟩, -⟩
    exact .inl continuing
  · rintro es t ⟨⟨rfl, continuing⟩, -⟩
    exact .inl continuing
  · rintro modifiers es t ⟨⟨rfl, continuing⟩, results⟩
    exact .entry (.done (.inl
      (continuing.opens begins inside bounded continues found (results modifiers rfl) rfl)))

theorem bookAll_continuing (begins : first.getD 0 = Int64.ofNat start)
    (inside : start ≤ items.length) (bounded : items.length < 2 ^ 63) {nodes : List Node}
    (builtIn : BuiltIn nodes) (continues : Continues key nodes) :
    (bookAll nodes).Maintains (fun es s => Continuing key items first start es s.registers)
      Booked.NoExcuse := by
  have account : Account (fun es s => Continuing key items first start es s.registers)
      Booked.NoExcuse := registers_account fun es elements r h => h.range elements
  exact RenderBookkeeping.render
    ⟨account.keeps_books, bookOpening_continuing begins inside bounded⟩ builtIn continues

end

/-- One of several renders: at once, or with so many polls. -/
structure Turn where
  nodes : List Node
  start : State
  schedule : Schedule
  polls : Option Nat

namespace Turn

def run (t : Turn) : Run Unit :=
  match t.polls with
  | none => (renderAll t.nodes).runNow t.start t.schedule
  | some polls => (renderAll t.nodes t.start).runWaiting polls t.schedule

def entries (t : Turn) : List Entry :=
  (bookAll t.nodes t.start).entries (t.polls.getD 1) t.schedule

/-- Renders that have their registers from each other, the first one from `r`. -/
def Share : Registers → List Turn → Prop
  | _, [] => True
  | r, t :: rest => t.start.registers = r ∧ Share t.run.state.registers rest

def registersAfter : Registers → List Turn → Registers
  | r, [] => r
  | _, t :: rest => registersAfter t.run.state.registers rest

theorem maintained (t : Turn) (builtIn : BuiltIn t.nodes) {J : List Entry → State → Prop}
    (kept : (bookAll t.nodes).Maintains J Booked.NoExcuse) (holds : J [] t.start) :
    J t.entries t.run.state := by
  have ends := kept.always holds
  have erased : (bookAll t.nodes t.start).erase = renderAll t.nodes t.start :=
    congrFun (erase_bookAll builtIn) t.start
  unfold run entries Task.runNow
  rw [← erased]
  cases t.polls with
  | none => exact ends.runNow (fun _ _ h => h) t.schedule
  | some polls => exact ends.runWaiting polls t.schedule

variable {key : String} {items : List Value} {first : Option Int64} {start : Nat}

theorem position (t : Turn) (builtIn : BuiltIn t.nodes) (continues : Continues key t.nodes)
    (allOver : ∀ e ∈ t.entries, e.Over key items) (bounded : items.length < 2 ^ 63)
    (recorded : t.start.registers.recorded? key = first)
    (begins : first.getD 0 = Int64.ofNat start) (inside : start ≤ items.length) :
    Position key items first start t.entries t.run.state.registers := by
  have kept : (bookAll t.nodes).Maintains
      (fun es s => Continuing key items first start es s.registers) Booked.NoExcuse :=
    bookAll_continuing begins inside bounded builtIn continues
  exact t.maintained builtIn kept (fun _ => .nil recorded) allOver

theorem registersAfter_position (turns : List Turn) (builtIn : ∀ t ∈ turns, BuiltIn t.nodes)
    (continues : ∀ t ∈ turns, Continues key t.nodes)
    (allOver : ∀ t ∈ turns, ∀ e ∈ t.entries, e.Over key items) (bounded : items.length < 2 ^ 63)
    {r : Registers} (share : Share r turns) (recorded : r.recorded? key = first)
    (begins : first.getD 0 = Int64.ofNat start) (inside : start ≤ items.length) :
    Position key items first start (turns.flatMap entries) (registersAfter r turns) := by
  induction turns generalizing r first start with
  | nil => exact .nil recorded
  | cons t rest ih =>
    obtain ⟨given, share⟩ := share
    rw [List.forall_mem_cons] at builtIn continues allOver
    have here := t.position builtIn.1 continues.1 allOver.1 bounded (by rw [given, recorded]) begins
      inside
    exact here.append rfl rfl
      (ih builtIn.2 continues.2 allOver.2 share rfl (here.recorded_getD begins)
        (here.within inside))

end Turn

/-- Several renders with the same registers, where nothing is recorded for the key at first, each
    loop with the key goes on where the last one stopped, and those that are opened are over
    the same items. What they visit together is a prefix of the items; each loop records the
    length of what has been visited with it, and that is what is recorded after the renders. -/
theorem loops_continue (key : String) (items : List Value) (bounded : items.length < 2 ^ 63)
    (r : Registers) (fresh : r.recorded? key = none) (turns : List Turn)
    (share : Turn.Share r turns) (builtIn : ∀ t ∈ turns, BuiltIn t.nodes)
    (continues : ∀ t ∈ turns, Continues key t.nodes)
    (allOver : ∀ t ∈ turns, ∀ e ∈ t.entries, e.Over key items) :
    let entries := turns.flatMap Turn.entries
    (∀ t ∈ turns, (bookAll t.nodes).erase = renderAll t.nodes) ∧
    visited key entries <+: items ∧
    (∀ before header seen selected (s : State) after,
      entries = before ++ .loop header seen selected s :: after → header.continueKey = key →
      s.registers.recorded? key
        = some (Int64.ofNat ((visited key before).length + selected.length))) ∧
    ((∃ e ∈ entries, e.Opens key) → (Turn.registersAfter r turns).recorded? key
      = some (Int64.ofNat (visited key entries).length)) ∧
    ((∀ e ∈ entries, ¬ e.Opens key) → (Turn.registersAfter r turns).recorded? key = none) := by
  intro entries
  have position := Turn.registersAfter_position turns builtIn continues allOver bounded share
    fresh rfl (Nat.zero_le _)
  refine ⟨fun t member => erase_bookAll (builtIn t member), position.stretch, ?_, ?_,
    position.unopened⟩
  · intro before header seen selected s after parts mine
    have noted := position.noted before header seen selected s after parts mine
    rwa [Nat.zero_add] at noted
  · intro some
    have recorded := position.opened some
    rwa [Nat.zero_add] at recorded

def goingOn (variableName collection : String) (limit : Option Expr) : LoopHeader :=
  let span : Span := ⟨0, 0⟩
  let stop : List NamedArgument := limit.toList.map fun e => ⟨"limit", some ⟨e, "n", span⟩, span⟩
  ⟨variableName, ⟨.path collection [], collection, span⟩,
    ⟨"offset", some ⟨.path "continue" [], "continue", span⟩, span⟩ :: stop, false⟩

theorem goingOn_continues (variableName collection : String) (limit : Option Expr) :
    (goingOn variableName collection limit).Continues := by
  have listed : ∀ a ∈ (goingOn variableName collection limit).modifiers,
      (a.key = "offset" ∧ ∃ v, a.value = some v ∧ v.expr = .path "continue" []) ∨
        a.key = "limit" := by
    intro a member
    rcases List.mem_cons.mp member with rfl | other
    · exact .inl ⟨rfl, _, rfl, rfl⟩
    · obtain ⟨e, -, rfl⟩ := List.mem_map.mp other
      exact .inr rfl
  refine ⟨rfl, ⟨_, List.mem_cons_self, rfl⟩, ?_, ?_⟩
  · intro a member offset
    rcases listed a member with ⟨-, continues⟩ | limit
    · exact continues
    · rw [limit] at offset
      exact absurd offset (by decide)
  · intro a member reversed
    rcases listed a member with ⟨offset, -⟩ | limit
    · rw [offset] at reversed
      exact absurd reversed (by decide)
    · rw [limit] at reversed
      exact absurd reversed (by decide)

def Value.integer? : Value → Option Int64
  | .int n => some n
  | _ => none

def Entry.integers : Entry → List (Option Int64)
  | .loop _ seen _ _ => seen.map Value.integer?
  | .range _ => []

theorem map_int_eq {vs : List Value} {ns : List Int64}
    (same : vs.map Value.integer? = ns.map some) : vs = ns.map .int := by
  induction vs generalizing ns with
  | nil =>
    cases ns with
    | nil => rfl
    | cons n rest => cases same
  | cons v later ih =>
    cases ns with
    | nil => cases same
    | cons n rest =>
      obtain ⟨head, tail⟩ := List.cons.inj same
      have first : v = .int n := by
        cases v <;> simp_all [Value.integer?]
      rw [first, ih tail, List.map_cons]

theorem over_of_integers {key : String} {ns : List Int64} {e : Entry}
    (same : e.integers = ns.map some) : e.Over key (ns.map .int) := by
  cases e with
  | range elements => trivial
  | loop header seen selected s => exact fun _ => map_int_eq same

def loopsOf (headers : List LoopHeader) : List Node := headers.map (.loop · [] [] ⟨0, 0⟩)

theorem headers_loopsOf (hs : List LoopHeader) : headers (loopsOf hs) = hs := by
  induction hs with
  | nil => rfl
  | cons h rest ih =>
    have split : headers (loopsOf (h :: rest)) = h :: headers (loopsOf rest) := rfl
    rw [split, ih]

def turnOf (nodes : List Node) (data : Object) (r : Registers) (polls : Option Nat) : Turn :=
  ⟨nodes, Engine.start default data { Settings.default with registers := some r } .empty .empty,
    .empty, polls⟩

theorem turnOf_registers (nodes : List Node) (data : Object) (r : Registers) (polls : Option Nat) :
    (turnOf nodes data r polls).start.registers = r := rfl

def fiveNumbers : Object := .single "c" (.array ([1, 2, 3, 4, 5].map .int))

def firstTurn : Turn :=
  turnOf (loopsOf [goingOn "x" "c" (some (.literal (.int 2))),
    goingOn "x" "c" (some (.literal (.int (-2))))]) fiveNumbers (.empty 0) none

def secondTurn : Turn :=
  turnOf (loopsOf [goingOn "x" "c" (some (.path "unbound" [])), goingOn "x" "c" none]) fiveNumbers
    firstTurn.run.state.registers (some 1)

theorem loops_continue_across_renders :
    let key := (goingOn "x" "c" none).continueKey
    let turns := [firstTurn, secondTurn]
    let entries := turns.flatMap Turn.entries
    Turn.Share (.empty 0) turns ∧ (∀ t ∈ turns, BuiltIn t.nodes) ∧
      (∀ t ∈ turns, Continues key t.nodes) ∧
      (∀ t ∈ turns, ∀ e ∈ t.entries, e.Over key ([1, 2, 3, 4, 5].map .int)) ∧
      entries.map (fun e => (e.visits key).map Value.integer?)
        = [[some 1, some 2], [some 3], [some 4, some 5], []] ∧
      visited key entries <+: [1, 2, 3, 4, 5].map .int ∧
      (Turn.registersAfter (.empty 0) turns).recorded? key = some 5 := by
  intro key turns entries
  have builtIn : ∀ t ∈ turns, BuiltIn t.nodes :=
    List.forall_mem_cons.mpr ⟨rfl, List.forall_mem_singleton.mpr rfl⟩
  have made : ∀ limits : List (Option Expr),
      Continues key (loopsOf (limits.map (goingOn "x" "c"))) := by
    intro limits header member _
    rw [headers_loopsOf] at member
    obtain ⟨limit, -, rfl⟩ := List.mem_map.mp member
    exact goingOn_continues "x" "c" limit
  have continues : ∀ t ∈ turns, Continues key t.nodes :=
    List.forall_mem_cons.mpr ⟨made [_, _], List.forall_mem_singleton.mpr (made [_, _])⟩
  have allOver : ∀ t ∈ turns, ∀ e ∈ t.entries, e.Over key ([1, 2, 3, 4, 5].map .int) := by
    have integers : ∀ t ∈ [firstTurn, secondTurn], ∀ e ∈ t.entries,
        e.integers = [1, 2, 3, 4, 5].map some := by decide +kernel
    exact fun t member e entered => over_of_integers (integers t member e entered)
  have fresh : (Registers.empty 0).recorded? key = none := rfl
  have share : Turn.Share (.empty 0) turns :=
    ⟨turnOf_registers _ _ _ _, turnOf_registers _ _ _ _, trivial⟩
  have slices : entries.map (fun e => (e.visits key).map Value.integer?)
      = [[some 1, some 2], [some 3], [some 4, some 5], []] := by decide +kernel
  have recorded : (Turn.registersAfter (.empty 0) turns).recorded? key = some 5 := by
    decide +kernel
  have follows := loops_continue key ([1, 2, 3, 4, 5].map .int) (by decide) (.empty 0) fresh turns
    share builtIn continues allOver
  exact ⟨share, builtIn, continues, allOver, slices, follows.2.1, recorded⟩

def lookalikes : List Node :=
  let span : Span := ⟨0, 0⟩
  let inner : Node := .loop ⟨"a", ⟨.path "b-c" [], "b-c", span⟩, [], false⟩ [] [] span
  let outer : Node := .loop (goingOn "a-b" "c" (some (.literal (.int 1)))) [inner] [] span
  [outer, outer]

def lookalikeData : Object :=
  .ofList [("c", .array ([1, 2, 3].map .int)), ("b-c", .array ([7, 7].map .int))]

/-- The loop in the body has another variable and another collection, but the same key: what it
    records is read back by the next loop, which skips an element. -/
theorem lookalike_skips_element :
    let outer := goingOn "a-b" "c" (some (.literal (.int 1)))
    let t := turnOf lookalikes lookalikeData (.empty 0) none
    let mine := t.entries.filterMap fun
      | .loop header seen selected _ =>
        if header.variableName = outer.variableName ∧ header.collection.text = outer.collection.text
        then some (seen.map Value.integer?, selected.map Value.integer?) else none
      | .range _ => none
    outer.Continues ∧ t.start.registers.recorded? outer.continueKey = none ∧
      mine = [([some 1, some 2, some 3], [some 1]), ([some 1, some 2, some 3], [some 3])] ∧
      ¬ mine.flatMap (·.2) <+: [some 1, some 2, some 3] := by
  intro outer t mine
  have slices : mine
      = [([some 1, some 2, some 3], [some 1]), ([some 1, some 2, some 3], [some 3])] := by
    decide +kernel
  refine ⟨goingOn_continues "a-b" "c" _, rfl, slices, ?_⟩
  rw [slices]
  decide

end Templating
