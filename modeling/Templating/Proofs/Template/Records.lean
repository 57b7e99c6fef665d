import Templating.Proofs.Template.Continuation

namespace Templating

open Booked (lift)

def Entry.header? : Entry → Option LoopHeader
  | .loop header _ _ _ => some header
  | .range _ => none

def Entry.records (key : String) (before : Option Int64) : Entry → Option Int64
  | .loop header _ _ s => if header.continueKey = key then s.registers.recorded? key else before
  | .range _ => before

def recordedBy (key : String) (first : Option Int64) (entries : List Entry) : Option Int64 :=
  entries.foldl (Entry.records key) first

theorem recordedBy_append (key : String) (first : Option Int64) (es fs : List Entry) :
    recordedBy key first (es ++ fs) = recordedBy key (recordedBy key first es) fs :=
  List.foldl_append

theorem recordedBy_unopened {key : String} {first : Option Int64} {entries : List Entry}
    (none : ∀ e ∈ entries, ¬ e.Opens key) : recordedBy key first entries = first := by
  induction entries generalizing first with
  | nil => rfl
  | cons e rest ih =>
    rw [List.forall_mem_cons] at none
    have passed : e.records key first = first := by
      cases e with
      | range elements => rfl
      | loop header items selected s => exact if_neg none.1
    rw [recordedBy, List.foldl_cons, passed]
    exact ih none.2

/-- The loop was opened by modifiers that its header may give among the names bound there. -/
structure OpenedBy (header : LoopHeader) (previous : Int64) (items selected : List Value)
    (s : State) (modifiers : Object) : Prop where
  given : ∃ x : State, x.bindings = s.bindings ∧ x.modes = s.modes ∧
    (evaluateModifiers header (.int previous) x).MayGive modifiers
  selects : selected = select header.ordered modifiers items
  records : s.registers.recorded? header.continueKey = some (resumeAt modifiers selected)

/-- The offsets recorded are those of the loops opened last, and every loop went by the one it
    found; `first` was recorded at the start. -/
structure Recording (first : String → Option Int64) (entries : List Entry) (r : Registers) :
    Prop where
  last : ∀ key, r.recorded? key = recordedBy key (first key) entries
  opened : ∀ before header items selected s after,
    entries = before ++ .loop header items selected s :: after →
    ∃ m, OpenedBy header
      ((recordedBy header.continueKey (first header.continueKey) before).getD 0) items selected s m

namespace Recording
variable {first : String → Option Int64} {entries later : List Entry} {r r' : Registers}

theorem nil (recorded : ∀ key, r.recorded? key = first key) : Recording first [] r where
  last := recorded
  opened before header items selected s after parts := by simp at parts

theorem of_recorded (h : Recording first entries r)
    (same : ∀ key, r'.recorded? key = r.recorded? key) : Recording first entries r' :=
  { h with last := fun key => (same key).trans (h.last key) }

theorem range (h : Recording first entries r) (elements : List Value) :
    Recording first (entries ++ [.range elements]) r where
  last key := by
    rw [recordedBy_append]
    exact h.last key
  opened before header items selected s after parts := by
    rcases concat_split parts with ⟨-, same⟩ | ⟨rest, early⟩
    · cases same
    · exact h.opened before header items selected s rest early

theorem loop (h : Recording first entries r) {header : LoopHeader} {items selected : List Value}
    {s : State} {m : Object}
    (opening : OpenedBy header ((r.recorded? header.continueKey).getD 0) items selected s m)
    (others : ∀ key, key ≠ header.continueKey → s.registers.recorded? key = r.recorded? key) :
    Recording first (entries ++ [.loop header items selected s]) s.registers where
  last key := by
    rw [recordedBy_append]
    change _ = if header.continueKey = key then s.registers.recorded? key else _
    by_cases mine : header.continueKey = key
    · rw [if_pos mine]
    · rw [if_neg mine, others key (Ne.symm mine), h.last key]
  opened before header' items' selected' s' after parts := by
    rcases concat_split parts with ⟨rfl, same⟩ | ⟨rest, early⟩
    · cases same
      rw [h.last] at opening
      exact ⟨m, opening⟩
    · exact h.opened before header' items' selected' s' rest early

theorem append (h : Recording first entries r) (h' : Recording r.recorded? later r') :
    Recording first (entries ++ later) r' where
  last key := by rw [h'.last, h.last, recordedBy_append]
  opened before header items selected s after parts := by
    rcases List.append_eq_append_iff.mp parts with ⟨gap, rfl, rest⟩ | ⟨gap, early, rest⟩
    · rw [recordedBy_append, ← h.last]
      exact h'.opened gap header items selected s after rest
    · cases gap with
      | nil =>
        have same : before = entries := by simpa using early.symm
        rw [same, ← h.last]
        exact h'.opened [] header items selected s after rest.symm
      | cons e gap =>
        obtain ⟨rfl, -⟩ := List.cons.inj rest
        exact h.opened before header items selected s gap early

/-- The step: opening a loop writes the offset of its key into the cell that it looked it up in. -/
theorem opens (h : Recording first entries r) {cell : Nat} {header : LoopHeader}
    {items : List Value} {m : Object} {s : State}
    (found : r.find? .offsets offsetsRegister = some cell)
    (given : ∃ x : State, x.bindings = s.bindings ∧ x.modes = s.modes ∧
      (evaluateModifiers header
        (.int (((r.offsetsAt cell).lookup header.continueKey).getD 0)) x).MayGive m)
    (left : s.registers = r.write cell (.offsets (storeOffset header.continueKey
      (resumeAt m (select header.ordered m items)) (r.offsetsAt cell)))) :
    Recording first (entries ++ [.loop header items (select header.ordered m items) s])
      s.registers := by
  have written := Registers.recorded?_write found (storeOffset header.continueKey
    (resumeAt m (select header.ordered m items)) (r.offsetsAt cell))
  rw [← left] at written
  rw [← Registers.recorded?_eq found] at given
  refine h.loop ⟨given, rfl, ?_⟩ fun key other => ?_
  · rw [written, lookup_storeOffset, if_pos rfl]
  · rw [written, lookup_storeOffset, if_neg other, Registers.recorded?_eq found]

end Recording

theorem bookModifiers_recording (header : LoopHeader) (previous : Value)
    {first : String → Option Int64} {entries : List Entry} {s : State} {r : Registers}
    (given : s.registers = r) (h : Recording first entries r) :
    (bookModifiers header previous s).Ends
      (fun _ es t => t.registers = r ∧ Recording first es r) entries := by
  have account : Account (fun es t => t.registers = r ∧ Recording first es r) Booked.NoExcuse :=
    registers_account (I := fun es now => now = r ∧ Recording first es r)
      fun es elements now h => ⟨h.1, h.2.range elements⟩
  exact (account.keeps_books.modifiers header previous).always ⟨given, h⟩

theorem bookModifiers_given (header : LoopHeader) (previous : Value) (s : State) :
    (bookModifiers header previous s).erase.Gives fun m t =>
      (evaluateModifiers header previous s).MayGive m ∧ After s t := by
  have erased : (bookModifiers header previous s).erase = evaluateModifiers header previous s :=
    congrFun (erase_keeps_books.modifiers header previous) s
  have kept := evaluateModifiers_keeps header previous s
  rw [erased]
  exact (Step.gives_mayGive _).and (.of_keeps kept After.trans fun _ _ h => h)

theorem bookOpening_recording (first : String → Option Int64) (header : LoopHeader)
    (items : List Value) :
    (bookOpening header items).Maintains (fun es s => Recording first es s.registers)
      Booked.NoExcuse := by
  intro entries s h
  obtain ⟨⟨cell, registers⟩, got⟩ : ∃ p, s.registers.get .offsets offsetsRegister = p := ⟨_, rfl⟩
  have asked := s.registers.recorded?_get
  have found := s.registers.find?_get .offsets offsetsRegister
  rw [got] at asked found
  have now : Recording first entries registers := h.of_recorded asked
  let previous := ((registers.offsetsAt cell).lookup header.continueKey).getD 0
  have evaluated := (bookModifiers_recording header (.int previous) (s := { s with registers })
    rfl now).with_results (bookModifiers_given header (.int previous) _)
  rw [bookOpening_apply header items got]
  refine evaluated.bind ?_ ?_ ?_
  · rintro e es t ⟨⟨rfl, recording⟩, -⟩
    exact .inl recording
  · rintro es t ⟨⟨rfl, recording⟩, -⟩
    exact .inl recording
  · rintro modifiers es t ⟨⟨same, recording⟩, results⟩
    obtain ⟨given, memory, store, rfl⟩ := results modifiers rfl
    exact .entry (.done (.inl
      (recording.opens found ⟨{ s with registers }, rfl, rfl, given⟩ rfl)))

theorem bookAll_recording (first : String → Option Int64) {nodes : List Node}
    (builtIn : BuiltIn nodes) :
    (bookAll nodes).Maintains (fun es s => Recording first es s.registers) Booked.NoExcuse := by
  have account : Account (fun es s => Recording first es s.registers) Booked.NoExcuse :=
    registers_account fun es elements r h => h.range elements
  have keeps : RenderBookkeeping
      (fun _ b _ => b.Maintains (fun es s => Recording first es s.registers) Booked.NoExcuse)
      fun _ => True :=
    ⟨account.keeps_books, fun header _ => bookOpening_recording first header⟩
  exact keeps.render builtIn fun _ _ => trivial

def OpenedAmong (hs : List LoopHeader) (entries : List Entry) : Prop :=
  ∀ e ∈ entries, ∀ header ∈ e.header?, header ∈ hs

theorem OpenedAmong.append {hs : List LoopHeader} {entries : List Entry} {e : Entry}
    (h : OpenedAmong hs entries) (own : ∀ header ∈ e.header?, header ∈ hs) :
    OpenedAmong hs (entries ++ [e]) :=
  List.forall_mem_append.mpr ⟨h, List.forall_mem_singleton.mpr own⟩

theorem bookAll_openedAmong {nodes : List Node} (builtIn : BuiltIn nodes) :
    (bookAll nodes).Maintains (fun es _ => OpenedAmong (headers nodes) es) Booked.NoExcuse := by
  have account : Account (fun es _ => OpenedAmong (headers nodes) es) Booked.NoExcuse :=
    registers_account (I := fun es _ => OpenedAmong (headers nodes) es)
      fun es elements _ h => h.append nofun
  have lifted : ∀ {α : Type} (t : Task α), (lift t : Books α).Maintains
      (fun es _ => OpenedAmong (headers nodes) es) Booked.NoExcuse := fun t es s h =>
    .of_gives (.of_forall (fun _ _ => trivial) (t s)) (fun _ _ _ => .inl h) fun _ _ _ => .inl h
  have keeps : RenderBookkeeping
      (fun _ b _ => b.Maintains (fun es _ => OpenedAmong (headers nodes) es) Booked.NoExcuse)
      (· ∈ headers nodes) := by
    refine ⟨account.keeps_books, fun header own items => ?_⟩
    refine (lifted _).bind fun cell => (lifted _).bind fun previous => ?_
    refine (account.keeps_books.modifiers header previous).bind fun modifiers => ?_
    refine (lifted _).bind fun _ => (lifted _).bind fun position => ?_
    intro es s h
    refine .entry (.done (.inl (h.append fun other same => ?_)))
    cases same
    exact own
  exact keeps.render builtIn fun _ own => own

namespace Turn

theorem opens_own (t : Turn) (builtIn : BuiltIn t.nodes) :
    OpenedAmong (headers t.nodes) t.entries :=
  t.maintained builtIn (bookAll_openedAmong builtIn) (List.forall_mem_nil _)

theorem recording (t : Turn) (builtIn : BuiltIn t.nodes) :
    Recording t.start.registers.recorded? t.entries t.run.state.registers :=
  t.maintained builtIn (bookAll_recording _ builtIn) (.nil fun _ => rfl)

/-- The run lemma: over several renders with the same registers. -/
theorem registersAfter_recording (turns : List Turn) (builtIn : ∀ t ∈ turns, BuiltIn t.nodes)
    {r : Registers} (share : Share r turns) :
    Recording r.recorded? (turns.flatMap entries) (registersAfter r turns) := by
  induction turns generalizing r with
  | nil => exact .nil fun _ => rfl
  | cons t rest ih =>
    obtain ⟨rfl, share⟩ := share
    rw [List.forall_mem_cons] at builtIn
    exact (t.recording builtIn.1).append (ih builtIn.2 share)

end Turn
end Templating
