import Templating.Source.Cursor

namespace Templating
namespace Cursor

theorem advance_zero (c : Cursor) : c.advance 0 = c := by
  simp [advance, byteLength]

theorem advance_advance (c : Cursor) (m n : Nat) : (c.advance m).advance n = c.advance (m + n) := by
  simp only [advance, List.drop_drop, List.take_add, byteLength_append, Nat.add_assoc]

def LeadsTo (c later : Cursor) : Prop := ∃ n, later = c.advance n

namespace LeadsTo
variable {a b c : Cursor}

theorem refl (c : Cursor) : c.LeadsTo c := ⟨0, c.advance_zero.symm⟩

theorem advance (c : Cursor) (n : Nat) : c.LeadsTo (c.advance n) := ⟨n, rfl⟩

theorem trans (first : a.LeadsTo b) (second : b.LeadsTo c) : a.LeadsTo c := by
  obtain ⟨m, rfl⟩ := first
  obtain ⟨n, rfl⟩ := second
  exact ⟨m + n, advance_advance a m n⟩

end LeadsTo

def Marks (c : Cursor) (span : Span) : Prop :=
  ∃ start stop, c.LeadsTo start ∧ start.LeadsTo stop ∧ span = stop.spanFrom start.position

def Cites (c : Cursor) (a : Argument) : Prop :=
  ∃ start n, c.LeadsTo start ∧ a.text = String.ofList (start.rest.take n) ∧
    a.span = (start.advance n).spanFrom start.position

theorem Marks.earlier {o c : Cursor} {span : Span} (leads : o.LeadsTo c) (marks : c.Marks span) :
    o.Marks span := by
  obtain ⟨start, stop, first, second, eq⟩ := marks
  exact ⟨start, stop, leads.trans first, second, eq⟩

theorem Cites.earlier {o c : Cursor} {a : Argument} (leads : o.LeadsTo c) (cites : c.Cites a) :
    o.Cites a := by
  obtain ⟨start, n, first, eq⟩ := cites
  exact ⟨start, n, leads.trans first, eq⟩

/-- A reader that `o` leads to has gone on. A result of it has the property, and an error points at
    something that `o` leads to. -/
def Lands {α : Type} (o : Cursor) (P : α → Prop) : EStateM.Result LexError Cursor α → Prop
  | .ok a later => o.LeadsTo later ∧ P a
  | .error e later => o.LeadsTo later ∧ o.Marks e.span

def Onward {α : Type} (o : Cursor) (r : Reader α) (P : α → Prop) : Prop :=
  ∀ c, o.LeadsTo c → o.Lands P (r c)

def Anything {α : Type} (_ : α) : Prop := True

theorem bind_of_ok {α β : Type} {r : Reader α} {f : α → Reader β} {c later : Cursor} {a : α}
    (result : r c = .ok a later) : (r >>= f) c = f a later := by
  simp only [bind, EStateM.bind, result]

theorem bind_of_error {α β : Type} {r : Reader α} {f : α → Reader β} {c later : Cursor}
    {e : LexError} (result : r c = .error e later) : (r >>= f) c = .error e later := by
  simp only [bind, EStateM.bind, result]

section
variable {o : Cursor} {α β : Type} {P : α → Prop} {Q : β → Prop}

theorem Lands.earlier {c : Cursor} {result : EStateM.Result LexError Cursor α}
    (leads : o.LeadsTo c) (lands : c.Lands P result) : o.Lands P result := by
  cases result with
  | ok a later => exact ⟨leads.trans lands.1, lands.2⟩
  | error e later => exact ⟨leads.trans lands.1, lands.2.earlier leads⟩

theorem onward_pure {a : α} (h : P a) : Onward o (pure a) P := fun _ leads => ⟨leads, h⟩

theorem onward_get : Onward o get fun c => o.LeadsTo c := fun _ leads => ⟨leads, leads⟩

theorem onward_skip (n : Nat) : Onward o (skip n) Anything :=
  fun c leads => ⟨leads.trans (.advance c n), trivial⟩

theorem onward_blanks : Onward o blanks Anything :=
  fun c leads => ⟨leads.trans (.advance c _), trivial⟩

theorem onward_lift {f : Cursor → α × Cursor} (moves : ∀ c : Cursor, c.LeadsTo (f c).2) :
    Onward o (lift f) Anything := fun c leads => ⟨leads.trans (moves c), trivial⟩

theorem onward_fail (cause : LexCause) : Onward o (fail cause o.position) P :=
  fun c leads => ⟨leads, o, c, .refl o, leads, rfl⟩

theorem Onward.bind {r : Reader α} {f : α → Reader β} (first : Onward o r P)
    (later : ∀ a, P a → Onward o (f a) Q) : Onward o (r >>= f) Q := by
  intro c leads
  have lands := first c leads
  cases result : r c with
  | ok a c' =>
    rw [result] at lands
    rw [bind_of_ok result]
    exact later a lands.2 c' lands.1
  | error e c' =>
    rw [result] at lands
    rw [bind_of_error result]
    exact lands

theorem Onward.map {r : Reader α} {f : α → β} (h : Onward o r P) (image : ∀ a, P a → Q (f a)) :
    Onward o (f <$> r) Q := by
  rw [map_eq_pure_bind]
  exact h.bind fun a holds => onward_pure (image a holds)

theorem Onward.from_here {f : Cursor → Reader α}
    (h : ∀ c, o.LeadsTo c → Onward c (f c) P) : Onward o (get >>= f) P :=
  fun c leads => (h c leads c (.refl c)).earlier leads

end

theorem LeadsTo.skipBlank (c : Cursor) : c.LeadsTo c.skipBlank := .advance c _

theorem LeadsTo.take (text : List Char) (c : Cursor) : c.LeadsTo (c.take text).2 := by
  simp only [Cursor.take]
  split
  · exact (skipBlank c).trans (.advance _ _)
  · exact skipBlank c

theorem LeadsTo.identifier (c : Cursor) : c.LeadsTo c.identifier.2 := by
  simp only [Cursor.identifier]
  split
  · exact (skipBlank c).trans (.advance _ _)
  · exact skipBlank c

theorem LeadsTo.takeWord (word : String) (c : Cursor) : c.LeadsTo (c.takeWord word).2 := by
  have moved := identifier c
  simp only [Cursor.takeWord]
  split
  · rename_i found
    rw [found] at moved
    split
    · exact moved
    · exact refl c
  · exact refl c

theorem LeadsTo.operator (c : Cursor) : c.LeadsTo c.operator.2 := by
  have word := takeWord "contains" c.skipBlank
  simp only [Cursor.operator]
  split
  · exact (skipBlank c).trans (.advance _ _)
  · split
    · rename_i found
      rw [found] at word
      exact (skipBlank c).trans word
    · rename_i found
      rw [found] at word
      exact (skipBlank c).trans word

theorem readNumber_onward (o : Cursor) : Onward o (readNumber o.position) Anything := by
  refine onward_get.bind fun c _ => ?_
  generalize numberText c.rest = number
  obtain ⟨text, isReal⟩ := number
  refine (onward_skip text.length).bind fun _ _ => ?_
  simp only
  split
  · exact onward_pure trivial
  · exact onward_fail _

theorem readString_onward (o : Cursor) (quote : Char) :
    Onward o (readString quote o.position) Anything := by
  refine onward_get.bind fun c _ => ?_
  simp only
  split
  · exact (onward_skip _).bind fun _ _ => onward_pure trivial
  · exact (onward_skip _).bind fun _ _ => onward_fail _

mutual

theorem readExpr_onward (o : Cursor) : ∀ fuel, Onward o (readExpr fuel) Anything
  | 0 => onward_pure trivial
  | fuel + 1 => by
    rw [readExpr]
    refine .from_here fun c leads => ?_
    simp only
    split
    · exact onward_pure trivial
    · split
      · exact (readRange_onward c fuel).map fun _ _ => trivial
      · split
        · exact (readString_onward c _).map fun _ _ => trivial
        · split
          · exact (readNumber_onward c).map fun _ _ => trivial
          · split
            · refine (onward_skip _).bind fun _ _ => ?_
              exact (readSegments_onward c fuel).bind fun _ _ => onward_pure trivial
            · exact onward_pure trivial
termination_by structural fuel => fuel

theorem readRange_onward (o : Cursor) : ∀ fuel, Onward o (readRange fuel o.position) Anything
  | 0 => onward_fail _
  | fuel + 1 => by
    rw [readRange]
    refine (onward_skip 1).bind fun _ _ => onward_blanks.bind fun _ _ => ?_
    refine (readExpr_onward o fuel).bind fun low _ => ?_
    refine (onward_lift (.take _)).bind fun dots _ => ?_
    split
    · exact onward_fail _
    · refine onward_blanks.bind fun _ _ => (readExpr_onward o fuel).bind fun high _ => ?_
      split
      · refine (onward_lift (.take _)).bind fun closed _ => ?_
        split
        · exact onward_pure trivial
        · exact onward_fail _
      · exact onward_fail _
termination_by structural fuel => fuel

theorem readSegments_onward (o : Cursor) :
    ∀ fuel, Onward o (readSegments fuel o.position) Anything
  | 0 => onward_pure trivial
  | fuel + 1 => by
    rw [readSegments]
    refine onward_get.bind fun c _ => ?_
    split
    · split
      · exact onward_pure trivial
      · refine (onward_skip 1).bind fun _ _ => ?_
        simp only
        split
        · exact onward_fail _
        · refine (onward_skip _).bind fun _ _ => ?_
          exact (readSegments_onward o fuel).bind fun _ _ => onward_pure trivial
    · refine (onward_skip 1).bind fun _ _ => onward_blanks.bind fun _ _ => ?_
      refine (readExpr_onward o fuel).bind fun index _ => ?_
      split
      · exact onward_fail _
      · refine (onward_lift (.take _)).bind fun closed _ => ?_
        split
        · exact onward_fail _
        · exact (readSegments_onward o fuel).bind fun _ _ => onward_pure trivial
    · exact onward_pure trivial
termination_by structural fuel => fuel

end

theorem LeadsTo.advance_eq {c later : Cursor} (leads : c.LeadsTo later) :
    later = c.advance (c.rest.length - later.rest.length) := by
  obtain ⟨n, rfl⟩ := leads
  have length : (c.advance n).rest.length = c.rest.length - n := List.length_drop ..
  rw [length]
  rcases Nat.le_total n c.rest.length with within | beyond
  · rw [show c.rest.length - (c.rest.length - n) = n by omega]
  · rw [show c.rest.length - (c.rest.length - n) = c.rest.length by omega]
    simp [Cursor.advance, List.take_of_length_le beyond, List.drop_eq_nil_of_le beyond]

def CitesAll (c : Cursor) (arguments : List Argument) : Prop := ∀ a ∈ arguments, c.Cites a

theorem CitesAll.earlier {o c : Cursor} {arguments : List Argument} (leads : o.LeadsTo c)
    (all : c.CitesAll arguments) : o.CitesAll arguments :=
  fun a member => (all a member).earlier leads

theorem CitesAll.append {c : Cursor} {first second : List Argument} (left : c.CitesAll first)
    (right : c.CitesAll second) : c.CitesAll (first ++ second) :=
  List.forall_mem_append.mpr ⟨left, right⟩

theorem citesAll_nil (c : Cursor) : c.CitesAll [] := List.forall_mem_nil _

theorem value_onward (o : Cursor) : Onward o value fun found => o.CitesAll found.toList := by
  refine onward_blanks.bind fun _ _ => .from_here fun c reached => ?_
  refine (readExpr_onward c _).bind fun found _ => ?_
  cases found with
  | none => exact onward_pure (citesAll_nil o)
  | some e =>
    refine onward_get.bind fun after leads => onward_pure ?_
    refine List.forall_mem_singleton.mpr (Cites.earlier reached ⟨c, _, .refl c, rfl, ?_⟩)
    rw [← leads.advance_eq]

theorem readGiven_onward (o : Cursor) (separator : Char) :
    Onward o (readGiven separator o.position) fun found => o.CitesAll found.toList := by
  refine onward_get.bind fun c _ => ?_
  split
  · refine (onward_skip 1).bind fun _ _ => (value_onward o).bind fun found cited => ?_
    cases found with
    | none => exact onward_fail _
    | some v => exact onward_pure cited
  · exact onward_pure (citesAll_nil o)

theorem readNamed_onward (separator : Char) : ∀ fuel (o : Cursor),
    Onward o (readNamed separator fuel) fun entries => o.CitesAll (givenValues entries)
  | 0, o => onward_pure (citesAll_nil o)
  | fuel + 1, o => by
    rw [readNamed]
    refine onward_blanks.bind fun _ _ => .from_here fun c reached => ?_
    split
    · exact onward_pure (citesAll_nil o)
    · refine (onward_lift .identifier).bind fun key _ => ?_
      cases key with
      | none => exact onward_fail _
      | some key =>
        refine onward_blanks.bind fun _ _ => ?_
        refine (readGiven_onward c separator).bind fun given cited => ?_
        refine onward_get.bind fun after _ => (onward_lift (.take _)).bind fun _ _ => ?_
        refine (readNamed_onward separator fuel c).bind fun entries others => onward_pure ?_
        have both := cited.append others
        cases given <;> exact both.earlier reached
termination_by structural fuel => fuel

theorem namedArguments_onward (o : Cursor) (separator : Char) :
    Onward o (namedArguments separator) fun entries => o.CitesAll (givenValues entries) :=
  fun c leads => readNamed_onward separator _ o c leads

end Cursor
end Templating
