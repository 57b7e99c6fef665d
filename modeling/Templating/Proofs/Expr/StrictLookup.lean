import Mathlib.Data.List.Induction
import Templating.Proofs.Task.Driving
import Templating.Proofs.Template.Strictness
import Templating.Engine

/-!
What a strict lookup reports. From one key to the next both ways to read do the same; after each
key the strict one checks what it has got.
-/
namespace Templating

namespace Task
variable {α β : Type}

def Unbiased (t : Task α) : Prop := t.Respects Laxer

theorem unbiased_wait (id : Nat) (label : Option String) : (wait id label).Unbiased := by
  rintro _ _ ⟨u, rfl, rfl⟩
  exact .waiting ⟨u, rfl, rfl⟩ (.done ⟨rfl, u, rfl, rfl⟩) (.done ⟨rfl, u.complete label, rfl, rfl⟩)

theorem unbiased_settle : ∀ v : Value, (settle v).Unbiased :=
  settle_closed respects_pure fun id label _ rest => (unbiased_wait id label).bind fun _ => rest

theorem unbiased_resolve : ∀ v : Value, (resolve v).Unbiased :=
  resolve_closed respects_pure fun id label _ rest => (unbiased_wait id label).bind fun _ => rest

end Task

open Templating.Task (Unbiased unbiased_settle unbiased_resolve)

def Moment.reading (m : Moment) (strict : Bool) : Moment :=
  { m with state := m.state.reading strict }

theorem Task.Unbiased.drive {α : Type} {t : Task α} (unbiased : t.Unbiased) (m : Moment) :
    ∃ (ending : Ending α) (later : Moment),
      t.drive (m.reading false) = ⟨ending, later.reading false⟩ ∧
      t.drive (m.reading true) = ⟨ending, later.reading true⟩ := by
  have agree : Halt.Agree _ Laxer (t.drive (m.reading true)) (t.drive (m.reading false)) :=
    (unbiased _ _ ⟨m.state, rfl, rfl⟩).drive m.schedule m.driver
  generalize t.drive (m.reading true) = strict at agree ⊢
  generalize t.drive (m.reading false) = lenient at agree ⊢
  cases agree with
  | @finished a _ b _ schedule d h =>
    obtain ⟨rfl, u, rfl, rfl⟩ := h
    exact ⟨.finished a, ⟨u, schedule, d⟩, rfl, rfl⟩
  | @failed e _ _ schedule d h =>
    obtain ⟨u, rfl, rfl⟩ := h
    exact ⟨.failed e, ⟨u, schedule, d⟩, rfl, rfl⟩
  | @unfinished _ _ schedule d h =>
    obtain ⟨u, rfl, rfl⟩ := h
    exact ⟨.unfinished, ⟨u, schedule, d⟩, rfl, rfl⟩

def advance (receiver key : Value) : Task Value := do
  let next ← property receiver key
  Task.settle next

def enter (first : Value) : Task Value := do
  let key ← Task.resolve first
  let found ← readName key.keyText
  Task.settle found

theorem unbiased_advance (receiver key : Value) : (advance receiver key).Unbiased := by
  have read : ∀ receiver key, (do
      let s ← Task.state
      Task.read (readProperty receiver key s.modes.ownOnly)).Unbiased := by
    rintro receiver key _ _ ⟨u, rfl, rfl⟩
    exact .done ⟨rfl, { u with store := (readProperty receiver key u.modes.ownOnly u.store).2 },
      rfl, rfl⟩
  refine Task.Respects.bind ?_ unbiased_settle
  exact (unbiased_settle receiver).bind fun receiver =>
    (unbiased_resolve key).bind fun key => read receiver key

theorem unbiased_enter (first : Value) : (enter first).Unbiased := by
  have read : ∀ name, (readName name).Unbiased := by
    rintro name _ _ ⟨u, rfl, rfl⟩
    exact .done ⟨rfl,
      { u with store := ((u.bindings.owner name).read name u.modes.ownOnly u.store).2 }, rfl, rfl⟩
  exact (unbiased_resolve first).bind fun key => (read key.keyText).bind unbiased_settle

theorem advance_undefined (key : Value) :
    advance .undefined key = (do
      let _ ← Task.resolve key
      return .undefined) := by
  have settled : Task.settle .undefined = pure .undefined := rfl
  simp only [advance, property, settled, pure_bind, bind_assoc]
  rfl

def checked (t : Task Value) (walked : List Value) : Task Value := do
  let v ← t
  checkDefined v walked
  return v

def readPath (opening : Value → Task Value) (start : Value) : List Value → Task Value
  | [] => pure start
  | first :: rest => do
    let v ← checked (opening first) [first]
    follow v [first] rest

theorem lookup_eq_readPath : lookup = readPath enter .undefined := by
  funext keys
  cases keys with
  | nil => rfl
  | cons first rest => simp only [lookup, readPath, checked, enter, bind_assoc, pure_bind]

theorem lookupFrom_eq_readPath (start : Value) :
    lookupFrom start = readPath (advance start) start := by
  funext keys
  cases keys with
  | nil => rfl
  | cons first rest =>
    simp only [lookupFrom, follow, readPath, checked, advance, bind_assoc, pure_bind,
      List.nil_append]

theorem follow_snoc (v : Value) (walked keys : List Value) (key : Value) :
    follow v walked (keys ++ [key]) = (do
      let w ← follow v walked keys
      checked (advance w key) (walked ++ keys ++ [key])) := by
  induction keys generalizing v walked with
  | nil =>
    simp only [List.nil_append, List.append_nil, follow, checked, advance, bind_assoc, pure_bind]
  | cons first rest ih =>
    simp only [List.cons_append, follow, ih, bind_assoc, List.append_assoc, List.nil_append]

theorem readPath_snoc (opening : Value → Task Value) (start first : Value) (rest : List Value)
    (key : Value) : readPath opening start (first :: (rest ++ [key])) = (do
      let v ← readPath opening start (first :: rest)
      checked (advance v key) (first :: (rest ++ [key]))) := by
  simp only [readPath, follow_snoc, bind_assoc, List.cons_append, List.nil_append]

/-- Driven leniently and strictly, a read gives the same defined value, or the strict one fails
    where the lenient one gives undefined, or the lenient one has no result. -/
inductive Checked (walked : List Value) : Halt Value → Halt Value → Prop where
  | present {v : Value} {m : Moment} (defined : v ≠ .undefined) :
      Checked walked ⟨.finished v, m.reading false⟩ ⟨.finished v, m.reading true⟩
  | absent {m m' : Moment} :
      Checked walked ⟨.finished .undefined, m⟩ ⟨.failed (.undefinedVariable (pathText walked)), m'⟩
  | stuck {lenient strict : Halt Value} (none : ∀ v, lenient.ending ≠ .finished v) :
      Checked walked lenient strict

theorem checked_drive {t : Task Value} (unbiased : t.Unbiased) (walked : List Value) (m : Moment) :
    Checked walked ((checked t walked).drive (m.reading false))
      ((checked t walked).drive (m.reading true)) := by
  obtain ⟨ending, later, lenient, strict⟩ := unbiased.drive m
  rw [checked, Task.drive_bind, Task.drive_bind, lenient, strict]
  cases ending with
  | failed e => exact .stuck nofun
  | unfinished => exact .stuck nofun
  | finished v =>
    cases v with
    | undefined => exact .absent
    | _ => exact .present nofun

/-- The shortest path of first keys, at least one, that leads to undefined. -/
structure FirstAbsent (lenient : List Value → Ending Value) (keys : List Value) (n : Nat) :
    Prop where
  some : 0 < n
  most : n ≤ keys.length
  absent : lenient (keys.take n) = .finished .undefined
  least : ∀ k, 0 < k → k < n → lenient (keys.take k) ≠ .finished .undefined

theorem FirstAbsent.append {lenient : List Value → Ending Value} {keys : List Value} {n : Nat}
    (first : FirstAbsent lenient keys n) (more : List Value) :
    FirstAbsent lenient (keys ++ more) n := by
  have same : ∀ k ≤ n, (keys ++ more).take k = keys.take k := fun k le =>
    List.take_append_of_le_length (Nat.le_trans le first.most)
  refine ⟨first.some, ?_, ?_, fun k some less => ?_⟩
  · rw [List.length_append]
    exact Nat.le_add_right_of_le first.most
  · rw [same n (Nat.le_refl n)]
    exact first.absent
  · rw [same k (Nat.le_of_lt less)]
    exact first.least k some less

inductive Traced (lenient strict : List Value → Halt Value) (keys : List Value) : Prop where
  | present {v : Value} {m : Moment} (defined : v ≠ .undefined)
      (left : lenient keys = ⟨.finished v, m.reading false⟩)
      (right : strict keys = ⟨.finished v, m.reading true⟩)
      (before : ∀ n, 0 < n → n ≤ keys.length →
        (lenient (keys.take n)).ending ≠ .finished .undefined)
  | absent {n : Nat} (first : FirstAbsent (fun keys => (lenient keys).ending) keys n)
      (stays : ∀ v, (lenient keys).ending = .finished v → v = .undefined)
      (stopped : (strict keys).ending = .failed (.undefinedVariable (pathText (keys.take n))))
  | stuck (none : ∀ v, (lenient keys).ending ≠ .finished v)

theorem traced_checked {lenient strict : List Value → Halt Value} {keys : List Value}
    (read : Checked keys (lenient keys) (strict keys)) (some : 0 < keys.length)
    (before : ∀ n, 0 < n → n < keys.length →
      (lenient (keys.take n)).ending ≠ .finished .undefined) : Traced lenient strict keys := by
  generalize left : lenient keys = x at read
  generalize right : strict keys = y at read
  cases read with
  | present defined =>
    refine .present defined left right fun n some most => ?_
    rcases Nat.lt_or_eq_of_le most with less | rfl
    · exact before n some less
    · rw [List.take_length, left]
      intro same
      exact defined (Ending.finished.inj same)
  | absent =>
    refine .absent (n := keys.length) ⟨some, Nat.le_refl _, ?_, before⟩ ?_ ?_
    · rw [List.take_length, left]
    · intro v same
      rw [left] at same
      exact (Ending.finished.inj same).symm
    · rw [List.take_length, right]
  | stuck none => exact .stuck (left ▸ none)

variable {opening : Value → Task Value} {start : Value}

abbrev Followed (opening : Value → Task Value) (start : Value) (m : Moment)
    (keys : List Value) : Prop :=
  Traced (fun keys => (readPath opening start keys).drive (m.reading false))
    (fun keys => (readPath opening start keys).drive (m.reading true)) keys

theorem checked_advance_undefined {key v : Value} {walked : List Value} {m : Moment}
    (finished : ((checked (advance .undefined key) walked).drive m).ending = .finished v) :
    v = .undefined := by
  rw [checked, advance_undefined, bind_assoc, Task.drive_bind] at finished
  obtain ⟨k, -, rest⟩ := Halt.andThen_finished finished
  rw [pure_bind, Task.drive_bind] at rest
  obtain ⟨u, -, given⟩ := Halt.andThen_finished rest
  exact (Ending.finished.inj given).symm

theorem followed_snoc {first key : Value} {rest : List Value} {m : Moment}
    (followed : Followed opening start m (first :: rest)) :
    Followed opening start m (first :: (rest ++ [key])) := by
  have onward (strict : Bool) :
      (readPath opening start (first :: (rest ++ [key]))).drive (m.reading strict)
      = ((readPath opening start (first :: rest)).drive (m.reading strict)).andThen fun v m =>
        (checked (advance v key) (first :: (rest ++ [key]))).drive m := by
    rw [readPath_snoc, Task.drive_bind]
  cases followed with
  | @present v later defined left right before =>
    refine traced_checked ?_ (Nat.succ_pos _) fun n some less => ?_
    · simp only [onward, left, right]
      exact checked_drive (unbiased_advance v key) _ later
    · have shorter : n ≤ (first :: rest).length := by
        simp only [List.length_cons, List.length_append, List.length_nil] at less ⊢
        omega
      have same : (first :: (rest ++ [key])).take n = (first :: rest).take n :=
        List.take_append_of_le_length shorter
      rw [same]
      exact before n some shorter
  | @absent n absent stays stopped =>
    -- the strict lookup has failed already, and the lenient one does not recover
    have same : (first :: (rest ++ [key])).take n = (first :: rest).take n :=
      List.take_append_of_le_length absent.most
    refine .absent (absent.append [key]) (fun w finished => ?_) ?_
    · rw [onward] at finished
      obtain ⟨v, before, given⟩ := Halt.andThen_finished finished
      obtain rfl := stays v before
      exact checked_advance_undefined given
    · rw [onward, same]
      exact Halt.andThen_failed stopped _
  | stuck none =>
    refine .stuck fun w finished => ?_
    rw [onward] at finished
    obtain ⟨v, before, -⟩ := Halt.andThen_finished finished
    exact none v before

theorem followed (unbiased : ∀ first, (opening first).Unbiased) (m : Moment)
    (first : Value) (rest : List Value) : Followed opening start m (first :: rest) := by
  -- from the right: a longer path goes on from where its first keys have led
  induction rest using List.reverseRecOn with
  | nil =>
    refine traced_checked ?_ Nat.one_pos fun n some less => absurd less (Nat.not_lt.mpr some)
    simp only [readPath, follow, bind_pure]
    exact checked_drive (unbiased first) [first] m
  | append_singleton rest key ih => exact followed_snoc ih

/-- What a strict read of the keys reports, told by what lenient ones give for them. -/
structure Reports (lenient : List Value → Ending Value) (keys : List Value)
    (strict : Ending Value) : Prop where
  same : ∀ v, v ≠ .undefined → lenient keys = .finished v → strict = .finished v
  shortest : lenient keys = .finished .undefined → ∃ n, FirstAbsent lenient keys n ∧
    strict = .failed (.undefinedVariable (pathText (keys.take n)))

theorem Traced.reports {lenient strict : List Value → Halt Value} {keys : List Value}
    (traced : Traced lenient strict keys) :
    Reports (fun keys => (lenient keys).ending) keys (strict keys).ending := by
  cases traced with
  | @present v m defined left right before =>
    refine ⟨fun w _ given => ?_, fun absent => ?_⟩
    · rw [left] at given
      rw [right, ← given]
    · rw [left] at absent
      exact absurd (Ending.finished.inj absent) defined
  | @absent n first stays stopped =>
    exact ⟨fun w defined given => absurd (stays w given) defined, fun _ => ⟨n, first, stopped⟩⟩
  | stuck none => exact ⟨fun w _ given => absurd given (none w), fun given => absurd given (none _)⟩

/-- In each kind of run a strict lookup of a path gives the value that a lenient one gives, and
    where that is undefined it reports the shortest path of first keys that leads there; so it is
    for a path from a name and for a path from a given value. -/
theorem strict_lookup_reports_shortest (s : State) (schedule : Schedule) (d : Driver)
    (start first : Value) (rest : List Value) :
    Reports (fun keys => (d.run (lookup keys) (s.reading false) schedule).ending) (first :: rest)
        (d.run (lookup (first :: rest)) (s.reading true) schedule).ending ∧
    Reports (fun keys => (d.run (lookupFrom start keys) (s.reading false) schedule).ending)
        (first :: rest)
        (d.run (lookupFrom start (first :: rest)) (s.reading true) schedule).ending := by
  have ran (strict : Bool) (t : Task Value) : (d.run t (s.reading strict) schedule).ending
      = (t.drive ((⟨s, schedule, d⟩ : Moment).reading strict)).ending :=
    congrArg Run.ending (Task.run_eq_drive d t (s.reading strict) schedule)
  simp only [ran, lookup_eq_readPath, lookupFrom_eq_readPath]
  exact ⟨(followed unbiased_enter _ first rest).reports,
    (followed (unbiased_advance start) _ first rest).reports⟩

example (schedule : Schedule) :
    let s := Engine.start default (.single "a" (.object .empty)) default .empty .empty
    (Driver.now.run (lookup [.str "a", .str "b", .str "c"]) (s.reading true) schedule).ending
      = .failed (.undefinedVariable "a.b") := by rfl

end Templating
