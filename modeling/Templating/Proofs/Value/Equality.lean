import Mathlib.Data.List.Perm.Subperm
import Templating.Proofs.Decimal.Conversion
import Templating.Proofs.Value.Keys
import Templating.Value.Equality

/-!
Laws of equality. Two values are equal from either side, whatever is nested in them; entries of
objects may stand in any order; and a value equals itself unless a float stands in it that is
not a number.
-/
namespace Templating

open Float.Model (UnpackedFloat)

theorem compare_swapped (x y : UnpackedFloat) :
    y.compare x = (x.compare y).map Ordering.swap := by
  cases x with
  | infinity sign =>
    cases y with
    | infinity other => cases sign <;> cases other <;> rfl
    | notANumber => cases sign <;> rfl
    | zero other => cases sign <;> rfl
    | finite other n f positive => cases sign <;> cases other <;> rfl
  | notANumber => cases y <;> rfl
  | zero sign =>
    cases y with
    | infinity other => cases other <;> rfl
    | notANumber => rfl
    | zero other => rfl
    | finite other n f positive => cases other <;> rfl
  | finite sign m e positive =>
    cases y with
    | infinity other => cases sign <;> cases other <;> rfl
    | notANumber => cases sign <;> rfl
    | zero other => cases sign <;> rfl
    | finite other n f positive' =>
      have swapped :
          (compare f e).then (compare n m) = ((compare e f).then (compare m n)).swap := by
        rw [Ordering.swap_then, Int.compare_swap, Nat.compare_swap]
      cases sign with
      | positive =>
        cases other with
        | positive => exact congrArg some swapped
        | negative => rfl
      | negative =>
        cases other with
        | positive => rfl
        | negative => exact congrArg (fun order => some order.swap) swapped

theorem float_beq_comm (x y : Float) : (x == y) = (y == x) := by
  rw [Bool.eq_iff_iff, float_beq_iff, float_beq_iff, compare_swapped]
  cases x.toModel.unpack.compare y.toModel.unpack with
  | none => simp
  | some order => cases order <;> simp

theorem float_beq_self (x : Float) : (x == x) = true ↔ x.isNaN = false := by
  rw [float_beq_iff]
  change _ ↔ x.toModel.unpack.isNaN = false
  cases x.toModel.unpack with
  | infinity sign => cases sign <;> decide
  | notANumber => decide
  | zero sign => cases sign <;> decide
  | finite sign m e positive =>
    have same : (compare e e).then (compare m m) = .eq := by
      rw [compare_eq_iff_eq.mpr rfl, compare_eq_iff_eq.mpr rfl]
      rfl
    refine iff_of_true ?_ rfl
    cases sign with
    | positive => exact congrArg some same
    | negative => exact congrArg (fun order => some order.swap) same

namespace Value

inductive Inside : Value → Value → Prop where
  | itself (v : Value) : Inside v v
  | element {w v : Value} {items : List Value} (member : v ∈ items) (deeper : Inside w v) :
      Inside w (.array items)
  | entry {w : Value} {o : Object} {e : String × Value} (member : e ∈ o.entries)
      (deeper : Inside w e.2) : Inside w (.object o)
  | ancestor {w : Value} {o p : Object} (inherits : p ∈ o.ancestor)
      (deeper : Inside w (.object p)) :
      Inside w (.object o)

def Throughout (P : Value → Prop) (v : Value) : Prop := ∀ w, Inside w v → P w

def Formed : Value → Prop := Throughout fun v => ∀ o, v = .object o → o.Distinct

def Numeric : Value → Prop := Throughout fun v => ∀ x, v = .float x → x.isNaN = false

section
variable {P : Value → Prop}

theorem Throughout.self {v : Value} (h : Throughout P v) : P v := h v (.itself v)

theorem throughout_array {items : List Value} :
    Throughout P (.array items) ↔ P (.array items) ∧ ∀ v ∈ items, Throughout P v := by
  constructor
  · exact fun h => ⟨h.self, fun v member w inside => h w (.element member inside)⟩
  · rintro ⟨self, items⟩ w inside
    cases inside with
    | itself => exact self
    | element member deeper => exact items _ member w deeper

theorem throughout_object {o : Object} :
    Throughout P (.object o) ↔ P (.object o) ∧ (∀ e ∈ o.entries, Throughout P e.2) ∧
      ∀ p ∈ o.ancestor, Throughout P (.object p) := by
  constructor
  · intro h
    refine ⟨h.self, fun e member w inside => h w (.entry member inside), ?_⟩
    exact fun p inherits w inside => h w (.ancestor inherits inside)
  · rintro ⟨self, entries, ancestor⟩ w inside
    cases inside with
    | itself => exact self
    | entry member deeper => exact entries _ member w deeper
    | ancestor inherits deeper => exact ancestor _ inherits w deeper

end

theorem formed_array {items : List Value} :
    Formed (.array items) ↔ ∀ v ∈ items, v.Formed := by
  simp [Formed, throughout_array]

theorem formed_object {o : Object} :
    Formed (.object o) ↔ o.Distinct ∧ (∀ e ∈ o.entries, e.2.Formed) ∧
      ∀ p ∈ o.ancestor, Formed (.object p) := by
  have own : (∀ p, object o = object p → p.Distinct) ↔ o.Distinct := by simp
  rw [Formed, throughout_object, own]

theorem formed_derive {p : Object} (formed : Formed (.object p)) :
    Formed (.object (.derive p)) := by
  refine formed_object.mpr ⟨List.nodup_nil, List.forall_mem_nil _, ?_⟩
  rintro _ ⟨⟩
  exact formed

theorem formed_insert {o : Object} {v : Value} (formed : Formed (.object o)) (inner : v.Formed)
    (key : String) : Formed (.object (o.insert key v)) := by
  obtain ⟨distinct, entries, behind⟩ := formed_object.mp formed
  exact formed_object.mpr
    ⟨distinct.insert key v, Object.forall_mem_insertEntry inner entries, behind⟩

theorem formed_empty : Formed (.object .empty) :=
  formed_object.mpr ⟨Object.distinct_empty, List.forall_mem_nil _, nofun⟩

theorem numeric_float {x : Float} : Numeric (.float x) ↔ x.isNaN = false := by
  refine ⟨fun h => h.self x rfl, ?_⟩
  rintro number _ ⟨⟩ _ ⟨⟩
  exact number

theorem numeric_array {items : List Value} :
    Numeric (.array items) ↔ ∀ v ∈ items, v.Numeric := by
  simp [Numeric, throughout_array]

theorem numeric_object {o : Object} :
    Numeric (.object o) ↔ (∀ e ∈ o.entries, e.2.Numeric) ∧
      ∀ p ∈ o.ancestor, Numeric (.object p) := by
  have own : ∀ x, object o = float x → x.isNaN = false := nofun
  rw [Numeric, throughout_object, and_iff_right own]

theorem foundIn_iff {entries others : List (String × Value)} :
    foundIn entries others = true ↔
      ∀ e ∈ entries, ∃ w, others.lookup e.1 = some w ∧ equal e.2 w = true := by
  induction entries with
  | nil => simp [foundIn]
  | cons e rest ih =>
    obtain ⟨k, v⟩ := e
    rw [foundIn, Bool.and_eq_true, ih, List.forall_mem_cons]
    cases others.lookup k <;> simp

theorem equalObjects_iff {o p : Object} :
    equalObjects o p = true ↔ o.entries.length = p.entries.length ∧
      foundIn o.entries p.entries = true ∧ equalAncestors o.ancestor p.ancestor = true := by
  obtain ⟨entries, ancestor⟩ := o
  simp [equalObjects, and_assoc]

theorem key_mem_of_foundIn {o p : Object} (distinct : o.Distinct)
    (sizes : o.entries.length = p.entries.length)
    (found : foundIn o.entries p.entries = true) {k : String} (member : k ∈ p.keys) :
    k ∈ o.keys := by
  have subset : o.keys ⊆ p.keys := by
    intro k member
    obtain ⟨e, mine, rfl⟩ := List.mem_map.mp member
    obtain ⟨w, there, -⟩ := foundIn_iff.mp found e mine
    obtain ⟨before, after, parts, -⟩ := List.lookup_eq_some_iff.mp there
    exact List.mem_map.mpr ⟨(e.1, w), by rw [parts]; simp, rfl⟩
  have perm : o.keys.Perm p.keys :=
    (distinct.subperm subset).perm_of_length_le (by simp [Object.keys, sizes])
  exact perm.mem_iff.mpr member

theorem foundIn_of_foundIn {o p : Object} (left : o.Distinct) (right : p.Distinct)
    (sizes : o.entries.length = p.entries.length)
    (turns : ∀ e ∈ o.entries, ∀ f ∈ p.entries, equal e.2 f.2 = true → equal f.2 e.2 = true)
    (found : foundIn o.entries p.entries = true) : foundIn p.entries o.entries = true := by
  rw [foundIn_iff]
  rintro ⟨k, w⟩ mine
  have known := key_mem_of_foundIn left sizes found (List.mem_map_of_mem mine)
  obtain ⟨⟨_, v⟩, member, rfl⟩ := List.mem_map.mp known
  obtain ⟨w', there, same⟩ := foundIn_iff.mp found _ member
  obtain rfl : w = w' := Option.some.inj ((lookup_of_mem right mine).symm.trans there)
  exact ⟨v, lookup_of_mem left member, turns _ member _ mine same⟩

theorem foundIn_comm {o p : Object} (left : o.Distinct) (right : p.Distinct)
    (sizes : o.entries.length = p.entries.length)
    (comm : ∀ e ∈ o.entries, ∀ f ∈ p.entries, equal e.2 f.2 = equal f.2 e.2) :
    foundIn o.entries p.entries = foundIn p.entries o.entries := by
  rw [Bool.eq_iff_iff]
  constructor
  · exact foundIn_of_foundIn left right sizes fun e mine f other same =>
      (comm e mine f other).symm.trans same
  · exact foundIn_of_foundIn right left sizes.symm fun f other e mine same =>
      (comm e mine f other).trans same

mutual

theorem equal_comm : ∀ v w : Value, v.Formed → w.Formed → equal v w = equal w v
  | .undefined, w, _, _ => by cases w <;> rfl
  | .nil, w, _, _ => by cases w <;> rfl
  | .bool a, w, _, _ => by
    cases w with
    | bool b => exact Bool.beq_comm
    | _ => rfl
  | .int a, w, _, _ => by
    cases w with
    | int b => exact Bool.beq_comm
    | _ => rfl
  | .float x, w, _, _ => by
    cases w with
    | float y => exact float_beq_comm x y
    | _ => rfl
  | .str s, w, _, _ => by
    cases w with
    | str t => exact Bool.beq_comm
    | _ => rfl
  | .array items, w, left, right => by
    cases w with
    | array others =>
      exact equalItems_comm items others (formed_array.mp left) (formed_array.mp right)
    | _ => rfl
  | .object o, w, left, right => by
    cases w with
    | object p => exact equalObjects_comm o p left right
    | _ => rfl
  | .drop d, w, _, _ => by
    cases w with
    | drop e => exact Bool.beq_comm
    | _ => rfl
  | .position p, w, _, _ => by
    cases w with
    | position q => exact Bool.beq_comm
    | _ => rfl
  | .computed i _ _, w, _, _ => by
    cases w with
    | computed j _ _ => exact Bool.beq_comm
    | _ => rfl
  | .deferred i _ _, w, _, _ => by
    cases w with
    | deferred j _ _ => exact Bool.beq_comm
    | _ => rfl
termination_by structural v => v

theorem equalItems_comm : ∀ items others : List Value, (∀ v ∈ items, v.Formed) →
    (∀ w ∈ others, w.Formed) → equalItems items others = equalItems others items
  | [], others, _, _ => by cases others <;> rfl
  | v :: rest, others, left, right => by
    cases others with
    | nil => rfl
    | cons w others =>
      rw [List.forall_mem_cons] at left right
      rw [equalItems, equalItems, equal_comm v w left.1 right.1,
        equalItems_comm rest others left.2 right.2]
termination_by structural items => items

theorem equalObjects_comm : ∀ o p : Object, Formed (.object o) → Formed (.object p) →
    equalObjects o p = equalObjects p o
  | ⟨entries, ancestor⟩, ⟨others, ancestor'⟩, left, right => by
    obtain ⟨distinct, inner, behind⟩ := formed_object.mp left
    obtain ⟨distinct', inner', behind'⟩ := formed_object.mp right
    rw [equalObjects, equalObjects, equalAncestors_comm ancestor ancestor' behind behind']
    dsimp only
    by_cases sizes : entries.length = others.length
    · have found := foundIn_comm distinct distinct' sizes fun e mine f other =>
        entries_comm entries inner e mine f.2 (inner' f other)
      dsimp only at found
      rw [found, sizes]
    · rw [beq_false_of_ne sizes, beq_false_of_ne (Ne.symm sizes)]
      rfl
termination_by structural o => o

theorem entries_comm : ∀ entries : List (String × Value), (∀ e ∈ entries, e.2.Formed) →
    ∀ e ∈ entries, ∀ w : Value, w.Formed → equal e.2 w = equal w e.2
  | [], _, _, member, _, _ => nomatch member
  | (k, v) :: rest, formed, e, member, w, right => by
    rw [List.forall_mem_cons] at formed
    rcases List.mem_cons.mp member with rfl | later
    · exact equal_comm v w formed.1 right
    · exact entries_comm rest formed.2 e later w right
termination_by structural entries => entries

theorem equalAncestors_comm : ∀ a b : Option Object, (∀ o ∈ a, Formed (.object o)) →
    (∀ p ∈ b, Formed (.object p)) → equalAncestors a b = equalAncestors b a
  | none, b, _, _ => by cases b <;> rfl
  | some o, b, left, right => by
    cases b with
    | none => rfl
    | some p => exact equalObjects_comm o p (left o rfl) (right p rfl)
termination_by structural a => a

end

def isBare : Value → Bool
  | .float _ | .array _ | .object _ => false
  | _ => true

theorem equal_self_of_bare {v : Value} (bare : v.isBare = true) :
    equal v v = true ↔ v.Numeric := by
  cases v with
  | float => cases bare
  | array => cases bare
  | object => cases bare
  | _ => exact iff_of_true (by simp [equal]) (by rintro _ ⟨⟩ _ ⟨⟩)

theorem foundIn_self {o : Object} (distinct : o.Distinct) :
    foundIn o.entries o.entries = true ↔ ∀ e ∈ o.entries, equal e.2 e.2 = true := by
  rw [foundIn_iff]
  refine forall₂_congr fun e member => ?_
  simp [lookup_of_mem distinct member]

mutual

theorem equal_self : ∀ v : Value, v.Formed → (equal v v = true ↔ v.Numeric)
  | .undefined, _ => equal_self_of_bare rfl
  | .nil, _ => equal_self_of_bare rfl
  | .bool _, _ => equal_self_of_bare rfl
  | .int _, _ => equal_self_of_bare rfl
  | .float x, _ => (float_beq_self x).trans numeric_float.symm
  | .str _, _ => equal_self_of_bare rfl
  | .array items, formed => by
    rw [numeric_array]
    exact equalItems_self items (formed_array.mp formed)
  | .object o, formed => equalObjects_self o formed
  | .drop _, _ => equal_self_of_bare rfl
  | .position _, _ => equal_self_of_bare rfl
  | .computed .., _ => equal_self_of_bare rfl
  | .deferred .., _ => equal_self_of_bare rfl
termination_by structural v => v

theorem equalItems_self : ∀ items : List Value, (∀ v ∈ items, v.Formed) →
    (equalItems items items = true ↔ ∀ v ∈ items, v.Numeric)
  | [], _ => iff_of_true rfl (List.forall_mem_nil _)
  | v :: rest, formed => by
    rw [List.forall_mem_cons] at formed ⊢
    rw [equalItems, Bool.and_eq_true, equal_self v formed.1, equalItems_self rest formed.2]
termination_by structural items => items

theorem equalObjects_self : ∀ o : Object, Formed (.object o) →
    (equalObjects o o = true ↔ Numeric (.object o))
  | ⟨entries, ancestor⟩, formed => by
    obtain ⟨distinct, inner, behind⟩ := formed_object.mp formed
    have found := (foundIn_self distinct).trans
      (forall₂_congr fun e member => entries_self entries inner e member)
    rw [equalObjects_iff, numeric_object, found, equalAncestors_self ancestor behind,
      and_iff_right rfl]
termination_by structural o => o

theorem entries_self : ∀ entries : List (String × Value), (∀ e ∈ entries, e.2.Formed) →
    ∀ e ∈ entries, (equal e.2 e.2 = true ↔ e.2.Numeric)
  | [], _, _, member => nomatch member
  | (k, v) :: rest, formed, e, member => by
    rw [List.forall_mem_cons] at formed
    rcases List.mem_cons.mp member with rfl | later
    · exact equal_self v formed.1
    · exact entries_self rest formed.2 e later
termination_by structural entries => entries

theorem equalAncestors_self : ∀ a : Option Object, (∀ o ∈ a, Formed (.object o)) →
    (equalAncestors a a = true ↔ ∀ o ∈ a, Numeric (.object o))
  | none, _ => iff_of_true rfl nofun
  | some o, formed => by
    rw [equalAncestors, equalObjects_self o (formed o rfl)]
    simp
termination_by structural a => a

end

/-- The second value is the first one with the entries of objects in it, any of them and at any
    depth, in another order. -/
inductive Reordered : Value → Value → Prop where
  | same (v : Value) : Reordered v v
  | trans {u v w : Value} (first : Reordered u v) (second : Reordered v w) : Reordered u w
  | entries {list list' : List (String × Value)} (perm : list.Perm list')
      (ancestor : Option Object) : Reordered (.object ⟨list, ancestor⟩) (.object ⟨list', ancestor⟩)
  | element {v v' : Value} (inner : Reordered v v') (before after : List Value) :
      Reordered (.array (before ++ v :: after)) (.array (before ++ v' :: after))
  | entry {v v' : Value} (inner : Reordered v v') (key : String)
      (before after : List (String × Value)) (ancestor : Option Object) :
      Reordered (.object ⟨before ++ (key, v) :: after, ancestor⟩)
        (.object ⟨before ++ (key, v') :: after, ancestor⟩)
  | ancestor {p p' : Object} (inner : Reordered (.object p) (.object p'))
      (list : List (String × Value)) :
      Reordered (.object ⟨list, some p⟩) (.object ⟨list, some p'⟩)

theorem Reordered.formed {v v' : Value} (h : Reordered v v') (formed : v.Formed) : v'.Formed := by
  induction h with
  | same => exact formed
  | trans _ _ first second => exact second (first formed)
  | entries perm ancestor =>
    obtain ⟨distinct, inner, behind⟩ := formed_object.mp formed
    have keys := (perm.map fun e : String × Value => e.1).nodup_iff.mp distinct
    exact formed_object.mpr ⟨keys, fun e member => inner e (perm.mem_iff.mpr member), behind⟩
  | element _ before after ih =>
    rw [formed_array, List.forall_mem_append, List.forall_mem_cons] at formed ⊢
    exact ⟨formed.1, ih formed.2.1, formed.2.2⟩
  | entry _ key before after ancestor ih =>
    obtain ⟨distinct, inner, behind⟩ := formed_object.mp formed
    rw [List.forall_mem_append, List.forall_mem_cons] at inner
    refine formed_object.mpr ⟨by simpa [Object.Distinct, Object.keys] using distinct, ?_, behind⟩
    rw [List.forall_mem_append, List.forall_mem_cons]
    exact ⟨inner.1, ih inner.2.1, inner.2.2⟩
  | ancestor _ list ih =>
    obtain ⟨distinct, inner, behind⟩ := formed_object.mp formed
    refine formed_object.mpr ⟨distinct, inner, ?_⟩
    rintro _ ⟨⟩
    exact ih (behind _ rfl)

theorem foundIn_eq_all (entries others : List (String × Value)) :
    foundIn entries others = entries.all fun e => (others.lookup e.1).any (equal e.2) := by
  rw [Bool.eq_iff_iff, foundIn_iff, List.all_eq_true]
  simp [Option.any_eq_true]

theorem equalItems_element {v v' : Value} (alike : ∀ w, equal v w = equal v' w)
    (before after others : List Value) :
    equalItems (before ++ v :: after) others = equalItems (before ++ v' :: after) others := by
  induction before generalizing others with
  | nil =>
    cases others with
    | nil => rfl
    | cons w others => rw [List.nil_append, List.nil_append, equalItems, equalItems, alike w]
  | cons u before ih =>
    cases others with
    | nil => rfl
    | cons w others => rw [List.cons_append, List.cons_append, equalItems, equalItems, ih others]

theorem Reordered.equal_left {v v' : Value} (h : Reordered v v') (w : Value) :
    equal v w = equal v' w := by
  induction h generalizing w with
  | same => rfl
  | trans _ _ first second => exact (first w).trans (second w)
  | entries perm ancestor =>
    cases w with
    | object o =>
      rw [equal, equal, equalObjects, equalObjects, perm.length_eq, foundIn_eq_all, foundIn_eq_all,
        perm.all_eq]
    | _ => rfl
  | element _ before after ih =>
    cases w with
    | array others => exact equalItems_element ih before after others
    | _ => rfl
  | entry _ key before after ancestor ih =>
    cases w with
    | object o =>
      have alike := congrArg Option.any (funext ih)
      rw [equal, equal, equalObjects, equalObjects, foundIn_eq_all, foundIn_eq_all]
      simp only [List.length_append, List.length_cons, List.all_append, List.all_cons, alike]
    | _ => rfl
  | @ancestor p p' _ list ih =>
    cases w with
    | object o =>
      obtain ⟨others, _ | q⟩ := o
      · rfl
      · have behind : equalObjects p q = equalObjects p' q := ih (.object q)
        rw [equal, equal, equalObjects, equalObjects, equalAncestors, equalAncestors, behind]
    | _ => rfl

/-- Values compare alike from both sides, whatever order entries stand in on either side, and a
    value equals itself exactly if every float in it is a number. -/
theorem equality_ignores_sides_and_order {v w : Value} (left : v.Formed) (right : w.Formed) :
    (v == w) = (w == v) ∧ ((v == v) = true ↔ v.Numeric) ∧
    ∀ v' w' : Value, Reordered v v' → Reordered w w' → (v' == w') = (v == w) := by
  refine ⟨equal_comm v w left right, equal_self v left, fun v' w' first second => ?_⟩
  calc equal v' w' = equal v w' := (first.equal_left w').symm
    _ = equal w' v := equal_comm v w' left (second.formed right)
    _ = equal w v := (second.equal_left v).symm
    _ = equal v w := equal_comm w v right left

def sample (n half : Value) : Value :=
  let first := (Object.empty.insert "a" (.str "s")).insert "b" half
  let behind := Object.empty.insert "p" .nil
  .object (((Object.derive behind).insert "n" n).insert "xs" (.array [.object first]))

def turnedSample (n half : Value) : Value :=
  let first := (Object.empty.insert "b" half).insert "a" (.str "s")
  let behind := Object.empty.insert "p" .nil
  .object (((Object.derive behind).insert "xs" (.array [.object first])).insert "n" n)

theorem reordered_sample (n half : Value) : Reordered (sample n half) (turnedSample n half) := by
  have first : Reordered (.object ⟨[("a", .str "s"), ("b", half)], none⟩) _ :=
    .entries (.swap _ _ _) none
  exact .trans (.entries (.swap _ _ _) _) (.entry (.element first [] []) "xs" [] [_] _)

theorem formed_sample {n half : Value} (number : n.Formed) (number' : half.Formed) :
    (sample n half).Formed := by
  have bare : Formed .nil ∧ ∀ s, (Value.str s).Formed := by
    refine ⟨?_, fun s => ?_⟩ <;> rintro _ ⟨⟩ _ ⟨⟩
  have first := formed_insert (formed_insert formed_empty (bare.2 "s") "a") number' "b"
  have behind := formed_derive (formed_insert formed_empty bare.1 "p")
  exact formed_insert (formed_insert behind number "n")
    (formed_array.mpr (List.forall_mem_singleton.mpr first)) "xs"

theorem equality_ignores_sides_and_order_mixed :
    let v := sample (.int 2) (.float 0.5)
    let w := turnedSample (.float 2.0) (.float 0.5)
    (v.Formed ∧ w.Formed) ∧ ((v == w) = true ∧ (w == v) = true) ∧
      (turnedSample (.int 2) (.float 0.5) == w) = true ∧
      v.Numeric ∧ ¬ (sample (.float notANumber) .nil).Numeric := by
  intro v w
  have bare : (Formed (.int 2) ∧ Formed .nil) ∧ ∀ x, Formed (.float x) := by
    refine ⟨⟨?_, ?_⟩, fun x => ?_⟩ <;> rintro _ ⟨⟩ _ ⟨⟩
  obtain ⟨⟨int, nil⟩, float⟩ := bare
  have left : v.Formed := formed_sample int (float 0.5)
  have right : w.Formed :=
    (reordered_sample (.float 2.0) (.float 0.5)).formed (formed_sample (float 2.0) (float 0.5))
  have same : (v == w) = true := by decide +kernel
  have itself : (v == v) = true := by decide +kernel
  have other : ¬ (sample (.float notANumber) .nil == sample (.float notANumber) .nil) = true := by
    decide +kernel
  obtain ⟨turned, numeric, reordered⟩ := equality_ignores_sides_and_order left right
  have formed := formed_sample (float notANumber) nil
  refine ⟨⟨left, right⟩, ⟨same, turned ▸ same⟩, ?_, numeric.mp itself, ?_⟩
  · exact (reordered _ _ (reordered_sample _ _) (.same w)).trans same
  · exact mt (equality_ignores_sides_and_order formed formed).2.1.mpr other

end Value
end Templating
