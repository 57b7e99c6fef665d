import Templating.Proofs.State.Registers
import Templating.Proofs.Template.Bookkeeping

namespace Templating

open Booked (lift)

namespace Registers

def recorded? (r : Registers) (key : String) : Option Int64 :=
  (r.find? .offsets offsetsRegister).bind fun cell => (r.offsetsAt cell).lookup key

theorem find?_get (r : Registers) (kind : CellKind) (key : String) :
    (r.get kind key).2.find? kind key = some (r.get kind key).1 := by
  unfold get
  cases found : r.find? kind key with
  | some cell => exact found
  | none =>
    have made : ((r.set key kind.blank).2.content? (r.set key kind.blank).1).map Cell.kind
        = some kind := by
      cases kind <;> simp [set, content?, CellKind.blank, Cell.kind]
    simp [find?, slot?_set, made]

theorem recorded?_eq {r : Registers} {cell : Nat}
    (found : r.find? .offsets offsetsRegister = some cell) (key : String) :
    r.recorded? key = (r.offsetsAt cell).lookup key := by
  rw [recorded?, found, Option.bind_some]

theorem recorded?_get (r : Registers) (key : String) :
    (r.get .offsets offsetsRegister).2.recorded? key = r.recorded? key := by
  unfold recorded?
  rw [find?_get]
  unfold get
  cases found : r.find? .offsets offsetsRegister with
  | some cell => rfl
  | none => simp [offsetsAt, set, content?, CellKind.blank]

theorem recorded?_write {r : Registers} {cell : Nat}
    (found : r.find? .offsets offsetsRegister = some cell) (entries : List (String × Int64))
    (key : String) : (r.write cell (.offsets entries)).recorded? key = entries.lookup key := by
  obtain ⟨slot, kind⟩ := Option.filter_eq_some_iff.mp found
  obtain ⟨content, held, -⟩ : ∃ content, r.content? cell = some content ∧
      content.kind = .offsets := by simpa using kind
  have inside : cell < r.cells.length := TouchedOnly.length_of_content held
  have written : (r.write cell (.offsets entries)).content? cell = some (.offsets entries) := by
    simp [write, content?, inside]
  have still : (r.write cell (.offsets entries)).slot? offsetsRegister = some cell := slot
  have again : (r.write cell (.offsets entries)).find? .offsets offsetsRegister = some cell := by
    rw [find?, still, Option.filter_some, written]
    rfl
  rw [recorded?_eq again, offsetsAt, written]

end Registers

theorem lookup_storeOffset (key : String) (n : Int64) (entries : List (String × Int64))
    (k : String) :
    (storeOffset key n entries).lookup k = if k = key then some n else entries.lookup k := by
  induction entries with
  | nil =>
    by_cases same : k = key
    · simp [storeOffset, same]
    · simp [storeOffset, List.lookup_cons, beq_false_of_ne same, same]
  | cons entry rest ih =>
    obtain ⟨k', m⟩ := entry
    by_cases here : k' = key
    · subst here
      by_cases same : k = k'
      · simp [storeOffset, same]
      · simp [storeOffset, List.lookup_cons, beq_false_of_ne same, same]
    · by_cases same : k = k'
      · subst same
        simp [storeOffset, here]
      · simp [storeOffset, here, List.lookup_cons, beq_false_of_ne same, ih]

theorem bookOpening_apply (header : LoopHeader) (items : List Value) {s : State} {cell : Nat}
    {registers : Registers} (got : s.registers.get .offsets offsetsRegister = (cell, registers)) :
    bookOpening header items s =
      let previous := ((registers.offsetsAt cell).lookup header.continueKey).getD 0
      (bookModifiers header (.int previous) { s with registers }).bind fun modifiers x =>
        let selected := select header.ordered modifiers items
        let entries := storeOffset header.continueKey (resumeAt modifiers selected)
          (x.registers.offsetsAt cell)
        let opened : State :=
          { x with
            registers := x.registers.write cell (.offsets entries)
            store := x.store.begin.2 }
        .entry (.loop header items selected opened)
          (.done (.make x.store.begin.1 selected.length header.variableName
            header.collection.text, selected) opened) := by
  have first : offsetsCell s = .done cell { s with registers } := by simp only [offsetsCell, got]
  rw [bookOpening, Booked.bind_apply, lift, first]
  rfl

/-- A header that goes on: every `offset` is `continue`, and nothing turns the order around. -/
structure LoopHeader.Continues (h : LoopHeader) : Prop where
  unordered : h.ordered = false
  offset : ∃ a ∈ h.modifiers, a.key = "offset"
  resumes : ∀ a ∈ h.modifiers, a.key = "offset" →
    ∃ v, a.value = some v ∧ v.expr = .path "continue" []
  forwards : ∀ a ∈ h.modifiers, a.key ≠ "reversed"

structure Resumes (n : Int64) (modifiers : Object) : Prop where
  offset : modifiers.own? "offset" = some (.int n)
  forwards : modifiers.own? "reversed" = none

def SeesContinue (n : Int64) (s : State) : Prop :=
  s.bindings.owner "continue" = .single "continue" (.int n)

theorem lookup_continue {n : Int64} {s : State} (sees : SeesContinue n s) :
    lookup [.str "continue"] s = .done (.int n) s := by
  have bound : (s.bindings.owner "continue").own? "continue" = some (.int n) := by
    rw [sees]
    rfl
  have named := readName_of_own bound rfl rfl
  exact lookup_of_defined named rfl rfl []

theorem evaluateNamed_resumes {n : Int64} (named : List NamedArgument)
    (resumes : ∀ a ∈ named, a.key = "offset" → ∃ v, a.value = some v ∧ v.expr = .path "continue" [])
    (forwards : ∀ a ∈ named, a.key ≠ "reversed") (before : Object) {s : State}
    (sees : SeesContinue n s) :
    (evaluateNamed before named s).Gives fun m _ =>
      m.own? "reversed" = before.own? "reversed" ∧
      (m.own? "offset" = some (.int n) ∨
        m.own? "offset" = before.own? "offset" ∧ ∀ a ∈ named, a.key ≠ "offset") := by
  induction named generalizing before s with
  | nil => exact .done ⟨rfl, .inr ⟨rfl, by simp⟩⟩
  | cons a rest ih =>
    simp only [List.forall_mem_cons] at resumes forwards
    have turned : ∀ v, (before.insert a.key v).own? "reversed" = before.own? "reversed" := by
      intro v
      rw [Object.own?_insert, if_neg (Ne.symm forwards.1)]
    by_cases offset : a.key = "offset"
    · obtain ⟨v, given, continues⟩ := resumes.1 offset
      have value : a.evaluate s = .done (.int n) s := by
        rw [NamedArgument.evaluate, given]
        change v.expr.evaluate s = _
        rw [continues]
        exact lookup_continue sees
      have dropped : (before.insert a.key (.int n)).own? "offset" = some (.int n) := by
        rw [Object.own?_insert, if_pos offset.symm]
      rw [evaluateNamed, Task.bind_apply, value]
      refine (ih resumes.2 forwards.2 (before.insert a.key (.int n)) sees).mono ?_
      rintro m _ ⟨reversed, later | ⟨kept, -⟩⟩
      · exact ⟨reversed.trans (turned _), .inl later⟩
      · exact ⟨reversed.trans (turned _), .inl (kept.trans dropped)⟩
    · have evaluated : (a.evaluate s).Gives fun _ t => After s t :=
        .of_keeps (a.evaluate_local.keeps (fun _ _ h => h) s) After.trans fun _ _ h => h
      refine evaluated.bind fun v t after => ?_
      obtain ⟨memory, store, rfl⟩ := after
      have kept : (before.insert a.key v).own? "offset" = before.own? "offset" := by
        rw [Object.own?_insert, if_neg (Ne.symm offset)]
      have seen : SeesContinue n (s.after memory store) := sees
      refine (ih resumes.2 forwards.2 (before.insert a.key v) seen).mono ?_
      rintro m _ ⟨reversed, later | ⟨same, none⟩⟩
      · exact ⟨reversed.trans (turned v), .inl later⟩
      · exact ⟨reversed.trans (turned v), .inr ⟨same.trans kept, by simpa [offset] using none⟩⟩

theorem evaluateModifiers_resume {header : LoopHeader} (continues : header.Continues) (n : Int64)
    (s : State) : (evaluateModifiers header (.int n) s).Gives fun m _ => Resumes n m := by
  have sees : SeesContinue n (s.mapBindings (·.push (.single "continue" (.int n)))) := by
    simp [SeesContinue, State.mapBindings, Bindings.owner_push, Object.single, Object.hasOwn,
      Object.own?]
  refine (evaluateNamed_resumes header.modifiers continues.resumes continues.forwards .empty
    sees).ensuring ?_
  rintro m _ ⟨reversed, found | ⟨-, none⟩⟩
  · exact ⟨found, reversed⟩
  · obtain ⟨a, member, offset⟩ := continues.offset
    exact absurd offset (none a member)

theorem bookModifiers_resume (header : LoopHeader) (n : Int64) (s : State) :
    (bookModifiers header (.int n) s).erase.Gives fun m _ => header.Continues → Resumes n m := by
  have erased : (bookModifiers header (.int n) s).erase = evaluateModifiers header (.int n) s :=
    congrFun (erase_keeps_books.modifiers header (.int n)) s
  rw [erased]
  by_cases continues : header.Continues
  · exact (evaluateModifiers_resume continues n s).mono fun _ _ resumes _ => resumes
  · exact .of_forall (fun _ _ given => absurd given continues) _

namespace Resumes
variable {n : Int64} {m : Object}

theorem applies_offset (resumes : Resumes n m) (forwards : 0 ≤ n.toInt) (items : List Value) :
    Modifier.apply m items .offset = items.drop n.toInt.toNat := by
  have given : Modifier.given? .offset m = some (.int n) := by
    simp [Modifier.given?, Modifier.text, resumes.offset, Value.isUndefined]
  have start : clampIndex n items.length = min n.toInt.toNat items.length := by
    rw [clampIndex, if_neg (by omega)]
  simp only [Modifier.apply, given]
  change items.drop (clampIndex n items.length) = _
  rw [start]
  by_cases short : n.toInt.toNat ≤ items.length
  · rw [Nat.min_eq_left short]
  · rw [Nat.min_eq_right (by omega), List.drop_length, List.drop_eq_nil_of_le (by omega)]

theorem selects (resumes : Resumes n m) (forwards : 0 ≤ n.toInt) (items : List Value) :
    ∃ count, select false m items = (items.drop n.toInt.toNat).take count := by
  have offset : (Modifier.given? .offset m).isSome = true := by
    simp [Modifier.given?, Modifier.text, resumes.offset, Value.isUndefined]
  have reversed : (Modifier.given? .reversed m).isSome = false := by
    simp [Modifier.given?, Modifier.text, resumes.forwards]
  unfold select modifiers
  cases limit : Modifier.given? .limit m with
  | none =>
    refine ⟨items.length, ?_⟩
    simp only [Bool.false_eq_true, if_false, List.filter_cons, offset, limit, Option.isSome_none,
      reversed, if_true, List.filter_nil, List.foldl_cons, List.foldl_nil,
      resumes.applies_offset forwards]
    exact (List.take_of_length_le (by rw [List.length_drop]; omega)).symm
  | some v =>
    refine ⟨clampIndex (countOr0 v) (items.drop n.toInt.toNat).length, ?_⟩
    simp only [Bool.false_eq_true, if_false, List.filter_cons, offset, limit, Option.isSome_some,
      reversed, if_true, List.filter_nil, List.foldl_cons, List.foldl_nil,
      resumes.applies_offset forwards]
    simp only [Modifier.apply, limit]
    rfl

theorem resumeAt_eq (resumes : Resumes n m) (forwards : 0 ≤ n.toInt) (selected : List Value)
    (bounded : n.toInt + selected.length < 2 ^ 63) :
    resumeAt m selected = Int64.ofInt (n.toInt + selected.length) := by
  have start : ((m.own? "offset").bind Value.asInteger?).getD 0 = n := by
    rw [resumes.offset]
    rfl
  rw [resumeAt, start]
  refine Int64.toInt.inj ?_
  have most : (mostCharged : Int) = 2 ^ 63 - 1 := rfl
  rw [toInt_ofIntClamp, Int64.toInt_ofInt_of_le (by omega) bounded]
  omega

end Resumes
end Templating
