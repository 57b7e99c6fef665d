import Templating.Proofs.Template.Positions

namespace Templating

open Cursor

inductive Token.Refused : Token → ParseError → Prop where
  | header (t : TagToken) : Refused (.tag t) (.illegalTag t.text t.span)
  | arguments (t : TagToken) : Refused (.tag t) (.unexpectedArguments t.name t.span)
  | place (t : TagToken) : Refused (.tag t) (.unexpectedTag t.name t.span)
  | name (t : TagToken) : Refused (.tag t) (.unknownTag t.name t.span)
  | content (t : OutputToken) (text : String) : Refused (.output t) (.illegalOutput text t.span)
  | within {tok : Token} {inner : String × Nat} {e : LexError} (holds : inner ∈ tok.interior?)
      (marks : (Cursor.ofText inner.1 inner.2).Marks e.span) : Refused tok (.lex e)

def FailsWith {α : Type} (P : ParseError → Prop) (x : Except ParseError α) : Prop :=
  ∀ e, x = .error e → P e

section
variable {α β : Type} {P Q : ParseError → Prop}

theorem FailsWith.ok (a : α) : FailsWith P (.ok a) := nofun

theorem FailsWith.error {e : ParseError} (holds : P e) :
    FailsWith P (.error e : Except ParseError α) := by
  rintro _ ⟨⟩
  exact holds

theorem FailsWith.bind {x : Except ParseError α} {f : α → Except ParseError β}
    (first : FailsWith P x) (later : ∀ a, FailsWith P (f a)) : FailsWith P (x >>= f) := by
  cases x with
  | error e =>
    rintro _ ⟨⟩
    exact first e rfl
  | ok a => exact later a

end

theorem readCounter_onward (o : Cursor) : Onward o readCounter Anything := by
  refine (onward_lift .identifier).bind fun name _ => (readEnd_onward o).bind fun done _ => ?_
  split <;> exact onward_pure trivial

section
variable (t : TagToken)

theorem TagToken.expectNoArguments_fails :
    FailsWith (Token.Refused (.tag t)) t.expectNoArguments := by
  unfold TagToken.expectNoArguments
  split
  · exact .error (.arguments t)
  · exact .ok ()

theorem TagToken.read_fails {α : Type} {r : Reader (Option α)} {P : Option α → Prop}
    (onward : Onward (Cursor.ofText t.arguments t.offset) r P) :
    FailsWith (Token.Refused (.tag t)) (t.read r) := by
  have lands := onward _ (.refl _)
  unfold TagToken.read
  split
  · exact .ok _
  · exact .error (.header t)
  · rename_i result
    rw [result] at lands
    exact .error (.within rfl lands.2)

theorem OutputToken.read_fails (t : OutputToken) :
    FailsWith (Token.Refused (.output t)) t.read := by
  have lands := value_onward (Cursor.ofText t.content t.offset) _ (.refl _)
  unfold OutputToken.read
  split
  · split
    · exact .ok _
    · exact .error (.content t _)
  · rename_i result
    rw [result] at lands
    exact .error (.within rfl lands.2)

theorem Block.mark_fails (b : Block) : FailsWith (Token.Refused (.tag t)) (b.mark t) := by
  cases b with
  | loop tag header body otherwise =>
    refine (t.expectNoArguments_fails).bind fun _ => ?_
    split <;> exact .ok _
  | choice tag closed condition nodes otherwise =>
    simp only [Block.mark]
    split
    · exact (t.expectNoArguments_fails).bind fun _ => .ok _
    · split
      · exact .error (.place t)
      · split
        · exact (t.read_fails (readCondition_onward _)).bind fun _ => .ok _
        · exact (t.expectNoArguments_fails).bind fun _ => .ok _
  | custom =>
    simp only [Block.mark]
    split <;> exact .ok _

end

namespace Parse
variable {o : Options} (p : Parse)

theorem freeTag_fails (t : TagToken) :
    FailsWith (Token.Refused (.tag t)) (p.freeTag .builtins o t) := by
  cases found : TagSet.builtins.find? t.name with
  | none =>
    simp only [freeTag, found]
    split
    · exact .error (.place t)
    · exact .error (.name t)
  | some kind =>
    rw [freeTag_of_find? found]
    have known := mem_of_find? found
    cases kind with
    | loop => exact (t.read_fails (readLoop_onward _ _ _)).bind fun _ => .ok _
    | choice => exact (t.read_fails (readCondition_onward _)).bind fun _ => .ok _
    | assign => exact (t.read_fails (readAssignment_onward _)).bind fun _ => .ok _
    | increment | decrement => exact (t.read_fails (readCounter_onward _)).bind fun _ => .ok _
    | leave | next => exact (t.expectNoArguments_fails).bind fun _ => .ok _
    | custom opening => simp [TagSet.builtins] at known

theorem token_fails (token : Token) : FailsWith token.Refused (p.token .builtins o token) := by
  cases token with
  | text t => exact .ok _
  | output t => exact (t.read_fails).bind fun _ => .ok _
  | tag t =>
    simp only [Parse.token, Parse.tag]
    split
    · exact p.freeTag_fails t
    · split
      · refine (Block.mark_fails t _).bind fun marked => ?_
        cases marked <;> exact .ok _
      · exact p.freeTag_fails t

theorem read_fails (tokens : List Token) :
    FailsWith (fun e => ∃ token ∈ tokens, token.Refused e) (p.read .builtins o tokens) := by
  induction tokens generalizing p with
  | nil => exact .ok _
  | cons token rest ih =>
    simp only [read, List.foldlM_cons]
    refine FailsWith.bind ?_ fun q => ?_
    · exact fun e failed => ⟨token, List.mem_cons_self, p.token_fails token e failed⟩
    · intro e failed
      obtain ⟨other, member, refused⟩ := ih q e failed
      exact ⟨other, List.mem_cons_of_mem _ member, refused⟩

end Parse

end Templating
