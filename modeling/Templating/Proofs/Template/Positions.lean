import Templating.Proofs.Source.Interiors
import Templating.Proofs.Template.SourceOrder

namespace Templating

open Cursor

section
variable (o : Cursor)

theorem readEnd_onward : Onward o readEnd Anything := onward_lift fun c => .refl c

theorem readLoop_onward (separator : Char) (ordered : Bool) :
    Onward o (readLoop separator ordered) fun found =>
      ∀ header ∈ found, o.CitesAll header.arguments := by
  refine (onward_lift .identifier).bind fun variableName _ => ?_
  refine (onward_lift .identifier).bind fun keyword _ => (value_onward o).bind fun found cited => ?_
  split
  · refine (namedArguments_onward o separator).bind fun modifiers others => onward_pure ?_
    rintro header ⟨⟩
    exact cited.append others
  · exact onward_pure (by simp)

theorem readTest_onward : Onward o readTest fun found =>
    ∀ condition ∈ found, o.CitesAll condition.arguments := by
  refine (value_onward o).bind fun first left => ?_
  cases first with
  | none => exact onward_pure (by simp)
  | some a =>
    refine (onward_lift .operator).bind fun operator _ => ?_
    cases operator with
    | none => exact onward_pure fun condition same => by cases same; exact left
    | some operator =>
      refine (value_onward o).bind fun second right => ?_
      cases second with
      | none => exact onward_pure (by simp)
      | some b => exact onward_pure fun condition same => by cases same; exact left.append right

theorem readChain_onward (fuel : Nat) : Onward o (readChain fuel) fun found =>
    ∀ condition ∈ found, o.CitesAll condition.arguments := by
  induction fuel with
  | zero => exact onward_pure (by simp)
  | succ fuel rest =>
    rw [readChain]
    refine (readTest_onward o).bind fun found first => ?_
    cases found with
    | none => exact onward_pure (by simp)
    | some test =>
      have left := first test rfl
      refine (onward_lift (.takeWord "and")).bind fun both _ => ?_
      split
      · refine rest.bind fun later right => onward_pure ?_
        intro condition member
        obtain ⟨d, found, rfl⟩ := Option.map_eq_some_iff.mp member
        exact left.append (right d found)
      · refine (onward_lift (.takeWord "or")).bind fun either _ => ?_
        split
        · refine rest.bind fun later right => onward_pure ?_
          intro condition member
          obtain ⟨d, found, rfl⟩ := Option.map_eq_some_iff.mp member
          exact left.append (right d found)
        · exact onward_pure fun condition same => by cases same; exact left

theorem readCondition_onward : Onward o readCondition fun found =>
    ∀ condition ∈ found, o.CitesAll condition.arguments := by
  refine onward_get.bind fun c _ => (readChain_onward o _).bind fun found cited => ?_
  refine (readEnd_onward o).bind fun done _ => ?_
  split
  · exact onward_pure cited
  · exact onward_pure (by simp)

theorem readAssignment_onward : Onward o readAssignment fun found =>
    ∀ assignment ∈ found, o.CitesAll [assignment.2] := by
  refine (onward_lift .identifier).bind fun name _ => ?_
  refine (onward_lift (.take _)).bind fun equals _ => ?_
  refine (value_onward o).bind fun found cited => (readEnd_onward o).bind fun done _ => ?_
  split
  · split
    · exact onward_pure fun assignment same => by cases same; exact cited
    · exact onward_pure (by simp)
  · exact onward_pure (by simp)

end

theorem TagToken.read_cites {α : Type} {t : TagToken} {r : Reader (Option α)} {x : α}
    (arguments : α → List Argument)
    (onward : Onward (Cursor.ofText t.arguments t.offset) r fun found =>
      ∀ x ∈ found, (Cursor.ofText t.arguments t.offset).CitesAll (arguments x))
    (read : t.read r = .ok x) : ∀ a ∈ arguments x, Token.Cites (.tag t) a := by
  obtain ⟨later, result⟩ := TagToken.read_eq_ok.mp read
  have lands := onward _ (.refl _)
  rw [result] at lands
  exact fun a member => ⟨_, rfl, lands.2 _ rfl a member⟩

theorem OutputToken.read_cites {t : OutputToken} {found : Option Argument}
    (read : t.read = .ok found) : ∀ a ∈ found.toList, Token.Cites (.output t) a := by
  have lands := value_onward (Cursor.ofText t.content t.offset) _ (.refl _)
  unfold OutputToken.read at read
  split at read
  · rename_i result
    rw [result] at lands
    split at read
    · obtain rfl := Except.ok.inj read
      exact fun a member => ⟨_, rfl, lands.2 a member⟩
    · cases read
  · cases read

def CitedIn (ts : List Token) (arguments : List Argument) : Prop :=
  ∀ a ∈ arguments, ∃ tok ∈ ts, tok.Cites a

namespace CitedIn
variable {ts us : List Token} {first second : List Argument} {tok : Token}

theorem nil : CitedIn ts [] := List.forall_mem_nil _

theorem append (left : CitedIn ts first) (right : CitedIn ts second) :
    CitedIn ts (first ++ second) := List.forall_mem_append.mpr ⟨left, right⟩

theorem mono (cited : CitedIn ts first) (within : ts ⊆ us) : CitedIn us first := by
  intro a member
  obtain ⟨tok, mine, cites⟩ := cited a member
  exact ⟨tok, within mine, cites⟩

theorem of_token (mine : tok ∈ ts) (cites : ∀ a ∈ first, tok.Cites a) : CitedIn ts first :=
  fun a member => ⟨tok, mine, cites a member⟩

end CitedIn

def nestedArguments (nodes : List Node) : List Argument := nodes.flatMap Node.arguments

theorem Leaf.cited {token : Token} {n : Node} (leaf : Leaf token n) :
    ∀ a ∈ n.arguments, token.Cites a := by
  cases leaf with
  | text => exact List.forall_mem_nil _
  | output content => exact OutputToken.read_cites content
  | assign named header =>
    exact TagToken.read_cites (fun assignment => [assignment.2]) (readAssignment_onward _) header
  | increment => exact List.forall_mem_nil _
  | decrement => exact List.forall_mem_nil _
  | leave => exact List.forall_mem_nil _
  | next => exact List.forall_mem_nil _

variable {separator : Char} {ordered : Bool}

mutual

theorem Derives.cited : ∀ {ts : List Token} {nodes : List Node},
    Derives separator ordered ts nodes → CitedIn ts (nestedArguments (preorderAll nodes))
  | _, _, .nil => .nil
  | _, _, @Derives.snoc _ _ ts us nodes n before last => by
    have single : preorderAll [n] = n.preorder := List.append_nil _
    rw [preorderAll_append, single, nestedArguments, List.flatMap_append]
    exact (before.cited.mono (List.subset_append_left ts us)).append
      (last.cited.mono (List.subset_append_right ts us))
termination_by structural _ _ h => h

theorem DerivesItem.cited : ∀ {ts : List Token} {n : Node},
    DerivesItem separator ordered ts n → CitedIn ts (nestedArguments n.preorder)
  | _, _, @DerivesItem.leaf _ _ token n leaf => by
    rw [leaf.item.1, nestedArguments, List.flatMap_singleton]
    exact .of_token List.mem_cons_self leaf.cited
  | _, _, @DerivesItem.loop _ _ t closer header ts us body otherwise named heads first rest
      closes => by
    have own : CitedIn (.tag t :: (ts ++ us ++ [.tag closer])) header.arguments :=
      .of_token List.mem_cons_self (TagToken.read_cites _ (readLoop_onward _ _ _) heads)
    rw [Node.preorder, nestedArguments, List.flatMap_cons, List.flatMap_append]
    refine own.append (.append (first.cited.mono ?_) (rest.cited.mono ?_))
    · exact fun tok mine => by simp [mine]
    · exact fun tok mine => by simp [mine]
  | _, _, @DerivesItem.choice _ _ t closer condition ts us vs body otherwise branches named heads
      first rest last closes => by
    have own : CitedIn (.tag t :: (ts ++ us ++ vs ++ [.tag closer])) condition.arguments :=
      .of_token List.mem_cons_self (TagToken.read_cites _ (readCondition_onward _) heads)
    obtain ⟨conditions, bodies⟩ := rest.cited
    have inside : us ⊆ .tag t :: (ts ++ us ++ vs ++ [.tag closer]) :=
      fun tok mine => by simp [mine]
    rw [Node.preorder, preorderBranches, nestedArguments, List.flatMap_cons, List.flatMap_append,
      List.flatMap_append, Node.arguments, List.flatMap_cons]
    refine (own.append (conditions.mono inside)).append
      (.append (.append (first.cited.mono ?_) (bodies.mono inside)) (last.cited.mono ?_))
    · exact fun tok mine => by simp [mine]
    · exact fun tok mine => by simp [mine]
termination_by structural _ _ h => h

theorem DerivesElses.cited : ∀ {us : List Token} {nodes : List Node},
    DerivesElses separator ordered us nodes → CitedIn us (nestedArguments (preorderAll nodes))
  | _, _, .nil => .nil
  | _, _, @DerivesElses.snoc _ _ us ts marker before nodes rest marks last => by
    rw [preorderAll_append, nestedArguments, List.flatMap_append]
    refine (rest.cited.mono ?_).append (last.cited.mono ?_)
    · exact fun tok mine => by simp [mine]
    · exact fun tok mine => by simp [mine]
termination_by structural _ _ h => h

theorem DerivesElsifs.cited : ∀ {us : List Token} {branches : List (Condition × List Node)},
    DerivesElsifs separator ordered us branches →
      CitedIn us (branches.flatMap (·.1.arguments)) ∧
        CitedIn us (nestedArguments (preorderBranches branches))
  | _, _, .nil => ⟨.nil, .nil⟩
  | _, _, @DerivesElsifs.snoc _ _ us ts marker condition nodes branches rest named heads last => by
    have own : CitedIn (us ++ .tag marker :: ts) condition.arguments :=
      .of_token (List.mem_append_right us List.mem_cons_self)
        (TagToken.read_cites _ (readCondition_onward _) heads)
    have nested : CitedIn (us ++ .tag marker :: ts) (nestedArguments (preorderAll nodes)) :=
      last.cited.mono fun tok mine => by simp [mine]
    obtain ⟨conditions, bodies⟩ := rest.cited
    have before : us ⊆ us ++ .tag marker :: ts := List.subset_append_left _ _
    rw [List.flatMap_append, List.flatMap_singleton, preorderBranches_append, preorderBranches,
      preorderBranches, List.append_nil, nestedArguments, List.flatMap_append]
    exact ⟨(conditions.mono before).append own, (bodies.mono before).append nested⟩
termination_by structural _ _ h => h

theorem DerivesLast.cited : ∀ {vs : List Token} {others : List Node},
    DerivesLast separator ordered vs others → CitedIn vs (nestedArguments (preorderAll others))
  | _, _, .none => .nil
  | _, _, @DerivesLast.some _ _ ts marker nodes _ list =>
    list.cited.mono (List.subset_cons_self _ _)
termination_by structural _ _ h => h

end

/-- The text of the argument is what stands at its span, strictly inside of a markup. -/
structure Argument.Placed (source : List Char) (ts : List Token) (a : Argument) : Prop where
  stands : Stands source a.span.start a.span.stop a.text.toList
  inside : ∃ tok ∈ ts, tok.markup? ≠ none ∧
    tok.span.start < a.span.start ∧ a.span.stop < tok.span.stop

/-- Every argument of a template, at any depth, has its place in the source. -/
theorem arguments_stand_inside_markup (o : Options) (source : String)
    (short : source.utf8ByteSize ≤ furthestOffset) (nodes : List Node)
    (parsed : parse .builtins o source = .ok nodes) :
    ∃ ts, tokens o.trimming source = .ok ts ∧
      ∀ n ∈ preorderAll nodes, ∀ a ∈ n.arguments, a.Placed source.toList ts := by
  unfold parse at parsed
  split at parsed
  · rename_i ts split
    refine ⟨ts, split, ?_⟩
    intro n within a member
    obtain ⟨tok, mine, cites⟩ :=
      (derives_iff_parseTokens.mp parsed).cited a (List.mem_flatMap.mpr ⟨n, within, member⟩)
    obtain ⟨stands, inside⟩ := (tokens_enclose short split tok mine).argument
      (by rwa [byteLength_toList]) cites
    exact ⟨stands, tok, mine, cites.markup, inside⟩
  · cases parsed

/-- `ä{% for i in xs limit: n[1] %}{{- i }}{% else %}{% if a == 'ö' or b %}{% elsif (1..c.d) %}` and
    the two closing tags. -/
def placedSource : String :=
  "ä\x7b% for i in xs limit: n[1] %\x7d\x7b\x7b- i \x7d\x7d\x7b% else %\x7d" ++
    "\x7b% if a == 'ö' or b %\x7d\x7b% elsif (1..c.d) %\x7d\x7b% endif %\x7d\x7b% endfor %\x7d"

theorem arguments_stand_inside_markup_nested :
    placedSource.utf8ByteSize ≤ furthestOffset ∧
      ∃ nodes, parse .builtins default placedSource = .ok nodes ∧
        (nestedArguments (preorderAll nodes)).map (·.span)
          = [⟨14, 16⟩, ⟨24, 28⟩, ⟨35, 36⟩, ⟨55, 56⟩, ⟨60, 64⟩, ⟨68, 69⟩, ⟨81, 89⟩] ∧
        ∃ ts, tokens (default : Options).trimming placedSource = .ok ts ∧
          ∀ n ∈ preorderAll nodes, ∀ a ∈ n.arguments, a.Placed placedSource.toList ts := by
  have short : placedSource.utf8ByteSize ≤ furthestOffset := by decide
  have spans : (parse .builtins default placedSource).toOption.map (fun nodes =>
      (nestedArguments (preorderAll nodes)).map (·.span))
        = some [⟨14, 16⟩, ⟨24, 28⟩, ⟨35, 36⟩, ⟨55, 56⟩, ⟨60, 64⟩, ⟨68, 69⟩, ⟨81, 89⟩] := by
    decide +kernel
  cases parsed : parse .builtins default placedSource with
  | error e =>
    rw [parsed] at spans
    cases spans
  | ok nodes =>
    rw [parsed] at spans
    exact ⟨short, nodes, rfl, Option.some.inj spans,
      arguments_stand_inside_markup default placedSource short nodes parsed⟩

end Templating
