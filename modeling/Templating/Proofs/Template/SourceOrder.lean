import Templating.Proofs.Template.Derivations
import Templating.Proofs.Template.Nesting

namespace Templating

def Token.isMarker : Token → Bool
  | .tag t => decide (t.name ∈ markers)
  | _ => false

def itemSpans (tokens : List Token) : List Span := (tokens.filter (!·.isMarker)).map Token.span

theorem itemSpans_append (ts us : List Token) :
    itemSpans (ts ++ us) = itemSpans ts ++ itemSpans us := by
  simp only [itemSpans, List.filter_append, List.map_append]

theorem itemSpans_cons {token : Token} (item : token.isMarker = false) (rest : List Token) :
    itemSpans (token :: rest) = token.span :: itemSpans rest := by
  simp [itemSpans, item]

theorem itemSpans_marker {t : TagToken} (marker : t.name ∈ markers) (rest : List Token) :
    itemSpans (.tag t :: rest) = itemSpans rest := by
  simp [itemSpans, Token.isMarker, marker]

theorem Token.isMarker_tag {t : TagToken} {name : String} (named : t.name = name)
    (free : name ∉ markers) : Token.isMarker (.tag t) = false := by
  simp [Token.isMarker, named, free]

theorem Leaf.item {token : Token} {n : Node} (leaf : Leaf token n) :
    n.preorder = [n] ∧ n.span = token.span ∧ token.isMarker = false := by
  refine ⟨?_, ?_, ?_⟩
  · cases leaf <;> rfl
  · cases leaf <;> rfl
  · cases token with
    | text t => rfl
    | output t => rfl
    | tag t =>
      have free := standalone_free t.name leaf.named
      simp only [List.mem_cons, not_or] at free
      exact Token.isMarker_tag rfl free.2.2

variable {separator : Char} {ordered : Bool}

mutual

theorem Derives.spans : ∀ {ts : List Token} {nodes : List Node},
    Derives separator ordered ts nodes → (preorderAll nodes).map Node.span = itemSpans ts
  | _, _, .nil => rfl
  | _, _, @Derives.snoc _ _ ts us nodes n before last => by
    have single : preorderAll [n] = n.preorder := List.append_nil _
    rw [preorderAll_append, single, List.map_append, before.spans, last.spans, itemSpans_append]
termination_by structural _ _ h => h

theorem DerivesItem.spans : ∀ {ts : List Token} {n : Node},
    DerivesItem separator ordered ts n → n.preorder.map Node.span = itemSpans ts
  | _, _, @DerivesItem.leaf _ _ token n leaf => by
    obtain ⟨alone, span, item⟩ := leaf.item
    rw [alone, itemSpans_cons item, List.map_singleton, span]
    rfl
  | _, _, @DerivesItem.loop _ _ t closer header ts us body otherwise named heads first rest
      closes => by
    have closing : closer.name ∈ markers := by simp [closes.named, markers]
    rw [itemSpans_cons (Token.isMarker_tag named (by decide)), itemSpans_append, itemSpans_append,
      itemSpans_marker closing, ← first.spans, ← rest.spans, Node.preorder, List.map_cons,
      List.map_append]
    exact congrArg (_ :: ·) (List.append_nil _).symm
  | _, _, @DerivesItem.choice _ _ t closer condition ts us vs body otherwise branches named heads
      first rest last closes => by
    have closing : closer.name ∈ markers := by simp [closes.named, markers]
    rw [itemSpans_cons (Token.isMarker_tag named (by decide)), itemSpans_append, itemSpans_append,
      itemSpans_append, itemSpans_marker closing, ← first.spans, ← rest.spans, ← last.spans,
      Node.preorder, preorderBranches, List.map_cons, List.map_append, List.map_append]
    exact congrArg (_ :: ·) (List.append_nil _).symm
termination_by structural _ _ h => h

theorem DerivesElses.spans : ∀ {us : List Token} {nodes : List Node},
    DerivesElses separator ordered us nodes → (preorderAll nodes).map Node.span = itemSpans us
  | _, _, .nil => rfl
  | _, _, @DerivesElses.snoc _ _ us ts marker before nodes rest marks last => by
    have branch : marker.name ∈ markers := by simp [marks.named, markers]
    rw [preorderAll_append, List.map_append, rest.spans, last.spans, itemSpans_append,
      itemSpans_marker branch]
termination_by structural _ _ h => h

theorem DerivesElsifs.spans : ∀ {us : List Token} {branches : List (Condition × List Node)},
    DerivesElsifs separator ordered us branches →
      (preorderBranches branches).map Node.span = itemSpans us
  | _, _, .nil => rfl
  | _, _, @DerivesElsifs.snoc _ _ us ts marker condition nodes branches rest named heads last => by
    have branch : marker.name ∈ markers := by simp [named, markers]
    rw [preorderBranches_append, preorderBranches, preorderBranches, List.append_nil,
      List.map_append, rest.spans, last.spans, itemSpans_append, itemSpans_marker branch]
termination_by structural _ _ h => h

theorem DerivesLast.spans : ∀ {vs : List Token} {others : List Node},
    DerivesLast separator ordered vs others → (preorderAll others).map Node.span = itemSpans vs
  | _, _, .none => rfl
  | _, _, @DerivesLast.some _ _ ts marker nodes marks list => by
    have branch : marker.name ∈ markers := by simp [marks.named, markers]
    rw [list.spans, itemSpans_marker branch]
termination_by structural _ _ h => h

end

/-- A source that is a template has its tokens in the listing of its nodes, in order and each of
    them once. -/
theorem parse_keeps_tokens (o : Options) (source : String) (nodes : List Node)
    (parsed : parse .builtins o source = .ok nodes) :
    ∃ ts, tokens o.trimming source = .ok ts ∧
      (∀ listed, Listing nodes listed ↔ listed = preorderAll nodes) ∧
      (preorderAll nodes).map Node.span = (ts.filter (!·.isMarker)).map Token.span := by
  unfold parse at parsed
  split at parsed
  · rename_i ts split
    exact ⟨ts, split, fun _ => listing_iff, (derives_iff_parseTokens.mp parsed).spans⟩
  · cases parsed

/-- `{% for i in xs %}{{ i }}{% else %}{% if x %}a{% endif %}{% endfor %}`. -/
def nestedSource : String :=
  "\x7b% for i in xs %\x7d\x7b\x7b i \x7d\x7d\x7b% else %\x7d" ++
    "\x7b% if x %\x7da\x7b% endif %\x7d\x7b% endfor %\x7d"

theorem parse_keeps_tokens_nested :
    ∃ nodes listed, parse .builtins default nestedSource = .ok nodes ∧ Listing nodes listed ∧
      listed.map Node.span = [⟨0, 17⟩, ⟨17, 24⟩, ⟨34, 44⟩, ⟨44, 45⟩] := by
  have accepted : (parse .builtins default nestedSource).isOk = true := by decide +kernel
  have items : (tokens (default : Options).trimming nestedSource).toOption.map itemSpans
      = some [⟨0, 17⟩, ⟨17, 24⟩, ⟨34, 44⟩, ⟨44, 45⟩] := by decide +kernel
  obtain ⟨nodes, parsed⟩ := exists_eq_ok accepted
  obtain ⟨ts, split, listing, order⟩ := parse_keeps_tokens default nestedSource nodes parsed
  rw [split] at items
  exact ⟨nodes, preorderAll nodes, parsed, (listing _).mpr rfl,
    order.trans (Option.some.inj items)⟩

end Templating
