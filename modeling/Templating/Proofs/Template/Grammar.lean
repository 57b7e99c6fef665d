import Templating.Template.Parsing

/-!
The block grammar of templates, over the tokens of a source. A list of items is made of texts,
outputs, tags that stand alone, loops and choices; between its opening and its closing tag a
loop holds a list and any number of `else` lists, and a choice holds a list, any number of
`elsif` lists and at most one `else` list.
-/
namespace Templating

/-- The tag has this name and no arguments. -/
structure TagToken.Bare (t : TagToken) (name : String) : Prop where
  named : t.name = name
  empty : t.hasArguments = false

inductive Leaf : Token → Node → Prop where
  | text (t : TextToken) : Leaf (.text t) (.text t.text t.span)
  | output {t : OutputToken} {value : Option Argument} (content : t.read = .ok value) :
      Leaf (.output t) (.output value t.span)
  | assign {t : TagToken} {name : String} {value : Argument} (named : t.name = "assign")
      (header : t.read readAssignment = .ok (name, value)) :
      Leaf (.tag t) (.assign name value t.span)
  | increment {t : TagToken} {name : String} (named : t.name = "increment")
      (header : t.read readCounter = .ok name) : Leaf (.tag t) (.increment name t.span)
  | decrement {t : TagToken} {name : String} (named : t.name = "decrement")
      (header : t.read readCounter = .ok name) : Leaf (.tag t) (.decrement name t.span)
  | leave {t : TagToken} (bare : t.Bare "break") : Leaf (.tag t) (.leave t.span)
  | next {t : TagToken} (bare : t.Bare "continue") : Leaf (.tag t) (.next t.span)

def standalone : List String := ["assign", "increment", "decrement", "break", "continue"]

theorem Leaf.named {t : TagToken} {n : Node} (leaf : Leaf (.tag t) n) : t.name ∈ standalone := by
  cases leaf with
  | assign named => simp [named, standalone]
  | increment named => simp [named, standalone]
  | decrement named => simp [named, standalone]
  | leave bare => simp [bare.named, standalone]
  | next bare => simp [bare.named, standalone]

section
variable (separator : Char) (ordered : Bool)

mutual

/-- A list of items. -/
inductive Derives : List Token → List Node → Prop where
  | nil : Derives [] []
  | snoc {ts us : List Token} {nodes : List Node} {n : Node} (before : Derives ts nodes)
      (last : DerivesItem us n) : Derives (ts ++ us) (nodes ++ [n])

/-- A leaf; `for` list (`else` list)* `endfor`; or
    `if` list (`elsif` list)* (`else` list)? `endif`. -/
inductive DerivesItem : List Token → Node → Prop where
  | leaf {token : Token} {n : Node} (leaf : Leaf token n) : DerivesItem [token] n
  | loop {t closer : TagToken} {header : LoopHeader} {ts us : List Token}
      {body otherwise : List Node} (named : t.name = "for")
      (heads : t.read (readLoop separator ordered) = .ok header) (first : Derives ts body)
      (rest : DerivesElses us otherwise) (closes : closer.Bare "endfor") :
      DerivesItem (.tag t :: (ts ++ us ++ [.tag closer])) (.loop header body otherwise t.span)
  | choice {t closer : TagToken} {condition : Condition} {ts us vs : List Token}
      {body otherwise : List Node} {branches : List (Condition × List Node)}
      (named : t.name = "if") (heads : t.read readCondition = .ok condition)
      (first : Derives ts body) (rest : DerivesElsifs us branches)
      (last : DerivesLast vs otherwise) (closes : closer.Bare "endif") :
      DerivesItem (.tag t :: (ts ++ us ++ vs ++ [.tag closer]))
        (.choice ((condition, body) :: branches) otherwise t.span)

inductive DerivesElses : List Token → List Node → Prop where
  | nil : DerivesElses [] []
  | snoc {us ts : List Token} {marker : TagToken} {before nodes : List Node}
      (rest : DerivesElses us before) (marks : marker.Bare "else") (last : Derives ts nodes) :
      DerivesElses (us ++ .tag marker :: ts) (before ++ nodes)

inductive DerivesElsifs : List Token → List (Condition × List Node) → Prop where
  | nil : DerivesElsifs [] []
  | snoc {us ts : List Token} {marker : TagToken} {condition : Condition} {nodes : List Node}
      {branches : List (Condition × List Node)} (rest : DerivesElsifs us branches)
      (named : marker.name = "elsif") (heads : marker.read readCondition = .ok condition)
      (last : Derives ts nodes) :
      DerivesElsifs (us ++ .tag marker :: ts) (branches ++ [(condition, nodes)])

inductive DerivesLast : List Token → List Node → Prop where
  | none : DerivesLast [] []
  | some {ts : List Token} {marker : TagToken} {nodes : List Node} (marks : marker.Bare "else")
      (list : Derives ts nodes) : DerivesLast (.tag marker :: ts) nodes

end

end

/-- The tokens are in the grammar, whatever nodes they make. -/
def Derivable (separator : Char) (tokens : List Token) : Prop :=
  ∃ ordered nodes, Derives separator ordered tokens nodes

theorem TagToken.read_map {α β : Type} (t : TagToken) (r : Cursor.Reader (Option α)) (f : α → β) :
    t.read (Option.map f <$> r) = (t.read r).map f := by
  simp only [TagToken.read, Functor.map, EStateM.map]
  cases r (Cursor.ofText t.arguments t.offset) with
  | error e c => rfl
  | ok a c => cases a <;> rfl

theorem readLoop_eq (separator : Char) (ordered : Bool) :
    readLoop separator ordered
      = Option.map ({ · with ordered }) <$> readLoop separator false := by
  unfold readLoop
  simp only [map_bind]
  refine bind_congr fun variableName => bind_congr fun keyword => bind_congr fun collection => ?_
  split <;> simp

theorem TagToken.read_loop {t : TagToken} {separator : Char} {ordered : Bool} {header : LoopHeader}
    (heads : t.read (readLoop separator ordered) = .ok header) (other : Bool) :
    t.read (readLoop separator other) = .ok { header with ordered := other } := by
  rw [readLoop_eq, TagToken.read_map] at heads ⊢
  cases read : t.read (readLoop separator false) with
  | error e => simp [read, Except.map] at heads
  | ok plain =>
    simp only [read, Except.map, Except.ok.injEq] at heads ⊢
    rw [← heads]

variable {separator : Char} {ordered : Bool}

mutual

theorem Derives.reorder (other : Bool) : ∀ {tokens : List Token} {nodes : List Node},
    Derives separator ordered tokens nodes → ∃ nodes, Derives separator other tokens nodes
  | _, _, .nil => ⟨_, .nil⟩
  | _, _, .snoc before last => by
    obtain ⟨_, before⟩ := before.reorder other
    obtain ⟨_, last⟩ := last.reorder other
    exact ⟨_, .snoc before last⟩
termination_by structural _ _ h => h

theorem DerivesItem.reorder (other : Bool) : ∀ {tokens : List Token} {n : Node},
    DerivesItem separator ordered tokens n → ∃ n, DerivesItem separator other tokens n
  | _, _, .leaf leaf => ⟨_, .leaf leaf⟩
  | _, _, .loop named heads first rest closes => by
    obtain ⟨_, first⟩ := first.reorder other
    obtain ⟨_, rest⟩ := rest.reorder other
    exact ⟨_, .loop named (TagToken.read_loop heads other) first rest closes⟩
  | _, _, .choice named heads first rest last closes => by
    obtain ⟨_, first⟩ := first.reorder other
    obtain ⟨_, rest⟩ := rest.reorder other
    obtain ⟨_, last⟩ := last.reorder other
    exact ⟨_, .choice named heads first rest last closes⟩
termination_by structural _ _ h => h

theorem DerivesElses.reorder (other : Bool) : ∀ {tokens : List Token} {nodes : List Node},
    DerivesElses separator ordered tokens nodes → ∃ nodes, DerivesElses separator other tokens nodes
  | _, _, .nil => ⟨_, .nil⟩
  | _, _, .snoc rest marks last => by
    obtain ⟨_, rest⟩ := rest.reorder other
    obtain ⟨_, last⟩ := last.reorder other
    exact ⟨_, .snoc rest marks last⟩
termination_by structural _ _ h => h

theorem DerivesElsifs.reorder (other : Bool) :
    ∀ {tokens : List Token} {branches : List (Condition × List Node)},
      DerivesElsifs separator ordered tokens branches →
        ∃ branches, DerivesElsifs separator other tokens branches
  | _, _, .nil => ⟨_, .nil⟩
  | _, _, .snoc rest named heads last => by
    obtain ⟨_, rest⟩ := rest.reorder other
    obtain ⟨_, last⟩ := last.reorder other
    exact ⟨_, .snoc rest named heads last⟩
termination_by structural _ _ h => h

theorem DerivesLast.reorder (other : Bool) : ∀ {tokens : List Token} {nodes : List Node},
    DerivesLast separator ordered tokens nodes → ∃ nodes, DerivesLast separator other tokens nodes
  | _, _, .none => ⟨_, .none⟩
  | _, _, .some marks list => by
    obtain ⟨_, list⟩ := list.reorder other
    exact ⟨_, .some marks list⟩
termination_by structural _ _ h => h

end

theorem derivable_iff (ordered : Bool) (tokens : List Token) :
    Derivable separator tokens ↔ ∃ nodes, Derives separator ordered tokens nodes := by
  constructor
  · rintro ⟨_, _, derives⟩
    exact derives.reorder ordered
  · rintro ⟨nodes, derives⟩
    exact ⟨ordered, nodes, derives⟩

end Templating
