import Templating.Proofs.Template.Blocks

namespace Templating

def Block.extend (newer : List Node) : Block → Block
  | .loop tag header body none => .loop tag header (newer ++ body) none
  | .loop tag header body (some nodes) => .loop tag header body (some (newer ++ nodes))
  | .choice tag closed condition nodes none => .choice tag closed condition (newer ++ nodes) none
  | .choice tag closed condition nodes (some others) =>
    .choice tag closed condition nodes (some (newer ++ others))
  | .custom tag c closed nodes moves later => .custom tag c closed (newer ++ nodes) moves later

theorem Block.extend_nil (b : Block) : b.extend [] = b := by
  cases b with
  | loop tag header body otherwise => cases otherwise <;> rfl
  | choice tag closed condition nodes otherwise => cases otherwise <;> rfl
  | custom => rfl

theorem Block.add_extend (b : Block) (newer : List Node) (n : Node) :
    (b.extend newer).add n = b.extend (n :: newer) := by
  cases b with
  | loop tag header body otherwise => cases otherwise <;> rfl
  | choice tag closed condition nodes otherwise => cases otherwise <;> rfl
  | custom => rfl

namespace Parse

def extend (p : Parse) (newer : List Node) : Parse :=
  match p.blocks with
  | [] => { p with nodes := newer ++ p.nodes }
  | b :: rest => { p with blocks := b.extend newer :: rest }

theorem extend_nil (p : Parse) : p.extend [] = p := by
  obtain ⟨nodes, blocks⟩ := p
  cases blocks with
  | nil => rfl
  | cons b rest => simp only [extend, Block.extend_nil]

theorem add_extend (p : Parse) (newer : List Node) (n : Node) :
    (p.extend newer).add n = p.extend (n :: newer) := by
  obtain ⟨nodes, blocks⟩ := p
  cases blocks with
  | nil => rfl
  | cons b rest => simp only [extend, add, Block.add_extend]

theorem push_extend (p : Parse) (b : Block) (newer : List Node) :
    (p.push b).extend newer = p.push (b.extend newer) := rfl

namespace Reads
variable {o : Options} {p : Parse} {t : TagToken} {b after : Block} {n : Node}

theorem marks (marks : Marks t b (.still after)) : (p.push b).Reads o [.tag t] (p.push after) :=
  .one (.stays rfl marks)

theorem closes (marks : Marks t b (.closed n)) : (p.push b).Reads o [.tag t] (p.add n) :=
  .one (.closes rfl marks)

end Reads

end Parse

variable {o : Options}

mutual

theorem Derives.reads : ∀ {ts : List Token} {nodes : List Node},
    Derives o.separator o.ordered ts nodes → ∀ p : Parse, p.Reads o ts (p.extend nodes.reverse)
  | _, _, .nil, p => by
    rw [List.reverse_nil, Parse.extend_nil]
    exact .nil p
  | _, _, @Derives.snoc _ _ ts us nodes n before last, p => by
    have later := last.reads (p.extend nodes.reverse)
    rw [Parse.add_extend] at later
    rw [List.reverse_append]
    exact (before.reads p).trans later
termination_by structural _ _ h => h

theorem DerivesItem.reads : ∀ {ts : List Token} {n : Node},
    DerivesItem o.separator o.ordered ts n → ∀ p : Parse, p.Reads o ts (p.add n)
  | _, _, .leaf leaf, p => .one (.adds leaf)
  | _, _, @DerivesItem.loop _ _ t closer header ts us body otherwise named heads first rest closes,
      p => by
    have opens : p.Advances o (.tag t) (p.push (.loop t header [] none)) :=
      .opens (.loop named heads)
    have first := first.reads (p.push (.loop t header [] none))
    rw [Parse.push_extend, Block.extend, List.append_nil] at first
    obtain ⟨others, rest, kept⟩ := rest.reads p t header body.reverse none
    have ends : Marks closer (.loop t header body.reverse others)
        (.closed (.loop header body.reverse.reverse (others.getD []).reverse t.span)) :=
      .loopEnd closes
    simp only [kept, Option.getD_none, List.append_nil, List.reverse_reverse] at ends
    exact .cons opens ((first.trans rest).trans (.closes ends))
  | _, _, @DerivesItem.choice _ _ t closer condition ts us vs body otherwise branches named heads
      first rest last closes, p => by
    have opens : p.Advances o (.tag t) (p.push (.choice t [] condition [] none)) :=
      .opens (.choice named heads)
    have first := first.reads (p.push (.choice t [] condition [] none))
    rw [Parse.push_extend, Block.extend, List.append_nil] at first
    obtain ⟨closed, current, nodes, rest, all⟩ := rest.reads p t [] condition body.reverse
    obtain ⟨others, last, kept⟩ := last.reads p t closed current nodes
    have ends : Marks closer (.choice t closed current nodes others)
        (.closed (.choice (Block.branches closed current nodes) (others.getD []).reverse t.span)) :=
      .choiceEnd closes
    rw [all, kept, List.reverse_reverse] at ends
    simp only [Block.branches, List.reverse_reverse, List.reverse_singleton,
      List.singleton_append] at ends
    exact .cons opens (((first.trans rest).trans last).trans (.closes ends))
termination_by structural _ _ h => h

theorem DerivesElses.reads : ∀ {us : List Token} {nodes : List Node},
    DerivesElses o.separator o.ordered us nodes → ∀ (p : Parse) (t : TagToken) (header : LoopHeader)
      (body : List Node) (otherwise : Option (List Node)),
      ∃ others, (p.push (.loop t header body otherwise)).Reads o us
          (p.push (.loop t header body others)) ∧
        others.getD [] = nodes.reverse ++ otherwise.getD []
  | _, _, .nil, p, t, header, body, otherwise => ⟨otherwise, .nil _, rfl⟩
  | _, _, @DerivesElses.snoc _ _ us ts marker before nodes rest marks last, p, t, header, body,
      otherwise => by
    obtain ⟨others, rest, kept⟩ := rest.reads p t header body otherwise
    have last := last.reads (p.push (.loop t header body (some (others.getD []))))
    refine ⟨_, rest.trans ((Parse.Reads.marks (.loopElse marks)).trans last), ?_⟩
    rw [Option.getD_some, kept, List.reverse_append, List.append_assoc]
termination_by structural _ _ h => h

theorem DerivesElsifs.reads : ∀ {us : List Token} {branches : List (Condition × List Node)},
    DerivesElsifs o.separator o.ordered us branches → ∀ (p : Parse) (t : TagToken)
      (closed : List (Condition × List Node)) (condition : Condition) (nodes : List Node),
      ∃ closed' condition' nodes', (p.push (.choice t closed condition nodes none)).Reads o us
          (p.push (.choice t closed' condition' nodes' none)) ∧
        Block.branches closed' condition' nodes'
          = Block.branches closed condition nodes ++ branches
  | _, _, .nil, p, t, closed, condition, nodes => ⟨closed, condition, nodes, .nil _, by simp⟩
  | _, _, @DerivesElsifs.snoc _ _ us ts marker next list branches rest named heads last, p, t,
      closed, condition, nodes => by
    obtain ⟨before, current, newest, rest, all⟩ := rest.reads p t closed condition nodes
    have last := last.reads
      (p.push (.choice t ((current, newest.reverse) :: before) next [] none))
    refine ⟨_, _, _, rest.trans ((Parse.Reads.marks (.elsif named heads)).trans last), ?_⟩
    rw [← List.append_assoc, ← all]
    simp [Block.branches]
termination_by structural _ _ h => h

theorem DerivesLast.reads : ∀ {vs : List Token} {others : List Node},
    DerivesLast o.separator o.ordered vs others → ∀ (p : Parse) (t : TagToken)
      (closed : List (Condition × List Node)) (condition : Condition) (nodes : List Node),
      ∃ otherwise, (p.push (.choice t closed condition nodes none)).Reads o vs
          (p.push (.choice t closed condition nodes otherwise)) ∧
        otherwise.getD [] = others.reverse
  | _, _, .none, p, t, closed, condition, nodes => ⟨none, .nil _, rfl⟩
  | _, _, .some marks list, p, t, closed, condition, nodes => by
    have list := list.reads (p.push (.choice t closed condition nodes (some [])))
    refine ⟨_, (Parse.Reads.marks (.choiceElse marks)).trans list, ?_⟩
    rw [Option.getD_some, List.append_nil]
termination_by structural _ _ h => h

end

/-- The tokens from the opening tag of a block on have been derived, as far as the block goes. -/
inductive Holds (o : Options) : List Token → Block → Prop where
  | loop {t : TagToken} {header : LoopHeader} {ts : List Token} {body : List Node}
      (named : t.name = "for") (heads : t.read (readLoop o.separator o.ordered) = .ok header)
      (first : Derives o.separator o.ordered ts body) :
      Holds o (.tag t :: ts) (.loop t header body.reverse none)
  | loopElse {t marker : TagToken} {header : LoopHeader} {ts us vs : List Token}
      {body before nodes : List Node} (named : t.name = "for")
      (heads : t.read (readLoop o.separator o.ordered) = .ok header)
      (first : Derives o.separator o.ordered ts body)
      (rest : DerivesElses o.separator o.ordered us before) (marks : marker.Bare "else")
      (last : Derives o.separator o.ordered vs nodes) :
      Holds o (.tag t :: (ts ++ us ++ .tag marker :: vs))
        (.loop t header body.reverse (some (before ++ nodes).reverse))
  | choice {t : TagToken} {condition : Condition} {ts : List Token} {body : List Node}
      (named : t.name = "if") (heads : t.read readCondition = .ok condition)
      (first : Derives o.separator o.ordered ts body) :
      Holds o (.tag t :: ts) (.choice t [] condition body.reverse none)
  | elsif {t marker : TagToken} {condition next : Condition} {ts us vs : List Token}
      {body nodes : List Node} {branches : List (Condition × List Node)}
      (named : t.name = "if") (heads : t.read readCondition = .ok condition)
      (first : Derives o.separator o.ordered ts body)
      (rest : DerivesElsifs o.separator o.ordered us branches) (marks : marker.name = "elsif")
      (continues : marker.read readCondition = .ok next)
      (last : Derives o.separator o.ordered vs nodes) :
      Holds o (.tag t :: (ts ++ us ++ .tag marker :: vs))
        (.choice t ((condition, body) :: branches).reverse next nodes.reverse none)
  | choiceElse {t marker : TagToken} {condition current : Condition} {ts us vs : List Token}
      {body newest nodes : List Node} {closed branches : List (Condition × List Node)}
      (named : t.name = "if") (heads : t.read readCondition = .ok condition)
      (first : Derives o.separator o.ordered ts body)
      (rest : DerivesElsifs o.separator o.ordered us branches) (marks : marker.Bare "else")
      (all : Block.branches closed current newest = (condition, body) :: branches)
      (last : Derives o.separator o.ordered vs nodes) :
      Holds o (.tag t :: (ts ++ us ++ .tag marker :: vs))
        (.choice t closed current newest (some nodes.reverse))

namespace Holds
variable {ts us : List Token} {t : TagToken} {b after : Block} {n : Node}

theorem of_opens (opens : Opens o t b) : Holds o [.tag t] b := by
  cases opens with
  | loop named heads => exact .loop named heads .nil
  | choice named heads => exact .choice named heads .nil

theorem item (holds : Holds o ts b) (item : DerivesItem o.separator o.ordered us n) :
    Holds o (ts ++ us) (b.add n) := by
  cases holds with
  | loop named heads first =>
    simpa [Block.add] using Holds.loop named heads (first.snoc item)
  | loopElse named heads first rest marks last =>
    simpa [Block.add] using Holds.loopElse named heads first rest marks (last.snoc item)
  | choice named heads first =>
    simpa [Block.add] using Holds.choice named heads (first.snoc item)
  | elsif named heads first rest marks continues last =>
    simpa [Block.add] using Holds.elsif named heads first rest marks continues (last.snoc item)
  | choiceElse named heads first rest marks all last =>
    simpa [Block.add] using Holds.choiceElse named heads first rest marks all (last.snoc item)

theorem stays (holds : Holds o ts b) (marks : Marks t b (.still after)) :
    Holds o (ts ++ [.tag t]) after := by
  cases holds with
  | loop named heads first =>
    cases marks with
    | loopElse marks => simpa using Holds.loopElse named heads first .nil marks .nil
  | loopElse named heads first rest marked last =>
    cases marks with
    | loopElse marks =>
      simpa using Holds.loopElse named heads first (rest.snoc marked last) marks .nil
  | choice named heads first =>
    cases marks with
    | elsif marks continues => simpa using Holds.elsif named heads first .nil marks continues .nil
    | choiceElse marks =>
      simpa using Holds.choiceElse named heads first .nil marks (by simp [Block.branches]) .nil
  | elsif named heads first rest marked continued last =>
    have rest := rest.snoc marked continued last
    cases marks with
    | elsif marks continues => simpa using Holds.elsif named heads first rest marks continues .nil
    | choiceElse marks =>
      simpa using Holds.choiceElse named heads first rest marks (by simp [Block.branches]) .nil
  | choiceElse named heads first rest marked all last => cases marks

theorem closes (holds : Holds o ts b) (marks : Marks t b (.closed n)) :
    DerivesItem o.separator o.ordered (ts ++ [.tag t]) n := by
  cases holds with
  | loop named heads first =>
    cases marks with
    | loopEnd closes => simpa using DerivesItem.loop named heads first .nil closes
  | loopElse named heads first rest marked last =>
    cases marks with
    | loopEnd closes =>
      simpa using DerivesItem.loop named heads first (rest.snoc marked last) closes
  | choice named heads first =>
    cases marks with
    | choiceEnd closes =>
      simpa [Block.branches] using DerivesItem.choice named heads first .nil .none closes
  | elsif named heads first rest marked continued last =>
    have rest := rest.snoc marked continued last
    cases marks with
    | choiceEnd closes =>
      simpa [Block.branches] using DerivesItem.choice named heads first rest .none closes
  | choiceElse named heads first rest marked all last =>
    cases marks with
    | choiceEnd closes =>
      simpa [all] using DerivesItem.choice named heads first rest (.some marked last) closes

end Holds

/-- The tokens read so far: a list of items around the open blocks, and what each of these holds. -/
inductive Parse.Derived (o : Options) : List Token → Parse → Prop where
  | list {ts : List Token} {nodes : List Node} (list : Derives o.separator o.ordered ts nodes) :
      Derived o ts ⟨nodes.reverse, []⟩
  | inside {ts us : List Token} {b : Block} {nodes : List Node} {blocks : List Block}
      (outside : Derived o ts ⟨nodes, blocks⟩) (holds : Holds o us b) :
      Derived o (ts ++ us) ⟨nodes, b :: blocks⟩

namespace Parse.Derived
variable {ts us : List Token} {p q : Parse} {token : Token} {n : Node}

theorem item (derived : Parse.Derived o ts p) (item : DerivesItem o.separator o.ordered us n) :
    Parse.Derived o (ts ++ us) (p.add n) := by
  cases derived with
  | list list => simpa [Parse.add] using Derived.list (list.snoc item)
  | inside outside holds =>
    rw [List.append_assoc]
    exact .inside outside (holds.item item)

theorem advances (derived : Parse.Derived o ts p) (step : p.Advances o token q) :
    Parse.Derived o (ts ++ [token]) q := by
  cases step with
  | adds leaf => exact derived.item (.leaf leaf)
  | opens opens => exact .inside derived (.of_opens opens)
  | stays top marks =>
    cases derived with
    | list => cases top
    | inside outside holds =>
      cases top
      rw [List.append_assoc]
      exact .inside outside (holds.stays marks)
  | closes top marks =>
    cases derived with
    | list => cases top
    | inside outside holds =>
      cases top
      rw [List.append_assoc]
      exact outside.item (holds.closes marks)

theorem reads (derived : Parse.Derived o ts p) (steps : p.Reads o us q) :
    Parse.Derived o (ts ++ us) q := by
  induction steps generalizing ts with
  | nil p => rwa [List.append_nil]
  | @cons p q r token rest first _ ih =>
    have later := ih (derived.advances first)
    rwa [List.append_assoc] at later

end Parse.Derived

theorem derives_iff_parseTokens {tokens : List Token} {nodes : List Node} :
    parseTokens .builtins o tokens = .ok nodes ↔ Derives o.separator o.ordered tokens nodes := by
  rw [parseTokens_eq, bind_eq_ok]
  constructor
  · rintro ⟨p, read, finished⟩
    have steps := (Parse.read_eq_ok Parse.start_builtIn).mp read
    have derived : Parse.Derived o tokens p := Parse.Derived.reads (.list .nil) steps
    cases derived with
    | inside outside holds => cases finished
    | list list =>
      obtain rfl : _ = nodes := by simpa [Parse.finish] using finished
      exact list
  · intro derives
    refine ⟨_, (Parse.read_eq_ok Parse.start_builtIn).mpr (derives.reads .start), ?_⟩
    simp [Parse.finish, Parse.extend, Parse.start]

/-- Parsing succeeds for the tokens of the block grammar and for no others, which of the options
    but the separator of named arguments have no part in; and the nodes are those derived. -/
theorem parseTokens_derives (o : Options) (tokens : List Token) :
    ((∃ nodes, parseTokens .builtins o tokens = .ok nodes) ↔ Derivable o.separator tokens) ∧
      ∀ nodes, parseTokens .builtins o tokens = .ok nodes ↔
        Derives o.separator o.ordered tokens nodes := by
  constructor
  · rw [derivable_iff o.ordered]
    exact exists_congr fun nodes => derives_iff_parseTokens
  · intro nodes
    exact derives_iff_parseTokens

end Templating
