import Templating.Proofs.Template.Grammar

namespace Templating

def Block.BuiltIn : Block → Prop
  | .loop tag _ _ _ => tag.name = "for"
  | .choice tag _ _ _ _ => tag.name = "if"
  | .custom .. => False

def Parse.BuiltIn (p : Parse) : Prop := ∀ b ∈ p.blocks, b.BuiltIn

inductive Opens (o : Options) (t : TagToken) : Block → Prop where
  | loop {header : LoopHeader} (named : t.name = "for")
      (heads : t.read (readLoop o.separator o.ordered) = .ok header) :
      Opens o t (.loop t header [] none)
  | choice {condition : Condition} (named : t.name = "if")
      (heads : t.read readCondition = .ok condition) : Opens o t (.choice t [] condition [] none)

inductive Marks (t : TagToken) : Block → Block.Marked → Prop where
  | loopElse {tag : TagToken} {header : LoopHeader} {body : List Node}
      {otherwise : Option (List Node)} (marks : t.Bare "else") :
      Marks t (.loop tag header body otherwise)
        (.still (.loop tag header body (some (otherwise.getD []))))
  | loopEnd {tag : TagToken} {header : LoopHeader} {body : List Node}
      {otherwise : Option (List Node)} (closes : t.Bare "endfor") :
      Marks t (.loop tag header body otherwise)
        (.closed (.loop header body.reverse (otherwise.getD []).reverse tag.span))
  | elsif {tag : TagToken} {closed : List (Condition × List Node)} {condition next : Condition}
      {nodes : List Node} (named : t.name = "elsif") (heads : t.read readCondition = .ok next) :
      Marks t (.choice tag closed condition nodes none)
        (.still (.choice tag ((condition, nodes.reverse) :: closed) next [] none))
  | choiceElse {tag : TagToken} {closed : List (Condition × List Node)} {condition : Condition}
      {nodes : List Node} (marks : t.Bare "else") :
      Marks t (.choice tag closed condition nodes none)
        (.still (.choice tag closed condition nodes (some [])))
  | choiceEnd {tag : TagToken} {closed : List (Condition × List Node)} {condition : Condition}
      {nodes : List Node} {otherwise : Option (List Node)} (closes : t.Bare "endif") :
      Marks t (.choice tag closed condition nodes otherwise)
        (.closed (.choice (Block.branches closed condition nodes) (otherwise.getD []).reverse
          tag.span))

inductive Parse.Advances (o : Options) (p : Parse) : Token → Parse → Prop where
  | adds {token : Token} {n : Node} (leaf : Leaf token n) : Advances o p token (p.add n)
  | opens {t : TagToken} {b : Block} (opens : Opens o t b) : Advances o p (.tag t) (p.push b)
  | stays {t : TagToken} {b after : Block} {rest : List Block} (top : p.blocks = b :: rest)
      (marks : Marks t b (.still after)) : Advances o p (.tag t) { p with blocks := after :: rest }
  | closes {t : TagToken} {b : Block} {n : Node} {rest : List Block} (top : p.blocks = b :: rest)
      (marks : Marks t b (.closed n)) :
      Advances o p (.tag t) (Parse.add { p with blocks := rest } n)

theorem bind_eq_ok {ε α β : Type} {x : Except ε α} {f : α → Except ε β} {b : β} :
    x >>= f = .ok b ↔ ∃ a, x = .ok a ∧ f a = .ok b := by
  cases x <;> simp [bind, Except.bind]

theorem exists_eq_ok {ε α : Type} {x : Except ε α} (found : x.isOk = true) : ∃ a, x = .ok a := by
  cases x with
  | error e => cases found
  | ok a => exact ⟨a, rfl⟩

theorem TagToken.expectNoArguments_eq_ok {t : TagToken} :
    t.expectNoArguments = .ok () ↔ t.hasArguments = false := by
  unfold TagToken.expectNoArguments
  cases t.hasArguments <;> simp

def markers : List String := ["else", "elsif", "endif", "endfor"]

theorem markers_unknown : ∀ entry ∈ TagSet.builtins.entries, entry.1 ∉ markers := by decide

theorem standalone_free : ∀ name ∈ standalone, name ∉ "for" :: "if" :: markers := by decide

theorem mem_of_find? {name : String} {kind : TagKind}
    (found : TagSet.builtins.find? name = some kind) : (name, kind) ∈ TagSet.builtins.entries := by
  obtain ⟨before, after, split, -⟩ := List.lookup_eq_some_iff.mp found
  rw [split]
  exact List.mem_append_right before List.mem_cons_self

namespace Block
variable {b : Block} {t : TagToken} {m : Marked}

theorem BuiltIn.mem_markers (builtIn : b.BuiltIn) {name : String} (claims : b.claims name = true) :
    name ∈ markers := by
  cases b with
  | loop tag header body otherwise =>
    simp only [Block.claims, Bool.or_eq_true, decide_eq_true_eq] at claims
    rcases claims with rfl | rfl <;> simp [markers]
  | choice tag closed condition nodes otherwise =>
    simp only [Block.claims, Bool.or_eq_true, decide_eq_true_eq] at claims
    rcases claims with (rfl | rfl) | rfl <;> simp [markers]
  | custom => exact absurd builtIn id

theorem marks_of_mark (builtIn : b.BuiltIn) (claims : b.claims t.name = true)
    (marked : b.mark t = .ok m) : Marks t b m := by
  cases b with
  | loop tag header body otherwise =>
    obtain ⟨_, bare, marked⟩ := bind_eq_ok.mp marked
    have empty := TagToken.expectNoArguments_eq_ok.mp bare
    simp only [Block.claims, Bool.or_eq_true, decide_eq_true_eq] at claims
    rcases claims with named | named
    · obtain rfl : .still _ = m := by simpa [named, pure, Except.pure] using marked
      exact .loopElse ⟨named, empty⟩
    · obtain rfl : .closed _ = m := by simpa [named, pure, Except.pure] using marked
      exact .loopEnd ⟨named, empty⟩
  | choice tag closed condition nodes otherwise =>
    simp only [Block.claims, Bool.or_eq_true, decide_eq_true_eq] at claims
    simp only [Block.mark] at marked
    by_cases ends : t.name = "endif"
    · rw [if_pos ends] at marked
      obtain ⟨_, bare, ⟨⟩⟩ := bind_eq_ok.mp marked
      exact .choiceEnd ⟨ends, TagToken.expectNoArguments_eq_ok.mp bare⟩
    · rw [if_neg ends] at marked
      cases otherwise with
      | some others => simp at marked
      | none =>
        rcases claims.resolve_right ends with named | named
        · rw [if_neg (by simp), if_pos named] at marked
          obtain ⟨next, heads, ⟨⟩⟩ := bind_eq_ok.mp marked
          exact .elsif named heads
        · rw [if_neg (by simp), if_neg (by simp [named])] at marked
          obtain ⟨_, bare, ⟨⟩⟩ := bind_eq_ok.mp marked
          exact .choiceElse ⟨named, TagToken.expectNoArguments_eq_ok.mp bare⟩
  | custom => exact absurd builtIn id

theorem mark_of_marks (marks : Marks t b m) : b.claims t.name = true ∧ b.mark t = .ok m := by
  cases marks with
  | loopElse marks =>
    have bare := TagToken.expectNoArguments_eq_ok.mpr marks.empty
    constructor
    · simp [Block.claims, marks.named]
    · simp [Block.mark, bare, marks.named, bind, Except.bind, pure, Except.pure]
  | loopEnd closes =>
    have bare := TagToken.expectNoArguments_eq_ok.mpr closes.empty
    constructor
    · simp [Block.claims, closes.named]
    · simp [Block.mark, bare, closes.named, bind, Except.bind, pure, Except.pure]
  | elsif named heads =>
    constructor
    · simp [Block.claims, named]
    · simp [Block.mark, named, heads, bind, Except.bind, pure, Except.pure]
  | choiceElse marks =>
    have bare := TagToken.expectNoArguments_eq_ok.mpr marks.empty
    constructor
    · simp [Block.claims, marks.named]
    · simp [Block.mark, bare, marks.named, bind, Except.bind, pure, Except.pure]
  | choiceEnd closes =>
    have bare := TagToken.expectNoArguments_eq_ok.mpr closes.empty
    constructor
    · simp [Block.claims, closes.named]
    · simp [Block.mark, bare, closes.named, bind, Except.bind, pure, Except.pure]

end Block

namespace Parse
variable {o : Options} {p q : Parse} {t : TagToken}

theorem BuiltIn.of_top {b : Block} {rest : List Block} (builtIn : p.BuiltIn)
    (top : p.blocks = b :: rest) : b.BuiltIn ∧ ∀ c ∈ rest, c.BuiltIn := by
  rw [BuiltIn, top] at builtIn
  exact List.forall_mem_cons.mp builtIn

theorem freeTag_of_find? {kind : TagKind} (found : TagSet.builtins.find? t.name = some kind) :
    p.freeTag .builtins o t = p.openTag o t kind := by
  simp only [freeTag, found]

theorem freeTag_eq_ok : p.freeTag .builtins o t = .ok q ↔
    (∃ n, Leaf (.tag t) n ∧ q = p.add n) ∨ ∃ b, Opens o t b ∧ q = p.push b := by
  constructor
  · intro h
    cases found : TagSet.builtins.find? t.name with
    | none => simp [freeTag, found] at h
    | some kind =>
      rw [freeTag_of_find? found] at h
      have known := mem_of_find? found
      simp only [TagSet.builtins, List.mem_cons, Prod.mk.injEq, List.not_mem_nil, or_false] at known
      rcases known with ⟨named, rfl⟩ | ⟨named, rfl⟩ | ⟨named, rfl⟩ | ⟨named, rfl⟩ | ⟨named, rfl⟩ |
        ⟨named, rfl⟩ | ⟨named, rfl⟩
      · obtain ⟨header, heads, ⟨⟩⟩ := bind_eq_ok.mp h
        exact .inr ⟨_, .loop named heads, rfl⟩
      · obtain ⟨_, bare, ⟨⟩⟩ := bind_eq_ok.mp h
        exact .inl ⟨_, .leave ⟨named, TagToken.expectNoArguments_eq_ok.mp bare⟩, rfl⟩
      · obtain ⟨_, bare, ⟨⟩⟩ := bind_eq_ok.mp h
        exact .inl ⟨_, .next ⟨named, TagToken.expectNoArguments_eq_ok.mp bare⟩, rfl⟩
      · obtain ⟨condition, heads, ⟨⟩⟩ := bind_eq_ok.mp h
        exact .inr ⟨_, .choice named heads, rfl⟩
      · obtain ⟨⟨name, value⟩, header, ⟨⟩⟩ := bind_eq_ok.mp h
        exact .inl ⟨_, .assign named header, rfl⟩
      · obtain ⟨name, header, ⟨⟩⟩ := bind_eq_ok.mp h
        exact .inl ⟨_, .increment named header, rfl⟩
      · obtain ⟨name, header, ⟨⟩⟩ := bind_eq_ok.mp h
        exact .inl ⟨_, .decrement named header, rfl⟩
  · have found (kind : TagKind) {name : String} (named : t.name = name)
        (known : TagSet.builtins.find? name = some kind) :
        p.freeTag .builtins o t = p.openTag o t kind := freeTag_of_find? (named ▸ known)
    rintro (⟨n, leaf, rfl⟩ | ⟨b, opens, rfl⟩)
    · cases leaf with
      | assign named header =>
        rw [found .assign named rfl]
        exact bind_eq_ok.mpr ⟨_, header, rfl⟩
      | increment named header =>
        rw [found .increment named rfl]
        exact bind_eq_ok.mpr ⟨_, header, rfl⟩
      | decrement named header =>
        rw [found .decrement named rfl]
        exact bind_eq_ok.mpr ⟨_, header, rfl⟩
      | leave bare =>
        rw [found .leave bare.named rfl]
        exact bind_eq_ok.mpr ⟨(), TagToken.expectNoArguments_eq_ok.mpr bare.empty, rfl⟩
      | next bare =>
        rw [found .next bare.named rfl]
        exact bind_eq_ok.mpr ⟨(), TagToken.expectNoArguments_eq_ok.mpr bare.empty, rfl⟩
    · cases opens with
      | loop named heads =>
        rw [found .loop named rfl]
        exact bind_eq_ok.mpr ⟨_, heads, rfl⟩
      | choice named heads =>
        rw [found .choice named rfl]
        exact bind_eq_ok.mpr ⟨_, heads, rfl⟩

theorem Advances.of_freeTag (h : p.freeTag .builtins o t = .ok q) : p.Advances o (.tag t) q := by
  rcases freeTag_eq_ok.mp h with ⟨n, leaf, rfl⟩ | ⟨b, opens, rfl⟩
  · exact .adds leaf
  · exact .opens opens

theorem tag_eq_freeTag (builtIn : p.BuiltIn) (free : t.name ∉ markers) :
    p.tag .builtins o t = p.freeTag .builtins o t := by
  unfold Parse.tag
  split
  · rfl
  · rename_i b rest top
    obtain ⟨mine, -⟩ := builtIn.of_top top
    rw [if_neg fun claims => free (mine.mem_markers claims)]

theorem tag_of_freeTag (builtIn : p.BuiltIn) (h : p.freeTag .builtins o t = .ok q) :
    p.tag .builtins o t = .ok q := by
  rw [tag_eq_freeTag builtIn, h]
  cases found : TagSet.builtins.find? t.name with
  | none => simp [freeTag, found] at h
  | some kind => exact markers_unknown _ (mem_of_find? found)

theorem tag_of_marks {b : Block} {rest : List Block} {m : Block.Marked} (top : p.blocks = b :: rest)
    (marks : Marks t b m) : p.tag .builtins o t = .ok (match m with
      | .still after => { p with blocks := after :: rest }
      | .closed n => Parse.add { p with blocks := rest } n) := by
  obtain ⟨claims, marked⟩ := Block.mark_of_marks marks
  simp only [Parse.tag, top, if_pos claims, marked]
  cases m <;> rfl

theorem token_eq_ok (builtIn : p.BuiltIn) {token : Token} :
    p.token .builtins o token = .ok q ↔ p.Advances o token q := by
  constructor
  · intro h
    cases token with
    | text t =>
      cases h
      exact .adds (.text t)
    | output t =>
      obtain ⟨value, content, ⟨⟩⟩ := bind_eq_ok.mp h
      exact .adds (.output content)
    | tag t =>
      simp only [Parse.token, Parse.tag] at h
      split at h
      · exact .of_freeTag h
      · rename_i b rest top
        split at h
        · rename_i claims
          obtain ⟨mine, -⟩ := builtIn.of_top top
          obtain ⟨m, marked, h⟩ := bind_eq_ok.mp h
          have marks := Block.marks_of_mark mine claims marked
          cases m with
          | still after =>
            cases h
            exact .stays top marks
          | closed n =>
            cases h
            exact .closes top marks
        · exact .of_freeTag h
  · intro advances
    cases advances with
    | stays top marks => exact tag_of_marks top marks
    | closes top marks => exact tag_of_marks top marks
    | opens opens => exact tag_of_freeTag builtIn (freeTag_eq_ok.mpr (.inr ⟨_, opens, rfl⟩))
    | adds leaf =>
      cases token with
      | text t =>
        cases leaf
        rfl
      | output t =>
        cases leaf with
        | output content => exact bind_eq_ok.mpr ⟨_, content, rfl⟩
      | tag t => exact tag_of_freeTag builtIn (freeTag_eq_ok.mpr (.inl ⟨_, leaf, rfl⟩))

end Parse

namespace Block
variable {b after : Block} {t : TagToken}

theorem add_builtIn (n : Node) : (b.add n).BuiltIn ↔ b.BuiltIn := by
  cases b with
  | loop tag header body otherwise => cases otherwise <;> exact Iff.rfl
  | choice tag closed condition nodes otherwise => cases otherwise <;> exact Iff.rfl
  | custom => exact Iff.rfl

theorem add_tag (n : Node) : (b.add n).tag = b.tag := by
  cases b with
  | loop tag header body otherwise => cases otherwise <;> rfl
  | choice tag closed condition nodes otherwise => cases otherwise <;> rfl
  | custom => rfl

theorem marks_still (marks : Marks t b (.still after)) :
    after.tag = b.tag ∧ (after.BuiltIn ↔ b.BuiltIn) := by
  cases marks <;> exact ⟨rfl, Iff.rfl⟩

end Block

theorem Opens.builtIn {o : Options} {t : TagToken} {b : Block} (opens : Opens o t b) :
    b.tag = t ∧ b.BuiltIn := by
  cases opens with
  | loop named => exact ⟨rfl, named⟩
  | choice named => exact ⟨rfl, named⟩

namespace Parse
variable {o : Options} {p q : Parse} {token : Token}

def tags (p : Parse) : List TagToken := p.blocks.map Block.tag

theorem add_tags (n : Node) : (p.add n).tags = p.tags := by
  unfold tags add
  split
  · rfl
  · rename_i top
    simp only [top, List.map_cons, Block.add_tag]

theorem add_builtIn (n : Node) : (p.add n).BuiltIn ↔ p.BuiltIn := by
  unfold BuiltIn add
  split
  · rfl
  · rename_i top
    simp only [top, List.forall_mem_cons, Block.add_builtIn]

theorem Advances.builtIn (advances : p.Advances o token q) (builtIn : p.BuiltIn) : q.BuiltIn := by
  cases advances with
  | adds leaf => exact (add_builtIn _).mpr builtIn
  | opens opens => exact List.forall_mem_cons.mpr ⟨opens.builtIn.2, builtIn⟩
  | stays top marks =>
    obtain ⟨mine, others⟩ := builtIn.of_top top
    exact List.forall_mem_cons.mpr ⟨(Block.marks_still marks).2.mpr mine, others⟩
  | closes top marks =>
    obtain ⟨-, others⟩ := builtIn.of_top top
    exact (add_builtIn _).mpr others

theorem start_builtIn : start.BuiltIn := List.forall_mem_nil _

def read (tags : TagSet) (o : Options) (p : Parse) (tokens : List Token) :
    Except ParseError Parse := tokens.foldlM (Parse.token tags o) p

inductive Reads (o : Options) : Parse → List Token → Parse → Prop where
  | nil (p : Parse) : Reads o p [] p
  | cons {p q r : Parse} {token : Token} {rest : List Token} (first : p.Advances o token q)
      (later : Reads o q rest r) : Reads o p (token :: rest) r

theorem Reads.one (advances : p.Advances o token q) : p.Reads o [token] q :=
  .cons advances (.nil q)

theorem Reads.trans {r : Parse} {ts us : List Token} (first : p.Reads o ts q)
    (later : q.Reads o us r) : p.Reads o (ts ++ us) r := by
  induction first with
  | nil p => exact later
  | cons advances _ ih => exact .cons advances (ih later)

theorem Reads.builtIn {ts : List Token} (reads : p.Reads o ts q) (builtIn : p.BuiltIn) :
    q.BuiltIn := by
  induction reads with
  | nil p => exact builtIn
  | cons advances _ ih => exact ih (advances.builtIn builtIn)

theorem read_eq_ok {ts : List Token} (builtIn : p.BuiltIn) :
    p.read .builtins o ts = .ok q ↔ p.Reads o ts q := by
  induction ts generalizing p with
  | nil =>
    constructor
    · rintro ⟨⟩
      exact .nil _
    · rintro ⟨⟩
      rfl
  | cons token rest ih =>
    simp only [read, List.foldlM_cons, bind_eq_ok]
    constructor
    · rintro ⟨middle, first, later⟩
      have advances := (token_eq_ok builtIn).mp first
      exact .cons advances ((ih (advances.builtIn builtIn)).mp later)
    · intro reads
      cases reads with
      | cons advances later =>
        exact ⟨_, (token_eq_ok builtIn).mpr advances, (ih (advances.builtIn builtIn)).mpr later⟩

end Parse

theorem parseTokens_eq (tags : TagSet) (o : Options) (tokens : List Token) :
    parseTokens tags o tokens = Parse.start.read tags o tokens >>= Parse.finish := rfl

end Templating
