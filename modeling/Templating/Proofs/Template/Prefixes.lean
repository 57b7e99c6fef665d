import Templating.Proofs.Template.Refusals

namespace Templating

namespace Parse
variable {tags : TagSet} {o : Options} (before : List Node) (p : Parse)

def after : Parse := { p with nodes := p.nodes ++ before.reverse }

theorem add_after (n : Node) : (p.after before).add n = (p.add n).after before := by
  obtain ⟨nodes, blocks⟩ := p
  cases blocks <;> rfl

theorem push_after (b : Block) : (p.after before).push b = (p.push b).after before := rfl

theorem pushConstruct_after (t : TagToken) (construct : Construct) :
    (p.after before).pushConstruct t construct = (p.pushConstruct t construct).after before := by
  unfold pushConstruct
  split
  · exact add_after before p _
  · exact push_after before p _

theorem openTag_after (t : TagToken) (kind : TagKind) :
    (p.after before).openTag o t kind = Parse.after before <$> p.openTag o t kind := by
  cases kind <;>
    simp only [openTag, map_bind, map_pure, add_after, push_after, pushConstruct_after]

theorem freeTag_after (t : TagToken) :
    (p.after before).freeTag tags o t = Parse.after before <$> p.freeTag tags o t := by
  unfold freeTag
  split
  · exact openTag_after before p t _
  · rfl

theorem tag_after (t : TagToken) :
    (p.after before).tag tags o t = Parse.after before <$> p.tag tags o t := by
  obtain ⟨nodes, blocks⟩ := p
  cases blocks with
  | nil => exact freeTag_after before ⟨nodes, []⟩ t
  | cons b rest =>
    simp only [Parse.tag, after]
    split
    · rw [map_bind]
      refine bind_congr fun marked => ?_
      cases marked with
      | still b => rfl
      | closed n => exact congrArg Except.ok (add_after before ⟨nodes, rest⟩ n)
    · exact freeTag_after before ⟨nodes, b :: rest⟩ t

theorem token_after (token : Token) :
    (p.after before).token tags o token = Parse.after before <$> p.token tags o token := by
  cases token with
  | text t => exact congrArg Except.ok (add_after before p _)
  | output t => simp only [Parse.token, map_bind, map_pure, add_after]
  | tag t => exact tag_after before p t

theorem read_after (tokens : List Token) :
    (p.after before).read tags o tokens = Parse.after before <$> p.read tags o tokens := by
  induction tokens generalizing p with
  | nil => rfl
  | cons token rest ih =>
    simp only [read, List.foldlM_cons, token_after, map_bind, bind_map_left]
    exact bind_congr fun q => ih q

theorem finish_after : (p.after before).finish = (before ++ ·) <$> p.finish := by
  obtain ⟨nodes, blocks⟩ := p
  cases blocks with
  | nil =>
    have order : (nodes ++ before.reverse).reverse = before ++ nodes.reverse := by simp
    exact congrArg Except.ok order
  | cons b rest => rfl

theorem read_append (ts us : List Token) :
    p.read tags o (ts ++ us) = p.read tags o ts >>= fun q => q.read tags o us :=
  List.foldlM_append

theorem finish_eq : p.finish = match p.tags with
    | [] => .ok p.nodes.reverse
    | t :: _ => .error t.neverClosed := by
  obtain ⟨nodes, blocks⟩ := p
  cases blocks <;> rfl

end Parse

section
variable {tags : TagSet} {o : Options} {ts : List Token}

theorem parseTokens_append {before : List Node} (parsed : parseTokens tags o ts = .ok before)
    (us : List Token) :
    parseTokens tags o (ts ++ us) = (before ++ ·) <$> parseTokens tags o us := by
  rw [parseTokens_eq] at parsed
  obtain ⟨p, read, finished⟩ := bind_eq_ok.mp parsed
  -- No block is open, so what follows is read as from the start, behind these nodes.
  have complete : p = Parse.start.after before := by
    obtain ⟨nodes, blocks⟩ := p
    cases blocks with
    | cons => cases finished
    | nil =>
      cases finished
      simp [Parse.after, Parse.start]
  subst complete
  calc parseTokens tags o (ts ++ us)
      = (Parse.start.after before).read tags o us >>= Parse.finish := by
        rw [parseTokens_eq, Parse.read_append, read]
        rfl
    _ = Parse.start.read tags o us >>= fun p => (before ++ ·) <$> p.finish := by
        simp only [Parse.read_after, bind_map_left, Parse.finish_after]
    _ = (before ++ ·) <$> parseTokens tags o us := by rw [parseTokens_eq, map_bind]

theorem parseTokens_append_error {e : ParseError} (failed : parseTokens tags o ts = .error e)
    (refused : ∀ text span, e ≠ .notClosed text span) (us : List Token) :
    parseTokens tags o (ts ++ us) = .error e := by
  rw [parseTokens_eq] at failed ⊢
  rw [Parse.read_append]
  cases read : Parse.start.read tags o ts with
  | error e' =>
    rw [read] at failed
    exact failed
  | ok p =>
    rw [read] at failed
    obtain ⟨nodes, blocks⟩ := p
    cases blocks with
    | nil => cases failed
    | cons b rest =>
      cases failed
      exact absurd rfl (refused _ _)

end

/-- The name of the tag that closes a block, by that of the tag that opens it. -/
def closing? (opener : String) : Option String :=
  if opener = "for" then some "endfor" else if opener = "if" then some "endif" else none

def openAfter (waiting : List TagToken) : Token → List TagToken
  | .tag t =>
    if (closing? t.name).isSome then t :: waiting
    else match waiting with
      | [] => []
      | opener :: others => if closing? opener.name = some t.name then others else waiting
  | _ => waiting

def openTags (tokens : List Token) : List TagToken := tokens.foldl openAfter []

theorem closing?_eq_some {opener closer : String} : closing? opener = some closer ↔
    opener = "for" ∧ closer = "endfor" ∨ opener = "if" ∧ closer = "endif" := by
  unfold closing?
  split
  · simp_all [eq_comm]
  · split <;> simp_all [eq_comm]

theorem openAfter_other {t : TagToken} (waiting : List TagToken)
    (other : t.name ∉ ["for", "if", "endfor", "endif"]) :
    openAfter waiting (.tag t) = waiting := by
  simp only [List.mem_cons, List.not_mem_nil, or_false, not_or] at other
  have opens : closing? t.name = none := by simp [closing?, other]
  have closes (opener : String) : closing? opener ≠ some t.name := by
    simp [closing?_eq_some, other]
  cases waiting with
  | nil => simp [openAfter, opens]
  | cons opener others => simp [openAfter, opens, closes]

theorem Leaf.openAfter {token : Token} {n : Node} (leaf : Leaf token n) (waiting : List TagToken) :
    openAfter waiting token = waiting := by
  cases token with
  | text t => rfl
  | output t => rfl
  | tag t =>
    have other := standalone_free t.name leaf.named
    simp only [markers, List.mem_cons, List.not_mem_nil, or_false, not_or] at other
    exact openAfter_other waiting (by simp [other])

theorem Opens.openAfter {o : Options} {t : TagToken} {b : Block} (opens : Opens o t b)
    (waiting : List TagToken) : openAfter waiting (.tag t) = b.tag :: waiting := by
  cases opens with
  | loop named => simp [Templating.openAfter, closing?, named, Block.tag]
  | choice named => simp [Templating.openAfter, closing?, named, Block.tag]

namespace Marks
variable {t : TagToken} {b after : Block} {n : Node}

theorem openAfter_still (marks : Marks t b (.still after)) (waiting : List TagToken) :
    openAfter waiting (.tag t) = waiting := by
  cases marks with
  | loopElse marks => exact openAfter_other waiting (by simp [marks.named])
  | elsif named => exact openAfter_other waiting (by simp [named])
  | choiceElse marks => exact openAfter_other waiting (by simp [marks.named])

theorem openAfter_closed (builtIn : b.BuiltIn) (marks : Marks t b (.closed n))
    (others : List TagToken) : openAfter (b.tag :: others) (.tag t) = others := by
  cases marks with
  | loopEnd closes =>
    have opener : _ = "for" := builtIn
    simp [openAfter, closing?, Block.tag, closes.named, opener]
  | choiceEnd closes =>
    have opener : _ = "if" := builtIn
    simp [openAfter, closing?, Block.tag, closes.named, opener]

end Marks

theorem Block.BuiltIn.closes {b : Block} (builtIn : b.BuiltIn) :
    ∃ name, closing? b.tag.name = some name ∧
      ∀ closer : TagToken, closer.Bare name → ∃ n, Marks closer b (.closed n) := by
  cases b with
  | loop tag header body otherwise =>
    have opener : tag.name = "for" := builtIn
    exact ⟨"endfor", closing?_eq_some.mpr (.inl ⟨opener, rfl⟩), fun _ bare => ⟨_, .loopEnd bare⟩⟩
  | choice tag closed condition nodes otherwise =>
    have opener : tag.name = "if" := builtIn
    exact ⟨"endif", closing?_eq_some.mpr (.inr ⟨opener, rfl⟩), fun _ bare => ⟨_, .choiceEnd bare⟩⟩
  | custom => exact absurd builtIn id

namespace Parse
variable {o : Options} {p q : Parse}

theorem Advances.tags_eq {token : Token} (advances : p.Advances o token q) (builtIn : p.BuiltIn) :
    q.tags = openAfter p.tags token := by
  cases advances with
  | adds leaf => rw [add_tags, leaf.openAfter]
  | opens opens => rw [opens.openAfter]; rfl
  | stays top marks =>
    rw [marks.openAfter_still]
    simp [tags, top, (Block.marks_still marks).1]
  | @closes t b n rest top marks =>
    obtain ⟨mine, -⟩ := builtIn.of_top top
    have waiting : p.tags = b.tag :: rest.map Block.tag := by simp [tags, top]
    rw [add_tags, waiting, marks.openAfter_closed mine]
    rfl

theorem Reads.tags_eq {ts : List Token} (reads : p.Reads o ts q) (builtIn : p.BuiltIn) :
    q.tags = ts.foldl openAfter p.tags := by
  induction reads with
  | nil p => rfl
  | cons advances _ ih =>
    rw [List.foldl_cons, ← advances.tags_eq builtIn]
    exact ih (advances.builtIn builtIn)

end Parse

/-- The tokens are those of a template but for the closing tags of the open blocks. -/
def LeavesOpen (o : Options) (tokens : List Token) : List TagToken → Prop
  | [] => ∃ nodes, parseTokens .builtins o tokens = .ok nodes
  | opener :: _ => parseTokens .builtins o tokens = .error opener.neverClosed

variable {o : Options}

theorem leavesOpen_of_read {tokens : List Token} {p : Parse}
    (read : Parse.start.read .builtins o tokens = .ok p) : LeavesOpen o tokens p.tags := by
  have parsed : parseTokens .builtins o tokens = p.finish := by
    rw [parseTokens_eq, read]
    rfl
  rw [Parse.finish_eq] at parsed
  cases waiting : p.tags with
  | nil =>
    rw [waiting] at parsed
    exact ⟨_, parsed⟩
  | cons opener others =>
    rw [waiting] at parsed
    exact parsed

theorem unclosed_innermost {ts : List Token} {text : String} {span : Span}
    (failed : parseTokens .builtins o ts = .error (.notClosed text span)) :
    ∃ opener others name, openTags ts = opener :: others ∧
      (text = opener.text ∧ span = opener.span) ∧ closing? opener.name = some name ∧
      ∀ closer : TagToken, closer.Bare name → LeavesOpen o (ts ++ [.tag closer]) others := by
  rw [parseTokens_eq] at failed
  -- No token fails in this way, so all were read and the end failed, at the block on top.
  cases read : Parse.start.read .builtins o ts with
  | error e =>
    rw [read] at failed
    cases failed
    obtain ⟨token, -, refused⟩ := Parse.read_fails _ ts _ read
    cases refused
  | ok p =>
    rw [read] at failed
    have reads := (Parse.read_eq_ok Parse.start_builtIn).mp read
    have waiting : p.tags = openTags ts := reads.tags_eq Parse.start_builtIn
    have builtIn := reads.builtIn Parse.start_builtIn
    obtain ⟨nodes, blocks⟩ := p
    cases blocks with
    | nil => cases failed
    | cons b rest =>
      cases failed
      obtain ⟨mine, -⟩ := builtIn.of_top rfl
      obtain ⟨name, closable, closes⟩ := mine.closes
      refine ⟨b.tag, rest.map Block.tag, name, waiting.symm, ⟨rfl, rfl⟩, closable, ?_⟩
      intro closer bare
      obtain ⟨n, marks⟩ := closes closer bare
      have whole := reads.trans (.one (.closes rfl marks))
      have left := leavesOpen_of_read ((Parse.read_eq_ok Parse.start_builtIn).mpr whole)
      rwa [Parse.add_tags] at left

/-- Tokens that follow do not change what has been read: the nodes of a template stay in front, an
    error stays the error. Where blocks are open the innermost one is named, and its closing tag
    leaves the blocks around it as they were. -/
theorem parse_left_to_right (o : Options) (ts us : List Token) :
    (∀ nodes, parseTokens .builtins o ts = .ok nodes →
      parseTokens .builtins o (ts ++ us) = (parseTokens .builtins o us).map (nodes ++ ·)) ∧
    (∀ e, parseTokens .builtins o ts = .error e → (∀ text span, e ≠ .notClosed text span) →
      parseTokens .builtins o (ts ++ us) = .error e) ∧
    (∀ text span, parseTokens .builtins o ts = .error (.notClosed text span) →
      ∃ opener others name, openTags ts = opener :: others ∧
        (text = opener.text ∧ span = opener.span) ∧ closing? opener.name = some name ∧
        ∀ closer : TagToken, closer.Bare name → LeavesOpen o (ts ++ [.tag closer]) others) := by
  refine ⟨?_, ?_, ?_⟩
  · intro nodes parsed
    exact parseTokens_append parsed us
  · intro e failed refused
    exact parseTokens_append_error failed refused us
  · intro text span failed
    exact unclosed_innermost failed

def tagNamed (name arguments : String) : TagToken := ⟨name, arguments, 0, ⟨0, 0⟩, name⟩

theorem parse_left_to_right_nested :
    let loop := tagNamed "for" "x in xs"
    let choice := tagNamed "if" "x"
    let closer := tagNamed "endif" ""
    let leave := tagNamed "break" ""
    let empty := tagNamed "if" ""
    let ts : List Token := [.tag loop, .tag choice]
    parseTokens .builtins default (.tag leave :: ts) = .error choice.neverClosed ∧
      parseTokens .builtins default (.tag empty :: ts) = .error empty.illegal ∧
      openTags ts = [choice, loop] ∧
      parseTokens .builtins default (ts ++ [.tag closer]) = .error loop.neverClosed := by
  intro loop choice closer leave empty ts
  have collection : ((tagNamed "for" "x in xs").read (readLoop ':' false)).isOk = true := by
    decide +kernel
  have condition : ((tagNamed "if" "x").read readCondition).isOk = true := by decide +kernel
  obtain ⟨_, collection⟩ := exists_eq_ok collection
  obtain ⟨_, condition⟩ := exists_eq_ok condition
  have reads : Parse.start.Reads default ts _ :=
    .cons (.opens (.loop rfl collection)) (.one (.opens (.choice rfl condition)))
  have failed : parseTokens .builtins default ts = .error choice.neverClosed :=
    leavesOpen_of_read ((Parse.read_eq_ok Parse.start_builtIn).mpr reads)
  have waiting : openTags ts = [choice, loop] := rfl
  refine ⟨?_, ?_, waiting, ?_⟩
  · have parsed : parseTokens .builtins default [.tag leave] = .ok [.leave leave.span] := rfl
    have later := (parse_left_to_right default [.tag leave] ts).1 _ parsed
    rw [failed] at later
    exact later
  · have refused : parseTokens .builtins default [.tag empty] = .error empty.illegal := rfl
    have other : ∀ text span, empty.illegal ≠ .notClosed text span := by simp [TagToken.illegal]
    exact (parse_left_to_right default [.tag empty] ts).2.1 _ refused other
  · obtain ⟨opener, others, name, found, -, closable, left⟩ :=
      (parse_left_to_right default ts []).2.2 _ _ failed
    obtain ⟨rfl, rfl⟩ := List.cons.inj (waiting.symm.trans found)
    obtain rfl : "endif" = name := Option.some.inj closable
    exact left closer ⟨rfl, rfl⟩

end Templating
