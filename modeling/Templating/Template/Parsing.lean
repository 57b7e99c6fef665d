import Templating.Options
import Templating.Template.TagSet

/-!
From tokens to nodes, in one pass from left to right. Open blocks wait on a stack, the innermost
on top, each with the nodes it has so far.
-/
namespace Templating

/-- An open block. Node lists are kept newest first. -/
inductive Block where
  | loop (tag : TagToken) (header : LoopHeader) (body : List Node)
      (otherwise : Option (List Node))
  | choice (tag : TagToken) (closed : List (Condition × List Node)) (condition : Condition)
      (nodes : List Node) (otherwise : Option (List Node))
  | custom (tag : TagToken) (c : Custom) (closed : List (List Node)) (nodes : List Node)
      (moves : List (String × Move)) (later : List (List (String × Move)))

namespace Block

def tag : Block → TagToken
  | .loop tag _ _ _ => tag
  | .choice tag _ _ _ _ => tag
  | .custom tag _ _ _ _ _ => tag

def add (n : Node) : Block → Block
  | .loop tag header body none => .loop tag header (n :: body) none
  | .loop tag header body (some nodes) => .loop tag header body (some (n :: nodes))
  | .choice tag closed condition nodes none => .choice tag closed condition (n :: nodes) none
  | .choice tag closed condition nodes (some others) =>
    .choice tag closed condition nodes (some (n :: others))
  | .custom tag c closed nodes moves later => .custom tag c closed (n :: nodes) moves later

/-- Whether a tag of this name belongs to the block itself. -/
def claims (name : String) : Block → Bool
  | .loop .. => name = "else" || name = "endfor"
  | .choice .. => name = "elsif" || name = "else" || name = "endif"
  | .custom _ _ _ _ moves _ => moves.any (·.1 == name)

def branches (closed : List (Condition × List Node)) (condition : Condition)
    (nodes : List Node) : List (Condition × List Node) :=
  ((condition, nodes.reverse) :: closed).reverse

inductive Marked where
  | still (b : Block)
  | closed (n : Node)

def mark (t : TagToken) : Block → Except ParseError Marked
  | .loop tag header body otherwise => do
    t.expectNoArguments
    if t.name = "endfor" then
      return .closed (.loop header body.reverse (otherwise.getD []).reverse tag.span)
    else return .still (.loop tag header body (some (otherwise.getD [])))
  | .choice tag closed condition nodes otherwise =>
    if t.name = "endif" then do
      t.expectNoArguments
      return .closed
        (.choice (branches closed condition nodes) (otherwise.getD []).reverse tag.span)
    else if otherwise.isSome then .error t.unexpected
    else if t.name = "elsif" then do
      let next ← t.read readCondition
      return .still (.choice tag ((condition, nodes.reverse) :: closed) next [] none)
    else do
      t.expectNoArguments
      return .still (.choice tag closed condition nodes (some []))
  | .custom tag c closed nodes moves later =>
    let bodies := nodes.reverse :: closed
    match moves.lookup t.name, later with
    | some .next, moves :: later => .ok (.still (.custom tag c bodies [] moves later))
    | _, _ => .ok (.closed (.custom c bodies.reverse tag.span))

end Block

structure Parse where
  nodes : List Node
  blocks : List Block

namespace Parse

def start : Parse := ⟨[], []⟩

def add (p : Parse) (n : Node) : Parse :=
  match p.blocks with
  | [] => { p with nodes := n :: p.nodes }
  | b :: rest => { p with blocks := b.add n :: rest }

def push (p : Parse) (b : Block) : Parse := { p with blocks := b :: p.blocks }

def pushConstruct (p : Parse) (t : TagToken) (construct : Construct) : Parse :=
  match construct.sections with
  | [] => p.add (.custom construct.custom [] t.span)
  | moves :: later => p.push (.custom t construct.custom [] [] moves later)

def openTag (o : Options) (p : Parse) (t : TagToken) : TagKind → Except ParseError Parse
  | .loop => do
    let header ← t.read (readLoop o.separator o.ordered)
    return p.push (.loop t header [] none)
  | .choice => do
    let condition ← t.read readCondition
    return p.push (.choice t [] condition [] none)
  | .assign => do
    let (name, value) ← t.read readAssignment
    return p.add (.assign name value t.span)
  | .increment => do
    let name ← t.read readCounter
    return p.add (.increment name t.span)
  | .decrement => do
    let name ← t.read readCounter
    return p.add (.decrement name t.span)
  | .leave => do
    t.expectNoArguments
    return p.add (.leave t.span)
  | .next => do
    t.expectNoArguments
    return p.add (.next t.span)
  | .custom opening => do
    let construct ← opening t
    return p.pushConstruct t construct

def isBranchOrCloser (name : String) : Bool :=
  name.startsWith "end" || name = "else" || name = "elsif"

def freeTag (tags : TagSet) (o : Options) (p : Parse) (t : TagToken) : Except ParseError Parse :=
  match tags.find? t.name with
  | some kind => p.openTag o t kind
  | none => .error (if isBranchOrCloser t.name then t.unexpected else t.unknown)

def tag (tags : TagSet) (o : Options) (p : Parse) (t : TagToken) : Except ParseError Parse :=
  match p.blocks with
  | [] => p.freeTag tags o t
  | b :: rest =>
    if b.claims t.name then do
      match ← b.mark t with
      | .still b => return { p with blocks := b :: rest }
      | .closed n => return { p with blocks := rest }.add n
    else p.freeTag tags o t

def token (tags : TagSet) (o : Options) (p : Parse) : Token → Except ParseError Parse
  | .text t => .ok (p.add (.text t.text t.span))
  | .output t => do
    let value ← t.read
    return p.add (.output value t.span)
  | .tag t => p.tag tags o t

/-- At the end no block may be open; the innermost one is named. -/
def finish (p : Parse) : Except ParseError (List Node) :=
  match p.blocks with
  | [] => .ok p.nodes.reverse
  | b :: _ => .error b.tag.neverClosed

end Parse

def parseTokens (tags : TagSet) (o : Options) (tokens : List Token) :
    Except ParseError (List Node) := do
  let p ← tokens.foldlM (Parse.token tags o) .start
  p.finish

def parse (tags : TagSet) (o : Options) (source : String) : Except ParseError (List Node) :=
  match tokens o.trimming source with
  | .ok ts => parseTokens tags o ts
  | .error e => .error (.lex e)

end Templating
