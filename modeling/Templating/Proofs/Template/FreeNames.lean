import Templating.Proofs.Expr.Locality
import Templating.Proofs.Template.Nesting

namespace Templating

inductive NodeKind where
  | text
  | output
  | loop
  | choice
  | assign
  | counter
  | jump
  | custom
  deriving DecidableEq

def Node.kind : Node → NodeKind
  | .text .. => .text
  | .output .. => .output
  | .loop .. => .loop
  | .choice .. => .choice
  | .assign .. => .assign
  | .increment .. | .decrement .. => .counter
  | .leave _ | .next _ => .jump
  | .custom .. => .custom

def MadeOf (kinds : List NodeKind) (nodes : List Node) : Prop :=
  ∀ n ∈ preorderAll nodes, n.kind ∈ kinds

instance (kinds : List NodeKind) (nodes : List Node) : Decidable (MadeOf kinds nodes) :=
  inferInstanceAs (Decidable (∀ n ∈ preorderAll nodes, n.kind ∈ kinds))

theorem MadeOf.mono {kinds more : List NodeKind} {nodes : List Node} (made : MadeOf kinds nodes)
    (sub : kinds ⊆ more) : MadeOf more nodes := fun n member => sub (made n member)

def without (names removed : List String) : List String := names.filter (· ∉ removed)

theorem mem_without {names removed : List String} {name : String} :
    name ∈ without names removed ↔ name ∈ names ∧ name ∉ removed := by
  simp only [without, List.mem_filter, decide_eq_true_eq]

theorem subset_of_without {names removed more : List String} (h : without names removed ⊆ more) :
    names ⊆ removed ++ more := by
  intro name member
  by_cases gone : name ∈ removed
  · exact List.mem_append_left _ gone
  · exact List.mem_append_right _ (h (mem_without.mpr ⟨member, gone⟩))

mutual

def Node.certain : Node → List String
  | .assign name _ _ => [name]
  | .choice branches otherwise _ => certainBranches (certainAll otherwise) branches
  | _ => []
termination_by structural n => n

def certainAll : List Node → List String
  | [] => []
  | n :: rest => certainAll rest ++ n.certain
termination_by structural nodes => nodes

def certainBranches (last : List String) : List (Condition × List Node) → List String
  | [] => last
  | (_, nodes) :: rest => (certainAll nodes).filter (· ∈ certainBranches last rest)
termination_by structural branches => branches

end

mutual

def Node.free : Node → List String
  | .output value _ => rootsOf value.toList
  | .loop header body otherwise _ =>
    rootsOf [header.collection]
      ++ without (rootsOf (givenValues header.modifiers)) LoopHeader.argumentScope
      ++ without (freeAll body) header.blockScope ++ freeAll otherwise
  | .choice branches otherwise _ =>
    rootsOf (branches.flatMap (·.1.arguments)) ++ freeBranches branches ++ freeAll otherwise
  | .assign _ value _ => rootsOf [value]
  | _ => []
termination_by structural n => n

def freeAll : List Node → List String
  | [] => []
  | n :: rest => n.free ++ without (freeAll rest) n.certain
termination_by structural nodes => nodes

def freeBranches : List (Condition × List Node) → List String
  | [] => []
  | (_, nodes) :: rest => freeAll nodes ++ freeBranches rest
termination_by structural branches => branches

end

end Templating
