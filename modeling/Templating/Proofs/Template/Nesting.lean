import Templating.Template.Node

namespace Templating

mutual

def Node.preorder : Node → List Node
  | .loop header body otherwise span =>
    .loop header body otherwise span :: (preorderAll body ++ preorderAll otherwise)
  | .choice branches otherwise span =>
    .choice branches otherwise span :: (preorderBranches branches ++ preorderAll otherwise)
  | .custom c bodies span => .custom c bodies span :: preorderBodies bodies
  | .text text span => [.text text span]
  | .output value span => [.output value span]
  | .assign name value span => [.assign name value span]
  | .increment name span => [.increment name span]
  | .decrement name span => [.decrement name span]
  | .leave span => [.leave span]
  | .next span => [.next span]
termination_by structural n => n

def preorderAll : List Node → List Node
  | [] => []
  | n :: rest => n.preorder ++ preorderAll rest
termination_by structural nodes => nodes

def preorderBranches : List (Condition × List Node) → List Node
  | [] => []
  | (_, nodes) :: rest => preorderAll nodes ++ preorderBranches rest
termination_by structural branches => branches

def preorderBodies : List (List Node) → List Node
  | [] => []
  | nodes :: rest => preorderAll nodes ++ preorderBodies rest
termination_by structural bodies => bodies

end

theorem preorderAll_append (ms ns : List Node) :
    preorderAll (ms ++ ns) = preorderAll ms ++ preorderAll ns := by
  induction ms with
  | nil => rfl
  | cons m rest ih => simp only [List.cons_append, preorderAll, ih, List.append_assoc]

theorem preorderBranches_eq (branches : List (Condition × List Node)) :
    preorderBranches branches = preorderAll (branches.flatMap (·.2)) := by
  induction branches with
  | nil => rfl
  | cons branch rest ih =>
    obtain ⟨condition, nodes⟩ := branch
    simp only [preorderBranches, List.flatMap_cons, preorderAll_append, ih]

theorem preorderBranches_append (branches others : List (Condition × List Node)) :
    preorderBranches (branches ++ others)
      = preorderBranches branches ++ preorderBranches others := by
  simp only [preorderBranches_eq, List.flatMap_append, preorderAll_append]

theorem preorderBodies_eq (bodies : List (List Node)) :
    preorderBodies bodies = preorderAll bodies.flatten := by
  induction bodies with
  | nil => rfl
  | cons nodes rest ih => simp only [preorderBodies, List.flatten_cons, preorderAll_append, ih]

theorem preorder_eq_children (n : Node) : n.preorder = n :: preorderAll n.children := by
  cases n with
  | loop header body otherwise span => simp only [Node.preorder, Node.children, preorderAll_append]
  | choice branches otherwise span =>
    simp only [Node.preorder, Node.children, preorderAll_append, preorderBranches_eq]
  | custom c bodies span => simp only [Node.preorder, Node.children, preorderBodies_eq]
  | _ => rfl

/-- The nodes of a list at every depth: each comes before its children, and these follow in
    their order. -/
inductive Listing : List Node → List Node → Prop where
  | nil : Listing [] []
  | cons {n : Node} {rest inside later : List Node} (children : Listing n.children inside)
      (siblings : Listing rest later) : Listing (n :: rest) (n :: (inside ++ later))

theorem Listing.append {ms ns first later : List Node} (before : Listing ms first)
    (after : Listing ns later) : Listing (ms ++ ns) (first ++ later) := by
  induction before with
  | nil => exact after
  | cons children _ _ ih =>
    rw [List.cons_append, List.cons_append, List.append_assoc]
    exact .cons children ih

mutual

theorem Node.listing_children : ∀ n : Node, Listing n.children (preorderAll n.children)
  | .loop _ body otherwise _ => by
    rw [Node.children, preorderAll_append]
    exact (listing_preorderAll body).append (listing_preorderAll otherwise)
  | .choice branches otherwise _ => by
    rw [Node.children, preorderAll_append]
    exact (listing_branches branches).append (listing_preorderAll otherwise)
  | .custom _ bodies _ => listing_bodies bodies
  | .text .. => .nil
  | .output .. => .nil
  | .assign .. => .nil
  | .increment .. => .nil
  | .decrement .. => .nil
  | .leave _ => .nil
  | .next _ => .nil
termination_by structural n => n

theorem listing_preorderAll : ∀ nodes : List Node, Listing nodes (preorderAll nodes)
  | [] => .nil
  | n :: rest => by
    rw [preorderAll, preorder_eq_children]
    exact .cons n.listing_children (listing_preorderAll rest)
termination_by structural nodes => nodes

theorem listing_branches : ∀ branches : List (Condition × List Node),
    Listing (branches.flatMap (·.2)) (preorderAll (branches.flatMap (·.2)))
  | [] => .nil
  | (_, nodes) :: rest => by
    rw [List.flatMap_cons, preorderAll_append]
    exact (listing_preorderAll nodes).append (listing_branches rest)
termination_by structural branches => branches

theorem listing_bodies : ∀ bodies : List (List Node),
    Listing bodies.flatten (preorderAll bodies.flatten)
  | [] => .nil
  | nodes :: rest => by
    rw [List.flatten_cons, preorderAll_append]
    exact (listing_preorderAll nodes).append (listing_bodies rest)
termination_by structural bodies => bodies

end

/-- There is exactly one listing. -/
theorem listing_iff {nodes listed : List Node} :
    Listing nodes listed ↔ listed = preorderAll nodes := by
  constructor
  · intro h
    induction h with
    | nil => rfl
    | cons _ _ inside later =>
      rw [preorderAll, preorder_eq_children, inside, later, List.cons_append]
  · rintro rfl
    exact listing_preorderAll nodes

theorem mem_preorder_self (n : Node) : n ∈ n.preorder := by
  rw [preorder_eq_children]
  exact List.mem_cons_self ..

def Node.custom? : Node → Option Custom
  | .custom c _ _ => some c
  | _ => none

def Node.counted : Node → List String
  | .increment name _ => [name]
  | .decrement name _ => [name]
  | _ => []

def customs (nodes : List Node) : List Custom := (preorderAll nodes).filterMap Node.custom?

def BuiltIn (nodes : List Node) : Prop := customs nodes = []

def assignedNames (nodes : List Node) : List String :=
  (preorderAll nodes).flatMap Node.declarations

def countedNames (nodes : List Node) : List String := (preorderAll nodes).flatMap Node.counted

end Templating
