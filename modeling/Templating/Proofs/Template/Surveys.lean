import Templating.Proofs.Template.FreeNames
import Templating.Template.Survey

namespace Templating

/-- Names that only the survey takes for bound where they are looked up. -/
def Node.hidden : Node → List String
  | .loop header _ otherwise _ =>
    LoopHeader.argumentScope.filter (· ∈ rootsOf [header.collection])
      ++ header.blockScope.filter (· ∈ freeAll otherwise)
  | _ => []

def hiddenNames (nodes : List Node) : List String := (preorderAll nodes).flatMap Node.hidden

namespace Survey

/-- A survey inside `scope` has come across these names and declarations. -/
structure Finds (hidden scope names declared : List String) (s t : Survey) : Prop where
  kept : s.found ⊆ t.found
  declares : ∀ name, name ∈ t.declared ↔ name ∈ s.declared ∨ name ∈ declared
  finds : ∀ name ∈ names, name ∈ scope ∨ name ∈ hidden ∨ name ∈ t.declared ∨ name ∈ t.found

namespace Finds
variable {hidden scope names more declared later bound : List String} {s t u : Survey}

theorem refl (s : Survey) : Finds hidden scope [] [] s s := ⟨fun _ h => h, by simp, by simp⟩

theorem mono (h : Finds hidden scope names declared s t) (sub : more ⊆ names) :
    Finds hidden scope more declared s t :=
  { h with finds := fun name member => h.finds name (sub member) }

theorem trans (first : Finds hidden scope names declared s t)
    (second : Finds hidden scope more later t u) :
    Finds hidden scope (names ++ more) (declared ++ later) s u where
  kept := fun _ member => second.kept (first.kept member)
  declares name := by rw [second.declares, first.declares, List.mem_append, or_assoc]
  finds name member := by
    cases List.mem_append.mp member with
    | inr member => exact second.finds name member
    | inl member =>
      rcases first.finds name member with inside | unseen | before | found
      · exact .inl inside
      · exact .inr (.inl unseen)
      · exact .inr (.inr (.inl ((second.declares name).mpr (.inl before))))
      · exact .inr (.inr (.inr (second.kept found)))

theorem leave (h : Finds hidden (scope ++ bound) names declared s t)
    (unseen : ∀ name ∈ bound, name ∈ names → name ∈ hidden) :
    Finds hidden scope names declared s t := by
  refine { h with finds := fun name member => ?_ }
  rcases h.finds name member with inside | other
  · cases List.mem_append.mp inside with
    | inl outer => exact .inl outer
    | inr mine => exact .inr (.inl (unseen name mine member))
  · exact .inr other

theorem narrow (h : Finds hidden (scope ++ bound) names declared s t) :
    Finds hidden scope (without names bound) declared s t := by
  refine (h.mono fun name member => (mem_without.mp member).1).leave fun name mine member => ?_
  exact absurd mine (mem_without.mp member).2

end Finds

theorem addRoot_finds (hidden scope : List String) (s : Survey) (root : String) :
    Finds hidden scope [root] [] s (s.addRoot scope root) := by
  unfold addRoot
  split
  · rename_i known
    refine ⟨fun _ h => h, by simp, fun name member => ?_⟩
    rw [List.mem_singleton.mp member]
    simp only [Bool.or_eq_true, List.contains_iff_mem, or_assoc] at known
    exact known.imp_right .inr
  · exact ⟨List.subset_append_left _ _, by simp, by simp⟩

theorem addArguments_finds (hidden scope : List String) (s : Survey) (arguments : List Argument) :
    Finds hidden scope (rootsOf arguments) [] s (s.addArguments scope arguments) := by
  unfold addArguments rootsOf
  generalize arguments.flatMap (·.expr.roots) = roots
  induction roots generalizing s with
  | nil => exact .refl s
  | cons root rest ih => exact (addRoot_finds hidden scope s root).trans (ih _)

theorem declare_finds (hidden scope : List String) (s : Survey) (names : List String) :
    Finds hidden scope [] names s (s.declare names) := ⟨fun _ h => h, by simp [declare], by simp⟩

theorem loopArguments_finds {header : LoopHeader} {hidden : List String} (scope : List String)
    (s : Survey)
    (unseen : ∀ name ∈ LoopHeader.argumentScope, name ∈ rootsOf [header.collection] →
      name ∈ hidden) :
    Finds hidden scope (rootsOf [header.collection]
        ++ without (rootsOf (givenValues header.modifiers)) LoopHeader.argumentScope) [] s
      (s.addArguments (scope ++ LoopHeader.argumentScope) header.arguments) := by
  refine ((addArguments_finds hidden _ s header.arguments).mono fun name member => ?_).leave
    fun name mine member => ?_
  · rw [LoopHeader.arguments, ← List.singleton_append, rootsOf_append]
    refine List.mem_append.mpr ((List.mem_append.mp member).imp_right fun read => ?_)
    exact (mem_without.mp read).1
  · refine unseen name mine ((List.mem_append.mp member).resolve_right fun read => ?_)
    exact (mem_without.mp read).2 mine

end Survey

open Survey

theorem surveyAll_append (ms ns : List Node) (scope : List String) (s : Survey) :
    surveyAll (ms ++ ns) scope s = surveyAll ns scope (surveyAll ms scope s) := by
  induction ms generalizing s with
  | nil => rfl
  | cons m rest ih => exact ih _

theorem surveyBranches_eq (branches : List (Condition × List Node)) (scope : List String)
    (s : Survey) :
    surveyBranches branches scope s = surveyAll (branches.flatMap (·.2)) scope s := by
  induction branches generalizing s with
  | nil => rfl
  | cons branch rest ih =>
    rw [List.flatMap_cons, surveyAll_append]
    exact ih _

theorem surveyBodies_eq (bodies : List (List Node)) (scope : List String) (s : Survey) :
    surveyBodies bodies scope s = surveyAll bodies.flatten scope s := by
  induction bodies generalizing s with
  | nil => rfl
  | cons nodes rest ih =>
    rw [List.flatten_cons, surveyAll_append]
    exact ih _

theorem Survey.declare_nil (s : Survey) : s.declare [] = s :=
  congrArg (Survey.mk · s.found) (List.append_nil _)

/-- A survey visits all nodes in one way: the arguments of a node under its argument scope, its
    children under its block scope, and then what it declares. -/
theorem Node.survey_eq (n : Node) (scope : List String) (s : Survey) :
    n.survey scope s =
      (surveyAll n.children (scope ++ n.blockScope)
        (s.addArguments (scope ++ n.argumentScope) n.arguments)).declare n.declarations := by
  cases n with
  | loop | choice | custom =>
    simp only [survey, children, blockScope, argumentScope, arguments, declarations,
      surveyAll_append, surveyBranches_eq, surveyBodies_eq, Survey.declare_nil, List.append_nil]
  | output | assign =>
    simp only [survey, argumentScope, arguments, declarations, Survey.declare_nil, List.append_nil]
    rfl
  | _ => exact (Survey.declare_nil s).symm

variable {hidden : List String}

mutual

theorem Node.survey_finds : ∀ (n : Node) (scope : List String) (s : Survey),
    (∀ m ∈ n.preorder, m.hidden ⊆ hidden) →
      Finds hidden scope n.free (n.preorder.flatMap Node.declarations) s (n.survey scope s)
  | .loop header body otherwise span, scope, s, sub => by
    simp only [Node.preorder, List.forall_mem_cons, List.forall_mem_append] at sub
    have unseen : ∀ name ∈ LoopHeader.argumentScope, name ∈ rootsOf [header.collection] →
        name ∈ hidden := fun name mine read =>
      sub.1 (List.mem_append_left _ (List.mem_filter.mpr ⟨mine, decide_eq_true read⟩))
    have unbound : ∀ name ∈ header.blockScope, name ∈ freeAll otherwise → name ∈ hidden :=
      fun name mine read =>
        sub.1 (List.mem_append_right _ (List.mem_filter.mpr ⟨mine, decide_eq_true read⟩))
    have inside := fun u => (surveyAll_finds body (scope ++ header.blockScope) u sub.2.1).narrow
    have instead := fun u =>
      (surveyAll_finds otherwise (scope ++ header.blockScope) u sub.2.2).leave unbound
    rw [Node.preorder, List.flatMap_cons, List.flatMap_append]
    exact ((loopArguments_finds scope s unseen).trans (inside _)).trans (instead _)
  | .choice branches otherwise span, scope, s, sub => by
    simp only [Node.preorder, List.forall_mem_cons, List.forall_mem_append] at sub
    have tests := addArguments_finds hidden scope s (branches.flatMap (·.1.arguments))
    have taken := fun u => surveyBranches_finds branches scope u sub.2.1
    have instead := fun u => surveyAll_finds otherwise scope u sub.2.2
    rw [Node.preorder, List.flatMap_cons, List.flatMap_append]
    exact (tests.trans (taken _)).trans (instead _)
  | .custom c bodies span, scope, s, sub => by
    simp only [Node.preorder, List.forall_mem_cons] at sub
    have given := (addArguments_finds hidden (scope ++ c.argumentScope) s c.arguments).narrow
    have inside := fun u => (surveyBodies_finds bodies (scope ++ c.blockScope) u sub.2).narrow
    have all := (given.trans (inside _)).trans (declare_finds hidden scope _ c.declarations)
    refine { all.mono (List.nil_subset _) with declares := fun name => ?_ }
    -- The survey declares the names of the node last, the order of nodes has it first.
    refine (all.declares name).trans (or_congr_right ?_)
    simp only [Node.preorder, List.flatMap_cons, Node.declarations, List.mem_append, or_comm,
      List.nil_append]
  | .text .., _, s, _ => .refl s
  | .output value _, scope, s, _ => addArguments_finds hidden scope s value.toList
  | .assign name value _, scope, s, _ => by
    have read := addArguments_finds hidden scope s [value]
    have bound := read.trans (declare_finds hidden scope _ [name])
    exact bound.mono (List.subset_append_left _ _)
  | .increment .., _, s, _ => .refl s
  | .decrement .., _, s, _ => .refl s
  | .leave _, _, s, _ => .refl s
  | .next _, _, s, _ => .refl s
termination_by structural n => n

theorem surveyAll_finds : ∀ (nodes : List Node) (scope : List String) (s : Survey),
    (∀ m ∈ preorderAll nodes, m.hidden ⊆ hidden) →
      Finds hidden scope (freeAll nodes) (assignedNames nodes) s (surveyAll nodes scope s)
  | [], _, s, _ => .refl s
  | n :: rest, scope, s, sub => by
    simp only [preorderAll, List.forall_mem_append] at sub
    have first := Node.survey_finds n scope s sub.1
    have later := surveyAll_finds rest scope (n.survey scope s) sub.2
    have fewer : without (freeAll rest) n.certain ⊆ freeAll rest := fun _ member =>
      (mem_without.mp member).1
    rw [assignedNames, preorderAll, List.flatMap_append]
    exact first.trans (later.mono fewer)
termination_by structural nodes => nodes

theorem surveyBranches_finds :
    ∀ (branches : List (Condition × List Node)) (scope : List String) (s : Survey),
      (∀ m ∈ preorderBranches branches, m.hidden ⊆ hidden) →
        Finds hidden scope (freeBranches branches)
          ((preorderBranches branches).flatMap Node.declarations) s
          (surveyBranches branches scope s)
  | [], _, s, _ => .refl s
  | (_, nodes) :: rest, scope, s, sub => by
    simp only [preorderBranches, List.forall_mem_append] at sub
    rw [preorderBranches, List.flatMap_append]
    exact (surveyAll_finds nodes scope s sub.1).trans
      (surveyBranches_finds rest scope (surveyAll nodes scope s) sub.2)
termination_by structural branches => branches

theorem surveyBodies_finds : ∀ (bodies : List (List Node)) (scope : List String) (s : Survey),
    (∀ m ∈ preorderBodies bodies, m.hidden ⊆ hidden) →
      Finds hidden scope [] ((preorderBodies bodies).flatMap Node.declarations) s
        (surveyBodies bodies scope s)
  | [], _, s, _ => .refl s
  | nodes :: rest, scope, s, sub => by
    simp only [preorderBodies, List.forall_mem_append] at sub
    rw [preorderBodies, List.flatMap_append]
    exact ((surveyAll_finds nodes scope s sub.1).mono (List.nil_subset _)).trans
      (surveyBodies_finds rest scope (surveyAll nodes scope s) sub.2)
termination_by structural bodies => bodies

end

theorem free_reported {nodes : List Node} {name : String} (free : name ∈ freeAll nodes) :
    name ∈ globalVariables nodes ∨ name ∈ assignedNames nodes ∨ name ∈ hiddenNames nodes := by
  have finds := surveyAll_finds nodes [] .empty fun n member _ mine =>
    List.mem_flatMap.mpr ⟨n, member, mine⟩
  rcases finds.finds name free with bound | unseen | declared | found
  · exact absurd bound List.not_mem_nil
  · exact .inr (.inr unseen)
  · exact .inr (.inl (((finds.declares name).mp declared).resolve_left List.not_mem_nil))
  · exact .inl found

end Templating
