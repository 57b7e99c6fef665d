import Templating.Proofs.Template.Nesting
import Templating.Template.Rendering

/-!
What holds of the rendering of every template. A property of tasks that each kind of node hands
on from its parts to itself holds of the whole template: the induction over the nesting of nodes
is done here, once, and what is left to each property is one obligation for each kind of node.
-/
namespace Templating

def sequence (first rest : Task Unit) : Task Unit := do
  Task.checkTime
  first
  let s ← Task.state
  if s.stopped then pure () else rest

def branch (condition : Condition) (body rest : Task Unit) : Task Unit := do
  if ← condition.evaluate then body else rest

/-- Nodes that fit hand on `T` from their parts to themselves. -/
structure RenderClosed (T : Task Unit → Prop) (fits : Node → Prop) : Prop where
  nothing : T (pure ())
  sequence : ∀ first rest, T first → T rest → T (sequence first rest)
  text : ∀ text, T (Task.write text)
  output : ∀ value span, fits (.output value span) → T (renderOutput value)
  loop : ∀ header body otherwise span, fits (.loop header body otherwise span) →
    ∀ inside instead, T inside → T instead → T (renderLoop header inside instead)
  choice : ∀ branches otherwise span, fits (.choice branches otherwise span) →
    ∀ taken ∈ branches, ∀ body rest, T body → T rest → T (branch taken.1 body rest)
  assign : ∀ name value span, fits (.assign name value span) → T (renderAssign name value)
  increment : ∀ name span, fits (.increment name span) → T (count name 1 true)
  decrement : ∀ name span, fits (.decrement name span) → T (count name (-1) false)
  leave : T (Task.modify fun s => { s with breaking := true })
  next : T (Task.modify fun s => { s with continuing := true })
  custom : ∀ c bodies span, fits (.custom c bodies span) →
    ∀ parts, (∀ part ∈ parts, T part) → T (c.render parts)

variable {T : Task Unit → Prop} {fits : Node → Prop}

mutual

theorem Node.render_closed (closed : RenderClosed T fits) :
    ∀ n : Node, (∀ m ∈ n.preorder, fits m) → T n.render
  | .text text _, _ => closed.text text
  | .output value span, all => closed.output value span (all _ (mem_preorder_self _))
  | .loop header body otherwise span, all => by
    have self := all _ (mem_preorder_self _)
    simp only [Node.preorder, List.forall_mem_cons, List.forall_mem_append] at all
    exact closed.loop header body otherwise span self _ _ (renderAll_closed closed body all.2.1)
      (renderAll_closed closed otherwise all.2.2)
  | .choice branches otherwise span, all => by
    have self := all _ (mem_preorder_self _)
    simp only [Node.preorder, List.forall_mem_cons, List.forall_mem_append] at all
    exact renderBranches_closed closed branches (closed.choice branches otherwise span self)
      all.2.1 (renderAll_closed closed otherwise all.2.2)
  | .assign name value span, all => closed.assign name value span (all _ (mem_preorder_self _))
  | .increment name span, all => closed.increment name span (all _ (mem_preorder_self _))
  | .decrement name span, all => closed.decrement name span (all _ (mem_preorder_self _))
  | .leave _, _ => closed.leave
  | .next _, _ => closed.next
  | .custom c bodies span, all => by
    have self := all _ (mem_preorder_self _)
    simp only [Node.preorder, List.forall_mem_cons] at all
    exact closed.custom c bodies span self _ (renderBodies_closed closed bodies all.2)
termination_by structural n => n

theorem renderAll_closed (closed : RenderClosed T fits) :
    ∀ nodes : List Node, (∀ m ∈ preorderAll nodes, fits m) → T (renderAll nodes)
  | [], _ => closed.nothing
  | n :: rest, all => by
    simp only [preorderAll, List.forall_mem_append] at all
    have first := Node.render_closed closed n all.1
    have later := renderAll_closed closed rest all.2
    exact closed.sequence _ _ first later
termination_by structural nodes => nodes

theorem renderBranches_closed (closed : RenderClosed T fits) {otherwise : Task Unit} :
    ∀ branches : List (Condition × List Node),
      (∀ taken ∈ branches, ∀ body rest, T body → T rest → T (branch taken.1 body rest)) →
      (∀ m ∈ preorderBranches branches, fits m) → T otherwise →
      T (renderBranches otherwise branches)
  | [], _, _, last => last
  | (condition, nodes) :: rest, taken, all, last => by
    simp only [preorderBranches, List.forall_mem_append] at all
    simp only [List.forall_mem_cons] at taken
    exact taken.1 _ _ (renderAll_closed closed nodes all.1)
      (renderBranches_closed closed rest taken.2 all.2 last)
termination_by structural branches => branches

theorem renderBodies_closed (closed : RenderClosed T fits) :
    ∀ bodies : List (List Node), (∀ m ∈ preorderBodies bodies, fits m) →
      ∀ part ∈ renderBodies bodies, T part
  | [], _ => by simp [renderBodies]
  | nodes :: rest, all => by
    simp only [preorderBodies, List.forall_mem_append] at all
    simp only [renderBodies, List.forall_mem_cons]
    exact ⟨renderAll_closed closed nodes all.1, renderBodies_closed closed rest all.2⟩
termination_by structural bodies => bodies

end

end Templating
