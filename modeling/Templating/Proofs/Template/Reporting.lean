import Templating.Proofs.Template.Surveys
import Templating.Proofs.Template.Twins

namespace Templating

def steadyKinds : List NodeKind := [.text, .output, .loop, .choice, .assign]

theorem not_steady : .counter ∉ steadyKinds ∧ .jump ∉ steadyKinds ∧ .custom ∉ steadyKinds := by
  decide

variable {d d' : Object} {known : List String}

mutual

theorem Node.render_twinned (same : ∀ name ∈ known, Object.SameAt name d d') :
    ∀ (n : Node) (layers : List (List String)) (ground : List String),
      (∀ m ∈ n.preorder, m.kind ∈ steadyKinds) → n.free ⊆ layers.flatten ++ ground ++ known →
        Twinned d d' layers ground n.certain n.render
  | .text text _, _, _, _, _ =>
    .of_respects (Task.respects_modify fun s t => (Twin.matching same).write s t text)
  | .output value _, _, _, _, covered =>
    .of_respects ((Twin.matching same).renderOutput_respects covered)
  | .loop header body otherwise _, layers, ground, kinds, covered => by
    simp only [Node.preorder, List.forall_mem_cons, List.forall_mem_append] at kinds
    simp only [Node.free, List.append_subset] at covered
    have inside := renderAll_twinned same body (header.blockScope :: layers) ground kinds.2.1
      (by simpa using subset_of_without covered.1.2)
    have instead := renderAll_twinned same otherwise layers ground kinds.2.2 covered.2
    exact .renderLoop same covered.1.1.1 covered.1.1.2 (inside.weaken (List.nil_subset _))
      (instead.weaken (List.nil_subset _))
  | .choice branches otherwise _, layers, ground, kinds, covered => by
    simp only [Node.preorder, List.forall_mem_cons, List.forall_mem_append] at kinds
    simp only [Node.free, List.append_subset] at covered
    have instead := renderAll_twinned same otherwise layers ground kinds.2.2 covered.2
    exact renderBranches_twinned same branches layers ground kinds.2.1 covered.1.1 covered.1.2
      instead
  | .assign name value _, _, _, _, covered => .renderAssign same name covered
  | .increment .., _, _, kinds, _ => absurd (kinds _ (mem_preorder_self _)) not_steady.1
  | .decrement .., _, _, kinds, _ => absurd (kinds _ (mem_preorder_self _)) not_steady.1
  | .leave _, _, _, kinds, _ => absurd (kinds _ (mem_preorder_self _)) not_steady.2.1
  | .next _, _, _, kinds, _ => absurd (kinds _ (mem_preorder_self _)) not_steady.2.1
  | .custom .., _, _, kinds, _ => absurd (kinds _ (mem_preorder_self _)) not_steady.2.2
termination_by structural n => n

theorem renderAll_twinned (same : ∀ name ∈ known, Object.SameAt name d d') :
    ∀ (nodes : List Node) (layers : List (List String)) (ground : List String),
      MadeOf steadyKinds nodes → freeAll nodes ⊆ layers.flatten ++ ground ++ known →
        Twinned d d' layers ground (certainAll nodes) (renderAll nodes)
  | [], _, _, _, _ => .of_respects (Task.respects_pure ())
  | n :: rest, layers, ground, kinds, covered => by
    simp only [MadeOf, preorderAll, List.forall_mem_append] at kinds
    simp only [freeAll, List.append_subset] at covered
    have first := Node.render_twinned same n layers ground kinds.1 covered.1
    have later := renderAll_twinned same rest layers (n.certain ++ ground) kinds.2
      (by grind [subset_of_without covered.2])
    exact .sequence same first later
termination_by structural nodes => nodes

theorem renderBranches_twinned (same : ∀ name ∈ known, Object.SameAt name d d')
    {last : List String} {otherwise : Task Unit} :
    ∀ (branches : List (Condition × List Node)) (layers : List (List String))
      (ground : List String), (∀ m ∈ preorderBranches branches, m.kind ∈ steadyKinds) →
      rootsOf (branches.flatMap (·.1.arguments)) ⊆ layers.flatten ++ ground ++ known →
      freeBranches branches ⊆ layers.flatten ++ ground ++ known →
      Twinned d d' layers ground last otherwise →
        Twinned d d' layers ground (certainBranches last branches)
          (renderBranches otherwise branches)
  | [], _, _, _, _, _, instead => instead
  | (condition, nodes) :: rest, layers, ground, kinds, tests, covered, instead => by
    simp only [preorderBranches, List.forall_mem_append] at kinds
    simp only [freeBranches, List.append_subset] at covered
    rw [List.flatMap_cons, rootsOf_append, List.append_subset] at tests
    have taken := renderAll_twinned same nodes layers ground kinds.1 covered.1
    have other := renderBranches_twinned same rest layers ground kinds.2 tests.2 covered.2 instead
    refine .branch same tests.1 (taken.weaken ?_) (other.weaken ?_)
    · exact fun name member => (List.mem_filter.mp member).1
    · exact fun name member => of_decide_eq_true (List.mem_filter.mp member).2
termination_by structural branches => branches

end

def Run.withData (r : Run Unit) (data : Object) : Run Unit :=
  { r with state := r.state.withData data }

/-- The same render over data that agree on the free names does the same to the rest of its
    state, as its mode says and with any patience. -/
theorem render_withData (e : Engine) {nodes : List Node} (kinds : MadeOf steadyKinds nodes)
    (same : ∀ name ∈ freeAll nodes, Object.SameAt name d d') (settings : Settings) (store : Store)
    (sink : Sink) (schedule : Schedule) :
    let start := fun data => e.start data settings store sink
    Engine.render nodes (start d') schedule = (Engine.render nodes (start d) schedule).withData d' ∧
      ∀ polls, (renderAll nodes (start d')).runWaiting polls schedule
        = ((renderAll nodes (start d)).runWaiting polls schedule).withData d' := by
  intro start
  have twin : Twin d d' [] [] (start d) (start d') :=
    ⟨rfl, rfl, .nil, by simp [Object.Binds], rfl, rfl⟩
  have twinned := renderAll_twinned same nodes [] [] kinds (by simp)
  have agree := twinned _ _ twin
  have waiting : ∀ polls, (renderAll nodes (start d')).runWaiting polls schedule
      = ((renderAll nodes (start d)).runWaiting polls schedule).withData d' := fun polls =>
    (agree.runWaiting polls schedule).image fun _ _ twin => twin.exchanged
  refine ⟨?_, waiting⟩
  have modes : (start d').modes = (start d).modes := rfl
  simp only [Engine.render, Task.run, modes]
  split
  · exact (agree.runNow schedule).image fun _ _ twin => twin.exchanged
  · exact waiting Task.patience

theorem render_reads_reported (e : Engine) {nodes : List Node} (kinds : MadeOf steadyKinds nodes)
    (reported : ∀ name ∈ globalVariables nodes, Object.SameAt name d d')
    (hidden : ∀ name ∈ hiddenNames nodes, Object.SameAt name d d')
    (unsettled : ∀ name ∈ assignedNames nodes, name ∈ freeAll nodes → Object.SameAt name d d')
    (settings : Settings) (store : Store) (sink : Sink) (schedule : Schedule) :
    let start := fun data => e.start data settings store sink
    Engine.render nodes (start d') schedule = (Engine.render nodes (start d) schedule).withData d' ∧
      ∀ polls, (renderAll nodes (start d')).runWaiting polls schedule
        = ((renderAll nodes (start d)).runWaiting polls schedule).withData d' := by
  refine render_withData e kinds (fun name free => ?_) settings store sink schedule
  rcases free_reported free with found | assigned | unseen
  · exact reported name found
  · exact unsettled name assigned free
  · exact hidden name unseen

theorem assignedNames_eq_nil {nodes : List Node}
    (kinds : MadeOf [.text, .output, .choice, .loop] nodes) : assignedNames nodes = [] := by
  refine List.flatMap_eq_nil_iff.mpr fun n member => ?_
  have kind := kinds n member
  cases n with
  | assign => simp [Node.kind] at kind
  | custom => simp [Node.kind] at kind
  | _ => rfl

theorem hiddenNames_eq_nil {nodes : List Node}
    (kinds : MadeOf [.text, .output, .choice, .assign] nodes) : hiddenNames nodes = [] := by
  refine List.flatMap_eq_nil_iff.mpr fun n member => ?_
  have kind := kinds n member
  cases n with
  | loop => simp [Node.kind] at kind
  | _ => rfl

def written (nodes : List Node) (data : Object) : String :=
  (Engine.render nodes (Engine.start default data default .empty .empty) .empty).state.sink.output

theorem written_eq {nodes : List Node} {r : Run Unit}
    (h : Engine.render nodes (Engine.start default d default .empty .empty) .empty = r)
    (same : Engine.render nodes (Engine.start default d' default .empty .empty) .empty
      = r.withData d') : written nodes d' = written nodes d := by
  rw [written, same, written, h]
  rfl

def loopOver (collection : String) (body otherwise : List Node) : Node :=
  .loop ⟨"x", ⟨.path collection [], collection, ⟨0, 0⟩⟩, [], false⟩ body otherwise ⟨0, 0⟩

def shown (name : String) : Node := .output (some ⟨.path name [], name, ⟨0, 0⟩⟩) ⟨0, 0⟩

def assigned (name : String) (value : Expr) : Node := .assign name ⟨value, "", ⟨0, 0⟩⟩ ⟨0, 0⟩

def onlyIf (name : String) (body otherwise : List Node) : Node :=
  .choice [(.test ⟨.path name [], name, ⟨0, 0⟩⟩ none, body)] otherwise ⟨0, 0⟩

/-- What a template of texts, outputs, choices and loops does depends on the names that are
    reported, on those hidden from the survey, and on nothing else in the data. -/
theorem loops_read_reported (e : Engine) {nodes : List Node}
    (kinds : MadeOf [.text, .output, .choice, .loop] nodes)
    (reported : ∀ name ∈ globalVariables nodes, Object.SameAt name d d')
    (hidden : ∀ name ∈ hiddenNames nodes, Object.SameAt name d d') (settings : Settings)
    (store : Store) (sink : Sink) (schedule : Schedule) :
    let start := fun data => e.start data settings store sink
    Engine.render nodes (start d') schedule = (Engine.render nodes (start d) schedule).withData d' ∧
      ∀ polls, (renderAll nodes (start d')).runWaiting polls schedule
        = ((renderAll nodes (start d)).runWaiting polls schedule).withData d' := by
  have unsettled : ∀ name ∈ assignedNames nodes, name ∈ freeAll nodes →
      Object.SameAt name d d' := by
    rw [assignedNames_eq_nil kinds]
    nofun
  exact render_reads_reported e (kinds.mono (by decide)) reported hidden unsettled settings store
    sink schedule

/-- `{% for x in xs limit: n %}{{ forloop.index }}{{ x }}{% else %}{{ x }}{% endfor %}`, where `x`
    is hidden and `forloop` is bound by the loop. -/
theorem loops_read_reported_limited :
    let header : LoopHeader := ⟨"x", ⟨.path "xs" [], "xs", ⟨0, 0⟩⟩,
      [⟨"limit", some ⟨.path "n" [], "n", ⟨0, 0⟩⟩, ⟨0, 0⟩⟩], false⟩
    let index : Argument := ⟨.path "forloop" [.name "index"], "forloop.index", ⟨0, 0⟩⟩
    let nodes : List Node :=
      [.loop header [.output (some index) ⟨0, 0⟩, shown "x"] [shown "x"] ⟨0, 0⟩]
    let data := Object.ofList
      [("xs", .array [.str "a", .str "b", .str "c"]), ("n", .int 2), ("x", .str "d")]
    MadeOf [.text, .output, .choice, .loop] nodes ∧ globalVariables nodes = ["xs", "n"] ∧
      hiddenNames nodes = ["x"] ∧ written nodes data = "1a2b" ∧
      written nodes (data.insert "forloop" .nil) = "1a2b" := by
  intro header index nodes data
  have kinds : MadeOf [.text, .output, .choice, .loop] nodes := by decide
  have reported : ∀ name ∈ globalVariables nodes, name ≠ "forloop" ∧ name ≠ "size" := by decide
  have hidden : ∀ name ∈ hiddenNames nodes, name ≠ "forloop" ∧ name ≠ "size" := by decide
  have wrote : written nodes data = "1a2b" := by decide +kernel
  have equal := loops_read_reported default kinds
    (fun name member => .insert (reported name member).1 (reported name member).2 data .nil)
    (fun name member => .insert (hidden name member).1 (hidden name member).2 data .nil)
    default .empty .empty .empty
  exact ⟨kinds, by decide, by decide, wrote, (written_eq rfl equal.1).trans wrote⟩

theorem hidden_names_are_read :
    let instead : List Node := [loopOver "xs" [] [shown "x"]]
    let again : List Node := [loopOver "continue" [shown "x"] []]
    MadeOf [.text, .output, .choice, .loop] instead ∧ globalVariables instead = ["xs"] ∧
      Object.SameAt "xs" .empty (.single "x" (.str "a")) ∧
      written instead .empty = "" ∧ written instead (.single "x" (.str "a")) = "a" ∧
      MadeOf [.text, .output, .choice, .loop] again ∧ globalVariables again = [] ∧
      written again .empty = "" ∧ written again (.single "continue" (.array [.int 1])) = "1" :=
  ⟨by decide, by decide, .insert (by decide) (by decide) .empty (.str "a"), by decide +kernel,
    by decide +kernel, by decide, by decide, by decide +kernel, by decide +kernel⟩

/-- What a template of texts, outputs, choices and assignments does depends on the names that
    are reported and on those that are assigned somewhere but may be looked up before. -/
theorem assignments_read_reported (e : Engine) {nodes : List Node}
    (kinds : MadeOf [.text, .output, .choice, .assign] nodes)
    (reported : ∀ name ∈ globalVariables nodes, Object.SameAt name d d')
    (unsettled : ∀ name ∈ assignedNames nodes, name ∈ freeAll nodes → Object.SameAt name d d')
    (settings : Settings) (store : Store) (sink : Sink) (schedule : Schedule) :
    let start := fun data => e.start data settings store sink
    Engine.render nodes (start d') schedule = (Engine.render nodes (start d) schedule).withData d' ∧
      ∀ polls, (renderAll nodes (start d')).runWaiting polls schedule
        = ((renderAll nodes (start d)).runWaiting polls schedule).withData d' := by
  have hidden : ∀ name ∈ hiddenNames nodes, Object.SameAt name d d' := by
    rw [hiddenNames_eq_nil kinds]
    nofun
  exact render_reads_reported e (kinds.mono (by decide)) reported hidden unsettled settings store
    sink schedule

/-- `{% if c %}{% assign a = b %}{% assign k = 1 %}{% else %}{% assign a = 2 %}{% endif %}` and
    then `{{ a }}{{ k }}`: `a` is assigned in any case, `k` is not. -/
theorem assignments_read_reported_either :
    let nodes : List Node :=
      [onlyIf "c" [assigned "a" (.path "b" []), assigned "k" (.literal (.int 1))]
        [assigned "a" (.literal (.int 2))], shown "a", shown "k"]
    let data := Object.single "k" (.str "old")
    MadeOf [.text, .output, .choice, .assign] nodes ∧ globalVariables nodes = ["c", "b"] ∧
      freeAll nodes = ["c", "b", "k"] ∧ written nodes data = "2old" ∧
      written nodes (data.insert "a" (.str "new")) = "2old" := by
  intro nodes data
  have kinds : MadeOf [.text, .output, .choice, .assign] nodes := by decide
  have reported : ∀ name ∈ globalVariables nodes, name ≠ "a" ∧ name ≠ "size" := by decide
  have free : ∀ name ∈ freeAll nodes, name ≠ "a" ∧ name ≠ "size" := by decide
  have wrote : written nodes data = "2old" := by decide +kernel
  have equal := assignments_read_reported default kinds
    (fun name member => .insert (reported name member).1 (reported name member).2 data (.str "new"))
    (fun name _ member => .insert (free name member).1 (free name member).2 data (.str "new"))
    default .empty .empty .empty
  exact ⟨kinds, by decide, by decide, wrote, (written_eq rfl equal.1).trans wrote⟩

/-- An assignment that comes first in the text may not have been made, and then the name is
    read from the data; and a `size` that is undefined there counts their entries, whatever
    names they have. -/
theorem skipped_assignment_reads_data :
    let skipped : List Node := [onlyIf "c" [assigned "a" (.literal (.int 1))] [], shown "a"]
    let counted : List Node := [shown "size"]
    let one := Object.single "size" .undefined
    let two := one.insert "b" (.int 1)
    MadeOf [.text, .output, .choice, .assign] skipped ∧ globalVariables skipped = ["c"] ∧
      Object.SameAt "c" .empty (.single "a" (.int 7)) ∧
      written skipped .empty = "" ∧ written skipped (.single "a" (.int 7)) = "7" ∧
      MadeOf [.text, .output, .choice, .assign] counted ∧ globalVariables counted = ["size"] ∧
      two.own? "size" = one.own? "size" ∧ two.get? "size" = one.get? "size" ∧
      written counted one = "1" ∧ written counted two = "2" :=
  ⟨by decide, by decide, .insert (by decide) (by decide) .empty (.int 7), by decide +kernel,
    by decide +kernel, by decide, by decide, rfl, rfl, by decide +kernel, by decide +kernel⟩

end Templating
