import Templating.Proofs.Template.Twins

namespace Templating

/-- Two objects that inherit nothing and have the same entries under the names. -/
structure Object.AgreeOn (names : List String) (d d' : Object) : Prop where
  bare : d.ancestor = none
  bare' : d'.ancestor = none
  entries : ∀ name ∈ names, d'.own? name = d.own? name

namespace Object.AgreeOn
variable {names : List String} {d d' : Object}

theorem sameAt (agree : AgreeOn names d d') {name : String} (member : name ∈ names)
    (uncounted : name ≠ "size") : SameAt name d d' where
  own := agree.entries name member
  any := by rw [get?_eq, get?_eq, agree.entries name member, agree.bare, agree.bare']
  size counts := absurd counts uncounted

theorem insert (agree : AgreeOn names d d') (key : String) (v : Value) :
    AgreeOn names (d.insert key v) (d'.insert key v) := by
  refine ⟨agree.bare, agree.bare', ?_⟩
  intro name member
  rw [own?_insert, own?_insert, agree.entries name member]

end Object.AgreeOn

structure Unseen (names : List String) (s t : State) : Prop where
  exchanged : Exchanged t.bindings.data s t
  data : Object.AgreeOn names s.bindings.data t.bindings.data

namespace Unseen
variable {names : List String} {s t : State}

theorem of_withData {d' : Object} (agree : Object.AgreeOn names s.bindings.data d') :
    Unseen names s (s.withData d') := ⟨rfl, agree⟩

theorem change (unseen : Unseen names s t) (f : State → State)
    (commutes : ∀ d, f (s.withData d) = (f s).withData d)
    (keeps : (f s).bindings.data = s.bindings.data) : Unseen names (f s) (f t) := by
  have changed : f t = (f s).withData t.bindings.data := by
    rw [← commutes]
    exact congrArg f unseen.exchanged
  rw [changed]
  exact of_withData (keeps ▸ unseen.data)

theorem alike {read : List String} (unseen : Unseen names s t) (covered : read ⊆ names)
    (uncounted : "size" ∉ read) : Alike read s t := by
  obtain ⟨exchanged, data⟩ := unseen
  generalize t.bindings.data = d' at exchanged data
  subst exchanged
  refine ⟨rfl, rfl, rfl, rfl, ?_⟩
  intro name member
  have counted : name ≠ "size" := fun same => uncounted (same ▸ member)
  exact ((data.sameAt (covered member) counted).read_owner s.modes.ownOnly).symm

theorem bindData (unseen : Unseen names s t) (name : String) (v : Value) :
    Unseen names (s.mapBindings (·.bindData name v)) (t.mapBindings (·.bindData name v)) := by
  obtain ⟨exchanged, data⟩ := unseen
  generalize t.bindings.data = d' at exchanged data
  subst exchanged
  exact of_withData (s := s.mapBindings (·.bindData name v)) (data.insert name v)

theorem bindTop (unseen : Unseen names s t) (name : String) (v : Value) :
    Unseen names (s.mapBindings (·.bindTop name v)) (t.mapBindings (·.bindTop name v)) := by
  refine unseen.change (·.mapBindings (·.bindTop name v)) ?_ ?_
  · intro d
    cases scopes : s.bindings.inner <;>
      simp [State.withData, State.mapBindings, Bindings.bindTop, Bindings.mapTop, scopes]
  · cases scopes : s.bindings.inner <;>
      simp [State.mapBindings, Bindings.bindTop, Bindings.mapTop, scopes]

end Unseen

theorem unseen_parallel {names read counted : List String} (reads : read ⊆ names)
    (counts : counted ⊆ names) (uncounted : "size" ∉ read) :
    Parallel (Unseen names) read counted where
  alike _ _ unseen := unseen.alike reads uncounted
  registers _ _ unseen := by rw [unseen.exchanged]; rfl
  time _ _ unseen := by rw [unseen.exchanged]; rfl
  look _ _ unseen := unseen.change State.look (fun _ => rfl) rfl
  counter _ _ unseen name member := (unseen.data.entries name (counts member)).symm
  opened _ _ registers memory store unseen :=
    unseen.change (·.opened registers memory store) (fun _ => rfl) rfl
  write _ _ text unseen := unseen.change (·.write text) (fun _ => rfl) rfl
  bindBottom _ _ name v unseen :=
    unseen.change (·.mapBindings (·.bindBottom name v)) (fun _ => rfl) rfl
  bindData _ _ name _ v unseen := unseen.bindData name v
  breaking _ _ unseen := by rw [unseen.exchanged]; rfl
  continuing _ _ unseen := by rw [unseen.exchanged]; rfl
  jump _ _ breaking continuing unseen :=
    unseen.change (fun s => { s with breaking, continuing }) (fun _ => rfl) rfl
  push _ _ scope unseen := unseen.change (·.mapBindings (·.push scope)) (fun _ => rfl) rfl
  pop _ _ unseen := unseen.change State.pop (fun _ => rfl) rfl
  bindTop _ _ name v unseen := unseen.bindTop name v

/-- Two runs that cannot be told apart by what they write and how they end. Of their states only
    the data may differ, and those only away from the names. -/
structure Run.Indistinct (names : List String) (r r' : Run Unit) : Prop where
  ending : r'.ending = r.ending
  output : r'.state.sink.output = r.state.sink.output
  schedule : r'.schedule = r.schedule
  state : Unseen names r.state r'.state

theorem Run.Indistinct.of_agree {names : List String} {r r' : Run Unit}
    (h : Run.Agree (fun a s b t => a = b ∧ Unseen names s t) (Unseen names) r r') :
    r.Indistinct names r' := by
  have wrote : ∀ {s t}, Unseen names s t → t.sink.output = s.sink.output := by
    intro s t unseen
    rw [unseen.exchanged]
    rfl
  cases h with
  | finished related =>
    obtain ⟨same, unseen⟩ := related
    exact ⟨by rw [same], wrote unseen, rfl, unseen⟩
  | failed unseen => exact ⟨rfl, wrote unseen, rfl, unseen⟩
  | unfinished unseen => exact ⟨rfl, wrote unseen, rfl, unseen⟩

/-- A render of built-in nodes depends on the data under the names at the roots of its paths and
    under those of its counters alone, whatever else the data hold, under either driver. -/
theorem render_reads_named (nodes : List Node) (builtIn : BuiltIn nodes)
    (uncounted : "size" ∉ readNames nodes) (s : State) {d' : Object}
    (same : Object.AgreeOn (readNames nodes ++ countedNames nodes) s.bindings.data d')
    (schedule : Schedule) :
    let names := readNames nodes ++ countedNames nodes
    let t := s.withData d'
    ((renderAll nodes).runNow s schedule).Indistinct names ((renderAll nodes).runNow t schedule) ∧
      ∀ polls, ((renderAll nodes s).runWaiting polls schedule).Indistinct names
        ((renderAll nodes t).runWaiting polls schedule) := by
  intro names t
  have parallel : Parallel (Unseen names) (readNames nodes) (countedNames nodes) :=
    unseen_parallel (List.subset_append_left _ _) (List.subset_append_right _ _) uncounted
  have respects : (renderAll nodes).Respects (Unseen names) := by
    refine parallel.render_respects nodes ?_
    intro c member
    rw [builtIn] at member
    exact absurd member List.not_mem_nil
  have agree := respects s t (.of_withData same)
  constructor
  · exact .of_agree (agree.runNow schedule)
  · intro polls
    exact .of_agree (agree.runWaiting polls schedule)

/-- `{% for x in xs limit: n %}{% if x == ys[i].z %}{% increment k %}{% else %}{{ k }}…`. -/
def tally : List Node :=
  let span : Span := ⟨0, 0⟩
  let named (name : String) : Argument := ⟨.path name [], name, span⟩
  let nested : Argument := ⟨.path "ys" [.index (.path "i" []), .name "z"], "ys[i].z", span⟩
  let header : LoopHeader :=
    ⟨"x", named "xs", [⟨"limit", some (named "n"), span⟩], false⟩
  let equal : Condition := .test (named "x") (some (.equal, nested))
  [.loop header [.choice [(equal, [.increment "k" span])] [.output (some (named "k")) span] span]
    [] span]

def tallyData : Object :=
  .ofList [("xs", .array [.int 1, .int 2, .int 1, .int 1]), ("n", .int 3), ("i", .int 0),
    ("ys", .array [.object (.single "z" (.int 1))]), ("k", .int 7)]

/-- The counter `k` starts at 7, is written by the template and read again; `secret` and `other`
    occur nowhere in it. -/
theorem render_reads_named_tally :
    let d := tallyData.insert "secret" (.int 1)
    let d' := (tallyData.insert "other" .nil).insert "secret" (.int 2)
    let s := Engine.start default d default .empty .empty
    BuiltIn tally ∧ "size" ∉ readNames tally ∧
      Object.AgreeOn (readNames tally ++ countedNames tally) d d' ∧
      ((renderAll tally).runNow s .empty).state.sink.output = "788" ∧
      ((renderAll tally).runNow (s.withData d') .empty).state.sink.output = "788" := by
  intro d d' s
  have others : ∀ name ∈ readNames tally ++ countedNames tally,
      name ≠ "secret" ∧ name ≠ "other" := by decide
  have same : Object.AgreeOn (readNames tally ++ countedNames tally) d d' := by
    refine ⟨rfl, rfl, ?_⟩
    intro name member
    obtain ⟨secret, other⟩ := others name member
    simp only [d, d', Object.own?_insert, if_neg secret, if_neg other]
  have wrote : ((renderAll tally).runNow s .empty).state.sink.output = "788" := by decide +kernel
  have builtIn : BuiltIn tally := rfl
  have uncounted : "size" ∉ readNames tally := by decide
  have indistinct := (render_reads_named tally builtIn uncounted s same .empty).1
  exact ⟨builtIn, uncounted, same, wrote, indistinct.output.trans wrote⟩

end Templating
