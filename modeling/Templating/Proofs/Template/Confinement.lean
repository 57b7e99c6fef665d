import Templating.Proofs.Template.Frame
import Templating.Proofs.Value.Object
import Templating.Engine

namespace Templating

structure Confined (assigned counted : List String) (before after : State) : Prop where
  inner : after.bindings.inner = before.bindings.inner
  bottom : before.bindings.bottom.SameOutside assigned after.bindings.bottom
  data : before.bindings.data.SameOutside counted after.bindings.data
  globals : after.bindings.globals = before.bindings.globals
  modes : after.modes = before.modes
  registers : before.registers.TouchedOnly offsetsRegister after.registers

def Beneath (assigned counted : List String) (before after : State) : Prop :=
  before.bindings.inner ≠ [] →
    after.bindings.inner ≠ [] ∧ Confined assigned counted before.pop after.pop

namespace Confined
variable {assigned counted : List String} {s t u : State}

theorem refl (s : State) : Confined assigned counted s s :=
  ⟨rfl, .refl _, .refl _, rfl, rfl, .refl _⟩

theorem trans (first : Confined assigned counted s t) (second : Confined assigned counted t u) :
    Confined assigned counted s u where
  inner := second.inner.trans first.inner
  bottom := first.bottom.trans second.bottom
  data := first.data.trans second.data
  globals := second.globals.trans first.globals
  modes := second.modes.trans first.modes
  registers := first.registers.trans second.registers

theorem depth (h : Confined assigned counted s t) : t.bindings.depth = s.bindings.depth :=
  congrArg (·.length + 1) h.inner

theorem pop (h : Confined assigned counted s t) : Confined assigned counted s.pop t.pop :=
  { h with inner := congrArg List.tail h.inner }

theorem beneath (h : Confined assigned counted s t) : Beneath assigned counted s t := fun above =>
  ⟨by rw [h.inner]; exact above, h.pop⟩

theorem of_bindings (bindings : t.bindings = s.bindings) (modes : t.modes = s.modes)
    (registers : s.registers.TouchedOnly offsetsRegister t.registers) :
    Confined assigned counted s t :=
  ⟨by rw [bindings], by rw [bindings]; exact .refl _, by rw [bindings]; exact .refl _,
    by rw [bindings], modes, registers⟩

theorem bindBottom (s : State) {name : String} (member : name ∈ assigned) (v : Value) :
    Confined assigned counted s (s.mapBindings (·.bindBottom name v)) :=
  ⟨rfl, Object.insert_sameOutside member _ v, .refl _, rfl, rfl, .refl _⟩

theorem bindData (s : State) {name : String} (member : name ∈ counted) (v : Value) :
    Confined assigned counted s (s.mapBindings (·.bindData name v)) :=
  ⟨rfl, .refl _, Object.insert_sameOutside member _ v, rfl, rfl, .refl _⟩

end Confined

namespace Beneath
variable {assigned counted : List String}

theorem trans {s t u : State} (first : Beneath assigned counted s t)
    (second : Beneath assigned counted t u) : Beneath assigned counted s u := by
  intro above
  obtain ⟨still, confined⟩ := first above
  obtain ⟨again, further⟩ := second still
  exact ⟨again, confined.trans further⟩

theorem bindTop (s : State) (name : String) (v : Value) :
    Beneath assigned counted s (s.mapBindings (·.bindTop name v)) := by
  intro above
  cases scopes : s.bindings.inner with
  | nil => exact absurd scopes above
  | cons top rest =>
    have bound : s.mapBindings (·.bindTop name v)
        = s.mapBindings fun b => { b with inner := top.insert name v :: rest } := by
      simp only [State.mapBindings, Bindings.bindTop, Bindings.mapTop, scopes]
    rw [bound]
    refine ⟨by simp [State.mapBindings], ?_⟩
    exact { Confined.refl s.pop with
      inner := by simp [State.pop, State.mapBindings, Bindings.pop, scopes] }

theorem close {s t u : State} {scope : Object}
    (h : Beneath assigned counted (s.mapBindings (·.push scope)) t)
    (later : Beneath assigned counted t u) : Confined assigned counted t.pop u.pop :=
  (later (h (List.cons_ne_nil scope _)).1).2

end Beneath

theorem confined_frame (assigned counted : List String) :
    Frame (Confined assigned counted) (Beneath assigned counted) where
  refl := .refl
  trans _ _ _ := .trans
  inside_refl s := (Confined.refl s).beneath
  inside_trans _ _ _ := .trans
  enter _ _ := Confined.beneath
  leave _ _ _ _ := Beneath.close
  bindTop := .bindTop
  open_loop _ _ _ _ touched := .of_bindings rfl rfl touched
  jump s _ _ := .of_bindings rfl rfl (.refl s.registers)
  write s _ := .of_bindings rfl rfl (.refl s.registers)
  look s := .of_bindings rfl rfl (.refl s.registers)

theorem built_in_keeps_confined {nodes : List Node} (builtIn : BuiltIn nodes) :
    (renderAll nodes).Keeps (Confined (assignedNames nodes) (countedNames nodes)) :=
  (confined_frame _ _).render_keeps nodes
    (fun s _ member v => .bindBottom s member v) (fun s _ member v => .bindData s member v)
    (fun c member => by rw [builtIn] at member; exact absurd member (List.not_mem_nil))

/-- Wherever a render stops, after success, an error or given up at a value that it
    waits for, no scope is missing or left over and the rest is confined by the template. -/
theorem render_leaves_the_rest (nodes : List Node) (builtIn : BuiltIn nodes) {s final : State}
    (stops : (renderAll nodes).StopsIn s final) :
    final.bindings.depth = s.bindings.depth ∧
      Confined (assignedNames nodes) (countedNames nodes) s final := by
  have confined := (built_in_keeps_confined builtIn).stops (confined_frame _ _).trans stops
  exact ⟨confined.depth, confined⟩

/-- `{% for i in (1..2) %}{% assign x = i %}{% increment n %}{% if true %}{{ slow }}…`. -/
def slowLoop : List Node :=
  let span : Span := ⟨0, 0⟩
  let header : LoopHeader :=
    ⟨"i", ⟨.range (.literal (.int 1)) (.literal (.int 2)), "(1..2)", span⟩, [], false⟩
  let always : Condition := .test ⟨.literal (.bool true), "true", span⟩ none
  [.loop header [.assign "x" ⟨.path "i" [], "i", span⟩ span, .increment "n" span,
    .choice [(always, [.output (some ⟨.path "slow" [], "slow", span⟩) span])] [] span] [] span]

/-- The immediate render is given up inside the loop, with an element in hand; the other one
    is out of time there, at the branch. -/
theorem render_leaves_the_rest_pending :
    let s := Engine.start default (.single "slow" (.deferred 1 none .nil)) default .empty .empty
    let late := { s with time := ⟨.rendering, .deadline (some 4)⟩ }
    let r := (renderAll slowLoop).runNow s ⟨[(1, .pending 3)]⟩
    let expired := (renderAll slowLoop).runNow late ⟨[(1, .pending 3)]⟩
    BuiltIn slowLoop ∧ (renderAll slowLoop).StopsIn s r.state ∧
      r.ending = .failed .pendingValue ∧ r.state.bindings.depth = s.bindings.depth ∧
      Confined ["x"] ["n"] s r.state ∧
      (renderAll slowLoop).StopsIn late expired.state ∧
      expired.ending = .failed (.resourceExceeded .rendering) ∧
      expired.state.bindings.depth = s.bindings.depth ∧
      Confined ["x"] ["n"] late expired.state := by
  intro s late r expired
  obtain ⟨depth, confined⟩ : r.state.bindings.depth = s.bindings.depth ∧ _ :=
    render_leaves_the_rest slowLoop rfl ⟨_, .inl rfl⟩
  obtain ⟨outside, unchanged⟩ : expired.state.bindings.depth = late.bindings.depth ∧ _ :=
    render_leaves_the_rest slowLoop rfl ⟨_, .inl rfl⟩
  exact ⟨rfl, ⟨_, .inl rfl⟩, by decide +kernel, depth, confined, ⟨_, .inl rfl⟩, by decide +kernel,
    outside, unchanged⟩

end Templating
