import Mathlib.Data.List.Forall2
import Templating.Engine
import Templating.Proofs.Template.FreeNames
import Templating.Proofs.Template.Parallel
import Templating.Proofs.Value.Object

/-!
Renders of one template over two data objects. Names that are looked up are either bound in a
scope, the same in both renders, or have the same entry in both data objects, so the renders go
in step.
-/
namespace Templating

def State.withData (s : State) (data : Object) : State := s.mapBindings ({ · with data })

def Exchanged (d' : Object) (s t : State) : Prop := t = s.withData d'

/-- Two states that differ in their data alone, `d` and `d'`, in the course of templates without
    jumps. The scopes bind at least the names of `layers`, scope by scope, and of `ground`. -/
structure Twin (d d' : Object) (layers : List (List String)) (ground : List String)
    (s t : State) : Prop where
  exchanged : Exchanged d' s t
  data : s.bindings.data = d
  inner : List.Forall₂ Object.Binds layers s.bindings.inner
  bottom : s.bindings.bottom.Binds ground
  stays : s.breaking = false
  proceeds : s.continuing = false

theorem Bindings.owner_of_scope {b : Bindings} {name : String} (d' : Object)
    (bound : ∃ scope ∈ b.scopes, scope.hasOwn name = true) :
    Bindings.owner { b with data := d' } name = b.owner name := by
  obtain ⟨scope, found⟩ := Option.isSome_iff_exists.mp (List.find?_isSome.mpr bound)
  have found' : (Bindings.scopes { b with data := d' }).find? (·.hasOwn name) = some scope := found
  simp only [Bindings.owner, found, found']

theorem Object.SameAt.read_owner {b : Bindings} {name : String} {d' : Object}
    (same : SameAt name b.data d') (ownOnly : Bool) :
    (Bindings.owner { b with data := d' } name).read name ownOnly
      = (b.owner name).read name ownOnly := by
  have scopes : (Bindings.scopes { b with data := d' }).find? (·.hasOwn name)
      = b.scopes.find? (·.hasOwn name) := rfl
  simp only [Bindings.owner, scopes, same.contains]
  split
  · rfl
  · split
    · rename_i there
      exact same.read there ownOnly
    · rfl

namespace Twin
variable {d d' : Object} {layers : List (List String)} {ground more : List String} {s t : State}

theorem bound (twin : Twin d d' layers ground s t) {name : String}
    (member : name ∈ layers.flatten ++ ground) :
    ∃ scope ∈ s.bindings.scopes, scope.hasOwn name = true := by
  cases List.mem_append.mp member with
  | inr here => exact ⟨s.bindings.bottom, by simp [Bindings.scopes], twin.bottom name here⟩
  | inl above =>
    obtain ⟨layer, mine, here⟩ := List.mem_flatten.mp above
    obtain ⟨i, lt, rfl⟩ := List.mem_iff_getElem.mp mine
    have lt' : i < s.bindings.inner.length := twin.inner.length_eq ▸ lt
    refine ⟨s.bindings.inner[i], ?_, twin.inner.get lt lt' name here⟩
    exact List.mem_append_left _ (List.getElem_mem lt')

theorem weaken (twin : Twin d d' layers more s t) (sub : ground ⊆ more) :
    Twin d d' layers ground s t :=
  { twin with bottom := fun name member => twin.bottom name (sub member) }

theorem of_bindings {s' t' : State} (twin : Twin d d' layers ground s t)
    (exchanged : Exchanged d' s' t') (bindings : s'.bindings = s.bindings)
    (stays : s'.breaking = false) (proceeds : s'.continuing = false) :
    Twin d d' layers ground s' t' :=
  ⟨exchanged, bindings ▸ twin.data, bindings ▸ twin.inner, bindings ▸ twin.bottom, stays, proceeds⟩

theorem clearJumps (twin : Twin d d' layers ground s t) :
    Twin d d' layers ground s.clearJumps t.clearJumps :=
  twin.of_bindings (by rw [twin.exchanged]; rfl) rfl rfl rfl

theorem push (twin : Twin d d' layers ground s t) {names : List String} {scope : Object}
    (binds : scope.Binds names) :
    Twin d d' (names :: layers) ground (s.mapBindings (·.push scope))
      (t.mapBindings (·.push scope)) := by
  obtain ⟨rfl, data, inner, bottom, stays, proceeds⟩ := twin
  exact ⟨rfl, data, .cons binds inner, bottom, stays, proceeds⟩

theorem pop {layer : List String} (twin : Twin d d' (layer :: layers) ground s t) :
    Twin d d' layers ground s.pop t.pop := by
  obtain ⟨rfl, data, inner, bottom, stays, proceeds⟩ := twin
  obtain ⟨top, rest, -, below, scopes⟩ := List.forall₂_cons_left_iff.mp inner
  refine ⟨rfl, data, ?_, bottom, stays, proceeds⟩
  simpa only [State.pop, State.mapBindings, Bindings.pop, scopes, List.tail_cons] using below

theorem bindTop {names : List String} (twin : Twin d d' (names :: layers) ground s t)
    (name : String) (v : Value) :
    Twin d d' ((name :: names) :: layers) ground (s.mapBindings (·.bindTop name v))
      (t.mapBindings (·.bindTop name v)) := by
  obtain ⟨rfl, data, inner, bottom, stays, proceeds⟩ := twin
  obtain ⟨top, rest, binds, below, scopes⟩ := List.forall₂_cons_left_iff.mp inner
  have bound : s.bindings.bindTop name v
      = { s.bindings with inner := top.insert name v :: rest } := by
    simp only [Bindings.bindTop, Bindings.mapTop, scopes]
  refine ⟨?_, ?_, ?_, ?_, stays, proceeds⟩
  · simp only [Exchanged, State.withData, State.mapBindings, Bindings.bindTop, Bindings.mapTop,
      scopes]
  · simpa only [State.mapBindings, bound] using data
  · simpa only [State.mapBindings, bound] using .cons (binds.insert name v) below
  · simpa only [State.mapBindings, bound] using bottom

theorem forget {name : String} {names : List String}
    (twin : Twin d d' ((name :: names) :: layers) ground s t) :
    Twin d d' (names :: layers) ground s t := by
  obtain ⟨top, rest, binds, below, scopes⟩ := List.forall₂_cons_left_iff.mp twin.inner
  refine { twin with inner := ?_ }
  rw [scopes]
  exact .cons (fun other member => binds other (List.mem_cons_of_mem name member)) below

theorem bindBottom (twin : Twin d d' layers ground s t) (name : String) (v : Value) :
    Twin d d' layers (name :: ground) (s.mapBindings (·.bindBottom name v))
      (t.mapBindings (·.bindBottom name v)) := by
  obtain ⟨rfl, data, inner, bottom, stays, proceeds⟩ := twin
  exact ⟨rfl, data, inner, bottom.insert name v, stays, proceeds⟩

theorem matching {known : List String} (same : ∀ name ∈ known, Object.SameAt name d d') :
    Matching (Twin d d' layers ground) (layers.flatten ++ ground ++ known) [] where
  alike s t twin := by
    obtain rfl := twin.exchanged
    refine ⟨rfl, rfl, rfl, rfl, fun name member => ?_⟩
    cases List.mem_append.mp member with
    | inl bound =>
      exact congrArg (Object.read · name s.modes.ownOnly)
        (Bindings.owner_of_scope d' (twin.bound bound)).symm
    | inr free =>
      have agree : Object.SameAt name s.bindings.data d' := twin.data ▸ same name free
      exact (agree.read_owner s.modes.ownOnly).symm
  registers _ _ twin := by rw [twin.exchanged]; rfl
  time _ _ twin := by rw [twin.exchanged]; rfl
  look _ _ twin := twin.of_bindings (by rw [twin.exchanged]; rfl) rfl twin.stays twin.proceeds
  counter _ _ _ := nofun
  opened _ _ _ _ _ twin :=
    twin.of_bindings (by rw [twin.exchanged]; rfl) rfl twin.stays twin.proceeds
  write _ _ _ twin := twin.of_bindings (by rw [twin.exchanged]; rfl) rfl twin.stays twin.proceeds
  bindBottom _ _ name v twin := (twin.bindBottom name v).weaken (List.subset_cons_self _ _)
  bindData _ _ := nofun

end Twin

/-- Renders over twin states go in step; the names of `later` are sure to be bound afterwards. -/
def Twinned (d d' : Object) (layers : List (List String)) (ground later : List String)
    (t : Task Unit) : Prop :=
  t.Shifts (Twin d d' layers ground) (Twin d d' layers (later ++ ground)) (Exchanged d')

namespace Twinned
variable {d d' : Object} {layers : List (List String)} {ground known more later : List String}

theorem of_respects {t : Task Unit} (h : t.Respects (Twin d d' layers ground)) :
    Twinned d d' layers ground [] t := h.shifts fun _ _ twin => twin.exchanged

theorem weaken {t : Task Unit} (h : Twinned d d' layers ground more t) (sub : later ⊆ more) :
    Twinned d d' layers ground later t :=
  Task.Shifts.weaken h (fun _ _ twin => twin) fun _ _ twin => twin.weaken fun name member => by
    simp only [List.mem_append] at member ⊢
    exact member.imp_left (sub ·)

theorem after {α : Type} {t : Task α} {f : α → Task Unit}
    (h : t.Respects (Twin d d' layers ground))
    (rest : ∀ a, Twinned d d' layers ground later (f a)) :
    Twinned d d' layers ground later (t >>= f) :=
  Task.Shifts.bind (h.shifts fun _ _ twin => twin.exchanged) rest

theorem sequence {first rest : Task Unit} (same : ∀ name ∈ known, Object.SameAt name d d')
    (h : Twinned d d' layers ground more first)
    (next : Twinned d d' layers (more ++ ground) later rest) :
    Twinned d d' layers ground (later ++ more) (Templating.sequence first rest) := by
  refine after (Twin.matching same).checkTime_respects fun _ => ?_
  refine Task.Shifts.bind h fun _ s t twin => ?_
  change Step.Agree _ _ ((if s.stopped then pure () else rest : Task Unit) s)
    ((if t.stopped then pure () else rest : Task Unit) t)
  have goes : s.stopped = false := by simp only [State.stopped, twin.stays, twin.proceeds]; rfl
  have goes' : t.stopped = false := by rw [twin.exchanged]; exact goes
  rw [goes, goes', List.append_assoc]
  exact next s t twin

theorem renderAssign (same : ∀ name ∈ known, Object.SameAt name d d') (name : String)
    {value : Argument} (covered : rootsOf [value] ⊆ layers.flatten ++ ground ++ known) :
    Twinned d d' layers ground [name] (Templating.renderAssign name value) := by
  have evaluated := (Twin.matching same).local_respects value.evaluate_local covered
  refine after evaluated fun v s t twin => ?_
  exact .done ⟨rfl, twin.bindBottom name v⟩

theorem branch {condition : Condition} {body rest : Task Unit}
    (same : ∀ name ∈ known, Object.SameAt name d d')
    (covered : rootsOf condition.arguments ⊆ layers.flatten ++ ground ++ known)
    (taken : Twinned d d' layers ground later body)
    (other : Twinned d d' layers ground later rest) :
    Twinned d d' layers ground later (branch condition body rest) := by
  have tested := (Twin.matching same).local_respects condition.evaluate_local covered
  refine after tested fun holds => ?_
  cases holds with
  | true => exact taken
  | false => exact other

theorem iterate {names : List String} (same : ∀ name ∈ known, Object.SameAt name d d')
    (name : String) (position : LoopPosition) {body : Task Unit}
    (inside : Twinned d d' ((name :: names) :: layers) ground [] body) (items : List Value) :
    Twinned d d' (names :: layers) ground [] (Templating.iterate name position body items) := by
  induction items with
  | nil => exact of_respects (Task.respects_pure ())
  | cons item rest ih =>
    have entered : (enterElement name item).Shifts (Twin d d' (names :: layers) ground)
        (Twin d d' ((name :: names) :: layers) ground) (Exchanged d') := fun s t twin =>
      .done ⟨rfl, (twin.bindTop name item).clearJumps⟩
    refine entered.bind fun _ => Task.Shifts.bind inside fun _ s t twin => ?_
    change Step.Agree _ _
      ((if s.breaking then pure () else do
        stepLoop position
        Templating.iterate name position body rest : Task Unit) s)
      ((if t.breaking then pure () else do
        stepLoop position
        Templating.iterate name position body rest : Task Unit) t)
    have stays : t.breaking = false := by rw [twin.exchanged]; exact twin.stays
    rw [twin.stays, stays]
    have stepped : (stepLoop position).Local [] := fun _ _ alike =>
      .done ⟨rfl, alike.moved_store (·.step position.id)⟩
    have matching : Matching (Twin d d' (names :: layers) ground) _ [] := Twin.matching same
    have steps := matching.local_respects stepped (List.nil_subset _)
    exact after steps (fun _ => ih) s t twin.forget

theorem visit {header : LoopHeader} {body : Task Unit}
    (same : ∀ name ∈ known, Object.SameAt name d d')
    (modifiers : without (rootsOf (givenValues header.modifiers)) LoopHeader.argumentScope
      ⊆ layers.flatten ++ ground ++ known)
    (inside : Twinned d d' (header.blockScope :: layers) ground [] body) (items : List Value) :
    Twinned d d' layers ground [] (Templating.visit header items body) := by
  rw [visit_eq]
  have read : ∀ name ∈ rootsOf (givenValues header.modifiers), name ≠ "continue" →
      name ∈ layers.flatten ++ ground ++ known := fun name member other =>
    modifiers (mem_without.mpr ⟨member, other ∘ List.mem_singleton.mp⟩)
  refine after ((Twin.matching same).openLoop_respects read items) fun opened s t twin => ?_
  have binds : (loopScope opened.1).Binds ["forloop"] := by
    simp [Object.Binds, loopScope, Object.single, Object.hasOwn, Object.own?]
  have iterated : Twinned d d' (["forloop"] :: layers) ground [] (do
      Templating.iterate header.variableName opened.1 body opened.2
      Task.modify State.clearJumps) :=
    Task.Shifts.bind (iterate same header.variableName opened.1 inside opened.2) fun _ s t twin =>
      .done ⟨rfl, twin.clearJumps⟩
  exact (iterated _ _ (twin.push binds)).ensuring (fun _ _ _ _ r => ⟨r.1, r.2.pop⟩)
    fun _ _ exchanged => by rw [Exchanged, exchanged]; rfl

theorem renderLoop {header : LoopHeader} {body otherwise : Task Unit}
    (same : ∀ name ∈ known, Object.SameAt name d d')
    (collection : rootsOf [header.collection] ⊆ layers.flatten ++ ground ++ known)
    (modifiers : without (rootsOf (givenValues header.modifiers)) LoopHeader.argumentScope
      ⊆ layers.flatten ++ ground ++ known)
    (inside : Twinned d d' (header.blockScope :: layers) ground [] body)
    (instead : Twinned d d' layers ground [] otherwise) :
    Twinned d d' layers ground [] (Templating.renderLoop header body otherwise) := by
  have matching : Matching (Twin d d' layers ground) _ [] := Twin.matching same
  refine after (matching.local_respects header.collection.evaluate_local collection) fun v => ?_
  refine after (matching.resolve_respects v) fun v => ?_
  cases v.elements with
  | nil => exact instead
  | cons item rest => exact visit same modifiers inside (item :: rest)

end Twinned

end Templating
