import Templating.Proofs.Task.Agreement

/-!
Tasks that only look. Of a state they see how strict the reading is, the two things that change
while values are read (the memory budget and the store), and what the names of a list are bound
to; and nothing but those two things changes by them.
-/
namespace Templating

theorem Bindings.owner_push (b : Bindings) (scope : Object) (name : String) :
    (b.push scope).owner name = if scope.hasOwn name then scope else b.owner name := by
  cases bound : scope.hasOwn name with
  | true => simp [owner, scopes, push, bound]
  | false =>
    have past : (b.push scope).scopes.find? (·.hasOwn name) = b.scopes.find? (·.hasOwn name) := by
      simp [scopes, push, bound]
    unfold owner
    rw [past]
    rfl

def State.after (s : State) (memory : Budget) (store : Store) : State := { s with memory, store }

def After (s t : State) : Prop := ∃ memory store, t = s.after memory store

theorem After.trans (s t u : State) (first : After s t) (second : After t u) : After s u := by
  obtain ⟨_, _, rfl⟩ := first
  obtain ⟨memory, store, rfl⟩ := second
  exact ⟨memory, store, rfl⟩

/-- Two states in which names of the list read the same, now and later. -/
structure Alike (names : List String) (s t : State) : Prop where
  strict : s.modes.strict = t.modes.strict
  ownOnly : s.modes.ownOnly = t.modes.ownOnly
  memory : s.memory = t.memory
  store : s.store = t.store
  reads : ∀ name ∈ names, (s.bindings.owner name).read name t.modes.ownOnly
    = (t.bindings.owner name).read name t.modes.ownOnly

def Moved (s t s' t' : State) : Prop :=
  ∃ memory store, s' = s.after memory store ∧ t' = t.after memory store

theorem Moved.trans {s t s' t' s'' t'' : State} (first : Moved s t s' t')
    (second : Moved s' t' s'' t'') : Moved s t s'' t'' := by
  obtain ⟨_, _, rfl, rfl⟩ := first
  obtain ⟨memory, store, rfl, rfl⟩ := second
  exact ⟨memory, store, rfl, rfl⟩

namespace Alike
variable {names : List String} {s t : State}

theorem of_bindings (bindings : s.bindings = t.bindings) (strict : s.modes.strict = t.modes.strict)
    (ownOnly : s.modes.ownOnly = t.modes.ownOnly) (memory : s.memory = t.memory)
    (store : s.store = t.store) : Alike names s t :=
  ⟨strict, ownOnly, memory, store, fun _ _ => by rw [bindings]⟩

theorem refl (s : State) : Alike names s s := of_bindings rfl rfl rfl rfl rfl

theorem subset {fewer : List String} (alike : Alike names s t) (sub : fewer ⊆ names) :
    Alike fewer s t := { alike with reads := fun name member => alike.reads name (sub member) }

theorem moved {s' t' : State} (alike : Alike names s t) (moved : Moved s t s' t') :
    Alike names s' t' := by
  obtain ⟨memory, store, rfl, rfl⟩ := moved
  exact ⟨alike.strict, alike.ownOnly, rfl, rfl, alike.reads⟩

theorem moved_here (alike : Alike names s t) : Moved s t s t :=
  ⟨s.memory, s.store, rfl, by rw [alike.memory, alike.store]; rfl⟩

theorem moved_store (alike : Alike names s t) (change : Store → Store) :
    Moved s t { s with store := change s.store } { t with store := change t.store } :=
  ⟨s.memory, change s.store, rfl, by rw [alike.memory, alike.store]; rfl⟩

theorem push {inside : List String} {scope : Object} (alike : Alike names s t)
    (covered : ∀ name ∈ inside, scope.hasOwn name = false → name ∈ names) :
    Alike inside (s.mapBindings (·.push scope)) (t.mapBindings (·.push scope)) := by
  refine ⟨alike.strict, alike.ownOnly, alike.memory, alike.store, fun name member => ?_⟩
  simp only [State.mapBindings, Bindings.owner_push]
  cases bound : scope.hasOwn name with
  | true => rfl
  | false => exact alike.reads name (covered name member bound)

end Alike

namespace Task
variable {α β : Type} {names : List String}

/-- The task sees no more than what is alike and changes no more than is moved. -/
def Local (names : List String) (t : Task α) : Prop :=
  ∀ s s' : State, Alike names s s' →
    Step.Agree (fun a x b y => a = b ∧ Moved s s' x y) (Moved s s') (t s) (t s')

theorem Local.mono {more : List String} {t : Task α} (h : t.Local names) (sub : names ⊆ more) :
    t.Local more := fun s s' alike => h s s' (alike.subset sub)

theorem local_pure (a : α) : (pure a : Task α).Local names := fun _ _ alike =>
  .done ⟨rfl, alike.moved_here⟩

theorem Local.bind {t : Task α} {f : α → Task β} (first : t.Local names)
    (rest : ∀ a, (f a).Local names) : (t >>= f).Local names := by
  intro s s' alike
  refine (first s s' alike).bind fun a x b y h => ?_
  obtain ⟨rfl, moved⟩ := h
  refine (rest a x y (alike.moved moved)).mono (fun c x' d y' next => ?_) fun _ _ => moved.trans
  exact ⟨next.1, moved.trans next.2⟩

theorem local_wait (id : Nat) (label : Option String) : (wait id label).Local names := by
  intro s s' alike
  refine .waiting alike.moved_here (.done ⟨rfl, alike.moved_here⟩) (.done ⟨rfl, ?_⟩)
  exact alike.moved_store (·.note .completed label)

theorem local_read (r : Read α) : (read r).Local names := by
  intro s s' alike
  have moved := alike.moved_store fun store => (r store).2
  exact .done ⟨by rw [alike.store], moved⟩

theorem local_charge (count : Nat) : (charge count).Local names := by
  intro s s' alike
  have moved : Moved s s' { s with memory := s.memory.charge count }
      { s' with memory := s'.memory.charge count } :=
    ⟨s.memory.charge count, s.store, rfl, by rw [alike.memory, alike.store]; rfl⟩
  unfold charge
  rw [alike.memory] at moved ⊢
  dsimp only
  split
  · exact .failed moved (by simp)
  · exact .done ⟨rfl, moved⟩

theorem local_settle : ∀ v : Value, (settle v).Local names :=
  settle_closed local_pure fun id label _ rest => (local_wait id label).bind fun _ => rest

theorem local_resolve : ∀ v : Value, (resolve v).Local names :=
  resolve_closed local_pure fun id label _ rest => (local_wait id label).bind fun _ => rest

theorem Local.within {inside : List String} {scope : Object} {t : Task α} (h : t.Local inside)
    (covered : ∀ name ∈ inside, scope.hasOwn name = false → name ∈ names) :
    (within scope t).Local names := by
  intro s s' alike
  have popped : ∀ x y, Moved (s.mapBindings (·.push scope)) (s'.mapBindings (·.push scope)) x y →
      Moved s s' x.pop y.pop := by
    rintro _ _ ⟨memory, store, rfl, rfl⟩
    exact ⟨memory, store, rfl, rfl⟩
  exact (h _ _ (alike.push covered)).ensuring (fun _ x _ y r => ⟨r.1, popped x y r.2⟩) popped

theorem Local.keeps {K : State → State → Prop} {t : Task α} (h : t.Local names)
    (after : ∀ s s', After s s' → K s s') : t.Keeps K := by
  intro s
  have reached : ∀ x y, Moved s s x y → After s x := by
    rintro _ _ ⟨memory, store, rfl, -⟩
    exact ⟨memory, store, rfl⟩
  refine (h s s (Alike.refl s)).keeps (fun _ x _ y r => reached x y r.2) reached
    ⟨s.memory, s.store, rfl⟩ ?_
  rintro _ _ ⟨memory, store, rfl⟩ ⟨memory', store', rfl⟩
  exact after _ _ ⟨memory', store', rfl⟩

end Task
end Templating
