import Templating.Proofs.Template.Slices
import Templating.Proofs.Value.Object
import Templating.State.Basic

/-!
What is listed and what is found. Listing all bindings copies own entries, those of the globals
first and those of the innermost scope last; looking up a name goes the other way and stops at
the first place that has it, where the data has what it inherits as well.
-/
namespace Templating
namespace Object

theorem own?_assign {other : Object} (distinct : other.Distinct) (o : Object) (name : String) :
    (o.assign other).own? name = (other.own? name).or (o.own? name) := by
  have last : lastGiven? name other.entries = other.own? name :=
    (lookup_perm (List.reverse_perm other.entries).symm distinct name).symm
  rw [assign, own?_foldl_insert, last]

theorem own?_eq_none {o : Object} {name : String} (absent : o.hasOwn name = false) :
    o.own? name = none := by simpa [hasOwn] using absent

end Object

namespace Bindings

structure Distinct (b : Bindings) : Prop where
  scopes : ∀ scope ∈ b.scopes, scope.Distinct
  data : b.data.Distinct
  globals : b.globals.Distinct

/-- What a render can make of its bindings: scopes come and go, what a scope or the data holds is
    changed, and an isolated part has data of its own behind the same globals. -/
inductive Reached : Bindings → Prop where
  | start {data globals : Object} (own : data.Distinct) (shared : globals.Distinct) :
      Reached (.start data globals)
  | push {b : Bindings} {scope : Object} (before : Reached b) (distinct : scope.Distinct) :
      Reached (b.push scope)
  | pop {b : Bindings} (before : Reached b) : Reached b.pop
  | top {b : Bindings} {change : Object → Object} (before : Reached b)
      (keeps : ∀ o : Object, o.Distinct → (change o).Distinct) : Reached (b.mapTop change)
  | bottom {b : Bindings} {change : Object → Object} (before : Reached b)
      (keeps : ∀ o : Object, o.Distinct → (change o).Distinct) :
      Reached { b with bottom := change b.bottom }
  | data {b : Bindings} {change : Object → Object} (before : Reached b)
      (keeps : ∀ o : Object, o.Distinct → (change o).Distinct) :
      Reached { b with data := change b.data }
  | spawn {b : Bindings} {data : Object} (before : Reached b) (own : data.Distinct) :
      Reached (.start data b.globals)

theorem Distinct.start {data globals : Object} (own : data.Distinct) (shared : globals.Distinct) :
    (Bindings.start data globals).Distinct where
  scopes := List.forall_mem_singleton.mpr Object.distinct_empty
  data := own
  globals := shared

theorem Distinct.mapTop {b : Bindings} (distinct : b.Distinct) {change : Object → Object}
    (keeps : ∀ o : Object, o.Distinct → (change o).Distinct) : (b.mapTop change).Distinct := by
  obtain ⟨inner, bottom, data, globals⟩ := b
  obtain ⟨scopes, own, shared⟩ := distinct
  cases inner with
  | nil =>
    have alone := keeps bottom (List.forall_mem_singleton.mp scopes)
    exact ⟨List.forall_mem_singleton.mpr alone, own, shared⟩
  | cons scope rest =>
    rw [Bindings.scopes, List.cons_append, List.forall_mem_cons] at scopes
    exact ⟨List.forall_mem_cons.mpr ⟨keeps scope scopes.1, scopes.2⟩, own, shared⟩

theorem Reached.distinct {b : Bindings} (reached : b.Reached) : b.Distinct := by
  induction reached with
  | start own shared => exact .start own shared
  | push _ distinct ih => exact { ih with scopes := List.forall_mem_cons.mpr ⟨distinct, ih.scopes⟩ }
  | @pop b _ ih =>
    refine { ih with scopes := fun scope member => ih.scopes scope ?_ }
    rw [Bindings.scopes, List.mem_append] at member ⊢
    exact member.imp_left List.mem_of_mem_tail
  | top _ keeps ih => exact ih.mapTop keeps
  | @bottom b change _ keeps ih =>
    obtain ⟨scopes, own, shared⟩ := ih
    rw [Bindings.scopes, List.forall_mem_append, List.forall_mem_singleton] at scopes
    refine ⟨?_, own, shared⟩
    rw [Bindings.scopes, List.forall_mem_append, List.forall_mem_singleton]
    exact ⟨scopes.1, keeps b.bottom scopes.2⟩
  | data _ keeps ih => exact { ih with data := keeps _ ih.data }
  | spawn _ own ih => exact .start own ih.globals

theorem owner_of_absent {b : Bindings} {name : String}
    (absent : (b.owner name).contains name = false) : b.owner name = b.globals := by
  unfold owner at absent ⊢
  split at absent
  · rename_i scope found
    have bound : scope.hasOwn name = true := by simpa using List.find?_some found
    rw [Object.contains_iff, bound, Bool.true_or] at absent
    cases absent
  · cases known : b.data.contains name with
    | true => simp [known] at absent
    | false => simp

theorem own?_assigned {scopes : List Object} (distinct : ∀ scope ∈ scopes, scope.Distinct)
    (under : Object) (name : String) :
    (scopes.reverse.foldl Object.assign under).own? name
      = match scopes.find? (·.hasOwn name) with
        | some scope => scope.own? name
        | none => under.own? name := by
  rw [List.foldl_reverse]
  induction scopes with
  | nil => rfl
  | cons scope rest ih =>
    rw [List.forall_mem_cons] at distinct
    rw [List.foldr_cons, Object.own?_assign distinct.1, ih distinct.2]
    cases bound : scope.hasOwn name with
    | true =>
      obtain ⟨v, own⟩ := Option.isSome_iff_exists.mp bound
      simp [bound, own]
    | false => simp [bound, Object.own?_eq_none bound]

theorem own?_flatten {b : Bindings} (distinct : b.Distinct) (name : String) :
    b.flatten.own? name = ((b.owner name).own? name).or (b.globals.own? name) := by
  have behind : ((Object.empty.assign b.globals).assign b.data).own? name
      = (b.data.own? name).or (b.globals.own? name) := by
    rw [Object.own?_assign distinct.data, Object.own?_assign distinct.globals]
    exact congrArg _ Option.or_none
  rw [flatten, own?_assigned distinct.scopes, behind, owner]
  cases found : b.scopes.find? (·.hasOwn name) with
  | some scope =>
    have bound : scope.hasOwn name = true := by simpa using List.find?_some found
    obtain ⟨v, own⟩ := Option.isSome_iff_exists.mp bound
    simp [own]
  | none =>
    cases known : b.data.contains name with
    | true => simp
    | false =>
      rw [Object.contains_iff, Bool.or_eq_false_iff] at known
      simp [Object.own?_eq_none known.1]

/-- In all bindings that a render can reach, what is listed under a name is the own entry of the
    place where the name is looked up, or else what the globals own. So the list has just what
    lookup finds, unless that is an inherited entry of which the globals do not own the like. -/
theorem listed_iff_found {b : Bindings} (reached : b.Reached) (name : String) :
    let place := b.owner name
    b.flatten.own? name = (place.own? name).or (b.globals.own? name) ∧
    (b.flatten.own? name = place.get? name ↔
      (place.contains name = true →
        place.hasOwn name = true ∨ b.globals.own? name = place.get? name)) := by
  intro place
  have listed : b.flatten.own? name = (place.own? name).or (b.globals.own? name) :=
    own?_flatten reached.distinct name
  refine ⟨listed, ?_⟩
  rw [listed]
  cases own : place.own? name with
  | some v => simp [Object.hasOwn, own, Object.get?_eq]
  | none =>
    rw [Option.none_or]
    refine ⟨fun same _ => .inr same, fun agrees => ?_⟩
    cases found : place.get? name with
    | some v =>
      have there : place.contains name = true := by simp [Object.contains, found]
      simpa [Object.hasOwn, own, found] using agrees there
    | none =>
      -- only the globals are looked up for a name that they do not have
      have absent : place.contains name = false := by simp [Object.contains, found]
      rw [← owner_of_absent absent]
      exact own

def overlaid : Bindings :=
  let b : Bindings := .start ⟨[], some (.single "x" (.int 1))⟩ (.single "x" (.int 0))
  (b.push .empty).bindTop "y" (.int 2)

theorem reached_overlaid : overlaid.Reached := by
  have begun : (start ⟨[], some (.single "x" (.int 1))⟩ (.single "x" (.int 0))).Reached :=
    .start List.nodup_nil (List.nodup_cons.mpr ⟨List.not_mem_nil, List.nodup_nil⟩)
  exact .top (begun.push Object.distinct_empty) fun _ distinct => distinct.insert "y" (.int 2)

theorem listed_iff_found_overlaid :
    overlaid.Reached ∧
      (overlaid.flatten.own? "y" = some (.int 2) ∧
        overlaid.flatten.own? "y" = (overlaid.owner "y").get? "y") ∧
      overlaid.flatten.own? "x" = some (.int 0) ∧
      (overlaid.owner "x").get? "x" = some (.int 1) := by
  have agrees := (listed_iff_found reached_overlaid "y").2.mpr fun _ => .inl rfl
  exact ⟨reached_overlaid, ⟨rfl, agrees⟩, rfl, rfl⟩

/-- The inherited entry is found, and the one of the globals is listed. -/
theorem inherited_entry_unlisted :
    ¬ ∀ b : Bindings, b.Reached → ∀ name, b.flatten.own? name = (b.owner name).get? name := by
  intro agree
  have same : some (Value.int 0) = some (Value.int 1) := agree overlaid reached_overlaid "x"
  exact absurd (Value.int.inj (Option.some.inj same)) (by decide)

end Bindings
end Templating
