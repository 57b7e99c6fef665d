import Templating.Value.Property

namespace Templating
namespace Object

theorem lookup_filter {α : Type} (p : String → Bool) {key : String} (kept : p key = true)
    (entries : List (String × α)) :
    (entries.filter (p ·.1)).lookup key = entries.lookup key := by
  induction entries with
  | nil => rfl
  | cons entry rest ih =>
    obtain ⟨name, v⟩ := entry
    cases h : p name with
    | true => simp [h, List.lookup_cons, ih]
    | false =>
      have ne : key ≠ name := fun same => by simp [← same, kept] at h
      simp [h, List.lookup_cons, beq_false_of_ne ne, ih]

def outside (names : List String) (entries : List (String × Value)) : List (String × Value) :=
  entries.filter fun entry => !names.contains entry.1

structure SameOutside (names : List String) (before after : Object) : Prop where
  entries : outside names after.entries = outside names before.entries
  ancestor : after.ancestor = before.ancestor

namespace SameOutside
variable {names : List String} {before middle after : Object}

theorem refl (o : Object) : SameOutside names o o := ⟨rfl, rfl⟩

theorem trans (first : SameOutside names before middle) (second : SameOutside names middle after) :
    SameOutside names before after :=
  ⟨second.entries.trans first.entries, second.ancestor.trans first.ancestor⟩

end SameOutside

theorem outside_insertEntry {names : List String} {key : String} (member : key ∈ names)
    (value : Value) (entries : List (String × Value)) :
    outside names (insertEntry key value entries) = outside names entries := by
  induction entries with
  | nil => simp [outside, insertEntry, member]
  | cons entry rest ih =>
    obtain ⟨name, v⟩ := entry
    by_cases same : name = key
    · simp [outside, insertEntry, same, member]
    · simp only [outside, insertEntry, same, if_false, List.filter_cons] at ih ⊢
      rw [ih]

theorem insert_sameOutside {names : List String} {key : String} (member : key ∈ names)
    (o : Object) (value : Value) : SameOutside names o (o.insert key value) :=
  ⟨outside_insertEntry member value o.entries, rfl⟩

def Binds (names : List String) (scope : Object) : Prop := ∀ name ∈ names, scope.hasOwn name = true

theorem Binds.insert {names : List String} {scope : Object} (h : scope.Binds names) (name : String)
    (v : Value) : (scope.insert name v).Binds (name :: names) := by
  intro other member
  rw [hasOwn, own?_insert]
  by_cases same : other = name
  · simp [same]
  · rw [if_neg same]
    exact h other ((List.mem_cons.mp member).resolve_left same)

theorem get?_eq (o : Object) (key : String) :
    o.get? key = (o.own? key).or (inherited? o.ancestor key) := by
  obtain ⟨entries, ancestor⟩ := o
  simp only [get?, own?]
  cases entries.lookup key <;> rfl

theorem plain_of_own {o : Object} {key : String} {v : Value} (own : o.own? key = some v)
    (ownOnly : Bool) : o.plain key ownOnly = v := by
  cases ownOnly <;> simp [plain, get?_eq, own]

/-- The two objects have the same entry under the name, if any. -/
structure SameAt (name : String) (d d' : Object) : Prop where
  own : d'.own? name = d.own? name
  any : d'.get? name = d.get? name
  size : name = "size" → d.contains name = true →
    (d.own? name).all (fun v => v matches .undefined | .computed ..) = true → d'.size = d.size

namespace SameAt
variable {name : String} {d d' : Object}

theorem insert {key : String} (other : name ≠ key) (uncounted : name ≠ "size") (d : Object)
    (v : Value) : SameAt name d (d.insert key v) where
  own := by rw [own?_insert, if_neg other]
  any := by rw [get?_eq, own?_insert, if_neg other, get?_eq]; rfl
  size counts := absurd counts uncounted

theorem contains (same : SameAt name d d') : d'.contains name = d.contains name := by
  rw [Object.contains, same.any, Object.contains]

theorem read (same : SameAt name d d') (there : d.contains name = true) (ownOnly : Bool) :
    d'.read name ownOnly = d.read name ownOnly := by
  have plain : d'.plain name ownOnly = d.plain name ownOnly := by
    rw [Object.plain, same.own, same.any, Object.plain]
  by_cases sized : name = "size" → d'.size = d.size
  · unfold Object.read
    rw [plain]
    funext s
    by_cases counts : name = "size"
    · rw [sized counts]
    · simp [counts]
  · -- The entry stands for itself, so that nothing is counted.
    obtain ⟨counts, differ⟩ := Classical.not_imp.mp sized
    have itself := fun all => differ (same.size counts there all)
    cases own : d.own? name with
    | none => simp [own] at itself
    | some v =>
      have defined := plain_of_own own ownOnly
      unfold Object.read
      rw [plain, defined]
      cases v <;> simp_all [callIfComputed, Value.isUndefined]

end SameAt

end Object
end Templating
