import Templating.Proofs.Value.Object

namespace Templating

def syntheticNames : List String := ["size", "first", "last"]

theorem synthetic_unnamed {name : String} (other : name ∉ syntheticNames) (receiver : Value) :
    synthetic receiver name = fun s => (.undefined, s) := by
  simp only [syntheticNames, List.mem_cons, List.not_mem_nil, or_false, not_or] at other
  simp only [synthetic, other, if_false]

namespace Object

/-- The two objects have the same own entries, in whichever order. -/
structure SameOwn (o o' : Object) : Prop where
  own : ∀ key, o'.own? key = o.own? key
  size : o'.size = o.size

variable {o o' : Object}

theorem read_congr {key : String} {ownOnly : Bool}
    (plain : o'.plain key ownOnly = o.plain key ownOnly) (size : o'.size = o.size) :
    o'.read key ownOnly = o.read key ownOnly := by
  unfold Object.read
  rw [plain, size]

namespace SameOwn

theorem plain_own (same : SameOwn o o') (key : String) : o'.plain key true = o.plain key true := by
  simp only [plain, if_true, same.own]

theorem plain_any (same : SameOwn o o') {key : String}
    (alike : o.own? key = none → inherited? o'.ancestor key = inherited? o.ancestor key) :
    o'.plain key false = o.plain key false := by
  cases own : o.own? key with
  | some v => rw [plain_of_own own, plain_of_own ((same.own key).trans own)]
  | none => simp only [plain, get?_eq, same.own, own, alike own]

theorem synthetic (same : SameOwn o o') {name : String}
    (alike : name ∈ syntheticNames → o.own? name = none →
      inherited? o'.ancestor name = inherited? o.ancestor name) :
    synthetic (.object o') name = Templating.synthetic (.object o) name := by
  by_cases named : name ∈ syntheticNames
  · have again := read_congr (same.plain_any (alike named)) same.size
    simp only [syntheticNames, List.mem_cons, List.not_mem_nil, or_false] at named
    rcases named with rfl | rfl | rfl <;> exact again
  · simp only [syntheticNames, List.mem_cons, List.not_mem_nil, or_false, not_or] at named
    simp only [Templating.synthetic, named, if_false]

end SameOwn
end Object

/-- Where only own entries count, ancestors make no difference to a read but by an entry under
    `size`, `first` or `last` that no own entry hides. -/
theorem own_reads_hide_ancestors {o o' : Object} (same : o.SameOwn o') (key : Value)
    (alike : key.keyText ∈ syntheticNames → o.own? key.keyText = none →
      Object.inherited? o'.ancestor key.keyText = Object.inherited? o.ancestor key.keyText) :
    readProperty (.object o') key true = readProperty (.object o) key true := by
  have byName (p : Object) :
      readProperty (.object p) key true = readByName (.object p) key.keyText true := rfl
  have found :
      plainRead (.object o') key.keyText true = plainRead (.object o) key.keyText true := by
    funext s
    simp only [plainRead, same.plain_own]
  rw [byName, byName]
  unfold readByName
  rw [found, same.synthetic alike]

theorem own_reads_hide_ancestors_first :
    let o : Object := ⟨[("a", .int 1)], some ⟨[("first", .int 2)], none⟩⟩
    let o' : Object := ⟨[("a", .int 1)], some ⟨[("first", .int 2), ("b", .int 3)], none⟩⟩
    o.SameOwn o' ∧ (o.own? "first" = none →
        Object.inherited? o'.ancestor "first" = Object.inherited? o.ancestor "first") ∧
      readProperty (.object o') (.str "first") true
        = readProperty (.object o) (.str "first") true := by
  intro o o'
  have same : o.SameOwn o' := ⟨fun _ => rfl, rfl⟩
  exact ⟨same, fun _ => rfl, own_reads_hide_ancestors same (.str "first") fun _ _ => rfl⟩

theorem inherited_first_shows :
    ¬ ∀ (o o' : Object) (key : Value), o.SameOwn o' →
      readProperty (.object o') key true = readProperty (.object o) key true := by
  intro hidden
  have reads := congrFun (hidden ⟨[], none⟩ ⟨[], some ⟨[("first", .int 2)], none⟩⟩ (.str "first")
    ⟨fun _ => rfl, rfl⟩) Store.empty
  exact absurd (congrArg (fun r => r.1.isUndefined) reads) (by decide)

end Templating
