import Templating.Proofs.Value.Object
import Templating.State.Registers

namespace Templating
namespace Registers

theorem lookup_setSlot (key : String) (cell : Nat) (slots : List (String × Nat)) (k : String) :
    (setSlot key cell slots).lookup k = if k = key then some cell else slots.lookup k := by
  by_cases same : k = key
  · simp [setSlot, same]
  · have kept : (k != key) = true := by simpa using same
    have others := Object.lookup_filter (· != key) kept slots
    simp [setSlot, same, List.lookup_cons, beq_false_of_ne same, others]

structure TouchedOnly (key : String) (before after : Registers) : Prop where
  bag : after.id = before.id
  slots : ∀ k, k ≠ key → after.slot? k = before.slot? k
  cells : ∀ cell content, before.content? cell = some content → before.slot? key ≠ some cell →
    after.content? cell = some content
  own : ∀ cell, after.slot? key = some cell →
    before.slot? key = some cell ∨ before.cells.length ≤ cell
  grown : before.cells.length ≤ after.cells.length

namespace TouchedOnly
variable {key : String} {before middle after : Registers}

theorem refl (r : Registers) : TouchedOnly key r r :=
  ⟨rfl, fun _ _ => rfl, fun _ _ h _ => h, fun _ h => .inl h, Nat.le_refl _⟩

theorem length_of_content {r : Registers} {cell : Nat} {content : Cell}
    (h : r.content? cell = some content) : cell < r.cells.length :=
  (List.getElem?_eq_some_iff.mp h).1

theorem trans (first : TouchedOnly key before middle) (second : TouchedOnly key middle after) :
    TouchedOnly key before after where
  bag := second.bag.trans first.bag
  slots k ne := (second.slots k ne).trans (first.slots k ne)
  cells cell content h other := by
    refine second.cells cell content (first.cells cell content h other) fun mine => ?_
    cases first.own cell mine with
    | inl same => exact other same
    | inr fresh => exact Nat.not_le_of_lt (length_of_content h) fresh
  own cell h := by
    cases second.own cell h with
    | inl same => exact first.own cell same
    | inr fresh => exact .inr (Nat.le_trans first.grown fresh)
  grown := Nat.le_trans first.grown second.grown

end TouchedOnly

theorem content?_set {r : Registers} {cell : Nat} {old : Cell} (there : r.content? cell = some old)
    (key : String) (content : Cell) : (r.set key content).2.content? cell = some old := by
  have inside := TouchedOnly.length_of_content there
  simpa only [content?, set, List.getElem?_append_left inside] using there

theorem content?_get {r : Registers} {cell : Nat} {old : Cell} (there : r.content? cell = some old)
    (kind : CellKind) (key : String) : (r.get kind key).2.content? cell = some old := by
  unfold get
  split
  · exact there
  · exact content?_set there key kind.blank

theorem slot?_set (r : Registers) (key : String) (content : Cell) :
    (r.set key content).2.slot? key = some (r.set key content).1 := by
  simp [slot?, set, lookup_setSlot]

theorem set_touches (r : Registers) (key : String) (content : Cell) :
    TouchedOnly key r (r.set key content).2 where
  bag := rfl
  slots k ne := by simp [slot?, set, lookup_setSlot, ne]
  cells _ _ h _ := content?_set h key content
  own cell h := by
    rw [slot?_set] at h
    exact .inr (Nat.le_of_eq (Option.some.inj h))
  grown := by simp [set]

theorem slot?_get (r : Registers) (kind : CellKind) (key : String) :
    (r.get kind key).2.slot? key = some (r.get kind key).1 := by
  unfold get
  split
  · rename_i cell found
    exact (Option.filter_eq_some_iff.mp found).1
  · exact slot?_set r key kind.blank

theorem get_touches (r : Registers) (kind : CellKind) (key : String) :
    TouchedOnly key r (r.get kind key).2 := by
  unfold get
  split
  · exact .refl r
  · exact set_touches r key kind.blank

theorem write_touches {r : Registers} {key : String} {cell : Nat} (mine : r.slot? key = some cell)
    (content : Cell) : TouchedOnly key r (r.write cell content) where
  bag := rfl
  slots _ _ := rfl
  cells other old h ne := by
    have apart : cell ≠ other := fun same => ne (same ▸ mine)
    simpa only [content?, write, List.getElem?_set_ne apart] using h
  own _ h := .inl h
  grown := by simp [write]

end Registers
end Templating
