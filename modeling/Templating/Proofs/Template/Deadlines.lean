import Mathlib.Data.Nat.Find
import Mathlib.Logic.Function.Iterate
import Mathlib.Order.Monotone.Defs
import Mathlib.Order.Nat
import Templating.Engine
import Templating.Proofs.Template.Frame

/-!
Time limits. Counting the looks at a clock tells all that a clock which never goes back can tell
of one moment.
-/
namespace Templating

namespace Budget

theorem look_iterate (resource : Resource) (looks : Option Nat) (n : Nat) :
    look^[n] ⟨resource, .deadline looks⟩ = ⟨resource, .deadline (looks.map (· - n))⟩ := by
  induction n generalizing looks with
  | zero => cases looks <;> rfl
  | succ n ih =>
    rw [Function.iterate_succ_apply]
    refine (ih _).trans ?_
    cases looks with
    | none => rfl
    | some looks =>
      have less : looks.pred - n = looks - (n + 1) := by
        rw [Nat.pred_eq_sub_one]
        omega
      simp only [Option.map_some, less]

/-- Whatever a clock shows at one look after the other, some count of looks stands for the
    moment: the count is used up by exactly those looks that find the moment passed. -/
theorem exists_looks (readings : Nat → Nat) (forward : Monotone readings) (moment : Nat) :
    ∃ looks, ∀ n, (look^[n + 1] ⟨.rendering, .deadline looks⟩).isExceeded =
      decide (moment < readings n) := by
  by_cases passes : ∃ n, moment < readings n
  · refine ⟨some (Nat.find passes + 1), fun n => ?_⟩
    have first : Nat.find passes ≤ n ↔ moment < readings n :=
      ⟨fun reached => (Nat.find_spec passes).trans_le (forward reached), Nat.find_min' passes⟩
    have spent : Nat.find passes + 1 - (n + 1) = 0 ↔ moment < readings n := by
      rw [← first]
      omega
    rw [look_iterate, Bool.eq_iff_iff, decide_eq_true_iff]
    exact beq_iff_eq.trans (Option.some_inj.trans spent)
  · refine ⟨none, fun n => ?_⟩
    have never : ¬moment < readings n := fun late => passes ⟨n, late⟩
    rw [look_iterate, decide_eq_false never]
    rfl

theorem isExceeded_look {b : Budget} (exceeded : b.isExceeded = true) :
    b.look.isExceeded = true := by
  obtain ⟨resource, allowance⟩ := b
  cases allowance with
  | unbounded => exact exceeded
  | units limit used => exact exceeded
  | deadline looks =>
    have spent : looks = some 0 := eq_of_beq exceeded
    subst spent
    rfl

end Budget

def Looked (s t : State) : Prop := ∃ n, t.time = Budget.look^[n] s.time

namespace Looked

theorem of_time {s t : State} (same : t.time = s.time) : Looked s t := ⟨0, same⟩

theorem trans (s t u : State) (first : Looked s t) (second : Looked t u) : Looked s u := by
  obtain ⟨n, before⟩ := first
  obtain ⟨m, later⟩ := second
  exact ⟨m + n, by rw [later, before, Function.iterate_add_apply]⟩

theorem isExceeded {s t : State} (h : Looked s t) (exceeded : s.time.isExceeded = true) :
    t.time.isExceeded = true := by
  obtain ⟨n, same⟩ := h
  rw [same]
  exact Function.Iterate.rec (fun b : Budget => b.isExceeded = true) exceeded
    (fun _ => Budget.isExceeded_look) n

theorem frame : Frame Looked Looked where
  refl _ := .of_time rfl
  trans := trans
  inside_refl _ := .of_time rfl
  inside_trans := trans
  enter _ _ h := h
  leave _ _ _ _ _ h := h
  bindTop _ _ _ := .of_time rfl
  open_loop _ _ _ _ _ := .of_time rfl
  jump _ _ _ := .of_time rfl
  write _ _ := .of_time rfl
  look _ := ⟨1, rfl⟩

end Looked

/-- Wherever a render stops, its deadline is the one it started with, nearer by some looks. -/
theorem render_looks (nodes : List Node)
    (custom : ∀ c ∈ customs nodes, ∀ parts : List (Task Unit),
      (∀ part ∈ parts, part.Keeps Looked) → (c.render parts).Keeps Looked)
    {s final : State} (stops : (renderAll nodes).StopsIn s final) : Looked s final :=
  have keeps : (renderAll nodes).Keeps Looked :=
    Looked.frame.render_keeps nodes (fun _ _ _ _ => .of_time rfl) (fun _ _ _ _ => .of_time rfl)
      custom
  keeps.stops Looked.trans stops

/-- After the deadline not one node more is rendered, whatever was done since it passed. -/
theorem renderAll_overdue (n : Node) (rest : List Node) {s t : State} (looked : Looked s t)
    (exceeded : s.time.isExceeded = true) :
    renderAll (n :: rest) t = .failed (.resourceExceeded t.time.resource) t.look := by
  have stays : t.look.time.isExceeded = true := Budget.isExceeded_look (looked.isExceeded exceeded)
  have fails : Task.checkTime t = .failed (.resourceExceeded t.time.resource) t.look :=
    if_pos stays
  change (Task.checkTime t).bind _ = _
  rw [fails]
  rfl

end Templating
