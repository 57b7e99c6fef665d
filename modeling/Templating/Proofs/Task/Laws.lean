import Templating.Task.Basic

namespace Templating

namespace Step
variable {α β γ : Type}

theorem bind_done_right (x : Step α) : x.bind .done = x := by
  induction x with
  | done a s => rfl
  | failed e s => rfl
  | waiting id label s unwind resume ih =>
    simp only [bind, Step.waiting.injEq, true_and]
    exact funext ih

theorem bind_assoc (x : Step α) (f : α → State → Step β) (g : β → State → Step γ) :
    (x.bind f).bind g = x.bind fun a s => (f a s).bind g := by
  induction x with
  | done a s => rfl
  | failed e s => rfl
  | waiting id label s unwind resume ih =>
    simp only [bind, Step.waiting.injEq, true_and]
    exact funext ih

end Step

namespace Task
variable {α β : Type}

instance : LawfulMonad Task := LawfulMonad.mk' Task
  (fun t => funext fun s => (t s).bind_done_right)
  (fun _ _ => rfl)
  (fun t f g => funext fun s => (t s).bind_assoc f g)

theorem bind_apply (t : Task α) (f : α → Task β) (s : State) :
    (t >>= f) s = (t s).bind fun a s => f a s := rfl

theorem settle_closed {P : Task Value → Prop} (ready : ∀ v, P (pure v))
    (waits : ∀ id label t, P t → P (do wait id label; t)) : ∀ v : Value, P (settle v)
  | .deferred id label result => waits id label _ (settle_closed ready waits result)
  | .undefined | .nil | .bool _ | .int _ | .float _ | .str _ | .array _ | .object _ | .drop _
  | .position _ | .computed .. => ready _
termination_by structural v => v

mutual

theorem resolve_closed {P : Task Value → Prop} (ready : ∀ v, P (pure v))
    (waits : ∀ id label t, P t → P (do wait id label; t)) : ∀ v : Value, P (resolve v)
  | .deferred id label result => waits id label _ (resolve_closed ready waits result)
  | .drop ⟨_, _, _, _, _, whole⟩ => resolveWhole_closed ready waits _ whole
  | .undefined | .nil | .bool _ | .int _ | .float _ | .str _ | .array _ | .object _
  | .position _ | .computed .. => ready _
termination_by structural v => v

theorem resolveWhole_closed {P : Task Value → Prop} (ready : ∀ v, P (pure v))
    (waits : ∀ id label t, P t → P (do wait id label; t)) (d : Drop) :
    ∀ whole : Option Value, P (resolveWhole d whole)
  | none => ready _
  | some v => resolve_closed ready waits v
termination_by structural whole => whole

end

end Task
end Templating
