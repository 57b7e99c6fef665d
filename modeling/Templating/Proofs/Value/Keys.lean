import Mathlib.Data.List.Basic
import Templating.Value.Object

namespace Templating

theorem lookup_perm {entries entries' : List (String × Value)} (perm : entries.Perm entries')
    (distinct : (entries.map (·.1)).Nodup) (key : String) :
    entries.lookup key = entries'.lookup key := by
  induction perm with
  | nil => rfl
  | cons entry _ ih =>
    obtain ⟨k, v⟩ := entry
    rw [List.lookup_cons, List.lookup_cons, ih (List.nodup_cons.mp distinct).2]
  | swap first second rest =>
    obtain ⟨k, v⟩ := first
    obtain ⟨k', v'⟩ := second
    have apart : k ≠ k' := by
      rintro rfl
      simp at distinct
    by_cases here : key = k
    · subst here
      simp [List.lookup_cons, beq_false_of_ne apart]
    · simp [List.lookup_cons, beq_false_of_ne here]
  | trans perm _ ih ih' =>
    rw [ih distinct, ih' ((perm.map (·.1)).nodup_iff.mp distinct)]

theorem lookup_of_mem {entries : List (String × Value)} (distinct : (entries.map (·.1)).Nodup)
    {key : String} {v : Value} (member : (key, v) ∈ entries) : entries.lookup key = some v := by
  obtain ⟨before, after, rfl⟩ := List.append_of_mem member
  rw [lookup_perm List.perm_middle distinct, List.lookup_cons_self]

namespace Object

theorem own?_isSome {o : Object} {key : String} : (o.own? key).isSome ↔ key ∈ o.keys := by
  simp [own?, keys, Option.isSome_iff_ne_none, List.lookup_eq_none_iff]

theorem keys_insertEntry (key : String) (v : Value) (entries : List (String × Value)) :
    (insertEntry key v entries).map (·.1)
      = if key ∈ entries.map (·.1) then entries.map (·.1) else entries.map (·.1) ++ [key] := by
  induction entries with
  | nil => rfl
  | cons entry rest ih =>
    by_cases same : entry.1 = key
    · simp [insertEntry, same]
    · have other : key ≠ entry.1 := Ne.symm same
      simp only [insertEntry, same, if_false, List.map_cons, ih, List.mem_cons, other, false_or]
      by_cases known : key ∈ rest.map (·.1)
      · rw [if_pos known, if_pos known]
      · rw [if_neg known, if_neg known, List.cons_append]

theorem keys_insert (o : Object) (key : String) (v : Value) :
    (o.insert key v).keys = if key ∈ o.keys then o.keys else o.keys ++ [key] :=
  keys_insertEntry key v o.entries

theorem forall_mem_insertEntry {P : Value → Prop} {key : String} {v : Value} (h : P v)
    {entries : List (String × Value)} (all : ∀ e ∈ entries, P e.2) :
    ∀ e ∈ insertEntry key v entries, P e.2 := by
  induction entries with
  | nil => simpa [insertEntry] using h
  | cons first rest ih =>
    obtain ⟨name, w⟩ := first
    rw [List.forall_mem_cons] at all
    unfold insertEntry
    split
    · exact List.forall_mem_cons.mpr ⟨h, all.2⟩
    · exact List.forall_mem_cons.mpr ⟨all.1, ih all.2⟩

def Distinct (o : Object) : Prop := o.keys.Nodup

theorem distinct_empty : empty.Distinct := List.nodup_nil

theorem Distinct.insert {o : Object} (distinct : o.Distinct) (key : String) (v : Value) :
    (o.insert key v).Distinct := by
  unfold Distinct
  rw [keys_insert]
  split
  · exact distinct
  · rename_i fresh
    refine List.nodup_append.mpr ⟨distinct, by simp, ?_⟩
    rintro k member _ last rfl
    rw [List.mem_singleton.mp last] at member
    exact fresh member

end Object
end Templating
