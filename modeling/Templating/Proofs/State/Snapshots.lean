import Templating.Proofs.State.Registers

/-!
Snapshots give slots back. A bag of registers is reached through handles, copies of one another
among them; through any of them cells are asked for, put into slots and written, and slots are
saved and restored.
-/
namespace Templating

theorem getElem?_of_prefix {α : Type} {short long : List α} (grown : short <+: long) {n : Nat}
    {a : α} (there : short[n]? = some a) : long[n]? = some a := by
  obtain ⟨rest, rfl⟩ := grown
  exact (List.getElem?_append_left (List.getElem?_eq_some_iff.mp there).1).trans there

namespace Registers

def kindAt? (r : Registers) (cell : Nat) : Option CellKind := (r.content? cell).map Cell.kind

/-- What is written into the cell is what the slot gives, and the other way round. -/
structure Aliases (r : Registers) (cell : Nat) (key : String) : Prop where
  gives : ∀ kind, r.kindAt? cell = some kind → r.get kind key = (cell, r)
  shows : ∀ content, r.kindAt? cell = some content.kind →
    (r.write cell content).get content.kind key = (cell, r.write cell content) ∧
    (r.write cell content).content? cell = some content

theorem get_of_slot {r : Registers} {key : String} {cell : Nat} {kind : CellKind}
    (slot : r.slot? key = some cell) (alike : r.kindAt? cell = some kind) :
    r.get kind key = (cell, r) := by
  have found : r.find? kind key = some cell := by
    rw [find?, slot]
    exact Option.filter_eq_some_iff.mpr ⟨rfl, beq_iff_eq.mpr alike⟩
  rw [get, found]

theorem length_of_kind {r : Registers} {cell : Nat} {kind : CellKind}
    (alike : r.kindAt? cell = some kind) : cell < r.cells.length := by
  obtain ⟨_, content, -⟩ := Option.map_eq_some_iff.mp alike
  exact TouchedOnly.length_of_content content

theorem content?_write {r : Registers} {cell : Nat} (inside : cell < r.cells.length)
    (content : Cell) (other : Nat) :
    (r.write cell content).content? other
      = if other = cell then some content else r.content? other := by
  by_cases same : other = cell
  · subst same
    rw [if_pos rfl]
    exact List.getElem?_set_self inside
  · rw [if_neg same]
    exact List.getElem?_set_ne (Ne.symm same)

theorem aliases_of_slot {r : Registers} {key : String} {cell : Nat}
    (slot : r.slot? key = some cell) : r.Aliases cell key where
  gives _ alike := get_of_slot slot alike
  shows content alike := by
    have written : (r.write cell content).content? cell = some content := by
      rw [content?_write (length_of_kind alike), if_pos rfl]
    refine ⟨get_of_slot (r := r.write cell content) slot ?_, written⟩
    rw [kindAt?, written]
    rfl

def Rooted (r : Registers) : Prop :=
  ∀ key cell, r.slot? key = some cell → (r.kindAt? cell).isSome

theorem Rooted.set {r : Registers} (rooted : r.Rooted) (key : String) (content : Cell) :
    (r.set key content).2.Rooted := by
  intro k cell slot
  rw [slot?, Registers.set, lookup_setSlot] at slot
  split at slot
  · cases slot
    simp [kindAt?, content?, Registers.set]
  · obtain ⟨kind, alike⟩ := Option.isSome_iff_exists.mp (rooted k cell slot)
    obtain ⟨old, there, -⟩ := Option.map_eq_some_iff.mp alike
    rw [kindAt?, content?_set there]
    rfl

theorem Rooted.get {r : Registers} (rooted : r.Rooted) (kind : CellKind) (key : String) :
    (r.get kind key).2.Rooted := by
  unfold Registers.get
  split
  · exact rooted
  · exact rooted.set key kind.blank

theorem lookup_restoreSlot (slots : List (String × Nat)) (key : String) (slot : Option Nat)
    (k : String) : (restoreSlot slots (key, slot)).lookup k
      = if k = key then slot else slots.lookup k := by
  cases slot with
  | some cell => exact lookup_setSlot key cell slots k
  | none =>
    by_cases same : k = key
    · subst same
      rw [if_pos rfl, restoreSlot, dropSlot, List.lookup_eq_none_iff]
      intro entry member
      have other : entry.1 ≠ k := bne_iff_ne.mp (List.mem_filter.mp member).2
      exact bne_iff_ne.mpr other.symm
    · have kept : (k != key) = true := by simpa using same
      have others := Object.lookup_filter (· != key) kept slots
      simp [restoreSlot, dropSlot, same, others]

theorem slot?_restore_save (before inside : Registers) (keys : List String) (key : String) :
    (inside.restore (before.save keys)).slot? key
      = if key ∈ keys then before.slot? key else inside.slot? key := by
  simp only [restore, save, slot?]
  generalize inside.slots = slots
  induction keys generalizing slots with
  | nil => rfl
  | cons first rest ih =>
    rw [List.map_cons, List.foldl_cons, ih, lookup_restoreSlot]
    by_cases here : key = first
    · subst here
      simp
    · simp [here]

theorem slot?_restore_cases {r : Registers} {s : Snapshot} {key : String} {cell : Nat}
    (slot : (r.restore s).slot? key = some cell) :
    r.slot? key = some cell ∨ ∃ saved ∈ s.saved, saved.2 = some cell := by
  simp only [restore, slot?] at slot ⊢
  obtain ⟨saved⟩ := s
  generalize r.slots = slots at slot ⊢
  induction saved generalizing slots with
  | nil => exact .inl slot
  | cons first rest ih =>
    obtain ⟨k, kept⟩ := first
    cases ih _ slot with
    | inr later =>
      obtain ⟨saved, member, same⟩ := later
      exact .inr ⟨saved, List.mem_cons_of_mem _ member, same⟩
    | inl now =>
      rw [lookup_restoreSlot] at now
      split at now
      · exact .inr ⟨(k, kept), List.mem_cons_self, now⟩
      · exact .inl now

end Registers

inductive Access where
  | get (kind : CellKind) (key : String)
  | set (key : String) (content : Cell)
  | write (cell : Nat) (content : Cell)
  | save (keys : List String)
  | restore (snapshot : Nat)

structure Bag where
  registers : Registers
  snapshots : List Snapshot

namespace Bag

def access (b : Bag) : Access → Option Bag
  | .get kind key => some { b with registers := (b.registers.get kind key).2 }
  | .set key content => some { b with registers := (b.registers.set key content).2 }
  | .write cell content =>
    if b.registers.kindAt? cell = some content.kind then
      some { b with registers := b.registers.write cell content }
    else none
  | .save keys => some { b with snapshots := b.snapshots ++ [b.registers.save keys] }
  | .restore n => b.snapshots[n]?.map fun s => { b with registers := b.registers.restore s }

def run (b : Bag) (accesses : List Access) : Option Bag := accesses.foldlM access b

def noted (cell : Nat) (content : Cell) : Access → Cell
  | .write c new => if cell = c then new else content
  | _ => content

structure Follows (accesses : List Access) (b b' : Bag) : Prop where
  id : b'.registers.id = b.registers.id
  snapshots : b.snapshots <+: b'.snapshots
  contents : ∀ cell content, b.registers.content? cell = some content →
    b'.registers.content? cell = some (accesses.foldl (noted cell) content)
  kinds : ∀ cell kind, b.registers.kindAt? cell = some kind → b'.registers.kindAt? cell = some kind

namespace Follows
variable {b m b' : Bag} {first second : List Access}

theorem refl (b : Bag) : Follows [] b b :=
  ⟨rfl, List.prefix_rfl, fun _ _ there => there, fun _ _ alike => alike⟩

theorem trans (before : Follows first b m) (after : Follows second m b') :
    Follows (first ++ second) b b' where
  id := after.id.trans before.id
  snapshots := before.snapshots.trans after.snapshots
  contents cell content there := by
    rw [List.foldl_append]
    exact after.contents cell _ (before.contents cell content there)
  kinds cell kind alike := after.kinds cell kind (before.kinds cell kind alike)

end Follows

variable {b b' : Bag} {a : Access}

theorem access_follows (done : b.access a = some b') : Follows [a] b b' := by
  cases a with
  | get kind key =>
    cases done
    refine ⟨(Registers.get_touches b.registers kind key).bag, List.prefix_rfl,
      fun _ _ there => Registers.content?_get there kind key, fun cell _ alike => ?_⟩
    obtain ⟨_, there, rfl⟩ := Option.map_eq_some_iff.mp alike
    rw [Registers.kindAt?, Registers.content?_get there kind key, Option.map_some]
  | set key new =>
    cases done
    refine ⟨rfl, List.prefix_rfl, fun _ _ there => Registers.content?_set there key new,
      fun cell _ alike => ?_⟩
    obtain ⟨_, there, rfl⟩ := Option.map_eq_some_iff.mp alike
    rw [Registers.kindAt?, Registers.content?_set there key new, Option.map_some]
  | write written new =>
    obtain ⟨own, same⟩ := Option.ite_none_right_eq_some.mp done
    cases same
    have writes := Registers.content?_write (Registers.length_of_kind own) new
    refine ⟨rfl, List.prefix_rfl, fun cell content there => ?_, fun cell kind alike => ?_⟩
    · rw [writes, there]
      by_cases here : cell = written <;> simp [noted, here]
    · rw [Registers.kindAt?, writes]
      split
      · rename_i here
        rwa [here, own] at alike
      · exact alike
  | save keys =>
    cases done
    exact ⟨rfl, List.prefix_append _ _, fun _ _ there => there, fun _ _ alike => alike⟩
  | restore n =>
    obtain ⟨_, _, same⟩ := Option.map_eq_some_iff.mp done
    cases same
    exact ⟨rfl, List.prefix_rfl, fun _ _ there => there, fun _ _ alike => alike⟩

theorem run_cons_eq_some {accesses : List Access} (ran : b.run (a :: accesses) = some b') :
    ∃ m, b.access a = some m ∧ m.run accesses = some b' := by
  rw [run, List.foldlM_cons] at ran
  exact Option.bind_eq_some_iff.mp ran

theorem run_follows {accesses : List Access} (ran : b.run accesses = some b') :
    Follows accesses b b' := by
  induction accesses generalizing b with
  | nil =>
    cases ran
    exact .refl _
  | cons a rest ih =>
    obtain ⟨m, done, ran⟩ := run_cons_eq_some ran
    exact (access_follows done).trans (ih ran)

structure Sound (b : Bag) : Prop where
  rooted : b.registers.Rooted
  saved : ∀ s ∈ b.snapshots, ∀ entry ∈ s.saved, ∀ cell, entry.2 = some cell →
    (b.registers.kindAt? cell).isSome

theorem sound_empty (id : Nat) : Sound ⟨.empty id, []⟩ := ⟨nofun, nofun⟩

theorem Sound.access {b b' : Bag} {a : Access} (sound : b.Sound) (done : b.access a = some b') :
    b'.Sound := by
  have still {cell : Nat} (there : (b.registers.kindAt? cell).isSome) :
      (b'.registers.kindAt? cell).isSome := by
    obtain ⟨kind, alike⟩ := Option.isSome_iff_exists.mp there
    rw [(access_follows done).kinds cell kind alike]
    rfl
  have saved : ∀ s ∈ b.snapshots, ∀ entry ∈ s.saved, ∀ cell, entry.2 = some cell →
      (b'.registers.kindAt? cell).isSome :=
    fun s member entry inside cell same => still (sound.saved s member entry inside cell same)
  cases a with
  | get kind key =>
    cases done
    exact ⟨sound.rooted.get kind key, saved⟩
  | set key new =>
    cases done
    exact ⟨sound.rooted.set key new, saved⟩
  | write written new =>
    obtain ⟨-, same⟩ := Option.ite_none_right_eq_some.mp done
    cases same
    exact ⟨fun key cell slot => still (sound.rooted key cell slot), saved⟩
  | save keys =>
    cases done
    refine ⟨sound.rooted, List.forall_mem_append.mpr ⟨saved, List.forall_mem_singleton.mpr ?_⟩⟩
    intro entry member cell same
    obtain ⟨key, -, rfl⟩ := List.mem_map.mp member
    exact sound.rooted key cell same
  | restore n =>
    obtain ⟨s, found, same⟩ := Option.map_eq_some_iff.mp done
    cases same
    refine ⟨fun key cell slot => ?_, saved⟩
    cases Registers.slot?_restore_cases slot with
    | inl own => exact sound.rooted key cell own
    | inr old =>
      obtain ⟨entry, member, same⟩ := old
      exact sound.saved s (List.mem_of_getElem? found) entry member cell same

end Bag

/-- What is done with handles to bags: a new bag is made with a handle of its own, a handle is
    copied, or something is asked of a bag through a handle to it. -/
inductive Operation where
  | create
  | copy (handle : Nat)
  | through (handle : Nat) (access : Access)

/-- Bags, and handles that say which bag they lead to. -/
structure Shelf where
  bags : List Bag
  handles : List Nat

namespace Shelf

def empty : Shelf := ⟨[], []⟩

def bag? (d : Shelf) (handle : Nat) : Option Bag := do
  let number ← d.handles[handle]?
  d.bags[number]?

def step (d : Shelf) : Operation → Option Shelf
  | .create => some ⟨d.bags ++ [⟨.empty d.bags.length, []⟩], d.handles ++ [d.bags.length]⟩
  | .copy handle => d.handles[handle]?.map fun number => { d with handles := d.handles ++ [number] }
  | .through handle a => do
    let number ← d.handles[handle]?
    let bag ← d.bags[number]?
    let bag ← bag.access a
    return { d with bags := d.bags.set number bag }

def run (d : Shelf) (operations : List Operation) : Option Shelf := operations.foldlM step d

def asked (handles : List Nat) (number : Nat) : Operation → Option Access
  | .through handle a => if handles[handle]? = some number then some a else none
  | _ => none

variable {d d' : Shelf}

theorem step_through {handle : Nat} {a : Access} :
    d.step (.through handle a) = some d' ↔ ∃ number bag bag', d.handles[handle]? = some number ∧
      d.bags[number]? = some bag ∧ bag.access a = some bag' ∧
      d' = { d with bags := d.bags.set number bag' } := by
  simp only [step, Option.bind_eq_bind, Option.bind_eq_some_iff, Option.pure_def, Option.some.injEq]
  constructor
  · rintro ⟨number, leads, bag, there, bag', done, rfl⟩
    exact ⟨number, bag, bag', leads, there, done, rfl⟩
  · rintro ⟨number, bag, bag', leads, there, done, rfl⟩
    exact ⟨number, leads, bag, there, bag', done, rfl⟩

/-- Handles lead to bags for good, and a bag sees just what is asked of it, through whichever
    handle. -/
structure Follows (operations : List Operation) (d d' : Shelf) : Prop where
  handles : d.handles <+: d'.handles
  bags : ∀ (number : Nat) (bag : Bag), d.bags[number]? = some bag →
    ∃ bag' : Bag, d'.bags[number]? = some bag' ∧
      ∀ later, d'.handles <+: later →
        bag.run (operations.filterMap (asked later number)) = some bag'

theorem Follows.refl (d : Shelf) : Follows [] d d :=
  ⟨List.prefix_rfl, fun _ bag there => ⟨bag, there, fun _ _ => rfl⟩⟩

theorem Follows.trans {first second : List Operation} {d m d' : Shelf} (before : Follows first d m)
    (after : Follows second m d') : Follows (first ++ second) d d' where
  handles := before.handles.trans after.handles
  bags number bag there := by
    obtain ⟨middle, stays, ran⟩ := before.bags number bag there
    obtain ⟨last, stays', ran'⟩ := after.bags number middle stays
    refine ⟨last, stays', fun later grown => ?_⟩
    rw [List.filterMap_append, Bag.run, List.foldlM_append]
    exact Option.bind_eq_some_iff.mpr
      ⟨middle, ran later (after.handles.trans grown), ran' later grown⟩

theorem step_follows {op : Operation} (done : d.step op = some d') : Follows [op] d d' := by
  cases op with
  | create =>
    cases done
    refine ⟨List.prefix_append _ _, fun number bag there => ⟨bag, ?_, fun _ _ => rfl⟩⟩
    exact (List.getElem?_append_left (List.getElem?_eq_some_iff.mp there).1).trans there
  | copy handle =>
    obtain ⟨_, _, same⟩ := Option.map_eq_some_iff.mp done
    cases same
    exact ⟨List.prefix_append _ _, fun number bag there => ⟨bag, there, fun _ _ => rfl⟩⟩
  | through handle a =>
    obtain ⟨mine, bag, bag', leads, there, given, rfl⟩ := step_through.mp done
    refine ⟨List.prefix_rfl, fun number old stood => ?_⟩
    have lasting {later : List Nat} (grown : d.handles <+: later) :
        later[handle]? = some mine := getElem?_of_prefix grown leads
    by_cases same : mine = number
    · subst same
      rw [there] at stood
      cases stood
      refine ⟨bag', List.getElem?_set_self (List.getElem?_eq_some_iff.mp there).1,
        fun later grown => ?_⟩
      simp [asked, lasting grown, Bag.run, given]
    · refine ⟨old, (List.getElem?_set_ne same).trans stood, fun later grown => ?_⟩
      simp [asked, lasting grown, same, Bag.run]

theorem run_cons_eq_some {op : Operation} {operations : List Operation}
    (ran : d.run (op :: operations) = some d') :
    ∃ m, d.step op = some m ∧ m.run operations = some d' := by
  rw [run, List.foldlM_cons] at ran
  exact Option.bind_eq_some_iff.mp ran

theorem run_follows {operations : List Operation} (ran : d.run operations = some d') :
    Follows operations d d' := by
  induction operations generalizing d with
  | nil =>
    cases ran
    exact .refl _
  | cons op rest ih =>
    obtain ⟨m, done, ran⟩ := run_cons_eq_some ran
    exact (step_follows done).trans (ih ran)

def Sound (d : Shelf) : Prop :=
  ∀ (number : Nat) (bag : Bag), d.bags[number]? = some bag →
    bag.registers.id = number ∧ bag.Sound

theorem Sound.step (sound : d.Sound) {op : Operation} (done : d.step op = some d') : d'.Sound := by
  cases op with
  | create =>
    cases done
    intro number bag there
    rw [List.getElem?_append] at there
    split at there
    · exact sound number bag there
    · rename_i beyond
      obtain ⟨rfl, rfl⟩ : number = d.bags.length ∧ ⟨.empty d.bags.length, []⟩ = bag := by
        obtain ⟨last, same⟩ := List.getElem?_eq_some_iff.mp there
        simp only [List.length_singleton] at last
        exact ⟨by omega, by simpa using same⟩
      exact ⟨rfl, Bag.sound_empty _⟩
  | copy handle =>
    obtain ⟨_, _, same⟩ := Option.map_eq_some_iff.mp done
    cases same
    exact sound
  | through handle a =>
    obtain ⟨mine, bag, bag', -, there, given, rfl⟩ := step_through.mp done
    intro number other stands
    obtain ⟨numbered, firm⟩ := sound mine bag there
    by_cases same : mine = number
    · subst same
      rw [List.getElem?_set_self (List.getElem?_eq_some_iff.mp there).1] at stands
      cases stands
      exact ⟨(Bag.access_follows given).id.trans numbered, firm.access given⟩
    · rw [List.getElem?_set_ne same] at stands
      exact sound number other stands

theorem Sound.run (sound : d.Sound) {operations : List Operation}
    (ran : d.run operations = some d') : d'.Sound := by
  induction operations generalizing d with
  | nil =>
    cases ran
    exact sound
  | cons op rest ih =>
    obtain ⟨m, done, ran⟩ := run_cons_eq_some ran
    exact ih (sound.step done) ran

theorem sound_empty : empty.Sound := nofun

/-- What a cell of a bag was last given by the operations, or else the content that it had. -/
def lastWritten (handles : List Nat) (number cell : Nat) (content : Cell)
    (operations : List Operation) : Cell :=
  (operations.filterMap (asked handles number)).foldl (Bag.noted cell) content

theorem bag?_eq_some {handle : Nat} {bag : Bag} : d.bag? handle = some bag ↔
    ∃ number, d.handles[handle]? = some number ∧ d.bags[number]? = some bag := by
  simp only [bag?, Option.bind_eq_bind, Option.bind_eq_some_iff]

/-- Slots are saved, other things are done, and the snapshot is restored through any handle to the
    bag. Then each named slot is back at the cell that it had, or gone if there was none, and the
    others are where they were just before. A cell that a named slot had has what was last written
    into it, and what is written into it from now on is what the slot gives. -/
theorem snapshot_restores_slots {earlier between : List Operation} {d m : Shelf} {handle : Nat}
    {keys : List String} (reached : empty.run earlier = some d)
    (ran : d.run (.through handle (.save keys) :: between) = some m) :
    ∃ number before inside, d.handles[handle]? = some number ∧ d.bags[number]? = some before ∧
      m.bag? handle = some inside ∧
      ∀ handle' other, m.bag? handle' = some other →
        other.registers.sameBag inside.registers = true →
        ∃ d' after, m.step (.through handle' (.restore before.snapshots.length)) = some d' ∧
          d'.bag? handle = some after ∧ d'.bag? handle' = some after ∧
          after.registers.cells = inside.registers.cells ∧
          (∀ key ∉ keys, after.registers.slot? key = inside.registers.slot? key) ∧
          ∀ key ∈ keys, after.registers.slot? key = before.registers.slot? key ∧
            ∀ cell, before.registers.slot? key = some cell →
              after.registers.Aliases cell key ∧
              ∃ content, before.registers.content? cell = some content ∧
                after.registers.content? cell
                  = some (lastWritten m.handles number cell content between) := by
  obtain ⟨saved, done, ran⟩ := run_cons_eq_some ran
  obtain ⟨number, before, bag, leads, there, opened, rfl⟩ := step_through.mp done
  cases opened
  have inRange := (List.getElem?_eq_some_iff.mp there).1
  have follows := run_follows ran
  obtain ⟨inside, stands, asks⟩ := follows.bags number _ (List.getElem?_set_self inRange)
  have onward := Bag.run_follows (asks _ List.prefix_rfl)
  have leads' : m.handles[handle]? = some number := getElem?_of_prefix follows.handles leads
  have sound : d.Sound := sound_empty.run reached
  have sound' : m.Sound := (sound.step done).run ran
  refine ⟨number, before, inside, leads, there, bag?_eq_some.mpr ⟨number, leads', stands⟩, ?_⟩
  intro handle' other found same
  obtain ⟨number', leads'', stands'⟩ := bag?_eq_some.mp found
  obtain rfl : number' = number := by
    rw [← (sound' number' other stands').1, ← (sound' number inside stands).1]
    exact beq_iff_eq.mp same
  have taken : inside.snapshots[before.snapshots.length]? = some (before.registers.save keys) :=
    getElem?_of_prefix onward.snapshots (by simp)
  let after : Bag := { inside with
    registers := inside.registers.restore (before.registers.save keys) }
  have slots := Registers.slot?_restore_save before.registers inside.registers keys
  have put : (m.bags.set number' after)[number']? = some after :=
    List.getElem?_set_self (List.getElem?_eq_some_iff.mp stands).1
  refine ⟨{ m with bags := m.bags.set number' after }, after,
    step_through.mpr ⟨number', inside, after, leads'', stands, ?_, rfl⟩,
    bag?_eq_some.mpr ⟨number', leads', put⟩, bag?_eq_some.mpr ⟨number', leads'', put⟩, rfl,
    fun key free => (slots key).trans (if_neg free), fun key member => ?_⟩
  · rw [Bag.access, taken]
    rfl
  · have back := (slots key).trans (if_pos member)
    refine ⟨back, fun cell held => ⟨Registers.aliases_of_slot (back.trans held), ?_⟩⟩
    obtain ⟨kind, alike⟩ :=
      Option.isSome_iff_exists.mp ((sound number' before there).2.rooted key cell held)
    obtain ⟨content, kept, -⟩ := Option.map_eq_some_iff.mp alike
    exact ⟨content, kept, onward.contents cell content kept⟩

def oneInteger : List Operation :=
  [.create, .copy 0, .through 0 (.set "a" (.integer 1))]

def otherUses : List Operation :=
  [.through 1 (.get .text "a"), .through 0 (.write 0 (.integer 5)), .create,
   .through 1 (.save ["a", "c"]), .through 0 (.set "c" (.own 7 1)), .through 2 (.get (.own 7) "a"),
   .through 0 (.restore 1), .through 0 (.set "b" (.text "x")), .through 1 (.get .offsets "d")]

theorem snapshot_restores_slots_nested :
    ∃ d m d' after, empty.run oneInteger = some d ∧
      d.run (.through 0 (.save ["a", "b", "a"]) :: otherUses) = some m ∧
      m.step (.through 1 (.restore 0)) = some d' ∧ d'.bag? 0 = some after ∧
      after.registers.slot? "a" = some 0 ∧ after.registers.slot? "b" = none ∧
      after.registers.slot? "d" = some 4 ∧ after.registers.content? 0 = some (.integer 5) ∧
      after.registers.Aliases 0 "a" := by
  obtain ⟨number, before, inside, leads, there, opened, restored⟩ :=
    @snapshot_restores_slots oneInteger otherUses _ _ 0 ["a", "b", "a"] rfl rfl
  cases leads
  cases there
  cases opened
  obtain ⟨d', after, done, found, -, -, others, named⟩ := restored 1 _ rfl rfl
  obtain ⟨first, kept⟩ := named "a" (by decide)
  obtain ⟨aliased, content, held, last⟩ := kept 0 rfl
  cases held
  exact ⟨_, _, d', after, rfl, rfl, done, found, first, (named "b" (by decide)).1,
    others "d" (by decide), last, aliased⟩

end Shelf
end Templating
