namespace Templating

def furthestOffset : Nat := 0xFFFFFFFF

structure Span where
  start : Nat
  stop : Nat
  deriving DecidableEq, Repr

namespace Span

def ofRange (start stop : Nat) : Span := ⟨min start furthestOffset, min stop furthestOffset⟩

def length (s : Span) : Nat := s.stop - s.start

def isEmpty (s : Span) : Bool := s.stop ≤ s.start

def merge (s t : Span) : Span := ⟨min s.start t.start, max s.stop t.stop⟩

/-- A span measured from `base`, as one measured from the start of the source. -/
def shift (s : Span) (base : Nat) : Span := ofRange (s.start + base) (s.stop + base)

def text (s : Span) : String := toString s.start ++ ".." ++ toString s.stop

theorem ofRange_eq {start stop : Nat} (hs : start ≤ furthestOffset) (ht : stop ≤ furthestOffset) :
    ofRange start stop = ⟨start, stop⟩ := by
  simp [ofRange, Nat.min_eq_left hs, Nat.min_eq_left ht]

theorem shift_ofRange {start stop base : Nat} (hs : start + base ≤ furthestOffset)
    (ht : stop + base ≤ furthestOffset) :
    (ofRange start stop).shift base = ⟨start + base, stop + base⟩ := by
  rw [ofRange_eq (by omega) (by omega), shift, ofRange_eq hs ht]

end Span
end Templating
