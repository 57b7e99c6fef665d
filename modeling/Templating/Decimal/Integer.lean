namespace Templating

def digitValue (c : Char) : Nat := c.toNat - '0'.toNat

def valueOfDigits (cs : List Char) : Nat := cs.foldl (fun n c => 10 * n + digitValue c) 0

def natural? (cs : List Char) : Option Nat :=
  if cs.isEmpty || !cs.all Char.isDigit then none else some (valueOfDigits cs)

/-- Signed words lie below 2^63 and not below its negative. -/
def wordBound : Nat := 0x8000000000000000

def positionBound : Nat := 0x10000000000000000

def word? (n : Int) : Option Int64 :=
  if -wordBound ≤ n ∧ n < wordBound then some (Int64.ofInt n) else none

def integer? : List Char → Option Int64
  | '-' :: digits => (natural? digits).bind fun n => word? (-n)
  | '+' :: digits => (natural? digits).bind fun n => word? n
  | digits => (natural? digits).bind fun n => word? n

def index? (cs : List Char) : Option Nat :=
  let digits := match cs with
    | '+' :: rest => rest
    | other => other
  (natural? digits).filter (· < positionBound)

def naturalText (n : Nat) : List Char := Nat.toDigits 10 n

def integerText (n : Int64) : List Char :=
  let i := n.toInt
  if i < 0 then '-' :: naturalText i.natAbs else naturalText i.natAbs

end Templating
