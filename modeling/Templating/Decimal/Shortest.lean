import Templating.Decimal.Integer

/-!
The decimal text of a float: the fewest digits that read back as the same float, and the nearest
such number where there are several.
-/
namespace Templating

/-- A finite float without its sign, as `significand * 2^exponent`. At the
    foot of a binade the numbers below lie half as far apart. -/
structure Dyadic where
  significand : Nat
  exponent : Int
  foot : Bool

def implicitBit : Nat := 0x10000000000000

def Dyadic.ofFloat? (x : Float) : Option Dyadic :=
  let bits := x.toBits.toNat % wordBound
  let field : Nat := bits / implicitBit
  let fraction := bits % implicitBit
  if field = 2047 ∨ bits = 0 then none
  else if field = 0 then some ⟨fraction, -1074, false⟩
  else some ⟨implicitBit + fraction, (field : Int) - 1075, fraction == 0 && field > 1⟩

structure Decimal where
  digits : Nat
  exponent : Int

inductive Tie where
  | toLarger
  | toEven

def Tie.between (below : Nat) : Tie → Nat
  | .toLarger => below + 1
  | .toEven => below + below % 2

namespace Dyadic

/-- Numerators over `scale`: the number itself and the ends of its interval. -/
structure Interval where
  value : Nat
  low : Nat
  high : Nat
  scale : Nat
  closed : Bool

def interval (d : Dyadic) : Interval :=
  let up := Nat.pow 2 (d.exponent - 2).toNat
  let m := 4 * d.significand
  { value := m * up
    low := (m - if d.foot then 1 else 2) * up
    high := (m + 2) * up
    scale := Nat.pow 2 (2 - d.exponent).toNat
    closed := d.significand % 2 == 0 }

def Interval.holds (i : Interval) (n : Nat) : Bool :=
  if i.closed then i.low ≤ n && n ≤ i.high else i.low < n && n < i.high

def leadingZeros (scale : Nat) : Nat → Nat → Nat
  | 0, _ => 0
  | fuel + 1, value => if scale ≤ value then 0 else leadingZeros scale fuel (10 * value) + 1

/-- The `p` with `10^(p-1) ≤ value / scale < 10^p`. -/
def magnitude (i : Interval) : Int :=
  if i.scale ≤ i.value then (naturalText (i.value / i.scale)).length
  else 1 - (leadingZeros i.scale 400 i.value : Int)

def Interval.magnify (i : Interval) (k : Nat) : Interval :=
  { i with value := i.value * k, low := i.low * k, high := i.high * k }

def Interval.neighbour? (tie : Tie) (i : Interval) (unit : Nat) : Option Nat :=
  let below := i.value / unit
  match i.holds (below * unit), i.holds ((below + 1) * unit) with
  | false, false => none
  | true, false => some below
  | false, true => some (below + 1)
  | true, true =>
    match compare (2 * (i.value - below * unit)) unit with
    | .lt => some below
    | .eq => some (tie.between below)
    | .gt => some (below + 1)

def withDigits? (tie : Tie) (i : Interval) (p : Int) (n : Nat) : Option Decimal :=
  let digits? := (i.magnify (Nat.pow 10 (n - p).toNat)).neighbour? tie
    (i.scale * Nat.pow 10 (p - n).toNat)
  digits?.map fun digits => ⟨digits, p - n⟩

def shortest (tie : Tie) (d : Dyadic) : Decimal :=
  let i := d.interval
  let p := magnitude i
  ((List.range 17).findSome? fun n => withDigits? tie i p (n + 1)).getD
    ⟨d.significand, d.exponent⟩

end Dyadic

namespace Decimal

def stripZeros : Nat → Decimal → Decimal
  | 0, d => d
  | fuel + 1, d => if d.digits % 10 = 0 then stripZeros fuel ⟨d.digits / 10, d.exponent + 1⟩ else d

def positional (d : Decimal) : List Char :=
  let d := stripZeros 20 d
  let text := naturalText d.digits
  if 0 ≤ d.exponent then text ++ List.replicate d.exponent.toNat '0'
  else
    let places := (-d.exponent).toNat
    if places < text.length then
      text.take (text.length - places) ++ '.' :: text.drop (text.length - places)
    else '0' :: '.' :: List.replicate (places - text.length) '0' ++ text

def scientific (d : Decimal) : List Char :=
  let d := stripZeros 20 d
  let text := naturalText d.digits
  let power := text.length + d.exponent - 1
  let mantissa := if text.length = 1 then text else text.take 1 ++ '.' :: text.drop 1
  mantissa ++ 'e' :: (if power < 0 then '-' else '+') :: naturalText power.natAbs

end Decimal

def isNegative (x : Float) : Bool := wordBound ≤ x.toBits.toNat

/-- All digits of a float, the larger number at a tie. -/
def floatText (x : Float) : List Char :=
  if x.isNaN then ['N', 'a', 'N']
  else
    let magnitude := if x.isInf then ['i', 'n', 'f'] else
      match Dyadic.ofFloat? x with
      | some d => (d.shortest .toLarger).positional
      | none => ['0']
    if isNegative x then '-' :: magnitude else magnitude

end Templating
