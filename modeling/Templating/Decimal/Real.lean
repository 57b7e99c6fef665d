import Templating.Decimal.Integer

/-!
Reading a float from decimal text: an optional sign, then `inf`, `infinity` or `nan` in any
case, or digits with an optional point and exponent, at least one digit standing before or after
the point.
-/
namespace Templating

def infinity : Float := 1.0 / 0.0

def notANumber : Float := 0.0 / 0.0

/-- The float nearest to an integer. Above 2^53 not every integer is a float. -/
def nearestFloat (n : Int64) : Float := .ofModel (.ofInt64 n)

/-- `mantissa * 10^exponent`, rounded once. Beyond 400 places the number is too
    large or too small for any float. -/
def roundDecimal (mantissa : Nat) (exponent : Int) : Float :=
  let size := (naturalText mantissa).length
  if mantissa = 0 then 0.0
  else if 400 < exponent + size then infinity
  else if exponent + size < -400 then 0.0
  else Float.ofScientific mantissa (exponent < 0) exponent.natAbs

def exponent? : List Char → Option Int
  | '-' :: digits => (natural? digits).map fun n => -(n : Int)
  | '+' :: digits => (natural? digits).map fun n => (n : Int)
  | digits => (natural? digits).map fun n => (n : Int)

def magnitude? (cs : List Char) : Option Float :=
  let whole := cs.takeWhile Char.isDigit
  let rest := cs.dropWhile Char.isDigit
  let (fraction, rest) := match rest with
    | '.' :: more => (more.takeWhile Char.isDigit, more.dropWhile Char.isDigit)
    | other => ([], other)
  let digits := whole ++ fraction
  if digits.isEmpty then none
  else
    let scaled (e : Int) := roundDecimal (valueOfDigits digits) (e - fraction.length)
    match rest with
    | [] => some (scaled 0)
    | c :: more => if c = 'e' ∨ c = 'E' then (exponent? more).map scaled else none

def special? (cs : List Char) : Option Float :=
  let word := String.ofList (cs.map Char.toLower)
  if word = "inf" ∨ word = "infinity" then some infinity
  else if word = "nan" then some notANumber
  else none

def unsigned? (cs : List Char) : Option Float :=
  match special? cs with
  | some x => some x
  | none => magnitude? cs

def real? : List Char → Option Float
  | '-' :: rest => (unsigned? rest).map fun x => -x
  | '+' :: rest => unsigned? rest
  | cs => unsigned? cs

end Templating
