import Templating.Json.Basic
import Templating.Json.Fault
import Templating.Decimal.Real

/-!
Numbers in JSON. The digits are gathered into a 64-bit significand as long as it holds them;
digits past that only count for the size of the number.
-/
namespace Templating
namespace Json

/-- Takes the digits that fit the significand; gives it, how many were taken and the rest. -/
def gather (value taken : Nat) : List Char → Nat × Nat × List Char
  | [] => (value, taken, [])
  | c :: rest =>
    if c.isDigit && 10 * value + digitValue c < positionBound then
      gather (10 * value + digitValue c) (taken + 1) rest
    else (value, taken, c :: rest)

def startsWithDigit : List Char → Bool
  | [] => false
  | c :: _ => c.isDigit

def powerOfTen (n : Nat) : Float := Float.ofScientific 1 false n

/-- `x * 10^exponent` in float arithmetic, none when it is too large. -/
def scaled? (x : Float) (exponent : Int) : Nat → Option Float
  | 0 => some x
  | fuel + 1 =>
    if exponent.natAbs ≤ 308 then
      if 0 ≤ exponent then
        let y := x * powerOfTen exponent.natAbs
        if y.isInf then none else some y
      else some (x / powerOfTen exponent.natAbs)
    else if x == 0.0 then some x
    else if 0 ≤ exponent then none
    else scaled? (x / powerOfTen 308) (exponent + 308) fuel

def signed (positive : Bool) (x : Float) : Float := if positive then x else -x

def finish (positive : Bool) (significand : Nat) (exponent : Int) (rest : List Char) :
    Reading Json :=
  match scaled? (Float.ofNat significand) exponent 5 with
  | some x => .ok (.real (signed positive x), rest)
  | none => refuse .numberOutOfRange rest

/-- Gathers the digits of an exponent; none once it passes a 32-bit word. -/
def gatherExponent (value : Nat) : List Char → Option Nat × List Char
  | [] => (some value, [])
  | c :: rest =>
    if c.isDigit then
      if 10 * value + digitValue c < 0x80000000 then gatherExponent (10 * value + digitValue c) rest
      else (none, rest)
    else (some value, c :: rest)

def readExponent (positive : Bool) (significand : Nat) (start : Int) (cs : List Char) :
    Reading Json :=
  let (up, cs) := match cs with
    | '+' :: rest => (true, rest)
    | '-' :: rest => (false, rest)
    | other => (true, other)
  match cs with
  | [] => refuse .unfinishedValue []
  | c :: rest =>
    if !c.isDigit then refuseNext .invalidNumber cs
    else match gatherExponent (digitValue c) rest with
      | (some n, rest) => finish positive significand (if up then start + n else start - n) rest
      | (none, rest) =>
        if significand ≠ 0 && up then refuse .numberOutOfRange rest
        else .ok (.real (signed positive 0.0), rest.dropWhile Char.isDigit)

def readTail (positive : Bool) (significand : Nat) (exponent : Int) : List Char → Reading Json
  | 'e' :: rest => readExponent positive significand exponent rest
  | 'E' :: rest => readExponent positive significand exponent rest
  | rest => finish positive significand exponent rest

def readFraction (positive : Bool) (significand : Nat) (exponent : Int) (cs : List Char) :
    Reading Json :=
  let (value, taken, rest) := gather significand 0 cs
  if startsWithDigit rest then
    readTail positive value (exponent - taken) (rest.dropWhile Char.isDigit)
  else if taken = 0 then
    if rest.isEmpty then refuseNext .unfinishedValue rest else refuseNext .invalidNumber rest
  else readTail positive value (exponent - taken) rest

def wholeNumber (positive : Bool) (significand : Nat) : Json :=
  if positive then .integer significand
  else if 0 < significand && significand ≤ wordBound then .integer (-significand)
  else .real (-Float.ofNat significand)

def readSignificand (positive : Bool) (first : Nat) (cs : List Char) : Reading Json :=
  let (value, _, rest) := gather first 0 cs
  if startsWithDigit rest then
    let skipped := (rest.takeWhile Char.isDigit).length
    match rest.dropWhile Char.isDigit with
    | '.' :: rest => readFraction positive value skipped rest
    | rest => readTail positive value skipped rest
  else match rest with
    | '.' :: rest => readFraction positive value 0 rest
    | 'e' :: rest => readExponent positive value 0 rest
    | 'E' :: rest => readExponent positive value 0 rest
    | rest => .ok (wholeNumber positive value, rest)

def readNumber (positive : Bool) (cs : List Char) : Reading Json :=
  match cs with
  | [] => refuse .unfinishedValue []
  | c :: rest =>
    if !c.isDigit then refuseNext .invalidNumber cs
    else if c = '0' then
      if startsWithDigit rest then refuseNext .invalidNumber rest
      else match rest with
        | '.' :: rest => readFraction positive 0 0 rest
        | 'e' :: rest => readExponent positive 0 0 rest
        | 'E' :: rest => readExponent positive 0 0 rest
        | rest => .ok (wholeNumber positive 0, rest)
    else readSignificand positive (digitValue c) rest

end Json
end Templating
