import Templating.Json.Number

namespace Templating
namespace Json

def isSpace (c : Char) : Bool := c = ' ' || c = '\n' || c = '\t' || c = '\r'

def skipSpace (cs : List Char) : List Char := cs.dropWhile isSpace

def readWord {α : Type} (result : α) : List Char → List Char → Reading α
  | [], rest => .ok (result, rest)
  | _ :: _, [] => refuse .unfinishedValue []
  | w :: word, c :: rest =>
    if w = c then readWord result word rest else refuseNext .expectedWord (c :: rest)

def hexValue? (c : Char) : Option Nat :=
  if c.isDigit then some (digitValue c)
  else if 'a' ≤ c ∧ c ≤ 'f' then some (c.toNat - 'a'.toNat + 10)
  else if 'A' ≤ c ∧ c ≤ 'F' then some (c.toNat - 'A'.toNat + 10)
  else none

/-- Four hexadecimal digits; the place of a fault is after four bytes. -/
def readHex (cs : List Char) : Reading Nat :=
  match (cs.take 4).mapM hexValue? with
  | some [a, b, c, d] => .ok (((a * 16 + b) * 16 + c) * 16 + d, cs.drop 4)
  | _ =>
    if byteLength cs < 4 then refuse .unfinishedString []
    else .error ⟨.invalidEscape, byteLength cs - 4⟩

def readPair (first : Nat) : List Char → Reading Char
  | [] => refuse .unfinishedString []
  | '\\' :: [] => refuse .unfinishedString []
  | '\\' :: 'u' :: rest =>
    match readHex rest with
    | .error fault => .error fault
    | .ok (second, rest) =>
      if second < 0xDC00 || 0xDFFF < second then refuse .loneSurrogate rest
      else .ok (Char.ofNat ((first - 0xD800) * 0x400 + (second - 0xDC00) + 0x10000), rest)
  | '\\' :: rest => refuseNext .unfinishedPair rest
  | rest => refuseNext .unfinishedPair rest

def simpleEscape? : Char → Option Char
  | '"' => some '"'
  | '\\' => some '\\'
  | '/' => some '/'
  | 'b' => some '\x08'
  | 'f' => some '\x0c'
  | 'n' => some '\n'
  | 'r' => some '\r'
  | 't' => some '\t'
  | _ => none

def readEscape : List Char → Reading Char
  | [] => refuse .unfinishedString []
  | 'u' :: rest =>
    match readHex rest with
    | .error fault => .error fault
    | .ok (n, rest) =>
      if 0xDC00 ≤ n && n ≤ 0xDFFF then refuse .loneSurrogate rest
      else if 0xD800 ≤ n && n ≤ 0xDBFF then readPair n rest
      else .ok (Char.ofNat n, rest)
  | c :: rest =>
    match simpleEscape? c with
    | some c => .ok (c, rest)
    | none => refuseNext .invalidEscape (c :: rest)

def readString : Nat → List Char → List Char → Reading String
  | 0, _, rest => refuse .unfinishedString rest
  | _ + 1, _, [] => refuse .unfinishedString []
  | fuel + 1, seen, c :: rest =>
    if c = '"' then .ok (String.ofList seen.reverse, rest)
    else if c = '\\' then
      match readEscape rest with
      | .error fault => .error fault
      | .ok (c, rest) => readString fuel (c :: seen) rest
    else if c.toNat < 0x20 then refuse .controlCharacter rest
    else readString fuel (c :: seen) rest

def stringAfterQuote (rest : List Char) : Reading String := readString (rest.length + 1) [] rest

def readColon (cs : List Char) : Reading Unit :=
  match skipSpace cs with
  | [] => refuseNext .unfinishedObject []
  | ':' :: rest => .ok ((), rest)
  | rest => refuseNext .expectedColon rest

def readKey (cs : List Char) : Except Fault (String × List Char) := do
  let (key, rest) ← stringAfterQuote (cs.drop 1)
  let ((), rest) ← readColon rest
  return (key, rest)

def nextElement (first : Bool) (cs : List Char) : Reading Bool :=
  match skipSpace cs with
  | [] => refuseNext .unfinishedList []
  | ']' :: rest => .ok (false, rest)
  | c :: rest =>
    if first then .ok (true, c :: rest)
    else if c = ',' then
      match skipSpace rest with
      | [] => refuseNext .unfinishedValue []
      | ']' :: rest => refuseNext .trailingComma (']' :: rest)
      | rest => .ok (true, rest)
    else refuseNext .expectedListCommaOrEnd (c :: rest)

def nextMember (first : Bool) (cs : List Char) : Reading Bool :=
  match skipSpace cs with
  | [] => refuseNext .unfinishedObject []
  | '\x7d' :: rest => .ok (false, rest)
  | c :: rest =>
    if first then
      if c = '"' then .ok (true, c :: rest) else refuseNext .keyNotString (c :: rest)
    else if c = ',' then
      match skipSpace rest with
      | [] => refuseNext .unfinishedValue []
      | '"' :: rest => .ok (true, '"' :: rest)
      | '\x7d' :: rest => refuseNext .trailingComma ('\x7d' :: rest)
      | rest => refuseNext .keyNotString rest
    else refuseNext .expectedObjectCommaOrEnd (c :: rest)

mutual

def readValue : (fuel depth : Nat) → List Char → Reading Json
  | 0, _, cs => refuse .unfinishedValue cs
  | fuel + 1, depth, cs =>
    match skipSpace cs with
    | [] => refuseNext .unfinishedValue []
    | c :: rest =>
      if c = 'n' then readWord .null ['u', 'l', 'l'] rest
      else if c = 't' then readWord (.bool true) ['r', 'u', 'e'] rest
      else if c = 'f' then readWord (.bool false) ['a', 'l', 's', 'e'] rest
      else if c = '-' then readNumber false rest
      else if c.isDigit then readNumber true (c :: rest)
      else if c = '"' then (stringAfterQuote rest).map fun (s, rest) => (.str s, rest)
      else if c = '[' then
        if depth ≤ 1 then refuseNext .tooDeep (c :: rest)
        else (readItems fuel (depth - 1) true rest).map fun (items, rest) => (.array items, rest)
      else if c = '\x7b' then
        if depth ≤ 1 then refuseNext .tooDeep (c :: rest)
        else (readMembers fuel (depth - 1) true [] rest).map
          fun (members, rest) => (.object members, rest)
      else refuseNext .expectedValue (c :: rest)
termination_by structural fuel => fuel

def readItems : (fuel depth : Nat) → Bool → List Char → Except Fault (List Json × List Char)
  | 0, _, _, cs => refuse .unfinishedList cs
  | fuel + 1, depth, first, cs => do
    let (more, rest) ← nextElement first cs
    if more then
      let (item, rest) ← readValue fuel depth rest
      let (items, rest) ← readItems fuel depth false rest
      return (item :: items, rest)
    else return ([], rest)
termination_by structural fuel => fuel

def readMembers : (fuel depth : Nat) → Bool → List (String × Json) → List Char →
    Except Fault (List (String × Json) × List Char)
  | 0, _, _, _, cs => refuse .unfinishedObject cs
  | fuel + 1, depth, first, members, cs => do
    let (more, rest) ← nextMember first cs
    if more then
      let (key, rest) ← readKey rest
      let (value, rest) ← readValue fuel depth rest
      readMembers fuel depth false (addMember key value members) rest
    else return (members, rest)
termination_by structural fuel => fuel

end

/-- Each bracket, element and member takes a step or two, none without a character. -/
def stepsFor (cs : List Char) : Nat := 2 * cs.length + 2

def deepest : Nat := 128

def atEnd {α : Type} : α × List Char → Except Fault α
  | (result, rest) =>
    match skipSpace rest with
    | [] => .ok result
    | rest => refuseNext .trailingCharacters rest

def read (source : String) : Except Fault Json := do
  let cs := source.toList
  atEnd (← readValue (stepsFor cs) deepest cs)

end Json
end Templating
