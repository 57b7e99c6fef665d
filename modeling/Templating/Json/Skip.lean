import Templating.Json.Reader

namespace Templating
namespace Json

def skipString : Nat → List Char → Reading Unit
  | 0, rest => refuse .unfinishedString rest
  | _ + 1, [] => refuse .unfinishedString []
  | fuel + 1, c :: rest =>
    if c = '"' then .ok ((), rest)
    else if c = '\\' then
      match rest with
      | [] => refuse .unfinishedString []
      | 'u' :: rest =>
        match readHex rest with
        | .error fault => .error fault
        | .ok (_, rest) => skipString fuel rest
      | e :: rest =>
        if (simpleEscape? e).isSome then skipString fuel rest
        else refuseNext .invalidEscape (e :: rest)
    else if c.toNat < 0x20 then refuse .controlCharacter (c :: rest)
    else skipString fuel rest

def skipExponent (cs : List Char) : Reading Unit :=
  let cs := match cs with
    | '+' :: rest => rest
    | '-' :: rest => rest
    | other => other
  if startsWithDigit cs then .ok ((), cs.dropWhile Char.isDigit)
  else refuseNext .invalidNumber cs

def skipFraction (cs : List Char) : Reading Unit :=
  if startsWithDigit cs then
    match cs.dropWhile Char.isDigit with
    | 'e' :: rest => skipExponent rest
    | 'E' :: rest => skipExponent rest
    | rest => .ok ((), rest)
  else refuseNext .invalidNumber cs

def skipNumber (cs : List Char) : Reading Unit :=
  match cs with
  | [] => refuse .invalidNumber []
  | c :: rest =>
    if !c.isDigit then refuseNext .invalidNumber cs
    else if c = '0' && startsWithDigit rest then refuseNext .invalidNumber rest
    else match rest.dropWhile Char.isDigit with
      | '.' :: rest => skipFraction rest
      | 'e' :: rest => skipExponent rest
      | 'E' :: rest => skipExponent rest
      | rest => .ok ((), rest)

def skipKey (cs : List Char) : Except Fault (Unit × List Char) :=
  match skipSpace cs with
  | [] => refuseNext .unfinishedObject []
  | '"' :: rest => do
    let ((), rest) ← skipString (rest.length + 1) rest
    readColon rest
  | rest => refuseNext .keyNotString rest

mutual

def skipValue : Nat → List Char → Reading Unit
  | 0, cs => refuse .unfinishedValue cs
  | fuel + 1, cs =>
    match skipSpace cs with
    | [] => refuseNext .unfinishedValue []
    | c :: rest =>
      if c = 'n' then readWord () ['u', 'l', 'l'] rest
      else if c = 't' then readWord () ['r', 'u', 'e'] rest
      else if c = 'f' then readWord () ['a', 'l', 's', 'e'] rest
      else if c = '-' then skipNumber rest
      else if c.isDigit then skipNumber (c :: rest)
      else if c = '"' then skipString (rest.length + 1) rest
      else if c = '[' then
        match skipSpace rest with
        | [] => refuseNext .unfinishedList []
        | ']' :: rest => .ok ((), rest)
        | rest => skipItems fuel rest
      else if c = '\x7b' then
        match skipSpace rest with
        | [] => refuseNext .unfinishedObject []
        | '\x7d' :: rest => .ok ((), rest)
        | rest => skipMembers fuel rest
      else refuseNext .expectedValue (c :: rest)
termination_by structural fuel => fuel

def skipItems : Nat → List Char → Except Fault (Unit × List Char)
  | 0, cs => refuse .unfinishedList cs
  | fuel + 1, cs => do
    let ((), rest) ← skipValue fuel cs
    match skipSpace rest with
    | [] => refuseNext .unfinishedList []
    | ',' :: rest => skipItems fuel rest
    | ']' :: rest => return ((), rest)
    | rest => refuseNext .expectedListCommaOrEnd rest
termination_by structural fuel => fuel

def skipMembers : Nat → List Char → Except Fault (Unit × List Char)
  | 0, cs => refuse .unfinishedObject cs
  | fuel + 1, cs => do
    let ((), rest) ← skipKey cs
    let ((), rest) ← skipValue fuel rest
    match skipSpace rest with
    | [] => refuseNext .unfinishedObject []
    | ',' :: rest => skipMembers fuel rest
    | '\x7d' :: rest => return ((), rest)
    | rest => refuseNext .expectedObjectCommaOrEnd rest
termination_by structural fuel => fuel

end

def skip (cs : List Char) : Reading Unit := skipValue (stepsFor cs) cs

end Json
end Templating
