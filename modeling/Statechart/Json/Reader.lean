import Statechart.Json.Value
import Statechart.Text.Decimal

namespace Statechart.Json

def isBlank (c : Char) : Bool := c = ' ' ∨ c = '\t' ∨ c = '\n' ∨ c = '\r'

def skipBlank (cs : List Char) : List Char := cs.dropWhile isBlank

def hexValue? (c : Char) : Option Nat :=
  if c.isDigit then some (c.toNat - '0'.toNat)
  else if 'a' ≤ c ∧ c ≤ 'f' then some (c.toNat - 'a'.toNat + 10)
  else if 'A' ≤ c ∧ c ≤ 'F' then some (c.toNat - 'A'.toNat + 10)
  else none

def hex4? (a b c d : Char) : Option Nat := do
  return ((← hexValue? a) * 16 + (← hexValue? b)) * 256 + (← hexValue? c) * 16 + (← hexValue? d)

def isHighSurrogate (n : Nat) : Bool := 0xd800 ≤ n ∧ n < 0xdc00

def isLowSurrogate (n : Nat) : Bool := 0xdc00 ≤ n ∧ n < 0xe000

def combine (high low : Nat) : Char := Char.ofNat (0x10000 + (high - 0xd800) * 1024 + (low - 0xdc00))

def simpleEscape? (c : Char) : Option Char :=
  match c with
  | '"' => some '"'
  | '\\' => some '\\'
  | '/' => some '/'
  | 'b' => some '\x08'
  | 'f' => some '\x0c'
  | 'n' => some '\n'
  | 'r' => some '\r'
  | 't' => some '\t'
  | _ => none

inductive Piece where
  | char (c : Char)
  | surrogate (n : Nat)
deriving DecidableEq

def pieces? : List Char → Option (List Piece × List Char)
  | [] => none
  | '"' :: rest => some ([], rest)
  | '\\' :: 'u' :: a :: b :: c :: d :: rest =>
    (hex4? a b c d).bind fun n => (pieces? rest).map fun (pieces, rest) =>
      ((if isHighSurrogate n ∨ isLowSurrogate n then .surrogate n else .char (Char.ofNat n)) :: pieces, rest)
  | '\\' :: c :: rest =>
    (simpleEscape? c).bind fun c => (pieces? rest).map fun (pieces, rest) => (.char c :: pieces, rest)
  | c :: rest =>
    if c.toNat < 0x20 then none else (pieces? rest).map fun (pieces, rest) => (.char c :: pieces, rest)

/-- Joins pairs of surrogates. An unpaired one makes the text unreadable. -/
def join? : List Piece → Option (List Char)
  | [] => some []
  | .char c :: pieces => (join? pieces).map (c :: ·)
  | .surrogate high :: .surrogate low :: pieces =>
    if isHighSurrogate high ∧ isLowSurrogate low then (join? pieces).map (combine high low :: ·) else none
  | .surrogate _ :: _ => none

def text? (cs : List Char) : Option (Option String × List Char) :=
  (pieces? cs).map fun (pieces, rest) => ((join? pieces).map String.ofList, rest)

def whole? : List Char → Option (Nat × List Char)
  | '0' :: rest => if (rest.head?.any Char.isDigit) then none else some (0, rest)
  | cs => (Text.allDigits? cs).map fun (taken, rest) => (Text.ofDigits taken, rest)

def fraction? : List Char → Option (Bool × List Char)
  | '.' :: cs => (Text.allDigits? cs).map fun (_, rest) => (true, rest)
  | cs => some (false, cs)

def skipSign : List Char → List Char
  | '+' :: cs | '-' :: cs => cs
  | cs => cs

def exponent? : List Char → Option (Bool × List Char)
  | 'e' :: cs | 'E' :: cs => (Text.allDigits? (skipSign cs)).map fun (_, rest) => (true, rest)
  | cs => some (false, cs)

def number? (negative : Bool) (cs : List Char) : Option (Value × List Char) := do
  let (magnitude, cs) ← whole? cs
  let (hasFraction, cs) ← fraction? cs
  let (hasExponent, cs) ← exponent? cs
  if hasFraction || hasExponent || (negative && magnitude == 0) then return (.decimal, cs)
  else return (.integer (if negative then -magnitude else magnitude), cs)

def keyword? (word : List Char) (value : Value) (cs : List Char) : Option (Value × List Char) :=
  if word.isPrefixOf cs then some (value, cs.drop word.length) else none

mutual

/-- Reads a value. The depth bounds how often parts are taken apart. -/
def value? : Nat → List Char → Option (Value × List Char)
  | 0, _ => none
  | depth + 1, cs =>
    match skipBlank cs with
    | 'n' :: rest => keyword? "ull".toList .null rest
    | 't' :: rest => keyword? "rue".toList (.bool true) rest
    | 'f' :: rest => keyword? "alse".toList (.bool false) rest
    | '"' :: rest => (text? rest).map fun (content?, rest) => (.text content?, rest)
    | '-' :: rest => number? true rest
    | '[' :: rest =>
      match skipBlank rest with
      | ']' :: rest => some (.array [], rest)
      | rest => (elements? depth rest).map fun (elements, rest) => (.array elements, rest)
    | '\x7b' :: rest =>
      match skipBlank rest with
      | '\x7d' :: rest => some (.object [], rest)
      | rest => (members? depth rest).map fun (members, rest) => (.object members, rest)
    | cs => number? false cs

def elements? : Nat → List Char → Option (List Value × List Char)
  | 0, _ => none
  | depth + 1, cs =>
    (value? depth cs).bind fun (element, rest) =>
      match skipBlank rest with
      | ',' :: rest => (elements? depth rest).map fun (elements, rest) => (element :: elements, rest)
      | ']' :: rest => some ([element], rest)
      | _ => none

def members? : Nat → List Char → Option (List (Option String × Value) × List Char)
  | 0, _ => none
  | depth + 1, cs =>
    match skipBlank cs with
    | '"' :: rest =>
      (text? rest).bind fun (name?, rest) =>
        match skipBlank rest with
        | ':' :: rest =>
          (value? depth rest).bind fun (value, rest) =>
            match skipBlank rest with
            | ',' :: rest => (members? depth rest).map fun (members, rest) => ((name?, value) :: members, rest)
            | '\x7d' :: rest => some ([(name?, value)], rest)
            | _ => none
        | _ => none
    | _ => none

end

def parse? (s : String) : Option Value :=
  let cs := s.toList
  (value? (cs.length + 1) cs).bind fun (value, rest) =>
    if (skipBlank rest).isEmpty then some value else none

end Statechart.Json
