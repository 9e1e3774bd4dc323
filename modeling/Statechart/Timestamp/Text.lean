import Statechart.Text.Blank
import Statechart.Text.Decimal
import Statechart.Timestamp

namespace Statechart.Timestamp

open Statechart.Text

def yearText (year : Int) : List Char :=
  if year < 0 then '-' :: padded 4 year.natAbs
  else if year ≤ 9999 then padded 4 year.toNat
  else '+' :: padded 4 year.toNat

def fractionText (nano : Nat) : List Char :=
  if nano = 0 then []
  else if nano % 1000000 = 0 then '.' :: padded 3 (nano / 1000000)
  else if nano % 1000 = 0 then '.' :: padded 6 (nano / 1000)
  else '.' :: padded 9 nano

def render (t : Timestamp) : List Char :=
  let leap := t.time.nano / nanosPerSecond
  yearText t.date.year ++ '-' :: padded 2 t.date.month ++ '-' :: padded 2 t.date.day ++
    'T' :: padded 2 (t.time.second / 3600) ++ ':' :: padded 2 (t.time.second / 60 % 60) ++
    ':' :: padded 2 (t.time.second % 60 + leap) ++ fractionText (t.time.nano % nanosPerSecond) ++ ['Z']

def skipBlank (cs : List Char) : List Char := cs.dropWhile isBlank

def twoDigits? (cs : List Char) : Option (Nat × List Char) := number? 2 (skipBlank cs)

/-- Reads a year: up to four digits, or any number of digits after a sign. -/
def year? (cs : List Char) : Option (Int × List Char) :=
  match skipBlank cs with
  | '-' :: cs => (allDigits? cs).map fun (taken, rest) => (-(ofDigits taken : Int), rest)
  | '+' :: cs => (allDigits? cs).map fun (taken, rest) => ((ofDigits taken : Int), rest)
  | cs => (number? 4 cs).map fun (n, rest) => ((n : Int), rest)

def expect? (c : Char) (cs : List Char) : Option (List Char) :=
  match skipBlank cs with
  | d :: rest => if d = c then some rest else none
  | [] => none

/-- Reads the fraction of a second, if there is one. Digits after the ninth are dropped. -/
def fraction? : List Char → Option (Nat × List Char)
  | '.' :: cs => (allDigits? cs).map fun (taken, rest) =>
    let kept := taken.take 9
    (ofDigits (kept ++ List.replicate (9 - kept.length) '0'), rest)
  | cs => some (0, cs)

def startsWithUtc : List Char → Bool
  | u :: t :: c :: _ => u.toLower = 'u' ∧ t.toLower = 't' ∧ c.toLower = 'c'
  | _ => false

/-- Reads an offset in hours and minutes, between which colons and white space are skipped. -/
def offsetMinutes? (cs : List Char) : Option (Nat × List Char) :=
  match cs with
  | h :: h' :: cs =>
    if h.isDigit ∧ h'.isDigit then
      match cs.dropWhile fun c => c = ':' || isBlank c with
      | m :: m' :: rest =>
        if m.isDigit ∧ m'.isDigit ∧ digitValue m < 6 then
          some ((digitValue h * 10 + digitValue h') * 60 + digitValue m * 10 + digitValue m', rest)
        else none
      | _ => none
    else none
  | _ => none

def zone? (cs : List Char) : Option (Int × List Char) :=
  let cs := skipBlank cs
  if startsWithUtc cs then some (0, cs.drop 3)
  else match cs with
    | 'Z' :: rest | 'z' :: rest => some (0, rest)
    | '+' :: rest => (offsetMinutes? rest).bind fun (n, rest) => if n < 1440 then some ((n : Int), rest) else none
    | '-' :: rest | '\u2212' :: rest =>
      (offsetMinutes? rest).bind fun (n, rest) => if n < 1440 then some (-(n : Int), rest) else none
    | _ => none

def parse? (cs : List Char) : Option Timestamp := do
  let (year, cs) ← year? cs
  let cs ← expect? '-' cs
  let (month, cs) ← twoDigits? cs
  let cs ← expect? '-' cs
  let (day, cs) ← twoDigits? cs
  let cs ← match cs with
    | 'T' :: cs | 't' :: cs | ' ' :: cs => some cs
    | _ => none
  let (hour, cs) ← twoDigits? cs
  let cs ← expect? ':' cs
  let (minute, cs) ← twoDigits? cs
  let cs ← expect? ':' cs
  let (second, cs) ← twoDigits? cs
  let (nano, cs) ← fraction? cs
  let (offset, cs) ← zone? cs
  if hour < 24 ∧ minute < 60 ∧ second ≤ 60 ∧ (skipBlank cs).isEmpty then
    let leap := second / 60
    ofLocal? ⟨year, month, day⟩
      ⟨hour * 3600 + minute * 60 + second - leap, nano + leap * nanosPerSecond⟩ offset
  else none

end Statechart.Timestamp
