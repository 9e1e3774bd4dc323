namespace Statechart

def isLeapYear (year : Int) : Bool := year % 4 = 0 ∧ (year % 100 ≠ 0 ∨ year % 400 = 0)

def daysInMonth (year : Int) (month : Nat) : Nat :=
  if month = 2 then (if isLeapYear year then 29 else 28)
  else if month = 4 ∨ month = 6 ∨ month = 9 ∨ month = 11 then 30
  else 31

def secondsPerDay : Nat := 86400

def nanosPerSecond : Nat := 1000000000

structure Date where
  year : Int
  month : Nat
  day : Nat
deriving DecidableEq

namespace Date

def Valid (date : Date) : Prop :=
  (-262143 ≤ date.year ∧ date.year ≤ 262142) ∧ (1 ≤ date.month ∧ date.month ≤ 12) ∧
    (1 ≤ date.day ∧ date.day ≤ daysInMonth date.year date.month)

instance (date : Date) : Decidable date.Valid := by unfold Valid; infer_instance

def next (date : Date) : Date :=
  if date.day < daysInMonth date.year date.month then { date with day := date.day + 1 }
  else if date.month < 12 then ⟨date.year, date.month + 1, 1⟩
  else ⟨date.year + 1, 1, 1⟩

def previous (date : Date) : Date :=
  if 1 < date.day then { date with day := date.day - 1 }
  else if 1 < date.month then ⟨date.year, date.month - 1, daysInMonth date.year (date.month - 1)⟩
  else ⟨date.year - 1, 12, 31⟩

end Date

/-- A time of day. A leap second is the last second of a minute with a whole second of nanoseconds more. -/
structure TimeOfDay where
  second : Nat
  nano : Nat
deriving DecidableEq

namespace TimeOfDay

def Valid (time : TimeOfDay) : Prop :=
  time.second < secondsPerDay ∧ time.nano < 2 * nanosPerSecond ∧
    (nanosPerSecond ≤ time.nano → time.second % 60 = 59)

instance (time : TimeOfDay) : Decidable time.Valid := by unfold Valid; infer_instance

end TimeOfDay

structure Timestamp where
  date : Date
  time : TimeOfDay
  valid : date.Valid ∧ time.Valid
deriving DecidableEq

namespace Timestamp

def of? (date : Date) (time : TimeOfDay) : Option Timestamp :=
  if h : date.Valid ∧ time.Valid then some ⟨date, time, h⟩ else none

def ofLocal? (date : Date) (time : TimeOfDay) (offsetMinutes : Int) : Option Timestamp :=
  let second := (time.second : Int) - offsetMinutes * 60
  if ¬date.Valid then none
  else if second < 0 then of? date.previous { time with second := (second + secondsPerDay).toNat }
  else if second < secondsPerDay then of? date { time with second := second.toNat }
  else of? date.next { time with second := (second - secondsPerDay).toNat }

end Timestamp

end Statechart
