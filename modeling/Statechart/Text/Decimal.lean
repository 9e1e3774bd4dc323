namespace Statechart.Text

def digits (n : Nat) : List Char := Nat.toDigits 10 n

def padded (width n : Nat) : List Char := List.replicate (width - (digits n).length) '0' ++ digits n

def decimal : Int → List Char
  | .ofNat n => digits n
  | .negSucc n => '-' :: digits (n + 1)

def digitValue (c : Char) : Nat := c.toNat - '0'.toNat

def ofDigits (cs : List Char) : Nat := cs.foldl (fun n c => n * 10 + digitValue c) 0

def number? (most : Nat) (cs : List Char) : Option (Nat × List Char) :=
  let taken := (cs.takeWhile Char.isDigit).take most
  if taken.isEmpty then none else some (ofDigits taken, cs.drop taken.length)

def allDigits? (cs : List Char) : Option (List Char × List Char) :=
  let taken := cs.takeWhile Char.isDigit
  if taken.isEmpty then none else some (taken, cs.dropWhile Char.isDigit)

end Statechart.Text
