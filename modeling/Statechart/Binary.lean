namespace Statechart.Binary

abbrev Bytes := List UInt8

def littleEndian : Nat → Nat → Bytes
  | 0, _ => []
  | count + 1, n => UInt8.ofNat n :: littleEndian count (n / 256)

def ofLittleEndian (bytes : Bytes) : Nat := bytes.foldr (fun byte n => byte.toNat + 256 * n) 0

def take? (count : Nat) (bytes : Bytes) : Option (Bytes × Bytes) :=
  let taken := bytes.take count
  if taken.length = count then some (taken, bytes.drop count) else none

def number? (count : Nat) (bytes : Bytes) : Option (Nat × Bytes) :=
  (take? count bytes).map fun (taken, rest) => (ofLittleEndian taken, rest)

/-- A text is written as the length of its UTF-8 encoding in eight bytes and the encoding. -/
def writeText (s : String) : Bytes :=
  littleEndian 8 s.utf8ByteSize ++ s.toUTF8.data.toList

def text? (bytes : Bytes) : Option (String × Bytes) := do
  let (length, bytes) ← number? 8 bytes
  let (taken, rest) ← take? length bytes
  let s ← String.fromUTF8? ⟨taken.toArray⟩
  return (s, rest)

def writeOption {α : Type} (write : α → Bytes) : Option α → Bytes
  | none => [0]
  | some a => 1 :: write a

def option? {α : Type} (read? : Bytes → Option (α × Bytes)) : Bytes → Option (Option α × Bytes)
  | 0 :: rest => some (none, rest)
  | 1 :: rest => (read? rest).map fun (a, rest) => (some a, rest)
  | _ => none

def many? {α : Type} (read? : Bytes → Option (α × Bytes)) : Nat → Bytes → Option (List α × Bytes)
  | 0, bytes => some ([], bytes)
  | count + 1, bytes =>
    (read? bytes).bind fun (a, rest) => (many? read? count rest).map fun (as, rest) => (a :: as, rest)

def writeList {α : Type} (write : α → Bytes) (as : List α) : Bytes :=
  littleEndian 8 as.length ++ as.flatMap write

def list? {α : Type} (read? : Bytes → Option (α × Bytes)) (bytes : Bytes) : Option (List α × Bytes) :=
  (number? 8 bytes).bind fun (count, rest) => many? read? count rest

end Statechart.Binary
