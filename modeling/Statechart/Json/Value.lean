namespace Statechart.Json

/-- A document. A text is absent when an unpaired surrogate stands in it, and a number with a fraction, an
    exponent or a negative zero has no value of its own: such parts can be skipped but not be read. -/
inductive Value where
  | null
  | bool (value : Bool)
  | integer (value : Int)
  | decimal
  | text (content? : Option String)
  | array (elements : List Value)
  | object (members : List (Option String × Value))
deriving BEq

namespace Value

/-- The values of the members with the given names. All names in the document must be readable, and none
    of those asked for may stand there twice. -/
def members? (names : List String) (members : List (Option String × Value)) : Option (List (Option Value)) :=
  if members.all (fun entry => entry.1.isSome) ∧
      names.all (fun name => (members.filter fun entry => entry.1 = some name).length ≤ 1) then
    some (names.map fun name => (members.find? fun entry => entry.1 = some name).map Prod.snd)
  else none

def fields? (names : List String) : Value → Option (List (Option Value))
  | object members => members? names members
  | array elements =>
    if elements.length ≤ names.length then
      some (elements.map some ++ List.replicate (names.length - elements.length) none)
    else none
  | _ => none

def asText? : Value → Option String
  | text content? => content?
  | _ => none

def asBool? : Value → Option Bool
  | bool value => some value
  | _ => none

def asInteger? : Value → Option Int
  | integer value => some value
  | _ => none

end Value

end Statechart.Json
