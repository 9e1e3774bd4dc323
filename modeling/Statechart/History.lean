namespace Statechart

/-- Which sub-state a composite state enters: always its initial one, the one it was last in, or the
    leaf it was last in. -/
inductive HistoryType where
  | none | shallow | deep
deriving DecidableEq

namespace HistoryType

instance : Inhabited HistoryType := ⟨none⟩

def name : HistoryType → String
  | none => "None"
  | shallow => "Shallow"
  | deep => "Deep"

def ofName? (text : String) : Option HistoryType :=
  if text = "None" then some none
  else if text = "Shallow" then some shallow
  else if text = "Deep" then some deep
  else Option.none

end HistoryType

end Statechart
