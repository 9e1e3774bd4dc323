import Statechart.Text.Quoted

namespace Statechart

/-- The text by which states and events are named in reports, errors and logs. -/
class Describe (α : Type) where
  describe : α → String

export Describe (describe)

structure Symbol where
  name : String
deriving DecidableEq

structure Label where
  text : String
deriving DecidableEq

instance : Describe Symbol := ⟨Symbol.name⟩

instance : Describe Label := ⟨fun label => Text.quote label.text⟩

instance : Describe Int64 := ⟨fun n => toString n.toInt⟩

def showOption : Option String → String
  | none => "None"
  | some text => "Some(" ++ text ++ ")"

def describeOption {α : Type} [Describe α] : Option α → String
  | none => "None"
  | some a => describe a

end Statechart
