namespace Statechart

structure Config where
  name : String
  workerThread? : Option String
  logTransitions : Bool
deriving DecidableEq

namespace Config

def standardName : String := "state machine"

def standard : Config := ⟨standardName, none, false⟩

instance : Inhabited Config := ⟨standard⟩

def named (name : String) : Config := { standard with name := name }

/-- The thread of an active machine is named after the machine unless the settings say otherwise. -/
def threadName (config : Config) : String := config.workerThread?.getD (config.name ++ "-worker")

end Config

end Statechart
