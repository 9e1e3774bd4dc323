import Statechart.Error

namespace Statechart

inductive RecordKind where
  | enter | exit
deriving DecidableEq

structure Record (S : Type) where
  kind : RecordKind
  state : S
deriving DecidableEq

namespace Record

variable {S : Type} [Describe S]

def display (record : Record S) : String :=
  (match record.kind with | .enter => "Enter " | .exit => "Exit ") ++ describe record.state

def displayAll (records : List (Record S)) : String := String.intercalate " -> " (records.map display)

end Record

/-- What an operation has done so far. Its origin is the state it started in and the event that was fired;
    the entry of the initial state has none. -/
structure Context (S E : Type) where
  origin? : Option (S × E)
  arguments : Arguments
  records : List (Record S)
  exceptions : List Exception
deriving DecidableEq

namespace Context

variable {S E : Type}

def ofInitialEntry : Context S E := ⟨none, [], [], []⟩

def ofSignal (state : S) (signal : Signal E) : Context S E :=
  ⟨some (state, signal.event), signal.arguments, [], []⟩

def state? (context : Context S E) : Option S := context.origin?.map Prod.fst

def event? (context : Context S E) : Option E := context.origin?.map Prod.snd

def isTransition (context : Context S E) : Bool := context.origin?.isSome

def addRecord (context : Context S E) (kind : RecordKind) (state : S) : Context S E :=
  { context with records := context.records ++ [⟨kind, state⟩] }

def addException (context : Context S E) (exception : Exception) : Context S E :=
  { context with exceptions := context.exceptions ++ [exception] }

end Context

end Statechart
