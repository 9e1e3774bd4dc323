import Statechart.Callable
import Statechart.Identifier

namespace Statechart

inductive Misuse where
  | alreadyInitialized
  | notInitialized
  | initialStateNotEntered
  | initialStateAlreadyEntered
  | workerPanicked
  | workerTerminated
deriving DecidableEq

namespace Misuse

def message : Misuse → String
  | alreadyInitialized => "State machine is already initialized"
  | notInitialized => "State machine is not initialized. Call .initialize(state) first"
  | initialStateNotEntered => "State machine has not yet entered its initial state"
  | initialStateAlreadyEntered => "State machine has already entered its initial state"
  | workerPanicked => "State machine worker panicked"
  | workerTerminated => "State machine worker has terminated and no longer accepts events"

def kind : Misuse → String
  | alreadyInitialized => "AlreadyInitialized"
  | notInitialized => "NotInitialized"
  | initialStateNotEntered => "InitialStateNotEntered"
  | initialStateAlreadyEntered => "InitialStateAlreadyEntered"
  | workerPanicked => "WorkerPanicked"
  | workerTerminated => "WorkerTerminated"

end Misuse

inductive Exception where
  | custom (message : String)
  | argument (error : ArgumentError)
  | misuse (error : Misuse)
deriving DecidableEq

namespace Exception

def message : Exception → String
  | custom message => message
  | argument error => error.message
  | misuse error => error.message

def kind : Exception → String
  | custom _ => "Custom"
  | argument (.arityMismatch ..) => "ArityMismatch"
  | argument (.typeMismatch ..) => "TypeMismatch"
  | misuse error => error.kind

end Exception

inductive DefinitionError (S E : Type) where
  | ownSuperState (state : S)
  | initialStateNotSubState (superState initial : S)
  | hierarchyAlreadyDefined (superState : S)
  | alreadyHasSuperState (state existing requested : S)
  | cyclicHierarchy (state superState : S)
  | duplicateTransition (state : S) (event : E)
deriving DecidableEq

namespace DefinitionError

variable {S E : Type}

def kind : DefinitionError S E → String
  | ownSuperState .. => "OwnSuperState"
  | initialStateNotSubState .. => "InitialStateNotSubState"
  | hierarchyAlreadyDefined .. => "HierarchyAlreadyDefined"
  | alreadyHasSuperState .. => "AlreadyHasSuperState"
  | cyclicHierarchy .. => "CyclicHierarchy"
  | duplicateTransition .. => "DuplicateTransition"

def message [Describe S] [Describe E] : DefinitionError S E → String
  | ownSuperState state => "State " ++ describe state ++ " cannot be its own super-state"
  | initialStateNotSubState superState initial =>
    "Initial state " ++ describe initial ++ " is not a sub-state of " ++ describe superState
  | hierarchyAlreadyDefined superState =>
    "State " ++ describe superState ++ " already has a hierarchy defined"
  | alreadyHasSuperState state existing requested =>
    "State " ++ describe state ++ " cannot be added to super-state " ++ describe requested ++
      " because it already has super-state " ++ describe existing
  | cyclicHierarchy state superState =>
    "Adding " ++ describe state ++ " below " ++ describe superState ++ " would create a cycle"
  | duplicateTransition state event =>
    "Transition for event " ++ describe event ++ " on state " ++ describe state ++
      " is unreachable: an unguarded transition for that event already exists"

def summary [Describe S] [Describe E] (errors : List (DefinitionError S E)) : String :=
  "Invalid state machine definition: " ++ String.intercalate "; " (errors.map message)

end DefinitionError

inductive CheckpointError (S : Type) where
  | malformed
  | unsupportedVersion (found : UInt32)
  | alreadyInitialized
  | unknownState (state : S)
  | currentWithoutInitial
  | currentNotLeaf (state : S)
  | notSubState (state superState : S)
deriving DecidableEq

/-- The version of the checkpoints that are written, and the only one that is read. -/
def checkpointVersion : UInt32 := 1

namespace CheckpointError

variable {S : Type}

def kind : CheckpointError S → String
  | malformed => "DeserializationFailed"
  | unsupportedVersion _ => "UnsupportedVersion"
  | alreadyInitialized => "AlreadyInitialized"
  | unknownState _ | currentWithoutInitial | currentNotLeaf _ | notSubState .. => "ValidationFailed"

def message [Describe S] : CheckpointError S → String
  | malformed => "Deserialization failed"
  | unsupportedVersion found =>
    "Unsupported checkpoint version " ++ toString found.toNat ++ ", supported: " ++
      toString checkpointVersion.toNat
  | alreadyInitialized => "Cannot load a checkpoint into an initialized state machine"
  | unknownState state => "Checkpoint validation failed: Unknown state " ++ describe state
  | currentWithoutInitial =>
    "Checkpoint validation failed: Checkpoint has a current state but no initial state"
  | currentNotLeaf state =>
    "Checkpoint validation failed: Current state " ++ describe state ++ " is not a leaf"
  | notSubState state superState =>
    "Checkpoint validation failed: " ++ describe state ++ " is not a sub-state of " ++ describe superState

end CheckpointError

inductive MachineError (S E : Type) where
  | misuse (error : Misuse)
  | definition (errors : List (DefinitionError S E))
  | checkpoint (error : CheckpointError S)
deriving DecidableEq

def MachineError.message {S E : Type} [Describe S] [Describe E] : MachineError S E → String
  | misuse error => error.message
  | definition errors => DefinitionError.summary errors
  | checkpoint error => error.message

end Statechart
