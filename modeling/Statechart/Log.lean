import Statechart.Extension

namespace Statechart

/-- What is written to the log. A call of an extension that writes the log is a line of its own. -/
inductive LogLine (S E : Type) where
  | initialized (machine : String) (initial : S)
  | enteredInitialState (machine : String) (state : S) (records : List (Record S))
  | firedEvent (machine : String) (event : E) (state : S) (records : List (Record S))
  | transitionDeclined (machine : String) (event : E) (state : S)
  | callableFailed (machine : String) (fault : Fault S E) (exception : Exception)
  | loadedCheckpoint (machine : String) (checkpoint : String) (current? : Option S)
  | startingWorker (machine thread : String)
  | workerStopped (machine : String)
  | initialEntryFailed (machine : String) (error : Misuse)
  | firingFailed (machine : String) (error : Misuse)
  | uncleanStop (machine : String) (error : Misuse)
  | extensionCalled (info : Info S) (hook : Hook S E)
deriving DecidableEq

inductive LogLevel where
  | debug | info | warn
deriving DecidableEq

def LogLevel.name : LogLevel → String
  | debug => "DEBUG"
  | info => "INFO"
  | warn => "WARN"

structure LogText where
  level : LogLevel
  message : String
  fields : List (String × String)

variable {S E : Type} [Describe S] [Describe E]

/-- The text of an extension call. Questions and the announcement of the initial entry are not written. -/
def Hook.logText? (machine : String) : Hook S E → Option LogText
  | started => some ⟨.info, "State machine started", [("machine", machine)]⟩
  | stopped => some ⟨.info, "State machine stopped", [("machine", machine)]⟩
  | eventQueued signal => some ⟨.debug, "Event queued",
      [("machine", machine), ("event", describe signal.event), ("arguments", signal.arguments.describe)]⟩
  | eventQueuedWithPriority signal => some ⟨.debug, "Event queued with priority",
      [("machine", machine), ("event", describe signal.event), ("arguments", signal.arguments.describe)]⟩
  | switchedState old? new => some ⟨.info, "Switched state",
      [("machine", machine), ("from", showOption (old?.map describe)), ("to", describe new)]⟩
  | initialized state => some ⟨.info, "State machine initialized",
      [("machine", machine), ("initial_state", describe state)]⟩
  | enteredInitialState state context => some ⟨.info, "Entered initial state",
      [("machine", machine), ("state", describe state), ("records", Record.displayAll context.records)]⟩
  | fired context => some ⟨.debug, "Fired event",
      [("machine", machine), ("event", showOption (context.event?.map describe)),
        ("source", showOption (context.state?.map describe)), ("records", Record.displayAll context.records)]⟩
  | handledException (.entry state) _ exception => some ⟨.warn, "Exception in entry action",
      [("machine", machine), ("state", describe state), ("error", exception.message)]⟩
  | handledException (.exit state) _ exception => some ⟨.warn, "Exception in exit action",
      [("machine", machine), ("state", describe state), ("error", exception.message)]⟩
  | handledException (.guard edge) _ exception => some ⟨.warn, "Exception in guard",
      [("machine", machine), ("source", describe edge.source), ("event", describe edge.event),
        ("error", exception.message)]⟩
  | handledException (.action edge) _ exception => some ⟨.warn, "Exception in transition action",
      [("machine", machine), ("source", describe edge.source), ("event", describe edge.event),
        ("target", showOption (edge.target?.map describe)), ("error", exception.message)]⟩
  | initializing _ | enteringInitialState _ | firing _ | handlingException .. => none

def LogLine.text? : LogLine S E → Option LogText
  | initialized machine initial => some ⟨.debug, "Initialized state machine",
      [("machine", machine), ("initial_state", describe initial)]⟩
  | enteredInitialState machine state records => some ⟨.debug, "Entered initial state",
      [("machine", machine), ("state", describe state), ("records", Record.displayAll records)]⟩
  | firedEvent machine event state records => some ⟨.debug, "Fired event",
      [("machine", machine), ("event", describe event), ("state", describe state),
        ("records", Record.displayAll records)]⟩
  | transitionDeclined machine event state => some ⟨.debug, "Transition declined",
      [("machine", machine), ("event", describe event), ("state", describe state)]⟩
  | callableFailed machine fault exception => some ⟨.warn, fault.display ++ " failed",
      [("machine", machine), ("error", exception.message)]⟩
  | loadedCheckpoint machine checkpoint current? => some ⟨.debug, "Loaded checkpoint",
      [("machine", machine), ("checkpoint", checkpoint), ("current_state", showOption (current?.map describe))]⟩
  | startingWorker machine thread => some ⟨.debug, "Starting worker",
      [("machine", machine), ("thread", thread)]⟩
  | workerStopped machine => some ⟨.debug, "Worker stopped", [("machine", machine)]⟩
  | initialEntryFailed machine error => some ⟨.warn, "Failed to enter initial state",
      [("machine", machine), ("error", error.message)]⟩
  | firingFailed machine error => some ⟨.warn, "Failed to fire event",
      [("machine", machine), ("error", error.message)]⟩
  | uncleanStop machine error => some ⟨.warn, "Worker did not stop cleanly",
      [("machine", machine), ("error", error.message)]⟩
  | extensionCalled info hook => hook.logText? info.name

end Statechart
