import Statechart.Context

namespace Statechart

inductive Notice (S E : Type) where
  | transitionBegin (state : S) (event : E) (arguments : Arguments)
  | transitionCompleted (state : S) (event : E) (arguments : Arguments) (newState : S)
      (records : List (Record S))
  | transitionDeclined (state : S) (event : E) (arguments : Arguments)
  | exceptionThrown (state? : Option S) (exception : Exception)
  | transitionExceptionThrown (state : S) (event : E) (arguments : Arguments) (exception : Exception)
deriving DecidableEq

namespace Notice

variable {S E : Type}

def kind : Notice S E → String
  | transitionBegin .. => "TransitionBegin"
  | transitionCompleted .. => "TransitionCompleted"
  | transitionDeclined .. => "TransitionDeclined"
  | exceptionThrown .. => "ExceptionThrown"
  | transitionExceptionThrown .. => "TransitionExceptionThrown"

def ofException (context : Context S E) (exception : Exception) : Notice S E :=
  match context.origin? with
  | some (state, event) => transitionExceptionThrown state event context.arguments exception
  | none => exceptionThrown context.state? exception

theorem ofException_congr {context context' : Context S E} (origin : context'.origin? = context.origin?)
    (arguments : context'.arguments = context.arguments) (exception : Exception) :
    ofException context' exception = ofException context exception := by
  unfold ofException Context.state?
  rw [origin, arguments]

/-- The initial entry has no state to start in, and none is published with its exceptions. -/
theorem ofException_stateless {context : Context S E} {exception exception' : Exception} {state? : Option S}
    (thrown : ofException context exception = exceptionThrown state? exception') :
    state? = none ∧ exception' = exception := by
  unfold ofException Context.state? at thrown
  cases origin : context.origin? <;> rw [origin] at thrown <;> cases thrown
  exact ⟨rfl, rfl⟩

end Notice

inductive Failure (S E : Type) where
  | declined (state : S) (event : E)
  | thrown (state? : Option S) (event? : Option E) (exception : Exception)
  | misuse (error : Misuse)
deriving DecidableEq

namespace Failure

variable {S E : Type}

def ofNotice? : Notice S E → Option (Failure S E)
  | .transitionDeclined state event _ => some (declined state event)
  | .exceptionThrown state? exception => some (thrown state? none exception)
  | .transitionExceptionThrown state event _ exception => some (thrown (some state) (some event) exception)
  | .transitionBegin .. | .transitionCompleted .. => none

def message [Describe S] [Describe E] : Failure S E → String
  | declined state event =>
    "Transition declined: state " ++ describe state ++ " does not handle event " ++ describe event
  | thrown (some state) (some event) exception =>
    "Exception thrown in state " ++ describe state ++ " while handling event " ++ describe event ++ ": " ++
      exception.message
  | thrown _ _ exception => "Exception thrown: " ++ exception.message
  | misuse error => error.message

end Failure

end Statechart
