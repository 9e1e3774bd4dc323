import Statechart.Context

namespace Statechart

structure Info (S : Type) where
  name : String
  current? : Option S
deriving DecidableEq

structure Edge (S E : Type) where
  source : S
  event : E
  target? : Option S
deriving DecidableEq

inductive Fault (S E : Type) where
  | entry (state : S)
  | exit (state : S)
  | guard (edge : Edge S E)
  | action (edge : Edge S E)
deriving DecidableEq

def Fault.display {S E : Type} [Describe S] [Describe E] : Fault S E → String
  | entry state => "Entry action of " ++ describe state
  | exit state => "Exit action of " ++ describe state
  | guard edge => "Guard of transition " ++ describe edge.source ++ " on " ++ describe edge.event
  | action edge => "Action of transition " ++ describe edge.source ++ " on " ++ describe edge.event

/-- A call of an extension. The calls whose names end in "ing" ask whether a value is to be replaced. -/
inductive Hook (S E : Type) where
  | started
  | stopped
  | eventQueued (signal : Signal E)
  | eventQueuedWithPriority (signal : Signal E)
  | switchedState (old? : Option S) (new : S)
  | initializing (state : S)
  | initialized (state : S)
  | enteringInitialState (state : S)
  | enteredInitialState (state : S) (context : Context S E)
  | firing (signal : Signal E)
  | fired (context : Context S E)
  | handlingException (fault : Fault S E) (context : Context S E) (exception : Exception)
  | handledException (fault : Fault S E) (context : Context S E) (exception : Exception)
deriving DecidableEq

def Hook.name {S E : Type} : Hook S E → String
  | started => "started_state_machine"
  | stopped => "stopped_state_machine"
  | eventQueued _ => "event_queued"
  | eventQueuedWithPriority _ => "event_queued_with_priority"
  | switchedState .. => "switched_state"
  | initializing _ => "initializing_state_machine"
  | initialized _ => "initialized_state_machine"
  | enteringInitialState _ => "entering_initial_state"
  | enteredInitialState .. => "entered_initial_state"
  | firing _ => "firing_event"
  | fired _ => "fired_event"
  | handlingException (.entry _) .. => "handling_entry_action_exception"
  | handlingException (.exit _) .. => "handling_exit_action_exception"
  | handlingException (.guard _) .. => "handling_guard_exception"
  | handlingException (.action _) .. => "handling_transition_exception"
  | handledException (.entry _) .. => "handled_entry_action_exception"
  | handledException (.exit _) .. => "handled_exit_action_exception"
  | handledException (.guard _) .. => "handled_guard_exception"
  | handledException (.action _) .. => "handled_transition_exception"

/-- An extension either writes the calls it gets to the log or answers them as its owner decides. Two
    extensions are the same when they are equal; the key of a log writer tells it from others. -/
inductive Extension (X : Type) where
  | logger (key? : Option X)
  | custom (extension : X)
deriving DecidableEq

end Statechart
