import Statechart.Active
import Statechart.Checkpoint
import Statechart.Report
import Statechart.UnitTest
import Statechart.Scenario.Script

namespace Statechart.Scenario

inductive Mode where
  | passive | unit | active
deriving DecidableEq

inductive Passage where
  | direct | text | bytes
deriving DecidableEq

structure Patch (I : Type) where
  version? : Option UInt32
  machine? : Option String
  initial? : Option (Option I)
  current? : Option (Option I)
  history? : Option (List (HistoryEntry I))

def Patch.apply {I : Type} (patch : Patch I) (c : Checkpoint I) : Checkpoint I :=
  { c with
    version := patch.version?.getD c.version
    machine := patch.machine?.getD c.machine
    initial? := patch.initial?.getD c.initial?
    current? := patch.current?.getD c.current?
    history := patch.history?.getD c.history }

inductive Step (I : Type) where
  | renew
  | discard
  | wrap (mode : Mode)
  | unwrap
  | define (superState initial : I) (history : HistoryType) (subs : List I)
  | transition (source event : I) (draft : Draft I (Script I))
  | entry (state : I) (action : Callable (Script I))
  | exit (state : I) (action : Callable (Script I))
  | engineInitialize (state : I)
  | engineEnter
  | engineFire (signal : Signal I)
  | load (slot? : Option String) (patch : Patch I) (passage : Passage)
  | initializeAt (state : I)
  | fire (post : Post I)
  | start
  | stop
  | addExtension (fresh logs : Bool) (watcher : Watcher I I)
  | removeExtension (label : String)
  | clearExtensions
  | subscribe (listener : Listener)
  | senderFire (post : Post I)
  | info
  | report
  | views
  | states (wanted : List I)
  | debug
  | senderDebug
  | published
  | save (slot : String)

structure Facts (I : Type) where
  name : String
  initial? : Option I
  current? : Option I
  extensions : Nat
  subscribers : Nat
  logTransitions : Bool
  threadName : String

inductive Result (I : Type) where
  | ok
  | flag (value : Bool)
  | text (value? : Option String)
  | misuse (error : Misuse)
  | refused (error : DefinitionError I I)
  | refusedAll (errors : List (DefinitionError I I))
  | unloaded (error : CheckpointError I)
  | failed (failure : Failure I I)
  | thrown (exception : Exception)
  | wrongMode
  | checkpoint (c : Checkpoint I)
  | facts (facts : Facts I)
  | views (report : Report I I)
  | states (count : Nat) (places : List (Option Nat))
  | published (name : String) (state? : Option I)

abbrev Engine (I : Type) := Machine I I (Script I) (Watcher I I) Listener

abbrev Surroundings (I : Type) := Host I I (Script I) (Watcher I I) Listener World

abbrev Entry (I : Type) := JournalEntry I I (Script I) (Watcher I I) Listener

inductive Subject (I : Type) where
  | missing
  | plain (machine : Engine I)
  | passive (passive : Passive I I (Script I) (Watcher I I) Listener)
  | unit (unit : UnitTest I I (Script I) (Watcher I I) Listener)
  | active (active : Active I I (Script I) (Watcher I I) Listener)

namespace Subject

variable {I : Type}

def engine? : Subject I → Option (Engine I)
  | missing => none
  | plain machine => some machine
  | passive p => some p.machine
  | unit u => some u.passive.machine
  | active a => a.machine?

def withEngine (machine : Engine I) : Subject I → Subject I
  | missing => missing
  | plain _ => plain machine
  | passive p => passive { p with machine := machine }
  | unit u => unit ⟨{ u.passive with machine := machine }⟩
  | active a => active (a.withMachine machine)

/-- Signals that were sent wait where the wrapper looks for them. A machine that is not wrapped gets none. -/
def deliver (posts : List (Post I)) : Subject I → Subject I
  | passive p => passive { p with inbox := p.inbox ++ posts }
  | unit u => unit ⟨{ u.passive with inbox := u.passive.inbox ++ posts }⟩
  | active a => active { a with channel := a.channel ++ posts.map .post }
  | subject => subject

def state? : Subject I → Option I
  | missing => none
  | plain machine => machine.current?
  | passive p => p.machine.current?
  | unit u => u.passive.machine.current?
  | active a => a.published?

def running? : Subject I → Option Bool
  | missing | plain _ => none
  | passive p => some p.running
  | unit u => some u.passive.running
  | active a => some a.isRunning

def queued? : Subject I → Option Nat
  | passive p => some p.queue.length
  | unit u => some u.passive.queue.length
  | missing | plain _ | active _ => none

def backlog : Subject I → Nat
  | missing | plain _ => 0
  | passive p => p.queue.length + p.inbox.length
  | unit u => u.passive.queue.length + u.passive.inbox.length
  | active a => a.channel.length + match a.runtime with
    | .running worker .. | .stopped worker => worker.queue.length
    | .lost | .terminated => 0

end Subject

structure Answer (I : Type) where
  result : Result I
  state? : Option I
  running? : Option Bool
  queued? : Option Nat
  trace : List (Entry I)

structure Session (I : Type) where
  config : Config
  logs : Bool
  subject : Subject I
  host : Surroundings I
  extensions : Table String (Extension (Watcher I I))
  slots : Table String (Checkpoint I)
  enrolled : Nat
  budget : Nat

end Statechart.Scenario
