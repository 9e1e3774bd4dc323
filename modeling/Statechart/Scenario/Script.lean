import Statechart.Host
import Statechart.Json.Value
import Statechart.Table

namespace Statechart.Scenario

def showArgument : Argument → Json.Value
  | .u8 value => .integer value.toNat
  | .u16 value => .integer value.toNat
  | .u32 value => .integer value.toNat
  | .u64 value => .integer value.toNat
  | .i8 value => .integer value.toInt
  | .i16 value => .integer value.toInt
  | .i32 value => .integer value.toInt
  | .i64 value => .integer value.toInt
  | .usize value => .integer value.toNat
  | .bool value => .bool value
  | .char value => .text (some value.toString)
  | .string value => .text (some value)
  | .str value => .text (some value)
  | .unit => .null
  | .vecI32 values => .array (values.map fun value => .integer value.toInt)

def showArguments (arguments : Arguments) : Json.Value :=
  .array (arguments.map fun argument => .array [.text (some argument.type.name), showArgument argument])

def showInput : Input → Json.Value
  | .nothing => .null
  | .one argument => showArgument argument
  | .all arguments => showArguments arguments

inductive Condition where
  | greater (than : Int)
  | equals (value : Json.Value)
  | length (count : Nat)

def Condition.holds (received : Json.Value) : Condition → Bool
  | greater than => match received with
    | .integer value => than < value
    | _ => false
  | equals value => received == value
  | length count => match received with
    | .array elements => elements.length == count
    | _ => false

inductive Verdict where
  | always (passes : Bool)
  | inTurn (passes : List Bool)
  | provided (conditions : List Condition)

def Verdict.decide (calls : Nat) (received : Json.Value) : Verdict → Bool
  | always passes => passes
  | inTurn passes => (passes[calls]?).getD (passes.getLastD false)
  | provided conditions => conditions.all fun condition => condition.holds received

structure Sending (E : Type) where
  post : Post E
  times : Nat

/-- Code that does as it is told. Its counters are kept in the world under a number of its own. -/
structure Script (E : Type) where
  number : Nat
  tag : String
  sendings : List (Sending E)
  crashes : Bool
  failure? : Option String
  verdict : Verdict

inductive Sender where
  | absent | isOpen | closed
deriving DecidableEq

structure Counter where
  left : List Nat
  calls : Nat

structure World where
  sender : Sender
  counters : Table Nat Counter

namespace World

def initial : World := ⟨.absent, .empty⟩

def counter {E : Type} (world : World) (script : Script E) : Counter :=
  (world.counters.get? script.number).getD ⟨script.sendings.map Sending.times, 0⟩

def setCounter {E : Type} (world : World) (script : Script E) (counter : Counter) : World :=
  { world with counters := world.counters.insert script.number counter }

end World

def Sender.refusal? : Sender → Option Exception
  | absent => some (.custom "no sender")
  | isOpen => none
  | closed => some (.misuse .workerTerminated)

/-- Sends what is still to be sent. The first signal that is refused ends it; its turn is used up all the
    same. -/
def sendAll {E : Type} (sender : Sender) :
    List (Sending E) → List Nat → List (Post E) × List Nat × Option Exception
  | sending :: sendings, (n + 1) :: left =>
    match sender.refusal? with
    | some exception => ([], n :: left, some exception)
    | none =>
      let (posts, left, exception?) := sendAll sender sendings left
      (sending.post :: posts, n :: left, exception?)
  | _ :: sendings, 0 :: left =>
    let (posts, left, exception?) := sendAll sender sendings left
    (posts, 0 :: left, exception?)
  | _, left => ([], left, none)

namespace Script

variable {E : Type}

def run {α : Type} (script : Script E) (answer : Counter → Counter × α) (world : World) : Reply E World α :=
  let counter := world.counter script
  let (posts, left, exception?) := sendAll world.sender script.sendings counter.left
  let counter := { counter with left := left }
  match exception? with
  | some exception => ⟨.failed exception, posts, world.setCounter script counter⟩
  | none =>
    if script.crashes then ⟨.crashed, posts, world.setCounter script counter⟩
    else match script.failure? with
      | some message => ⟨.failed (.custom message), posts, world.setCounter script counter⟩
      | none =>
        let (counter, a) := answer counter
        ⟨.done a, posts, world.setCounter script counter⟩

def act (script : Script E) (_received : Input) (world : World) : Reply E World Unit :=
  script.run (fun counter => (counter, ())) world

def check (script : Script E) (received : Input) (world : World) : Reply E World Bool :=
  script.run (fun counter => ({ counter with calls := counter.calls + 1 },
    script.verdict.decide counter.calls (showInput received))) world

def budget (script : Script E) : Nat := script.sendings.foldr (fun sending n => sending.times + n) 0

end Script

structure Watcher (S E : Type) where
  number : Nat
  label : String
  hooks? : Option (List String)
  initial : List (S × S)
  signals : List (E × E × Option Arguments)
  entryMark? : Option String
  exitMark? : Option String
  guardMark? : Option String
  actionMark? : Option String
deriving DecidableEq

namespace Watcher

variable {S E : Type}

def hears (watcher : Watcher S E) (hook : Hook S E) : Bool :=
  match watcher.hooks? with
  | none => true
  | some hooks => hooks.contains hook.name

def mark? (watcher : Watcher S E) : Fault S E → Option String
  | .entry _ => watcher.entryMark?
  | .exit _ => watcher.exitMark?
  | .guard _ => watcher.guardMark?
  | .action _ => watcher.actionMark?

end Watcher

structure Listener where
  label : String
  only? : Option String
deriving DecidableEq

def Listener.hears {S E : Type} (listener : Listener) (notice : Notice S E) : Bool :=
  match listener.only? with
  | none => true
  | some kind => notice.kind = kind

def behaviour {S E : Type} [DecidableEq S] [DecidableEq E] : Behaviour S E (Script E) (Watcher S E) World where
  guard := Script.check
  action := Script.act
  initialState watcher _ state := (watcher.initial.find? fun entry => entry.1 = state).map Prod.snd
  signal watcher _ signal :=
    (watcher.signals.find? fun entry => entry.1 = signal.event).map fun entry =>
      ⟨entry.2.1, entry.2.2.getD signal.arguments⟩
  exception watcher _ fault _ exception :=
    (watcher.mark? fault).map fun mark => .custom (mark ++ exception.message)

end Statechart.Scenario
