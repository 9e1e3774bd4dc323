import Statechart.Log
import Statechart.Notice

namespace Statechart

inductive Outcome (α : Type) where
  | done (answer : α)
  | failed (exception : Exception)
  | crashed
deriving DecidableEq

/-- What a guard or an action leaves behind: its outcome, the signals it sent in order, and the world as it
    is afterwards. -/
structure Reply (E W α : Type) where
  outcome : Outcome α
  sent : List (Post E)
  world : W

/-- The code of guards and actions, which acts on a world, and the answers of extensions. An extension
    answers from what it is shown and remembers nothing; one that does is another behaviour in each call. -/
structure Behaviour (S E F X W : Type) where
  guard : F → Input → W → Reply E W Bool
  action : F → Input → W → Reply E W Unit
  initialState : X → Info S → S → Option S
  signal : X → Info S → Signal E → Option (Signal E)
  exception : X → Info S → Fault S E → Context S E → Exception → Option Exception

inductive JournalEntry (S E F X L : Type) where
  | guard (callable : Callable F) (arguments : Arguments) (outcome : Outcome Bool) (sent : List (Post E))
  | action (callable : Callable F) (arguments : Arguments) (outcome : Outcome Unit) (sent : List (Post E))
  | hook (extension : X) (info : Info S) (hook : Hook S E)
  | notice (subscriber : L) (notice : Notice S E)
  | log (line : LogLine S E)
deriving DecidableEq

/-- A subscriber is told what a machine publishes. The collector keeps the failures for a unit test. -/
inductive Subscriber (L : Type) where
  | collector
  | custom (subscriber : L)
deriving DecidableEq

/-- Where a machine runs: the world that guards and actions share, the signals they sent that nobody has
    taken yet, the failures that a collector keeps, and the journal of everything done so far. A crash marks
    the length of the journal at that moment; what follows it never happened. -/
structure Host (S E F X L W : Type) where
  world : W
  outbox : List (Post E)
  failures : List (Failure S E)
  journal : List (JournalEntry S E F X L)
  crash? : Option Nat

namespace Host

variable {S E F X L W α : Type}

def ofWorld (world : W) : Host S E F X L W := ⟨world, [], [], [], none⟩

def write (host : Host S E F X L W) (entry : JournalEntry S E F X L) : Host S E F X L W :=
  { host with journal := host.journal ++ [entry] }

def log (host : Host S E F X L W) (line : LogLine S E) : Host S E F X L W := host.write (.log line)

def accept (host : Host S E F X L W) (reply : Reply E W α) (entry : JournalEntry S E F X L) :
    Host S E F X L W :=
  let journal := host.journal ++ [entry]
  { host with
    world := reply.world
    outbox := host.outbox ++ reply.sent
    journal := journal
    crash? := match host.crash?, reply.outcome with
      | none, .crashed => some journal.length
      | crash?, _ => crash? }

def call (run : F → Input → W → Reply E W α)
    (entry : Callable F → Arguments → Outcome α → List (Post E) → JournalEntry S E F X L)
    (callable : Callable F) (arguments : Arguments) (host : Host S E F X L W) :
    Outcome α × Host S E F X L W :=
  match callable.receive arguments with
  | .error error =>
    let outcome := Outcome.failed (.argument error)
    (outcome, host.write (entry callable arguments outcome []))
  | .ok input =>
    let reply := run callable.code input host.world
    (reply.outcome, host.accept reply (entry callable arguments reply.outcome reply.sent))

def tell (info : Info S) (hook : Hook S E) (host : Host S E F X L W) (extension : Extension X) :
    Host S E F X L W :=
  match extension with
  | .logger _ => host.log (.extensionCalled info hook)
  | .custom extension => host.write (.hook extension info hook)

def announce (extensions : List (Extension X)) (info : Info S) (hook : Hook S E) (host : Host S E F X L W) :
    Host S E F X L W :=
  extensions.foldl (tell info hook) host

/-- Asks every extension in order of registration for a replacement. Each sees the answer of the one
    before it. -/
def consult (info : Info S) (question : α → Hook S E) (answer : X → α → Option α) :
    List (Extension X) → α → Host S E F X L W → α × Host S E F X L W
  | [], value, host => (value, host)
  | extension :: rest, value, host =>
    let replaced := match extension with
      | .logger _ => value
      | .custom extension => (answer extension value).getD value
    consult info question answer rest replaced (host.tell info (question value) extension)

def notify (notice : Notice S E) (host : Host S E F X L W) (subscriber : Subscriber L) : Host S E F X L W :=
  match subscriber with
  | .collector => { host with failures := host.failures ++ (Failure.ofNotice? notice).toList }
  | .custom subscriber => host.write (.notice subscriber notice)

def publish (subscribers : List (Subscriber L)) (notice : Notice S E) (host : Host S E F X L W) :
    Host S E F X L W :=
  subscribers.foldl (notify notice) host

end Host

end Statechart
