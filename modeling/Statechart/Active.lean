import Statechart.Machine.Fire

namespace Statechart

inductive Change (X L : Type) where
  | addExtension (extension : Extension X)
  | removeExtension (extension : Extension X)
  | clearExtensions
  | subscribe (subscriber : Subscriber L)
  | keep
deriving DecidableEq

def Change.apply {S E F X L : Type} [DecidableEq X] (change : Change X L) (m : Machine S E F X L) :
    Machine S E F X L :=
  match change with
  | addExtension extension => m.addExtension extension
  | removeExtension extension => m.removeExtension extension
  | clearExtensions => m.clearExtensions
  | subscribe subscriber => m.subscribe subscriber
  | keep => m

inductive Message (E X L : Type) where
  | post (post : Post E)
  | configure (change : Change X L)
  | stop
deriving DecidableEq

/-- What a worker owns: the machine, the signals it has accepted, and whether the initial state is still to
    be entered. -/
structure Worker (S E F X L : Type) where
  machine : Machine S E F X L
  queue : List (Signal E)
  pending : Bool

inductive Phase where
  | starting | draining | working
deriving DecidableEq

/-- A worker is stopped, or running, or lost. A lost worker is known to be gone only after the next stop. -/
inductive Runtime (S E F X L : Type) where
  | stopped (worker : Worker S E F X L)
  | running (worker : Worker S E F X L) (phase : Phase) (stopping : Bool)
  | lost
  | terminated

/-- A machine with a worker of its own. Its owner and the worker share a channel of messages and the state
    that the worker publishes. -/
structure Active (S E F X L : Type) where
  name : String
  threadName : String
  channel : List (Message E X L)
  published? : Option S
  isInitialized : Bool
  runtime : Runtime S E F X L

namespace Active

variable {S E F X L W : Type}

def ofMachine (machine : Machine S E F X L) : Active S E F X L where
  name := machine.name
  threadName := machine.config.threadName
  channel := []
  published? := machine.current?
  isInitialized := machine.isInitialized
  runtime := .stopped ⟨machine, [], machine.isInitialized && !machine.hasEntered⟩

def isRunning (a : Active S E F X L) : Bool :=
  match a.runtime with
  | .running .. | .lost => true
  | .stopped _ | .terminated => false

def isOpen (a : Active S E F X L) : Bool :=
  match a.runtime with
  | .running .. | .stopped _ => true
  | .lost | .terminated => false

def machine? (a : Active S E F X L) : Option (Machine S E F X L) :=
  match a.runtime with
  | .stopped worker => some worker.machine
  | _ => none

def withMachine (a : Active S E F X L) (machine : Machine S E F X L) : Active S E F X L :=
  match a.runtime with
  | .stopped worker => { a with runtime := .stopped { worker with machine := machine } }
  | _ => a

def send (a : Active S E F X L) (message : Message E X L) : Except Misuse (Active S E F X L) :=
  if a.isOpen then .ok { a with channel := a.channel ++ [message] } else .error .workerTerminated

/-- What the worker turns to after an operation: a crash loses it together with everything it owns and all
    that was sent to it, and otherwise it publishes its state. -/
def resume (a : Active S E F X L) (worker : Worker S E F X L) (stopping : Bool) (host : Host S E F X L W) :
    Active S E F X L × Host S E F X L W :=
  match host.crash? with
  | some length =>
    ({ a with runtime := .lost, channel := [] },
      { host with journal := host.journal.take length, outbox := [], crash? := none })
  | none =>
    ({ a with runtime := .running worker .draining stopping, published? := worker.machine.current? }, host)

/-- Accepts one message. Signals are queued, changes are made at once, and a stop ends the intake. -/
def accept [DecidableEq X] (a : Active S E F X L) (worker : Worker S E F X L) (message : Message E X L)
    (host : Host S E F X L W) : Active S E F X L × Host S E F X L W :=
  match message with
  | .post post =>
    let queue := if post.priority then post.signal :: worker.queue else worker.queue ++ [post.signal]
    let hook := if post.priority then .eventQueuedWithPriority post.signal else .eventQueued post.signal
    ({ a with runtime := .running { worker with queue := queue } .draining false },
      worker.machine.announce hook host)
  | .configure change =>
    let machine := change.apply worker.machine
    ({ a with runtime := .running { worker with machine := machine } .draining false
              published? := machine.current? }, host)
  | .stop => ({ a with runtime := .running worker .draining true }, host)

variable [DecidableEq S] [DecidableEq E]

def beginRun (b : Behaviour S E F X W) (a : Active S E F X L) (worker : Worker S E F X L) (stopping : Bool)
    (host : Host S E F X L W) : Active S E F X L × Host S E F X L W :=
  let host := worker.machine.announce .started host
  if worker.pending then
    match worker.machine.enterInitialState b host with
    | .error error =>
      a.resume { worker with pending := false } stopping (host.log (.initialEntryFailed worker.machine.name error))
    | .ok done => a.resume { worker with machine := done.machine, pending := false } stopping done.host
  else ({ a with runtime := .running worker .draining stopping }, host)

def fireNext (b : Behaviour S E F X W) (a : Active S E F X L) (worker : Worker S E F X L) (stopping : Bool)
    (signal : Signal E) (host : Host S E F X L W) : Active S E F X L × Host S E F X L W :=
  match worker.machine.fire b signal host with
  | .error error => a.resume worker stopping (host.log (.firingFailed worker.machine.name error))
  | .ok done => a.resume { worker with machine := done.machine } stopping done.host

/-- One turn of a running worker that has sent nothing. It looks for messages as long as it is not stopping
    and finds some, then fires one signal, and so on. With nothing left it ends its run if it was told to
    stop, and waits for a message otherwise. There is no turn while it waits or does not run. -/
def workerTurn? [DecidableEq X] (b : Behaviour S E F X W) (a : Active S E F X L) (host : Host S E F X L W) :
    Option (Active S E F X L × Host S E F X L W) :=
  match a.runtime with
  | .running worker .starting stopping => some (a.beginRun b worker stopping host)
  | .running worker .draining stopping =>
    match stopping, a.channel with
    | false, message :: rest => some ({ a with channel := rest }.accept worker message host)
    | _, _ => some ({ a with runtime := .running worker .working stopping }, host)
  | .running worker .working stopping =>
    match worker.queue with
    | signal :: queue => some (a.fireNext b { worker with queue := queue } stopping signal host)
    | [] =>
      if stopping then
        some ({ a with runtime := .stopped worker }, worker.machine.announce .stopped host)
      else match a.channel with
        | message :: rest => some ({ a with channel := rest }.accept worker message host)
        | [] => none
  | .stopped _ | .lost | .terminated => none

/-- One turn. What guards and actions sent goes into the channel one by one before the worker goes on;
    others may send in between. -/
def turn? [DecidableEq X] (b : Behaviour S E F X W) (a : Active S E F X L) (host : Host S E F X L W) :
    Option (Active S E F X L × Host S E F X L W) :=
  match host.outbox with
  | post :: rest => some ({ a with channel := a.channel ++ [.post post] }, { host with outbox := rest })
  | [] => a.workerTurn? b host

def settle? [DecidableEq X] (b : Behaviour S E F X W) : Nat → Active S E F X L → Host S E F X L W →
    Option (Active S E F X L × Host S E F X L W)
  | 0, _, _ => none
  | turns + 1, a, host =>
    match a.turn? b host with
    | none => some (a, host)
    | some (a, host) => settle? b turns a host

def initializeAt (b : Behaviour S E F X W) (a : Active S E F X L) (state : S) (host : Host S E F X L W) :
    Except Misuse (Active S E F X L × Host S E F X L W) :=
  if a.isInitialized then .error .alreadyInitialized
  else match a.runtime with
    | .stopped worker => (worker.machine.initializeAt b state host).map fun (machine, host) =>
      ({ a with isInitialized := true
                runtime := .stopped { worker with machine := machine, pending := true } }, host)
    | .running .. | .lost => .error .alreadyInitialized
    | .terminated => .error .workerTerminated

omit [DecidableEq S] [DecidableEq E] in
def start (a : Active S E F X L) (host : Host S E F X L W) :
    Except Misuse (Active S E F X L × Host S E F X L W) :=
  if !a.isInitialized then .error .notInitialized
  else match a.runtime with
    | .stopped worker =>
      .ok ({ a with runtime := .running worker .starting false },
        host.log (.startingWorker a.name a.threadName))
    | .running .. | .lost => .ok (a, host)
    | .terminated => .error .workerTerminated

/-- Asks the worker to stop and waits for it. What was sent before is worked off first. A worker that was lost
    before cannot be asked; one that is lost on the way is noticed when it has gone. -/
def stop? [DecidableEq X] (b : Behaviour S E F X W) (turns : Nat) (a : Active S E F X L)
    (host : Host S E F X L W) : Option (Except Misuse Unit × Active S E F X L × Host S E F X L W) :=
  match a.runtime with
  | .running .. =>
    (settle? b turns { a with channel := a.channel ++ [.stop] } host).map fun (a, host) =>
      match a.runtime with
      | .stopped _ => (.ok (), a, host.log (.workerStopped a.name))
      | _ => (.error .workerPanicked, { a with runtime := .terminated }, host)
  | .lost => some (.error .workerTerminated, { a with runtime := .terminated }, host)
  | .stopped _ | .terminated => some (.ok (), a, host)

omit [DecidableEq S] [DecidableEq E] in
/-- Asks a running worker for a change that keeps everything. It publishes its state when it gets there. -/
def prompt (a : Active S E F X L) : Active S E F X L :=
  match a.runtime with
  | .running .. => { a with channel := a.channel ++ [.configure .keep] }
  | .stopped _ | .lost | .terminated => a

omit [DecidableEq S] [DecidableEq E] in
def configure [DecidableEq X] (a : Active S E F X L) (change : Change X L) :
    Except Misuse (Active S E F X L) :=
  match a.runtime with
  | .stopped worker => .ok (a.withMachine (change.apply worker.machine))
  | .running .. => a.send (.configure change)
  | .lost | .terminated => .error .workerTerminated

def discard? [DecidableEq X] (b : Behaviour S E F X W) (turns : Nat) (a : Active S E F X L)
    (host : Host S E F X L W) : Option (Host S E F X L W) :=
  (a.stop? b turns host).map fun (result, _, host) =>
    match result with
    | .ok () => host
    | .error error => host.log (.uncleanStop a.name error)

def summary [Describe S] (a : Active S E F X L) : String :=
  "ActiveStateMachine \x7b name: " ++ Text.quote a.name ++ ", running: " ++ toString a.isRunning ++
    ", current_state: " ++ showOption (a.published?.map describe) ++ " \x7d"

end Active

end Statechart
