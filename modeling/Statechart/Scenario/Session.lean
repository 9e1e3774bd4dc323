import Statechart.Checkpoint.Binary
import Statechart.Checkpoint.Text
import Statechart.Report.Text
import Statechart.Scenario.Step

namespace Statechart.Scenario

variable {I : Type} [DecidableEq I] [Describe I] [Codec I]

/-- Whether an entry of the journal is part of what the scenario hears. Code that was not run for its
    arguments is not heard, and log lines are heard only on request. -/
def isHeard (logs : Bool) : Entry I → Bool
  | .guard callable arguments _ _ | .action callable arguments _ _ => (callable.receive arguments).isOk
  | .hook watcher _ hook => watcher.hears hook
  | .notice listener notice => listener.hears notice
  | .log line => logs && line.text?.isSome

def blankTimestamp : Timestamp := ⟨⟨2024, 1, 2⟩, ⟨11045, 0⟩, by decide⟩

def blankId : String := "00000000-0000-4000-8000-000000000000"

def blankCheckpoint : Checkpoint I := ⟨checkpointVersion, blankId, blankTimestamp, "blank", none, none, []⟩

def Passage.carry (passage : Passage) (c : Checkpoint I) : Except (CheckpointError I) (Checkpoint I) :=
  match passage with
  | direct => .ok c
  | text => Checkpoint.ofJson c.toJson
  | bytes => Checkpoint.ofBytes c.toBytes

namespace Session

def ofConfig (config : Config) (logs : Bool) : Session I :=
  ⟨config, logs, .plain (.ofConfig config), .ofWorld .initial, .empty, .empty, 0, 0⟩

/-- More rounds than the signals that wait and those that scripts can still send could take. -/
def rounds (s : Session I) : Nat := 5 * (s.subject.backlog + s.budget) + 16

def enroll (s : Session I) (callable : Callable (Script I)) : Callable (Script I) × Session I :=
  ({ callable with code := { callable.code with number := s.enrolled } },
    { s with enrolled := s.enrolled + 1, budget := s.budget + callable.code.budget })

def enrollAll (s : Session I) : List (Callable (Script I)) → List (Callable (Script I)) × Session I
  | [] => ([], s)
  | callable :: rest =>
    let (callable, s) := s.enroll callable
    let (rest, s) := s.enrollAll rest
    (callable :: rest, s)

def onEngine (s : Session I) (work : Engine I → Surroundings I → Result I × Engine I × Surroundings I) :
    Result I × Session I :=
  match s.subject.engine? with
  | none => (.wrongMode, s)
  | some machine =>
    let (result, machine, host) := work machine s.host
    (result, { s with
      subject := (s.subject.withEngine machine).deliver host.outbox
      host := { host with outbox := [] } })

def askEngine (s : Session I) (ask : Engine I → Result I) : Result I × Session I :=
  match s.subject.engine? with
  | none => (.wrongMode, s)
  | some machine => (ask machine, s)

def ofMisuse : Except Misuse (Engine I × Surroundings I) → Engine I → Surroundings I →
    Result I × Engine I × Surroundings I
  | .error error, machine, host => (.misuse error, machine, host)
  | .ok (machine, host), _, _ => (.ok, machine, host)

def forget {W : Type} {F X L : Type} (completed : Except Misuse (Completed I I F X L W)) :
    Except Misuse (Machine I I F X L × Host I I F X L W) :=
  completed.map fun done => (done.machine, done.host)

def engineInitialize (s : Session I) (state : I) : Result I × Session I :=
  s.onEngine fun machine host => ofMisuse (machine.initializeAt behaviour state host) machine host

def engineEnter (s : Session I) : Result I × Session I :=
  s.onEngine fun machine host => ofMisuse (forget (machine.enterInitialState behaviour host)) machine host

def engineFire (s : Session I) (signal : Signal I) : Result I × Session I :=
  s.onEngine fun machine host => ofMisuse (forget (machine.fire behaviour signal host)) machine host

def afterPassive (s : Session I) (answer : Passive.Answer I I (Script I) (Watcher I I) Listener World) :
    Result I × Session I :=
  (match answer.result with
    | .ok () => .ok
    | .error error => .misuse error,
    { s with subject := .passive answer.passive, host := answer.host })

def afterUnit (s : Session I) (answer : UnitTest.Answer I I (Script I) (Watcher I I) Listener World) :
    Result I × Session I :=
  (match answer.result with
    | .ok () => .ok
    | .error failure => .failed failure,
    { s with subject := .unit answer.unit, host := answer.host })

def afterActive (s : Session I) :
    Except Misuse (Active I I (Script I) (Watcher I I) Listener × Surroundings I) → Result I × Session I
  | .error error => (.misuse error, s)
  | .ok (a, host) => (.ok, { s with subject := .active a, host := host })

def initializeAt (s : Session I) (state : I) : Option (Result I × Session I) :=
  match s.subject with
  | .missing => some (.wrongMode, s)
  | .plain _ => some (s.engineInitialize state)
  | .passive p => (p.initializeAt behaviour s.rounds state s.host).map s.afterPassive
  | .unit u => (u.initializeAt behaviour s.rounds state s.host).map s.afterUnit
  | .active a => some (s.afterActive (a.initializeAt behaviour state s.host))

def fire (s : Session I) (post : Post I) : Option (Result I × Session I) :=
  match s.subject with
  | .missing => some (.wrongMode, s)
  | .plain _ => some (if post.priority then (.wrongMode, s) else s.engineFire post.signal)
  | .passive p => (p.submit behaviour s.rounds post s.host).map s.afterPassive
  | .unit u => (u.submit behaviour s.rounds post s.host).map s.afterUnit
  | .active a => some (s.afterActive ((a.send (.post post)).map fun a => (a, s.host)))

def start (s : Session I) : Option (Result I × Session I) :=
  match s.subject with
  | .missing | .plain _ => some (.wrongMode, s)
  | .passive p => (p.start behaviour s.rounds s.host).map s.afterPassive
  | .unit u => (u.start behaviour s.rounds s.host).map s.afterUnit
  | .active a => some (s.afterActive (a.start s.host))

def stop (s : Session I) : Option (Result I × Session I) :=
  match s.subject with
  | .missing | .plain _ => some (.wrongMode, s)
  | .passive p =>
    let (p, host) := p.stop s.host
    some (.ok, { s with subject := .passive p, host := host })
  | .unit u =>
    let (u, host) := u.stop s.host
    some (.ok, { s with subject := .unit u, host := host })
  | .active a => (a.stop? behaviour s.rounds s.host).map fun (result, a, host) =>
    (match result with
      | .ok () => .ok
      | .error error => .misuse error,
      { s with subject := .active a, host := host })

def configure (s : Session I) (change : Change (Watcher I I) Listener)
    (result : Engine I → Engine I → Result I) : Result I × Session I :=
  match s.subject with
  | .active a => s.afterActive ((a.configure change).map fun a => (a, s.host))
  | _ => s.onEngine fun machine host =>
    let changed := change.apply machine
    (result machine changed, changed, host)

def extension (s : Session I) (fresh logs : Bool) (watcher : Watcher I I) :
    Extension (Watcher I I) × Session I :=
  match if fresh then none else s.extensions.get? watcher.label with
  | some extension => (extension, s)
  | none =>
    let watcher := { watcher with number := s.enrolled }
    let extension := if logs then .logger (some watcher) else .custom watcher
    (extension, { s with extensions := s.extensions.insert watcher.label extension, enrolled := s.enrolled + 1 })

def addExtension (s : Session I) (fresh logs : Bool) (watcher : Watcher I I) : Result I × Session I :=
  let (extension, s) := s.extension fresh logs watcher
  s.configure (.addExtension extension) fun _ _ => .ok

def removeExtension (s : Session I) (label : String) : Result I × Session I :=
  match s.extensions.get? label, s.subject with
  | some extension, _ => s.configure (.removeExtension extension) fun before after =>
    .flag (after.extensions.length ≠ before.extensions.length)
  | none, .active a => (if a.isOpen then .ok else .misuse .workerTerminated, s)
  | none, _ => s.askEngine fun _ => .flag false

def senderFire (s : Session I) (post : Post I) : Result I × Session I :=
  match s.host.world.sender.refusal? with
  | some exception => (.thrown exception, s)
  | none =>
    match s.subject with
    | .passive p => (.ok, { s with subject := .passive (p.send post) })
    | .unit u => (.ok, { s with subject := .unit ⟨u.passive.send post⟩ })
    | .active a =>
      match a.send (.post post) with
      | .ok a => (.ok, { s with subject := .active a })
      | .error error => (.thrown (.misuse error), s)
    | .missing | .plain _ => (.thrown (.misuse .workerTerminated), s)

def senderSummary? (s : Session I) : Option String :=
  match s.host.world.sender with
  | .absent => none
  | .closed => some "EventSender \x7b closed: true \x7d"
  | .isOpen =>
    let isOpen := match s.subject with
      | .active a => a.isOpen
      | _ => true
    some ("EventSender \x7b closed: " ++ toString (!isOpen) ++ " \x7d")

def withSender (s : Session I) (sender : Sender) : Session I :=
  { s with host := { s.host with world := { s.host.world with sender := sender } } }

def wrap (s : Session I) (mode : Mode) : Result I × Session I :=
  match s.subject with
  | .plain machine =>
    let subject := match mode with
      | .passive => .passive (.ofMachine machine)
      | .unit => .unit (.ofMachine machine)
      | .active => .active (.ofMachine machine)
    (.ok, { s.withSender .isOpen with subject := subject })
  | _ => (.wrongMode, s)

def unwrap (s : Session I) : Result I × Session I :=
  match s.subject with
  | .passive p => (.ok, { s.withSender .closed with subject := .plain p.machine })
  | _ => (.wrongMode, s)

def discard (s : Session I) : Option (Session I) :=
  match s.subject with
  | .active a => (a.discard? behaviour s.rounds s.host).map fun host =>
    { s with subject := .missing, host := host }.withSender .absent
  | _ => some ({ s with subject := .missing }.withSender .absent)

def facts (machine : Engine I) : Facts I where
  name := machine.name
  initial? := machine.initial?
  current? := machine.current?
  extensions := machine.extensions.length
  subscribers := machine.subscribers.length
  logTransitions := machine.config.logTransitions
  threadName := machine.config.threadName

def load (s : Session I) (slot? : Option String) (patch : Patch I) (passage : Passage) :
    Result I × Session I :=
  let saved := (slot?.bind s.slots.get?).getD blankCheckpoint
  s.onEngine fun machine host =>
    match (passage.carry (patch.apply saved)).bind fun c => machine.load c host with
    | .error error => (.unloaded error, machine, host)
    | .ok (machine, host) => (.ok, machine, host)

def save (s : Session I) (slot : String) : Result I × Session I :=
  match s.subject.engine? with
  | none => (.wrongMode, s)
  | some machine =>
    let c := machine.save blankId blankTimestamp
    (.checkpoint c, { s with slots := s.slots.insert slot c })

def take? (s : Session I) : Step I → Option (Result I × Session I)
  | .renew => some (.wrongMode, s)
  | .discard => s.discard.map fun s => (.ok, s)
  | .wrap mode => some (s.wrap mode)
  | .unwrap => some s.unwrap
  | .define superState initial history subs => some (s.onEngine fun machine host =>
    match machine.define superState initial history subs with
    | .ok machine => (.ok, machine, host)
    | .error errors => (.refusedAll errors, machine, host))
  | .transition source event draft =>
    let (guards, s) := s.enrollAll draft.guard?.toList
    let (actions, s) := s.enrollAll draft.actions
    some (s.onEngine fun machine host =>
      match machine.addTransition source event ⟨draft.target?, guards.head?, actions⟩ with
      | (.ok (), machine) => (.ok, machine, host)
      | (.error error, machine) => (.refused error, machine, host))
  | .entry state action =>
    let (action, s) := s.enroll action
    some (s.onEngine fun machine host => (.ok, machine.addEntryAction state action, host))
  | .exit state action =>
    let (action, s) := s.enroll action
    some (s.onEngine fun machine host => (.ok, machine.addExitAction state action, host))
  | .engineInitialize state => some (s.engineInitialize state)
  | .engineEnter => some s.engineEnter
  | .engineFire signal => some (s.engineFire signal)
  | .load slot? patch passage => some (s.load slot? patch passage)
  | .initializeAt state => s.initializeAt state
  | .fire post => s.fire post
  | .start => s.start
  | .stop => s.stop
  | .addExtension fresh logs watcher => some (s.addExtension fresh logs watcher)
  | .removeExtension label => some (s.removeExtension label)
  | .clearExtensions => some (s.configure .clearExtensions fun _ _ => .ok)
  | .subscribe listener => some (s.configure (.subscribe (.custom listener)) fun _ _ => .ok)
  | .senderFire post => some (s.senderFire post)
  | .info => some (s.askEngine fun machine => .facts (facts machine))
  -- the second report is written over the first one
  | .report => some (s.askEngine fun machine =>
    .text (some ((TextReport.blank.write machine.report).write machine.report).output))
  | .views => some (s.askEngine fun machine => .views machine.report)
  | .states wanted => some (s.askEngine fun machine =>
    .states machine.forest.size (wanted.map machine.forest.position?))
  | .debug => some (match s.subject with
    | .missing => .wrongMode
    | .plain machine => .text (some machine.summary)
    | .passive p => .text (some p.summary)
    | .unit u => .text (some u.passive.summary)
    | .active a => .text (some a.summary), s)
  | .senderDebug => some (.text s.senderSummary?, s)
  | .published => some (match s.subject with
    | .passive p => .published p.machine.name p.machine.current?
    | .active a => .published a.name a.published?
    | _ => .wrongMode, s)
  | .save slot => some (s.save slot)

/-- Lets a running worker go on until it waits. It is prompted first, so it publishes its state also when
    there is nothing to fire. -/
def settle? (s : Session I) : Option (Session I) :=
  match s.subject with
  | .active a => (a.prompt.settle? behaviour s.rounds s.host).map fun (a, host) =>
    { s with subject := .active a, host := host }
  | _ => some s

def close (s : Session I) (result : Result I) : Answer I × Session I :=
  (⟨result, s.subject.state?, s.subject.running?, s.subject.queued?, s.host.journal.filter (isHeard s.logs)⟩,
    { s with host := { s.host with journal := [] } })

def step? (s : Session I) (step : Step I) : Option (Answer I × Session I) := do
  let (result, s) ← s.take? step
  let s ← s.settle?
  return s.close result

def stepAll? (s : Session I) : List (Step I) → Option (List (Answer I) × Session I)
  | [] => some ([], s)
  | step :: steps => do
    let (answer, s) ← s.step? step
    let (answers, s) ← s.stepAll? steps
    return (answer :: answers, s)

def renew? (s : Session I) (definition : List (Step I)) : Option (List (Answer I) × Session I) := do
  let s ← s.discard
  { s with subject := .plain (.ofConfig s.config) }.stepAll? definition

end Session

structure Reaction (I : Type) where
  answer : Answer I
  renewal? : Option (List (Answer I))

def react? (definition : List (Step I)) (s : Session I) : Step I → Option (Reaction I × Session I)
  | .renew => do
    let (answers, s) ← s.renew? definition
    let (answer, s) := s.close .ok
    return (⟨answer, some answers⟩, s)
  | step => do
    let (answer, s) ← s.step? step
    return (⟨answer, none⟩, s)

def reactAll? (definition : List (Step I)) (s : Session I) : List (Step I) → Option (List (Reaction I))
  | [] => some []
  | step :: steps => do
    let (reaction, s) ← react? definition s step
    let reactions ← reactAll? definition s steps
    return reaction :: reactions

def play? (config : Config) (logs : Bool) (definition steps : List (Step I)) :
    Option (List (Answer I) × List (Reaction I)) := do
  let (answers, s) ← (Session.ofConfig config logs).stepAll? definition
  let reactions ← reactAll? definition s steps
  return (answers, reactions)

def callAll {α : Type} (run : Script I → Input → World → Reply I World α)
    (entry : Callable (Script I) → Arguments → Outcome α → List (Post I) → Entry I)
    (callable : Callable (Script I)) : List Arguments → Surroundings I → List (Outcome α × List (Entry I))
  | [], _ => []
  | arguments :: rest, host =>
    let (outcome, host) := Host.call run entry callable arguments host
    (outcome, host.journal.filter (isHeard false)) ::
      callAll run entry callable rest { host with journal := [] }

end Statechart.Scenario
