import Statechart.Machine.Fire

namespace Statechart

/-- A machine that works off a queue on its owner's thread while it is running. The inbox holds what was sent
    to it and is not queued yet; a pending machine enters its initial state before the first signal. -/
structure Passive (S E F X L : Type) where
  machine : Machine S E F X L
  queue : List (Signal E)
  inbox : List (Post E)
  running : Bool
  pending : Bool

namespace Passive

variable {S E F X L W : Type}

structure Answer (S E F X L W : Type) where
  result : Except Misuse Unit
  passive : Passive S E F X L
  host : Host S E F X L W

def ofMachine (machine : Machine S E F X L) : Passive S E F X L :=
  ⟨machine, [], [], false, machine.isInitialized && !machine.hasEntered⟩

def send (p : Passive S E F X L) (post : Post E) : Passive S E F X L := { p with inbox := p.inbox ++ [post] }

def collect (p : Passive S E F X L) (host : Host S E F X L W) : Passive S E F X L × Host S E F X L W :=
  ({ p with inbox := p.inbox ++ host.outbox }, { host with outbox := [] })

def enqueue (p : Passive S E F X L) (post : Post E) (host : Host S E F X L W) :
    Passive S E F X L × Host S E F X L W :=
  if post.priority then
    ({ p with queue := post.signal :: p.queue }, p.machine.announce (.eventQueuedWithPriority post.signal) host)
  else
    ({ p with queue := p.queue ++ [post.signal] }, p.machine.announce (.eventQueued post.signal) host)

def drain (p : Passive S E F X L) (host : Host S E F X L W) : Passive S E F X L × Host S E F X L W :=
  p.inbox.foldl (fun (p, host) post => p.enqueue post host) ({ p with inbox := [] }, host)

variable [DecidableEq S] [DecidableEq E]

/-- Fires queued signals until none is left, with at most the given number of rounds. -/
def work (b : Behaviour S E F X W) : Nat → Passive S E F X L → Host S E F X L W →
    Option (Answer S E F X L W)
  | 0, _, _ => none
  | rounds + 1, p, host =>
    let (p, host) := p.drain host
    match p.queue with
    | [] => some ⟨.ok (), p, host⟩
    | signal :: queue =>
      let p := { p with queue := queue }
      match p.machine.fire b signal host with
      | .error error => some ⟨.error error, p, host⟩
      | .ok done =>
        let (p, host) := { p with machine := done.machine }.collect done.host
        work b rounds p host

/-- Works while the machine is running: first the initial entry if it is pending, then the queue. -/
def execute (b : Behaviour S E F X W) (rounds : Nat) (p : Passive S E F X L) (host : Host S E F X L W) :
    Option (Answer S E F X L W) :=
  let (p, host) := p.drain host
  if !p.running then some ⟨.ok (), p, host⟩
  else if p.pending then
    let p := { p with pending := false }
    match p.machine.enterInitialState b host with
    | .error error => some ⟨.error error, p, host⟩
    | .ok done =>
      let (p, host) := { p with machine := done.machine }.collect done.host
      p.work b rounds host
  else p.work b rounds host

def initializeAt (b : Behaviour S E F X W) (rounds : Nat) (p : Passive S E F X L) (state : S)
    (host : Host S E F X L W) : Option (Answer S E F X L W) :=
  match p.machine.initializeAt b state host with
  | .error error => some ⟨.error error, p, host⟩
  | .ok (machine, host) => { p with machine := machine, pending := true }.execute b rounds host

def submit (b : Behaviour S E F X W) (rounds : Nat) (p : Passive S E F X L) (post : Post E)
    (host : Host S E F X L W) : Option (Answer S E F X L W) :=
  let (p, host) := p.enqueue post host
  p.execute b rounds host

def start (b : Behaviour S E F X W) (rounds : Nat) (p : Passive S E F X L) (host : Host S E F X L W) :
    Option (Answer S E F X L W) :=
  if p.running then some ⟨.ok (), p, host⟩
  else if !p.machine.isInitialized then some ⟨.error .notInitialized, p, host⟩
  else { p with running := true }.execute b rounds (p.machine.announce .started host)

omit [DecidableEq S] [DecidableEq E] in
def stop (p : Passive S E F X L) (host : Host S E F X L W) : Passive S E F X L × Host S E F X L W :=
  if p.running then ({ p with running := false }, p.machine.announce .stopped host) else (p, host)

def summary [Describe S] (p : Passive S E F X L) : String :=
  "PassiveStateMachine \x7b machine: " ++ p.machine.summary ++ ", queued_events: " ++ toString p.queue.length ++
    ", running: " ++ toString p.running ++ " \x7d"

end Passive

end Statechart
