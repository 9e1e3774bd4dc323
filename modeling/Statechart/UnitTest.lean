import Statechart.Passive

namespace Statechart

/-- A passive machine for tests. A collector among the subscribers keeps every failure, and a call answers
    with the first failure that arose while it ran. -/
structure UnitTest (S E F X L : Type) where
  passive : Passive S E F X L

namespace UnitTest

variable {S E F X L W : Type}

structure Answer (S E F X L W : Type) where
  result : Except (Failure S E) Unit
  unit : UnitTest S E F X L
  host : Host S E F X L W

def ofMachine (machine : Machine S E F X L) : UnitTest S E F X L :=
  ⟨.ofMachine (machine.subscribe .collector)⟩

/-- Makes a call on the passive machine. An error of the machine itself comes before any failure, and
    failures of earlier calls are forgotten. -/
def checked (u : UnitTest S E F X L)
    (call : Passive S E F X L → Host S E F X L W → Option (Passive.Answer S E F X L W))
    (host : Host S E F X L W) : Option (Answer S E F X L W) :=
  (call u.passive { host with failures := [] }).map fun answer =>
    match answer.result with
    | .error error => ⟨.error (.misuse error), ⟨answer.passive⟩, answer.host⟩
    | .ok () =>
      let result := match answer.host.failures with
        | [] => .ok ()
        | failure :: _ => .error failure
      ⟨result, ⟨answer.passive⟩, { answer.host with failures := [] }⟩

variable [DecidableEq S] [DecidableEq E]

def initializeAt (b : Behaviour S E F X W) (rounds : Nat) (u : UnitTest S E F X L) (state : S)
    (host : Host S E F X L W) : Option (Answer S E F X L W) :=
  u.checked (fun p host => p.initializeAt b rounds state host) host

def submit (b : Behaviour S E F X W) (rounds : Nat) (u : UnitTest S E F X L) (post : Post E)
    (host : Host S E F X L W) : Option (Answer S E F X L W) :=
  u.checked (fun p host => p.submit b rounds post host) host

def start (b : Behaviour S E F X W) (rounds : Nat) (u : UnitTest S E F X L) (host : Host S E F X L W) :
    Option (Answer S E F X L W) :=
  u.checked (fun p host => p.start b rounds host) host

omit [DecidableEq S] [DecidableEq E] in
def stop (u : UnitTest S E F X L) (host : Host S E F X L W) : UnitTest S E F X L × Host S E F X L W :=
  let (passive, host) := u.passive.stop host
  (⟨passive⟩, host)

end UnitTest

end Statechart
