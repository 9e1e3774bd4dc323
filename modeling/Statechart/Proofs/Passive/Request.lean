import Statechart.Proofs.Machine.Run
import Statechart.Proofs.Passive.Order

namespace Statechart

/-- What the owner of a machine asks of it. A post is submitted to the machine itself or sent through its sender. -/
inductive Request (S E : Type) where
  | initializeAt (state : S)
  | submit (post : Post E)
  | send (post : Post E)
  | start
  | stop

namespace Passive

variable {S E F X L W : Type} [DecidableEq S] [DecidableEq E]

def request (b : Behaviour S E F X W) (rounds : Nat) (p : Passive S E F X L) (host : Host S E F X L W) :
    Request S E → Option (Answer S E F X L W)
  | .initializeAt state => p.initializeAt b rounds state host
  | .submit post => p.submit b rounds post host
  | .send post => some ⟨.ok (), p.send post, host⟩
  | .start => p.start b rounds host
  | .stop => some ⟨.ok (), (p.stop host).1, (p.stop host).2⟩

inductive Executes (b : Behaviour S E F X W) (p : Passive S E F X L) (host : Host S E F X L W) :
    List (Affair E) → Answer S E F X L W → Prop where
  | stopped (stopped : p.running = false) :
      Executes b p host [] ⟨.ok (), { p with queue := p.backlog, inbox := [] }, (p.drain host).2⟩
  | blocked {error : Misuse} (running : p.running) (pending : p.pending = true)
      (blocked : p.machine.enterInitialState b (p.drain host).2 = .error error) :
      Executes b p host []
        ⟨.error error, { p with queue := p.backlog, inbox := [], pending := false }, (p.drain host).2⟩
  | works {n : Nat} {log : List (Affair E)} {p' : Passive S E F X L} {host' : Host S E F X L W}
      {answer : Answer S E F X L W} (running : p.running) (advances : p.Advances b host n log p' host')
      (ends : p'.Ends b host' answer) : Executes b p host log answer

inductive Handles (b : Behaviour S E F X W) (p : Passive S E F X L) (host : Host S E F X L W) :
    Request S E → List (Affair E) → Answer S E F X L W → Prop where
  | initializeAt {state : S} {machine : Machine S E F X L} {host' : Host S E F X L W} {log : List (Affair E)}
      {answer : Answer S E F X L W} (initializes : p.machine.initializeAt b state host = .ok (machine, host'))
      (executes : Executes b { p with machine := machine, pending := true } host' log answer) :
      Handles b p host (.initializeAt state) log answer
  | refused {state : S} {error : Misuse} (refused : p.machine.initializeAt b state host = .error error) :
      Handles b p host (.initializeAt state) [] ⟨.error error, p, host⟩
  | submit {post : Post E} {log : List (Affair E)} {answer : Answer S E F X L W}
      (executes : Executes b (p.enqueue post host).1 (p.enqueue post host).2 log answer) :
      Handles b p host (.submit post) (.posted post :: log) answer
  | send {post : Post E} : Handles b p host (.send post) [.posted post] ⟨.ok (), p.send post, host⟩
  | start {log : List (Affair E)} {answer : Answer S E F X L W} (stopped : p.running = false)
      (ready : p.machine.isInitialized)
      (executes : Executes b { p with running := true } (p.machine.announce .started host) log answer) :
      Handles b p host .start log answer
  | started (running : p.running) : Handles b p host .start [] ⟨.ok (), p, host⟩
  | unready (stopped : p.running = false) (unready : p.machine.isInitialized = false) :
      Handles b p host .start [] ⟨.error .notInitialized, p, host⟩
  | stop : Handles b p host .stop [] ⟨.ok (), (p.stop host).1, (p.stop host).2⟩

variable {b : Behaviour S E F X W} {rounds : Nat} {p p' : Passive S E F X L} {host host' : Host S E F X L W}
  {log : List (Affair E)} {answer : Answer S E F X L W} {asked : Request S E}

theorem executes_of_execute (executed : p.execute b rounds host = some answer) :
    ∃ log, p.Executes b host log answer := by
  unfold execute at executed
  simp only [drain_fst] at executed
  split at executed
  · rename_i stopped
    cases executed
    exact ⟨[], .stopped (by simpa using stopped)⟩
  · rename_i running
    have running : p.running = true := by simpa using running
    split at executed
    · rename_i pending
      split at executed
      · rename_i blocked
        cases executed
        exact ⟨[], .blocked running pending blocked⟩
      · rename_i enters
        obtain ⟨_, log, _, _, advances, ends⟩ := (Advances.enter pending enters).ends executed
        exact ⟨log, .works running advances ends⟩
    · rename_i entered
      have begins : p.Advances b host 0 [] _ _ := .entered (by simpa using entered)
      rw [drain_fst] at begins
      obtain ⟨_, log, _, _, advances, ends⟩ := begins.ends executed
      exact ⟨log, .works running advances ends⟩

theorem handles_of_request (requested : p.request b rounds host asked = some answer) :
    ∃ log, p.Handles b host asked log answer := by
  cases asked with
  | initializeAt state =>
    unfold request initializeAt at requested
    simp only at requested
    cases initializes : p.machine.initializeAt b state host with
    | error error =>
      rw [initializes] at requested
      cases requested
      exact ⟨_, .refused initializes⟩
    | ok fresh =>
      rw [initializes] at requested
      obtain ⟨log, executes⟩ := executes_of_execute requested
      exact ⟨log, .initializeAt initializes executes⟩
  | submit post =>
    obtain ⟨log, executes⟩ := executes_of_execute requested
    exact ⟨_, .submit executes⟩
  | send post =>
    cases requested
    exact ⟨_, .send⟩
  | start =>
    unfold request start at requested
    simp only at requested
    split at requested
    · rename_i running
      cases requested
      exact ⟨_, .started running⟩
    · rename_i stopped
      have stopped : p.running = false := by simpa using stopped
      split at requested
      · rename_i unready
        cases requested
        exact ⟨_, .unready stopped (by simpa using unready)⟩
      · rename_i ready
        obtain ⟨log, executes⟩ := executes_of_execute requested
        exact ⟨log, .start stopped (by simpa using ready) executes⟩
  | stop =>
    cases requested
    exact ⟨_, .stop⟩

end Passive

end Statechart
