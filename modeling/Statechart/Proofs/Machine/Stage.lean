import Statechart.Proofs.Host.Journal
import Statechart.Proofs.Machine.Transition

namespace Statechart.Machine

variable {S E F X L W : Type} [DecidableEq S] {b : Behaviour S E F X W} {m : Machine S E F X L} {current initial : S}
  {signal : Signal E} {host : Host S E F X L W}

def asked (b : Behaviour S E F X W) (m : Machine S E F X L) (signal : Signal E) : Signal E :=
  threaded (fun extension signal => b.signal extension m.info signal) m.extensions signal

omit [DecidableEq S] in
theorem resolve_eq (b : Behaviour S E F X W) (m : Machine S E F X L) (signal : Signal E) (host : Host S E F X L W) :
    m.resolve b signal host = (m.asked b signal, host.writeAll (inquiry m.info .firing
      (fun extension signal => b.signal extension m.info signal) m.extensions signal)) :=
  Host.consult_eq _ _ _ _ _ _

def reported (b : Behaviour S E F X W) (m : Machine S E F X L) (fault : Fault S E) (context : Context S E)
    (exception : Exception) : Exception :=
  threaded (fun extension current => b.exception extension m.info fault context current) m.extensions exception

omit [DecidableEq S] in
theorem handleException_eq (b : Behaviour S E F X W) (m : Machine S E F X L) (fault : Fault S E) (exception : Exception)
    (p : Progress S E F X L W) :
    let final := m.reported b fault p.context exception
    let asked := p.host.writeAll (inquiry m.info (.handlingException fault p.context)
      (fun extension current => b.exception extension m.info fault p.context current) m.extensions exception)
    m.handleException b fault exception p = { p with
      host := m.announce (.handledException fault (p.context.addException final) final)
        ((asked.log (.callableFailed m.name fault final)).publish m.subscribers
          (.ofException (p.context.addException final) final))
      context := p.context.addException final } := by
  unfold handleException
  rw [Host.consult_eq]
  rfl

def react [DecidableEq E] (b : Behaviour S E F X W) (m : Machine S E F X L) (current : S) (signal : Signal E)
    (p : Progress S E F X L W) : Option S × Progress S E F X L W :=
  match m.select b signal.event (m.candidates current signal.event) p with
  | (none, p) => (none, p)
  | (some transition, p) =>
    let (reached, p) := m.execute b current signal.event transition p
    (some reached, p)

def conclude (m : Machine S E F X L) (current : S) (event : E) :
    Option S × Progress S E F X L W → Completed S E F X L W
  | (some reached, p) =>
    let moved := { m with memory := p.memory, current? := some reached }
    let host := ({ m with memory := p.memory }.switchTo reached p.host).2
    let host := moved.announce (.fired p.context) (host.log (.firedEvent m.name event reached p.context.records))
    ⟨moved, host.publish m.subscribers
      (.transitionCompleted current event p.context.arguments reached p.context.records), p.context⟩
  | (none, p) =>
    ⟨m, (p.host.log (.transitionDeclined m.name event current)).publish m.subscribers
      (.transitionDeclined current event p.context.arguments), p.context⟩

theorem fire_eq [DecidableEq E] (ready : m.isInitialized) (standing : m.current? = some current)
    (b : Behaviour S E F X W) (signal : Signal E) (host : Host S E F X L W) :
    let asked := m.asked b signal
    m.fire b signal host = .ok (m.conclude current asked.event
      (m.react b current asked ⟨(m.resolve b signal host).2, .ofSignal current asked, m.memory⟩)) := by
  intro asked
  have first : (m.resolve b signal host).1 = asked := congrArg Prod.fst (resolve_eq b m signal host)
  unfold resolve at first ⊢
  -- the state is put in place everywhere, also where the machine is put together again out of its parts
  obtain ⟨config, forest, memory, extensions, subscribers, initial?, current?⟩ := m
  cases standing
  unfold fire react
  simp only [ready, Bool.not_true, Bool.false_eq_true, if_false]
  rw [first]
  split
  · rename_i selected
    rw [selected]
    simp only [switchTo_fst]
    rfl
  · rename_i selected
    rw [selected]
    rfl

def arrive (m : Machine S E F X L) : S × Progress S E F X L W → Completed S E F X L W
  | (leaf, p) =>
    let moved := { m with memory := p.memory, current? := some leaf }
    let host := ({ m with memory := p.memory }.switchTo leaf p.host).2
    ⟨moved, moved.announce (.enteredInitialState leaf p.context)
      (host.log (.enteredInitialState m.name leaf p.context.records)), p.context⟩

theorem enterInitialState_eq (ready : m.initial? = some initial) (unentered : m.hasEntered = false)
    (b : Behaviour S E F X W) (host : Host S E F X L W) :
    m.enterInitialState b host = .ok (m.arrive
      (m.settle b initial (m.enterAll b (m.forest.lineage initial).reverse (m.starting initial host)))) := by
  obtain ⟨config, forest, memory, extensions, subscribers, initial?, current?⟩ := m
  cases ready
  unfold enterInitialState
  simp only [unentered, Bool.false_eq_true, if_false, switchTo_fst]
  rfl

end Statechart.Machine
