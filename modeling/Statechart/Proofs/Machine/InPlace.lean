import Statechart.Proofs.Machine.Loading
import Statechart.Proofs.Machine.Stage

namespace Statechart

namespace Machine

variable {S E F X L W α : Type}

/-- Carries on with what is under way, writing to the machine and to where it runs. -/
def carryOn (work : Machine S E F X L → Progress S E F X L W → α × Progress S E F X L W) (context : Context S E) :
    InPlace Misuse (Machine S E F X L × Host S E F X L W) (α × Context S E) :=
  modifyGet fun (m, host) =>
    let (answer, p) := work m ⟨host, context, m.memory⟩
    ((answer, p.context), { m with memory := p.memory }, p.host)

variable [DecidableEq S]

def initializeInPlace (b : Behaviour S E F X W) (s : S) :
    InPlace Misuse (Machine S E F X L × Host S E F X L W) Unit := do
  InPlace.check fun (m, _) => if m.isInitialized then .error .alreadyInitialized else .ok ()
  let initial ← modifyGet fun (m, host) =>
    let (initial, host) := Host.consult m.info .initializing
      (fun extension current => b.initialState extension m.info current) m.extensions s host
    (initial, m, host)
  modify fun (m, host) => ({ m with forest := m.forest.mention initial }, host)
  modify fun (m, host) => ({ m with initial? := some initial }, host)
  modify fun (m, host) => (m, host.log (.initialized m.name initial))
  modify fun (m, host) => (m, m.announce (.initialized initial) host)

def enterInPlace (b : Behaviour S E F X W) : InPlace Misuse (Machine S E F X L × Host S E F X L W) Unit := do
  let initial ← InPlace.require (fun (m, _) => m.initial?) .notInitialized
  InPlace.check fun (m, _) => if m.hasEntered then .error .initialStateAlreadyEntered else .ok ()
  modify fun (m, host) => (m, m.announce (.enteringInitialState initial) host)
  let (_, context) ← carryOn (fun m p => ((), m.enterAll b (m.forest.lineage initial).reverse p)) .ofInitialEntry
  let (leaf, context) ← carryOn (fun m => m.settle b initial) context
  modify fun (m, host) => m.switchTo leaf host
  modify fun (m, host) => (m, host.log (.enteredInitialState m.name leaf context.records))
  modify fun (m, host) => (m, m.announce (.enteredInitialState leaf context) host)

def dispatchInPlace [DecidableEq E] (b : Behaviour S E F X W) (current : S) (signal : Signal E) :
    InPlace Misuse (Machine S E F X L × Host S E F X L W) Unit := do
  let (transition?, context) ← carryOn (fun m => m.select b signal.event (m.candidates current signal.event))
    (.ofSignal current signal)
  match transition? with
  | some transition =>
    let (reached, context) ← carryOn (fun m => m.execute b current signal.event transition) context
    modify fun (m, host) => m.switchTo reached host
    modify fun (m, host) => (m, host.log (.firedEvent m.name signal.event reached context.records))
    modify fun (m, host) => (m, m.announce (.fired context) host)
    modify fun (m, host) => (m, host.publish m.subscribers
      (.transitionCompleted current signal.event context.arguments reached context.records))
  | none =>
    modify fun (m, host) => (m, host.log (.transitionDeclined m.name signal.event current))
    modify fun (m, host) => (m, host.publish m.subscribers
      (.transitionDeclined current signal.event context.arguments))

def fireInPlace [DecidableEq E] (b : Behaviour S E F X W) (signal : Signal E) :
    InPlace Misuse (Machine S E F X L × Host S E F X L W) Unit := do
  InPlace.check fun (m, _) => if m.isInitialized then .ok () else .error .notInitialized
  let current ← InPlace.require (fun (m, _) => m.current?) .initialStateNotEntered
  let signal ← modifyGet fun (m, host) =>
    let (signal, host) := m.resolve b signal host
    (signal, m, host)
  dispatchInPlace b current signal

omit [DecidableEq S] in
theorem run_carryOn (work : Machine S E F X L → Progress S E F X L W → α × Progress S E F X L W) (context : Context S E)
    (next : α × Context S E → InPlace Misuse (Machine S E F X L × Host S E F X L W) Unit) (m : Machine S E F X L)
    (host : Host S E F X L W) : (carryOn work context >>= next).run.run (m, host) =
      let (answer, p) := work m ⟨host, context, m.memory⟩
      (next (answer, p.context)).run.run ({ m with memory := p.memory }, p.host) := rfl

theorem run_initializeInPlace (b : Behaviour S E F X W) (m : Machine S E F X L) (s : S) (host : Host S E F X L W) :
    (initializeInPlace b s).run.run (m, host) = InPlace.allOrNothing (m, host) (m.initializeAt b s host) := by
  unfold initializeInPlace initializeAt
  rw [InPlace.run_check]
  dsimp only
  cases m.isInitialized <;> rfl

theorem run_enterInPlace (b : Behaviour S E F X W) (m : Machine S E F X L) (host : Host S E F X L W) :
    (enterInPlace b).run.run (m, host) = InPlace.allOrNothing (m, host)
      ((m.enterInitialState b host).map fun done => (done.machine, done.host)) := by
  -- taken apart, so that the machine is the same one before and after its initial state is looked at
  obtain ⟨config, forest, memory, extensions, subscribers, initial?, current?⟩ := m
  unfold enterInPlace enterInitialState
  rw [InPlace.run_require]
  cases initial? with
  | none => rfl
  | some initial =>
    dsimp only
    rw [InPlace.run_check]
    cases current? <;> rfl

theorem run_dispatchInPlace [DecidableEq E] (b : Behaviour S E F X W) (m : Machine S E F X L) (current : S)
    (signal : Signal E) (host : Host S E F X L W) :
    let done := m.conclude current signal.event (m.react b current signal ⟨host, .ofSignal current signal, m.memory⟩)
    (dispatchInPlace b current signal).run.run (m, host) = (.ok (), done.machine, done.host) := by
  have kept := (m.select_extends b signal.event (m.candidates current signal.event)
    ⟨host, .ofSignal current signal, m.memory⟩).memory
  unfold dispatchInPlace react
  rw [run_carryOn]
  rcases selected : m.select b signal.event (m.candidates current signal.event)
    ⟨host, .ofSignal current signal, m.memory⟩ with ⟨transition?, p⟩
  rw [selected] at kept
  cases transition? with
  | none =>
    dsimp only at kept ⊢
    rw [kept]
    rfl
  | some transition =>
    -- what a transition does depends on what is remembered by now, which is not taken from the machine
    have same : execute b { m with memory := p.memory } = m.execute b := rfl
    dsimp only
    rw [run_carryOn, same]
    rcases m.execute b current signal.event transition p with ⟨reached, q⟩
    have moved := switchTo_fst (m := { m with memory := q.memory }) reached q.host
    dsimp only [conclude] at moved ⊢
    rw [InPlace.run_modify]
    rcases switched : switchTo { m with memory := q.memory } reached q.host with ⟨m', host'⟩
    rw [switched] at moved
    cases moved
    rfl

theorem run_fireInPlace [DecidableEq E] (b : Behaviour S E F X W) (m : Machine S E F X L) (signal : Signal E)
    (host : Host S E F X L W) : (fireInPlace b signal).run.run (m, host) = InPlace.allOrNothing (m, host)
      ((m.fire b signal host).map fun done => (done.machine, done.host)) := by
  unfold fireInPlace
  rw [InPlace.run_check]
  dsimp only
  cases ready : m.isInitialized with
  | false =>
    rw [fire_uninitialized ready]
    rfl
  | true =>
    simp only [if_true]
    rw [InPlace.run_require]
    dsimp only
    cases standing : m.current? with
    | none =>
      rw [fire_unentered ready (by rw [hasEntered, standing]; rfl)]
      rfl
    | some current =>
      dsimp only
      rw [InPlace.run_modifyGet, fire_eq ready standing]
      dsimp only
      rw [run_dispatchInPlace, resolve_eq]
      rfl

end Machine

namespace Run

variable {S E F X L W : Type} {r : Run S E F X L W}

theorem run_adapt {ε : Type} {work : InPlace ε (Machine S E F X L × Host S E F X L W) Unit}
    {answered : Except ε (Machine S E F X L × Host S E F X L W)} (refuse : ε → MachineError S E)
    (inPlace : work.run.run (r.machine, r.host) = InPlace.allOrNothing (r.machine, r.host) answered) :
    (ExceptT.adapt refuse work).run.run (r.machine, r.host) =
      (discard (answered.mapError refuse), (r.adopt answered).machine, (r.adopt answered).host) := by
  have opened : (ExceptT.adapt refuse work).run.run (r.machine, r.host) =
      (Except.mapError refuse <$> work.run).run (r.machine, r.host) := rfl
  rw [opened, StateT.run_map, inPlace]
  cases answered <;> rfl

theorem run_adapt_completed {work : InPlace Misuse (Machine S E F X L × Host S E F X L W) Unit}
    {answered : Except Misuse (Completed S E F X L W)} (refuse : Misuse → MachineError S E)
    (inPlace : work.run.run (r.machine, r.host) = InPlace.allOrNothing (r.machine, r.host)
      (answered.map fun done => (done.machine, done.host))) :
    (ExceptT.adapt refuse work).run.run (r.machine, r.host) =
      (discard (answered.mapError refuse), (r.after answered).machine, (r.after answered).host) := by
  rw [run_adapt refuse inPlace]
  cases answered <;> rfl

variable [DecidableEq S] [DecidableEq E]

def answer (b : Behaviour S E F X W) (r : Run S E F X L W) : Call S E F X L → Except (MachineError S E) Unit
  | .define superState initial history subs =>
    discard ((r.machine.define superState initial history subs).mapError .definition)
  | .addTransition source event draft =>
    (r.machine.addTransition source event draft).1.mapError fun error => .definition [error]
  | .addEntryAction .. | .addExitAction .. | .configure _ => .ok ()
  | .initializeAt s => discard ((r.machine.initializeAt b s r.host).mapError .misuse)
  | .enterInitialState => discard ((r.machine.enterInitialState b r.host).mapError .misuse)
  | .fire signal => discard ((r.machine.fire b signal r.host).mapError .misuse)
  | .load c => discard ((r.machine.load c r.host).mapError .checkpoint)

variable [DecidableEq X]

def callInPlace (b : Behaviour S E F X W) :
    Call S E F X L → InPlace (MachineError S E) (Machine S E F X L × Host S E F X L W) Unit
  | .define superState initial history subs => do
    let (m, host) ← get
    let m ← liftExcept ((m.define superState initial history subs).mapError MachineError.definition)
    set (m, host)
  | .addTransition source event draft => do
    let answer ← modifyGet fun (m, host) =>
      let (answer, m) := m.addTransition source event draft
      (answer, m, host)
    liftExcept (answer.mapError fun error => MachineError.definition [error])
  | .addEntryAction s action => modify fun (m, host) => (m.addEntryAction s action, host)
  | .addExitAction s action => modify fun (m, host) => (m.addExitAction s action, host)
  | .configure change => modify fun (m, host) => (change.apply m, host)
  | .initializeAt s => ExceptT.adapt .misuse (Machine.initializeInPlace b s)
  | .enterInitialState => ExceptT.adapt .misuse (Machine.enterInPlace b)
  | .fire signal => ExceptT.adapt .misuse (Machine.fireInPlace b signal)
  | .load c => ExceptT.adapt .checkpoint (Machine.loadInPlace c)

/-- A call made step by step answers and does what it answers and does as a whole. -/
theorem run_callInPlace (b : Behaviour S E F X W) (r : Run S E F X L W) (call : Call S E F X L) :
    (callInPlace b call).run.run (r.machine, r.host) =
      (r.answer b call, (r.call b call).machine, (r.call b call).host) := by
  cases call with
  | define superState initial history subs =>
    rw [Run.call.eq_def]
    unfold callInPlace answer
    dsimp only
    rw [InPlace.run_get]
    cases r.machine.define superState initial history subs <;> rfl
  | addTransition source event draft =>
    unfold callInPlace answer
    dsimp only
    rw [InPlace.run_modifyGet]
    cases answered : (r.machine.addTransition source event draft).1 <;> rfl
  | addEntryAction s action => rfl
  | addExitAction s action => rfl
  | configure change => rfl
  | initializeAt s =>
    rw [call_initializeAt_eq]
    exact run_adapt .misuse (Machine.run_initializeInPlace b r.machine s r.host)
  | enterInitialState => exact run_adapt_completed .misuse (Machine.run_enterInPlace b r.machine r.host)
  | fire signal => exact run_adapt_completed .misuse (Machine.run_fireInPlace b r.machine signal r.host)
  | load c =>
    rw [call_load_eq]
    exact run_adapt .checkpoint (Machine.run_loadInPlace r.machine c r.host)

end Run

end Statechart
