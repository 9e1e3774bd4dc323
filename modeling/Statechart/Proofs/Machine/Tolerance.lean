import Statechart.Proofs.Host.Parallel
import Statechart.Proofs.Machine.Run
import Statechart.Proofs.Machine.Simulation

namespace Statechart

variable {S E F X L W α : Type}

def Outcome.pardoned (answer : α) : Outcome α → Outcome α
  | .failed _ => .done answer
  | outcome => outcome

/-- Runs code in place of a callable that takes whatever it is given. Where the callable would fail, also by
    refusing its arguments, this gives an answer. All other effects are those of the callable. -/
def tolerate (answer : α) (run : F → Input → W → Reply E W α) (callable : Callable F) : Input → W → Reply E W α
  | .all arguments, world =>
    match callable.receive arguments with
    | .error _ => ⟨.done answer, [], world⟩
    | .ok input =>
      let reply := run callable.code input world
      { reply with outcome := reply.outcome.pardoned answer }
  | .nothing, world | .one _, world => ⟨.done answer, [], world⟩

def Callable.tolerant (callable : Callable F) : Callable (Callable F) := ⟨callable.name, .passThrough, callable⟩

def Behaviour.tolerant (b : Behaviour S E F X W) : Behaviour S E (Callable F) X W where
  guard := tolerate false b.guard
  action := tolerate () b.action
  initialState := b.initialState
  signal := b.signal
  exception := b.exception

def Machine.tolerant (m : Machine S E F X L) : Machine S E (Callable F) X L where
  config := m.config
  forest := Table.map (Node.map Callable.tolerant) m.forest
  memory := m.memory
  extensions := m.extensions
  subscribers := m.subscribers
  initial? := m.initial?
  current? := m.current?

def Context.pardoned (context : Context S E) : Context S E := { context with exceptions := [] }

def Hook.pardoned? : Hook S E → Option (Hook S E)
  | .handlingException .. | .handledException .. => none
  | .enteredInitialState state context => some (.enteredInitialState state context.pardoned)
  | .fired context => some (.fired context.pardoned)
  | hook => some hook

def Notice.isException : Notice S E → Bool
  | .exceptionThrown .. | .transitionExceptionThrown .. => true
  | _ => false

theorem Notice.isException_ofException (context : Context S E) (exception : Exception) :
    (Notice.ofException context exception).isException := by
  unfold ofException
  split <;> rfl

def LogLine.pardoned? : LogLine S E → Option (LogLine S E)
  | .callableFailed .. => none
  | .extensionCalled info hook => hook.pardoned?.map (.extensionCalled info)
  | line => some line

/-- What the journal shows once failures are pardoned: every callable that was run, and all but the reports about
    exceptions. -/
def JournalEntry.pardoned? : JournalEntry S E F X L → Option (JournalEntry S E (Callable F) X L)
  | .guard callable arguments outcome sent => some (.guard callable.tolerant arguments (outcome.pardoned false) sent)
  | .action callable arguments outcome sent => some (.action callable.tolerant arguments (outcome.pardoned ()) sent)
  | .hook extension info call => call.pardoned?.map (.hook extension info)
  | .notice subscriber told => if told.isException then none else some (.notice subscriber told)
  | .log line => line.pardoned?.map .log

theorem JournalEntry.pardoned?_note (extension : Extension X) (info : Info S) (hook : Hook S E) :
    (extension.note info hook : JournalEntry S E F X L).pardoned? = hook.pardoned?.map (extension.note info) := by
  cases extension with
  | logger key? => simp [Extension.note, pardoned?, LogLine.pardoned?, Function.comp_def]
  | custom extension => rfl

def Failure.isDeclined : Failure S E → Bool
  | .declined .. => true
  | _ => false

theorem Failure.declined_of_exception {notice : Notice S E} (thrown : notice.isException) :
    (Failure.ofNotice? notice).toList.filter isDeclined = [] := by
  cases notice with
  | exceptionThrown state? exception => rfl
  | transitionExceptionThrown state event arguments exception => rfl
  | _ => cases thrown

namespace Host

abbrev Tolerates (start : Host S E F X L W) (start' : Host S E (Callable F) X L W) (host : Host S E F X L W)
    (host' : Host S E (Callable F) X L W) : Prop :=
  Parallel Eq JournalEntry.pardoned? some Failure.isDeclined start start' host host'

variable {start host : Host S E F X L W} {start' host' : Host S E (Callable F) X L W}

theorem accept_idle (host : Host S E F X L W) (answer : α) (entry : JournalEntry S E F X L) :
    host.accept ⟨.done answer, [], host.world⟩ entry = host.write entry := by
  unfold accept write
  cases crashed : host.crash? <;> simp [← crashed]

theorem Tolerates.call (tolerates : Tolerates start start' host host') (answer : α) (run : F → Input → W → Reply E W α)
    (entry : Callable F → Arguments → Outcome α → List (Post E) → JournalEntry S E F X L)
    (entry' : Callable (Callable F) → Arguments → Outcome α → List (Post E) → JournalEntry S E (Callable F) X L)
    (shown : ∀ callable arguments outcome sent, (entry callable arguments outcome sent).pardoned? =
      some (entry' callable.tolerant arguments (outcome.pardoned answer) sent))
    (callable : Callable F) (arguments : Arguments) :
    (Host.call (tolerate answer run) entry' callable.tolerant arguments host').1 =
        (Host.call run entry callable arguments host).1.pardoned answer ∧
      Tolerates start start' (Host.call run entry callable arguments host).2
        (Host.call (tolerate answer run) entry' callable.tolerant arguments host').2 := by
  have given : callable.tolerant.receive arguments = .ok (.all arguments) := rfl
  unfold Host.call
  rw [given]
  simp only [tolerate, Callable.tolerant, tolerates.world]
  cases callable.receive arguments with
  | error error =>
    refine ⟨rfl, ?_⟩
    rw [accept_idle]
    exact tolerates.write (shown callable arguments _ _)
  | ok input => exact ⟨rfl, tolerates.accept rfl rfl (shown callable arguments _ _)⟩

end Host

structure Progress.Tolerates (start : Host S E F X L W) (start' : Host S E (Callable F) X L W)
    (p : Progress S E F X L W) (p' : Progress S E (Callable F) X L W) : Prop where
  host : Host.Tolerates start start' p.host p'.host
  context : p'.context = p.context.pardoned
  memory : p'.memory = p.memory

theorem Progress.Tolerates.arguments {start : Host S E F X L W} {start' : Host S E (Callable F) X L W}
    {p : Progress S E F X L W} {p' : Progress S E (Callable F) X L W} (tolerates : p.Tolerates start start' p') :
    p'.context.arguments = p.context.arguments := by
  rw [tolerates.context]
  rfl

namespace Machine

variable {start host : Host S E F X L W} {start' host' : Host S E (Callable F) X L W} {b : Behaviour S E F X W}
  {m : Machine S E F X L} {p : Progress S E F X L W} {p' : Progress S E (Callable F) X L W}

theorem handleException_tolerates (tolerates : p.Tolerates start start' p') (fault : Fault S E) (exception : Exception) :
    (m.handleException b fault exception p).Tolerates start start' p' := by
  rw [handleException_eq]
  -- all that is done about an exception is to report it, so that the tolerant machine need not do anything
  refine ⟨?_, tolerates.context, tolerates.memory⟩
  have unseen (hook : Hook S E) (about : hook.pardoned? = none) (extension : Extension X) :
      (extension.note m.info hook : JournalEntry S E F X L).pardoned? = none := by
    rw [JournalEntry.pardoned?_note, about]
    rfl
  apply Host.Parallel.announce_left
  · apply Host.Parallel.publish_left
    · apply Host.Parallel.write_left
      · apply tolerates.host.writeAll_left
        apply filterMap_inquiry_unseen
        exact fun extension value => unseen _ rfl extension
      · rfl
    · intro subscriber
      exact if_pos (Notice.isException_ofException _ _)
    · exact Failure.declined_of_exception (Notice.isException_ofException _ _)
  · exact unseen _ rfl

theorem perform_tolerates (tolerates : p.Tolerates start start' p') (fault : Fault S E) (arguments : Arguments)
    (action : Callable F) : (m.perform b fault arguments p action).Tolerates start start'
      (m.tolerant.perform b.tolerant fault arguments p' action.tolerant) := by
  have called := tolerates.host.call () b.action .action .action (fun _ _ _ _ => rfl) action arguments
  rw [show tolerate () b.action = b.tolerant.action from rfl] at called
  rcases ran : Host.call b.action .action action arguments p.host with ⟨outcome, host⟩
  rcases ran' : Host.call b.tolerant.action .action action.tolerant arguments p'.host with ⟨outcome', host'⟩
  rw [ran, ran'] at called
  obtain ⟨rfl, called⟩ : outcome' = outcome.pardoned () ∧ Host.Tolerates start start' host host' := called
  have went : ({ p with host := host } : Progress S E F X L W).Tolerates start start' { p' with host := host' } :=
    ⟨called, tolerates.context, tolerates.memory⟩
  unfold perform
  rw [ran, ran']
  cases outcome with
  | done answer => exact went
  | crashed => exact went
  | failed exception => exact handleException_tolerates went fault exception

theorem guardPasses_tolerates (tolerates : p.Tolerates start start' p') (edge : Edge S E) (guard : Callable F) :
    (m.tolerant.guardPasses b.tolerant edge (some guard.tolerant) p').1 = (m.guardPasses b edge (some guard) p).1 ∧
      (m.guardPasses b edge (some guard) p).2.Tolerates start start'
        (m.tolerant.guardPasses b.tolerant edge (some guard.tolerant) p').2 := by
  have arguments : p'.context.arguments = p.context.arguments := tolerates.arguments
  have called := tolerates.host.call false b.guard .guard .guard (fun _ _ _ _ => rfl) guard p.context.arguments
  rw [show tolerate false b.guard = b.tolerant.guard from rfl] at called
  rcases ran : Host.call b.guard .guard guard p.context.arguments p.host with ⟨outcome, host⟩
  rcases ran' : Host.call b.tolerant.guard .guard guard.tolerant p.context.arguments p'.host with ⟨outcome', host'⟩
  rw [ran, ran'] at called
  obtain ⟨rfl, called⟩ : outcome' = outcome.pardoned false ∧ Host.Tolerates start start' host host' := called
  have went : ({ p with host := host } : Progress S E F X L W).Tolerates start start' { p' with host := host' } :=
    ⟨called, tolerates.context, tolerates.memory⟩
  unfold guardPasses
  simp only [arguments]
  rw [ran, ran']
  cases outcome with
  | done passes => exact ⟨rfl, went⟩
  | crashed => exact ⟨rfl, went⟩
  | failed exception => exact ⟨rfl, handleException_tolerates went (.guard edge) exception⟩

variable [DecidableEq S]

theorem simulation_tolerant (b : Behaviour S E F X W) (m : Machine S E F X L) (start : Host S E F X L W)
    (start' : Host S E (Callable F) X L W) :
    Simulation b b.tolerant m m.tolerant Callable.tolerant (Progress.Tolerates start start') where
  forest := Forest.mirrors_map Callable.tolerant m.forest
  arguments tolerates := tolerates.arguments
  memory tolerates s := congrArg (Table.get? · s) tolerates.memory
  record kind s tolerates := ⟨tolerates.host, congrArg (·.addRecord kind s) tolerates.context, tolerates.memory⟩
  remember s tolerates := by
    refine ⟨tolerates.host, tolerates.context, ?_⟩
    rw [tolerates.memory]
    exact (Forest.mirrors_map Callable.tolerant m.forest).remember _ s
  begin current event tolerates := by
    refine ⟨?_, tolerates.context, tolerates.memory⟩
    unfold Machine.begin
    rw [tolerates.context]
    apply Host.Parallel.publish tolerates.host
    · exact fun _ => rfl
    · rfl
  perform fault arguments action tolerates := perform_tolerates tolerates fault arguments action
  guard edge guard tolerates := guardPasses_tolerates tolerates edge guard

/-- The same operation on a machine and on the one that tolerates every failure: both end in the same state with the
    same memory, have left and entered the same states, and did the same. -/
structure EndTolerates (start : Host S E F X L W) (start' : Host S E (Callable F) X L W) (done : Completed S E F X L W)
    (done' : Completed S E (Callable F) X L W) : Prop where
  machine : done'.machine = done.machine.tolerant
  context : done'.context = done.context.pardoned
  host : Host.Tolerates start start' done.host done'.host

theorem switchTo_tolerates (tolerates : Host.Tolerates start start' host host') (memory : Memory S) (state : S) :
    Host.Tolerates start start' ({ m with memory := memory }.switchTo state host).2
      ({ m.tolerant with memory := memory }.switchTo state host').2 := by
  apply Host.Parallel.switchTo tolerates
  · rfl
  · rfl
  · rfl
  · intro extension info old?
    exact JournalEntry.pardoned?_note extension info _

omit [DecidableEq S] in
theorem announce_tolerates (tolerates : Host.Tolerates start start' host host') {hook hook' : Hook S E}
    (pardoned : hook.pardoned? = some hook') (m : Machine S E F X L) :
    Host.Tolerates start start' (m.announce hook host) (m.tolerant.announce hook' host') := by
  apply Host.Parallel.announce tolerates
  intro extension
  rw [JournalEntry.pardoned?_note, pardoned]
  cases extension <;> rfl

theorem conclude_tolerates (m : Machine S E F X L) (current : S) (event : E) {out : Option S × Progress S E F X L W}
    {out' : Option S × Progress S E (Callable F) X L W} (same : out'.1 = out.1)
    (tolerates : out.2.Tolerates start start' out'.2) :
    EndTolerates start start' (m.conclude current event out) (m.tolerant.conclude current event out') := by
  obtain ⟨reached?, p⟩ := out
  obtain ⟨reached?', host', context, memory⟩ := out'
  obtain rfl : reached?' = reached? := same
  obtain rfl : context = p.context.pardoned := tolerates.context
  obtain rfl : memory = p.memory := tolerates.memory
  cases reached?' with
  | none =>
    refine ⟨rfl, rfl, ?_⟩
    apply Host.Parallel.publish
    · exact tolerates.host.log rfl
    · exact fun _ => rfl
    · rfl
  | some reached =>
    refine ⟨rfl, rfl, ?_⟩
    apply Host.Parallel.publish
    · refine announce_tolerates (Host.Parallel.log (switchTo_tolerates tolerates.host p.memory reached) ?_) ?_ _
      · rfl
      · rfl
    · exact fun _ => rfl
    · rfl

theorem arrive_tolerates (m : Machine S E F X L) {out : S × Progress S E F X L W}
    {out' : S × Progress S E (Callable F) X L W} (same : out'.1 = out.1)
    (tolerates : out.2.Tolerates start start' out'.2) :
    EndTolerates start start' (m.arrive out) (m.tolerant.arrive out') := by
  obtain ⟨leaf, p⟩ := out
  obtain ⟨leaf', host', context, memory⟩ := out'
  obtain rfl : leaf' = leaf := same
  obtain rfl : context = p.context.pardoned := tolerates.context
  obtain rfl : memory = p.memory := tolerates.memory
  refine ⟨rfl, rfl, ?_⟩
  refine announce_tolerates (Host.Parallel.log (switchTo_tolerates tolerates.host p.memory leaf') ?_) ?_ _
  · rfl
  · rfl

theorem enterInitialState_tolerates (b : Behaviour S E F X W) (m : Machine S E F X L)
    (tolerates : Host.Tolerates start start' host host') :
    Answered (EndTolerates start start') (m.enterInitialState b host)
      (m.tolerant.enterInitialState b.tolerant host') := by
  refine (simulation_tolerant b m start start').enterInitialState rfl rfl ?_ fun _ _ => arrive_tolerates m
  intro initial
  exact ⟨announce_tolerates tolerates rfl m, rfl, rfl⟩

theorem fire_tolerates [DecidableEq E] (b : Behaviour S E F X W) (m : Machine S E F X L) (signal : Signal E)
    (tolerates : Host.Tolerates start start' host host') :
    Answered (EndTolerates start start') (m.fire b signal host) (m.tolerant.fire b.tolerant signal host') := by
  refine (simulation_tolerant b m start start').fire rfl rfl rfl ?_
    fun current event _ _ => conclude_tolerates m current event
  intro current
  refine ⟨?_, rfl, rfl⟩
  rw [resolve_eq, resolve_eq]
  apply tolerates.writeAll
  exact filterMap_inquiry (fun extension _ => JournalEntry.pardoned?_note extension _ _) _ _ _

theorem fire_actions [DecidableEq E] {current : S} {signal : Signal E} {done : Completed S E F X L W}
    (wf : m.WellFormed) (standing : m.current? = some current) (fired : m.fire b signal host = .ok done) :
    ∃ exits entries, done.context.records = exits.map (Record.mk .exit) ++ entries.map (Record.mk .enter) ∧
      done.host.actions = host.actions ++ m.exitCalls exits ++
        ((m.choose b current signal host).1.elim [] fun transition =>
          transition.actions.map (·, (m.asked b signal).arguments)) ++ m.entryCalls entries := by
  have ready := wf.ready (by rw [standing]; rfl)
  have looked := choose_extends b m current signal host
  have asked : (m.resolve b signal host).1 = m.asked b signal := congrArg Prod.fst (resolve_eq b m signal host)
  have arguments : (m.choose b current signal host).2.context.arguments = (m.asked b signal).arguments :=
    looked.arguments.trans (congrArg Signal.arguments asked)
  have began := looked.trans (m.begin_extends current (m.resolve b signal host).1.event _)
  cases chosen : (m.choose b current signal host).1 with
  | none =>
    obtain ⟨done', fired', _, context, actions⟩ := fire_of_declined ready standing chosen
    obtain rfl : done = done' := Except.ok.inj (fired.symm.trans fired')
    exact ⟨[], [], by rw [context, looked.records]; rfl, by rw [actions, looked.actions]; simp [exitCalls, entryCalls]⟩
  | some transition =>
    cases external : transition.target? with
    | none =>
      obtain ⟨done', fired', _, context, actions⟩ := fire_of_chosen ready standing chosen
      obtain rfl : done = done' := Except.ok.inj (fired.symm.trans fired')
      rw [execute_internal external] at context actions
      have acted := began.trans (m.performAll_extends b
        (.action ⟨transition.source, (m.resolve b signal host).1.event, none⟩)
        (m.choose b current signal host).2.context.arguments transition.actions _)
      rw [arguments] at acted context actions
      refine ⟨[], [], by rw [context, acted.records]; rfl, ?_⟩
      rw [actions, acted.actions]
      simp [exitCalls, entryCalls]
    | some target =>
      obtain ⟨done', fired', _, context, actions⟩ := fire_carries wf.tree ready standing chosen external
      obtain rfl : done = done' := Except.ok.inj (fired.symm.trans fired')
      have carried := began.trans (m.carryOut_extends b current (m.resolve b signal host).1.event transition.source target
        transition.actions _)
      refine ⟨m.exitsTo current transition.source target,
        m.entriesTo transition.source target ++ m.descentTo current transition.source target, ?_, ?_⟩
      · rw [context, carried.records]
        rfl
      · rw [actions, carried.actions]
        simp [begin, arguments]

theorem enterInitialState_actions {done : Completed S E F X L W} (entered : m.enterInitialState b host = .ok done) :
    ∃ entries, done.context.records = entries.map (Record.mk .enter) ∧
      done.host.actions = host.actions ++ m.entryCalls entries := by
  obtain ⟨ready, unentered⟩ := enterInitialState_accepted entered
  obtain ⟨initial, found⟩ := Option.isSome_iff_exists.mp ready
  obtain ⟨done', entered', _, context, actions⟩ :=
    enterInitialState_of_ready found (Option.isSome_eq_false_iff.mp unentered |> Option.isNone_iff_eq_none.mp) b host
  obtain rfl : done = done' := Except.ok.inj (entered.symm.trans entered')
  have extended := m.enterFrom_extends b initial host
  refine ⟨(m.forest.lineage initial).reverse ++ m.forest.descent m.memory initial, ?_, ?_⟩
  · rw [context, extended.records]
    rfl
  · rw [actions, extended.actions, starting, actions_machine_announce]

end Machine

namespace Run

variable [DecidableEq S] [DecidableEq E] [DecidableEq X]

/-- Were every failing guard false and every failing action a success, a machine would be refused the same, end in
    the same state with the same memory, have left and entered the same states and called the same code in the same
    order. Only what is reported about exceptions would be missing. No failure keeps an action from being called. -/
theorem callAll_tolerates (config : Config) (host : Host S E F X L W) (b : Behaviour S E F X W)
    (calls : List (Call S E F X L)) :
    let r := (start config host).callAll b calls
    (∀ host' : Host S E (Callable F) X L W, r.host.world = host'.world →
      (∀ signal, Answered (Machine.EndTolerates r.host host') (r.machine.fire b signal r.host)
        (r.machine.tolerant.fire b.tolerant signal host')) ∧
      Answered (Machine.EndTolerates r.host host') (r.machine.enterInitialState b r.host)
        (r.machine.tolerant.enterInitialState b.tolerant host')) ∧
    (∀ current signal done, r.machine.current? = some current → r.machine.fire b signal r.host = .ok done →
      ∃ exits entries, done.context.records = exits.map (Record.mk .exit) ++ entries.map (Record.mk .enter) ∧
        done.host.actions = r.host.actions ++ r.machine.exitCalls exits ++
          ((r.machine.choose b current signal r.host).1.elim [] fun transition =>
            transition.actions.map (·, (r.machine.asked b signal).arguments)) ++ r.machine.entryCalls entries) ∧
    (∀ done, r.machine.enterInitialState b r.host = .ok done →
      ∃ entries, done.context.records = entries.map (Record.mk .enter) ∧
        done.host.actions = r.host.actions ++ r.machine.entryCalls entries) := by
  intro r
  have wf : r.machine.WellFormed := callAll_wellFormed b (Machine.wellFormed_ofConfig config) calls
  refine ⟨fun host' same => ⟨fun signal => ?_, ?_⟩, ?_, ?_⟩
  · exact Machine.fire_tolerates b r.machine signal (.refl same)
  · exact Machine.enterInitialState_tolerates b r.machine (.refl same)
  · exact fun current signal done standing fired => Machine.fire_actions wf standing fired
  · exact fun done entered => Machine.enterInitialState_actions entered

theorem callAll_tolerates_lamp :
    let r := (start .standard (.ofWorld ())).callAll Lamp.stuck
      (Lamp.definition ++ [.enterInitialState, .fire ⟨.toggle, []⟩])
    ∃ done done', r.machine.fire Lamp.stuck ⟨.turn, []⟩ r.host = .ok done ∧
      r.machine.tolerant.fire Lamp.stuck.tolerant ⟨.turn, []⟩ (.ofWorld ()) = .ok done' ∧
      done.context.exceptions = [.custom "stuck"] ∧ done'.context = done.context.pardoned ∧
      done'.machine = done.machine.tolerant := by
  intro r
  have law := (callAll_tolerates .standard (.ofWorld ()) Lamp.stuck
    (Lamp.definition ++ [.enterInitialState, .fire ⟨.toggle, []⟩])).1 (.ofWorld ()) rfl
  have fires : (r.machine.fire Lamp.stuck ⟨.turn, []⟩ r.host).toOption.map (·.context.exceptions) =
      some [.custom "stuck"] := by decide +kernel
  have answered : Answered (Machine.EndTolerates r.host (.ofWorld ())) (r.machine.fire Lamp.stuck ⟨.turn, []⟩ r.host)
      (r.machine.tolerant.fire Lamp.stuck.tolerant ⟨.turn, []⟩ (.ofWorld ())) := law.1 ⟨.turn, []⟩
  generalize r.machine.fire Lamp.stuck ⟨.turn, []⟩ r.host = answer at fires answered ⊢
  generalize r.machine.tolerant.fire Lamp.stuck.tolerant ⟨.turn, []⟩ (.ofWorld ()) = answer' at answered ⊢
  cases answered with
  | refused error => cases fires
  | @accepted done done' ended => exact ⟨done, done', rfl, rfl, Option.some.inj fires, ended.context, ended.machine⟩

end Run

end Statechart
