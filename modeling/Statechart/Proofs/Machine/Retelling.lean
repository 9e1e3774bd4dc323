import Statechart.Proofs.Host.Tale
import Statechart.Proofs.Machine.Loading
import Statechart.Proofs.Machine.Simulation

namespace Statechart

variable {S E F X L W : Type} {audience audience' : List (Subscriber L)} {start start' host host' : Host S E F X L W}
  {b : Behaviour S E F X W} {m : Machine S E F X L}

def Machine.facing (audience : List (Subscriber L)) (m : Machine S E F X L) : Machine S E F X L :=
  { m with subscribers := audience }

structure Progress.Retells (audience audience' : List (Subscriber L)) (start start' : Host S E F X L W)
    (p p' : Progress S E F X L W) : Prop where
  host : Host.Retells audience audience' start start' p.host p'.host
  context : p'.context = p.context
  memory : p'.memory = p.memory

structure Reaches (audience audience' : List (Subscriber L)) (start start' : Host S E F X L W)
    (out out' : Machine S E F X L × Host S E F X L W) : Prop where
  kept : out.1.subscribers = audience
  machine : out'.1 = out.1.facing audience'
  host : Host.Retells audience audience' start start' out.2 out'.2

structure Completed.Retells (audience audience' : List (Subscriber L)) (start start' : Host S E F X L W)
    (done done' : Completed S E F X L W) : Prop where
  reaches : Reaches audience audience' start start' (done.machine, done.host) (done'.machine, done'.host)
  context : done'.context = done.context

namespace Machine

variable {p p' : Progress S E F X L W}

theorem handleException_retells (retells : p.Retells m.subscribers audience' start start' p') (fault : Fault S E)
    (exception : Exception) :
    (m.handleException b fault exception p).Retells m.subscribers audience' start start'
      ((m.facing audience').handleException b fault exception p') := by
  obtain ⟨host', context, memory⟩ := p'
  obtain rfl : context = p.context := retells.context
  obtain rfl : memory = p.memory := retells.memory
  rw [handleException_eq, handleException_eq]
  have asked := retells.host.inquire m.info (.handlingException fault p.context)
    (fun extension current => b.exception extension m.info fault p.context current) m.extensions exception
  exact ⟨((asked.log _).publish _).announce _ _ _, rfl, rfl⟩

variable [DecidableEq S]

/-- Nothing that a machine does depends on its audience. -/
theorem simulation_retells (b : Behaviour S E F X W) (m : Machine S E F X L) (audience' : List (Subscriber L))
    (start start' : Host S E F X L W) :
    Simulation b b m (m.facing audience') id (Progress.Retells m.subscribers audience' start start') where
  forest := Forest.mirrors_refl m.forest
  arguments retells := congrArg Context.arguments retells.context
  memory retells s := congrArg (Table.get? · s) retells.memory
  record kind s retells := ⟨retells.host, congrArg (·.addRecord kind s) retells.context, retells.memory⟩
  remember s retells := ⟨retells.host, retells.context, congrArg (m.forest.remember · s) retells.memory⟩
  begin {p p'} current event retells := by
    refine ⟨?_, retells.context, retells.memory⟩
    have begun := retells.host.publish (.transitionBegin current event p.context.arguments)
    unfold Machine.begin
    rw [retells.context]
    exact begun
  perform fault arguments action retells := by
    obtain ⟨outcome, called⟩ := retells.host.call b.action .action .acted (fun _ _ _ _ _ => rfl) action arguments
    apply perform_related outcome
    · exact ⟨called, retells.context, retells.memory⟩
    · exact fun exception _ _ retells => handleException_retells retells fault exception
  guard {p p'} edge guard retells := by
    have arguments : p'.context.arguments = p.context.arguments := congrArg Context.arguments retells.context
    obtain ⟨outcome, called⟩ :=
      retells.host.call b.guard .guard .guarded (fun _ _ _ _ _ => rfl) guard p.context.arguments
    apply guardPasses_related arguments outcome
    · exact ⟨called, retells.context, retells.memory⟩
    · exact fun exception _ _ retells => handleException_retells retells (.guard edge) exception

theorem switchTo_retells (retells : Host.Retells audience audience' start start' host host') (m : Machine S E F X L)
    (memory : Memory S) (state : S) :
    Host.Retells audience audience' start start' ({ m with memory := memory }.switchTo state host).2
      ({ m.facing audience' with memory := memory }.switchTo state host').2 := by
  refine switchTo_related ?_ retells state ?_
  · rfl
  · exact retells.announce _ _ _

theorem conclude_retells (m : Machine S E F X L) (current : S) (event : E) {out out' : Option S × Progress S E F X L W}
    (same : out'.1 = out.1) (retells : out.2.Retells m.subscribers audience' start start' out'.2) :
    (m.conclude current event out).Retells m.subscribers audience' start start'
      ((m.facing audience').conclude current event out') := by
  obtain ⟨reached?, p⟩ := out
  obtain ⟨reached?', host', context, memory⟩ := out'
  obtain rfl : reached?' = reached? := same
  obtain rfl : context = p.context := retells.context
  obtain rfl : memory = p.memory := retells.memory
  cases reached?' with
  | none => exact ⟨⟨rfl, rfl, (retells.host.log _).publish _⟩, rfl⟩
  | some reached =>
    have switched := switchTo_retells retells.host m p.memory reached
    exact ⟨⟨rfl, rfl, ((switched.log _).announce _ _ _).publish _⟩, rfl⟩

theorem arrive_retells (m : Machine S E F X L) {out out' : S × Progress S E F X L W} (same : out'.1 = out.1)
    (retells : out.2.Retells m.subscribers audience' start start' out'.2) :
    (m.arrive out).Retells m.subscribers audience' start start' ((m.facing audience').arrive out') := by
  obtain ⟨leaf, p⟩ := out
  obtain ⟨leaf', host', context, memory⟩ := out'
  obtain rfl : leaf' = leaf := same
  obtain rfl : context = p.context := retells.context
  obtain rfl : memory = p.memory := retells.memory
  have switched := switchTo_retells retells.host m p.memory leaf'
  exact ⟨⟨rfl, rfl, (switched.log _).announce _ _ _⟩, rfl⟩

variable (retells : Host.Retells m.subscribers audience' start start' host host')

include retells

theorem enterInitialState_retells (b : Behaviour S E F X W) :
    Answered (Completed.Retells m.subscribers audience' start start') (m.enterInitialState b host)
      ((m.facing audience').enterInitialState b host') := by
  refine (simulation_retells b m audience' start start').enterInitialState rfl rfl ?_ fun _ _ => arrive_retells m
  exact fun initial => ⟨retells.announce _ _ _, rfl, rfl⟩

theorem fire_retells [DecidableEq E] (b : Behaviour S E F X W) (signal : Signal E) :
    Answered (Completed.Retells m.subscribers audience' start start') (m.fire b signal host)
      ((m.facing audience').fire b signal host') := by
  refine (simulation_retells b m audience' start start').fire rfl rfl rfl ?_ fun current event _ _ =>
    conclude_retells m current event
  intro current
  rw [resolve_eq, resolve_eq]
  exact ⟨retells.inquire m.info .firing (fun extension signal => b.signal extension m.info signal) m.extensions signal,
    rfl, rfl⟩

theorem initializeAt_retells (b : Behaviour S E F X W) (s : S) :
    Prepared (Reaches m.subscribers audience' start start') (m.initializeAt b s host)
      ((m.facing audience').initializeAt b s host') := by
  have ready : (m.facing audience').isInitialized = m.isInitialized := rfl
  unfold initializeAt
  rw [ready]
  cases m.isInitialized with
  | true => exact .refused _
  | false =>
    simp only [Bool.false_eq_true, if_false, Host.consult_eq]
    have asked := retells.inquire m.info .initializing
      (fun extension current => b.initialState extension m.info current) m.extensions s
    exact .granted ⟨rfl, rfl, (asked.log _).announce _ _ _⟩

theorem load_retells (c : Checkpoint S) :
    Prepared (Reaches m.subscribers audience' start start') (m.load c host) ((m.facing audience').load c host') := by
  have same : (m.facing audience').checkpointDemands c = m.checkpointDemands c := rfl
  rw [load_eq, load_eq, same]
  cases (m.checkpointDemands c).forM Demand.check with
  | error error => exact .refused error
  | ok _ =>
    unfold takeOver
    cases c.initial? with
    | none => exact .granted ⟨rfl, rfl, retells⟩
    | some initial => exact .granted ⟨rfl, rfl, retells.log _⟩

end Machine

structure Joins (audience audience' : List (Subscriber L)) (start start' : Host S E F X L W)
    (out out' : Machine S E F X L × Host S E F X L W) : Prop where
  joined : ∃ newcomers, out.1.subscribers = audience ++ newcomers ∧ out'.1 = out.1.facing (audience' ++ newcomers)
  host : Host.Retells audience audience' start start' out.2 out'.2

theorem Reaches.joins {out out' : Machine S E F X L × Host S E F X L W}
    (reaches : Reaches audience audience' start start' out out') : Joins audience audience' start start' out out' := by
  refine ⟨⟨[], ?_, ?_⟩, reaches.host⟩
  · rw [List.append_nil, reaches.kept]
  · rw [List.append_nil, reaches.machine]

variable [DecidableEq S] [DecidableEq E] [DecidableEq X]

theorem Run.call_retells (retells : Host.Retells m.subscribers audience' start start' host host')
    (b : Behaviour S E F X W) (call : Call S E F X L) :
    let r := Run.call b ⟨m, host, []⟩ call
    let r' := Run.call b ⟨m.facing audience', host', []⟩ call
    Joins m.subscribers audience' start start' (r.machine, r.host) (r'.machine, r'.host) := by
  have untouched : Joins m.subscribers audience' start start' (m, host) (m.facing audience', host') :=
    Reaches.joins ⟨rfl, rfl, retells⟩
  have answered {answer answer' : Except Misuse (Completed S E F X L W)}
      (same : Answered (Completed.Retells m.subscribers audience' start start') answer answer') :
      let r := Run.after ⟨m, host, []⟩ answer
      let r' := Run.after ⟨m.facing audience', host', []⟩ answer'
      Joins m.subscribers audience' start start' (r.machine, r.host) (r'.machine, r'.host) := by
    cases same with
    | refused error => exact untouched
    | accepted ended => exact ended.reaches.joins
  have adopted {ε : Type} {answer answer' : Except ε (Machine S E F X L × Host S E F X L W)}
      (same : Prepared (Reaches m.subscribers audience' start start') answer answer') :
      let r := Run.adopt ⟨m, host, []⟩ answer
      let r' := Run.adopt ⟨m.facing audience', host', []⟩ answer'
      Joins m.subscribers audience' start start' (r.machine, r.host) (r'.machine, r'.host) := by
    cases same with
    | refused error => exact untouched
    | granted reaches => exact reaches.joins
  cases call with
  | define superState initial history subs =>
    rw [Run.call.eq_def, Run.call.eq_def]
    simp only [Machine.define]
    rw [show (m.facing audience').forest = m.forest from rfl]
    cases m.forest.define? superState initial history subs with
    | ok forest => exact Reaches.joins ⟨rfl, rfl, retells⟩
    | error errors => exact untouched
  | addTransition | addEntryAction | addExitAction => exact Reaches.joins ⟨rfl, rfl, retells⟩
  | configure change =>
    cases change with
    | subscribe subscriber => exact ⟨⟨[subscriber], rfl, rfl⟩, retells⟩
    | _ => exact Reaches.joins ⟨rfl, rfl, retells⟩
  | initializeAt s =>
    rw [call_initializeAt_eq, call_initializeAt_eq]
    exact adopted (Machine.initializeAt_retells retells b s)
  | enterInitialState => exact answered (Machine.enterInitialState_retells retells b)
  | fire signal => exact answered (Machine.fire_retells retells b signal)
  | load c =>
    rw [call_load_eq, call_load_eq]
    exact adopted (Machine.load_retells retells c)

end Statechart
