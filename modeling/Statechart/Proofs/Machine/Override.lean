import Statechart.Proofs.Machine.Checkpoint
import Statechart.Proofs.Machine.Loading
import Statechart.Proofs.Machine.Tolerance
import Statechart.Proofs.Machine.Unfolding

namespace Statechart

variable {S E F X L W α : Type}

def Exception.unnamed : Exception := .custom ""

def Exception.seen (sharp : Bool) (exception : Exception) : Exception := if sharp then exception else unnamed

def Context.seen (sharp : Bool) (context : Context S E) : Context S E :=
  { context with exceptions := context.exceptions.map (.seen sharp) }

def Notice.seen (sharp : Bool) : Notice S E → Notice S E
  | .exceptionThrown state? exception => .exceptionThrown state? (exception.seen sharp)
  | .transitionExceptionThrown state event arguments exception =>
    .transitionExceptionThrown state event arguments (exception.seen sharp)
  | notice => notice

def LogLine.own? (sharp : Bool) : LogLine S E → Option (LogLine S E)
  | .extensionCalled .. => none
  | .callableFailed machine fault exception => some (.callableFailed machine fault (exception.seen sharp))
  | line => some line

/-- What the journal shows when nobody looks at extensions: the code that was run with all it was given and has
    answered, every notice, and the log of the machine itself. -/
def JournalEntry.own? (sharp : Bool) : JournalEntry S E F X L → Option (JournalEntry S E F X L)
  | .hook .. => none
  | .notice subscriber published => some (.notice subscriber (published.seen sharp))
  | .log line => (line.own? sharp).map .log
  | entry => some entry

def Failure.counts (sharp : Bool) (failure : Failure S E) : Bool := sharp || failure.isDeclined

variable {sharp : Bool}

theorem Exception.seen_sharp : Exception.seen true = id := funext fun _ => if_pos rfl

theorem Context.seen_sharp (context : Context S E) : context.seen true = context := by
  rw [Context.seen, Exception.seen_sharp, List.map_id]

theorem Notice.seen_sharp (notice : Notice S E) : notice.seen true = notice := by cases notice <;> rfl

theorem Exception.seen_congr {exception exception' : Exception} (kept : sharp → exception' = exception) :
    exception'.seen sharp = exception.seen sharp := by
  cases sharp with
  | false => rfl
  | true => rw [kept rfl]

theorem JournalEntry.own?_note (extension : Extension X) (info : Info S) (hook : Hook S E) :
    (extension.note info hook : JournalEntry S E F X L).own? sharp = none := by
  cases extension <;> rfl

theorem JournalEntry.own?_failed {exception exception' : Exception} (kept : sharp → exception' = exception)
    (name : String) (fault : Fault S E) :
    (.log (.callableFailed name fault exception') : JournalEntry S E F X L).own? sharp =
      (.log (.callableFailed name fault exception) : JournalEntry S E F X L).own? sharp := by
  unfold own? LogLine.own?
  simp only [Exception.seen_congr kept]

theorem Context.seen_addRecord {context context' : Context S E} (same : context'.seen sharp = context.seen sharp)
    (kind : RecordKind) (s : S) : (context'.addRecord kind s).seen sharp = (context.addRecord kind s).seen sharp :=
  congrArg (·.addRecord kind s) same

theorem Context.seen_addException {context context' : Context S E} (same : context'.seen sharp = context.seen sharp)
    {exception exception' : Exception} (kept : sharp → exception' = exception) :
    (context'.addException exception').seen sharp = (context.addException exception).seen sharp := by
  have added (context : Context S E) (exception : Exception) :
      (context.addException exception).seen sharp = (context.seen sharp).addException (exception.seen sharp) := by
    simp [seen, addException]
  rw [added, added, same, Exception.seen_congr kept]

theorem Notice.seen_ofException {context context' : Context S E} (same : context'.seen sharp = context.seen sharp)
    {exception exception' : Exception} (kept : sharp → exception' = exception) :
    (Notice.ofException context' exception').seen sharp = (Notice.ofException context exception).seen sharp := by
  have told (context : Context S E) (exception : Exception) :
      (Notice.ofException context exception).seen sharp =
        Notice.ofException (context.seen sharp) (exception.seen sharp) := by
    obtain ⟨origin?, arguments, records, exceptions⟩ := context
    cases origin? <;> rfl
  rw [told, told, same, Exception.seen_congr kept]

theorem Failure.counts_seen (notice : Notice S E) :
    (Failure.ofNotice? (notice.seen sharp)).toList.filter (counts sharp) =
      (Failure.ofNotice? notice).toList.filter (counts sharp) := by
  cases sharp with
  | true => rw [Notice.seen_sharp]
  | false => cases notice <;> rfl

namespace Host

/-- The same was done on two hosts since two moments, apart from the calls of extensions and, unless one looks sharply,
    from the exceptions that they have put in the place of others. -/
abbrev Concurs (sharp : Bool) (start start' host host' : Host S E F X L W) : Prop :=
  Parallel Eq (JournalEntry.own? sharp) (JournalEntry.own? sharp) (Failure.counts sharp) start start' host host'

variable {start start' host host' : Host S E F X L W}

theorem Concurs.hear (concurs : Concurs sharp start start' host host') (extensions : List (Extension X)) (info : Info S)
    (hook : Hook S E) : Concurs sharp start start' (host.announce extensions info hook) host' :=
  Parallel.announce_left concurs extensions fun extension => JournalEntry.own?_note extension info hook

theorem Concurs.inquire (concurs : Concurs sharp start start' host host') (info info' : Info S)
    (question question' : α → Hook S E) (answer answer' : X → α → Option α) (extensions : List (Extension X))
    (value value' : α) :
    Concurs sharp start start' (host.writeAll (inquiry info question answer extensions value))
      (host'.writeAll (inquiry info' question' answer' [] value')) := by
  apply Parallel.writeAll concurs
  exact filterMap_inquiry_unseen (fun extension _ => JournalEntry.own?_note extension info _) _ _ _

theorem Concurs.publish (concurs : Concurs sharp start start' host host') (subscribers : List (Subscriber L))
    {notice notice' : Notice S E} (same : notice'.seen sharp = notice.seen sharp) :
    Concurs sharp start start' (host.publish subscribers notice) (host'.publish subscribers notice') := by
  apply Parallel.publish concurs
  · intro subscriber
    simp only [JournalEntry.own?, same]
  · rw [← Failure.counts_seen notice, ← Failure.counts_seen notice', same]

theorem Concurs.call (concurs : Concurs sharp start start' host host') {run run' : F → Input → W → Reply E W α}
    (same : run' = run) (entry : Callable F → Arguments → Outcome α → List (Post E) → JournalEntry S E F X L)
    (callable : Callable F) (arguments : Arguments) :
    (Host.call run' entry callable arguments host').1 = (Host.call run entry callable arguments host).1 ∧
      Concurs sharp start start' (Host.call run entry callable arguments host).2
        (Host.call run' entry callable arguments host').2 := by
  subst same
  unfold Host.call
  cases callable.receive arguments with
  | error error => exact ⟨rfl, Parallel.write concurs rfl⟩
  | ok input =>
    simp only [concurs.world]
    exact ⟨trivial, Parallel.accept concurs rfl rfl rfl⟩

end Host

structure Behaviour.SharesCode (b b' : Behaviour S E F X W) : Prop where
  guard : b'.guard = b.guard
  action : b'.action = b.action

theorem threaded_kept {answer : X → α → Option α}
    (keeps : ∀ extension value, (answer extension value).getD value = value) (extensions : List (Extension X))
    (value : α) : threaded answer extensions value = value := by
  unfold threaded
  induction extensions with
  | nil => rfl
  | cons extension rest ih =>
    have kept : extension.reply answer value = value := by
      cases extension with
      | logger key? => rfl
      | custom extension => exact keeps extension value
    rw [List.foldl_cons, kept, ih]

/-- No extension puts another exception in the place of one. -/
def Behaviour.Forwards (b : Behaviour S E F X W) : Prop :=
  ∀ extension info fault context exception,
    (b.exception extension info fault context exception).getD exception = exception

theorem Behaviour.Forwards.reported {b : Behaviour S E F X W} (forwards : b.Forwards) (m : Machine S E F X L)
    (fault : Fault S E) (context : Context S E) (exception : Exception) :
    m.reported b fault context exception = exception :=
  threaded_kept (fun extension => forwards extension m.info fault context) m.extensions exception

structure Progress.Concurs (sharp : Bool) (start start' : Host S E F X L W) (p p' : Progress S E F X L W) : Prop where
  host : Host.Concurs sharp start start' p.host p'.host
  context : p'.context.seen sharp = p.context.seen sharp
  memory : p'.memory = p.memory

theorem Progress.Concurs.arguments {start start' : Host S E F X L W} {p p' : Progress S E F X L W}
    (concurs : p.Concurs sharp start start' p') : p'.context.arguments = p.context.arguments := by
  have same := congrArg Context.arguments concurs.context
  exact same

theorem Progress.Concurs.records {start start' : Host S E F X L W} {p p' : Progress S E F X L W}
    (concurs : p.Concurs sharp start start' p') : p'.context.records = p.context.records := by
  have same := congrArg Context.records concurs.context
  exact same

structure Completed.Concurs (sharp : Bool) (start start' : Host S E F X L W) (done done' : Completed S E F X L W) :
    Prop where
  machine : done'.machine = done.machine.clearExtensions
  context : done'.context.seen sharp = done.context.seen sharp
  host : Host.Concurs sharp start start' done.host done'.host

structure Leaves (sharp : Bool) (start start' : Host S E F X L W)
    (out out' : Machine S E F X L × Host S E F X L W) : Prop where
  machine : out'.1 = out.1.clearExtensions
  host : Host.Concurs sharp start start' out.2 out'.2

namespace Machine

variable {b b' : Behaviour S E F X W} {m : Machine S E F X L} {start start' host host' : Host S E F X L W}
  {p p' : Progress S E F X L W}

theorem handleException_concurs (forwards : sharp → b.Forwards) (concurs : p.Concurs sharp start start' p')
    (fault : Fault S E) (exception : Exception) :
    (m.handleException b fault exception p).Concurs sharp start start'
      (m.clearExtensions.handleException b' fault exception p') := by
  rw [handleException_eq, handleException_eq]
  -- who looks sharply must see on both sides the exception that was raised
  have kept (looks : sharp) : exception = m.reported b fault p.context exception :=
    ((forwards looks).reported m fault p.context exception).symm
  have context := Context.seen_addException concurs.context kept
  refine ⟨?_, context, concurs.memory⟩
  apply Host.Concurs.hear
  refine Host.Concurs.publish ?_ m.subscribers (Notice.seen_ofException context kept)
  exact Host.Parallel.log (concurs.host.inquire _ _ _ _ _ _ _ _ _) (JournalEntry.own?_failed kept m.name fault).symm

variable [DecidableEq S]

theorem simulation_concurs (code : b.SharesCode b') (forwards : sharp → b.Forwards) (m : Machine S E F X L)
    (start start' : Host S E F X L W) :
    Simulation b b' m m.clearExtensions id (Progress.Concurs sharp start start') where
  forest := Forest.mirrors_refl m.forest
  arguments concurs := concurs.arguments
  memory concurs s := congrArg (Table.get? · s) concurs.memory
  record kind s concurs := ⟨concurs.host, Context.seen_addRecord concurs.context kind s, concurs.memory⟩
  remember s concurs := ⟨concurs.host, concurs.context, congrArg (m.forest.remember · s) concurs.memory⟩
  begin current event concurs := by
    refine ⟨?_, concurs.context, concurs.memory⟩
    apply concurs.host.publish
    rw [concurs.arguments]
  perform fault arguments action concurs := by
    obtain ⟨outcome, called⟩ := concurs.host.call code.action .action action arguments
    apply perform_related outcome
    · exact ⟨called, concurs.context, concurs.memory⟩
    · exact fun exception _ _ concurs => handleException_concurs forwards concurs fault exception
  guard edge guard concurs := by
    obtain ⟨outcome, called⟩ := concurs.host.call code.guard .guard guard _
    apply guardPasses_related concurs.arguments outcome
    · exact ⟨called, concurs.context, concurs.memory⟩
    · exact fun exception _ _ concurs => handleException_concurs forwards concurs (.guard edge) exception

theorem switchTo_concurs (concurs : Host.Concurs sharp start start' host host') (m : Machine S E F X L)
    (memory : Memory S) (state : S) :
    Host.Concurs sharp start start' ({ m with memory := memory }.switchTo state host).2
      ({ m.clearExtensions with memory := memory }.switchTo state host').2 := by
  refine switchTo_related ?_ concurs state ?_
  · rfl
  · exact concurs.hear _ _ _

theorem conclude_concurs (m : Machine S E F X L) (current : S) (event : E) {out out' : Option S × Progress S E F X L W}
    (same : out'.1 = out.1) (concurs : out.2.Concurs sharp start start' out'.2) :
    (m.conclude current event out).Concurs sharp start start' (m.clearExtensions.conclude current event out') := by
  obtain ⟨reached?, p⟩ := out
  obtain ⟨reached?', host', context, memory⟩ := out'
  obtain rfl : reached?' = reached? := same
  obtain rfl : memory = p.memory := concurs.memory
  have arguments : context.arguments = p.context.arguments := concurs.arguments
  have records : context.records = p.context.records := concurs.records
  cases reached?' with
  | none =>
    refine ⟨rfl, concurs.context, ?_⟩
    apply Host.Concurs.publish
    · exact Host.Parallel.log concurs.host rfl
    · simp only [arguments]
  | some reached =>
    refine ⟨rfl, concurs.context, ?_⟩
    apply Host.Concurs.publish
    · apply Host.Concurs.hear
      refine Host.Parallel.log (switchTo_concurs concurs.host m p.memory reached) ?_
      simp only [records]
      rfl
    · simp only [arguments, records]

theorem arrive_concurs (m : Machine S E F X L) {out out' : S × Progress S E F X L W} (same : out'.1 = out.1)
    (concurs : out.2.Concurs sharp start start' out'.2) :
    (m.arrive out).Concurs sharp start start' (m.clearExtensions.arrive out') := by
  obtain ⟨leaf, p⟩ := out
  obtain ⟨leaf', host', context, memory⟩ := out'
  obtain rfl : leaf' = leaf := same
  obtain rfl : memory = p.memory := concurs.memory
  have records : context.records = p.context.records := concurs.records
  refine ⟨rfl, concurs.context, ?_⟩
  apply Host.Concurs.hear
  refine Host.Parallel.log (switchTo_concurs concurs.host m p.memory leaf') ?_
  simp only [records]
  rfl

theorem enterInitialState_concurs (code : b.SharesCode b') (forwards : sharp → b.Forwards) (m : Machine S E F X L)
    (concurs : Host.Concurs sharp start start' host host') :
    Answered (Completed.Concurs sharp start start') (m.enterInitialState b host)
      (m.clearExtensions.enterInitialState b' host') := by
  refine (simulation_concurs code forwards m start start').enterInitialState rfl rfl ?_ fun _ _ => arrive_concurs m
  exact fun initial => ⟨concurs.hear _ _ _, rfl, rfl⟩

theorem fire_concurs [DecidableEq E] (code : b.SharesCode b') (forwards : sharp → b.Forwards) (m : Machine S E F X L)
    (signal : Signal E) (concurs : Host.Concurs sharp start start' host host') :
    Answered (Completed.Concurs sharp start start') (m.fire b signal host)
      (m.clearExtensions.fire b' (m.asked b signal) host') := by
  refine (simulation_concurs code forwards m start start').fire rfl rfl rfl ?_ fun current event _ _ =>
    conclude_concurs m current event
  intro current
  rw [resolve_eq, resolve_eq]
  exact ⟨concurs.inquire _ _ _ _ _ _ _ _ _, rfl, rfl⟩

theorem initializeAt_concurs (b b' : Behaviour S E F X W) (m : Machine S E F X L) (s : S)
    (concurs : Host.Concurs sharp start start' host host') :
    Prepared (Leaves sharp start start') (m.initializeAt b s host)
      (m.clearExtensions.initializeAt b' (m.initialFor b s) host') := by
  have ready : m.clearExtensions.isInitialized = m.isInitialized := rfl
  unfold initializeAt
  rw [ready]
  cases m.isInitialized with
  | true => exact .refused _
  | false =>
    simp only [Bool.false_eq_true, if_false, Host.consult_eq]
    refine .granted ⟨rfl, ?_⟩
    apply Host.Concurs.hear
    exact Host.Parallel.log (concurs.inquire _ _ _ _ _ _ _ _ _) rfl

theorem load_concurs (m : Machine S E F X L) (c : Checkpoint S) (concurs : Host.Concurs sharp start start' host host') :
    Prepared (Leaves sharp start start') (m.load c host) (m.clearExtensions.load c host') := by
  have same : m.clearExtensions.checkpointDemands c = m.checkpointDemands c := rfl
  rw [load_eq, load_eq, same]
  cases (m.checkpointDemands c).forM Demand.check with
  | error error => exact .refused error
  | ok _ =>
    unfold takeOver
    cases c.initial? with
    | none => exact .granted ⟨rfl, concurs⟩
    | some initial => exact .granted ⟨rfl, Host.Parallel.log concurs rfl⟩

end Machine

def Change.bare : Change X L → Change X L
  | .subscribe subscriber => .subscribe subscriber
  | _ => .keep

def Call.bare : Call S E F X L → Call S E F X L
  | .configure change => .configure change.bare
  | call => call

/-- The call that needs no extensions to come to the same. -/
def Call.overruled (b : Behaviour S E F X W) (m : Machine S E F X L) : Call S E F X L → Call S E F X L
  | .initializeAt s => .initializeAt (m.initialFor b s)
  | .fire signal => .fire (m.asked b signal)
  | call => call.bare

structure Behaviour.Observes (b : Behaviour S E F X W) : Prop where
  initialState : ∀ extension info s, b.initialState extension info s = none
  signal : ∀ extension info signal, b.signal extension info signal = none

namespace Behaviour.Observes

variable {b : Behaviour S E F X W}

theorem asked (observes : b.Observes) (m : Machine S E F X L) (signal : Signal E) : m.asked b signal = signal :=
  threaded_kept (fun extension signal => by rw [observes.signal, Option.getD_none]) m.extensions signal

theorem initialFor (observes : b.Observes) (m : Machine S E F X L) (s : S) : m.initialFor b s = s :=
  threaded_kept (fun extension s => by rw [observes.initialState, Option.getD_none]) m.extensions s

theorem overruled (observes : b.Observes) (m : Machine S E F X L) (call : Call S E F X L) :
    call.overruled b m = call.bare := by
  cases call with
  | initializeAt s => exact congrArg Call.initializeAt (observes.initialFor m s)
  | fire signal => exact congrArg Call.fire (observes.asked m signal)
  | _ => rfl

end Behaviour.Observes

namespace Run

/-- Two runs that agree in all but extensions, since they began from one host. -/
structure Concurs (sharp : Bool) (start : Host S E F X L W) (r r' : Run S E F X L W) : Prop where
  machine : r'.machine = r.machine.clearExtensions
  host : Host.Concurs sharp start start r.host r'.host
  contexts : r'.contexts.map (Context.seen sharp) = r.contexts.map (Context.seen sharp)

variable [DecidableEq S] [DecidableEq E] [DecidableEq X] {b b' : Behaviour S E F X W} {start : Host S E F X L W}
  {r r' : Run S E F X L W}

omit [DecidableEq S] [DecidableEq E] [DecidableEq X] in
theorem Concurs.after (concurs : r.Concurs sharp start r') {answer answer' : Except Misuse (Completed S E F X L W)}
    (answered : Answered (Completed.Concurs sharp start start) answer answer') :
    (r.after answer).Concurs sharp start (r'.after answer') := by
  cases answered with
  | refused error => exact concurs
  | accepted ended =>
    refine ⟨ended.machine, ended.host, ?_⟩
    unfold Run.after
    rw [List.map_append, List.map_append, concurs.contexts, List.map_singleton, List.map_singleton, ended.context]

omit [DecidableEq S] [DecidableEq E] [DecidableEq X] in
theorem Concurs.adopt {ε : Type} (concurs : r.Concurs sharp start r')
    {answer answer' : Except ε (Machine S E F X L × Host S E F X L W)}
    (prepared : Prepared (Leaves sharp start start) answer answer') :
    (r.adopt answer).Concurs sharp start (r'.adopt answer') := by
  cases prepared with
  | refused error => exact concurs
  | granted left => exact ⟨left.machine, left.host, concurs.contexts⟩

theorem Concurs.call (concurs : r.Concurs sharp start r') (code : b.SharesCode b') (forwards : sharp → b.Forwards)
    (call : Call S E F X L) :
    (r.call b call).Concurs sharp start (r'.call b' (call.overruled b r.machine)) := by
  obtain ⟨machine', host', contexts'⟩ := r'
  obtain rfl : machine' = r.machine.clearExtensions := concurs.machine
  cases call with
  | define superState initial history subs =>
    show (r.call b (.define superState initial history subs)).Concurs sharp start
      (Run.call b' ⟨r.machine.clearExtensions, host', contexts'⟩ (.define superState initial history subs))
    rw [Run.call.eq_def, Run.call.eq_def]
    simp only [Machine.define]
    rw [show r.machine.clearExtensions.forest = r.machine.forest from rfl]
    cases r.machine.forest.define? superState initial history subs with
    | ok forest => exact ⟨rfl, concurs.host, concurs.contexts⟩
    | error errors => exact concurs
  | addTransition source event draft => exact ⟨rfl, concurs.host, concurs.contexts⟩
  | addEntryAction s action => exact ⟨rfl, concurs.host, concurs.contexts⟩
  | addExitAction s action => exact ⟨rfl, concurs.host, concurs.contexts⟩
  | configure change => cases change <;> exact ⟨rfl, concurs.host, concurs.contexts⟩
  | initializeAt s =>
    rw [Call.overruled, call_initializeAt_eq, call_initializeAt_eq]
    exact concurs.adopt (Machine.initializeAt_concurs b b' r.machine s concurs.host)
  | enterInitialState => exact concurs.after (Machine.enterInitialState_concurs code forwards r.machine concurs.host)
  | fire signal => exact concurs.after (Machine.fire_concurs code forwards r.machine signal concurs.host)
  | load c =>
    change (r.call b (.load c)).Concurs sharp start
      (Run.call b' ⟨r.machine.clearExtensions, host', contexts'⟩ (.load c))
    rw [call_load_eq, call_load_eq]
    exact concurs.adopt (Machine.load_concurs r.machine c concurs.host)

def overruled (r : Run S E F X L W) : List (Behaviour S E F X W × Call S E F X L) → List (Call S E F X L)
  | [] => []
  | (b, call) :: rest => call.overruled b r.machine :: (r.call b call).overruled rest

def bare (r : Run S E F X L W) : Run S E F X L W := { r with machine := r.machine.clearExtensions }

omit [DecidableEq S] [DecidableEq E] [DecidableEq X] in
theorem concurs_bare (r : Run S E F X L W) : r.Concurs sharp r.host r.bare := ⟨rfl, .refl rfl, rfl⟩

theorem Concurs.follow (concurs : r.Concurs sharp start r') (script : List (Behaviour S E F X W × Call S E F X L))
    (code : ∀ step ∈ script, step.1.SharesCode b') (forwards : sharp → ∀ step ∈ script, step.1.Forwards) :
    (r.follow script).Concurs sharp start (r'.callAll b' (r.overruled script)) := by
  unfold Run.follow callAll
  induction script generalizing r r' with
  | nil => exact concurs
  | cons step rest ih =>
    obtain ⟨b, call⟩ := step
    refine ih (concurs.call (code _ List.mem_cons_self) (fun looks => forwards looks _ List.mem_cons_self) call) ?_ ?_
    · exact fun step member => code step (List.mem_cons_of_mem _ member)
    · exact fun looks step member => forwards looks step (List.mem_cons_of_mem _ member)

theorem overruled_observed (script : List (Behaviour S E F X W × Call S E F X L))
    (observed : ∀ step ∈ script, step.1.Observes) (r : Run S E F X L W) :
    r.overruled script = script.map (·.2.bare) := by
  induction script generalizing r with
  | nil => rfl
  | cons step rest ih =>
    obtain ⟨b, call⟩ := step
    have observes : b.Observes := observed _ List.mem_cons_self
    rw [overruled, List.map_cons, observes.overruled]
    rw [ih fun step member => observed step (List.mem_cons_of_mem _ member)]

omit [DecidableEq S] [DecidableEq E] [DecidableEq X] in
theorem Concurs.contexts_eq (concurs : r.Concurs true start r') : r'.contexts = r.contexts := by
  have same := concurs.contexts
  rwa [show Context.seen true = id from funext Context.seen_sharp, List.map_id, List.map_id] at same

/-- Extensions come to the same as other requests. Whatever they answer, a run without them in which each event and
    each initial state is the one that they settle on has the same states, the same memory and the same records, calls
    the same code and tells subscribers the same, except which exceptions are reported, and these are the same too where
    no extension replaces any. Extensions that let events and initial states be change none of this, also where they
    replace exceptions. -/
theorem follow_overruled (r : Run S E F X L W) (b' : Behaviour S E F X W)
    (script : List (Behaviour S E F X W × Call S E F X L)) (code : ∀ step ∈ script, step.1.SharesCode b') :
    let t := r.follow script
    let t' := r.bare.callAll b' (r.overruled script)
    (∀ sharp : Bool, (sharp → ∀ step ∈ script, step.1.Forwards) →
      t.Concurs sharp r.host t' ∧ (sharp → t'.contexts = t.contexts) ∧
      ∀ b : Behaviour S E F X W, b.SharesCode b' → (sharp → b.Forwards) →
        (∀ signal, Answered (Completed.Concurs sharp r.host r.host) (t.machine.fire b signal t.host)
          (t'.machine.fire b' (t.machine.asked b signal) t'.host)) ∧
        Answered (Completed.Concurs sharp r.host r.host) (t.machine.enterInitialState b t.host)
          (t'.machine.enterInitialState b' t'.host) ∧
        ∀ s, Prepared (Leaves sharp r.host r.host) (t.machine.initializeAt b s t.host)
          (t'.machine.initializeAt b' (t.machine.initialFor b s) t'.host)) ∧
    ((∀ step ∈ script, step.1.Observes) → r.overruled script = script.map (·.2.bare)) ∧
    ∀ b : Behaviour S E F X W, b.Observes →
      (∀ signal, t.machine.asked b signal = signal) ∧ ∀ s, t.machine.initialFor b s = s := by
  intro t t'
  refine ⟨fun sharp forwards => ?_, fun observed => overruled_observed script observed r, ?_⟩
  · have concurs : t.Concurs sharp r.host t' := r.concurs_bare.follow script code forwards
    refine ⟨concurs, fun looks => ?_, fun b shares forwards => ⟨?_, ?_, ?_⟩⟩
    · subst looks
      exact concurs.contexts_eq
    · intro signal
      rw [concurs.machine]
      exact Machine.fire_concurs shares forwards t.machine signal concurs.host
    · rw [concurs.machine]
      exact Machine.enterInitialState_concurs shares forwards t.machine concurs.host
    · intro s
      rw [concurs.machine]
      exact Machine.initializeAt_concurs b b' t.machine s concurs.host
  · exact fun b observes => ⟨observes.asked t.machine, observes.initialFor t.machine⟩

end Run

def Lamp.forgiving : Behaviour Lamp Switch Unit Unit Unit :=
  { jammed with signal := fun _ _ signal => if signal.event = .turn then some ⟨.toggle, []⟩ else none }

namespace Run

theorem follow_overruled_lamp :
    let r : Run Lamp Switch Unit Unit Unit Unit := start .standard (.ofWorld ())
    let script := Lamp.explanation.map (Lamp.jammed, ·) ++ [(Lamp.forgiving, .fire ⟨.turn, []⟩)]
    let t := r.follow script
    let t' := r.bare.callAll Lamp.jammed (Lamp.explanation.map Call.bare ++ [.fire ⟨.toggle, []⟩])
    r.overruled script = Lamp.explanation.map Call.bare ++ [.fire ⟨.toggle, []⟩] ∧ t.Concurs false r.host t' ∧
      t.machine.current? = some .on ∧ t'.machine.current? = some .on ∧
      t.contexts.map Context.exceptions = [[], [.custom "jammed"]] ∧
      t'.contexts.map Context.exceptions = [[], [.custom "stuck"]] := by
  intro r script t t'
  have code : ∀ step ∈ script, step.1.SharesCode Lamp.jammed := by
    intro step member
    rcases List.mem_append.mp member with explained | fired
    · obtain ⟨call, _, rfl⟩ := List.mem_map.mp explained
      exact ⟨rfl, rfl⟩
    · obtain rfl := List.mem_singleton.mp fired
      exact ⟨rfl, rfl⟩
  have requests : r.overruled script = Lamp.explanation.map Call.bare ++ [.fire ⟨.toggle, []⟩] := rfl
  have concurs := ((follow_overruled r Lamp.jammed script code).1 false (by simp)).1
  rw [requests] at concurs
  exact ⟨requests, concurs, by decide +kernel, by decide +kernel, by decide +kernel, by decide +kernel⟩

end Run

end Statechart
