import Statechart.Proofs.Machine.Simulation

namespace Statechart

variable {S E F X L W α : Type}

def Hook.isAboutQueue : Hook S E → Bool
  | .started | .stopped | .eventQueued _ | .eventQueuedWithPriority _ => true
  | _ => false

def LogLine.isAboutQueue : LogLine S E → Bool
  | .startingWorker .. | .workerStopped .. => true
  | .extensionCalled _ hook => hook.isAboutQueue
  | _ => false

def JournalEntry.isAboutQueue : JournalEntry S E F X L → Bool
  | hook _ _ call => call.isAboutQueue
  | log line => line.isAboutQueue
  | _ => false

namespace Host

def doings (host : Host S E F X L W) : List (JournalEntry S E F X L) :=
  host.journal.filter fun entry => !entry.isAboutQueue

/-- Two hosts in which the same was done, whenever signals were queued and whoever heard of that. -/
structure Alike (host host' : Host S E F X L W) : Prop where
  world : host'.world = host.world
  outbox : host'.outbox = host.outbox
  failures : host'.failures = host.failures
  crashed : host'.crash?.isSome = host.crash?.isSome
  doings : host'.doings = host.doings

namespace Alike

variable {host host' host'' : Host S E F X L W}

theorem refl (host : Host S E F X L W) : host.Alike host := ⟨rfl, rfl, rfl, rfl, rfl⟩

theorem symm (alike : host.Alike host') : host'.Alike host :=
  ⟨alike.world.symm, alike.outbox.symm, alike.failures.symm, alike.crashed.symm, alike.doings.symm⟩

theorem trans (first : host.Alike host') (second : host'.Alike host'') : host.Alike host'' :=
  ⟨second.world.trans first.world, second.outbox.trans first.outbox, second.failures.trans first.failures,
    second.crashed.trans first.crashed, second.doings.trans first.doings⟩

theorem writeAll (alike : host.Alike host') (entries : List (JournalEntry S E F X L)) :
    (host.writeAll entries).Alike (host'.writeAll entries) := by
  refine ⟨alike.world, alike.outbox, alike.failures, alike.crashed, ?_⟩
  have doings := alike.doings
  unfold Host.doings at doings ⊢
  rw [Host.writeAll, Host.writeAll, List.filter_append, List.filter_append, doings]

theorem write (alike : host.Alike host') (entry : JournalEntry S E F X L) :
    (host.write entry).Alike (host'.write entry) := alike.writeAll [entry]

theorem log (alike : host.Alike host') (line : LogLine S E) : (host.log line).Alike (host'.log line) :=
  alike.write _

theorem announce (alike : host.Alike host') (extensions : List (Extension X)) (info : Info S) (hook : Hook S E) :
    (host.announce extensions info hook).Alike (host'.announce extensions info hook) := by
  rw [announce_eq, announce_eq]
  exact alike.writeAll _

theorem notify (alike : host.Alike host') (notice : Notice S E) (subscriber : Subscriber L) :
    (host.notify notice subscriber).Alike (host'.notify notice subscriber) := by
  cases subscriber with
  | collector =>
    exact ⟨alike.world, alike.outbox, congrArg (· ++ _) alike.failures, alike.crashed, alike.doings⟩
  | custom subscriber => exact alike.write _

theorem publish (alike : host.Alike host') (subscribers : List (Subscriber L)) (notice : Notice S E) :
    (host.publish subscribers notice).Alike (host'.publish subscribers notice) := by
  unfold Host.publish
  induction subscribers generalizing host host' with
  | nil => exact alike
  | cons subscriber rest ih => exact ih (alike.notify notice subscriber)

theorem accept (alike : host.Alike host') (reply : Reply E W α) (entry : JournalEntry S E F X L) :
    (host.accept reply entry).Alike (host'.accept reply entry) := by
  refine ⟨rfl, congrArg (· ++ reply.sent) alike.outbox, alike.failures, ?_, (alike.write entry).doings⟩
  have crashed := alike.crashed
  unfold Host.accept
  cases before : host.crash? <;> cases before' : host'.crash? <;> cases reply.outcome <;> simp_all

theorem call (alike : host.Alike host') (run : F → Input → W → Reply E W α)
    (entry : Callable F → Arguments → Outcome α → List (Post E) → JournalEntry S E F X L) (callable : Callable F)
    (arguments : Arguments) :
    (Host.call run entry callable arguments host').1 = (Host.call run entry callable arguments host).1 ∧
      (Host.call run entry callable arguments host).2.Alike (Host.call run entry callable arguments host').2 := by
  unfold Host.call
  cases callable.receive arguments with
  | error error => exact ⟨rfl, alike.write _⟩
  | ok input =>
    simp only [alike.world]
    exact ⟨trivial, alike.accept _ _⟩

end Alike

section Queue

variable {host : Host S E F X L W}

theorem alike_writeAll {entries : List (JournalEntry S E F X L)} (about : ∀ entry ∈ entries, entry.isAboutQueue) :
    host.Alike (host.writeAll entries) := by
  refine ⟨rfl, rfl, rfl, rfl, ?_⟩
  have nothing : entries.filter (fun entry => !entry.isAboutQueue) = [] := by
    rw [List.filter_eq_nil_iff]
    intro entry member
    simp [about entry member]
  unfold Host.doings
  rw [writeAll, List.filter_append, nothing, List.append_nil]

theorem alike_write {entry : JournalEntry S E F X L} (about : entry.isAboutQueue) : host.Alike (host.write entry) :=
  alike_writeAll (List.forall_mem_singleton.mpr about)

theorem alike_announce {hook : Hook S E} (about : hook.isAboutQueue) (extensions : List (Extension X)) (info : Info S) :
    host.Alike (host.announce extensions info hook) := by
  rw [announce_eq]
  apply alike_writeAll
  intro entry member
  obtain ⟨extension, _, rfl⟩ := List.mem_map.mp member
  cases extension <;> exact about

end Queue

end Host

structure Progress.Alike (p p' : Progress S E F X L W) : Prop where
  host : p.host.Alike p'.host
  context : p'.context = p.context
  memory : p'.memory = p.memory

theorem Host.Alike.progress {host host' : Host S E F X L W} (alike : host.Alike host') (context : Context S E)
    (memory : Memory S) : Progress.Alike ⟨host, context, memory⟩ ⟨host', context, memory⟩ := ⟨alike, rfl, rfl⟩

structure Completed.Alike (done done' : Completed S E F X L W) : Prop where
  machine : done'.machine = done.machine
  context : done'.context = done.context
  host : done.host.Alike done'.host

namespace Machine

variable {p p' : Progress S E F X L W} {host host' : Host S E F X L W} (b : Behaviour S E F X W) (m : Machine S E F X L)

theorem handleException_alike (alike : p.Alike p') (fault : Fault S E) (exception : Exception) :
    (m.handleException b fault exception p).Alike (m.handleException b fault exception p') := by
  obtain ⟨host', context, memory⟩ := p'
  obtain ⟨alike, rfl, rfl⟩ := alike
  rw [handleException_eq, handleException_eq]
  exact ⟨(((alike.writeAll _).log _).publish _ _).announce _ _ _, rfl, rfl⟩

variable [DecidableEq S]

theorem simulation_alike (b : Behaviour S E F X W) (m : Machine S E F X L) : Simulation b b m m id Progress.Alike where
  forest := Forest.mirrors_refl m.forest
  arguments alike := congrArg Context.arguments alike.context
  memory alike s := congrArg (Table.get? · s) alike.memory
  record kind s alike := ⟨alike.host, congrArg (·.addRecord kind s) alike.context, alike.memory⟩
  remember s alike := ⟨alike.host, alike.context, congrArg (m.forest.remember · s) alike.memory⟩
  begin current event alike := by
    refine ⟨?_, alike.context, alike.memory⟩
    unfold Machine.begin
    rw [alike.context]
    exact alike.host.publish _ _
  perform fault arguments action alike := by
    obtain ⟨outcome, called⟩ := alike.host.call b.action .action action arguments
    apply perform_related outcome
    · exact ⟨called, alike.context, alike.memory⟩
    · exact fun exception _ _ alike => m.handleException_alike b alike fault exception
  guard edge guard alike := by
    obtain ⟨outcome, called⟩ := alike.host.call b.guard .guard guard _
    apply guardPasses_related (congrArg Context.arguments alike.context) outcome
    · exact ⟨called, alike.context, alike.memory⟩
    · exact fun exception _ _ alike => m.handleException_alike b alike (.guard edge) exception

theorem switchTo_alike (alike : host.Alike host') (state : S) :
    (m.switchTo state host).2.Alike (m.switchTo state host').2 :=
  switchTo_related rfl alike state (alike.announce _ _ _)

theorem arrive_alike {out out' : S × Progress S E F X L W} (same : out'.1 = out.1) (alike : out.2.Alike out'.2) :
    (m.arrive out).Alike (m.arrive out') := by
  obtain ⟨leaf, p⟩ := out
  obtain ⟨leaf', host', context, memory⟩ := out'
  obtain rfl : leaf' = leaf := same
  obtain ⟨alike, rfl, rfl⟩ := alike
  exact ⟨rfl, rfl, ((switchTo_alike _ alike leaf').log _).announce _ _ _⟩

theorem conclude_alike (current : S) (event : E) {out out' : Option S × Progress S E F X L W} (same : out'.1 = out.1)
    (alike : out.2.Alike out'.2) : (m.conclude current event out).Alike (m.conclude current event out') := by
  obtain ⟨reached?, p⟩ := out
  obtain ⟨reached?', host', context, memory⟩ := out'
  obtain rfl : reached?' = reached? := same
  obtain ⟨alike, rfl, rfl⟩ := alike
  cases reached?' with
  | none => exact ⟨rfl, rfl, (alike.log _).publish _ _⟩
  | some reached => exact ⟨rfl, rfl, (((switchTo_alike _ alike reached).log _).announce _ _ _).publish _ _⟩

theorem enterInitialState_alike (alike : host.Alike host') (ready : m.isInitialized) (unentered : m.hasEntered = false) :
    ∃ done done', m.enterInitialState b host = .ok done ∧ m.enterInitialState b host' = .ok done' ∧
      done.Alike done' := by
  obtain ⟨initial, found⟩ := Option.isSome_iff_exists.mp ready
  have accepted := enterInitialState_eq found unentered b host
  have answered : Answered Completed.Alike (m.enterInitialState b host) (m.enterInitialState b host') := by
    refine (simulation_alike b m).enterInitialState rfl rfl ?_ fun _ _ => m.arrive_alike
    exact fun initial => (alike.announce _ _ _).progress _ _
  rw [accepted] at answered
  obtain ⟨done', accepted', same⟩ := answered.of_ok
  exact ⟨_, done', accepted, accepted', same⟩

variable [DecidableEq E]

theorem fire_alike (alike : host.Alike host') (ready : m.isInitialized) (entered : m.hasEntered) (signal : Signal E) :
    ∃ done done', m.fire b signal host = .ok done ∧ m.fire b signal host' = .ok done' ∧ done.Alike done' := by
  obtain ⟨current, standing⟩ := Option.isSome_iff_exists.mp entered
  have accepted := fire_eq ready standing b signal host
  have answered : Answered Completed.Alike (m.fire b signal host) (m.fire b signal host') := by
    refine (simulation_alike b m).fire rfl rfl rfl ?_ fun current event _ _ => m.conclude_alike current event
    intro current
    rw [resolve_eq, resolve_eq]
    exact (alike.writeAll _).progress _ _
  rw [accepted] at answered
  obtain ⟨done', accepted', same⟩ := answered.of_ok
  exact ⟨_, done', accepted, accepted', same⟩

end Machine

end Statechart
