import Statechart.Proofs.Machine.Simulation

namespace Statechart

variable {S E F X L W α : Type}

structure Behaviour.Silent (b : Behaviour S E F X W) : Prop where
  guard : ∀ code input world, (b.guard code input world).sent = []
  action : ∀ code input world, (b.action code input world).sent = []

namespace Host

/-- Two hosts on which silent code goes the same way, whatever was written on either: one world, nothing sent, and a
    crash on both or on none. What had crashed at some moment before stays so. -/
structure Level (start host host' : Host S E F X L W) : Prop where
  world : host'.world = host.world
  sent : host.outbox = []
  sent' : host'.outbox = []
  crashed : host'.crash?.isSome = host.crash?.isSome
  lasting : start.crash?.isSome → host.crash?.isSome

namespace Level

variable {start host host' : Host S E F X L W}

theorem writeAll (level : Level start host host') (entries entries' : List (JournalEntry S E F X L)) :
    Level start (host.writeAll entries) (host'.writeAll entries') :=
  ⟨level.world, level.sent, level.sent', level.crashed, level.lasting⟩

theorem log (level : Level start host host') (line line' : LogLine S E) :
    Level start (host.log line) (host'.log line') := level.writeAll [.log line] [.log line']

theorem write_right (level : Level start host host') (entries : List (JournalEntry S E F X L)) :
    Level start host (host'.writeAll entries) := ⟨level.world, level.sent, level.sent', level.crashed, level.lasting⟩

theorem announce (level : Level start host host') (extensions : List (Extension X)) (info : Info S) (hook : Hook S E) :
    Level start (host.announce extensions info hook) (host'.announce extensions info hook) := by
  rw [announce_eq, announce_eq]
  exact level.writeAll _ _

theorem publish (level : Level start host host') (subscribers : List (Subscriber L)) (notice : Notice S E) :
    Level start (host.publish subscribers notice) (host'.publish subscribers notice) := by
  rw [publish_eq, publish_eq]
  exact ⟨level.world, level.sent, level.sent', level.crashed, level.lasting⟩

theorem accept {reply : Reply E W α} (level : Level start host host') (silent : reply.sent = [])
    (entry entry' : JournalEntry S E F X L) : Level start (host.accept reply entry) (host'.accept reply entry') := by
  have crashed := level.crashed
  refine ⟨rfl, ?_, ?_, ?_, fun before => ?_⟩
  · rw [Host.accept, level.sent, silent]
    rfl
  · rw [Host.accept, level.sent', silent]
    rfl
  · unfold Host.accept
    cases before : host.crash? <;> cases before' : host'.crash? <;> cases reply.outcome <;> simp_all
  · obtain ⟨length, stood⟩ := Option.isSome_iff_exists.mp (level.lasting before)
    unfold Host.accept
    simp only [stood]
    rfl

theorem call (level : Level start host host') {run : F → Input → W → Reply E W α}
    (silent : ∀ code input world, (run code input world).sent = [])
    (entry : Callable F → Arguments → Outcome α → List (Post E) → JournalEntry S E F X L) (callable : Callable F)
    (arguments : Arguments) :
    (Host.call run entry callable arguments host').1 = (Host.call run entry callable arguments host).1 ∧
      Level start (Host.call run entry callable arguments host).2 (Host.call run entry callable arguments host').2 := by
  unfold Host.call
  cases callable.receive arguments with
  | error error => exact ⟨rfl, level.writeAll [_] [_]⟩
  | ok input =>
    simp only [level.world]
    exact ⟨trivial, level.accept (silent _ _ _) _ _⟩

end Level

end Host

structure Progress.Level (start : Host S E F X L W) (p p' : Progress S E F X L W) : Prop where
  host : Host.Level start p.host p'.host
  context : p'.context = p.context
  memory : p'.memory = p.memory

structure Completed.Level (start : Host S E F X L W) (done done' : Completed S E F X L W) : Prop where
  machine : done'.machine = done.machine
  host : Host.Level start done.host done'.host

namespace Machine

variable {b : Behaviour S E F X W} {start host host' : Host S E F X L W} {p p' : Progress S E F X L W}

theorem handleException_level (level : Progress.Level start p p') (b : Behaviour S E F X W) (m : Machine S E F X L)
    (fault : Fault S E) (exception : Exception) :
    Progress.Level start (m.handleException b fault exception p) (m.handleException b fault exception p') := by
  obtain ⟨host', context, memory⟩ := p'
  obtain ⟨level, rfl, rfl⟩ := level
  rw [handleException_eq, handleException_eq]
  exact ⟨(((level.writeAll _ _).log _ _).publish _ _).announce _ _ _, rfl, rfl⟩

variable [DecidableEq S]

theorem simulation_level (silent : b.Silent) (m : Machine S E F X L) (start : Host S E F X L W) :
    Simulation b b m m id (Progress.Level start) where
  forest := Forest.mirrors_refl m.forest
  arguments level := congrArg Context.arguments level.context
  memory level s := congrArg (Table.get? · s) level.memory
  record kind s level := ⟨level.host, congrArg (·.addRecord kind s) level.context, level.memory⟩
  remember s level := ⟨level.host, level.context, congrArg (m.forest.remember · s) level.memory⟩
  begin current event level := by
    refine ⟨?_, level.context, level.memory⟩
    unfold Machine.begin
    rw [level.context]
    exact level.host.publish _ _
  perform fault arguments action level := by
    obtain ⟨outcome, called⟩ := level.host.call silent.action .action action arguments
    apply perform_related outcome
    · exact ⟨called, level.context, level.memory⟩
    · exact fun exception _ _ level => handleException_level level b m fault exception
  guard edge guard level := by
    obtain ⟨outcome, called⟩ := level.host.call silent.guard .guard guard _
    apply guardPasses_related (congrArg Context.arguments level.context) outcome
    · exact ⟨called, level.context, level.memory⟩
    · exact fun exception _ _ level => handleException_level level b m (.guard edge) exception

theorem switchTo_level (level : Host.Level start host host') (m : Machine S E F X L) (state : S) :
    Host.Level start (m.switchTo state host).2 (m.switchTo state host').2 :=
  switchTo_related rfl level state (level.announce _ _ _)

theorem enterInitialState_level (silent : b.Silent) (m : Machine S E F X L) (level : Host.Level start host host') :
    Answered (Completed.Level start) (m.enterInitialState b host) (m.enterInitialState b host') := by
  refine (simulation_level silent m start).enterInitialState rfl rfl ?_ ?_
  · exact fun initial => ⟨level.announce _ _ _, rfl, rfl⟩
  · rintro ⟨leaf, p⟩ ⟨leaf', host', context, memory⟩ same level
    obtain rfl : leaf' = leaf := same
    obtain ⟨level, rfl, rfl⟩ := level
    exact ⟨rfl, ((switchTo_level level _ leaf').log _ _).announce _ _ _⟩

theorem fire_level [DecidableEq E] (silent : b.Silent) (m : Machine S E F X L) (level : Host.Level start host host')
    (signal : Signal E) : Answered (Completed.Level start) (m.fire b signal host) (m.fire b signal host') := by
  refine (simulation_level silent m start).fire rfl rfl rfl ?_ ?_
  · intro current
    rw [resolve_eq, resolve_eq]
    exact ⟨level.writeAll _ _, rfl, rfl⟩
  · rintro current event ⟨reached?, p⟩ ⟨reached?', host', context, memory⟩ same level
    obtain rfl : reached?' = reached? := same
    obtain ⟨level, rfl, rfl⟩ := level
    cases reached?' with
    | none => exact ⟨rfl, (level.log _ _).publish _ _⟩
    | some reached => exact ⟨rfl, (((switchTo_level level _ reached).log _ _).announce _ _ _).publish _ _⟩

end Machine

end Statechart
