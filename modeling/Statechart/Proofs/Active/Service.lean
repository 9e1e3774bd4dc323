import Statechart.Proofs.Active.Step
import Statechart.Proofs.Passive.Work

namespace Statechart

variable {S E F X L W : Type}

namespace Host.Alike

variable {host host' : Host S E F X L W}

theorem clear (alike : host.Alike host') : Host.Alike { host with outbox := [] } { host' with outbox := [] } :=
  ⟨alike.world, rfl, alike.failures, alike.crashed, alike.doings⟩

theorem of_clear (quiet : host.outbox = []) (alike : Host.Alike { host with outbox := [] } host') :
    host.Alike host' :=
  ⟨alike.world, alike.outbox.trans quiet.symm, alike.failures, alike.crashed, alike.doings⟩

theorem cleared (quiet : host.outbox = []) (alike : host.Alike host') :
    Host.Alike { host with outbox := [] } host' :=
  ⟨alike.world, alike.outbox.trans quiet, alike.failures, alike.crashed, alike.doings⟩

theorem alive (alike : host.Alike host') (alive : host.crash? = none) : host'.crash? = none := by
  have crashed := alike.crashed
  rw [alive] at crashed
  exact Option.isSome_eq_false_iff.mp crashed |> Option.isNone_iff_eq_none.mp

end Host.Alike

def Message.post? : Message E X L → Option (Post E)
  | .post sent => some sent
  | .configure _ | .stop => none

def Deed.affair? : Deed E X L → Option (Affair E)
  | put (.post post) => some (.posted post)
  | fired signal _ => some (.fired signal)
  | _ => none

def affairs (deeds : List (Deed E X L)) : List (Affair E) := deeds.filterMap Deed.affair?

theorem affairs_append (deeds deeds' : List (Deed E X L)) : affairs (deeds ++ deeds') = affairs deeds ++ affairs deeds' :=
  List.filterMap_append

namespace Active

def incoming (a : Active S E F X L) : List (Post E) := a.channel.filterMap Message.post?

theorem incoming_stop (a : Active S E F X L) :
    ({ a with channel := a.channel ++ [.stop] } : Active S E F X L).incoming = a.incoming := by
  rw [incoming, List.filterMap_append]
  exact List.append_nil _

def Idle (a : Active S E F X L) : Prop :=
  a.channel = [.stop] ∧ ∀ worker phase stopping, a.runtime = .running worker phase stopping → worker.queue = []

variable {b : Behaviour S E F X W} {a a' a'' : Active S E F X L} {host host' host'' : Host S E F X L W}
  {deeds deeds' : List (Deed E X L)}

section Serves

variable [DecidableEq S] [DecidableEq E] [DecidableEq X]

/-- Turns of a worker that nobody sends anything but its own guards and actions, and a stop, which it gets to when
    nothing else is left. -/
inductive Serves (b : Behaviour S E F X W) (a : Active S E F X L) (host : Host S E F X L W) :
    List (Deed E X L) → Active S E F X L → Host S E F X L W → Prop where
  | none : Serves b a host [] a host
  | turn {deeds deeds' : List (Deed E X L)} {a' a'' : Active S E F X L} {host' host'' : Host S E F X L W}
      (before : Serves b a host deeds a' host') (turned : a'.Turn b host' deeds' a'' host'')
      (timely : .took .stop ∈ deeds' → a'.Idle) : Serves b a host (deeds ++ deeds') a'' host''
  | stop {deeds : List (Deed E X L)} {a' : Active S E F X L} {host' : Host S E F X L W}
      (before : Serves b a host deeds a' host') (runs : a'.isRunning) :
      Serves b a host (deeds ++ [.put .stop]) { a' with channel := a'.channel ++ [.stop] } host'

theorem Serves.trans (first : a.Serves b host deeds a' host') (second : a'.Serves b host' deeds' a'' host'') :
    a.Serves b host (deeds ++ deeds') a'' host'' := by
  induction second with
  | none => rwa [List.append_nil]
  | turn before turned timely ih =>
    rw [← List.append_assoc]
    exact ih.turn turned timely
  | stop before runs ih =>
    rw [← List.append_assoc]
    exact ih.stop runs

theorem Serves.cons (turned : a.Turn b host deeds a' host') (timely : .took .stop ∈ deeds → a.Idle)
    (rest : a'.Serves b host' deeds' a'' host'') : a.Serves b host (deeds ++ deeds') a'' host'' :=
  (Serves.none.turn turned timely).trans rest

end Serves

/-- A worker has come as far as a machine that works on its owner's thread, up to what was posted and not queued. -/
structure Abreast (p : Passive S E F X L) (aside : Host S E F X L W) (a : Active S E F X L) (host : Host S E F X L W)
    (worker : Worker S E F X L) (phase : Phase) : Prop where
  runs : a.runtime = .running worker phase false
  begun : phase ≠ .starting
  machine : worker.machine = p.machine
  alike : Host.Alike { host with outbox := [] } aside
  alive : host.crash? = none
  line : (a.incoming ++ host.outbox).foldl queueUp worker.queue = p.backlog
  unchanged : ∀ change, .configure change ∉ a.channel
  looked : phase = .working → a.incoming = [] ∧ host.outbox = []

variable {p p' : Passive S E F X L} {aside aside' : Host S E F X L W} {worker : Worker S E F X L} {phase : Phase}
  {post : Post E} {sent : List (Post E)} {rest : List (Message E X L)} {signal : Signal E} {queue : List (Signal E)}
  {done : Completed S E F X L W}

namespace Abreast

variable (abreast : Abreast p aside a host worker phase)

include abreast

theorem deliver (outbox : host.outbox = post :: sent) :
    Abreast p aside { a with channel := a.channel ++ [.post post] } { host with outbox := sent } worker phase := by
  refine ⟨abreast.runs, abreast.begun, abreast.machine, abreast.alike, abreast.alive, ?_, fun change => ?_, fun working => ?_⟩
  · have line := abreast.line
    rw [outbox] at line
    rw [← line, incoming, List.filterMap_append, List.append_assoc]
    rfl
  · simpa using abreast.unchanged change
  · have looked := (abreast.looked working).2
    rw [outbox] at looked
    cases looked

theorem take [DecidableEq X] (next : a.channel = .post post :: rest) (quiet : host.outbox = []) :
    Abreast p aside ({ a with channel := rest }.accept worker (.post post) host).1
        ({ a with channel := rest }.accept worker (.post post) host).2
        { worker with queue := queueUp worker.queue post } .draining ∧
      ({ a with channel := rest }.accept worker (.post post) host).2.outbox = [] := by
  have heard {hook : Hook S E} (about : hook.isAboutQueue) : host.Alike (worker.machine.announce hook host) :=
    Host.alike_announce about worker.machine.extensions worker.machine.info
  have heard : host.Alike ({ a with channel := rest }.accept worker (.post post) host).2 := by
    unfold accept
    simp only
    split
    · exact heard rfl
    · exact heard rfl
  refine ⟨⟨rfl, by simp, abreast.machine, heard.clear.symm.trans abreast.alike, heard.alive abreast.alive, ?_,
    fun change waits => ?_, fun working => by cases working⟩, heard.outbox.trans quiet⟩
  · have line := abreast.line
    rw [incoming, next] at line
    rw [← line, heard.outbox, quiet]
    rfl
  · exact abreast.unchanged change (next ▸ List.mem_cons_of_mem _ waits)

theorem look (quiet : host.outbox = []) (empty : a.channel = []) :
    Abreast p aside { a with runtime := .running worker .working false } host worker .working where
  runs := rfl
  begun := by simp
  machine := abreast.machine
  alike := abreast.alike
  alive := abreast.alive
  line := abreast.line
  unchanged := abreast.unchanged
  looked _ := ⟨by simp [incoming, empty], quiet⟩

theorem stop : Abreast p aside { a with channel := a.channel ++ [.stop] } host worker phase := by
  refine ⟨abreast.runs, abreast.begun, abreast.machine, abreast.alike, abreast.alive, ?_, fun change => ?_, ?_⟩
  · rw [incoming_stop]
    exact abreast.line
  · simpa using abreast.unchanged change
  · rw [incoming_stop]
    exact abreast.looked

end Abreast

structure Poised (p : Passive S E F X L) (aside : Host S E F X L W) (a : Active S E F X L) (host : Host S E F X L W)
    (worker : Worker S E F X L) : Prop where
  runs : a.runtime = .running worker .starting false
  machine : worker.machine = p.machine
  pending : worker.pending = p.pending
  alike : host.Alike aside
  quiet : host.outbox = []
  alive : host.crash? = none
  line : a.incoming.foldl queueUp worker.queue = p.backlog
  unchanged : ∀ change, .configure change ∉ a.channel

theorem Poised.stop (poised : Poised p aside a host worker) :
    Poised p aside { a with channel := a.channel ++ [.stop] } host worker := by
  refine ⟨poised.runs, poised.machine, poised.pending, poised.alike, poised.quiet, poised.alive, ?_, fun change => ?_⟩
  · rw [incoming_stop]
    exact poised.line
  · simpa using poised.unchanged change

/-- How a worker goes on after an operation: lost to a crash that the other machine has had as well, or abreast of
    it, with the posts of the operation still on their way to the channel. -/
inductive Continues (p : Passive S E F X L) (aside : Host S E F X L W) (sent : List (Post E))
    (channel : List (Message E X L)) (next : Active S E F X L × Host S E F X L W) : Prop where
  | lost (lost : next.1.runtime = .lost) (crashed : aside.crash? ≠ none)
  | abreast {worker : Worker S E F X L} (abreast : Abreast p aside next.1 next.2 worker .draining)
      (outbox : next.2.outbox = sent) (channel : next.1.channel = channel)

theorem resume_continues (machine : worker.machine = p.machine) (alike : host.Alike aside)
    (line : (a.incoming ++ host.outbox).foldl queueUp worker.queue = p.backlog)
    (unchanged : ∀ change, .configure change ∉ a.channel) :
    Continues p { aside with outbox := [] } aside.outbox a.channel (a.resume worker false host) := by
  cases crash : host.crash? with
  | some length =>
    have crashed := alike.crashed
    rw [crash] at crashed
    refine .lost ?_ (Option.isSome_iff_ne_none.mp crashed)
    unfold resume
    rw [crash]
  | none =>
    have resumed : a.resume worker false host =
        ({ a with runtime := .running worker .draining false, published? := worker.machine.current? }, host) := by
      unfold resume
      rw [crash]
    rw [resumed]
    exact .abreast ⟨rfl, by simp, machine, alike.clear, crash, line, unchanged, fun working => by cases working⟩
      alike.outbox.symm rfl

structure Rested (p : Passive S E F X L) (aside : Host S E F X L W) (a : Active S E F X L) (host : Host S E F X L W)
    (worker : Worker S E F X L) : Prop where
  stands : a.runtime = .stopped worker ∨ ∃ phase, phase ≠ .starting ∧ a.runtime = .running worker phase true
  machine : worker.machine = p.machine
  alike : host.Alike aside
  empty : worker.queue = []
  quiet : host.outbox = []

theorem Rested.stopping (rested : Rested p aside a host worker) {worker' : Worker S E F X L} {stopping : Bool}
    (stands : a.runtime = .running worker' phase stopping) : worker' = worker ∧ phase ≠ .starting ∧ stopping = true := by
  rcases rested.stands with stopped | ⟨phase', begun, runs⟩
  · rw [stopped] at stands
    cases stands
  · rw [runs] at stands
    cases stands
    exact ⟨rfl, begun, rfl⟩

section Step

variable [DecidableEq S] [DecidableEq E] {p₀ : Passive S E F X L} {aside₀ : Host S E F X L W} {n : Nat}
  {log : List (Affair E)}

theorem Abreast.fire (abreast : Abreast p aside a host worker .working) (waits : worker.queue = signal :: queue)
    (working : p.Working) (advances : p₀.Advances b aside₀ n log p aside) :
    ∃ sent p' aside', p₀.Advances b aside₀ (n + 1) (log ++ .fired signal :: sent.map .posted) p' aside' ∧
      Continues p' aside' sent a.channel (a.fireNext b { worker with queue := queue } false signal host) := by
  obtain ⟨noneCome, quiet⟩ := abreast.looked rfl
  have line := abreast.line
  rw [noneCome, quiet] at line
  have alike := (abreast.alike.of_clear quiet).trans (p.drain_alike aside)
  obtain ⟨done, done', fires, fires', same⟩ := p.machine.fire_alike b alike working.ready working.entered signal
  refine ⟨_, _, _, advances.round (line.symm.trans waits) fires', ?_⟩
  unfold fireNext
  simp only [abreast.machine, fires]
  refine resume_continues same.machine.symm same.host ?_ abreast.unchanged
  rw [noneCome, List.nil_append, Passive.backlog, same.host.outbox]

theorem Poised.begin (poised : Poised p aside a host worker) (ready : p.machine.isInitialized) (inStep : p.InStep) :
    ∃ sent p' aside', p.Advances b aside 0 (sent.map .posted) p' aside' ∧
      Continues p' aside' sent a.channel (a.beginRun b worker false host) := by
  have started : host.Alike (worker.machine.announce .started host) := Host.alike_announce rfl _ _
  have alike := (started.symm.trans poised.alike).trans (p.drain_alike aside)
  have line : (a.incoming ++ (worker.machine.announce .started host).outbox).foldl queueUp worker.queue = p.backlog := by
    rw [started.outbox, poised.quiet, List.append_nil]
    exact poised.line
  unfold beginRun
  cases pending : p.pending with
  | false =>
    refine ⟨[], _, _, .entered pending, ?_⟩
    simp only [poised.pending, pending, Bool.false_eq_true, if_false, Passive.drain_fst]
    exact .abreast ⟨rfl, by simp, poised.machine, alike.cleared (started.outbox.trans poised.quiet),
      started.alive poised.alive, line, poised.unchanged, fun working => by cases working⟩
      (started.outbox.trans poised.quiet) rfl
  | true =>
    have unentered : p.machine.hasEntered = false := by
      unfold Passive.InStep at inStep
      rw [pending, ready, Bool.true_and] at inStep
      simpa using inStep.symm
    obtain ⟨done, done', enters, enters', same⟩ := p.machine.enterInitialState_alike b alike ready unentered
    refine ⟨_, _, _, .enter pending enters', ?_⟩
    rw [← poised.machine] at enters
    simp only [poised.pending, pending, if_true, enters]
    refine resume_continues same.machine.symm same.host ?_ poised.unchanged
    rw [List.foldl_append, poised.line]
    exact congrArg (·.foldl queueUp p.backlog) same.host.outbox.symm

theorem Rested.turn [DecidableEq X] (rested : Rested p aside a host worker) (turned : a.Turn b host deeds a' host') :
    affairs deeds = [] ∧ Rested p aside a' host' worker := by
  cases turned with
  | deliver sent =>
    rw [rested.quiet] at sent
    cases sent
  | begin _ stands => exact absurd rfl (rested.stopping stands).2.1
  | take _ stands => cases (rested.stopping stands).2.2
  | look _ stands =>
    obtain ⟨rfl, _, rfl⟩ := rested.stopping stands
    exact ⟨rfl, .inr ⟨.working, by simp, rfl⟩, rested.machine, rested.alike, rested.empty, rested.quiet⟩
  | fire _ stands waits =>
    obtain ⟨rfl, _, _⟩ := rested.stopping stands
    rw [rested.empty] at waits
    cases waits
  | @finish stopped _ stands =>
    obtain ⟨rfl, _, _⟩ := rested.stopping stands
    have heard : host.Alike (stopped.machine.announce .stopped host) := Host.alike_announce rfl _ _
    exact ⟨rfl, .inl rfl, rested.machine, heard.symm.trans rested.alike, rested.empty, heard.outbox.trans rested.quiet⟩

end Step

end Active

end Statechart
