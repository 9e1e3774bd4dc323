import Statechart.Active
import Statechart.Proofs.Machine.Phase

namespace Statechart

structure Observers (X L : Type) where
  extensions : List (Extension X)
  subscribers : List (Subscriber L)

def Machine.observers {S E F X L : Type} (m : Machine S E F X L) : Observers X L := ⟨m.extensions, m.subscribers⟩

def Change.observe {X L : Type} [DecidableEq X] (change : Change X L) (o : Observers X L) : Observers X L :=
  match change with
  | addExtension extension => { o with extensions := o.extensions ++ [extension] }
  | removeExtension extension => { o with extensions := o.extensions.filter fun other => other ≠ extension }
  | clearExtensions => { o with extensions := [] }
  | subscribe subscriber => { o with subscribers := o.subscribers ++ [subscriber] }
  | keep => o

/-- What happens to the messages for a worker. They are put into its channel from many sides; the rest the worker
    does itself. -/
inductive Deed (E X L : Type) where
  | put (message : Message E X L)
  | began (observers : Observers X L)
  | took (message : Message E X L)
  | fired (signal : Signal E) (observers : Observers X L)
  | ended

variable {S E F X L W : Type}

theorem Change.observers_apply [DecidableEq X] (change : Change X L) (m : Machine S E F X L) :
    (change.apply m).observers = change.observe m.observers := by
  cases change <;> rfl

theorem Machine.Resembles.observers {m m' : Machine S E F X L} (alike : m.Resembles m') :
    m'.observers = m.observers := by
  obtain ⟨_, _, rfl⟩ := alike
  rfl

namespace Active

variable {b : Behaviour S E F X W} {a a' a'' : Active S E F X L} {host host' host'' : Host S E F X L W}
  {worker : Worker S E F X L} {phase : Phase} {stopping : Bool} {signal : Signal E} {deeds : List (Deed E X L)}

theorem resume_kept (kept : (a.resume worker stopping host).1.runtime ≠ .lost) :
    host.crash? = none ∧ a.resume worker stopping host =
      ({ a with runtime := .running worker .draining stopping, published? := worker.machine.current? }, host) := by
  unfold resume at kept ⊢
  cases crash : host.crash? with
  | none => exact ⟨rfl, rfl⟩
  | some length =>
    rw [crash] at kept
    exact absurd rfl kept

section Running

variable [DecidableEq S] [DecidableEq E]

omit [DecidableEq E] in
theorem beginRun_publishes (kept : (a.beginRun b worker stopping host).1.runtime ≠ .lost) :
    ∃ machine published?, worker.machine.Resembles machine ∧
      (published? = machine.current? ∨ published? = a.published? ∧ machine = worker.machine) ∧
      (a.beginRun b worker stopping host).1 =
        { a with runtime := .running { worker with machine := machine, pending := false } .draining stopping,
                 published? := published? } := by
  unfold beginRun at kept ⊢
  simp only at kept ⊢
  cases pending : worker.pending with
  | false =>
    refine ⟨worker.machine, a.published?, .refl _, .inr ⟨rfl, rfl⟩, ?_⟩
    rw [if_neg (by simp), ← pending]
  | true =>
    simp only [pending, if_true] at kept ⊢
    cases entered : worker.machine.enterInitialState b (worker.machine.announce .started host) with
    | error error =>
      simp only [entered] at kept ⊢
      rw [(resume_kept kept).2]
      exact ⟨worker.machine, _, .refl _, .inl rfl, rfl⟩
    | ok done =>
      simp only [entered] at kept ⊢
      rw [(resume_kept kept).2]
      exact ⟨done.machine, _, (Machine.enterInitialState_resembles entered).1, .inl rfl, rfl⟩

omit [DecidableEq E] in
theorem beginRun_kept (kept : (a.beginRun b worker stopping host).1.runtime ≠ .lost) :
    ∃ machine published?, worker.machine.Resembles machine ∧ (a.beginRun b worker stopping host).1 =
      { a with runtime := .running { worker with machine := machine, pending := false } .draining stopping,
               published? := published? } := by
  obtain ⟨machine, published?, alike, _, begun⟩ := beginRun_publishes kept
  exact ⟨machine, published?, alike, begun⟩

theorem fireNext_publishes (kept : (a.fireNext b worker stopping signal host).1.runtime ≠ .lost) :
    ∃ machine, worker.machine.Resembles machine ∧ (a.fireNext b worker stopping signal host).1 =
      { a with runtime := .running { worker with machine := machine } .draining stopping,
               published? := machine.current? } := by
  unfold fireNext at kept ⊢
  cases fired : worker.machine.fire b signal host with
  | error error =>
    simp only [fired] at kept ⊢
    rw [(resume_kept kept).2]
    exact ⟨worker.machine, .refl _, rfl⟩
  | ok done =>
    simp only [fired] at kept ⊢
    rw [(resume_kept kept).2]
    exact ⟨done.machine, (Machine.fire_resembles fired).2.2.1, rfl⟩

theorem fireNext_kept (kept : (a.fireNext b worker stopping signal host).1.runtime ≠ .lost) :
    ∃ machine published?, worker.machine.Resembles machine ∧ (a.fireNext b worker stopping signal host).1 =
      { a with runtime := .running { worker with machine := machine } .draining stopping,
               published? := published? } := by
  obtain ⟨machine, alike, fired⟩ := fireNext_publishes kept
  exact ⟨machine, _, alike, fired⟩

variable [DecidableEq X]

/-- The turns of an active machine, by what they do: they put what guards and actions sent into the channel, begin
    a run, take a message, look up from an intake that is over, fire a signal, or end the run. -/
inductive Turn (b : Behaviour S E F X W) (a : Active S E F X L) (host : Host S E F X L W) :
    List (Deed E X L) → Active S E F X L → Host S E F X L W → Prop where
  | deliver {post : Post E} {rest : List (Post E)} (sent : host.outbox = post :: rest) :
      Turn b a host [.put (.post post)] { a with channel := a.channel ++ [.post post] } { host with outbox := rest }
  | begin {worker : Worker S E F X L} {stopping : Bool} (quiet : host.outbox = [])
      (stands : a.runtime = .running worker .starting stopping) :
      Turn b a host [.began worker.machine.observers] (a.beginRun b worker stopping host).1
        (a.beginRun b worker stopping host).2
  | take {worker : Worker S E F X L} {phase : Phase} {message : Message E X L} {rest : List (Message E X L)}
      (quiet : host.outbox = []) (stands : a.runtime = .running worker phase false)
      (looks : phase = .draining ∨ phase = .working ∧ worker.queue = []) (next : a.channel = message :: rest) :
      Turn b a host [.took message] ({ a with channel := rest }.accept worker message host).1
        ({ a with channel := rest }.accept worker message host).2
  | look {worker : Worker S E F X L} {stopping : Bool} (quiet : host.outbox = [])
      (stands : a.runtime = .running worker .draining stopping) (drained : stopping = true ∨ a.channel = []) :
      Turn b a host [] { a with runtime := .running worker .working stopping } host
  | fire {worker : Worker S E F X L} {stopping : Bool} {signal : Signal E} {queue : List (Signal E)}
      (quiet : host.outbox = []) (stands : a.runtime = .running worker .working stopping)
      (waits : worker.queue = signal :: queue) :
      Turn b a host [.fired signal worker.machine.observers]
        (a.fireNext b { worker with queue := queue } stopping signal host).1
        (a.fireNext b { worker with queue := queue } stopping signal host).2
  | finish {worker : Worker S E F X L} (quiet : host.outbox = [])
      (stands : a.runtime = .running worker .working true) (empty : worker.queue = []) :
      Turn b a host [.ended] { a with runtime := .stopped worker } (worker.machine.announce .stopped host)

/-- The rules are those by which an active machine goes on. -/
theorem turn?_eq_some_iff :
    a.turn? b host = some (a', host') ↔ ∃ deeds, Turn b a host deeds a' host' := by
  constructor
  · intro turned
    unfold turn? at turned
    split at turned
    · rename_i post rest sent
      cases turned
      exact ⟨_, .deliver sent⟩
    · rename_i quiet
      unfold workerTurn? at turned
      split at turned
      · rename_i worker stopping stands
        obtain rfl : _ = a' := congrArg Prod.fst (Option.some.inj turned)
        obtain rfl : _ = host' := congrArg Prod.snd (Option.some.inj turned)
        exact ⟨_, .begin quiet stands⟩
      · rename_i worker stopping stands
        cases stopping with
        | true =>
          cases turned
          exact ⟨_, .look quiet stands (.inl rfl)⟩
        | false =>
          split at turned
          · rename_i message rest _ next
            obtain rfl : _ = a' := congrArg Prod.fst (Option.some.inj turned)
            obtain rfl : _ = host' := congrArg Prod.snd (Option.some.inj turned)
            exact ⟨_, .take quiet stands (.inl rfl) next⟩
          · rename_i busy
            cases turned
            refine ⟨_, .look quiet stands (.inr ?_)⟩
            cases next : a.channel with
            | nil => rfl
            | cons message rest => exact (busy message rest rfl next).elim
      · rename_i worker stopping stands
        split at turned
        · rename_i signal queue waits
          obtain rfl : _ = a' := congrArg Prod.fst (Option.some.inj turned)
          obtain rfl : _ = host' := congrArg Prod.snd (Option.some.inj turned)
          exact ⟨_, .fire quiet stands waits⟩
        · rename_i empty
          cases stopping with
          | true =>
            cases turned
            exact ⟨_, .finish quiet stands empty⟩
          | false =>
            simp only [Bool.false_eq_true, if_false] at turned
            split at turned
            · rename_i message rest next
              obtain rfl : _ = a' := congrArg Prod.fst (Option.some.inj turned)
              obtain rfl : _ = host' := congrArg Prod.snd (Option.some.inj turned)
              exact ⟨_, .take quiet stands (.inr ⟨rfl, empty⟩) next⟩
            · cases turned
      · cases turned
      · cases turned
      · cases turned
  · rintro ⟨deeds, turned⟩
    unfold turn?
    cases turned with
    | deliver sent => rw [sent]
    | begin quiet stands => simp only [quiet, workerTurn?, stands]
    | take quiet stands looks next =>
      rcases looks with rfl | ⟨rfl, empty⟩
      · simp only [quiet, workerTurn?, stands, next]
      · simp only [quiet, workerTurn?, stands, empty, next, Bool.false_eq_true, if_false]
    | look quiet stands drained =>
      rcases drained with rfl | drained
      · simp only [quiet, workerTurn?, stands]
      · simp only [quiet, workerTurn?, stands, drained]
    | fire quiet stands waits => simp only [quiet, workerTurn?, stands, waits]
    | finish quiet stands empty => simp only [quiet, workerTurn?, stands, empty, if_true]

theorem waits_of_turn? {worker : Worker S E F X L} {phase : Phase} {stopping : Bool} (stuck : a.turn? b host = none)
    (runs : a.runtime = .running worker phase stopping) :
    phase = .working ∧ stopping = false ∧ worker.queue = [] ∧ a.channel = [] := by
  have stays : ∀ {deeds a' host'}, ¬a.Turn b host deeds a' host' := by
    intro deeds a' host' turned
    rw [turn?_eq_some_iff.mpr ⟨deeds, turned⟩] at stuck
    cases stuck
  cases sent : host.outbox with
  | cons post rest => exact (stays (.deliver sent)).elim
  | nil =>
    cases phase with
    | starting => exact (stays (.begin sent runs)).elim
    | draining =>
      cases stopping with
      | true => exact (stays (.look sent runs (.inl rfl))).elim
      | false =>
        cases next : a.channel with
        | nil => exact (stays (.look sent runs (.inr next))).elim
        | cons message rest => exact (stays (.take sent runs (.inl rfl) next)).elim
    | working =>
      cases waits : worker.queue with
      | cons signal queue => exact (stays (.fire sent runs waits)).elim
      | nil =>
        cases stopping with
        | true => exact (stays (.finish sent runs waits)).elim
        | false =>
          cases next : a.channel with
          | nil => exact ⟨rfl, rfl, rfl, rfl⟩
          | cons message rest => exact (stays (.take sent runs (.inr ⟨rfl, waits⟩) next)).elim

/-- One step of an active machine and those around it. A turn that loses the worker to a crash is none. Anyone may
    send at any time, and code elsewhere may change the world that guards and actions share. While no worker runs,
    its owner may start one, or do with the machine what it likes. -/
inductive Step (b : Behaviour S E F X W) (a : Active S E F X L) (host : Host S E F X L W) :
    List (Deed E X L) → Active S E F X L → Host S E F X L W → Prop where
  | turn {deeds : List (Deed E X L)} {a' : Active S E F X L} {host' : Host S E F X L W}
      (turned : Turn b a host deeds a' host') (kept : a'.runtime ≠ .lost) : Step b a host deeds a' host'
  | send {a' : Active S E F X L} (message : Message E X L) (sent : a.send message = .ok a') :
      Step b a host [.put message] a' host
  | outside (world : W) : Step b a host [] a { host with world := world }
  | start {a' : Active S E F X L} {host' : Host S E F X L W} (started : a.start host = .ok (a', host')) :
      Step b a host [] a' host'
  | own {worker : Worker S E F X L} (stands : a.runtime = .stopped worker) (machine : Machine S E F X L)
      (isInitialized pending : Bool) (host' : Host S E F X L W) :
      Step b a host [] { a with
          isInitialized := isInitialized
          runtime := .stopped { worker with machine := machine, pending := pending } } host'

inductive Steps (b : Behaviour S E F X W) (a : Active S E F X L) (host : Host S E F X L W) :
    List (Deed E X L) → Active S E F X L → Host S E F X L W → Prop where
  | none : Steps b a host [] a host
  | more {deeds deeds' : List (Deed E X L)} {a' a'' : Active S E F X L} {host' host'' : Host S E F X L W}
      (before : Steps b a host deeds a' host') (step : Step b a' host' deeds' a'' host'') :
      Steps b a host (deeds ++ deeds') a'' host''

theorem Steps.trans {deeds' : List (Deed E X L)} (first : a.Steps b host deeds a' host')
    (second : a'.Steps b host' deeds' a'' host'') : a.Steps b host (deeds ++ deeds') a'' host'' := by
  induction second with
  | none => rwa [List.append_nil]
  | more before step ih =>
    rw [← List.append_assoc]
    exact .more ih step

/-- An active machine whose worker is about to begin its first run, with messages sent to it. -/
def starting (m : Machine S E F X L) (messages : List (Message E X L)) : Active S E F X L :=
  { ofMachine m with channel := messages, runtime := .running ⟨m, [], !m.hasEntered⟩ .starting false }

omit [DecidableEq S] [DecidableEq E] [DecidableEq X] in
theorem start_starting {m : Machine S E F X L} (ready : m.isInitialized) (messages : List (Message E X L))
    (host : Host S E F X L W) : ({ ofMachine m with channel := messages } : Active S E F X L).start host =
      .ok (starting m messages, host.log (.startingWorker m.name m.config.threadName)) := by
  simp only [start, starting, ofMachine, ready, Bool.not_true, Bool.true_and, Bool.false_eq_true, if_false]

end Running

end Active

end Statechart
