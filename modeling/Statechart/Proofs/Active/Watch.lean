import Statechart.Proofs.Active.Faithful
import Statechart.Proofs.Machine.Whereabouts

namespace Statechart

variable {S E F X L W : Type}

/-- No checkpoint of a machine that stood in a state was loaded past the owner. -/
def Touch.Spares (touch : Touch S E F X L) : Prop := touch.before.isInitialized ∨ touch.after.current? = none

namespace Active

variable [DecidableEq S] [DecidableEq E] [DecidableEq X] {b : Behaviour S E F X W}
  {a a' : Active S E F X L} {host host' start : Host S E F X L W} {worker worker' : Worker S E F X L}
  {touches : List (Touch S E F X L)} {deeds : List (Deed E X L)} {watcher : Extension X}

/-- What an act comes to for the machine inside and for those who watch it: a single call. -/
def Comes (b : Behaviour S E F X W) (touches : List (Touch S E F X L)) (worker : Worker S E F X L)
    (host : Host S E F X L W) (worker' : Worker S E F X L) (host' : Host S E F X L W) : Prop :=
  ∃ (call : Call S E F X L) (aside : Host S E F X L W), aside.switches = host.switches ∧
    let r := Run.call b ⟨worker.machine, aside, []⟩ call
    worker'.machine = r.machine ∧ host'.switches = r.host.switches ∧
      ∀ c, call = .load c → touches = [⟨worker.machine, r.machine⟩]

theorem Comes.configure {change : Change X L} (machine : worker'.machine = change.apply worker.machine)
    (silent : host'.switches = host.switches) : Comes b touches worker host worker' host' :=
  ⟨.configure change, host, rfl, machine, silent, fun _ loads => by cases loads⟩

theorem Comes.still (machine : worker'.machine = worker.machine) (silent : host'.switches = host.switches) :
    Comes b touches worker host worker' host' :=
  .configure (show _ = Change.apply .keep worker.machine from machine) silent

theorem Comes.operation {stopping : Bool} {next : Worker S E F X L} {aside : Host S E F X L W}
    (call : Call S E F X L) (other : ∀ c, call ≠ .load c) (silent : aside.switches = host.switches)
    (machine : next.machine = (Run.call b ⟨worker.machine, aside, []⟩ call).machine)
    {entries : List (JournalEntry S E F X L)} (unstaged : ∀ entry ∈ entries, entry.stage? = none)
    (owns : (a.resume next stopping
      ((Run.call b ⟨worker.machine, aside, []⟩ call).host.writeAll entries)).1.worker? = some worker') :
    Comes b touches worker host worker' (a.resume next stopping
      ((Run.call b ⟨worker.machine, aside, []⟩ call).host.writeAll entries)).2 := by
  rw [(resume_kept (kept_of_worker? owns)).2]
  obtain ⟨rfl, _⟩ := resume_owned owns
  exact ⟨call, aside, silent, machine, Machine.switches_writeAll unstaged, fun c loads => absurd loads (other c)⟩

theorem Turn.comes (turned : a.Turn b host deeds a' host') (owned : a.worker? = some worker)
    (owns : a'.worker? = some worker') : Comes b touches worker host worker' host' := by
  unfold worker? at owned
  have announced (m : Machine S E F X L) {hook : Hook S E} (unstaged : hook.stage? = none) :
      (m.announce hook host).switches = host.switches := Machine.switches_announce unstaged m host
  cases turned with
  | deliver sent =>
    obtain rfl := Option.some.inj (owned.symm.trans owns)
    exact .still rfl rfl
  | begin quiet stands =>
    rw [stands] at owned
    cases owned
    cases pending : worker.pending with
    | false =>
      -- no entry is owed, so the turn only says that a run begins
      unfold beginRun at owns ⊢
      simp only [pending, Bool.false_eq_true, if_false] at owns ⊢
      cases owns
      exact .still rfl (announced _ rfl)
    | true =>
      obtain ⟨error?, begun⟩ := beginRun_eq pending b a _ host
      rw [begun] at owns ⊢
      refine .operation .enterInitialState (by simp) (announced _ rfl) rfl ?_ owns
      simp [JournalEntry.stage?, LogLine.stage?]
  | @take _ _ message rest quiet stands looks next =>
    rw [stands] at owned
    cases owned
    cases message with
    | post post =>
      cases owns
      refine .still rfl (announced _ ?_)
      split <;> rfl
    | configure change =>
      cases owns
      exact .configure rfl rfl
    | stop =>
      cases owns
      exact .still rfl rfl
  | look quiet stands drained =>
    rw [stands] at owned
    cases owned
    cases owns
    exact .still rfl rfl
  | @fire worker stopping signal queue quiet stands waits =>
    rw [stands] at owned
    cases owned
    obtain ⟨error?, fired⟩ := fireNext_eq b a { worker with queue := queue } stopping signal host
    rw [fired] at owns ⊢
    refine .operation (.fire signal) (by simp) rfl rfl ?_ owns
    simp [JournalEntry.stage?, LogLine.stage?]
  | finish quiet stands empty =>
    rw [stands] at owned
    cases owned
    cases owns
    exact .still rfl (announced _ rfl)

theorem Act.comes (act : a.Act b host touches a' host') (owns : a'.worker? = some worker') :
    ∃ worker, a.worker? = some worker ∧ Comes b touches worker host worker' host' := by
  have logged (line : LogLine S E) (unstaged : line.stage? = none) : (host.log line).switches = host.switches :=
    Machine.switches_writeAll (List.forall_mem_singleton.mpr unstaged)
  cases act with
  | turn turned =>
    obtain ⟨worker, owned, _⟩ := turn?_undisturbed turned owns
    obtain ⟨_, turned⟩ := turn?_eq_some_iff.mp turned
    exact ⟨worker, owned, turned.comes owned owns⟩
  | send message sent => exact ⟨worker', (send_undisturbed sent owns).1, .still rfl rfl⟩
  | outside world => exact ⟨worker', owns, .still rfl rfl⟩
  | initializeAt s initialized =>
    obtain ⟨worker, machine, stands, accepted, rfl⟩ := initializeAt_accepted initialized
    cases owns
    refine ⟨worker, by rw [worker?, stands], .initializeAt s, host, rfl, ?_, ?_, fun _ loads => by cases loads⟩
    · rw [Run.call_initializeAt_eq, accepted]
      rfl
    · rw [Run.call_initializeAt_eq, accepted]
      rfl
  | start started =>
    unfold Active.start at started
    split at started
    · cases started
    · split at started
      · rename_i worker stands
        cases started
        cases owns
        exact ⟨worker', by rw [worker?, stands], .still rfl (logged _ rfl)⟩
      · cases started
        exact ⟨worker', owns, .still rfl rfl⟩
      · cases started
        exact ⟨worker', owns, .still rfl rfl⟩
      · cases started
  | configure change configured =>
    unfold Active.configure at configured
    split at configured
    · rename_i worker stands
      unfold withMachine at configured
      rw [stands] at configured
      cases configured
      cases owns
      exact ⟨worker, by rw [worker?, stands], .configure rfl rfl⟩
    · exact ⟨worker', (send_undisturbed configured owns).1, .still rfl rfl⟩
    · cases configured
    · cases configured
  | joined stands => exact ⟨worker', owns, .still rfl (logged _ rfl)⟩
  | buried lost => cases owns
  | @reach worker stands call r called =>
    cases owns
    subst called
    exact ⟨worker, by rw [worker?, stands], call, host, rfl, rfl, rfl, fun _ _ => rfl⟩

theorem Comes.wellFormed (comes : Comes b touches worker host worker' host') (wf : worker.machine.WellFormed) :
    worker'.machine.WellFormed := by
  obtain ⟨call, aside, _, machine, _⟩ := comes
  rw [machine]
  exact Run.call_wellFormed b (r := ⟨worker.machine, aside, []⟩) wf call

theorem Acts.wellFormed {m : Machine S E F X L} (wf : m.WellFormed) (acts : (ofMachine m).Acts b start touches a host)
    (owns : a.worker? = some worker) : worker.machine.WellFormed := by
  induction acts generalizing worker with
  | none =>
    cases owns
    exact wf
  | more before act ih =>
    obtain ⟨earlier, owned, comes⟩ := act.comes owns
    exact comes.wellFormed (ih owned)

theorem Comes.wanders (comes : Comes b touches worker host worker' host') (wf : worker.machine.WellFormed)
    (watched : watcher ∈ worker.machine.extensions) (remains : watcher ∈ worker'.machine.extensions)
    (spares : ∀ touch ∈ touches, touch.Spares) : worker.machine.Wanders watcher host worker'.machine host' := by
  obtain ⟨call, aside, same, machine, told, loads⟩ := comes
  rw [machine] at remains ⊢
  have called := Run.call_wanders (r := ⟨worker.machine, aside, []⟩) b wf watched call ?_ ?_
  · obtain ⟨switches, chain, written, audience⟩ := called.told
    refine ⟨called.watched, called.name, called.ready, switches, chain, ?_, audience⟩
    rw [told, written, same]
  · rintro change rfl
    exact Change.spares_of_registered remains
  · rintro unready c rfl
    have spared := spares _ ((loads c rfl).symm ▸ List.mem_cons_self)
    exact spared.resolve_left (by simp [unready])

inductive Watched (watcher : Extension X) (b : Behaviour S E F X W) (a : Active S E F X L) (host : Host S E F X L W) :
    Active S E F X L → Host S E F X L W → Prop where
  | none : Watched watcher b a host a host
  | more {touches : List (Touch S E F X L)} {a' a'' : Active S E F X L} {host' host'' : Host S E F X L W}
      (before : Watched watcher b a host a' host') (act : Act b a' host' touches a'' host'')
      (remains : ∀ worker, a''.worker? = some worker → watcher ∈ worker.machine.extensions)
      (spares : ∀ touch ∈ touches, touch.Spares) : Watched watcher b a host a'' host''

theorem Watched.wanders (owned : ∀ worker, a.worker? = some worker → worker.machine.WellFormed ∧
      watcher ∈ worker.machine.extensions) (goesOn : a.Watched watcher b host a' host')
    (owns : a'.worker? = some worker') : worker'.machine.WellFormed ∧ ∃ worker, a.worker? = some worker ∧
      worker.machine.Wanders watcher host worker'.machine host' := by
  induction goesOn generalizing worker' with
  | none =>
    obtain ⟨wf, watched⟩ := owned worker' owns
    exact ⟨wf, worker', owns, .rest watched rfl⟩
  | more before act remains spares ih =>
    obtain ⟨middle, held, comes⟩ := act.comes owns
    obtain ⟨wf, worker, first, wandered⟩ := ih held
    have goesOn := comes.wanders wf wandered.watched (remains worker' owns) spares
    exact ⟨comes.wellFormed wf, worker, first, wandered.trans goesOn⟩

/-- What an extension of an active machine is told of where the machine stands, whoever sends, and whatever the worker
    and its owner do. As long as it stays registered, the changes it is told of lead from the state that the machine
    stood in to the one that it stands in, each to another state, and in every operation they are told in their place. -/
theorem watched_switches (config : Config) (before : (ofMachine (.ofConfig config)).Acts b start touches a host)
    (registered : ∀ worker, a.worker? = some worker → watcher ∈ worker.machine.extensions)
    (goesOn : a.Watched watcher b host a' host') (owns : a'.worker? = some worker') :
    ∃ worker, a.worker? = some worker ∧
      (∃ switches : List (Switched S X), Chain worker.machine.current? switches worker'.machine.current? ∧
        host'.switches = host.switches ++ switches.flatMap (Switched.notes worker.machine.name) ∧
        (∀ switched ∈ switches, watcher ∈ switched.audience) ∧
        ∀ extension, host'.switchesOf extension = host.switchesOf extension ++ switches.flatMap fun switched =>
          List.replicate (switched.audience.count (.custom extension)) (switched.old?, switched.new)) ∧
      (∀ signal aside done, worker'.machine.fire b signal aside = .ok done → ∃ current reached,
        worker'.machine.current? = some current ∧ done.machine.current? = some reached ∧
        aside.InStages done.host (worker'.machine.switch reached) ∧
        (reached = current → done.host.switches = aside.switches) ∧
        ((∀ transition ∈ (worker'.machine.choose b current signal aside).1, transition.target? = none) →
          reached = current)) ∧
      (∀ aside done, worker'.machine.enterInitialState b aside = .ok done → ∃ leaf,
        done.machine.current? = some leaf ∧ aside.InStages done.host (worker'.machine.switch leaf)) := by
  obtain ⟨wf, worker, owned, wandered⟩ := goesOn.wanders (fun worker owned =>
    ⟨before.wellFormed (Machine.wellFormed_ofConfig config) owned, registered worker owned⟩) owns
  refine ⟨worker, owned, wandered.tells, ?_, ?_⟩
  · exact fun signal aside done fired => wf.fire_stages fired
  · exact fun aside done entered => Machine.enterInitialState_inStages entered

end Active

end Statechart
