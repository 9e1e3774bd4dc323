import Statechart.Proofs.Machine.Whereabouts
import Statechart.Proofs.Passive.Safety

namespace Statechart

variable {S E F X L W : Type}

theorem Host.Alike.switches {host host' : Host S E F X L W} (alike : host.Alike host') :
    host'.switches = host.switches := by
  -- no call about the queue tells of a change of state
  have apart (entry : JournalEntry S E F X L) :
      (entry.isSwitch && !entry.isAboutQueue) = entry.isSwitch := by
    cases entry with
    | guard | action | notice => simp [JournalEntry.isAboutQueue]
    | hook extension info hook =>
      cases hook <;> simp [JournalEntry.isAboutQueue, Hook.isAboutQueue, JournalEntry.isSwitch, JournalEntry.stage?,
        Hook.stage?]
    | log line =>
      cases line with
      | extensionCalled info hook =>
        cases hook <;> simp [JournalEntry.isAboutQueue, LogLine.isAboutQueue, Hook.isAboutQueue, JournalEntry.isSwitch,
          JournalEntry.stage?, LogLine.stage?, Hook.stage?]
      | _ => simp [JournalEntry.isAboutQueue, LogLine.isAboutQueue, JournalEntry.isSwitch, JournalEntry.stage?,
        LogLine.stage?]
  have among (host : Host S E F X L W) : host.switches = host.doings.filter JournalEntry.isSwitch := by
    unfold Host.switches Host.doings
    rw [List.filter_filter]
    congr 1
    funext entry
    exact (apart entry).symm
  rw [among, among, alike.doings]

namespace Passive

variable [DecidableEq S] [DecidableEq E] {watcher : Extension X} {b : Behaviour S E F X W} {n rounds : Nat}
  {p p' : Passive S E F X L} {host host' : Host S E F X L W} {log : List (Affair E)} {answer : Answer S E F X L W}
  {asked : Request S E}

theorem Advances.wellFormed (wf : p.machine.WellFormed) (advances : p.Advances b host n log p' host') :
    p'.machine.WellFormed := by
  induction advances with
  | entered entered =>
    rw [drain_fst]
    exact wf
  | enter pending enters =>
    obtain ⟨ready, _, moved, _⟩ := Machine.enterInitialState_ok wf enters
    exact wf.moves ready moved
  | round before waits fires ih =>
    obtain ⟨ready, _, moved, _⟩ := Machine.fire_ok ih fires
    exact ih.moves ready moved

theorem Executes.wellFormed (wf : p.machine.WellFormed) (executes : p.Executes b host log answer) :
    answer.passive.machine.WellFormed := by
  cases executes with
  | stopped | blocked => exact wf
  | works running advances ends =>
    rw [ends.kept.1]
    exact advances.wellFormed wf

theorem Handles.wellFormed (wf : p.machine.WellFormed) (handles : p.Handles b host asked log answer) :
    answer.passive.machine.WellFormed := by
  cases handles with
  | initializeAt initializes executes => exact executes.wellFormed (wf.initializeAt initializes)
  | refused | send | started | unready => exact wf
  | submit executes =>
    apply executes.wellFormed
    rw [enqueue_fst]
    exact wf
  | start stopped ready executes =>
    apply executes.wellFormed
    exact wf
  | stop =>
    unfold Passive.stop
    split <;> exact wf

omit [DecidableEq S] [DecidableEq E] in
theorem drain_wanders (watched : watcher ∈ p.machine.extensions) :
    p.machine.Wanders watcher host p.machine (p.drain host).2 := .rest watched (p.drain_alike host).switches

theorem Advances.wanders (wf : p.machine.WellFormed) (watched : watcher ∈ p.machine.extensions)
    (advances : p.Advances b host n log p' host') : p.machine.Wanders watcher host p'.machine host' := by
  induction advances with
  | entered entered =>
    rw [drain_fst]
    exact drain_wanders watched
  | enter pending enters =>
    have entered := (drain_wanders watched).trans (Machine.enterInitialState_wanders watched enters)
    exact ⟨entered.watched, entered.name, entered.ready, entered.told⟩
  | round before waits fires ih =>
    have drained := ih.trans (drain_wanders ih.watched)
    have fired := drained.trans (Machine.fire_wanders (before.wellFormed wf) ih.watched fires)
    exact ⟨fired.watched, fired.name, fired.ready, fired.told⟩

theorem Executes.wanders (wf : p.machine.WellFormed) (watched : watcher ∈ p.machine.extensions)
    (executes : p.Executes b host log answer) : p.machine.Wanders watcher host answer.passive.machine answer.host := by
  cases executes with
  | stopped stopped => exact drain_wanders watched
  | blocked running pending blocked => exact drain_wanders watched
  | works running advances ends =>
    have worked := advances.wanders wf watched
    have ended := worked.trans (drain_wanders worked.watched)
    cases ends with
    | idle => exact ended
    | refused => exact ended

theorem Handles.wanders (wf : p.machine.WellFormed) (watched : watcher ∈ p.machine.extensions)
    (handles : p.Handles b host asked log answer) :
    p.machine.Wanders watcher host answer.passive.machine answer.host := by
  cases handles with
  | initializeAt initializes executes =>
    have initialized := Machine.initializeAt_wanders watched initializes
    exact initialized.trans (executes.wanders (wf.initializeAt initializes) initialized.watched)
  | refused | send | started | unready => exact .rest watched rfl
  | @submit post _ _ executes =>
    rw [enqueue_fst] at executes
    have queued : p.machine.Wanders watcher host p.machine (p.enqueue post host).2 :=
      .rest watched enqueue_alike.switches
    exact queued.trans (Executes.wanders (p := { p with queue := queueUp p.queue post }) wf watched executes)
  | start stopped ready executes =>
    have began : p.machine.Wanders watcher host p.machine (p.machine.announce .started host) :=
      .rest watched (Machine.switches_announce rfl _ _)
    exact began.trans (Executes.wanders (p := { p with running := true }) wf watched executes)
  | stop =>
    unfold Passive.stop
    split
    · exact .rest watched (Machine.switches_announce rfl _ _)
    · exact .rest watched rfl

variable [DecidableEq X] {errand : Errand S E F X L} {errands : List (Errand S E F X L)}

theorem attend_wellFormed (wf : p.machine.WellFormed) (attended : p.attend b rounds host errand = some (p', host')) :
    p'.machine.WellFormed := by
  cases errand with
  | ask request =>
    obtain ⟨answer, requested, same⟩ := Option.map_eq_some_iff.mp attended
    cases same
    obtain ⟨log, handles⟩ := handles_of_request requested
    exact handles.wellFormed wf
  | call call =>
    cases attended
    exact Run.call_wellFormed b (r := ⟨p.machine, host, []⟩) wf call

theorem attendAll_wellFormed (wf : p.machine.WellFormed)
    (attended : p.attendAll b rounds host errands = some (p', host')) : p'.machine.WellFormed := by
  induction errands using List.reverseRec generalizing p' host' with
  | nil =>
    cases attended
    exact wf
  | append_singleton errands errand ih =>
    obtain ⟨q, h, before, last⟩ := attendAll_snoc attended
    exact attend_wellFormed (ih before) last

theorem attend_wanders (wf : p.machine.WellFormed) (watched : watcher ∈ p.machine.extensions)
    (spares : ∀ change, errand = .call (.configure change) → change.Spares watcher)
    (loads : p.machine.isInitialized ∨ ∀ c, errand = .call (.load c) → c.current? = none)
    (attended : p.attend b rounds host errand = some (p', host')) :
    p.machine.Wanders watcher host p'.machine host' := by
  cases errand with
  | ask request =>
    obtain ⟨answer, requested, same⟩ := Option.map_eq_some_iff.mp attended
    cases same
    obtain ⟨log, handles⟩ := handles_of_request requested
    exact handles.wanders wf watched
  | call call =>
    cases attended
    have called := Run.call_wanders (r := ⟨p.machine, host, []⟩) b wf watched call
      (fun change same => spares change (congrArg Errand.call same)) ?_
    · exact ⟨called.watched, called.name, called.ready, called.told⟩
    · rintro unready c rfl
      have saved := loads.resolve_left (by simp [unready])
      exact Run.call_load_nowhere wf unready (saved c rfl)

theorem attendAll_wanders (wf : p.machine.WellFormed) (watched : watcher ∈ p.machine.extensions)
    (spares : ∀ change, .call (.configure change) ∈ errands → change.Spares watcher)
    (loads : p.machine.isInitialized ∨ ∀ c, .call (.load c) ∈ errands → c.current? = none)
    (attended : p.attendAll b rounds host errands = some (p', host')) :
    p.machine.Wanders watcher host p'.machine host' := by
  induction errands using List.reverseRec generalizing p' host' with
  | nil =>
    cases attended
    exact .rest watched rfl
  | append_singleton errands errand ih =>
    obtain ⟨q, h, before, last⟩ := attendAll_snoc attended
    have earlier := ih (fun change member => spares change (List.mem_append_left _ member))
      (loads.imp_right fun saved c member => saved c (List.mem_append_left _ member)) before
    refine earlier.trans (attend_wanders (attendAll_wellFormed wf before) earlier.watched ?_ ?_ last)
    · rintro change rfl
      exact spares change (List.mem_append_right _ List.mem_cons_self)
    · refine loads.imp earlier.ready ?_
      rintro saved c rfl
      exact saved c (List.mem_append_right _ List.mem_cons_self)

/-- What an extension is told of where its machine stands, from any moment at which it is registered and for as long as
    it is not removed. The changes it is told of lead from the state that the machine stood in then to the one that it
    stands in now, each to another state. In an operation they are told after all code was run and before the operation
    is reported as done. An operation that leaves the state as it was tells of none, and neither an event that is
    declined nor an internal transition changes the state. -/
theorem attendAll_switches (config : Config) (start : Host S E F X L W) (b : Behaviour S E F X W) (rounds : Nat)
    (before after : List (Errand S E F X L)) (watcher : Extension X)
    (attended : (ofMachine (.ofConfig config)).attendAll b rounds start before = some (p, host))
    (registered : watcher ∈ p.machine.extensions)
    (spares : ∀ change, .call (.configure change) ∈ after → change.Spares watcher)
    (loads : p.machine.isInitialized ∨ ∀ c, .call (.load c) ∈ after → c.current? = none)
    (goesOn : p.attendAll b rounds host after = some (p', host')) :
    (∃ switches : List (Switched S X), Chain p.machine.current? switches p'.machine.current? ∧
      host'.switches = host.switches ++ switches.flatMap (Switched.notes p.machine.name) ∧
      (∀ switched ∈ switches, watcher ∈ switched.audience) ∧
      ∀ extension, host'.switchesOf extension = host.switchesOf extension ++ switches.flatMap fun switched =>
        List.replicate (switched.audience.count (.custom extension)) (switched.old?, switched.new)) ∧
    (∀ signal aside done, p'.machine.fire b signal aside = .ok done → ∃ current reached,
      p'.machine.current? = some current ∧ done.machine.current? = some reached ∧
      aside.InStages done.host (p'.machine.switch reached) ∧
      (reached = current → done.host.switches = aside.switches) ∧
      ((∀ transition ∈ (p'.machine.choose b current signal aside).1, transition.target? = none) → reached = current)) ∧
    (∀ aside done, p'.machine.enterInitialState b aside = .ok done → ∃ leaf, done.machine.current? = some leaf ∧
      aside.InStages done.host (p'.machine.switch leaf)) := by
  have wf : p.machine.WellFormed := attendAll_wellFormed (Machine.wellFormed_ofConfig config) attended
  have wf' := attendAll_wellFormed wf goesOn
  refine ⟨?_, ?_, ?_⟩
  · exact (attendAll_wanders wf registered spares loads goesOn).tells
  · exact fun signal aside done fired => wf'.fire_stages fired
  · exact fun aside done entered => Machine.enterInitialState_inStages entered

/-- The extension hears that the lamp is off and then on. That the lamp is told to turn while it is off changes
    nothing. -/
theorem attendAll_switches_lamp :
    let setup := (Lamp.explanation.take 2).map Errand.call ++ [.ask (.initializeAt .off)]
    let use : List (Errand Lamp Switch Unit Unit Unit) :=
      [.ask .start, .ask (.submit ⟨⟨.turn, []⟩, false⟩), .ask (.submit ⟨⟨.toggle, []⟩, false⟩)]
    ∃ p host p' host' switches,
      (ofMachine (.ofConfig .standard)).attendAll Lamp.jammed 9 (.ofWorld ()) setup = some (p, host) ∧
      p.attendAll Lamp.jammed 9 host use = some (p', host') ∧ Chain none switches (some Lamp.on) ∧
      host'.switchesOf () = [(none, .off), (some .off, .on)] ∧
      host'.switchesOf () = host.switchesOf () ++ switches.flatMap fun switched =>
        List.replicate (switched.audience.count (.custom ())) (switched.old?, switched.new) := by
  intro setup use
  have attended : ((ofMachine (.ofConfig .standard)).attendAll Lamp.jammed 9 (.ofWorld ()) setup).any (fun between =>
      between.1.machine.extensions = [.custom ()] ∧ between.1.machine.isInitialized ∧
        between.1.machine.current? = none ∧ (between.1.attendAll Lamp.jammed 9 between.2 use).any fun result =>
          result.1.machine.current? = some .on ∧ result.2.switchesOf () = [(none, .off), (some .off, .on)]) = true := by
    decide +kernel
  obtain ⟨⟨p, host⟩, before, holds⟩ := (Option.any_eq_true _ _).mp attended
  obtain ⟨extensions, ready, stood, goes⟩ := of_decide_eq_true holds
  obtain ⟨⟨p', host'⟩, after, ended⟩ := (Option.any_eq_true _ _).mp goes
  obtain ⟨stands, told⟩ := of_decide_eq_true ended
  have registered : Extension.custom () ∈ p.machine.extensions := extensions ▸ List.mem_singleton_self _
  obtain ⟨⟨switches, chain, _, _, heard⟩, _⟩ := attendAll_switches .standard (.ofWorld ()) Lamp.jammed 9 setup use
    (.custom ()) before registered (by simp [use]) (.inl ready) after
  rw [stood, stands] at chain
  exact ⟨p, host, p', host', switches, before, after, chain, told, heard ()⟩

end Passive

end Statechart
