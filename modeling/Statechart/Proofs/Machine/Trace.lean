import Statechart.Machine.Fire
import Statechart.Proofs.Host.Journal

namespace Statechart

variable {S E F X L W : Type}

def JournalEntry.action? : JournalEntry S E F X L → Option (Callable F × Arguments)
  | .action callable arguments _ _ => some (callable, arguments)
  | _ => none

/-- The entry, exit and transition actions called so far, in order. -/
def Host.actions (host : Host S E F X L W) : List (Callable F × Arguments) :=
  host.journal.filterMap JournalEntry.action?

namespace Host

theorem actions_write (host : Host S E F X L W) (entry : JournalEntry S E F X L) :
    (host.write entry).actions = host.actions ++ entry.action?.toList := seen_write JournalEntry.action? host entry

@[simp] theorem actions_log (host : Host S E F X L W) (line : LogLine S E) :
    (host.log line).actions = host.actions := by
  rw [log, actions_write]
  exact List.append_nil _

@[simp] theorem actions_announce (extensions : List (Extension X)) (info : Info S) (hook : Hook S E)
    (host : Host S E F X L W) : (host.announce extensions info hook).actions = host.actions :=
  seen_announce (fun extension => by cases extension <;> rfl) extensions host

@[simp] theorem actions_consult {α : Type} (info : Info S) (question : α → Hook S E)
    (answer : X → α → Option α) (extensions : List (Extension X)) (value : α) (host : Host S E F X L W) :
    (consult info question answer extensions value host).2.actions = host.actions :=
  seen_consult (fun extension _ => by cases extension <;> rfl) answer extensions value host

@[simp] theorem actions_publish (subscribers : List (Subscriber L)) (notice : Notice S E)
    (host : Host S E F X L W) : (host.publish subscribers notice).actions = host.actions :=
  seen_publish (fun _ => rfl) subscribers host

theorem actions_call {α : Type} (run : F → Input → W → Reply E W α)
    (entry : Callable F → Arguments → Outcome α → List (Post E) → JournalEntry S E F X L)
    (callable : Callable F) (arguments : Arguments) (host : Host S E F X L W) (shown : Option (Callable F × Arguments))
    (shows : ∀ outcome sent, (entry callable arguments outcome sent).action? = shown) :
    (call run entry callable arguments host).2.actions = host.actions ++ shown.toList := by
  unfold call
  cases callable.receive arguments with
  | error error => rw [actions_write, shows]
  | ok input =>
    have accepted (reply : Reply E W α) (sent : List (Post E)) :
        (host.accept reply (entry callable arguments reply.outcome sent)).actions =
          (host.write (entry callable arguments reply.outcome sent)).actions := rfl
    rw [accepted, actions_write, shows]

end Host

namespace Machine

variable {F' X' L' W' : Type} [DecidableEq S] {m : Machine S E F X L} {host : Host S E F X L W}

/-- What holds between two hosts holds when both switch states, as long as it may be announced on both. -/
theorem switchTo_related {R : Host S E F X L W → Host S E F' X' L' W' → Prop} {m' : Machine S E F' X' L'}
    {host' : Host S E F' X' L' W'} (stands : m'.current? = m.current?) (related : R host host') (state : S)
    (announced : R ({ m with current? := some state }.announce (.switchedState m.current? state) host)
      ({ m' with current? := some state }.announce (.switchedState m.current? state) host')) :
    R (m.switchTo state host).2 (m'.switchTo state host').2 := by
  unfold switchTo
  simp only [stands]
  split
  · exact related
  · exact announced

theorem switchTo_keeps {P : Host S E F X L W → Prop} (holds : P host) (state : S)
    (announced : ∀ extensions info old?, P (host.announce extensions info (.switchedState old? state))) :
    P (m.switchTo state host).2 := by
  let R : Host S E F X L W → Host S E F X L W → Prop := fun host _ => P host
  have related : R host host := holds
  have switched : R (m.switchTo state host).2 (m.switchTo state host).2 :=
    switchTo_related rfl related state (announced _ _ _)
  exact switched

end Machine

structure Progress.Extends (p q : Progress S E F X L W) (memory : Memory S) (records : List (Record S))
    (actions : List (Callable F × Arguments)) : Prop where
  origin : q.context.origin? = p.context.origin?
  arguments : q.context.arguments = p.context.arguments
  memory : q.memory = memory
  records : q.context.records = p.context.records ++ records
  actions : q.host.actions = p.host.actions ++ actions

namespace Progress.Extends

variable {p q r : Progress S E F X L W} {memory memory' : Memory S} {records records' : List (Record S)}
  {actions actions' : List (Callable F × Arguments)}

theorem refl (p : Progress S E F X L W) : p.Extends p p.memory [] [] :=
  ⟨rfl, rfl, rfl, (List.append_nil _).symm, (List.append_nil _).symm⟩

theorem trans (first : p.Extends q memory records actions) (second : q.Extends r memory' records' actions') :
    p.Extends r memory' (records ++ records') (actions ++ actions') where
  origin := second.origin.trans first.origin
  arguments := second.arguments.trans first.arguments
  memory := second.memory
  records := by rw [second.records, first.records, List.append_assoc]
  actions := by rw [second.actions, first.actions, List.append_assoc]

end Progress.Extends

namespace Machine

variable (b : Behaviour S E F X W) (m : Machine S E F X L)

@[simp] theorem actions_machine_announce (hook : Hook S E) (host : Host S E F X L W) :
    (m.announce hook host).actions = host.actions := Host.actions_announce _ _ _ _

theorem handleException_extends (fault : Fault S E) (exception : Exception) (p : Progress S E F X L W) :
    p.Extends (m.handleException b fault exception p) p.memory [] [] := by
  refine ⟨rfl, rfl, rfl, (List.append_nil _).symm, ?_⟩
  simp [handleException]

theorem perform_extends (fault : Fault S E) (arguments : Arguments) (p : Progress S E F X L W)
    (action : Callable F) : p.Extends (m.perform b fault arguments p action) p.memory [] [(action, arguments)] := by
  have called := Host.actions_call b.action .action action arguments p.host (some (action, arguments)) fun _ _ => rfl
  have ran : p.Extends { p with host := (Host.call b.action .action action arguments p.host).2 } p.memory []
      [(action, arguments)] := ⟨rfl, rfl, rfl, (List.append_nil _).symm, called⟩
  unfold perform
  cases outcome : (Host.call b.action .action action arguments p.host).1 with
  | done answer => simpa only [outcome] using ran
  | crashed => simpa only [outcome] using ran
  | failed exception =>
    simp only [outcome]
    exact ran.trans (m.handleException_extends b fault exception _)

theorem performAll_extends (fault : Fault S E) (arguments : Arguments) (actions : List (Callable F))
    (p : Progress S E F X L W) : p.Extends (m.performAll b fault arguments actions p) p.memory []
      (actions.map fun action => (action, arguments)) := by
  unfold performAll
  induction actions generalizing p with
  | nil => exact .refl p
  | cons action rest ih =>
    have first := m.perform_extends b fault arguments p action
    have others := first.trans (ih (m.perform b fault arguments p action))
    rw [first.memory] at others
    exact others

theorem guardPasses_extends (edge : Edge S E) (guard? : Option (Callable F)) (p : Progress S E F X L W) :
    p.Extends (m.guardPasses b edge guard? p).2 p.memory [] [] := by
  unfold guardPasses
  cases guard? with
  | none => exact .refl p
  | some guard =>
    have called := Host.actions_call b.guard .guard guard p.context.arguments p.host none fun _ _ => rfl
    have ran : p.Extends { p with host := (Host.call b.guard .guard guard p.context.arguments p.host).2 } p.memory
        [] [] := ⟨rfl, rfl, rfl, (List.append_nil _).symm, called⟩
    cases outcome : (Host.call b.guard .guard guard p.context.arguments p.host).1 with
    | done passes => simpa only [outcome] using ran
    | crashed => simpa only [outcome] using ran
    | failed exception =>
      simp only [outcome]
      exact ran.trans (m.handleException_extends b _ exception _)

variable [DecidableEq S]

theorem enter_extends (p : Progress S E F X L W) (s : S) : p.Extends (m.enter b p s) p.memory [⟨.enter, s⟩]
    ((m.forest.node s).entry.map fun action => (action, [])) := by
  have recorded : p.Extends { p with context := p.context.addRecord .enter s } p.memory [⟨.enter, s⟩] [] :=
    ⟨rfl, rfl, rfl, rfl, (List.append_nil _).symm⟩
  exact recorded.trans (m.performAll_extends b _ _ _ _)

theorem exit_extends (p : Progress S E F X L W) (s : S) :
    p.Extends (m.exit b p s) (m.forest.remember p.memory s) [⟨.exit, s⟩]
      ((m.forest.node s).exit.map fun action => (action, [])) := by
  have recorded : p.Extends { p with context := p.context.addRecord .exit s } p.memory [⟨.exit, s⟩] [] :=
    ⟨rfl, rfl, rfl, rfl, (List.append_nil _).symm⟩
  have performed := recorded.trans (m.performAll_extends b (.exit s) [] (m.forest.node s).exit _)
  exact ⟨performed.origin, performed.arguments, congrArg (m.forest.remember · s) performed.memory, performed.records,
    performed.actions⟩

def entryCalls (states : List S) : List (Callable F × Arguments) :=
  states.flatMap fun s => (m.forest.node s).entry.map fun action => (action, [])

def exitCalls (states : List S) : List (Callable F × Arguments) :=
  states.flatMap fun s => (m.forest.node s).exit.map fun action => (action, [])

theorem enterAll_extends (states : List S) (p : Progress S E F X L W) :
    p.Extends (m.enterAll b states p) p.memory (states.map (Record.mk .enter)) (m.entryCalls states) := by
  unfold enterAll
  induction states generalizing p with
  | nil => exact .refl p
  | cons s rest ih =>
    have first := m.enter_extends b p s
    have others := first.trans (ih (m.enter b p s))
    rw [first.memory] at others
    exact others

theorem exitAll_extends (states : List S) (p : Progress S E F X L W) :
    p.Extends (m.exitAll b states p) (states.foldl m.forest.remember p.memory) (states.map (Record.mk .exit))
      (m.exitCalls states) := by
  unfold exitAll
  induction states generalizing p with
  | nil => exact .refl p
  | cons s rest ih =>
    have first := m.exit_extends b p s
    have others := first.trans (ih (m.exit b p s))
    rw [first.memory] at others
    exact others

omit [DecidableEq S] in
theorem select_extends (event : E) (candidates : List (Transition S F)) (p : Progress S E F X L W) :
    p.Extends (m.select b event candidates p).2 p.memory [] [] := by
  induction candidates generalizing p with
  | nil => exact .refl p
  | cons candidate rest ih =>
    have asked := m.guardPasses_extends b ⟨candidate.source, event, candidate.target?⟩ candidate.guard? p
    unfold select
    cases passes : (m.guardPasses b ⟨candidate.source, event, candidate.target?⟩ candidate.guard? p).1 with
    | true =>
      simp only [passes, if_true]
      exact asked
    | false =>
      simp only [passes]
      have others := asked.trans (ih _)
      rw [asked.memory] at others
      exact others

omit [DecidableEq S] in
theorem select_mem (event : E) (candidates : List (Transition S F)) (p : Progress S E F X L W)
    {transition : Transition S F} (selected : (m.select b event candidates p).1 = some transition) :
    transition ∈ candidates := by
  induction candidates generalizing p with
  | nil => simp [select] at selected
  | cons candidate rest ih =>
    unfold select at selected
    cases passes : (m.guardPasses b ⟨candidate.source, event, candidate.target?⟩ candidate.guard? p).1 with
    | true =>
      simp only [passes] at selected
      cases selected
      exact List.mem_cons_self
    | false =>
      simp only [passes] at selected
      exact List.mem_cons_of_mem _ (ih _ selected)

end Machine

end Statechart
