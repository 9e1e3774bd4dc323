import Statechart.Proofs.Host.Budget
import Statechart.Proofs.Machine.Sending

namespace Statechart

variable {S E F X L W α : Type}

def Transition.routines (transition : Transition S F) : List (Routine F) :=
  transition.guard?.toList.map .guard ++ transition.actions.map .action

def Node.routines (node : Node S E F) : List (Routine F) :=
  (node.entry ++ node.exit).map .action ++ node.transitions.edges.flatMap fun edge => edge.2.routines

def Machine.routines (m : Machine S E F X L) : List (Routine F) := m.forest.values.flatMap Node.routines

namespace JournalEntry

def concluded? : JournalEntry S E F X L → Option E
  | .log (.firedEvent _ event _ _) | .log (.transitionDeclined _ event _) => some event
  | _ => none

def crashes : JournalEntry S E F X L → Bool
  | .guard _ _ .crashed _ | .action _ _ .crashed _ => true
  | _ => false

def Inert (entry : JournalEntry S E F X L) : Prop := entry.sent = [] ∧ entry.concluded? = none

end JournalEntry

theorem Extension.inert_note (info : Info S) (hook : Hook S E) (extension : Extension X) :
    (extension.note info hook : JournalEntry S E F X L).Inert := by cases extension <;> exact ⟨rfl, rfl⟩

theorem inert_inquiry {info : Info S} {question : α → Hook S E} {answer : X → α → Option α}
    {extensions : List (Extension X)} {value : α} :
    ∀ entry ∈ (inquiry info question answer extensions value : List (JournalEntry S E F X L)), entry.Inert := by
  induction extensions generalizing value with
  | nil => simp [inquiry]
  | cons extension rest ih =>
    rw [inquiry, List.forall_mem_cons]
    exact ⟨extension.inert_note info _, ih⟩

theorem inert_notices {notice : Notice S E} {subscribers : List (Subscriber L)} :
    ∀ entry ∈ subscribers.filterMap (Subscriber.note? notice : _ → Option (JournalEntry S E F X L)), entry.Inert := by
  intro entry member
  obtain ⟨subscriber, _, noted⟩ := List.mem_filterMap.mp member
  cases subscriber with
  | collector => cases noted
  | custom subscriber =>
    cases noted
    exact ⟨rfl, rfl⟩

namespace Host

/-- What came of a host in a while. So many events were fired and this was sent, by nothing but calls of these routines,
    and it crashed only if one of them did. -/
structure Performs (b : Behaviour S E F X W) (routines : List (Routine F)) (start : Host S E F X L W) (fires : Nat)
    (sent : List (Post E)) (host : Host S E F X L W) : Prop where
  journal : ∃ entries, host.journal = start.journal ++ entries ∧
    (entries.filterMap JournalEntry.concluded?).length = fires ∧ entries.flatMap JournalEntry.sent = sent ∧
    ((∀ entry ∈ entries, entry.crashes = false) → host.crash? = start.crash?)
  calls : ∃ sendings, b.Calls routines start.world sendings host.world ∧ sendings.flatMap Sending.posts = sent

namespace Performs

variable {b : Behaviour S E F X W} {routines : List (Routine F)} {start middle host after : Host S E F X L W}
  {fires more : Nat} {sent sent' : List (Post E)} {entries : List (JournalEntry S E F X L)}

theorem trans (first : start.Performs b routines fires sent middle)
    (second : middle.Performs b routines more sent' host) :
    start.Performs b routines (fires + more) (sent ++ sent') host := by
  obtain ⟨⟨entries, journal, concluded, told, crash⟩, sendings, calls, flat⟩ := first
  obtain ⟨⟨entries', journal', concluded', told', crash'⟩, sendings', calls', flat'⟩ := second
  refine ⟨⟨entries ++ entries', ?_, ?_, ?_, fun sound => ?_⟩, sendings ++ sendings', calls.append calls', ?_⟩
  · rw [journal', journal, List.append_assoc]
  · rw [List.filterMap_append, List.length_append, concluded, concluded']
  · rw [List.flatMap_append, told, told']
  · rw [List.forall_mem_append] at sound
    exact (crash' sound.2).trans (crash sound.1)
  · rw [List.flatMap_append, flat, flat']

theorem of_inert (b : Behaviour S E F X W) (routines : List (Routine F))
    (journal : host.journal = start.journal ++ entries) (world : host.world = start.world)
    (crash : host.crash? = start.crash?) (inert : ∀ entry ∈ entries, entry.Inert) :
    start.Performs b routines 0 [] host := by
  refine ⟨⟨entries, journal, ?_, ?_, fun _ => crash⟩, [], ?_, rfl⟩
  · rw [List.filterMap_eq_nil_iff.mpr fun entry member => (inert entry member).2]
    rfl
  · exact List.flatMap_eq_nil_iff.mpr fun entry member => (inert entry member).1
  · rw [world]
    exact .none start.world

theorem refl (b : Behaviour S E F X W) (routines : List (Routine F)) (host : Host S E F X L W) :
    host.Performs b routines 0 [] host := of_inert b routines (List.append_nil _).symm rfl rfl (by simp)

section Step

variable (performs : start.Performs b routines fires sent host)

include performs

theorem inert (journal : after.journal = host.journal ++ entries) (world : after.world = host.world)
    (crash : after.crash? = host.crash?) (inert : ∀ entry ∈ entries, entry.Inert) :
    start.Performs b routines fires sent after := by
  have still := performs.trans (of_inert b routines journal world crash inert)
  rwa [List.append_nil] at still

theorem log {line : LogLine S E} (unconcluded : (.log line : JournalEntry S E F X L).concluded? = none) :
    start.Performs b routines fires sent (host.log line) :=
  performs.inert rfl rfl rfl (List.forall_mem_singleton.mpr ⟨rfl, unconcluded⟩)

theorem conclude {line : LogLine S E} {event : E}
    (concluded : (.log line : JournalEntry S E F X L).concluded? = some event) :
    start.Performs b routines (fires + 1) sent (host.log line) := by
  have closing : host.Performs b routines 1 [] (host.log line) := by
    refine ⟨⟨[.log line], rfl, ?_, rfl, fun _ => rfl⟩, [], .none host.world, rfl⟩
    rw [List.filterMap_cons, concluded]
    rfl
  have closed := performs.trans closing
  rwa [List.append_nil] at closed

theorem announce (extensions : List (Extension X)) (info : Info S) (hook : Hook S E) :
    start.Performs b routines fires sent (host.announce extensions info hook) := by
  rw [announce_eq]
  exact performs.inert rfl rfl rfl (List.forall_mem_map.mpr fun extension _ => extension.inert_note info hook)

theorem inquire (info : Info S) (question : α → Hook S E) (answer : X → α → Option α)
    (extensions : List (Extension X)) (value : α) :
    start.Performs b routines fires sent (host.writeAll (inquiry info question answer extensions value)) :=
  performs.inert rfl rfl rfl inert_inquiry

theorem publish (subscribers : List (Subscriber L)) (notice : Notice S E) :
    start.Performs b routines fires sent (host.publish subscribers notice) := by
  rw [publish_eq]
  exact performs.inert rfl rfl rfl inert_notices

theorem accept {routine : Routine F} {arguments : Arguments} {input : Input} {reply : Reply E W α}
    {entry : JournalEntry S E F X L} (employed : routine ∈ routines)
    (received : routine.callable.receive arguments = .ok input)
    (replied : routine.run b input host.world = (reply.sent, reply.world)) (told : entry.sent = reply.sent)
    (unconcluded : entry.concluded? = none) (sound : entry.crashes = false → reply.outcome ≠ .crashed) :
    start.Performs b routines fires (sent ++ reply.sent) (host.accept reply entry) := by
  obtain ⟨place, here⟩ := List.mem_iff_getElem?.mp employed
  have called := Behaviour.Calls.next here received (.none (routine.run b input host.world).2)
  rw [replied] at called
  have accepted : host.Performs b routines 0 reply.sent (host.accept reply entry) := by
    refine ⟨⟨[entry], rfl, ?_, ?_, fun crashless => ?_⟩, _, called, ?_⟩
    · simp [unconcluded]
    · simp [told]
    · have survived := sound (crashless entry List.mem_cons_self)
      unfold Host.accept
      simp only
      split
      · rename_i crashed
        exact absurd crashed survived
      · rfl
    · simp
  exact performs.trans accepted

end Step

theorem outbox (performs : start.Performs b routines fires sent host) (sends : start.Sends host) :
    host.outbox = start.outbox ++ sent := by
  obtain ⟨⟨entries, journal, _, told, _⟩, _⟩ := performs
  obtain ⟨entries', journal', outbox, _⟩ := sends
  obtain rfl : entries = entries' := List.append_cancel_left (journal.symm.trans journal')
  rw [outbox, told]

end Performs

def Spends (b : Behaviour S E F X W) (routines : List (Routine F)) (start host : Host S E F X L W) : Prop :=
  ∃ sent, start.Performs b routines 0 sent host

theorem Spends.call {b : Behaviour S E F X W} {routines : List (Routine F)} {start host : Host S E F X L W}
    {run : F → Input → W → Reply E W α}
    {entry : Callable F → Arguments → Outcome α → List (Post E) → JournalEntry S E F X L} {routine : Routine F}
    (spends : start.Spends b routines host) (employed : routine ∈ routines)
    (runs : ∀ input world, routine.run b input world =
      ((run routine.callable.code input world).sent, (run routine.callable.code input world).world))
    (tells : ∀ callable arguments outcome sent, (entry callable arguments outcome sent).sent = sent)
    (unconcluded : ∀ callable arguments outcome sent, (entry callable arguments outcome sent).concluded? = none)
    (owns : ∀ callable arguments sent, (entry callable arguments .crashed sent).crashes) (arguments : Arguments) :
    start.Spends b routines (Host.call run entry routine.callable arguments host).2 := by
  obtain ⟨sent, performs⟩ := spends
  unfold Host.call
  cases received : routine.callable.receive arguments with
  | error error =>
    exact ⟨sent, performs.inert rfl rfl rfl (List.forall_mem_singleton.mpr ⟨tells _ _ _ _, unconcluded _ _ _ _⟩)⟩
  | ok input =>
    refine ⟨_, performs.accept employed received (runs _ _) (tells _ _ _ _) (unconcluded _ _ _ _) ?_⟩
    intro sound crashed
    rw [crashed, owns] at sound
    cases sound

end Host

namespace Machine

variable {b : Behaviour S E F X W} {m m' : Machine S E F X L} {start host host' : Host S E F X L W}
  {p : Progress S E F X L W} {done : Completed S E F X L W} {fires : Nat} {sent : List (Post E)}
  {routines : List (Routine F)} {fault : Fault S E} {arguments : Arguments} {action guard : Callable F}

theorem handleException_performs (performs : start.Performs b routines fires sent p.host) (fault : Fault S E)
    (exception : Exception) : start.Performs b routines fires sent (m.handleException b fault exception p).host := by
  rw [handleException_eq]
  have asked := performs.inquire m.info (.handlingException fault p.context)
    (fun extension current => b.exception extension m.info fault p.context current) m.extensions exception
  exact ((asked.log rfl).publish _ _).announce _ _ _

theorem perform_spends (spends : start.Spends b routines p.host) (employed : .action action ∈ routines) :
    start.Spends b routines (m.perform b fault arguments p action).host := by
  have called : start.Spends b routines (Host.call b.action .action action arguments p.host).2 :=
    spends.call employed (fun _ _ => rfl) (fun _ _ _ _ => rfl) (fun _ _ _ _ => rfl) (fun _ _ _ => rfl) arguments
  unfold perform
  simp only
  split
  · obtain ⟨sent, performs⟩ := called
    exact ⟨sent, handleException_performs performs _ _⟩
  · exact called
  · exact called

theorem performAll_spends {actions : List (Callable F)} (spends : start.Spends b routines p.host)
    (employed : ∀ action ∈ actions, .action action ∈ routines) :
    start.Spends b routines (m.performAll b fault arguments actions p).host := by
  unfold performAll
  induction actions generalizing p with
  | nil => exact spends
  | cons action rest ih =>
    rw [List.forall_mem_cons] at employed
    exact ih (perform_spends spends employed.1) employed.2

theorem guardPasses_spends {edge : Edge S E} {guard? : Option (Callable F)} (spends : start.Spends b routines p.host)
    (employed : ∀ guard ∈ guard?, .guard guard ∈ routines) :
    start.Spends b routines (m.guardPasses b edge guard? p).2.host := by
  unfold guardPasses
  cases guard? with
  | none => exact spends
  | some guard =>
    have called : start.Spends b routines (Host.call b.guard .guard guard p.context.arguments p.host).2 :=
      spends.call (employed guard rfl) (fun _ _ => rfl) (fun _ _ _ _ => rfl) (fun _ _ _ _ => rfl) (fun _ _ _ => rfl) _
    simp only
    split
    · exact called
    · obtain ⟨sent, performs⟩ := called
      exact ⟨sent, handleException_performs performs _ _⟩
    · exact called

theorem select_spends {event : E} {candidates : List (Transition S F)} (spends : start.Spends b routines p.host)
    (employed : ∀ candidate ∈ candidates, candidate.routines ⊆ routines) :
    start.Spends b routines (m.select b event candidates p).2.host := by
  induction candidates generalizing p with
  | nil => exact spends
  | cons candidate rest ih =>
    rw [List.forall_mem_cons] at employed
    have asked : start.Spends b routines
        (m.guardPasses b ⟨candidate.source, event, candidate.target?⟩ candidate.guard? p).2.host := by
      refine guardPasses_spends spends fun guard guarded => employed.1 ?_
      exact List.mem_append_left _ (List.mem_map_of_mem (Option.mem_toList.mpr guarded))
    unfold select
    simp only
    split
    · exact asked
    · exact ih asked employed.2

variable [DecidableEq S]

theorem routines_node (m : Machine S E F X L) (s : S) : (m.forest.node s).routines ⊆ m.routines := by
  intro routine member
  unfold Forest.node at member
  cases found : m.forest.get? s with
  | none =>
    rw [found] at member
    cases member
  | some node =>
    rw [found, Option.getD_some] at member
    obtain ⟨entry, inTable, rfl⟩ := Option.map_eq_some_iff.mp found
    exact List.mem_flatMap.mpr ⟨_, List.mem_map_of_mem (List.mem_of_find?_eq_some inTable), member⟩

theorem routines_candidate [DecidableEq E] {current : S} {event : E} {transition : Transition S F}
    (member : transition ∈ m.candidates current event) : transition.routines ⊆ m.routines := by
  obtain ⟨s, _, edge⟩ := candidate_edge member
  intro routine employed
  exact m.routines_node s (List.mem_append_right _ (List.mem_flatMap.mpr ⟨_, edge, employed⟩))

theorem enter_spends (spends : start.Spends b m.routines p.host) (s : S) :
    start.Spends b m.routines (m.enter b p s).host := by
  refine performAll_spends spends fun action member => m.routines_node s ?_
  exact List.mem_append_left _ (List.mem_map_of_mem (List.mem_append_left _ member))

theorem exit_spends (spends : start.Spends b m.routines p.host) (s : S) :
    start.Spends b m.routines (m.exit b p s).host := by
  refine performAll_spends spends fun action member => m.routines_node s ?_
  exact List.mem_append_left _ (List.mem_map_of_mem (List.mem_append_right _ member))

theorem enterAll_spends (states : List S) (spends : start.Spends b m.routines p.host) :
    start.Spends b m.routines (m.enterAll b states p).host := by
  unfold enterAll
  induction states generalizing p with
  | nil => exact spends
  | cons s rest ih => exact ih (enter_spends spends s)

theorem settle_spends (s : S) (spends : start.Spends b m.routines p.host) :
    start.Spends b m.routines (m.settle b s p).2.host := enterAll_spends _ spends

theorem exitAll_spends (states : List S) (spends : start.Spends b m.routines p.host) :
    start.Spends b m.routines (m.exitAll b states p).host := by
  unfold exitAll
  induction states generalizing p with
  | nil => exact spends
  | cons s rest ih => exact ih (exit_spends spends s)

theorem execute_spends {current : S} {event : E} {transition : Transition S F}
    (spends : start.Spends b m.routines p.host) (employed : transition.routines ⊆ m.routines) :
    start.Spends b m.routines (m.execute b current event transition p).2.host := by
  have begun : start.Spends b m.routines (m.begin current event p).host := by
    obtain ⟨sent, performs⟩ := spends
    exact ⟨sent, performs.publish _ _⟩
  have actions : ∀ action ∈ transition.actions, .action action ∈ m.routines := fun action member =>
    employed (List.mem_append_right _ (List.mem_map_of_mem member))
  unfold execute
  simp only
  split
  · exact performAll_spends begun actions
  · split
    · exact begun
    · exact settle_spends _ (enterAll_spends _ (performAll_spends (exitAll_spends _ begun) actions))

theorem switchTo_performs (performs : start.Performs b routines fires sent host) (m : Machine S E F X L) (state : S) :
    start.Performs b routines fires sent (m.switchTo state host).2 :=
  switchTo_keeps performs state fun _ _ _ => performs.announce _ _ _

theorem arrive_performs {reached : S × Progress S E F X L W}
    (performs : start.Performs b routines fires sent reached.2.host) (m : Machine S E F X L) :
    start.Performs b routines fires sent (m.arrive reached).host :=
  ((switchTo_performs performs _ _).log rfl).announce _ _ _

theorem enterInitialState_performs (entered : m.enterInitialState b host = .ok done) :
    ∃ sent, host.Performs b m.routines 0 sent done.host ∧ done.host.outbox = host.outbox ++ sent := by
  obtain ⟨ready, unentered⟩ := enterInitialState_accepted entered
  obtain ⟨initial, found⟩ := Option.isSome_iff_exists.mp ready
  have sends := enterInitialState_sends entered
  rw [enterInitialState_eq found unentered] at entered
  obtain rfl := Except.ok.inj entered
  have started : host.Spends b m.routines (m.starting initial host).host :=
    ⟨[], (Host.Performs.refl b m.routines host).announce _ _ _⟩
  obtain ⟨sent, performs⟩ := settle_spends initial (enterAll_spends (m.forest.lineage initial).reverse started)
  have arrived := arrive_performs performs m
  exact ⟨sent, arrived, arrived.outbox sends⟩

section Fire

variable [DecidableEq E]

theorem react_spends (current : S) (asked : Signal E) (spends : start.Spends b m.routines p.host) :
    start.Spends b m.routines (m.react b current asked p).2.host := by
  have tried : start.Spends b m.routines (m.select b asked.event (m.candidates current asked.event) p).2.host :=
    select_spends spends fun _ => routines_candidate
  unfold react
  split
  · rename_i declined
    rw [declined] at tried
    exact tried
  · rename_i selected
    have member := m.select_mem b _ _ _ (congrArg Prod.fst selected)
    rw [selected] at tried
    exact execute_spends tried (routines_candidate member)

omit [DecidableEq E] in
theorem conclude_performs {reached : Option S × Progress S E F X L W}
    (performs : start.Performs b routines fires sent reached.2.host) (m : Machine S E F X L) (current : S) (event : E) :
    start.Performs b routines (fires + 1) sent (m.conclude current event reached).host := by
  obtain ⟨reached?, p⟩ := reached
  cases reached? with
  | none => exact (performs.conclude rfl).publish _ _
  | some reached => exact (((switchTo_performs performs _ reached).conclude rfl).announce _ _ _).publish _ _

theorem fire_performs {signal : Signal E} (fired : m.fire b signal host = .ok done) :
    ∃ sent, host.Performs b m.routines 1 sent done.host ∧ done.host.outbox = host.outbox ++ sent := by
  obtain ⟨ready, stands, _⟩ := fire_resembles fired
  obtain ⟨current, standing⟩ := Option.isSome_iff_exists.mp stands
  have sends := fire_sends fired
  rw [fire_eq ready standing, resolve_eq] at fired
  obtain rfl := Except.ok.inj fired
  let p : Progress S E F X L W := ⟨host.writeAll (inquiry m.info .firing
    (fun extension signal => b.signal extension m.info signal) m.extensions signal),
    .ofSignal current (m.asked b signal), m.memory⟩
  have asking : host.Spends b m.routines p.host := ⟨[], (Host.Performs.refl b m.routines host).inquire _ _ _ _ _⟩
  obtain ⟨sent, performs⟩ := react_spends (p := p) current (m.asked b signal) asking
  have concluded := conclude_performs performs m current (m.asked b signal).event
  exact ⟨sent, concluded, concluded.outbox sends⟩

end Fire

omit [DecidableEq S] in
theorem Resembles.routines_eq (alike : m.Resembles m') : m'.routines = m.routines := by
  obtain ⟨_, _, rfl⟩ := alike
  rfl

theorem initializeAt_performs {s : S} (initialized : m.initializeAt b s host = .ok (m', host'))
    (routines : List (Routine F)) : m'.routines = m.routines ∧ host.Performs b routines 0 [] host' := by
  unfold initializeAt at initialized
  split at initialized
  · cases initialized
  · rw [Host.consult_eq] at initialized
    cases initialized
    refine ⟨?_, (((Host.Performs.refl b routines host).inquire _ _ _ _ _).log rfl).announce _ _ _⟩
    -- a state that is mentioned for the first time has no code of its own
    change (Table.values (m.forest.mention _)).flatMap Node.routines = m.forest.values.flatMap Node.routines
    unfold Forest.mention Table.ensure Table.values
    split
    · rfl
    · rw [List.map_append, List.flatMap_append]
      exact List.append_nil _

end Machine

end Statechart
