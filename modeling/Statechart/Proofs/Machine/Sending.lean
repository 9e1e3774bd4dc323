import Statechart.Proofs.Machine.Alike

namespace Statechart

variable {S E F X L W α : Type}

/-- What code sent while it was called. -/
def JournalEntry.sent : JournalEntry S E F X L → List (Post E)
  | .guard _ _ _ sent | .action _ _ _ sent => sent
  | _ => []

section Note

variable (info : Info S) (hook : Hook S E) (extension : Extension X)

theorem Extension.sent_note :
    (extension.note info hook : JournalEntry S E F X L).sent = [] := by cases extension <;> rfl

theorem Extension.isAboutQueue_note :
    (extension.note info hook : JournalEntry S E F X L).isAboutQueue = hook.isAboutQueue := by cases extension <;> rfl

end Note

namespace Host

/-- What came of a host since some moment as long as only the machine itself was at work: whatever code sent is in the
    outbox, in order, and nothing was about the queue. -/
def Sends (start host : Host S E F X L W) : Prop :=
  ∃ entries, host.journal = start.journal ++ entries ∧ host.outbox = start.outbox ++ entries.flatMap JournalEntry.sent ∧
    ∀ entry ∈ entries, entry.isAboutQueue = false

namespace Sends

variable {start host : Host S E F X L W}

theorem refl (host : Host S E F X L W) : host.Sends host :=
  ⟨[], (List.append_nil _).symm, (List.append_nil _).symm, by simp⟩

theorem grow (sends : start.Sends host) {after : Host S E F X L W} {entries : List (JournalEntry S E F X L)}
    (written : after.journal = host.journal ++ entries)
    (sent : after.outbox = host.outbox ++ entries.flatMap JournalEntry.sent)
    (apart : ∀ entry ∈ entries, entry.isAboutQueue = false) : start.Sends after := by
  obtain ⟨earlier, journal, outbox, apart'⟩ := sends
  refine ⟨earlier ++ entries, ?_, ?_, fun entry member => ?_⟩
  · rw [written, journal, List.append_assoc]
  · rw [sent, outbox, List.flatMap_append, List.append_assoc]
  · rcases List.mem_append.mp member with member | member
    · exact apart' entry member
    · exact apart entry member

theorem writeAll (sends : start.Sends host) {entries : List (JournalEntry S E F X L)}
    (silent : ∀ entry ∈ entries, entry.sent = []) (apart : ∀ entry ∈ entries, entry.isAboutQueue = false) :
    start.Sends (host.writeAll entries) := by
  refine sends.grow rfl ?_ apart
  rw [List.flatMap_eq_nil_iff.mpr silent, List.append_nil]
  rfl

theorem log (sends : start.Sends host) {line : LogLine S E} (apart : line.isAboutQueue = false) :
    start.Sends (host.log line) := by
  have written : start.Sends (host.writeAll [.log line]) :=
    sends.writeAll (List.forall_mem_singleton.mpr rfl) (List.forall_mem_singleton.mpr apart)
  exact written

theorem announce (sends : start.Sends host) {hook : Hook S E} (apart : hook.isAboutQueue = false)
    (extensions : List (Extension X)) (info : Info S) : start.Sends (host.announce extensions info hook) := by
  rw [announce_eq]
  apply sends.writeAll <;> rw [List.forall_mem_map] <;> intro extension _
  · exact extension.sent_note info hook
  · exact (extension.isAboutQueue_note info hook).trans apart

theorem inquire (sends : start.Sends host) {info : Info S} {question : α → Hook S E}
    (apart : ∀ value, (question value).isAboutQueue = false) (answer : X → α → Option α)
    (extensions : List (Extension X)) (value : α) :
    start.Sends (host.writeAll (inquiry info question answer extensions value)) := by
  induction extensions generalizing host value with
  | nil => exact sends.writeAll (by simp [inquiry]) (by simp [inquiry])
  | cons extension rest ih =>
    have first : start.Sends (host.writeAll [extension.note info (question value)]) := by
      apply sends.writeAll <;> rw [List.forall_mem_singleton]
      · exact extension.sent_note info _
      · exact (extension.isAboutQueue_note info _).trans (apart value)
    have next := ih first (extension.reply answer value)
    rw [writeAll_append] at next
    exact next

theorem publish (sends : start.Sends host) (subscribers : List (Subscriber L)) (notice : Notice S E) :
    start.Sends (host.publish subscribers notice) := by
  have shape : ∀ entry ∈ subscribers.filterMap (Subscriber.note? (S := S) (E := E) (F := F) (X := X) notice),
      entry.sent = [] ∧ entry.isAboutQueue = false := by
    intro entry member
    obtain ⟨subscriber, _, noted⟩ := List.mem_filterMap.mp member
    cases subscriber with
    | collector => cases noted
    | custom subscriber =>
      cases noted
      exact ⟨rfl, rfl⟩
  rw [publish_eq]
  refine sends.grow rfl ?_ fun entry member => (shape entry member).2
  rw [List.flatMap_eq_nil_iff.mpr fun entry member => (shape entry member).1, List.append_nil]

theorem call (sends : start.Sends host) {run : F → Input → W → Reply E W α}
    {entry : Callable F → Arguments → Outcome α → List (Post E) → JournalEntry S E F X L}
    (tells : ∀ callable arguments outcome sent, (entry callable arguments outcome sent).sent = sent)
    (apart : ∀ callable arguments outcome sent, (entry callable arguments outcome sent).isAboutQueue = false)
    (callable : Callable F) (arguments : Arguments) : start.Sends (Host.call run entry callable arguments host).2 := by
  unfold Host.call
  cases callable.receive arguments with
  | error error =>
    refine sends.grow rfl ?_ (List.forall_mem_singleton.mpr (apart _ _ _ _))
    rw [List.flatMap_cons, tells]
    exact (List.append_nil _).symm
  | ok input =>
    refine sends.grow rfl ?_ (List.forall_mem_singleton.mpr (apart _ _ _ _))
    rw [List.flatMap_cons, tells]
    exact congrArg (host.outbox ++ ·) (List.append_nil _).symm

end Sends

end Host

structure Progress.Sends (start : Host S E F X L W) (p p' : Progress S E F X L W) : Prop where
  same : p' = p
  host : start.Sends p.host

namespace Machine

variable {b : Behaviour S E F X W} {m : Machine S E F X L} {start host : Host S E F X L W} {p : Progress S E F X L W}
  {done : Completed S E F X L W}

theorem handleException_sends (sends : start.Sends p.host) (b : Behaviour S E F X W) (m : Machine S E F X L)
    (fault : Fault S E) (exception : Exception) : start.Sends (m.handleException b fault exception p).host := by
  rw [handleException_eq]
  have asked : start.Sends (p.host.writeAll (inquiry m.info (.handlingException fault p.context)
      (fun extension current => b.exception extension m.info fault p.context current) m.extensions exception)) :=
    sends.inquire (fun _ => rfl) _ _ _
  exact ((asked.log rfl).publish _ _).announce rfl _ _

variable [DecidableEq S]

theorem simulation_sends (b : Behaviour S E F X W) (m : Machine S E F X L) (start : Host S E F X L W) :
    Simulation b b m m id (Progress.Sends start) where
  forest := Forest.mirrors_refl m.forest
  arguments sends := by rw [sends.same]
  memory sends s := by rw [sends.same]
  record kind s := by
    rintro ⟨rfl, sends⟩
    exact ⟨rfl, sends⟩
  remember s := by
    rintro ⟨rfl, sends⟩
    exact ⟨rfl, sends⟩
  begin current event := by
    rintro ⟨rfl, sends⟩
    exact ⟨rfl, sends.publish _ _⟩
  perform fault arguments action := by
    rintro ⟨rfl, sends⟩
    refine perform_related rfl ⟨rfl, sends.call (fun _ _ _ _ => rfl) (fun _ _ _ _ => rfl) action arguments⟩ ?_
    rintro exception q _ ⟨rfl, sends⟩
    exact ⟨rfl, handleException_sends sends b m fault exception⟩
  guard edge guard := by
    rintro ⟨rfl, sends⟩
    refine guardPasses_related rfl rfl ⟨rfl, sends.call (fun _ _ _ _ => rfl) (fun _ _ _ _ => rfl) guard _⟩ ?_
    rintro exception q _ ⟨rfl, sends⟩
    exact ⟨rfl, handleException_sends sends b m (.guard edge) exception⟩

theorem switchTo_sends (sends : start.Sends host) (m : Machine S E F X L) (state : S) :
    start.Sends (m.switchTo state host).2 := switchTo_keeps sends state fun _ _ _ => sends.announce rfl _ _

theorem enterInitialState_sends (entered : m.enterInitialState b host = .ok done) : host.Sends done.host := by
  have answered : Answered (fun done _ => host.Sends done.host) (m.enterInitialState b host)
      (m.enterInitialState b host) := by
    refine (simulation_sends b m host).enterInitialState rfl rfl ?_ ?_
    · exact fun initial => ⟨rfl, (Host.Sends.refl host).announce rfl _ _⟩
    · rintro ⟨leaf, p⟩ out _ ⟨_, sends⟩
      exact ((switchTo_sends sends _ leaf).log rfl).announce rfl _ _
  rw [entered] at answered
  obtain ⟨_, _, sends⟩ := answered.of_ok
  exact sends

theorem fire_sends [DecidableEq E] {signal : Signal E} (fired : m.fire b signal host = .ok done) :
    host.Sends done.host := by
  have answered : Answered (fun done _ => host.Sends done.host) (m.fire b signal host) (m.fire b signal host) := by
    refine (simulation_sends b m host).fire rfl rfl rfl ?_ ?_
    · intro current
      rw [resolve_eq]
      exact ⟨rfl, (Host.Sends.refl host).inquire (fun _ => rfl) _ _ _⟩
    · rintro current event ⟨reached?, p⟩ out _ ⟨_, sends⟩
      cases reached? with
      | none => exact (sends.log rfl).publish _ _
      | some reached => exact (((switchTo_sends sends _ reached).log rfl).announce rfl _ _).publish _ _
  rw [fired] at answered
  obtain ⟨_, _, sends⟩ := answered.of_ok
  exact sends

theorem initializeAt_sends {s : S} {m' : Machine S E F X L} {host' : Host S E F X L W}
    (initialized : m.initializeAt b s host = .ok (m', host')) : host.Sends host' := by
  unfold initializeAt at initialized
  split at initialized
  · cases initialized
  · rw [Host.consult_eq] at initialized
    cases initialized
    exact (((Host.Sends.refl host).inquire (fun _ => rfl) _ _ _).log rfl).announce rfl _ _

end Machine

end Statechart
