import Statechart.Proofs.Host.Journal

namespace Statechart

variable {S E F X L W α : Type}

inductive Raised where
  | byGuard (exception : Exception)
  | byAction (exception : Exception)
deriving DecidableEq

def Outcome.exception? : Outcome α → Option Exception
  | .failed exception => some exception
  | _ => none

def JournalEntry.raised? : JournalEntry S E F X L → Option Raised
  | .guard _ _ outcome _ => outcome.exception?.map .byGuard
  | .action _ _ outcome _ => outcome.exception?.map .byAction
  | _ => none

def JournalEntry.told? : JournalEntry S E F X L → Option (L × Notice S E)
  | .notice listener published => some (listener, published)
  | _ => none

def Subscriber.listener? : Subscriber L → Option L
  | .collector => none
  | .custom subscriber => some subscriber

namespace Host

def heard [DecidableEq L] (listener : L) (host : Host S E F X L W) : List (Notice S E) :=
  (host.seen JournalEntry.told?).filterMap fun told => if told.1 = listener then some told.2 else none

/-- Between two moments, some notices were published and some code failed. Every listener is told every notice, in
    order of registration, and every collector keeps the failures among them. -/
structure Publishes (subscribers : List (Subscriber L)) (start host : Host S E F X L W) (notices : List (Notice S E))
    (raised : List Raised) : Prop where
  told : host.seen JournalEntry.told? = start.seen JournalEntry.told? ++
    notices.flatMap fun notice => (subscribers.filterMap Subscriber.listener?).map (·, notice)
  failures : host.failures = start.failures ++
    notices.flatMap fun notice => subscribers.flatMap (Subscriber.collected notice)
  raised : host.seen JournalEntry.raised? = start.seen JournalEntry.raised? ++ raised

namespace Publishes

variable {subscribers : List (Subscriber L)} {start host host' : Host S E F X L W} {notices more : List (Notice S E)}
  {raised others : List Raised}

theorem refl (host : Host S E F X L W) : host.Publishes subscribers host [] [] :=
  ⟨(List.append_nil _).symm, (List.append_nil _).symm, (List.append_nil _).symm⟩

theorem trans (first : start.Publishes subscribers host notices raised)
    (second : host.Publishes subscribers host' more others) :
    start.Publishes subscribers host' (notices ++ more) (raised ++ others) where
  told := by rw [second.told, first.told, List.flatMap_append, List.append_assoc]
  failures := by rw [second.failures, first.failures, List.flatMap_append, List.append_assoc]
  raised := by rw [second.raised, first.raised, List.append_assoc]

theorem heard [DecidableEq L] (publishes : start.Publishes subscribers host notices raised) (listener : L) :
    host.heard listener = start.heard listener ++ notices.flatMap
      (List.replicate ((subscribers.filterMap Subscriber.listener?).count listener)) := by
  unfold Host.heard
  rw [publishes.told, List.filterMap_append, List.filterMap_flatMap]
  congr 2
  funext notice
  induction subscribers.filterMap Subscriber.listener? with
  | nil => rfl
  | cons other rest ih =>
    by_cases same : other = listener
    · simp [same, ih, List.replicate_succ]
    · simp [same, ih]

theorem writeAll (publishes : start.Publishes subscribers host notices raised) {entries : List (JournalEntry S E F X L)}
    (untold : entries.filterMap JournalEntry.told? = []) (others : entries.filterMap JournalEntry.raised? = []) :
    start.Publishes subscribers (host.writeAll entries) notices raised where
  told := by rw [seen_writeAll, untold, List.append_nil, publishes.told]
  failures := publishes.failures
  raised := by rw [seen_writeAll, others, List.append_nil, publishes.raised]

theorem log (publishes : start.Publishes subscribers host notices raised) (line : LogLine S E) :
    start.Publishes subscribers (host.log line) notices raised := publishes.writeAll rfl rfl

theorem announce (publishes : start.Publishes subscribers host notices raised) (extensions : List (Extension X))
    (info : Info S) (hook : Hook S E) :
    start.Publishes subscribers (host.announce extensions info hook) notices raised := by
  refine ⟨?_, ?_, ?_⟩
  · rw [seen_announce (by rintro (_ | _) <;> rfl), publishes.told]
  · rw [announce_eq]
    exact publishes.failures
  · rw [seen_announce (by rintro (_ | _) <;> rfl), publishes.raised]

theorem inquire (publishes : start.Publishes subscribers host notices raised) (info : Info S) (question : α → Hook S E)
    (answer : X → α → Option α) (extensions : List (Extension X)) (value : α) :
    start.Publishes subscribers (host.writeAll (inquiry info question answer extensions value)) notices raised := by
  apply publishes.writeAll
  · apply filterMap_inquiry_unseen
    intro extension value
    cases extension <;> rfl
  · apply filterMap_inquiry_unseen
    intro extension value
    cases extension <;> rfl

theorem publish (publishes : start.Publishes subscribers host notices raised) (notice : Notice S E) :
    start.Publishes subscribers (host.publish subscribers notice) (notices ++ [notice]) raised := by
  have told : (subscribers.filterMap (Subscriber.note? (F := F) (X := X) notice)).filterMap JournalEntry.told? =
      (subscribers.filterMap Subscriber.listener?).map (·, notice) := by
    rw [List.filterMap_filterMap, List.map_filterMap]
    congr 1
    funext subscriber
    cases subscriber <;> rfl
  refine ⟨?_, ?_, ?_⟩
  · simp only [publish_eq, seen, List.filterMap_append, told, List.flatMap_append, List.flatMap_singleton,
      ← List.append_assoc]
    exact congrArg (· ++ _) publishes.told
  · simp only [publish_eq, List.flatMap_append, List.flatMap_singleton, ← List.append_assoc]
    exact congrArg (· ++ _) publishes.failures
  · rw [seen_publish (fun _ => rfl), publishes.raised]

theorem take (publishes : start.Publishes subscribers host notices raised) {entry : JournalEntry S E F X L}
    {after : Host S E F X L W} (written : after.journal = host.journal ++ [entry]) (kept : after.failures = host.failures)
    (untold : entry.told? = none) : start.Publishes subscribers after notices (raised ++ entry.raised?.toList) := by
  have seen {O : Type} (view : JournalEntry S E F X L → Option O) :
      after.seen view = host.seen view ++ (view entry).toList := by
    rw [← seen_write, Host.seen, written]
    rfl
  refine ⟨?_, kept.trans publishes.failures, ?_⟩
  · rw [seen, untold, publishes.told]
    exact List.append_nil _
  · rw [seen, publishes.raised, List.append_assoc]

theorem call (publishes : start.Publishes subscribers host notices raised) (run : F → Input → W → Reply E W α)
    (entry : Callable F → Arguments → Outcome α → List (Post E) → JournalEntry S E F X L) (culprit : Exception → Raised)
    (untold : ∀ callable arguments outcome sent, (entry callable arguments outcome sent).told? = none)
    (raises : ∀ callable arguments outcome sent,
      (entry callable arguments outcome sent).raised? = outcome.exception?.map culprit)
    (callable : Callable F) (arguments : Arguments) :
    start.Publishes subscribers (Host.call run entry callable arguments host).2 notices
      (raised ++ ((Host.call run entry callable arguments host).1.exception?.map culprit).toList) := by
  unfold Host.call
  cases callable.receive arguments with
  | error error =>
    rw [← raises callable arguments _ []]
    exact publishes.take rfl rfl (untold _ _ _ _)
  | ok input =>
    rw [← raises callable arguments]
    exact publishes.take rfl rfl (untold _ _ _ _)

end Publishes

end Host

end Statechart
