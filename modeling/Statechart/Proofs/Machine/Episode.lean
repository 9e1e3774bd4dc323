import Statechart.Proofs.Machine.Selection

namespace Statechart

variable {S E F X L W α : Type}

/-- What an operation does next: it notes that a state is entered or left, or it runs code. -/
inductive Cue (S E F : Type) where
  | note (record : Record S)
  | run (fault : Fault S E) (callable : Callable F) (arguments : Arguments)

namespace JournalEntry

def exception? : JournalEntry S E F X L → Option Exception
  | .guard _ _ outcome _ => outcome.exception?
  | .action _ _ outcome _ => outcome.exception?
  | _ => none

def Runs (fault : Fault S E) (callable : Callable F) (arguments : Arguments) : JournalEntry S E F X L → Prop
  | .guard callable' arguments' _ _ => fault.isGuard ∧ callable' = callable ∧ arguments' = arguments
  | .action callable' arguments' _ _ => fault.isGuard = false ∧ callable' = callable ∧ arguments' = arguments
  | _ => False

end JournalEntry

namespace Incident

def notice (b : Behaviour S E F X W) (m : Machine S E F X L) (incident : Incident S E) : Notice S E :=
  .ofException incident.context (incident.final b m)

def after (b : Behaviour S E F X W) (m : Machine S E F X L) (incident : Incident S E) : Context S E :=
  incident.context.addException (incident.final b m)

/-- What follows a failure: every extension is asked in turn and is shown what the one before it answered, every
    subscriber is told the final exception, and every extension is told it too. -/
def aftermath (b : Behaviour S E F X W) (m : Machine S E F X L) (incident : Incident S E) :
    List (JournalEntry S E F X L) :=
  inquiry m.info (.handlingException incident.fault incident.context)
      (fun extension current => b.exception extension m.info incident.fault incident.context current)
      m.extensions incident.raised ++
    .log (.callableFailed m.name incident.fault (incident.final b m)) ::
      (m.subscribers.filterMap (Subscriber.note? (incident.notice b m)) ++
        m.extensions.map (Extension.note m.info
          (.handledException incident.fault (incident.after b m) (incident.final b m))))

end Incident

/-- One call of a guard or an action: what a failure of it counts as, what the operation had done until then, and the
    entry of the call. -/
structure Episode (S E F X L : Type) where
  fault : Fault S E
  context : Context S E
  call : JournalEntry S E F X L

namespace Episode

def incident? (episode : Episode S E F X L) : Option (Incident S E) :=
  episode.call.exception?.map (⟨episode.fault, episode.context, ·⟩)

def entries (b : Behaviour S E F X W) (m : Machine S E F X L) (episode : Episode S E F X L) :
    List (JournalEntry S E F X L) :=
  episode.call :: episode.incident?.elim [] (Incident.aftermath b m)

def failures (b : Behaviour S E F X W) (m : Machine S E F X L) (episode : Episode S E F X L) : List (Failure S E) :=
  episode.incident?.elim [] fun incident => m.subscribers.flatMap (Subscriber.collected (incident.notice b m))

def after (b : Behaviour S E F X W) (m : Machine S E F X L) (episode : Episode S E F X L) : Context S E :=
  episode.incident?.elim episode.context (Incident.after b m)

end Episode

/-- An operation follows its cues one by one. What one call does to what has been done is what the next call finds. -/
inductive Unfolds (b : Behaviour S E F X W) (m : Machine S E F X L) :
    Context S E → List (Cue S E F) → List (Episode S E F X L) → Context S E → Prop where
  | nil (context : Context S E) : Unfolds b m context [] [] context
  | note {context last : Context S E} {record : Record S} {cues : List (Cue S E F)}
      {episodes : List (Episode S E F X L)}
      (rest : Unfolds b m (context.addRecord record.kind record.state) cues episodes last) :
      Unfolds b m context (.note record :: cues) episodes last
  | run {context last : Context S E} {fault : Fault S E} {callable : Callable F} {arguments : Arguments}
      {call : JournalEntry S E F X L} {cues : List (Cue S E F)} {episodes : List (Episode S E F X L)}
      (runs : call.Runs fault callable arguments)
      (rest : Unfolds b m (Episode.after b m ⟨fault, context, call⟩) cues episodes last) :
      Unfolds b m context (.run fault callable arguments :: cues) (⟨fault, context, call⟩ :: episodes) last

namespace Unfolds

variable {b : Behaviour S E F X W} {m : Machine S E F X L} {context middle last : Context S E}
  {cues more : List (Cue S E F)} {episodes others : List (Episode S E F X L)}

theorem append (first : Unfolds b m context cues episodes middle) (second : Unfolds b m middle more others last) :
    Unfolds b m context (cues ++ more) (episodes ++ others) last := by
  induction first with
  | nil context => exact second
  | note _ ih => exact .note (ih second)
  | run runs _ ih => exact .run runs (ih second)

theorem exceptions (unfolds : Unfolds b m context cues episodes last) :
    last.exceptions = context.exceptions ++ (episodes.filterMap Episode.incident?).map (Incident.final b m) := by
  induction unfolds with
  | nil context => simp
  | note _ ih => exact ih
  | @run context last fault callable arguments call _ _ _ _ ih =>
    rw [ih]
    cases failed : call.exception? with
    | none => simp [Episode.after, Episode.incident?, failed]
    | some exception =>
      simp [Episode.after, Episode.incident?, failed, Incident.after, Context.addException]

end Unfolds

namespace Host

structure Writes (start host : Host S E F X L W) (entries : List (JournalEntry S E F X L))
    (failures : List (Failure S E)) : Prop where
  journal : host.journal = start.journal ++ entries
  failures : host.failures = start.failures ++ failures

namespace Writes

variable {start middle host : Host S E F X L W} {entries more : List (JournalEntry S E F X L)}
  {failures others : List (Failure S E)}

theorem refl (host : Host S E F X L W) : host.Writes host [] [] :=
  ⟨(List.append_nil _).symm, (List.append_nil _).symm⟩

theorem trans (first : start.Writes middle entries failures) (second : middle.Writes host more others) :
    start.Writes host (entries ++ more) (failures ++ others) where
  journal := by rw [second.journal, first.journal, List.append_assoc]
  failures := by rw [second.failures, first.failures, List.append_assoc]

theorem writeAll (host : Host S E F X L W) (entries : List (JournalEntry S E F X L)) :
    host.Writes (host.writeAll entries) entries [] := ⟨rfl, (List.append_nil _).symm⟩

theorem publish (host : Host S E F X L W) (subscribers : List (Subscriber L)) (notice : Notice S E) :
    host.Writes (host.publish subscribers notice) (subscribers.filterMap (Subscriber.note? notice))
      (subscribers.flatMap (Subscriber.collected notice)) := by
  rw [publish_eq]
  exact ⟨rfl, rfl⟩

theorem call (run : F → Input → W → Reply E W α)
    (entry : Callable F → Arguments → Outcome α → List (Post E) → JournalEntry S E F X L) (callable : Callable F)
    (arguments : Arguments) (host : Host S E F X L W) :
    ∃ sent, host.Writes (Host.call run entry callable arguments host).2
      [entry callable arguments (Host.call run entry callable arguments host).1 sent] [] := by
  unfold Host.call
  cases callable.receive arguments with
  | error error => exact ⟨[], rfl, (List.append_nil _).symm⟩
  | ok input => exact ⟨(run callable.code input host.world).sent, rfl, (List.append_nil _).symm⟩

end Writes

end Host

theorem Machine.handleException_writes (b : Behaviour S E F X W) (m : Machine S E F X L) (fault : Fault S E)
    (exception : Exception) (p : Progress S E F X L W) :
    let incident : Incident S E := ⟨fault, p.context, exception⟩
    p.host.Writes (m.handleException b fault exception p).host (incident.aftermath b m)
      (m.subscribers.flatMap (Subscriber.collected (incident.notice b m))) := by
  intro incident
  have asked := Host.Writes.writeAll p.host (inquiry m.info (.handlingException fault p.context)
    (fun extension current => b.exception extension m.info fault p.context current) m.extensions exception)
  have told := (asked.trans (.writeAll _ [.log (.callableFailed m.name fault (incident.final b m))])).trans
    (.publish _ m.subscribers (incident.notice b m))
  rw [handleException_eq]
  unfold announce
  rw [Host.announce_eq]
  have whole := told.trans (.writeAll _ (m.extensions.map
    (Extension.note m.info (.handledException fault (incident.after b m) (incident.final b m)))))
  simp only [List.append_assoc, List.singleton_append, List.nil_append, List.append_nil] at whole
  exact whole

structure Progress.Unfolds (b : Behaviour S E F X W) (m : Machine S E F X L) (p : Progress S E F X L W)
    (cues : List (Cue S E F)) (episodes : List (Episode S E F X L)) (q : Progress S E F X L W) : Prop where
  context : Statechart.Unfolds b m p.context cues episodes q.context
  host : p.host.Writes q.host (episodes.flatMap (Episode.entries b m)) (episodes.flatMap (Episode.failures b m))

def Progress.Plays (b : Behaviour S E F X W) (m : Machine S E F X L) (p : Progress S E F X L W)
    (cues : List (Cue S E F)) (q : Progress S E F X L W) : Prop := ∃ episodes, p.Unfolds b m cues episodes q

namespace Progress.Plays

variable {b : Behaviour S E F X W} {m : Machine S E F X L} {p q r : Progress S E F X L W}
  {cues more : List (Cue S E F)}

theorem refl (p : Progress S E F X L W) : p.Plays b m [] p := ⟨[], .nil _, .refl _⟩

theorem trans (first : p.Plays b m cues q) (second : q.Plays b m more r) : p.Plays b m (cues ++ more) r := by
  obtain ⟨episodes, before⟩ := first
  obtain ⟨others, after⟩ := second
  refine ⟨episodes ++ others, before.context.append after.context, ?_⟩
  rw [List.flatMap_append, List.flatMap_append]
  exact before.host.trans after.host

theorem foldl {step : Progress S E F X L W → α → Progress S E F X L W} {script : α → List (Cue S E F)}
    (plays : ∀ (p : Progress S E F X L W) item, p.Plays b m (script item) (step p item)) (items : List α)
    (p : Progress S E F X L W) : p.Plays b m (items.flatMap script) (items.foldl step p) := by
  induction items generalizing p with
  | nil => exact refl p
  | cons item rest ih => exact (plays p item).trans (ih _)

end Progress.Plays

def Transition.query (asked : Signal E) (candidate : Transition S F) : List (Cue S E F) :=
  (candidate.guard?.map fun guard =>
    .run (.guard ⟨candidate.source, asked.event, candidate.target?⟩) guard asked.arguments).toList

def Transition.deeds (asked : Signal E) (transition : Transition S F) : List (Cue S E F) :=
  transition.actions.map (.run (.action ⟨transition.source, asked.event, transition.target?⟩) · asked.arguments)

namespace Machine

def entryCues (m : Machine S E F X L) [DecidableEq S] (s : S) : List (Cue S E F) :=
  .note ⟨.enter, s⟩ :: (m.forest.node s).entry.map (.run (.entry s) · [])

def exitCues (m : Machine S E F X L) [DecidableEq S] (s : S) : List (Cue S E F) :=
  .note ⟨.exit, s⟩ :: (m.forest.node s).exit.map (.run (.exit s) · [])

def cues (m : Machine S E F X L) [DecidableEq S] (current : S) (asked : Signal E) (transition : Transition S F) :
    List (Cue S E F) :=
  match transition.target? with
  | none => transition.deeds asked
  | some target =>
    (m.exitsTo current transition.source target).flatMap m.exitCues ++ transition.deeds asked ++
      (m.entriesTo transition.source target ++ m.descentTo current transition.source target).flatMap m.entryCues

def initialCues (m : Machine S E F X L) [DecidableEq S] (initial : S) : List (Cue S E F) :=
  ((m.forest.lineage initial).reverse ++ m.forest.descent m.memory initial).flatMap m.entryCues

variable (b : Behaviour S E F X W) (m : Machine S E F X L)

theorem plays_answered {p : Progress S E F X L W} {fault : Fault S E} {callable : Callable F} {arguments : Arguments}
    {call : JournalEntry S E F X L} {host : Host S E F X L W} (called : p.host.Writes host [call] [])
    (runs : call.Runs fault callable arguments) (unfailing : call.exception? = none) :
    p.Plays b m [.run fault callable arguments] { p with host := host } := by
  have context : Episode.after b m ⟨fault, p.context, call⟩ = p.context := by
    simp [Episode.after, Episode.incident?, unfailing]
  refine ⟨[⟨fault, p.context, call⟩], .run runs (by rw [context]; exact .nil _), ?_⟩
  simpa [Episode.entries, Episode.failures, Episode.incident?, unfailing] using called

theorem plays_failed {p : Progress S E F X L W} {fault : Fault S E} {callable : Callable F} {arguments : Arguments}
    {call : JournalEntry S E F X L} {host : Host S E F X L W} {exception : Exception}
    (called : p.host.Writes host [call] []) (runs : call.Runs fault callable arguments)
    (failed : call.exception? = some exception) :
    p.Plays b m [.run fault callable arguments] (m.handleException b fault exception { p with host := host }) := by
  have context : Episode.after b m ⟨fault, p.context, call⟩ =
      (m.handleException b fault exception { p with host := host }).context := by
    rw [handleException_eq]
    simp only [Episode.after, Episode.incident?, failed]
    rfl
  refine ⟨[⟨fault, p.context, call⟩], .run runs (by rw [context]; exact .nil _), ?_⟩
  have handled := called.trans (m.handleException_writes b fault exception { p with host := host })
  simpa [Episode.entries, Episode.failures, Episode.incident?, failed] using handled

theorem perform_plays {fault : Fault S E} (action : fault.isGuard = false) (arguments : Arguments)
    (p : Progress S E F X L W) (callable : Callable F) :
    p.Plays b m [.run fault callable arguments] (m.perform b fault arguments p callable) := by
  obtain ⟨sent, called⟩ := Host.Writes.call b.action .action callable arguments p.host
  unfold perform
  rcases ran : Host.call b.action .action callable arguments p.host with ⟨outcome, host⟩
  rw [ran] at called
  cases outcome with
  | done answer => exact plays_answered b m called ⟨action, rfl, rfl⟩ rfl
  | crashed => exact plays_answered b m called ⟨action, rfl, rfl⟩ rfl
  | failed exception => exact plays_failed b m called ⟨action, rfl, rfl⟩ rfl

theorem performAll_plays (fault : Fault S E) (action : fault.isGuard = false) (arguments : Arguments)
    (actions : List (Callable F)) (p : Progress S E F X L W) :
    p.Plays b m (actions.map (.run fault · arguments)) (m.performAll b fault arguments actions p) := by
  have plays := Progress.Plays.foldl (m.perform_plays b action arguments) actions p
  rwa [← List.map_eq_flatMap] at plays

theorem guardPasses_plays (asked : Signal E) (candidate : Transition S F) (p : Progress S E F X L W)
    (arguments : p.context.arguments = asked.arguments) :
    p.Plays b m (candidate.query asked)
      (m.guardPasses b ⟨candidate.source, asked.event, candidate.target?⟩ candidate.guard? p).2 := by
  unfold guardPasses Transition.query
  cases candidate.guard? with
  | none => exact .refl p
  | some guard =>
    obtain ⟨sent, called⟩ := Host.Writes.call b.guard .guard guard asked.arguments p.host
    rcases ran : Host.call b.guard .guard guard asked.arguments p.host with ⟨outcome, host⟩
    rw [ran] at called
    simp only [arguments, ran]
    cases outcome with
    | done passes => exact plays_answered b m called ⟨rfl, rfl, rfl⟩ rfl
    | crashed => exact plays_answered b m called ⟨rfl, rfl, rfl⟩ rfl
    | failed exception => exact plays_failed b m called ⟨rfl, rfl, rfl⟩ rfl

theorem select_plays (asked : Signal E) (candidates : List (Transition S F)) (p : Progress S E F X L W)
    (arguments : p.context.arguments = asked.arguments) :
    let selected := m.select b asked.event candidates p
    selected.1 = none ∧ p.Plays b m (candidates.flatMap (Transition.query asked)) selected.2 ∨
      ∃ passed chosen rest, selected.1 = some chosen ∧ candidates = passed ++ chosen :: rest ∧
        p.Plays b m ((passed ++ [chosen]).flatMap (Transition.query asked)) selected.2 := by
  induction candidates generalizing p with
  | nil => exact .inl ⟨rfl, .refl p⟩
  | cons candidate rest ih =>
    have looked := m.guardPasses_extends b ⟨candidate.source, asked.event, candidate.target?⟩ candidate.guard? p
    have played := m.guardPasses_plays b asked candidate p arguments
    unfold select
    cases passes : (m.guardPasses b ⟨candidate.source, asked.event, candidate.target?⟩ candidate.guard? p).1 with
    | true =>
      simp only [passes, if_true]
      refine .inr ⟨[], candidate, rest, rfl, rfl, ?_⟩
      rw [List.nil_append, List.flatMap_singleton]
      exact played
    | false =>
      simp only [passes]
      rcases ih _ (looked.arguments.trans arguments) with ⟨none, plays⟩ | ⟨passed, chosen, others, found, split, plays⟩
      · exact .inl ⟨none, played.trans plays⟩
      · exact .inr ⟨candidate :: passed, chosen, others, found, congrArg (candidate :: ·) split, played.trans plays⟩

variable [DecidableEq S]

theorem enter_plays (p : Progress S E F X L W) (s : S) : p.Plays b m (m.entryCues s) (m.enter b p s) := by
  obtain ⟨episodes, entered⟩ := m.performAll_plays b (.entry s) rfl [] (m.forest.node s).entry
    { p with context := p.context.addRecord .enter s }
  exact ⟨episodes, .note entered.context, entered.host⟩

theorem exit_plays (p : Progress S E F X L W) (s : S) : p.Plays b m (m.exitCues s) (m.exit b p s) := by
  obtain ⟨episodes, left⟩ := m.performAll_plays b (.exit s) rfl [] (m.forest.node s).exit
    { p with context := p.context.addRecord .exit s }
  exact ⟨episodes, .note left.context, left.host⟩

theorem enterAll_plays (states : List S) (p : Progress S E F X L W) :
    p.Plays b m (states.flatMap m.entryCues) (m.enterAll b states p) := Progress.Plays.foldl (m.enter_plays b) states p

theorem exitAll_plays (states : List S) (p : Progress S E F X L W) :
    p.Plays b m (states.flatMap m.exitCues) (m.exitAll b states p) := Progress.Plays.foldl (m.exit_plays b) states p

variable {b m} {current initial : S} {signal asked : Signal E} {host : Host S E F X L W}
  {p : Progress S E F X L W} {transition : Transition S F} {done : Completed S E F X L W}

theorem execute_plays (tree : m.forest.WellFormed) (memory : p.memory = m.memory)
    (arguments : p.context.arguments = asked.arguments) (above : transition.source ∈ m.forest.lineage current) :
    (m.begin current asked.event p).Plays b m (m.cues current asked transition)
      (m.execute b current asked.event transition p).2 := by
  unfold cues Transition.deeds
  cases target? : transition.target? with
  | none =>
    rw [execute_internal target?, arguments]
    exact m.performAll_plays b _ rfl _ _ _
  | some target =>
    rw [execute_external tree memory above target?]
    simp only [carryOut]
    rw [show (m.begin current asked.event p).context.arguments = asked.arguments from arguments]
    exact ((m.exitAll_plays b _ _).trans (m.performAll_plays b _ rfl _ _ _)).trans (m.enterAll_plays b _ _)

end Machine

end Statechart
