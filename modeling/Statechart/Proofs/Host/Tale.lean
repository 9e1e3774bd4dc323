import Statechart.Proofs.Host.Audience

namespace Statechart

variable {S E F X L W α : Type}

inductive Happening (S E F X W : Type) where
  | logged (line : LogLine S E)
  | shown (extension : Extension X) (info : Info S) (hook : Hook S E)
  | guarded (callable : Callable F) (arguments : Arguments) (reply : Reply E W Bool)
  | acted (callable : Callable F) (arguments : Arguments) (reply : Reply E W Unit)
  | published (notice : Notice S E)
  | collected

namespace Happening

def notices : Happening S E F X W → List (Notice S E)
  | published notice => [notice]
  | _ => []

def raised : Happening S E F X W → List Raised
  | guarded _ _ reply => (reply.outcome.exception?.map .byGuard).toList
  | acted _ _ reply => (reply.outcome.exception?.map .byAction).toList
  | _ => []

end Happening

namespace Host

def play (audience : List (Subscriber L)) (host : Host S E F X L W) : Happening S E F X W → Host S E F X L W
  | .logged line => host.log line
  | .shown extension info hook => host.tell info hook extension
  | .guarded callable arguments reply => host.accept reply (.guard callable arguments reply.outcome reply.sent)
  | .acted callable arguments reply => host.accept reply (.action callable arguments reply.outcome reply.sent)
  | .published notice => host.publish audience notice
  | .collected => { host with outbox := [] }

def playAll (audience : List (Subscriber L)) (host : Host S E F X L W) (tale : List (Happening S E F X W)) :
    Host S E F X L W :=
  tale.foldl (play audience) host

variable {audience audience' : List (Subscriber L)} {start start' host host' : Host S E F X L W}

theorem play_publishes (audience : List (Subscriber L)) (host : Host S E F X L W) (happening : Happening S E F X W) :
    host.Publishes audience (host.play audience happening) happening.notices happening.raised := by
  have silent : host.Publishes audience host [] [] := .refl host
  cases happening with
  | logged line => exact silent.log line
  | shown extension info hook =>
    rw [play, tell_eq]
    cases extension <;> exact silent.writeAll rfl rfl
  | guarded callable arguments reply =>
    have written : (host.play audience (.guarded callable arguments reply)).journal =
      host.journal ++ [.guard callable arguments reply.outcome reply.sent] := rfl
    exact silent.take written rfl rfl
  | acted callable arguments reply =>
    have written : (host.play audience (.acted callable arguments reply)).journal =
      host.journal ++ [.action callable arguments reply.outcome reply.sent] := rfl
    exact silent.take written rfl rfl
  | published notice => exact silent.publish notice
  | collected => exact ⟨silent.told, silent.failures, silent.raised⟩

theorem playAll_publishes (audience : List (Subscriber L)) (host : Host S E F X L W)
    (tale : List (Happening S E F X W)) :
    host.Publishes audience (host.playAll audience tale) (tale.flatMap Happening.notices)
      (tale.flatMap Happening.raised) := by
  unfold playAll
  induction tale generalizing host with
  | nil => exact .refl host
  | cons happening rest ih =>
    rw [List.flatMap_cons, List.flatMap_cons]
    exact (play_publishes audience host happening).trans (ih _)

def Matches (host host' : Host S E F X L W) : Prop := host' = { host with failures := host'.failures }

theorem Matches.play (pair : host.Matches host')
    (listeners : audience'.filterMap Subscriber.listener? = audience.filterMap Subscriber.listener?)
    (happening : Happening S E F X W) : (host.play audience happening).Matches (host'.play audience' happening) := by
  have told (notice : Notice S E) (subscribers : List (Subscriber L)) :
      subscribers.filterMap (Subscriber.note? (F := F) (X := X) notice) =
        (subscribers.filterMap Subscriber.listener?).map (.notice · notice) := by
    rw [List.map_filterMap]
    congr 1
    funext subscriber
    cases subscriber <;> rfl
  obtain ⟨world, outbox, failures, journal, crash?⟩ := host'
  cases pair
  cases happening with
  | logged | guarded | acted | collected => rfl
  | shown extension => cases extension <;> rfl
  | published notice =>
    simp only [Matches, Host.play, publish_eq, told, listeners]

theorem Matches.playAll (pair : host.Matches host')
    (listeners : audience'.filterMap Subscriber.listener? = audience.filterMap Subscriber.listener?)
    (tale : List (Happening S E F X W)) : (host.playAll audience tale).Matches (host'.playAll audience' tale) := by
  unfold Host.playAll
  induction tale generalizing host host' with
  | nil => exact pair
  | cons happening rest ih => exact ih (pair.play listeners happening)

/-- The same happened on two hosts since two moments, each before an audience of its own. -/
structure Retells (audience audience' : List (Subscriber L)) (start start' host host' : Host S E F X L W) : Prop where
  world : host'.world = host.world
  outbox : host'.outbox = host.outbox
  tale : ∃ tale, host = start.playAll audience tale ∧ host' = start'.playAll audience' tale

namespace Retells

theorem refl (world : start'.world = start.world) (outbox : start'.outbox = start.outbox) :
    Retells audience audience' start start' start start' :=
  ⟨world, outbox, [], rfl, rfl⟩

theorem of_matches (pair : host.Matches host') : Retells audience audience' host host' host host' := by
  have same : host' = { host with failures := host'.failures } := pair
  exact .refl (by rw [same]) (by rw [same])

theorem publishes (retells : Retells audience audience' start start' host host') :
    ∃ notices raised, start.Publishes audience host notices raised ∧
      start'.Publishes audience' host' notices raised := by
  obtain ⟨tale, rfl, rfl⟩ := retells.tale
  exact ⟨_, _, playAll_publishes audience start tale, playAll_publishes audience' start' tale⟩

theorem matches_of_listeners (retells : Retells audience audience' start start' host host')
    (pair : start.Matches start')
    (listeners : audience'.filterMap Subscriber.listener? = audience.filterMap Subscriber.listener?) :
    host.Matches host' := by
  obtain ⟨tale, rfl, rfl⟩ := retells.tale
  exact pair.playAll listeners tale

theorem play (retells : Retells audience audience' start start' host host') (happening : Happening S E F X W) :
    Retells audience audience' start start' (host.play audience happening) (host'.play audience' happening) := by
  obtain ⟨tale, here, there⟩ := retells.tale
  have same : (host'.play audience' happening).world = (host.play audience happening).world ∧
      (host'.play audience' happening).outbox = (host.play audience happening).outbox := by
    cases happening with
    | logged => exact ⟨retells.world, retells.outbox⟩
    | guarded | acted => exact ⟨rfl, congrArg (· ++ _) retells.outbox⟩
    | collected => exact ⟨retells.world, rfl⟩
    | shown extension =>
      simp only [Host.play, tell_eq]
      exact ⟨retells.world, retells.outbox⟩
    | published notice =>
      simp only [Host.play, publish_eq]
      exact ⟨retells.world, retells.outbox⟩
  refine ⟨same.1, same.2, tale ++ [happening], ?_, ?_⟩
  · rw [here, playAll, playAll, List.foldl_append]
    rfl
  · rw [there, playAll, playAll, List.foldl_append]
    rfl

theorem log (retells : Retells audience audience' start start' host host') (line : LogLine S E) :
    Retells audience audience' start start' (host.log line) (host'.log line) := retells.play (.logged line)

theorem publish (retells : Retells audience audience' start start' host host') (notice : Notice S E) :
    Retells audience audience' start start' (host.publish audience notice) (host'.publish audience' notice) :=
  retells.play (.published notice)

theorem announce (retells : Retells audience audience' start start' host host') (extensions : List (Extension X))
    (info : Info S) (hook : Hook S E) :
    Retells audience audience' start start' (host.announce extensions info hook)
      (host'.announce extensions info hook) := by
  unfold Host.announce
  induction extensions generalizing host host' with
  | nil => exact retells
  | cons extension rest ih => exact ih (retells.play (.shown extension info hook))

theorem inquire (retells : Retells audience audience' start start' host host') (info : Info S) (question : α → Hook S E)
    (answer : X → α → Option α) (extensions : List (Extension X)) (value : α) :
    Retells audience audience' start start' (host.writeAll (inquiry info question answer extensions value))
      (host'.writeAll (inquiry info question answer extensions value)) := by
  induction extensions generalizing value host host' with
  | nil =>
    have still (host : Host S E F X L W) : host.writeAll [] = host := by simp [writeAll]
    rw [inquiry, still, still]
    exact retells
  | cons extension rest ih =>
    have asked := retells.play (.shown extension info (question value))
    simp only [Host.play, tell_eq] at asked
    rw [inquiry, ← List.singleton_append, ← writeAll_append, ← writeAll_append]
    exact ih asked _

theorem accept_refused (host : Host S E F X L W) (exception : Exception) (entry : JournalEntry S E F X L) :
    host.accept (⟨.failed exception, [], host.world⟩ : Reply E W α) entry = host.write entry := by
  unfold accept write
  cases crashed : host.crash? <;> simp [← crashed]

theorem call (retells : Retells audience audience' start start' host host') (run : F → Input → W → Reply E W α)
    (entry : Callable F → Arguments → Outcome α → List (Post E) → JournalEntry S E F X L)
    (happens : Callable F → Arguments → Reply E W α → Happening S E F X W)
    (plays : ∀ audience (host : Host S E F X L W) callable arguments reply,
      host.play audience (happens callable arguments reply) =
        host.accept reply (entry callable arguments reply.outcome reply.sent))
    (callable : Callable F) (arguments : Arguments) :
    (Host.call run entry callable arguments host').1 = (Host.call run entry callable arguments host).1 ∧
      Retells audience audience' start start' (Host.call run entry callable arguments host).2
        (Host.call run entry callable arguments host').2 := by
  unfold Host.call
  cases callable.receive arguments with
  | error error =>
    have refused := retells.play (happens callable arguments ⟨.failed (.argument error), [], host.world⟩)
    rw [plays, plays, accept_refused, ← retells.world, accept_refused] at refused
    exact ⟨rfl, refused⟩
  | ok input =>
    have replied := retells.play (happens callable arguments (run callable.code input host.world))
    rw [plays, plays] at replied
    simp only [retells.world]
    exact ⟨trivial, replied⟩

end Retells

end Host

end Statechart
