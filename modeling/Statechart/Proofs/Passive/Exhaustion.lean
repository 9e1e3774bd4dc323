import Statechart.Proofs.Machine.Expense
import Statechart.Proofs.Passive.Law

namespace Statechart

def Request.submitted {S E : Type} : Request S E → Nat
  | .submit _ => 1
  | _ => 0

namespace Passive

variable {S E F X L W : Type}

structure Labours (b : Behaviour S E F X W) (p : Passive S E F X L) (host : Host S E F X L W) (fires : Nat)
    (sent : List (Post E)) (p' : Passive S E F X L) (host' : Host S E F X L W) : Prop where
  performs : host.Performs b p.machine.routines fires sent host'
  quiet : host'.outbox = []
  routines : p'.machine.routines = p.machine.routines

variable {b : Behaviour S E F X W} {n rounds fires more : Nat} {p p' p'' : Passive S E F X L}
  {host host' host'' : Host S E F X L W} {sent sent' : List (Post E)} {log : List (Affair E)}
  {answer : Answer S E F X L W} {asked : Request S E}

theorem Labours.trans (first : p.Labours b host fires sent p' host')
    (second : p'.Labours b host' more sent' p'' host'') :
    p.Labours b host (fires + more) (sent ++ sent') p'' host'' where
  performs := by
    have performs := second.performs
    rw [first.routines] at performs
    exact first.performs.trans performs
  quiet := second.quiet
  routines := second.routines.trans first.routines

theorem Labours.after (first : p.Labours b host 0 [] p' host') (second : p'.Labours b host' fires sent p'' host'') :
    p.Labours b host fires sent p'' host'' := by
  have both := first.trans second
  rwa [Nat.zero_add, List.nil_append] at both

theorem Labours.frugal (labours : p.Labours b host fires sent p' host')
    (frugal : b.Frugal p.machine.routines host.world) : b.Frugal p'.machine.routines host'.world := by
  obtain ⟨sendings, calls, _⟩ := labours.performs.calls
  rw [labours.routines]
  exact frugal.after calls

section Quiet

variable (quiet : host.outbox = [])

include quiet

theorem labours_idle (b : Behaviour S E F X W) (same : p'.machine = p.machine) : p.Labours b host 0 [] p' host :=
  ⟨.refl b p.machine.routines host, quiet, congrArg Machine.routines same⟩

theorem labours_announce (b : Behaviour S E F X W) (same : p'.machine = p.machine) (hook : Hook S E)
    (aside : hook.isAboutQueue) : p.Labours b host 0 [] p' (p.machine.announce hook host) :=
  ⟨(Host.Performs.refl b p.machine.routines host).announce _ _ _,
    (Host.alike_announce aside _ _).outbox.trans quiet, congrArg Machine.routines same⟩

theorem labours_start (b : Behaviour S E F X W) (p : Passive S E F X L) :
    p.Labours b host 0 [] { p with running := true } (p.machine.announce .started host) :=
  labours_announce quiet b (by rfl) .started rfl

theorem labours_stop (b : Behaviour S E F X W) (p : Passive S E F X L) :
    p.Labours b host 0 [] (p.stop host).1 (p.stop host).2 := by
  unfold stop
  split
  · exact labours_announce quiet b (by rfl) .stopped rfl
  · exact labours_idle quiet b rfl

theorem labours_enqueue (b : Behaviour S E F X W) (p : Passive S E F X L) (post : Post E) :
    p.Labours b host 0 [] (p.enqueue post host).1 (p.enqueue post host).2 := by
  unfold enqueue
  split
  · exact labours_announce quiet b (by rfl) (.eventQueuedWithPriority post.signal) rfl
  · exact labours_announce quiet b (by rfl) (.eventQueued post.signal) rfl

theorem labours_drain (b : Behaviour S E F X W) (p : Passive S E F X L) :
    p.Labours b host 0 [] (p.drain host).1 (p.drain host).2 := by
  induction arrived : p.inbox generalizing p host with
  | nil =>
    unfold drain
    rw [arrived]
    exact labours_idle quiet b rfl
  | cons post rest ih =>
    rw [drain_cons arrived]
    have taken : p.Labours b host 0 [] { p with inbox := rest } host := labours_idle quiet b rfl
    have queued := taken.after (labours_enqueue quiet b { p with inbox := rest } post)
    exact queued.after (ih queued.quiet _ (congrArg Passive.inbox enqueue_fst))

variable [DecidableEq S]

theorem labours_initializeAt {state : S} {machine : Machine S E F X L}
    (initializes : p.machine.initializeAt b state host = .ok (machine, host')) :
    p.Labours b host 0 [] { p with machine := machine, pending := true } host' := by
  obtain ⟨same, performs⟩ := Machine.initializeAt_performs initializes p.machine.routines
  exact ⟨performs, (initializeAt_kept initializes).2.trans quiet, same⟩

variable [DecidableEq E]

theorem Advances.labours (advances : p.Advances b host n log p' host') : p.Labours b host n (posts log) p' host' := by
  induction advances with
  | entered => exact labours_drain quiet b p
  | enter pending enters =>
    have drained := labours_drain quiet b p
    rw [drain_fst] at drained
    obtain ⟨sent, performs, outbox⟩ := Machine.enterInitialState_performs enters
    rw [drained.quiet, List.nil_append] at outbox
    rw [posts_map_posted, outbox]
    -- what was sent is taken out of the outbox, and nothing else is touched
    exact drained.after ⟨⟨performs.journal, performs.calls⟩, rfl,
      (Machine.enterInitialState_resembles enters).1.routines_eq⟩
  | @round _ _ p' _ _ _ _ before waits fires ih =>
    have drained := labours_drain ih.quiet b p'
    rw [drain_fst] at drained
    obtain ⟨sent, performs, outbox⟩ := Machine.fire_performs fires
    rw [drained.quiet, List.nil_append] at outbox
    rw [posts_round, outbox]
    exact ih.trans (drained.after ⟨⟨performs.journal, performs.calls⟩, rfl,
      (Machine.fire_resembles fires).2.2.1.routines_eq⟩)

theorem exists_postsAtMost (frugal : b.Frugal p.machine.routines host.world) : ∃ most, p.PostsAtMost b host most := by
  obtain ⟨most, total⟩ := frugal.total
  refine ⟨most, fun n log p' host' advances => ?_⟩
  obtain ⟨sendings, calls, flat⟩ := (advances.labours quiet).performs.calls
  rw [← flat]
  exact total _ _ calls

end Quiet

theorem length_backlog (p : Passive S E F X L) : p.backlog.length = p.queue.length + p.inbox.length :=
  length_queueUp p.inbox p.queue

variable [DecidableEq S] [DecidableEq E]

theorem Advances.rests (quiet : host.outbox = []) (advances : p.Advances b host n log p' host')
    (idle : p'.backlog = []) :
    p.Labours b host n (posts log) { p' with queue := [], inbox := [] } (p'.drain host').2 ∧
      n = p.queue.length + p.inbox.length + (posts log).length := by
  have worked := advances.labours quiet
  have drained := labours_drain worked.quiet b p'
  rw [drain_fst, idle] at drained
  have whole := worked.trans drained
  have account := advances.account
  rw [idle, List.length_nil, Nat.add_zero, length_backlog] at account
  rw [List.append_nil] at whole
  exact ⟨whole, account⟩

theorem Executes.quiet (quiet : host.outbox = []) (executes : p.Executes b host log answer) :
    answer.host.outbox = [] := by
  cases executes with
  | stopped | blocked => exact (labours_drain quiet b p).quiet
  | @works _ _ p' _ _ _ advances ends =>
    have drained := labours_drain (advances.labours quiet).quiet b p'
    cases ends with
    | idle | refused => exact drained.quiet

/-- A call that makes a machine work. -/
def Wakes (p : Passive S E F X L) : Request S E → Prop
  | .submit _ => p.running
  | .start => p.running = false ∧ p.machine.isInitialized
  | _ => False

/-- A call that returns, with what was done in it. A machine that it makes work fires every event once, those that
    waited and those that were sent meanwhile. -/
structure Exhausts (b : Behaviour S E F X W) (p : Passive S E F X L) (host : Host S E F X L W) (asked : Request S E)
    (answer : Answer S E F X L W) (fires : Nat) (sent : List (Post E)) : Prop where
  returns : ∀ rounds, fires < rounds → p.request b rounds host asked = some answer
  labours : p.Labours b host fires sent answer.passive answer.host
  counts : p.Wakes asked → answer.result = .ok () ∧ answer.passive.queue = [] ∧ answer.passive.inbox = [] ∧
    fires = p.queue.length + p.inbox.length + asked.submitted + sent.length

inductive Begins (b : Behaviour S E F X W) (p : Passive S E F X L) (host : Host S E F X L W) (asked : Request S E) :
    Prop where
  | answered (answer : Answer S E F X L W) (answers : ∀ rounds, p.request b rounds host asked = some answer)
      (labours : p.Labours b host 0 [] answer.passive answer.host) (asleep : ¬p.Wakes asked)
  | executes (q : Passive S E F X L) (h : Host S E F X L W)
      (goesOn : ∀ rounds, p.request b rounds host asked = q.execute b rounds h) (inUse : q.InUse) (inStep : q.InStep)
      (labours : p.Labours b host 0 [] q h) (running : p.Wakes asked → q.running)
      (waits : p.Wakes asked → q.queue.length + q.inbox.length = p.queue.length + p.inbox.length + asked.submitted)

section InStep

variable (inUse : p.InUse) (inStep : p.InStep) (quiet : host.outbox = [])

include inUse inStep quiet

theorem exists_executed (frugal : b.Frugal p.machine.routines host.world) : ∃ answer fires sent,
    (∀ rounds, fires < rounds → p.execute b rounds host = some answer) ∧
      p.Labours b host fires sent answer.passive answer.host ∧
      (p.running → answer.result = .ok () ∧ answer.passive.queue = [] ∧ answer.passive.inbox = [] ∧
        fires = p.queue.length + p.inbox.length + sent.length) := by
  cases running : p.running with
  | false =>
    have drained := labours_drain quiet b p
    rw [drain_fst] at drained
    refine ⟨⟨.ok (), { p with queue := p.backlog, inbox := [] }, (p.drain host).2⟩, 0, [], fun rounds _ => ?_, drained,
      nofun⟩
    unfold execute
    simp only [drain_fst, running, Bool.not_false, if_true]
  | true =>
    obtain ⟨most, bounded⟩ := exists_postsAtMost quiet frugal
    obtain ⟨n, log, p', host', advances, idle⟩ := exists_idle (inUse.started running) inStep running bounded
    obtain ⟨labours, count⟩ := advances.rests quiet idle
    refine ⟨⟨.ok (), _, _⟩, n, posts log, fun rounds enough => ?_, labours, fun _ => ⟨rfl, rfl, rfl, count⟩⟩
    obtain ⟨rest, rfl⟩ := Nat.exists_eq_add_of_lt enough
    have executed := advances.execute running (rest + 1)
    rw [(Ends.idle idle).work] at executed
    rw [← executed]
    congr 1
    omega

theorem begins (b : Behaviour S E F X W) (asked : Request S E) : p.Begins b host asked := by
  cases asked with
  | initializeAt state =>
    cases initializes : p.machine.initializeAt b state host with
    | error error =>
      refine .answered ⟨.error error, p, host⟩ (fun rounds => ?_) (labours_idle quiet b rfl) id
      unfold request initializeAt
      simp only [initializes]
    | ok fresh =>
      obtain ⟨inUse, inStep⟩ := inUse.initializeAt initializes
      refine .executes _ _ (fun rounds => ?_) inUse inStep (labours_initializeAt quiet initializes) nofun nofun
      unfold request initializeAt
      simp only [initializes]
  | submit post =>
    refine .executes (p.enqueue post host).1 (p.enqueue post host).2 (fun _ => rfl) inUse.enqueue inStep.enqueue
      (labours_enqueue quiet b p post) ?_ fun _ => ?_
    · rw [enqueue_fst]
      exact id
    · have queued := length_queueUp [post] p.queue
      rw [enqueue_fst]
      change (queueUp p.queue post).length = p.queue.length + 1 at queued
      change (queueUp p.queue post).length + p.inbox.length = p.queue.length + p.inbox.length + 1
      omega
  | send post => exact .answered _ (fun _ => rfl) (labours_idle quiet b rfl) id
  | start =>
    cases running : p.running with
    | true =>
      refine .answered ⟨.ok (), p, host⟩ (fun rounds => ?_) (labours_idle quiet b rfl) ?_
      · unfold request start
        simp only [running, if_true]
      · simp [Wakes, running]
    | false =>
      cases ready : p.machine.isInitialized with
      | false =>
        refine .answered ⟨.error .notInitialized, p, host⟩ (fun rounds => ?_) (labours_idle quiet b rfl) ?_
        · unfold request start
          simp only [running, ready, Bool.false_eq_true, if_false, Bool.not_false, if_true]
        · simp [Wakes, ready]
      | true =>
        refine .executes { p with running := true } _ (fun rounds => ?_) ⟨inUse.ready, fun _ => ready⟩ inStep
          (labours_start quiet b p) (fun _ => rfl) fun _ => rfl
        unfold request start
        simp only [running, ready, Bool.false_eq_true, if_false, Bool.not_true]
  | stop => exact .answered _ (fun _ => rfl) (labours_stop quiet b p) id

theorem exists_exhausts (frugal : b.Frugal p.machine.routines host.world) (asked : Request S E) :
    ∃ answer fires sent, p.Exhausts b host asked answer fires sent := by
  cases begins inUse inStep quiet b asked with
  | answered answer answers labours asleep =>
    exact ⟨answer, 0, [], fun rounds _ => answers rounds, labours, fun wakes => absurd wakes asleep⟩
  | executes q h goesOn inUse inStep first running waits =>
    obtain ⟨answer, fires, sent, executed, labours, counts⟩ :=
      exists_executed inUse inStep first.quiet (first.frugal frugal)
    refine ⟨answer, fires, sent, fun rounds enough => (goesOn rounds).trans (executed rounds enough),
      first.after labours, fun wakes => ?_⟩
    rw [← waits wakes]
    exact counts (running wakes)

theorem request_quiet (requested : p.request b rounds host asked = some answer) : answer.host.outbox = [] := by
  cases begins inUse inStep quiet b asked with
  | answered answer answers labours =>
    rw [answers] at requested
    cases requested
    exact labours.quiet
  | executes q h goesOn inUse inStep first =>
    rw [goesOn] at requested
    obtain ⟨log, executes⟩ := executes_of_execute requested
    exact executes.quiet first.quiet

variable [DecidableEq X]

theorem attendAll_quiet {errands : List (Errand S E F X L)} (pass : ∀ errand ∈ errands, errand.bypasses = false)
    (attended : p.attendAll b rounds host errands = some (p', host')) : host'.outbox = [] := by
  induction errands using List.reverseRec generalizing p' host' with
  | nil =>
    cases attended
    exact quiet
  | append_singleton errands errand ih =>
    obtain ⟨q, h, before, last⟩ := attendAll_snoc attended
    have pass' := fun other member => pass other (List.mem_append_left _ member)
    cases errand with
    | ask request =>
      obtain ⟨answer, requested, same⟩ := Option.map_eq_some_iff.mp last
      cases same
      exact request_quiet (inUse.attendAll before) (inStep.attendAll inUse pass' before) (ih pass' before) requested
    | call call =>
      cases last
      rfl

theorem exists_attendAll (frugal : b.Frugal p.machine.routines host.world) (requests : List (Request S E)) :
    ∃ enough q h, (∀ rounds, enough < rounds → p.attendAll b rounds host (requests.map .ask) = some (q, h)) ∧
      ∀ asked, ∃ answer fires sent, q.Exhausts b h asked answer fires sent := by
  induction requests generalizing p host with
  | nil => exact ⟨0, p, host, fun _ _ => rfl, fun asked => exists_exhausts inUse inStep quiet frugal asked⟩
  | cons first rest ih =>
    -- what the first call leaves of the budgets has to do for the others
    obtain ⟨answer, fires, sent, exhausts⟩ := exists_exhausts inUse inStep quiet frugal first
    obtain ⟨log, handles⟩ := handles_of_request (exhausts.returns _ (Nat.lt_succ_self fires))
    obtain ⟨enough, q, h, others, exhausts'⟩ := ih (handles.inUse inUse) (handles.inStep_of_inStep inUse inStep)
      exhausts.labours.quiet (exhausts.labours.frugal frugal)
    refine ⟨fires + enough, q, h, fun rounds many => ?_, exhausts'⟩
    have returned := exhausts.returns rounds (by omega)
    have later := others rounds (by omega)
    unfold attendAll at later ⊢
    rw [List.map_cons, List.foldlM_cons]
    simp only [attend, returned]
    exact later

end InStep

/-- Work ends when sending does. Whatever was done with a machine, if each of its guards and actions can send only so
    much from now on, then every call returns, however many are made. A call that makes the machine work fires as many
    events as waited, came with the call, and were sent during the call. -/
theorem attendAll_exhausts [DecidableEq X] (config : Config) (host₀ : Host S E F X L W) (b : Behaviour S E F X W)
    (calls : List (Call S E F X L)) {errands : List (Errand S E F X L)} {rounds : Nat} {host host' : Host S E F X L W}
    {p : Passive S E F X L} (pass : ∀ errand ∈ errands, errand.bypasses = false) (quiet : host.outbox = [])
    (attended : (ofMachine ((Run.start config host₀).callAll b calls).machine).attendAll b rounds host errands =
      some (p, host')) (frugal : b.Frugal p.machine.routines host'.world) (requests : List (Request S E)) :
    ∃ enough q h, (∀ rounds, enough < rounds → p.attendAll b rounds host' (requests.map .ask) = some (q, h)) ∧
      ∀ asked, ∃ answer fires sent, q.Exhausts b h asked answer fires sent := by
  have built := Run.callAll_wellFormed b (r := Run.start config host₀) (Machine.wellFormed_ofConfig config) calls
  have inUse := inUse_ofMachine built
  have inStep := inStep_ofMachine ((Run.start config host₀).callAll b calls).machine
  exact exists_attendAll (inUse.attendAll attended) (inStep.attendAll inUse pass attended)
    (attendAll_quiet inUse inStep quiet pass attended) frugal requests

end Passive

def Lamp.thrifty : Behaviour Lamp Switch Unit Empty Nat where
  guard _ _ coins := ⟨.done true, [], coins⟩
  action _ _ coins := ⟨.done (), List.replicate (min 1 coins) ⟨⟨.toggle, []⟩, true⟩, coins - 1⟩
  initialState x := x.elim
  signal x := x.elim
  exception x := x.elim

theorem Lamp.frugal_thrifty (routines : List (Routine Unit)) (coins : Nat) :
    Lamp.thrifty.Frugal routines coins := by
  refine Behaviour.frugal_of_fund id (fun routine _ input left => ?_) coins
  cases routine with
  | guard => exact Nat.le_of_eq (Nat.zero_add _)
  | action =>
    change (List.replicate (min 1 left) _).length + (left - 1) ≤ left
    rw [List.length_replicate]
    omega

namespace Passive

/-- The lamp is lit and turned up, and its code switches it off again: three events for two presses. -/
theorem attendAll_exhausts_lamp :
    let fresh := ofMachine ((Run.start .standard (.ofWorld 2)).callAll Lamp.thrifty Lamp.definition).machine
    let presses : List (Errand Lamp Switch Unit Empty Empty) :=
      [.ask (.submit ⟨⟨.toggle, []⟩, false⟩), .ask (.submit ⟨⟨.turn, []⟩, false⟩)]
    ∃ p host answer, fresh.attendAll Lamp.thrifty 9 (.ofWorld 2) presses = some (p, host) ∧
      p.queue = [⟨.toggle, []⟩, ⟨.turn, []⟩] ∧ answer.passive.machine.current? = some .off ∧
      p.Exhausts Lamp.thrifty host .start answer 3 [⟨⟨.toggle, []⟩, true⟩] := by
  intro fresh presses
  have attended : (fresh.attendAll Lamp.thrifty 9 (.ofWorld 2) presses).any (fun result =>
      result.1.queue = [⟨.toggle, []⟩, ⟨.turn, []⟩] ∧ result.1.running = false ∧ result.1.machine.isInitialized ∧
        result.2.journal = [] ∧ (result.1.start Lamp.thrifty 9 result.2).any fun answer =>
          answer.passive.machine.current? = some .off ∧
          (answer.host.journal.filterMap JournalEntry.concluded?).length = 3 ∧
          answer.host.journal.flatMap JournalEntry.sent = [⟨⟨.toggle, []⟩, true⟩]) = true := by decide +kernel
  obtain ⟨⟨p, host⟩, ends, found⟩ := (Option.any_eq_true _ _).mp attended
  obtain ⟨waits, stopped, ready, unwritten, starts⟩ := of_decide_eq_true found
  obtain ⟨answer, started, last⟩ := (Option.any_eq_true _ _).mp starts
  obtain ⟨off, concluded, told⟩ := of_decide_eq_true last
  have pass : ∀ errand ∈ presses, errand.bypasses = false := by simp [presses, Errand.bypasses]
  obtain ⟨enough, q, h, returned, exhausted⟩ := attendAll_exhausts .standard (.ofWorld 2) Lamp.thrifty Lamp.definition
    pass rfl ends (Lamp.frugal_thrifty _ _) []
  obtain ⟨rfl, rfl⟩ : p = q ∧ host = h := by simpa [attendAll] using returned _ (Nat.lt_succ_self enough)
  obtain ⟨answer', fires, sent, exhausts⟩ := exhausted .start
  have inUse : fresh.InUse := inUse_ofMachine (Run.callAll_wellFormed _ (Machine.wellFormed_ofConfig _) _)
  have inStep : p.InStep := (inStep_ofMachine _).attendAll inUse pass ends
  -- both come to an end, and with rounds enough they are one and the same start
  obtain ⟨n, _, _, _, advances, ended⟩ := ends_of_start stopped ready inStep started
  have same := (exhausts.returns (fires + n + 1) (by omega)).symm.trans
    (start_of_ends stopped ready advances ended (by omega))
  obtain rfl := Option.some.inj same
  obtain ⟨entries, journal, fired, sent', _⟩ := exhausts.labours.performs.journal
  rw [unwritten, List.nil_append] at journal
  rw [← journal, concluded] at fired
  rw [← journal, told] at sent'
  rw [← fired, ← sent'] at exhausts
  exact ⟨p, host, answer', ends, waits, off, exhausts⟩

end Passive

end Statechart
