import Statechart.Proofs.Passive.Course
import Statechart.Proofs.Passive.Sequence

namespace Statechart.Passive

variable {S E F X L W : Type} [DecidableEq S] [DecidableEq E] [DecidableEq X]

/-- How work goes, whether it ends or goes on for more than so many rounds. -/
inductive Pursues (b : Behaviour S E F X W) (p : Passive S E F X L) (host : Host S E F X L W) (rounds : Nat) :
    List (Beat E) → Option (Answer S E F X L W) → Prop where
  | ends {history : List (Beat E)} {answer : Answer S E F X L W}
      (course : Course b p host history answer.passive answer.host) : Pursues b p host rounds history (some answer)
  | goesOn {history : List (Beat E)} {p' : Passive S E F X L} {host' : Host S E F X L W}
      (course : Course b p host history p' host') (long : rounds ≤ (history.filterMap Beat.fired?).length) :
      Pursues b p host rounds history none

variable {b : Behaviour S E F X W} {rounds rounds' : Nat} {p p' : Passive S E F X L} {host host' : Host S E F X L W}
  {answer : Answer S E F X L W} {outcome : Option (Answer S E F X L W)} {history further : List (Beat E)}
  {errand : Errand S E F X L} {errands : List (Errand S E F X L)}

theorem Pursues.after (pursues : p'.Pursues b host' rounds further outcome) (course : Course b p host history p' host')
    (enough : rounds' ≤ (history.filterMap Beat.fired?).length + rounds) :
    p.Pursues b host rounds' (history ++ further) outcome := by
  cases pursues with
  | ends rest => exact .ends (course.trans rest)
  | goesOn rest long =>
    refine .goesOn (course.trans rest) ?_
    rw [List.filterMap_append, List.length_append]
    omega

theorem course_drain (b : Behaviour S E F X W) (p : Passive S E F X L) (host : Host S E F X L W) :
    Course b p host (p.inbox.map .queued) (p.drain host).1 (p.drain host).2 := by
  induction arrived : p.inbox generalizing p host with
  | nil =>
    obtain ⟨machine, queue, inbox, running, pending⟩ := p
    cases arrived
    exact .none _ host
  | cons post rest ih =>
    have left : ({ p with inbox := rest }.enqueue post host).1.inbox = rest := by rw [enqueue_fst]
    rw [drain_cons arrived]
    exact .next (.drain arrived) (ih _ _ left)

omit [DecidableEq E] in
theorem posted_drain (inbox : List (Post E)) : (inbox.map Beat.queued).filterMap Beat.posted? = [] := by
  rw [List.filterMap_map]
  exact List.filterMap_eq_nil_iff.mpr fun _ _ => rfl

theorem Working.pursues (working : p.Working) (b : Behaviour S E F X W) (rounds : Nat) (host : Host S E F X L W) :
    ∃ history, p.Pursues b host rounds history (p.work b rounds host) ∧ history.filterMap Beat.posted? = [] := by
  induction rounds generalizing p host with
  | zero => exact ⟨[], .goesOn (.none p host) (Nat.zero_le _), rfl⟩
  | succ rounds ih =>
    have drains := course_drain b p host
    have drained := p.drain_fst host
    cases waits : p.backlog with
    | nil =>
      rw [waits] at drained
      rw [work_idle waits, ← drained]
      exact ⟨_, .ends drains, posted_drain p.inbox⟩
    | cons signal queue =>
      obtain ⟨done, fires, resembles, entered⟩ :=
        Machine.fire_entered working.ready working.entered b signal (p.drain host).2
      rw [waits] at drained
      rw [drained] at drains
      have fired := Does.fire (b := b) (p := { p with queue := signal :: queue, inbox := [] }) working.running
        working.settled rfl rfl fires
      have working' : Working { p with machine := done.machine, queue := queue, inbox := done.host.outbox } :=
        ⟨resembles.isInitialized.trans working.ready, entered, working.settled, working.running⟩
      obtain ⟨history, pursues, posted⟩ := ih working' { done.host with outbox := [] }
      rw [work_round waits fires]
      refine ⟨_, pursues.after (drains.trans fired.course) ?_, ?_⟩
      · rw [List.filterMap_append, List.length_append]
        change rounds + 1 ≤ _ + 1 + rounds
        omega
      · rw [List.filterMap_append, List.filterMap_append, posted_drain, posted]
        rfl

theorem execute_pursues (inUse : p.InUse) (inStep : p.InStep) (b : Behaviour S E F X W) (rounds : Nat)
    (host : Host S E F X L W) :
    ∃ history, p.Pursues b host rounds history (p.execute b rounds host) ∧ history.filterMap Beat.posted? = [] := by
  have drains := course_drain b p host
  have drained := p.drain_fst host
  unfold execute
  rw [drained] at drains
  simp only [drained]
  split
  · exact ⟨_, .ends drains, posted_drain p.inbox⟩
  · rename_i running
    have running : p.running = true := by simpa using running
    have ready := inUse.started running
    rw [InStep, ready, Bool.true_and] at inStep
    split
    · rename_i pending
      have unentered : p.machine.hasEntered = false := by simpa [pending] using inStep
      obtain ⟨done, enters, resembles, entered⟩ :=
        Machine.enterInitialState_unentered ready unentered b (p.drain host).2
      have enter := Does.enter (b := b) (p := { p with queue := p.backlog, inbox := [] }) running pending rfl enters
      have working : Working { p with
          machine := done.machine, queue := p.backlog, inbox := done.host.outbox, pending := false } :=
        ⟨resembles.isInitialized.trans ready, entered, rfl, running⟩
      obtain ⟨history, pursues, posted⟩ := working.pursues b rounds { done.host with outbox := [] }
      simp only [enters]
      refine ⟨_, pursues.after (drains.trans enter.course) (Nat.le_add_left _ _), ?_⟩
      rw [List.filterMap_append, List.filterMap_append, posted_drain, posted]
      rfl
    · rename_i settled
      have settled : p.pending = false := by simpa using settled
      have working : Working { p with queue := p.backlog, inbox := [] } :=
        ⟨ready, by simpa [settled] using inStep, settled, running⟩
      obtain ⟨history, pursues, posted⟩ := working.pursues b rounds (p.drain host).2
      refine ⟨_, pursues.after drains (Nat.le_add_left _ _), ?_⟩
      rw [List.filterMap_append, posted_drain, posted]
      rfl

theorem request_pursues (inUse : p.InUse) (inStep : p.InStep) (b : Behaviour S E F X W) (rounds : Nat)
    (host : Host S E F X L W) (asked : Request S E) :
    ∃ history, p.Pursues b host rounds history (p.request b rounds host asked) ∧
      history.filterMap Beat.posted? = (Errand.ask asked : Errand S E F X L).post?.toList := by
  cases asked with
  | initializeAt state =>
    cases initializes : p.machine.initializeAt b state host with
    | error error =>
      unfold request initializeAt
      simp only [initializes]
      exact ⟨[], .ends (.none p host), rfl⟩
    | ok fresh =>
      obtain ⟨machine, host'⟩ := fresh
      obtain ⟨inUse, inStep⟩ := inUse.initializeAt initializes
      obtain ⟨history, pursues, posted⟩ := execute_pursues inUse inStep b rounds host'
      unfold request initializeAt
      simp only [initializes]
      exact ⟨_, pursues.after (Does.initializeAt initializes).course (Nat.le_add_left _ _), posted⟩
  | submit post =>
    obtain ⟨history, pursues, posted⟩ := execute_pursues inUse.enqueue inStep.enqueue b rounds (p.enqueue post host).2
    refine ⟨_, pursues.after (Does.submit post).course (Nat.le_add_left _ _), ?_⟩
    exact congrArg (post :: ·) posted
  | send post => exact ⟨_, .ends (Does.send post).course, rfl⟩
  | start =>
    unfold request start
    simp only
    cases running : p.running with
    | true => exact ⟨[], .ends (.none p host), rfl⟩
    | false =>
      cases ready : p.machine.isInitialized with
      | false => exact ⟨[], .ends (.none p host), rfl⟩
      | true =>
        obtain ⟨history, pursues, posted⟩ := execute_pursues (p := { p with running := true })
          ⟨inUse.ready, fun _ => ready⟩ inStep b rounds (p.machine.announce .started host)
        exact ⟨_, pursues.after (Does.start running ready).course (Nat.le_add_left _ _), posted⟩
  | stop => exact ⟨_, .ends Does.stop.course, rfl⟩

omit [DecidableEq X] in
theorem Executes.emptied {log : List (Affair E)} (inUse : p.InUse) (inStep : p.InStep)
    (executes : p.Executes b host log answer) (running : answer.passive.running) :
    answer.passive.queue = [] ∧ answer.passive.inbox = [] := by
  have settled := executes.settled inUse inStep
  cases executes with
  | stopped stopped =>
    rw [stopped] at running
    cases running
  | blocked => cases settled.succeeds
  | works running' advances ends =>
    obtain ⟨_, rfl⟩ := (advances.working (inUse.started running') inStep running').idle ends
    exact ⟨rfl, rfl⟩

theorem Course.quiet (course : Course b p host history p' host') (quiet : host.outbox = []) : host'.outbox = [] := by
  induction course with
  | none => exact quiet
  | next does _ ih => exact ih (does.tells quiet).2

inductive Attends (b : Behaviour S E F X W) (rounds : Nat) (p : Passive S E F X L) (host : Host S E F X L W) :
    List (Errand S E F X L) → List (Beat E) → Passive S E F X L → Host S E F X L W → Prop where
  | none : Attends b rounds p host [] [] p host
  | next {errands : List (Errand S E F X L)} {errand : Errand S E F X L} {history further : List (Beat E)}
      {q q' : Passive S E F X L} {h h' : Host S E F X L W} (before : Attends b rounds p host errands history q h)
      (attended : q.attend b rounds h errand = some (q', h')) (course : Course b q h further q' h')
      (posted : further.filterMap Beat.posted? = errand.post?.toList) :
      Attends b rounds p host (errands ++ [errand]) (history ++ further) q' h'

theorem Attends.course (attends : p.Attends b rounds host errands history p' host') :
    Course b p host history p' host' := by
  induction attends with
  | none => exact .none p host
  | next _ _ course _ ih => exact ih.trans course

theorem reach_own {call : Call S E F X L} (own : (Errand.call call).isOwn) (quiet : host.outbox = []) :
    p.reach b host call = ({ p with machine := (Run.call b ⟨p.machine, host, []⟩ call).machine }, host) := by
  obtain ⟨world, outbox, failures, journal, crash?⟩ := host
  obtain rfl : outbox = [] := quiet
  unfold reach collect
  simp only [(call_own b _ own).1, List.append_nil]

theorem attend_course (inUse : p.InUse) (inStep : p.InStep) (own : errand.isOwn) (quiet : host.outbox = [])
    (attended : p.attend b rounds host errand = some (p', host')) :
    ∃ further, Course b p host further p' host' ∧ further.filterMap Beat.posted? = errand.post?.toList := by
  cases errand with
  | ask request =>
    obtain ⟨answer, requested, same⟩ := Option.map_eq_some_iff.mp attended
    cases same
    obtain ⟨further, pursues, posted⟩ := request_pursues inUse inStep b rounds host request
    rw [requested] at pursues
    cases pursues with
    | ends course => exact ⟨further, course, posted⟩
  | call call =>
    have reached : p.reach b host call = (p', host') := Option.some.inj attended
    rw [reach_own own quiet] at reached
    cases reached
    exact ⟨_, (Does.call own).course, rfl⟩

theorem attendAll_attends (inUse : p.InUse) (inStep : p.InStep) (own : ∀ errand ∈ errands, errand.isOwn)
    (quiet : host.outbox = []) (attended : p.attendAll b rounds host errands = some (p', host')) :
    ∃ history, p.Attends b rounds host errands history p' host' := by
  induction errands using List.reverseRec generalizing p' host' with
  | nil =>
    cases attended
    exact ⟨[], .none⟩
  | append_singleton errands errand ih =>
    obtain ⟨q, h, before, last⟩ := attendAll_snoc attended
    have own' (other : Errand S E F X L) (member : other ∈ errands) : other.isOwn :=
      own other (List.mem_append_left _ member)
    obtain ⟨history, attends⟩ := ih own' before
    obtain ⟨further, course, posted⟩ := attend_course (inUse.attendAll before)
      (inStep.attendAll inUse (fun other member => Errand.bypasses_of_isOwn (own' other member)) before)
      (own errand (List.mem_append_right _ List.mem_cons_self)) (attends.course.quiet quiet) last
    exact ⟨_, .next attends last course posted⟩

/-- What one beat may do. A machine that does not run is not moved. One that is at work has nothing in its inbox before,
    and afterwards what code sent meanwhile; so nothing of that begins any sooner. Each extension hears once of what
    enters the queue. -/
structure Proper (p : Passive S E F X L) (host : Host S E F X L W) (beat : Beat E) (p' : Passive S E F X L)
    (host' : Host S E F X L W) : Prop where
  idle : p.running = false →
    beat.waiting? = none ∧ p'.machine.current? = p.machine.current? ∧ host'.world = host.world
  whole : ∀ queue, beat.waiting? = some queue →
    p.inbox = [] ∧ p.queue = beat.fired?.toList ++ queue ∧ p'.queue = queue ∧ p'.inbox = beat.sends
  tells : host.Tells p.machine.extensions p.machine.info beat host'

/-- The law of the queue. Whatever was accepted since the beginning was fired or waits, and it waits in its place. -/
structure Lawful (b : Behaviour S E F X W) (p : Passive S E F X L) (host : Host S E F X L W) (history : List (Beat E))
    (p' : Passive S E F X L) : Prop where
  enters : (history.flatMap Beat.accepted).Perm (history.filterMap Beat.enqueued? ++ p'.inbox)
  conserves : ((history.flatMap Beat.accepted).map Post.signal).Perm
    (history.filterMap Beat.fired? ++ (p'.queue ++ p'.inbox.map Post.signal))
  takes : ∀ before beat between signal queue queue' sent' after,
    history = before ++ beat :: (between ++ .fired signal queue' sent' :: after) → beat.waiting? = some queue →
      between.filterMap Beat.fired? = [] →
        signal :: queue' = (between.filterMap Beat.enqueued?).foldl queueUp queue ∧
        between.filterMap Beat.drained? = beat.sends ++ between.flatMap Beat.arrivals ∧
        (between.flatMap Beat.accepted = [] → signal :: queue' =
          ((beat.sends.filter Post.priority).map Post.signal).reverse ++ queue ++
            (beat.sends.filter (!Post.priority ·)).map Post.signal)
  beats : ∀ before beat after, history = before ++ beat :: after → ∃ q h q' h',
    Course b p host before q h ∧ q.Does b h beat q' h' ∧ q.Proper h beat q' h'

theorem Course.lawful (course : Course b p host history p' host') (quiet : host.outbox = []) (idle : p.queue = [])
    (empty : p.inbox = []) : p.Lawful b host history p' := by
  have enters := course.enters
  have leaves := course.leaves
  rw [empty, List.nil_append] at enters
  rw [idle, List.nil_append] at leaves
  refine ⟨enters, ?_, ?_, ?_⟩
  · have moved := (enters.map Post.signal).trans (.of_eq List.map_append)
    exact moved.trans ((leaves.append_right _).trans (.of_eq (List.append_assoc _ _ _)))
  · rintro before beat between signal queue queue' sent' after rfl works unfired
    obtain ⟨_, _, _, rest⟩ := course.split
    obtain ⟨grown, through⟩ := rest.take works unfired
    exact ⟨grown, through, rest.take_next works unfired⟩
  · rintro before beat after rfl
    obtain ⟨q, h, first, rest⟩ := course.split
    cases rest with
    | next does _ =>
      exact ⟨q, h, _, _, first, does, does.idle, fun _ => does.whole, (does.tells (first.quiet quiet)).1⟩

/-- A machine that is used by its owner through requests alone keeps to the law of the queue, beat after beat, whatever
    code sends meanwhile and also when a request never comes to an end. When one has come to an end and the machine
    runs, nothing waits. -/
theorem attendAll_lawful (config : Config) (host₀ : Host S E F X L W) (b : Behaviour S E F X W)
    (calls : List (Call S E F X L)) {errands : List (Errand S E F X L)} {rounds : Nat} {host host' : Host S E F X L W}
    {p : Passive S E F X L} (own : ∀ errand ∈ errands, errand.isOwn) (quiet : host.outbox = [])
    (attended : (ofMachine ((Run.start config host₀).callAll b calls).machine).attendAll b rounds host errands =
      some (p, host')) :
    let fresh := ofMachine ((Run.start config host₀).callAll b calls).machine
    (∃ history, fresh.Attends b rounds host errands history p host' ∧ Course b fresh host history p host') ∧
      (∀ rounds asked, ∃ further, p.Pursues b host' rounds further (p.request b rounds host' asked) ∧
        further.filterMap Beat.posted? = (Errand.ask asked : Errand S E F X L).post?.toList) ∧
      (∀ rounds asked answer, p.request b rounds host' asked = some answer →
        (∃ post, asked = .submit post) ∨ asked = .start ∧ p.running = false → answer.passive.running →
          answer.passive.queue = [] ∧ answer.passive.inbox = []) ∧
      ∀ history q h, Course b fresh host history q h → fresh.Lawful b host history q := by
  intro fresh
  have built := Run.callAll_wellFormed b (r := Run.start config host₀) (Machine.wellFormed_ofConfig config) calls
  have inUse : fresh.InUse := inUse_ofMachine built
  have inStep : fresh.InStep := inStep_ofMachine _
  have inUse' := inUse.attendAll attended
  have inStep' := inStep.attendAll inUse (fun errand member => Errand.bypasses_of_isOwn (own errand member)) attended
  obtain ⟨history, attends⟩ := attendAll_attends inUse inStep own quiet attended
  refine ⟨⟨history, attends, attends.course⟩, ?_, ?_, fun _ _ _ course => course.lawful quiet rfl rfl⟩
  · exact fun rounds asked => request_pursues inUse' inStep' b rounds host' asked
  · rintro rounds asked answer requested (⟨post, rfl⟩ | ⟨rfl, stopped⟩) running
    · obtain ⟨log, handles⟩ := handles_of_request requested
      cases handles with
      | submit executes => exact executes.emptied inUse'.enqueue inStep'.enqueue running
    · obtain ⟨log, handles⟩ := handles_of_request requested
      cases handles with
      | start _ ready executes =>
        exact executes.emptied (p := { p with running := true }) ⟨inUse'.ready, fun _ => ready⟩ inStep' running
      | started running =>
        rw [stopped] at running
        cases running
      | unready =>
        rw [stopped] at running
        cases running

def heardPresses : List (Errand Lamp Switch Unit Empty Empty) :=
  .call (.configure (.addExtension (.logger none))) :: presses

/-- The lamp is turned bright by code that sends one more toggle, and so it is off in the end. The logger has heard of
    four posts. -/
theorem attendAll_lawful_lamp : ∃ p host history,
    (ofMachine Active.lampMachine).attendAll Active.restless 9 (.ofWorld ()) heardPresses = some (p, host) ∧
    p.machine.current? = some .off ∧ (host.journal.filter JournalEntry.isQueueing).length = 4 ∧
    (ofMachine Active.lampMachine).Attends Active.restless 9 (.ofWorld ()) heardPresses history p host ∧
    (ofMachine Active.lampMachine).Lawful Active.restless (.ofWorld ()) history p := by
  have attended : ((ofMachine Active.lampMachine).attendAll Active.restless 9 (.ofWorld ()) heardPresses).any
      (fun result => result.1.machine.current? = some .off ∧
        (result.2.journal.filter JournalEntry.isQueueing).length = 4) = true := by decide +kernel
  obtain ⟨⟨p, host⟩, ends, found⟩ := (Option.any_eq_true _ _).mp attended
  obtain ⟨off, heard⟩ := of_decide_eq_true found
  obtain ⟨⟨history, attends, course⟩, _, _, lawful⟩ := attendAll_lawful .standard (.ofWorld ()) Active.restless
    Lamp.definition (by simp [heardPresses, presses, Errand.isOwn]) rfl ends
  exact ⟨p, host, history, ends, off, heard, attends, lawful history p host course⟩

end Statechart.Passive
