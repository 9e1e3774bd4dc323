import Statechart.Proofs.Passive.Request

namespace Statechart

/-- What the owner of a machine does with it. Calls on the machine inside go past the one that works off the queue. -/
inductive Errand (S E F X L : Type) where
  | ask (request : Request S E)
  | call (call : Call S E F X L)

/-- Calls after which the initial state of the machine inside may have been set or entered unnoticed. -/
def Errand.bypasses {S E F X L : Type} : Errand S E F X L → Bool
  | .call (.initializeAt _) | .call .enterInitialState => true
  | .call (.load checkpoint) => checkpoint.current?.isNone
  | _ => false

namespace Passive

variable {S E F X L W : Type} [DecidableEq S] [DecidableEq E]

structure InUse (p : Passive S E F X L) : Prop where
  ready : p.machine.hasEntered → p.machine.isInitialized
  started : p.running → p.machine.isInitialized

variable {b : Behaviour S E F X W} {n rounds : Nat} {p p' : Passive S E F X L} {host host' : Host S E F X L W}
  {log : List (Affair E)} {answer : Answer S E F X L W} {asked : Request S E}

omit [DecidableEq E] in
theorem inUse_ofMachine {m : Machine S E F X L} (wf : m.WellFormed) : (ofMachine m).InUse :=
  ⟨wf.ready, fun running => by cases running⟩

theorem Ends.kept (ends : p.Ends b host answer) :
    answer.passive.machine = p.machine ∧ answer.passive.running = p.running := by
  cases ends with
  | idle => exact ⟨rfl, rfl⟩
  | refused => exact ⟨rfl, rfl⟩

theorem Advances.isInitialized (advances : p.Advances b host n log p' host') :
    p'.machine.isInitialized = p.machine.isInitialized := by
  induction advances with
  | entered entered => rw [drain_fst]
  | enter pending enters => exact (Machine.enterInitialState_resembles enters).1.isInitialized
  | round before waits fires ih => exact (Machine.fire_resembles fires).2.2.1.isInitialized.trans ih

theorem Advances.overlooked (advances : p.Advances b host n log p' host') (settled : p.pending = false)
    (unentered : p.machine.hasEntered = false) : p'.machine = p.machine := by
  induction advances with
  | entered entered => rw [drain_fst]
  | enter pending enters =>
    rw [settled] at pending
    cases pending
  | round before waits fires ih =>
    have entered := (Machine.fire_resembles fires).2.1
    rw [ih, unentered] at entered
    cases entered

theorem Advances.unentered (advances : p.Advances b host n log p' host')
    (pending : p.pending = true) : p.machine.hasEntered = false := by
  induction advances with
  | entered entered =>
    rw [pending] at entered
    cases entered
  | enter pending enters => exact (Machine.enterInitialState_accepted enters).2
  | round before waits fires ih => exact ih

theorem Executes.inUse (inUse : p.InUse) (executes : p.Executes b host log answer) : answer.passive.InUse := by
  cases executes with
  | stopped stopped => exact ⟨inUse.ready, inUse.started⟩
  | blocked running pending blocked => exact ⟨inUse.ready, inUse.started⟩
  | works running advances ends =>
    have ready : answer.passive.machine.isInitialized := by
      rw [ends.kept.1, advances.isInitialized]
      exact inUse.started running
    exact ⟨fun _ => ready, fun _ => ready⟩

structure Settled (p : Passive S E F X L) (log : List (Affair E)) (answer : Answer S E F X L W) : Prop where
  succeeds : answer.result = .ok ()
  inStep : answer.passive.InStep
  orderly : Orderly p.backlog log answer.passive.backlog
  idle : p.running → answer.passive.running ∧ answer.passive.machine.hasEntered ∧ answer.passive.backlog = []

theorem Executes.settled (inUse : p.InUse) (inStep : p.InStep) (executes : p.Executes b host log answer) :
    p.Settled log answer := by
  cases executes with
  | stopped stopped =>
    refine ⟨rfl, inStep, .none _, fun running => ?_⟩
    rw [stopped] at running
    cases running
  | blocked running pending blocked =>
    -- in step, the entry that is pending is one that the machine grants
    have unentered : p.machine.hasEntered = false := by
      rw [InStep, pending, inUse.started running] at inStep
      simpa using inStep.symm
    obtain ⟨done, enters, _⟩ :=
      Machine.enterInitialState_unentered (inUse.started running) unentered b (p.drain host).2
    rw [blocked] at enters
    cases enters
  | works running advances ends =>
    have working := advances.working (inUse.started running) inStep running
    have orderly := advances.orderly
    obtain ⟨idle, rfl⟩ := working.idle ends
    rw [idle] at orderly
    refine ⟨rfl, ?_, orderly, fun _ => ⟨working.running, working.entered, rfl⟩⟩
    change _ = (_ && _)
    rw [working.settled, working.entered, Bool.not_true, Bool.and_false]

omit [DecidableEq E] in
theorem InUse.initializeAt {state : S} {machine : Machine S E F X L} (inUse : p.InUse)
    (initializes : p.machine.initializeAt b state host = .ok (machine, host')) :
    InUse { p with machine := machine, pending := true } ∧ InStep { p with machine := machine, pending := true } := by
  obtain ⟨fresh, ready, entered⟩ := Machine.initializeAt_ok initializes
  have unentered : p.machine.hasEntered = false := by
    by_contra stands
    have ready := inUse.ready (by simpa using stands)
    rw [fresh] at ready
    cases ready
  refine ⟨⟨fun _ => ready, fun _ => ready⟩, ?_⟩
  change true = (machine.isInitialized && !machine.hasEntered)
  rw [ready, entered, unentered]
  rfl

omit [DecidableEq S] [DecidableEq E] in
theorem InUse.enqueue {post : Post E} (inUse : p.InUse) : (p.enqueue post host).1.InUse := by
  rw [enqueue_fst]
  exact ⟨inUse.ready, inUse.started⟩

omit [DecidableEq S] [DecidableEq E] in
theorem InStep.enqueue {post : Post E} (inStep : p.InStep) : (p.enqueue post host).1.InStep := by
  rw [enqueue_fst]
  exact inStep

omit [DecidableEq S] [DecidableEq E] in
theorem stop_fst (p : Passive S E F X L) (host : Host S E F X L W) : (p.stop host).1 = { p with running := false } := by
  unfold stop
  split
  · rfl
  · rename_i stopped
    have stopped : p.running = false := by simpa using stopped
    rw [← stopped]

theorem Handles.inUse (inUse : p.InUse) (handles : p.Handles b host asked log answer) : answer.passive.InUse := by
  cases handles with
  | initializeAt initializes executes => exact executes.inUse (inUse.initializeAt initializes).1
  | submit executes => exact executes.inUse inUse.enqueue
  | start stopped ready executes => exact executes.inUse (p := { p with running := true }) ⟨inUse.ready, fun _ => ready⟩
  | stop =>
    rw [stop_fst]
    exact ⟨inUse.ready, fun running => by cases running⟩
  | send => exact ⟨inUse.ready, inUse.started⟩
  | refused | started | unready => exact inUse

theorem Handles.settled (inUse : p.InUse) (inStep : p.InStep) (handles : p.Handles b host asked log answer) :
    (∃ error, answer = ⟨.error error, p, host⟩ ∧ log = []) ∨
      answer.result = .ok () ∧ answer.passive.InStep ∧ (Orderly p.backlog log answer.passive.backlog ∨
        ∃ post rest, asked = .submit post ∧ log = .posted post :: rest ∧
          Orderly (p.enqueue post host).1.backlog rest answer.passive.backlog) := by
  cases handles with
  | initializeAt initializes executes =>
    obtain ⟨inUse, inStep⟩ := inUse.initializeAt initializes
    have settled := executes.settled inUse inStep
    exact .inr ⟨settled.succeeds, settled.inStep, .inl settled.orderly⟩
  | submit executes =>
    have settled := executes.settled inUse.enqueue inStep.enqueue
    exact .inr ⟨settled.succeeds, settled.inStep, .inr ⟨_, _, rfl, rfl, settled.orderly⟩⟩
  | start stopped ready executes =>
    have settled := executes.settled (p := { p with running := true }) ⟨inUse.ready, fun _ => ready⟩ inStep
    exact .inr ⟨settled.succeeds, settled.inStep, .inl settled.orderly⟩
  | send =>
    refine .inr ⟨rfl, inStep, .inl ?_⟩
    rw [backlog_send]
    exact .posted (.none _)
  | stop =>
    rw [stop_fst]
    exact .inr ⟨rfl, inStep, .inl (.none _)⟩
  | started running => exact .inr ⟨rfl, inStep, .inl (.none _)⟩
  | refused | unready => exact .inl ⟨_, rfl, rfl⟩

section InStep

variable (inUse : p.InUse) (inStep : p.InStep) (handles : p.Handles b host asked log answer)

include inUse inStep handles

theorem Handles.inStep_of_inStep : answer.passive.InStep := by
  rcases handles.settled inUse inStep with ⟨error, rfl, _⟩ | ⟨_, inStep', _⟩
  · exact inStep
  · exact inStep'

theorem Handles.unchanged {error : Misuse} (fails : answer.result = .error error) :
    answer = ⟨.error error, p, host⟩ := by
  rcases handles.settled inUse inStep with ⟨error, rfl, _⟩ | ⟨succeeds, _⟩
  · cases fails
    rfl
  · rw [succeeds] at fails
    cases fails

theorem Handles.orderly (inTurn : ∀ post, asked = .submit post → ∀ other ∈ p.inbox, other.priority ≠ post.priority) :
    Orderly p.backlog log answer.passive.backlog := by
  rcases handles.settled inUse inStep with ⟨_, rfl, rfl⟩ | ⟨_, _, orderly | ⟨post, rest, submits, rfl, orderly⟩⟩
  · exact .none _
  · exact orderly
  · rw [backlog_enqueue_inTurn (inTurn post submits)] at orderly
    exact .posted orderly

theorem Handles.conserves :
    (p.backlog ++ (posts log).map Post.signal).Perm (firings log ++ answer.passive.backlog) := by
  rcases handles.settled inUse inStep with ⟨_, rfl, rfl⟩ | ⟨_, _, orderly | ⟨post, rest, _, rfl, orderly⟩⟩
  · exact (Orderly.none _).perm
  · exact orderly.perm
  · have queued := (p.backlog_enqueue_perm post host).append_right ((posts rest).map Post.signal)
    rw [List.append_assoc] at queued
    exact queued.symm.trans orderly.perm

end InStep

def reach [DecidableEq X] (b : Behaviour S E F X W) (p : Passive S E F X L) (host : Host S E F X L W)
    (call : Call S E F X L) : Passive S E F X L × Host S E F X L W :=
  let r := Run.call b ⟨p.machine, host, []⟩ call
  { p with machine := r.machine }.collect r.host

def attend [DecidableEq X] (b : Behaviour S E F X W) (rounds : Nat) (p : Passive S E F X L) (host : Host S E F X L W) :
    Errand S E F X L → Option (Passive S E F X L × Host S E F X L W)
  | .ask request => (p.request b rounds host request).map fun answer => (answer.passive, answer.host)
  | .call call => some (p.reach b host call)

def attendAll [DecidableEq X] (b : Behaviour S E F X W) (rounds : Nat) (p : Passive S E F X L)
    (host : Host S E F X L W) (errands : List (Errand S E F X L)) :
    Option (Passive S E F X L × Host S E F X L W) :=
  errands.foldlM (fun (p, host) errand => p.attend b rounds host errand) (p, host)

section Attend

variable [DecidableEq X] {errand : Errand S E F X L} {errands : List (Errand S E F X L)}

theorem InUse.attend (inUse : p.InUse) (attended : p.attend b rounds host errand = some (p', host')) : p'.InUse := by
  cases errand with
  | ask request =>
    obtain ⟨answer, requested, same⟩ := Option.map_eq_some_iff.mp attended
    cases same
    obtain ⟨log, handles⟩ := handles_of_request requested
    exact handles.inUse inUse
  | call call =>
    cases attended
    have standing := Run.call_standing b ⟨p.machine, host, []⟩ call
    rcases standing with ⟨ready, entered⟩ | ⟨ready, _⟩
    · exact ⟨fun stands => ready.trans (inUse.ready (entered.symm.trans stands)),
        fun running => ready.trans (inUse.started running)⟩
    · exact ⟨fun _ => ready, fun _ => ready⟩

theorem InStep.attend (inStep : p.InStep) (inUse : p.InUse) (passes : errand.bypasses = false)
    (attended : p.attend b rounds host errand = some (p', host')) : p'.InStep := by
  cases errand with
  | ask request =>
    obtain ⟨answer, requested, same⟩ := Option.map_eq_some_iff.mp attended
    cases same
    obtain ⟨log, handles⟩ := handles_of_request requested
    exact handles.inStep_of_inStep inUse inStep
  | call call =>
    cases attended
    -- only a checkpoint of a machine that stood in a state moves the machine inside and keeps it in step
    have standing := Run.call_standing b ⟨p.machine, host, []⟩ call
    rcases standing with ⟨ready, entered⟩ | ⟨ready, ⟨s, rfl⟩ | rfl | ⟨c, rfl, fresh, entered⟩⟩
    · change p.pending = (_ && _)
      rw [ready, entered]
      exact inStep
    · cases passes
    · cases passes
    · have here : c.current?.isSome := by simpa [Errand.bypasses] using passes
      change p.pending = (_ && _)
      rw [entered, here, Bool.not_true, Bool.and_false]
      rw [InStep, fresh, Bool.false_and] at inStep
      exact inStep

theorem attendAll_snoc (attended : p.attendAll b rounds host (errands ++ [errand]) = some (p', host')) :
    ∃ q h, p.attendAll b rounds host errands = some (q, h) ∧ q.attend b rounds h errand = some (p', host') := by
  unfold attendAll at attended
  rw [List.foldlM_append] at attended
  obtain ⟨⟨q, h⟩, before, last⟩ := Option.bind_eq_some_iff.mp attended
  rw [List.foldlM_cons] at last
  obtain ⟨_, here, last⟩ := Option.bind_eq_some_iff.mp last
  cases last
  exact ⟨q, h, before, here⟩

theorem InUse.attendAll (inUse : p.InUse) (attended : p.attendAll b rounds host errands = some (p', host')) :
    p'.InUse := by
  induction errands using List.reverseRec generalizing p' host' with
  | nil =>
    cases attended
    exact inUse
  | append_singleton errands errand ih =>
    obtain ⟨q, h, before, last⟩ := attendAll_snoc attended
    exact (ih before).attend last

theorem InStep.attendAll (inStep : p.InStep) (inUse : p.InUse) (pass : ∀ errand ∈ errands, errand.bypasses = false)
    (attended : p.attendAll b rounds host errands = some (p', host')) : p'.InStep := by
  induction errands using List.reverseRec generalizing p' host' with
  | nil =>
    cases attended
    exact inStep
  | append_singleton errands errand ih =>
    obtain ⟨q, h, before, last⟩ := attendAll_snoc attended
    have earlier := ih (fun other member => pass other (List.mem_append_left _ member)) before
    exact earlier.attend (inUse.attendAll before) (pass errand (List.mem_append_right _ List.mem_cons_self)) last

end Attend

/-- What the owner of a machine can rely on. No request loses anything that was accepted, and one that fails changes
    nothing. A machine that is started enters its initial state, unless it has done so before, and fires whatever
    waits. -/
structure Safe (b : Behaviour S E F X W) (p : Passive S E F X L) (host : Host S E F X L W) : Prop where
  keeps : ∀ rounds asked answer, p.request b rounds host asked = some answer → ∃ log, p.Handles b host asked log answer ∧
    (p.backlog ++ (posts log).map Post.signal).Perm (firings log ++ answer.passive.backlog) ∧
    ∀ error, answer.result = .error error →
      answer = ⟨.error error, p, host⟩ ∧ (asked = .start → answer.passive.running = false)
  starts : p.running = false → p.machine.isInitialized →
    (∃ most, { p with running := true }.PostsAtMost b (p.machine.announce .started host) most) →
      ∃ enough log answer, (∀ rounds, enough < rounds → p.start b rounds host = some answer) ∧
        p.Handles b host .start log answer ∧ answer.result = .ok () ∧ answer.passive.running ∧
        answer.passive.machine.hasEntered ∧ answer.passive.backlog = [] ∧
        (p.backlog ++ (posts log).map Post.signal).Perm (firings log)

theorem InStep.safe (inStep : p.InStep) (inUse : p.InUse) (b : Behaviour S E F X W) (host : Host S E F X L W) :
    p.Safe b host where
  keeps rounds asked answer requested := by
    obtain ⟨log, handles⟩ := handles_of_request requested
    refine ⟨log, handles, handles.conserves inUse inStep, fun error fails => ?_⟩
    obtain rfl := handles.unchanged inUse inStep fails
    refine ⟨rfl, fun starts => ?_⟩
    rw [starts] at handles
    cases handles with
    | start stopped | unready stopped => exact stopped
  starts stopped ready bounded := by
    obtain ⟨most, bounded⟩ := bounded
    obtain ⟨n, log, p', host', advances, idle⟩ :=
      exists_idle (p := { p with running := true }) ready inStep rfl bounded
    have executes := Executes.works (p := { p with running := true }) rfl advances (.idle idle)
    have settled := executes.settled (p := { p with running := true }) ⟨inUse.ready, fun _ => ready⟩ inStep
    obtain ⟨running, entered, empty⟩ := settled.idle rfl
    have handles := Handles.start stopped ready executes
    have conserved := handles.conserves inUse inStep
    rw [empty, List.append_nil] at conserved
    exact ⟨n, log, _, fun rounds enough => start_of_ends stopped ready advances (.idle idle) enough, handles, rfl,
      running, entered, empty, conserved⟩

theorem inStep_of_start (stopped : p.running = false) (ready : p.machine.isInitialized)
    (started : p.start b rounds host = some answer) (succeeds : answer.result = .ok ())
    (entered : answer.passive.machine.hasEntered) : p.InStep := by
  have requested : p.request b rounds host .start = some answer := started
  obtain ⟨log, handles⟩ := handles_of_request requested
  cases handles with
  | started running =>
    rw [stopped] at running
    cases running
  | unready _ unready => cases succeeds
  | start _ _ executes =>
    cases executes with
    | stopped stopped => cases stopped
    | blocked => cases succeeds
    | works _ advances ends =>
      rw [ends.kept.1] at entered
      cases pending : p.pending with
      | true =>
        have unentered := advances.unentered pending
        rw [InStep, pending, ready, unentered]
        rfl
      | false =>
        cases stands : p.machine.hasEntered with
        | true =>
          rw [InStep, pending, ready, stands]
          rfl
        | false =>
          rw [advances.overlooked pending stands, stands] at entered
          cases entered

/-- Whatever is done with a machine, it is safe to go on with as long as it is in step, and only then does it start as
    it should. Only calls on the machine inside can put it out of step. -/
theorem errands_safe [DecidableEq X] (config : Config) (host₀ : Host S E F X L W) (b : Behaviour S E F X W)
    (calls : List (Call S E F X L)) {errands : List (Errand S E F X L)} {rounds : Nat} {host host' : Host S E F X L W}
    {p : Passive S E F X L}
    (attended : (ofMachine ((Run.start config host₀).callAll b calls).machine).attendAll b rounds host errands =
      some (p, host')) :
    ((∀ errand ∈ errands, errand.bypasses = false) → p.InStep) ∧ (p.InStep → p.Safe b host') ∧
      (p.running = false → p.machine.isInitialized → ∀ rounds answer, p.start b rounds host' = some answer →
        answer.result = .ok () → answer.passive.machine.hasEntered → p.InStep) := by
  have built := Run.callAll_wellFormed b (r := Run.start config host₀) (Machine.wellFormed_ofConfig config) calls
  have inUse := inUse_ofMachine built
  exact ⟨fun pass => (inStep_ofMachine _).attendAll inUse pass attended,
    fun inStep => inStep.safe (inUse.attendAll attended) b host',
    fun stopped ready _ _ started succeeds entered => inStep_of_start stopped ready started succeeds entered⟩

def definedLamp : Machine Lamp Switch Unit Empty Empty :=
  ((Run.start .standard (.ofWorld ())).callAll Lamp.quiet Lamp.definition.dropLast).machine

theorem errands_safe_lamp : ∃ p host,
    (ofMachine definedLamp).attendAll Lamp.quiet 9 (.ofWorld ()) [.ask (.submit ⟨⟨.toggle, []⟩, false⟩), .ask .start,
      .ask (.initializeAt .supply), .ask (.send ⟨⟨.turn, []⟩, false⟩), .ask .start] = some (p, host) ∧
    p.running ∧ p.machine.current? = some .bright ∧ p.Safe Lamp.quiet host := by
  have attended : ((ofMachine definedLamp).attendAll Lamp.quiet 9 (.ofWorld ()) [.ask (.submit ⟨⟨.toggle, []⟩, false⟩),
      .ask .start, .ask (.initializeAt .supply), .ask (.send ⟨⟨.turn, []⟩, false⟩), .ask .start]).any
        (fun result => result.1.running ∧ result.1.machine.current? = some .bright) = true := by decide +kernel
  obtain ⟨⟨p, host⟩, ends, bright⟩ := (Option.any_eq_true _ _).mp attended
  obtain ⟨running, bright⟩ := of_decide_eq_true bright
  have safe := errands_safe .standard (.ofWorld ()) Lamp.quiet Lamp.definition.dropLast ends
  exact ⟨p, host, ends, running, bright, safe.2.1 (safe.1 (by simp [Errand.bypasses]))⟩

/-- A machine whose initial state was set behind its back loses the first press when it is started, and it fails to
    start and yet runs. -/
theorem errands_unsafe_lamp : ∃ p host answer,
    (ofMachine definedLamp).attendAll Lamp.quiet 9 (.ofWorld ()) [.call (.initializeAt .supply),
      .ask (.submit ⟨⟨.toggle, []⟩, false⟩)] = some (p, host) ∧
    p.running = false ∧ p.machine.isInitialized ∧ p.backlog = [⟨.toggle, []⟩] ∧
    p.start Lamp.quiet 9 host = some answer ∧ answer.result = .error .initialStateNotEntered ∧
    answer.passive.running ∧ answer.passive.backlog = [] := by
  have attended : ((ofMachine definedLamp).attendAll Lamp.quiet 9 (.ofWorld ()) [.call (.initializeAt .supply),
      .ask (.submit ⟨⟨.toggle, []⟩, false⟩)]).any (fun result =>
        result.1.running = false ∧ result.1.machine.isInitialized ∧ result.1.backlog = [⟨.toggle, []⟩] ∧
        (result.1.start Lamp.quiet 9 result.2).any fun answer =>
          answer.result = .error .initialStateNotEntered ∧ answer.passive.running ∧ answer.passive.backlog = []) =
      true := by decide +kernel
  obtain ⟨⟨p, host⟩, ends, found⟩ := (Option.any_eq_true _ _).mp attended
  obtain ⟨stopped, ready, waits, starts⟩ := of_decide_eq_true found
  obtain ⟨answer, started, fails⟩ := (Option.any_eq_true _ _).mp starts
  exact ⟨p, host, answer, ends, stopped, ready, waits, started, of_decide_eq_true fails⟩

end Passive

end Statechart
