import Statechart.Proofs.Active.Delivery
import Statechart.Proofs.Active.Service

namespace Statechart

variable {S E F X L W : Type}

def Passive.submitAll [DecidableEq S] [DecidableEq E] (b : Behaviour S E F X W) (rounds : Nat) :
    List (Post E) → Passive S E F X L → Host S E F X L W → Option (Passive.Answer S E F X L W)
  | [], p, host => some ⟨.ok (), p, host⟩
  | post :: rest, p, host =>
    match p.submit b rounds post host with
    | some ⟨.ok (), p, host⟩ => submitAll b rounds rest p host
    | failed => failed

theorem Passive.submitAll_stopped [DecidableEq S] [DecidableEq E] {p : Passive S E F X L} (stopped : p.running = false)
    (drained : p.inbox = []) (sent : List (Post E)) (host : Host S E F X L W) :
    ∃ host', (∀ (b : Behaviour S E F X W) rounds, p.submitAll b rounds sent host =
      some ⟨.ok (), { p with queue := sent.foldl queueUp p.queue }, host'⟩) ∧ host.Alike host' := by
  induction sent generalizing p host with
  | nil => exact ⟨host, fun b rounds => rfl, .refl host⟩
  | cons post rest ih =>
    obtain ⟨machine, queue, inbox, running, pending⟩ := p
    obtain rfl : inbox = [] := drained
    obtain ⟨host₁, submitted, alike⟩ := submit_stopped stopped post host
    obtain ⟨host₂, goesOn, alike'⟩ := ih (p := ⟨machine, queueUp queue post, [], running, pending⟩) stopped rfl host₁
    refine ⟨host₂, fun b rounds => ?_, alike.trans alike'⟩
    rw [submitAll, submitted]
    exact goesOn b rounds

/-- What the two ways to run a machine have in common once both have come to rest. -/
structure Agreement (log : List (Affair E)) (answer : Passive.Answer S E F X L W) (deeds : List (Deed E X L))
    (worker : Worker S E F X L) (host : Host S E F X L W) : Prop where
  log : affairs deeds = log
  machine : worker.machine = answer.passive.machine
  doings : host.doings = answer.host.doings
  world : host.world = answer.host.world
  empty : worker.queue = [] ∧ answer.passive.backlog = []

namespace Active

def sendAll (a : Active S E F X L) (sent : List (Post E)) : Except Misuse (Active S E F X L) :=
  sent.foldlM (fun a post => a.send (.post post)) a

theorem sendAll_open {a : Active S E F X L} (opened : a.isOpen) (sent : List (Post E)) :
    a.sendAll sent = .ok { a with channel := a.channel ++ sent.map .post } := by
  induction sent generalizing a with
  | nil =>
    rw [List.map_nil, List.append_nil]
    rfl
  | cons post rest ih =>
    have sent := ih (a := { a with channel := a.channel ++ [.post post] }) opened
    rw [List.append_assoc] at sent
    refine Eq.trans ?_ sent
    rw [sendAll, List.foldlM_cons, send, if_pos opened]
    rfl

variable [DecidableEq S] [DecidableEq E] {b : Behaviour S E F X W}
  {a a' : Active S E F X L} {host host' : Host S E F X L W} {p p' : Passive S E F X L} {aside aside' : Host S E F X L W}
  {deeds : List (Deed E X L)} {log : List (Affair E)} {n : Nat}

/-- How far a worker that serves has come, in the rounds of a machine that works on its owner's thread. What has been
    posted and is not in the channel yet counts as posted there. -/
inductive Follows (b : Behaviour S E F X W) (p : Passive S E F X L) (aside : Host S E F X L W) (log : List (Affair E))
    (a : Active S E F X L) (host : Host S E F X L W) : Prop where
  | poised {worker : Worker S E F X L} (poised : Poised p aside a host worker) (fresh : log = [])
  | abreast {worker : Worker S E F X L} {phase : Phase} {n : Nat} {p' : Passive S E F X L} {aside' : Host S E F X L W}
      (advances : p.Advances b aside n (log ++ host.outbox.map .posted) p' aside')
      (abreast : Abreast p' aside' a host worker phase)
  | rested {worker : Worker S E F X L} {n : Nat} {p' : Passive S E F X L} {aside' : Host S E F X L W}
      (advances : p.Advances b aside n log p' aside') (idle : p'.backlog = []) (rested : Rested p' aside' a host worker)
  | lost (lost : a.runtime = .lost)

theorem Continues.follows {sent : List (Post E)} {channel : List (Message E X L)}
    (continues : Continues p' aside' sent channel (a', host'))
    (advances : p.Advances b aside n (log ++ sent.map .posted) p' aside') : Follows b p aside log a' host' := by
  cases continues with
  | lost lost crashed => exact .lost lost
  | abreast abreast outbox channel =>
    rw [← outbox] at advances
    exact .abreast advances abreast

section Turn

variable [DecidableEq X] (ready : p.machine.isInitialized) (inStep : p.InStep)

include ready inStep

theorem Poised.turn {worker : Worker S E F X L} (poised : Poised p aside a host worker)
    (turned : a.Turn b host deeds a' host') : Follows b p aside (affairs deeds) a' host' := by
  have stands := poised.runs
  cases turned with
  | deliver sent =>
    rw [poised.quiet] at sent
    cases sent
  | begin quiet stands' =>
    rw [stands] at stands'
    cases stands'
    obtain ⟨sent, p', aside', advances, continues⟩ := poised.begin ready inStep
    exact continues.follows advances
  | take quiet stands' looks next =>
    rw [stands] at stands'
    cases stands'
    rcases looks with looks | ⟨looks, _⟩
    · cases looks
    · cases looks
  | look quiet stands' | fire quiet stands' | finish quiet stands' =>
    rw [stands] at stands'
    cases stands'

theorem Abreast.turn {worker : Worker S E F X L} {phase : Phase} (running : p.running)
    (abreast : Abreast p' aside' a host worker phase)
    (advances : p.Advances b aside n (log ++ host.outbox.map .posted) p' aside') (turned : a.Turn b host deeds a' host')
    (timely : .took .stop ∈ deeds → a.Idle) : Follows b p aside (log ++ affairs deeds) a' host' := by
  have stands := abreast.runs
  cases turned with
  | @deliver post rest sent =>
    have same : log ++ affairs ([.put (.post post)] : List (Deed E X L)) ++ rest.map .posted =
        log ++ host.outbox.map .posted := by
      rw [sent, List.append_assoc]
      rfl
    exact .abreast (same ▸ advances) (abreast.deliver sent)
  | begin quiet stands' =>
    rw [stands] at stands'
    cases stands'
    exact absurd rfl abreast.begun
  | @take _ _ message rest quiet stands' looks next =>
    rw [stands] at stands'
    cases stands'
    rw [quiet] at advances
    cases message with
    | post post =>
      obtain ⟨taken, outbox⟩ := abreast.take next quiet
      rw [show affairs [.took (.post post)] = [] from rfl, List.append_nil]
      rw [← outbox] at advances
      exact .abreast advances taken
    | configure change => exact absurd (next ▸ List.mem_cons_self) (abreast.unchanged change)
    | stop =>
      obtain ⟨only, empty⟩ := timely (List.mem_singleton.mpr rfl)
      have empty := empty _ _ _ stands
      have line := abreast.line
      rw [incoming, only, quiet, empty] at line
      rw [List.map_nil, List.append_nil] at advances
      rw [show affairs [.took .stop] = [] from rfl, List.append_nil]
      exact .rested advances line.symm
        ⟨.inr ⟨_, by simp, rfl⟩, abreast.machine, abreast.alike.of_clear quiet, empty, quiet⟩
  | look quiet stands' drained =>
    rw [stands] at stands'
    cases stands'
    rcases drained with drained | empty
    · cases drained
    · rw [show affairs [] = [] from rfl, List.append_nil]
      exact .abreast advances (abreast.look quiet empty)
  | fire quiet stands' waits =>
    rw [stands] at stands'
    cases stands'
    rw [quiet, List.map_nil, List.append_nil] at advances
    obtain ⟨sent, p'', aside'', further, continues⟩ := abreast.fire waits (advances.working ready inStep running) advances
    rw [← List.singleton_append, ← List.append_assoc] at further
    exact continues.follows further
  | finish quiet stands' =>
    rw [stands] at stands'
    cases stands'

variable (running : p.running)

include running

theorem Follows.turn (follows : Follows b p aside log a host) (turned : a.Turn b host deeds a' host')
    (timely : .took .stop ∈ deeds → a.Idle) : Follows b p aside (log ++ affairs deeds) a' host' := by
  cases follows with
  | poised poised fresh =>
    rw [fresh]
    exact poised.turn ready inStep turned
  | abreast advances abreast => exact abreast.turn ready inStep running advances turned timely
  | rested advances idle rested =>
    obtain ⟨nothing, rested⟩ := rested.turn turned
    rw [nothing, List.append_nil]
    exact .rested advances idle rested
  | lost lost =>
    cases turned with
    | deliver sent => exact .lost lost
    | begin quiet stands | take quiet stands | look quiet stands | fire quiet stands | finish quiet stands =>
      rw [lost] at stands
      cases stands

end Turn

theorem Follows.stop (follows : Follows b p aside log a host) :
    Follows b p aside log { a with channel := a.channel ++ [.stop] } host := by
  cases follows with
  | poised poised fresh => exact .poised poised.stop fresh
  | abreast advances abreast => exact .abreast advances abreast.stop
  | rested advances idle rested =>
    exact .rested advances idle ⟨rested.stands, rested.machine, rested.alike, rested.empty, rested.quiet⟩
  | lost lost => exact .lost lost

section Serves

variable [DecidableEq X] {worker : Worker S E F X L}

theorem Abreast.catchUp {sent waiting : List (Post E)} (abreast : Abreast p' aside' a host worker .draining)
    (outbox : host.outbox = sent) (channel : a.channel = waiting.map .post) :
    ∃ deeds a' host' worker', a.Serves b host deeds a' host' ∧ Abreast p' aside' a' host' worker' .working ∧
      a'.channel = [] ∧ affairs deeds = sent.map .posted := by
  induction sent generalizing a host waiting with
  | nil =>
    induction waiting generalizing a host worker with
    | nil =>
      have turned := Turn.look (b := b) outbox abreast.runs (.inr channel)
      exact ⟨_, _, _, _, Serves.none.turn turned (by simp), abreast.look outbox channel, channel, rfl⟩
    | cons post waiting ih =>
      have turned := Turn.take (b := b) outbox abreast.runs (.inl rfl) channel
      obtain ⟨taken, quiet⟩ := abreast.take channel outbox
      obtain ⟨deeds, a', host', worker', serves, upToDate, empty, nothing⟩ := ih taken quiet rfl
      exact ⟨_, a', host', worker', .cons turned (by simp) serves, upToDate, empty, nothing⟩
  | cons post sent ih =>
    have turned : a.Turn b host _ _ _ := Turn.deliver outbox
    have grown : a.channel ++ [.post post] = (waiting ++ [post]).map .post := by simp [channel]
    obtain ⟨deeds, a', host', worker', serves, upToDate, empty, same⟩ := ih (abreast.deliver outbox) rfl grown
    exact ⟨_, a', host', worker', .cons turned (by simp) serves, upToDate, empty, congrArg (_ :: ·) same⟩

theorem Abreast.rest (abreast : Abreast p' aside' a host worker .working) (channel : a.channel = [])
    (idle : p'.backlog = []) : ∃ deeds a' host' worker', a.Serves b host deeds a' host' ∧
      a'.runtime = .stopped worker' ∧ affairs deeds = [] := by
  obtain ⟨noneCome, quiet⟩ := abreast.looked rfl
  have empty : worker.queue = [] := by
    have line := abreast.line
    rw [noneCome, quiet, idle] at line
    exact line
  have runs : a.isRunning := by rw [isRunning, abreast.runs]
  have told : a.Serves b host _ _ host := Serves.none.stop runs
  rw [channel] at told
  have taken := told.turn (.take quiet abreast.runs (.inr ⟨rfl, empty⟩) rfl) fun _ =>
    ⟨rfl, fun worker' phase stopping stands => by cases abreast.runs.symm.trans stands; exact empty⟩
  have looked := taken.turn (.look quiet rfl (.inl rfl)) (by simp)
  have stopped := looked.turn (.finish quiet rfl empty) (by simp)
  exact ⟨_, _, _, worker, stopped, rfl, rfl⟩

variable (ready : p.machine.isInitialized) (inStep : p.InStep)
  (running : p.running)

include ready inStep running

theorem Serves.follows (serves : a.Serves b host deeds a' host') (poised : Poised p aside a host worker) :
    Follows b p aside (affairs deeds) a' host' := by
  induction serves with
  | none => exact .poised poised rfl
  | turn before turned timely ih =>
    rw [affairs_append]
    exact ih.turn ready inStep running turned timely
  | stop before runs ih =>
    rw [affairs_append, show affairs [.put .stop] = [] from rfl, List.append_nil]
    exact ih.stop

theorem Poised.reaches (poised : Poised p aside a host worker) {waiting : List (Post E)}
    (channel : a.channel = waiting.map .post) (advances : p.Advances b aside n log p' aside')
    (survives : ∀ n log p' aside', p.Advances b aside n log p' aside' → aside'.crash? = none) :
    ∃ deeds a' host' worker', ∃ waiting' : List (Post E), a.Serves b host deeds a' host' ∧
      Abreast p' aside' a' host' worker' .draining ∧ a'.channel = waiting'.map .post ∧
      affairs deeds ++ host'.outbox.map .posted = log := by
  induction n generalizing log p' aside' with
  | zero =>
    obtain ⟨sent, p'', aside'', begun, continues⟩ := poised.begin ready inStep
    obtain ⟨rfl, rfl, rfl⟩ := begun.unique advances
    cases continues with
    | lost _ crashed => exact absurd (survives _ _ _ _ advances) crashed
    | abreast abreast outbox kept =>
      have turned : a.Turn b host _ _ _ := .begin poised.quiet poised.runs
      exact ⟨_, _, _, _, waiting, Serves.none.turn turned (by simp), abreast, kept.trans channel, by rw [outbox]; rfl⟩
  | succ n ih =>
    obtain ⟨log', p₁, aside₁, signal, queue, before, waits⟩ := advances.last_round
    obtain ⟨deeds, a₁, host₁, worker₁, waiting₁, serves, abreast, channel₁, same⟩ := ih before
    -- once the worker has taken everything in, both queues are the same, and so is the signal in front
    obtain ⟨deeds', a₂, host₂, worker₂, catching, upToDate, empty, got⟩ := abreast.catchUp rfl channel₁
    obtain ⟨noneCome, quiet⟩ := upToDate.looked rfl
    have line := upToDate.line
    rw [noneCome, quiet, waits] at line
    have first : worker₂.queue = signal :: queue := line
    obtain ⟨sent, p'', aside'', further, continues⟩ := upToDate.fire first (before.working ready inStep running) before
    obtain ⟨rfl, rfl, rfl⟩ := further.unique advances
    cases continues with
    | lost _ crashed => exact absurd (survives _ _ _ _ advances) crashed
    | abreast abreast' outbox kept =>
      have turned : a₂.Turn b host₂ _ _ _ := .fire quiet upToDate.runs first
      refine ⟨_, _, _, _, [], (serves.trans catching).turn turned (by simp), abreast', kept.trans empty, ?_⟩
      rw [affairs_append, affairs_append, got, same, outbox, List.append_assoc]
      rfl

theorem Poised.agrees (poised : Poised p aside a host worker) (advances : p.Advances b aside n log p' aside')
    (idle : p'.backlog = []) {worker' : Worker S E F X L} (serves : a.Serves b host deeds a' host')
    (stopped : a'.runtime = .stopped worker') :
    Agreement log ⟨.ok (), { p' with queue := [], inbox := [] }, (p'.drain aside').2⟩ deeds worker' host' := by
  cases serves.follows ready inStep running poised with
  | poised poised | abreast advances poised =>
    rw [poised.runs] at stopped
    cases stopped
  | lost lost =>
    rw [lost] at stopped
    cases stopped
  | @rested _ _ p'' aside'' advances' idle' rested =>
    obtain ⟨_, same, rfl, rfl⟩ := advances.unique_of_idle idle advances' idle'
    have alike := rested.alike.trans (p''.drain_alike aside'')
    rcases rested.stands with stands | ⟨_, _, stands⟩
    · rw [stands] at stopped
      cases stopped
      exact ⟨same, rested.machine, alike.doings.symm, alike.world.symm, rested.empty, rfl⟩
    · rw [stands] at stopped
      cases stopped

theorem Poised.stops (poised : Poised p aside a host worker) {waiting : List (Post E)}
    (channel : a.channel = waiting.map .post) (advances : p.Advances b aside n log p' aside') (idle : p'.backlog = []) :
    (∃ deeds a' host' worker', a.Serves b host deeds a' host' ∧ a'.runtime = .stopped worker') ∨
      ∃ n log p' aside', p.Advances b aside n log p' aside' ∧ aside'.crash? ≠ none := by
  by_cases survives : ∀ n log p' aside', p.Advances b aside n log p' aside' → aside'.crash? = none
  · obtain ⟨_, _, _, _, _, serves, abreast, channel, _⟩ :=
      poised.reaches ready inStep running channel advances survives
    obtain ⟨_, _, _, _, catching, upToDate, empty, _⟩ := abreast.catchUp rfl channel
    obtain ⟨_, _, _, _, resting, stopped, _⟩ := upToDate.rest empty idle
    exact .inl ⟨_, _, _, _, (serves.trans catching).trans resting, stopped⟩
  · push Not at survives
    exact .inr survives

end Serves

omit [DecidableEq S] [DecidableEq E] in
theorem poised_starting {m : Machine S E F X L} (ready : m.isInitialized) (sent : List (Post E)) (quiet : host.outbox = [])
    (alive : host.crash? = none) (alike : host.Alike aside) :
    Poised { Passive.ofMachine m with queue := sent.foldl queueUp [], running := true } aside
      (starting m (sent.map .post)) (host.log (.startingWorker m.name m.config.threadName))
      ⟨m, [], !m.hasEntered⟩ where
  runs := rfl
  machine := rfl
  pending := by simp [Passive.ofMachine, ready]
  alike := (Host.alike_write rfl).symm.trans alike
  quiet := quiet
  alive := alive
  line := by
    have incoming : (starting m (sent.map .post)).incoming = sent := by
      rw [Active.incoming, starting, List.filterMap_map]
      exact List.filterMap_some
    rw [incoming]
    rfl
  unchanged := by simp [starting]

end Active

section Agreement

variable [DecidableEq S] [DecidableEq E] [DecidableEq X]

/-- The machine is started and works on its owner's thread until nothing is left, and this is what happens to
    events. -/
structure Passive.Finishes (b : Behaviour S E F X W) (p : Passive S E F X L) (host : Host S E F X L W)
    (log : List (Affair E)) (answer : Passive.Answer S E F X L W) : Prop where
  answers : ∃ n, ∀ rounds, n < rounds → p.start b rounds host = some answer
  succeeds : answer.result = .ok ()
  works : ∃ n p' host', { p with running := true }.Advances b (p.machine.announce .started host) n log p' host' ∧
    p'.Ends b host' answer

/-- Whether a machine works on its owner's thread or has a worker of its own, the same events are fired in the same
    order, the same code is called, and the same machine is left behind. -/
theorem modes_agree (b : Behaviour S E F X W) {m : Machine S E F X L} (ready : m.isInitialized) (sent : List (Post E))
    {host : Host S E F X L W} (quiet : host.outbox = []) (alive : host.crash? = none)
    (bounded : ∃ most, ∀ rounds p host₁, (Passive.ofMachine m).submitAll b rounds sent host = some ⟨.ok (), p, host₁⟩ →
      { p with running := true }.PostsAtMost b (p.machine.announce .started host₁) most) :
    ∃ p host₁ a host₂ log answer,
      (∀ rounds, (Passive.ofMachine m).submitAll b rounds sent host = some ⟨.ok (), p, host₁⟩) ∧
      ((Active.ofMachine m).sendAll sent).bind (·.start host) = .ok (a, host₂) ∧ p.Finishes b host₁ log answer ∧
      (∀ deeds a' host' worker, a.Serves b host₂ deeds a' host' → a'.runtime = .stopped worker →
        Agreement log answer deeds worker host') ∧
      ((∃ deeds a' host' worker, a.Serves b host₂ deeds a' host' ∧ a'.runtime = .stopped worker) ∨
        ∃ n log p' host', { p with running := true }.Advances b (p.machine.announce .started host₁) n log p' host' ∧
          host'.crash? ≠ none) := by
  obtain ⟨host₁, submitted, alike⟩ := Passive.submitAll_stopped (p := .ofMachine m) rfl rfl sent host
  obtain ⟨most, bounded⟩ := bounded
  let p : Passive S E F X L := { Passive.ofMachine m with queue := sent.foldl queueUp [], running := true }
  obtain ⟨n, log, p', aside', advances, idle⟩ :=
    Passive.exists_idle (p := p) ready rfl rfl (bounded 0 _ host₁ (submitted b 0))
  have started : host.Alike (m.announce .started host₁) := alike.trans (Host.alike_announce rfl _ _)
  have poised := Active.poised_starting ready sent quiet alive started
  refine ⟨_, host₁, .starting m (sent.map .post), host.log (.startingWorker m.name m.config.threadName), log,
    ⟨.ok (), { p' with queue := [], inbox := [] }, (p'.drain aside').2⟩, submitted b, ?_, ⟨⟨n, fun rounds enough => ?_⟩,
    rfl, ⟨n, p', aside', advances, .idle idle⟩⟩, fun deeds a' host' worker serves stopped => ?_, ?_⟩
  · rw [Active.sendAll_open rfl]
    exact Active.start_starting ready (sent.map .post) host
  · exact Passive.start_of_ends rfl ready advances (.idle idle) enough
  · exact poised.agrees (p := p) ready rfl rfl advances idle serves stopped
  · exact poised.stops (p := p) ready rfl rfl rfl advances idle

end Agreement

def eager : Behaviour Lamp Switch Unit Empty Nat where
  guard _ _ calls := ⟨.done true, [], calls⟩
  action _ _ calls := ⟨.done (), if calls = 0 then [⟨⟨.toggle, []⟩, true⟩] else [], calls + 1⟩
  initialState x := x.elim
  signal x := x.elim
  exception x := x.elim

/-- The lamp is lit, turned up and switched off by its own code, before it is switched on again as bright as it was. -/
theorem modes_agree_lamp :
    let presses : List (Post Switch) := [⟨⟨.turn, []⟩, false⟩, ⟨⟨.toggle, []⟩, false⟩, ⟨⟨.toggle, []⟩, true⟩]
    (((Passive.ofMachine Active.lampMachine).submitAll eager 0 presses (.ofWorld 0)).bind fun submitted =>
        submitted.passive.start eager 10 submitted.host).any
      (fun answer => answer.passive.machine.current? = some .bright) = true ∧
    ∃ p host₁ a host₂ log answer,
      (∀ rounds, (Passive.ofMachine Active.lampMachine).submitAll eager rounds presses (.ofWorld 0) =
        some ⟨.ok (), p, host₁⟩) ∧
      ((Active.ofMachine Active.lampMachine).sendAll presses).bind (·.start (.ofWorld 0)) = .ok (a, host₂) ∧
      p.Finishes eager host₁ log answer ∧
      (∀ deeds a' host' worker, a.Serves eager host₂ deeds a' host' → a'.runtime = .stopped worker →
        Agreement log answer deeds worker host') ∧
      ((∃ deeds a' host' worker, a.Serves eager host₂ deeds a' host' ∧ a'.runtime = .stopped worker) ∨
        ∃ n log p' host', { p with running := true }.Advances eager (p.machine.announce .started host₁) n log p' host' ∧
          host'.crash? ≠ none) := by
  intro presses
  have works : (((Passive.ofMachine Active.lampMachine).submitAll eager 0 presses (.ofWorld 0)).bind fun submitted =>
      submitted.passive.start eager 10 submitted.host).any
        (fun answer => answer.passive.machine.current? = some .bright) = true := by decide +kernel
  have ready : Active.lampMachine.isInitialized := by decide +kernel
  refine ⟨works, modes_agree eager ready presses rfl rfl ?_⟩
  obtain ⟨host₁, submitted, _⟩ :=
    Passive.submitAll_stopped (p := .ofMachine Active.lampMachine) rfl rfl presses (.ofWorld 0)
  rw [submitted] at works
  obtain ⟨answer, started, _⟩ := (Option.any_eq_true _ _).mp works
  obtain ⟨most, bounded⟩ := Passive.bounded_of_start (p := { Passive.ofMachine Active.lampMachine with
    queue := presses.foldl queueUp [] }) rfl ready rfl started
  refine ⟨most, fun rounds p host₂ submitted' => ?_⟩
  rw [submitted] at submitted'
  cases submitted'
  exact bounded

end Statechart
