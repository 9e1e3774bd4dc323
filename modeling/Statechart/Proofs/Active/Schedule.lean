import Statechart.Proofs.Active.Delivery
import Statechart.Proofs.Active.Faithful
import Statechart.Proofs.Machine.Level
import Statechart.Proofs.Machine.Travel

namespace Statechart

variable {S E F X L W : Type} [DecidableEq S] [DecidableEq E] [DecidableEq X]

namespace Run

structure Level (start : Host S E F X L W) (r r' : Run S E F X L W) : Prop where
  machine : r'.machine = r.machine
  host : Host.Level start r.host r'.host

variable {start host : Host S E F X L W} {r r' : Run S E F X L W} {b : Behaviour S E F X W} {op : Call S E F X L}
  {ops : List (Call S E F X L)}

omit [DecidableEq S] [DecidableEq E] [DecidableEq X] in
theorem Level.after (level : Level start r r') {answer answer' : Except Misuse (Completed S E F X L W)}
    (answered : Answered (Completed.Level start) answer answer') : Level start (r.after answer) (r'.after answer') := by
  cases answered with
  | refused error => exact level
  | accepted ended => exact ⟨ended.machine, ended.host⟩

theorem Level.call (level : Level start r r') (silent : b.Silent) (operation : op.isOperation) :
    Level start (r.call b op) (r'.call b op) := by
  cases op with
  | enterInitialState =>
    have answered := Machine.enterInitialState_level silent r.machine level.host
    rw [Run.call.eq_def, Run.call.eq_def b r']
    simp only [level.machine]
    exact level.after answered
  | fire signal =>
    have answered := Machine.fire_level silent r.machine level.host signal
    rw [Run.call.eq_def, Run.call.eq_def b r']
    simp only [level.machine]
    exact level.after answered
  | _ => cases operation

theorem Level.callAll (level : Level start r r') (silent : b.Silent) (operations : ∀ op ∈ ops, op.isOperation) :
    Level start (r.callAll b ops) (r'.callAll b ops) := by
  induction ops generalizing r r' with
  | nil => exact level
  | cons op rest ih =>
    exact ih (level.call silent (operations op List.mem_cons_self)) fun op member =>
      operations op (List.mem_cons_of_mem _ member)

theorem callAll_crashed (silent : b.Silent) (sent : r.host.outbox = []) (crashed : r.host.crash?.isSome)
    (operations : ∀ op ∈ ops, op.isOperation) : (r.callAll b ops).host.crash?.isSome := by
  have level : Level r.host r r := ⟨rfl, rfl, sent, sent, rfl, fun stood => stood⟩
  exact (level.callAll silent operations).host.lasting crashed

end Run

namespace Active

variable {b : Behaviour S E F X W} {a a' a'' : Active S E F X L} {host host' host'' host₀ : Host S E F X L W}
  {coming left rest later : List (Message E X L)} {worker worker' : Worker S E F X L} {phase : Phase} {stopping : Bool}
  {r : Run S E F X L W} {pending : Bool} {events fired : List (Signal E)} {signal : Signal E} {message : Message E X L}
  {deeds : List (Deed E X L)}

/-- A worker takes its turns while messages arrive, one by one and whenever they like. What is still to come is put
    into the channel in this order. -/
inductive Schedule (b : Behaviour S E F X W) (a : Active S E F X L) (host : Host S E F X L W)
    (coming : List (Message E X L)) : Active S E F X L → Host S E F X L W → List (Message E X L) → Prop where
  | none : Schedule b a host coming a host coming
  | turn {a' a'' : Active S E F X L} {host' host'' : Host S E F X L W} {left : List (Message E X L)}
      (before : Schedule b a host coming a' host' left) (turned : a'.turn? b host' = some (a'', host'')) :
      Schedule b a host coming a'' host'' left
  | arrive {a' a'' : Active S E F X L} {host' : Host S E F X L W} {message : Message E X L}
      {left : List (Message E X L)} (before : Schedule b a host coming a' host' (message :: left))
      (sent : a'.send message = .ok a'') : Schedule b a host coming a'' host' left

theorem Schedule.settle {turns : Nat} (schedule : Schedule b a host coming a' host' left)
    (settled : settle? b turns a' host' = some (a'', host'')) : Schedule b a host coming a'' host'' left := by
  induction turns generalizing a' host' with
  | zero => cases settled
  | succ turns ih =>
    unfold settle? at settled
    split at settled
    · cases settled
      exact schedule
    · rename_i turned
      exact ih (schedule.turn turned) settled

def plain (signal : Signal E) : Message E X L := .post ⟨signal, false⟩

/-- What a run of a worker comes to: the initial entry, if it is still to be made, and the events one by one. -/
def workload (pending : Bool) (events : List (Signal E)) : List (Call S E F X L) :=
  (if pending then [.enterInitialState] else []) ++ events.map .fire

omit [DecidableEq S] [DecidableEq E] [DecidableEq X] in
theorem workload_append (pending : Bool) (first second : List (Signal E)) :
    (workload pending (first ++ second) : List (Call S E F X L)) = workload pending first ++ second.map .fire := by
  rw [workload, List.map_append, ← List.append_assoc]
  rfl

structure Pace (b : Behaviour S E F X W) (r : Run S E F X L W) (calls : List (Call S E F X L)) (host : Host S E F X L W)
    (machine : Machine S E F X L) : Prop where
  level : Run.Level r.host (r.callAll b calls) ⟨machine, host, []⟩
  alive : host.crash? = none

theorem Pace.write {calls : List (Call S E F X L)} {machine : Machine S E F X L} (pace : Pace b r calls host machine)
    (entries : List (JournalEntry S E F X L)) : Pace b r calls (host.writeAll entries) machine :=
  ⟨⟨pace.level.machine, pace.level.host.write_right entries⟩, pace.alive⟩

theorem Pace.announce {calls : List (Call S E F X L)} {machine : Machine S E F X L} (pace : Pace b r calls host machine)
    (announcer : Machine S E F X L) (hook : Hook S E) : Pace b r calls (announcer.announce hook host) machine := by
  rw [Machine.announce, Host.announce_eq]
  exact pace.write _

/-- How far a worker has come with a stream of events, of which it has fired some, while others are in its queue, in the
    channel, or still to come. -/
inductive Keeps (b : Behaviour S E F X W) (r : Run S E F X L W) (pending : Bool) (events : List (Signal E))
    (rest : List (Message E X L)) (a : Active S E F X L) (host : Host S E F X L W) (coming : List (Message E X L)) :
    Prop where
  | poised (runs : a.runtime = .running ⟨r.machine, [], pending⟩ .starting false) (pace : Pace b r [] host r.machine)
      (stream : a.channel ++ coming = events.map plain ++ .stop :: rest)
  | attending {worker : Worker S E F X L} {phase : Phase} {fired later : List (Signal E)}
      (runs : a.runtime = .running worker phase false) (begun : phase ≠ .starting)
      (pace : Pace b r (workload pending fired) host worker.machine) (line : fired ++ worker.queue ++ later = events)
      (stream : a.channel ++ coming = later.map plain ++ .stop :: rest)
  | stopping {worker : Worker S E F X L} {phase : Phase} {fired : List (Signal E)}
      (runs : a.runtime = .running worker phase true) (begun : phase ≠ .starting)
      (pace : Pace b r (workload pending fired) host worker.machine) (line : fired ++ worker.queue = events)
  | stopped {worker : Worker S E F X L} (stands : a.runtime = .stopped worker)
      (pace : Pace b r (workload pending events) host worker.machine)
  | lost (lost : a.runtime = .lost) (sent : host.outbox = [])
      (crashed : (r.callAll b (workload pending events)).host.crash?.isSome)

theorem Keeps.sent (keeps : Keeps b r pending events rest a host coming) : host.outbox = [] := by
  cases keeps with
  | poised _ pace | attending _ _ pace | stopping _ _ pace | stopped _ pace => exact pace.level.host.sent'
  | lost lost sent => exact sent

theorem Pace.resume {calls : List (Call S E F X L)} {machine : Machine S E F X L} (pace : Pace b r calls host machine)
    (silent : b.Silent) (op : Call S E F X L) (operation : op.isOperation) {after : Run S E F X L W}
    (called : Run.call b ⟨machine, host, []⟩ op = after) (entries : List (JournalEntry S E F X L))
    (queue : List (Signal E)) (flag : Bool) :
    (∃ host', a.resume ⟨after.machine, queue, flag⟩ stopping (after.host.writeAll entries) =
        ({ a with
            runtime := .running ⟨after.machine, queue, flag⟩ .draining stopping
            published? := after.machine.current? }, host') ∧
        Pace b r (calls ++ [op]) host' after.machine) ∨
      (a.resume ⟨after.machine, queue, flag⟩ stopping (after.host.writeAll entries)).1.runtime = .lost ∧
        (a.resume ⟨after.machine, queue, flag⟩ stopping (after.host.writeAll entries)).2.outbox = [] ∧
        (r.callAll b (calls ++ [op])).host.crash?.isSome ∧ (r.callAll b (calls ++ [op])).host.outbox = [] := by
  have level := pace.level.call silent operation
  have next : (r.callAll b calls).call b op = r.callAll b (calls ++ [op]) := (Run.callAll_append b r calls [op]).symm
  rw [called, next] at level
  unfold Active.resume
  cases crash : (after.host.writeAll entries).crash? with
  | none =>
    refine .inl ⟨_, rfl, ⟨level.machine, ?_⟩, crash⟩
    exact level.host.write_right entries
  | some length =>
    have crashed := level.host.crashed
    rw [show after.host.crash? = some length from crash] at crashed
    exact .inr ⟨rfl, rfl, crashed.symm, level.host.sent⟩

theorem crashed_of_prefix (silent : b.Silent) (crashed : (r.callAll b (workload pending fired)).host.crash?.isSome)
    (sent : (r.callAll b (workload pending fired)).host.outbox = []) (after : List (Signal E)) :
    (r.callAll b (workload pending (fired ++ after))).host.crash?.isSome := by
  rw [workload_append, Run.callAll_append]
  exact Run.callAll_crashed silent sent crashed (List.forall_mem_map.mpr fun _ _ => rfl)

theorem Keeps.begin (silent : b.Silent) (pace : Pace b r [] host r.machine)
    (stream : a.channel ++ coming = events.map plain ++ .stop :: rest) :
    Keeps b r pending events rest (a.beginRun b ⟨r.machine, [], pending⟩ false host).1
      (a.beginRun b ⟨r.machine, [], pending⟩ false host).2 coming := by
  have announced := pace.announce r.machine .started
  cases waits : pending with
  | false =>
    have begun : Pace b r (workload false ([] : List (Signal E))) _ r.machine := announced
    exact .attending rfl (by simp) begun rfl stream
  | true =>
    have waiting : (⟨r.machine, [], true⟩ : Worker S E F X L).pending := rfl
    obtain ⟨error?, begun⟩ := beginRun_eq waiting b a false host
    rw [begun]
    rcases announced.resume silent .enterInitialState rfl rfl _ [] false with
      ⟨host', resumed, pace⟩ | ⟨lost, mute, crashed, sent⟩
    · have begun : Pace b r (workload true ([] : List (Signal E))) host' _ := pace
      rw [resumed]
      exact .attending rfl (by simp) begun rfl stream
    · have whole : (r.callAll b (workload true ([] ++ events))).host.crash?.isSome :=
        crashed_of_prefix silent crashed sent events
      exact .lost lost mute whole

theorem Keeps.fire {queue : List (Signal E)} (silent : b.Silent)
    (pace : Pace b r (workload pending fired) host worker.machine)
    (goesOn : ∀ {a' : Active S E F X L} {host' machine}, a'.channel = a.channel →
      a'.runtime = .running ⟨machine, queue, worker.pending⟩ .draining stopping →
      Pace b r (workload pending (fired ++ [signal])) host' machine → Keeps b r pending events rest a' host' coming)
    (line : ∃ after, fired ++ signal :: after = events) :
    Keeps b r pending events rest (a.fireNext b { worker with queue := queue } stopping signal host).1
      (a.fireNext b { worker with queue := queue } stopping signal host).2 coming := by
  obtain ⟨error?, fires⟩ := fireNext_eq b a { worker with queue := queue } stopping signal host
  rw [fires]
  have next :
      (workload pending fired : List (Call S E F X L)) ++ [.fire signal] = workload pending (fired ++ [signal]) :=
    (workload_append pending fired [signal]).symm
  rcases pace.resume silent (.fire signal) rfl rfl _ queue worker.pending with
    ⟨host', resumed, pace⟩ | ⟨lost, mute, crashed, sent⟩
  · rw [next] at pace
    rw [resumed]
    exact goesOn rfl rfl pace
  · obtain ⟨after, rfl⟩ := line
    rw [next] at crashed sent
    have whole := crashed_of_prefix silent crashed sent after
    rw [List.append_assoc, List.singleton_append] at whole
    exact .lost lost mute whole

theorem Keeps.attending_turn {later : List (Signal E)} (silent : b.Silent)
    (runs : a.runtime = .running worker phase false) (begun : phase ≠ .starting)
    (pace : Pace b r (workload pending fired) host worker.machine)
    (line : fired ++ worker.queue ++ later = events) (stream : a.channel ++ coming = later.map plain ++ .stop :: rest)
    (turned : a.Turn b host deeds a' host') : Keeps b r pending events rest a' host' coming := by
  cases turned with
  | deliver sent =>
    rw [pace.level.host.sent'] at sent
    cases sent
  | begin quiet stands =>
    rw [runs] at stands
    cases stands
    exact absurd rfl begun
  | take quiet stands looks next =>
    rw [runs] at stands
    cases stands
    rw [next] at stream
    -- the message is the next event, or the stop when no event is left
    cases later with
    | nil =>
      obtain ⟨rfl, _⟩ := List.cons.inj stream
      rw [List.append_nil] at line
      exact .stopping rfl (by simp) pace line
    | cons signal later =>
      obtain ⟨rfl, remaining⟩ := List.cons.inj stream
      refine .attending rfl (by simp) (pace.announce worker.machine _) ?_ remaining
      rw [← line]
      simp
  | look quiet stands drained =>
    rw [runs] at stands
    cases stands
    exact .attending rfl (by simp) pace line stream
  | @fire _ _ signal queue quiet stands waits =>
    rw [runs] at stands
    cases stands
    rw [waits] at line
    refine .fire silent pace ?_ ⟨queue ++ later, by simpa using line⟩
    intro a' host' machine channel runs pace
    exact .attending runs (by simp) pace (by simpa using line) (channel ▸ stream)
  | finish quiet stands =>
    rw [runs] at stands
    cases stands

theorem Keeps.stopping_turn (silent : b.Silent) (runs : a.runtime = .running worker phase true)
    (begun : phase ≠ .starting) (pace : Pace b r (workload pending fired) host worker.machine)
    (line : fired ++ worker.queue = events) (turned : a.Turn b host deeds a' host') :
    Keeps b r pending events rest a' host' coming := by
  cases turned with
  | deliver sent =>
    rw [pace.level.host.sent'] at sent
    cases sent
  | begin quiet stands =>
    rw [runs] at stands
    cases stands
    exact absurd rfl begun
  | take quiet stands =>
    rw [runs] at stands
    cases stands
  | look quiet stands drained =>
    rw [runs] at stands
    cases stands
    exact .stopping rfl (by simp) pace line
  | @fire _ _ signal queue quiet stands waits =>
    rw [runs] at stands
    cases stands
    rw [waits] at line
    refine .fire silent pace ?_ ⟨queue, line⟩
    intro a' host' machine _ runs pace
    exact .stopping runs (by simp) pace (by simpa using line)
  | finish quiet stands empty =>
    rw [runs] at stands
    cases stands
    rw [empty, List.append_nil] at line
    subst line
    exact .stopped rfl (pace.announce worker.machine .stopped)

theorem Keeps.turn (silent : b.Silent) (keeps : Keeps b r pending events rest a host coming)
    (turned : a.Turn b host deeds a' host') : Keeps b r pending events rest a' host' coming := by
  cases keeps with
  | poised runs pace stream =>
    cases turned with
    | deliver sent =>
      rw [pace.level.host.sent'] at sent
      cases sent
    | begin quiet stands =>
      rw [runs] at stands
      cases stands
      exact .begin silent pace stream
    | take quiet stands looks =>
      rw [runs] at stands
      cases stands
      rcases looks with looks | ⟨looks, _⟩ <;> cases looks
    | look quiet stands | fire quiet stands | finish quiet stands =>
      rw [runs] at stands
      cases stands
  | attending runs begun pace line stream => exact .attending_turn silent runs begun pace line stream turned
  | stopping runs begun pace line => exact .stopping_turn silent runs begun pace line turned
  | stopped stands pace =>
    cases turned with
    | deliver sent =>
      rw [pace.level.host.sent'] at sent
      cases sent
    | begin quiet stands' | take quiet stands' | look quiet stands' | fire quiet stands' | finish quiet stands' =>
      rw [stands] at stands'
      cases stands'
  | lost lost sent crashed =>
    cases turned with
    | deliver sent' =>
      rw [sent] at sent'
      cases sent'
    | begin quiet stands | take quiet stands | look quiet stands | fire quiet stands | finish quiet stands =>
      rw [lost] at stands
      cases stands

theorem Keeps.arrive (keeps : Keeps b r pending events rest a host (message :: coming))
    (sent : a.send message = .ok a') : Keeps b r pending events rest a' host coming := by
  unfold send at sent
  split at sent
  · rename_i opened
    cases sent
    have regroup : a.channel ++ message :: coming = a.channel ++ [message] ++ coming := by simp
    cases keeps with
    | poised runs pace stream => exact .poised runs pace (regroup ▸ stream)
    | attending runs begun pace line stream => exact .attending runs begun pace line (regroup ▸ stream)
    | stopping runs begun pace line => exact .stopping runs begun pace line
    | stopped stands pace => exact .stopped stands pace
    | lost lost =>
      rw [isOpen, lost] at opened
      cases opened
  · cases sent

theorem Schedule.keeps (silent : b.Silent) (schedule : Schedule b a host coming a' host' left)
    (keeps : Keeps b r pending events rest a host coming) : Keeps b r pending events rest a' host' left := by
  induction schedule with
  | none => exact keeps
  | turn before turned ih =>
    obtain ⟨deeds, turned⟩ := turn?_eq_some_iff.mp turned
    exact ih.turn silent turned
  | arrive before sent ih => exact ih.arrive sent

/-- A bound for the turns that a worker has before it, as long as nobody sends anything. -/
def effort (a : Active S E F X L) : Nat :=
  match a.runtime with
  | .running worker phase _ => 5 * a.channel.length + 3 * worker.queue.length +
      match phase with
      | .starting => 3
      | .draining => 2
      | .working => 1
  | .stopped _ | .lost | .terminated => 0

omit [DecidableEq S] [DecidableEq E] [DecidableEq X] in
theorem effort_running (runs : a.runtime = .running worker phase stopping) :
    5 * a.channel.length + 3 * worker.queue.length < a.effort := by
  unfold effort
  rw [runs]
  cases phase <;> simp

omit [DecidableEq S] [DecidableEq E] [DecidableEq X] in
theorem effort_resume (a : Active S E F X L) (worker : Worker S E F X L) (stopping : Bool) (host : Host S E F X L W) :
    (a.resume worker stopping host).1.effort ≤ 5 * a.channel.length + 3 * worker.queue.length + 2 := by
  unfold resume
  cases host.crash? with
  | none => exact Nat.le_refl _
  | some length => exact Nat.zero_le _

theorem Turn.effort_lt (turned : a.Turn b host deeds a' host') (sent : host.outbox = []) : a'.effort < a.effort := by
  cases turned with
  | deliver sent' =>
    rw [sent] at sent'
    cases sent'
  | @begin worker stopping quiet stands =>
    have before : a.effort = 5 * a.channel.length + 3 * worker.queue.length + 3 := by rw [effort, stands]
    have after : (a.beginRun b worker stopping host).1.effort ≤ 5 * a.channel.length + 3 * worker.queue.length + 2 := by
      unfold beginRun
      simp only
      split
      · split <;> exact effort_resume _ _ _ _
      · exact Nat.le_refl _
    omega
  | @take worker phase message rest quiet stands looks next =>
    have before := effort_running stands
    rw [next, List.length_cons] at before
    have after : ({ a with channel := rest }.accept worker message host).1.effort ≤
        5 * rest.length + 3 * (worker.queue.length + 1) + 2 := by
      cases message with
      | post post =>
        unfold accept effort
        simp only
        split <;> simp
      | configure change | stop =>
        unfold accept effort
        simp only
        omega
    omega
  | look quiet stands drained =>
    unfold effort
    rw [stands]
    simp
  | @fire worker stopping signal queue quiet stands waits =>
    have before := effort_running stands
    rw [waits, List.length_cons] at before
    have after : (a.fireNext b { worker with queue := queue } stopping signal host).1.effort ≤
        5 * a.channel.length + 3 * queue.length + 2 := by
      unfold fireNext
      split <;> exact effort_resume _ _ _ _
    omega
  | finish quiet stands empty =>
    have before := effort_running stands
    exact Nat.lt_of_le_of_lt (Nat.zero_le _) before

theorem Keeps.over (keeps : Keeps b r pending events rest a host []) (stuck : a.turn? b host = none) :
    a.runtime = .lost ∨ ∃ worker, a.runtime = .stopped worker := by
  cases keeps with
  | poised runs pace stream => cases (waits_of_turn? stuck runs).1
  | @attending worker phase fired later runs begun pace line stream =>
    -- the stop is still to come
    obtain ⟨_, _, _, empty⟩ := waits_of_turn? stuck runs
    rw [empty, List.append_nil] at stream
    simp at stream
  | stopping runs pace line => cases (waits_of_turn? stuck runs).2.1
  | stopped stands pace => exact .inr ⟨_, stands⟩
  | lost lost => exact .inl lost

theorem Keeps.ends (silent : b.Silent) (keeps : Keeps b r pending events rest a host []) :
    ∃ turns a' host', settle? b turns a host = some (a', host') ∧
      (a'.runtime = .lost ∨ ∃ worker, a'.runtime = .stopped worker) := by
  induction bound : a.effort using Nat.strong_induction_on generalizing a host with
  | _ n ih =>
    subst bound
    cases turned : a.turn? b host with
    | none => exact ⟨1, a, host, by rw [settle?, turned], keeps.over turned⟩
    | some next =>
      obtain ⟨a', host'⟩ := next
      obtain ⟨deeds, turn⟩ := turn?_eq_some_iff.mp turned
      have less := turn.effort_lt keeps.sent
      obtain ⟨turns, a'', host'', settled, ended⟩ := ih a'.effort less (keeps.turn silent turn) rfl
      exact ⟨turns + 1, a'', host'', by rw [settle?, turned]; exact settled, ended⟩

omit [DecidableEq S] [DecidableEq E] [DecidableEq X] in
theorem start_running (stands : a.runtime = .stopped worker) (started : a.start host = .ok (a', host')) :
    a'.runtime = .running worker .starting false ∧ a'.channel = a.channel ∧
      host' = host.writeAll [.log (.startingWorker a.name a.threadName)] := by
  unfold start at started
  rw [stands] at started
  split at started
  · cases started
  · cases started
    exact ⟨rfl, rfl, rfl⟩

/-- When and in which portions a worker gets to see what is sent to it makes no difference, as long as code sends
    nothing: events that come before a stop are fired in the order of the channel, after the initial entry if that is
    still to be made. However they arrive, the run ends, and the machine is the one that these calls would have made. It
    is lost exactly when one of these calls would have crashed. -/
theorem schedule_independent {m : Machine S E F X L} (silent : b.Silent)
    (steps : (ofMachine m).Steps b host₀ deeds a host) (stands : a.runtime = .stopped worker)
    (sent : host.outbox = []) (alive : host.crash? = none) (started : a.start host = .ok (a', host'))
    (stream : a.channel ++ coming = events.map (fun signal => .post ⟨signal, false⟩) ++ .stop :: rest)
    (schedule : Schedule b a' host' coming a'' host'' left) :
    let calls := (if worker.pending then [.enterInitialState] else []) ++ events.map .fire
    let made := (⟨worker.machine, host, []⟩ : Run S E F X L W).callAll b calls
    (∀ worker', a''.runtime = .stopped worker' →
      worker'.machine = made.machine ∧ host''.world = made.host.world ∧ made.host.crash? = none) ∧
    (a''.runtime = .lost → made.host.crash?.isSome) ∧
    (left = [] → ∃ turns last host₁, settle? b turns a'' host'' = some (last, host₁) ∧
      (last.runtime = .lost ∨ ∃ worker', last.runtime = .stopped worker')) := by
  intro calls made
  have queue : worker.queue = [] := (((kept_ofMachine m).steps steps).stands.resting (.inl stands)).1
  obtain ⟨machine, _, pending⟩ := worker
  obtain rfl : _ = [] := queue
  obtain ⟨runs, channel, wrote⟩ := start_running stands started
  have begun : Pace b ⟨machine, host, []⟩ [] host' machine := by
    have level : Run.Level host (⟨machine, host, []⟩ : Run S E F X L W) ⟨machine, host, []⟩ :=
      ⟨rfl, rfl, sent, sent, rfl, fun crashed => crashed⟩
    have pace : Pace b ⟨machine, host, []⟩ [] host machine := ⟨level, alive⟩
    rw [wrote]
    exact pace.write _
  have keeps := schedule.keeps silent (.poised runs begun (channel ▸ stream))
  refine ⟨fun worker' stopped => ?_, fun lost => ?_, ?_⟩
  · cases keeps with
    | stopped stands pace =>
      rw [stopped] at stands
      cases stands
      have crashed := pace.level.host.crashed
      rw [pace.alive] at crashed
      exact ⟨pace.level.machine, pace.level.host.world, Option.isSome_eq_false_iff.mp crashed.symm |>
        Option.isNone_iff_eq_none.mp⟩
    | poised runs | attending runs | stopping runs | lost runs =>
      rw [stopped] at runs
      cases runs
  · cases keeps with
    | lost _ _ crashed => exact crashed
    | poised runs | attending runs | stopping runs | stopped runs =>
      rw [lost] at runs
      cases runs
  · rintro rfl
    exact keeps.ends silent

def scheduledLamp : Option (Active Lamp Switch Unit Empty Empty × Host Lamp Switch Unit Empty Empty Unit) := do
  let (a, host) ← ((ofMachine lampMachine).start (.ofWorld ())).toOption
  let a ← (a.send (plain ⟨.toggle, []⟩)).toOption
  let (a, host) ← settle? Lamp.quiet 20 a host
  let a ← (a.send (plain ⟨.turn, []⟩)).toOption
  let a ← (a.send .stop).toOption
  settle? Lamp.quiet 20 a host

theorem schedule_independent_lamp : ∃ a host worker, scheduledLamp = some (a, host) ∧ a.runtime = .stopped worker ∧
    worker.machine.current? = some .bright := by
  have visited : scheduledLamp.any (fun visit => visit.1.machine?.isSome) = true := by decide +kernel
  obtain ⟨⟨a, host⟩, visit, found⟩ := (Option.any_eq_true _ _).mp visited
  obtain ⟨machine, owned⟩ := Option.isSome_iff_exists.mp found
  obtain ⟨worker, stopped, _⟩ := stopped_of_machine? owned
  refine ⟨a, host, worker, visit, stopped, ?_⟩
  simp only [scheduledLamp, Option.bind_eq_bind, Option.bind_eq_some_iff, Prod.exists, toOption_eq_some_iff] at visit
  obtain ⟨a₀, host₀, started, _, toggled, _, _, waits, _, turned, _, told, settled⟩ := visit
  let events : List (Signal Switch) := [⟨.toggle, []⟩, ⟨.turn, []⟩]
  have begins : Schedule Lamp.quiet a₀ host₀ (events.map plain ++ [.stop]) a₀ host₀ _ := .none
  have schedule := ((((begins.arrive toggled).settle waits).arrive turned).arrive told).settle settled
  have stream : (ofMachine lampMachine).channel ++ (events.map plain ++ [.stop]) =
      events.map (fun signal => .post ⟨signal, false⟩) ++ [.stop] := rfl
  have silent : Lamp.quiet.Silent := ⟨fun _ _ _ => rfl, fun _ _ _ => rfl⟩
  obtain ⟨same, _⟩ := schedule_independent silent (m := lampMachine) .none rfl rfl rfl started stream schedule
  rw [(same worker stopped).1]
  decide +kernel

end Active

end Statechart
