import Statechart.Passive
import Statechart.Proofs.Machine.Alike

namespace Statechart

inductive Affair (E : Type) where
  | posted (post : Post E)
  | fired (signal : Signal E)
deriving DecidableEq

def Affair.post? {E : Type} : Affair E → Option (Post E)
  | posted post => some post
  | fired _ => none

def posts {E : Type} (log : List (Affair E)) : List (Post E) := log.filterMap Affair.post?

theorem posts_map_posted {E : Type} (sent : List (Post E)) : posts (sent.map .posted) = sent := by
  rw [posts, List.filterMap_map]
  exact List.filterMap_some

theorem posts_round {E : Type} (log : List (Affair E)) (signal : Signal E) (sent : List (Post E)) :
    posts (log ++ .fired signal :: sent.map .posted) = posts log ++ sent := by
  rw [posts, List.filterMap_append]
  exact congrArg (posts log ++ ·) (posts_map_posted sent)

def queueUp {E : Type} (queue : List (Signal E)) (post : Post E) : List (Signal E) :=
  if post.priority then post.signal :: queue else queue ++ [post.signal]

namespace Passive

variable {S E F X L W : Type}

/-- The signals that wait, in the order in which they are going to be fired. -/
def backlog (p : Passive S E F X L) : List (Signal E) := p.inbox.foldl queueUp p.queue

theorem length_queueUp (posts : List (Post E)) (queue : List (Signal E)) :
    (posts.foldl queueUp queue).length = queue.length + posts.length := by
  induction posts generalizing queue with
  | nil => rfl
  | cons post rest ih =>
    rw [List.foldl_cons, ih, List.length_cons]
    unfold queueUp
    split <;> simp only [List.length_cons, List.length_append, List.length_nil] <;> omega

variable {p p' p'' : Passive S E F X L} {host host' host'' : Host S E F X L W} {post : Post E}

theorem enqueue_fst : (p.enqueue post host).1 = { p with queue := queueUp p.queue post } := by
  unfold enqueue queueUp
  split <;> rfl

theorem enqueue_alike : host.Alike (p.enqueue post host).2 := by
  unfold enqueue
  split
  · exact Host.alike_announce rfl _ _
  · exact Host.alike_announce rfl _ _

theorem enqueueAll (posts : List (Post E)) (p : Passive S E F X L) (host : Host S E F X L W) :
    (posts.foldl (fun (p, host) post => p.enqueue post host) (p, host)).1 =
        { p with queue := posts.foldl queueUp p.queue } ∧
      host.Alike (posts.foldl (fun (p, host) post => p.enqueue post host) (p, host)).2 := by
  induction posts generalizing p host with
  | nil => exact ⟨rfl, .refl host⟩
  | cons post rest ih =>
    obtain ⟨queued, alike⟩ := ih (p.enqueue post host).1 (p.enqueue post host).2
    refine ⟨queued.trans ?_, enqueue_alike.trans alike⟩
    rw [enqueue_fst]
    rfl

theorem drain_fst (p : Passive S E F X L) (host : Host S E F X L W) :
    (p.drain host).1 = { p with queue := p.backlog, inbox := [] } := (enqueueAll p.inbox _ host).1

theorem drain_alike (p : Passive S E F X L) (host : Host S E F X L W) : host.Alike (p.drain host).2 :=
  (enqueueAll p.inbox _ host).2

theorem drain_cons {post : Post E} {rest : List (Post E)} (arrived : p.inbox = post :: rest) :
    let next := { p with inbox := rest }.enqueue post host
    p.drain host = next.1.drain next.2 := by
  intro next
  have first : { p with inbox := [] }.enqueue post host = ({ next.1 with inbox := [] }, next.2) := by
    unfold next enqueue
    split <;> rfl
  have left : next.1.inbox = rest := congrArg Passive.inbox enqueue_fst
  unfold drain
  rw [arrived, List.foldl_cons, left]
  exact congrArg (rest.foldl _) first

/-- What a machine keeps in mind about the initial entry is right. -/
def InStep (p : Passive S E F X L) : Prop := p.pending = (p.machine.isInitialized && !p.machine.hasEntered)

theorem inStep_ofMachine (m : Machine S E F X L) : (ofMachine m).InStep := rfl

variable [DecidableEq S] [DecidableEq E] {b : Behaviour S E F X W} {n n' rounds : Nat} {log log' : List (Affair E)}
  {signal : Signal E} {queue : List (Signal E)} {done : Completed S E F X L W} {error : Misuse}

/-- How far work has come after some rounds, and what happened to events meanwhile. Guards and actions post while a
    signal is fired, and before that while the initial state is entered. -/
inductive Advances (b : Behaviour S E F X W) (p : Passive S E F X L) (host : Host S E F X L W) :
    Nat → List (Affair E) → Passive S E F X L → Host S E F X L W → Prop where
  | entered (entered : p.pending = false) : Advances b p host 0 [] (p.drain host).1 (p.drain host).2
  | enter {done : Completed S E F X L W} (pending : p.pending = true)
      (enters : p.machine.enterInitialState b (p.drain host).2 = .ok done) :
      Advances b p host 0 (done.host.outbox.map .posted)
        { p with machine := done.machine, queue := p.backlog, inbox := done.host.outbox, pending := false }
        { done.host with outbox := [] }
  | round {n : Nat} {log : List (Affair E)} {p' : Passive S E F X L} {host' : Host S E F X L W} {signal : Signal E}
      {queue : List (Signal E)} {done : Completed S E F X L W} (before : Advances b p host n log p' host')
      (waits : p'.backlog = signal :: queue) (fires : p'.machine.fire b signal (p'.drain host').2 = .ok done) :
      Advances b p host (n + 1) (log ++ .fired signal :: done.host.outbox.map .posted)
        { p' with machine := done.machine, queue := queue, inbox := done.host.outbox } { done.host with outbox := [] }

theorem work_round (waits : p.backlog = signal :: queue) (fires : p.machine.fire b signal (p.drain host).2 = .ok done) :
    p.work b (rounds + 1) host = { p with machine := done.machine, queue := queue, inbox := done.host.outbox }.work b
      rounds { done.host with outbox := [] } := by
  have drained := p.drain_fst host
  rw [waits] at drained
  rw [work]
  simp only [drained, fires]
  rfl

theorem work_idle (idle : p.backlog = []) :
    p.work b (rounds + 1) host = some ⟨.ok (), { p with queue := [], inbox := [] }, (p.drain host).2⟩ := by
  have drained := p.drain_fst host
  rw [idle] at drained
  rw [work]
  simp only [drained]

theorem work_refused (waits : p.backlog = signal :: queue)
    (refused : p.machine.fire b signal (p.drain host).2 = .error error) :
    p.work b (rounds + 1) host = some ⟨.error error, { p with queue := queue, inbox := [] }, (p.drain host).2⟩ := by
  have drained := p.drain_fst host
  rw [waits] at drained
  rw [work]
  simp only [drained, refused]

def PostsAtMost (b : Behaviour S E F X W) (p : Passive S E F X L) (host : Host S E F X L W) (most : Nat) : Prop :=
  ∀ n log p' host', p.Advances b host n log p' host' → (posts log).length ≤ most

namespace Advances

theorem execute (advances : p.Advances b host n log p' host') (running : p.running) (rounds : Nat) :
    p.execute b (rounds + n) host = p'.work b rounds host' := by
  induction advances generalizing rounds with
  | entered entered =>
    unfold Passive.execute
    simp only [drain_fst, running, entered]
    rfl
  | enter pending enters =>
    unfold Passive.execute
    simp only [drain_fst, running, pending, enters]
    rfl
  | round before waits fires ih =>
    rw [← Nat.succ_add_eq_add_succ, ih, Nat.succ_eq_add_one, work_round waits fires]

theorem last_round (advances : p.Advances b host (n + 1) log p' host') : ∃ log p' host' signal queue,
    p.Advances b host n log p' host' ∧ p'.backlog = signal :: queue := by
  cases advances with
  | round before waits fires => exact ⟨_, _, _, _, _, before, waits⟩

theorem unique (first : p.Advances b host n log p' host') (second : p.Advances b host n log' p'' host'') :
    log' = log ∧ p'' = p' ∧ host'' = host' := by
  induction first generalizing log' p'' host'' with
  | entered entered =>
    cases second with
    | entered => exact ⟨rfl, rfl, rfl⟩
    | enter pending => simp [entered] at pending
  | enter pending enters =>
    cases second with
    | entered entered => simp [pending] at entered
    | enter _ enters' =>
      rw [enters] at enters'
      cases enters'
      exact ⟨rfl, rfl, rfl⟩
  | round before waits fires ih =>
    cases second with
    | round before' waits' fires' =>
      obtain ⟨rfl, rfl, rfl⟩ := ih before'
      rw [waits] at waits'
      cases waits'
      rw [fires] at fires'
      cases fires'
      exact ⟨rfl, rfl, rfl⟩

theorem le_of_idle (first : p.Advances b host n log p' host') (idle : p'.backlog = [])
    (second : p.Advances b host n' log' p'' host'') : n' ≤ n := by
  induction second with
  | entered | enter => exact Nat.zero_le n
  | round before waits _ ih =>
    rcases Nat.lt_or_eq_of_le ih with less | rfl
    · exact less
    · obtain ⟨_, rfl, _⟩ := first.unique before
      rw [idle] at waits
      cases waits

theorem prefix_of_le (first : p.Advances b host n log p' host') (second : p.Advances b host n' log' p'' host'')
    (earlier : n ≤ n') : log <+: log' := by
  induction n' generalizing log' p'' host'' with
  | zero =>
    obtain rfl : n = 0 := Nat.le_zero.mp earlier
    obtain ⟨rfl, _, _⟩ := first.unique second
    exact List.prefix_refl _
  | succ n' ih =>
    rcases Nat.lt_or_eq_of_le earlier with less | rfl
    · cases second with
      | round before => exact (ih before (Nat.le_of_lt_succ less)).trans (List.prefix_append _ _)
    · obtain ⟨rfl, _, _⟩ := first.unique second
      exact List.prefix_refl _

theorem unique_of_idle (first : p.Advances b host n log p' host') (idle : p'.backlog = [])
    (second : p.Advances b host n' log' p'' host'') (idle' : p''.backlog = []) :
    n' = n ∧ log' = log ∧ p'' = p' ∧ host'' = host' := by
  obtain rfl : n' = n := Nat.le_antisymm (first.le_of_idle idle second) (second.le_of_idle idle' first)
  exact ⟨rfl, first.unique second⟩

theorem bounded (advances : p.Advances b host n log p' host') (idle : p'.backlog = []) :
    p.PostsAtMost b host (posts log).length := by
  intro n' log' p'' host'' other
  have earlier := other.prefix_of_le advances (advances.le_of_idle idle other)
  exact (earlier.sublist.filterMap _).length_le

theorem account (advances : p.Advances b host n log p' host') :
    n + p'.backlog.length = p.backlog.length + (posts log).length := by
  induction advances with
  | entered entered =>
    rw [drain_fst]
    exact Nat.zero_add _
  | enter pending enters =>
    rw [posts_map_posted, backlog, length_queueUp, Nat.zero_add]
  | @round n log p' host' signal queue done before waits fires ih =>
    rw [waits, List.length_cons] at ih
    have queued := length_queueUp done.host.outbox queue
    rw [posts_round, List.length_append]
    change n + 1 + (done.host.outbox.foldl queueUp queue).length = _
    omega

end Advances

structure Working (p : Passive S E F X L) : Prop where
  ready : p.machine.isInitialized
  entered : p.machine.hasEntered
  settled : p.pending = false
  running : p.running

section Working

variable (ready : p.machine.isInitialized) (inStep : p.InStep) (running : p.running)

include ready inStep running

theorem Advances.working (advances : p.Advances b host n log p' host') : p'.Working := by
  unfold InStep at inStep
  induction advances with
  | entered entered =>
    rw [drain_fst]
    rw [entered, ready, Bool.true_and] at inStep
    exact ⟨ready, by simpa using inStep.symm, entered, running⟩
  | enter pending enters =>
    obtain ⟨alike, entered⟩ := Machine.enterInitialState_resembles enters
    exact ⟨alike.isInitialized.trans ready, entered, rfl, running⟩
  | round before waits fires ih =>
    obtain ⟨ready', _, alike, entered⟩ := Machine.fire_resembles fires
    exact ⟨alike.isInitialized.trans ready', entered, ih.settled, ih.running⟩

omit running in
theorem exists_advances (b : Behaviour S E F X W) (host : Host S E F X L W) :
    ∃ log p' host', p.Advances b host 0 log p' host' := by
  unfold InStep at inStep
  cases pending : p.pending with
  | false => exact ⟨_, _, _, .entered pending⟩
  | true =>
    have unentered : p.machine.hasEntered = false := by
      rw [pending, ready, Bool.true_and] at inStep
      simpa using inStep.symm
    obtain ⟨done, enters, _⟩ := Machine.enterInitialState_unentered ready unentered b (p.drain host).2
    exact ⟨_, _, _, .enter pending enters⟩

theorem Advances.goes_on (advances : p.Advances b host n log p' host') (busy : p'.backlog ≠ []) :
    ∃ log' p'' host'', p.Advances b host (n + 1) log' p'' host'' := by
  have working := advances.working ready inStep running
  obtain ⟨signal, queue, waits⟩ := List.exists_cons_of_ne_nil busy
  obtain ⟨done, fires, _⟩ := Machine.fire_entered working.ready working.entered b signal (p'.drain host').2
  exact ⟨_, _, _, advances.round waits fires⟩

theorem exists_idle {b : Behaviour S E F X W} {host : Host S E F X L W} {most : Nat}
    (bounded : p.PostsAtMost b host most) :
    ∃ n log p' host', p.Advances b host n log p' host' ∧ p'.backlog = [] := by
  -- every round fires a signal, and there are no more than wait now and are posted later
  by_contra never
  have always (n : Nat) : ∃ log p' host', p.Advances b host n log p' host' := by
    induction n with
    | zero => exact exists_advances ready inStep b host
    | succ n ih =>
      obtain ⟨log, p', host', advances⟩ := ih
      exact advances.goes_on ready inStep running fun idle => never ⟨n, log, p', host', advances, idle⟩
  obtain ⟨log, p', host', advances⟩ := always (p.backlog.length + most + 1)
  have account := advances.account
  have sent := bounded _ _ _ _ advances
  omega

end Working

inductive Ends (b : Behaviour S E F X W) (p : Passive S E F X L) (host : Host S E F X L W) :
    Answer S E F X L W → Prop where
  | idle (idle : p.backlog = []) : Ends b p host ⟨.ok (), { p with queue := [], inbox := [] }, (p.drain host).2⟩
  | refused {signal : Signal E} {queue : List (Signal E)} {error : Misuse} (waits : p.backlog = signal :: queue)
      (refused : p.machine.fire b signal (p.drain host).2 = .error error) :
      Ends b p host ⟨.error error, { p with queue := queue, inbox := [] }, (p.drain host).2⟩

theorem Ends.work {answer : Answer S E F X L W} (ends : p.Ends b host answer) :
    p.work b (rounds + 1) host = some answer := by
  cases ends with
  | idle idle => exact work_idle idle
  | refused waits refused => exact work_refused waits refused

theorem Advances.ends {answer : Answer S E F X L W} (advances : p.Advances b host n log p' host')
    (worked : p'.work b rounds host' = some answer) :
    ∃ n log p' host', p.Advances b host n log p' host' ∧ p'.Ends b host' answer := by
  induction rounds generalizing n log p' host' with
  | zero => cases worked
  | succ rounds ih =>
    cases waits : p'.backlog with
    | nil =>
      rw [work_idle waits] at worked
      cases worked
      exact ⟨_, _, _, _, advances, .idle waits⟩
    | cons signal queue =>
      cases fires : p'.machine.fire b signal (p'.drain host').2 with
      | error error =>
        rw [work_refused waits fires] at worked
        cases worked
        exact ⟨_, _, _, _, advances, .refused waits fires⟩
      | ok done =>
        rw [work_round waits fires] at worked
        exact ih (advances.round waits fires) worked

theorem Working.idle {answer : Answer S E F X L W} (working : p.Working) (ends : p.Ends b host answer) :
    p.backlog = [] ∧ answer = ⟨.ok (), { p with queue := [], inbox := [] }, (p.drain host).2⟩ := by
  cases ends with
  | idle idle => exact ⟨idle, rfl⟩
  | @refused signal queue error waits refused =>
    obtain ⟨done, fires, _⟩ := Machine.fire_entered working.ready working.entered b signal (p.drain host).2
    rw [refused] at fires
    cases fires

theorem submit_stopped (stopped : p.running = false) (post : Post E) (host : Host S E F X L W) :
    ∃ host', (∀ (b : Behaviour S E F X W) rounds, p.submit b rounds post host =
      some ⟨.ok (), { p with queue := p.inbox.foldl queueUp (queueUp p.queue post), inbox := [] }, host'⟩) ∧
        host.Alike host' := by
  refine ⟨((p.enqueue post host).1.drain (p.enqueue post host).2).2, fun b rounds => ?_,
    enqueue_alike.trans (drain_alike _ _)⟩
  unfold submit Passive.execute
  simp only [drain_fst, enqueue_fst, stopped, Bool.not_false, if_true]
  rfl

section Start

variable {answer : Answer S E F X L W} (stopped : p.running = false) (ready : p.machine.isInitialized)

include stopped ready

theorem start_of_ends
    (advances : { p with running := true }.Advances b (p.machine.announce .started host) n log p' host')
    (ends : p'.Ends b host' answer) (enough : n < rounds) : p.start b rounds host = some answer := by
  obtain ⟨rest, rfl⟩ := Nat.exists_eq_add_of_lt enough
  have executed := advances.execute rfl (rest + 1)
  rw [ends.work] at executed
  unfold start
  rw [if_neg (by simp [stopped]), if_neg (by simp [ready]), ← executed]
  congr 1
  omega

theorem ends_of_start (inStep : p.InStep) (started : p.start b rounds host = some answer) :
    ∃ n log p' host', { p with running := true }.Advances b (p.machine.announce .started host) n log p' host' ∧
      p'.Ends b host' answer := by
  unfold start at started
  rw [if_neg (by simp [stopped]), if_neg (by simp [ready])] at started
  obtain ⟨log, p', host', advances⟩ :=
    exists_advances (p := { p with running := true }) ready inStep b (p.machine.announce .started host)
  exact advances.ends ((advances.execute rfl rounds).symm.trans started)

theorem bounded_of_start (inStep : p.InStep) (started : p.start b rounds host = some answer) :
    ∃ most, { p with running := true }.PostsAtMost b (p.machine.announce .started host) most := by
  obtain ⟨n, log, p', host', advances, ends⟩ := ends_of_start stopped ready inStep started
  have working := advances.working (p := { p with running := true }) ready inStep rfl
  exact ⟨_, advances.bounded (working.idle ends).1⟩

end Start

end Passive

end Statechart
