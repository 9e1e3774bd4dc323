import Statechart.Proofs.Machine.Sending
import Statechart.Proofs.Passive.Safety

namespace Statechart

/-- One thing that happens in front of a machine. A post that is sent goes into the inbox and from there into the
    queue; one that is submitted goes into the queue. While the initial state is entered or a signal is fired, a queue
    waits, and code sends more. -/
inductive Beat (E : Type) where
  | sent (post : Post E)
  | submitted (post : Post E)
  | queued (post : Post E)
  | entered (queue : List (Signal E)) (sent : List (Post E))
  | fired (signal : Signal E) (queue : List (Signal E)) (sent : List (Post E))
  | aside

namespace Beat

variable {E : Type}

def posted? : Beat E → Option (Post E)
  | sent post | submitted post => some post
  | _ => none

def sends : Beat E → List (Post E)
  | entered _ posts | fired _ _ posts => posts
  | _ => []

def accepted (beat : Beat E) : List (Post E) := beat.posted?.toList ++ beat.sends

def arrivals : Beat E → List (Post E)
  | sent post => [post]
  | beat => beat.sends

def drained? : Beat E → Option (Post E)
  | queued post => some post
  | _ => none

def enqueued? : Beat E → Option (Post E)
  | queued post | submitted post => some post
  | _ => none

def fired? : Beat E → Option (Signal E)
  | fired signal _ _ => some signal
  | _ => none

def waiting? : Beat E → Option (List (Signal E))
  | entered queue _ | fired _ queue _ => some queue
  | _ => none

theorem unaccepted {beat : Beat E} (nothing : beat.accepted = []) :
    beat.arrivals = [] ∧ beat.enqueued? = beat.drained? := by
  cases beat with
  | sent post | submitted post => cases nothing
  | queued post | aside => exact ⟨rfl, rfl⟩
  | entered queue posts | fired signal queue posts => exact ⟨nothing, rfl⟩

end Beat

section QueueUp

variable {E : Type}

theorem foldl_queueUp_eq (sent : List (Post E)) (queue : List (Signal E)) :
    sent.foldl queueUp queue = ((sent.filter Post.priority).map Post.signal).reverse ++ queue ++
      (sent.filter (!Post.priority ·)).map Post.signal := by
  induction sent generalizing queue with
  | nil => simp
  | cons post rest ih =>
    rw [List.foldl_cons, ih]
    unfold queueUp
    cases urgent : post.priority <;> simp [urgent]

end QueueUp

variable {S E F X L W : Type}

def Post.announcement (post : Post E) : Hook S E :=
  if post.priority then .eventQueuedWithPriority post.signal else .eventQueued post.signal

def Hook.isQueueing : Hook S E → Bool
  | .eventQueued _ | .eventQueuedWithPriority _ => true
  | _ => false

def JournalEntry.isQueueing : JournalEntry S E F X L → Bool
  | .hook _ _ call | .log (.extensionCalled _ call) => call.isQueueing
  | _ => false

theorem JournalEntry.isQueueing_eq_false {entry : JournalEntry S E F X L} (apart : entry.isAboutQueue = false) :
    entry.isQueueing = false := by
  have hooks (call : Hook S E) (apart : call.isAboutQueue = false) : call.isQueueing = false := by
    cases call <;> first | rfl | cases apart
  cases entry with
  | hook extension info call => exact hooks call apart
  | log line =>
    cases line with
    | extensionCalled info call => exact hooks call apart
    | _ => rfl
  | _ => rfl

theorem Post.isQueueing_announcement (post : Post E) : (post.announcement : Hook S E).isQueueing := by
  unfold Post.announcement
  split <;> rfl

/-- What one beat adds to the journal: code sent what the beat says, and each extension heard once of a post that
    entered the queue. -/
def Host.Tells (host : Host S E F X L W) (extensions : List (Extension X)) (info : Info S) (beat : Beat E)
    (host' : Host S E F X L W) : Prop :=
  ∃ entries, host'.journal = host.journal ++ entries ∧ entries.flatMap JournalEntry.sent = beat.sends ∧
    entries.filter JournalEntry.isQueueing =
      beat.enqueued?.toList.flatMap fun post => extensions.map (Extension.note info post.announcement)

section Tells

variable {host host' : Host S E F X L W} {extensions : List (Extension X)} {info : Info S} {beat : Beat E}

theorem Host.Sends.tells (sends : host.Sends host') (quiet : host.outbox = []) (sent : beat.sends = host'.outbox)
    (unqueued : beat.enqueued? = none) (extensions : List (Extension X)) (info : Info S) :
    host.Tells extensions info beat host' := by
  obtain ⟨entries, journal, outbox, apart⟩ := sends
  refine ⟨entries, journal, ?_, ?_⟩
  · rw [sent, outbox, quiet, List.nil_append]
  · rw [unqueued, Option.toList_none, List.flatMap_nil, List.filter_eq_nil_iff]
    intro entry member
    simp [JournalEntry.isQueueing_eq_false (apart entry member)]

theorem Host.tells_refl (host : Host S E F X L W) (sent : beat.sends = []) (unqueued : beat.enqueued? = none)
    (extensions : List (Extension X)) (info : Info S) : host.Tells extensions info beat host := by
  refine ⟨[], (List.append_nil _).symm, ?_, ?_⟩
  · rw [sent]
    rfl
  · rw [unqueued]
    rfl

theorem Extension.isQueueing_note (info : Info S) (hook : Hook S E) (extension : Extension X) :
    (extension.note info hook : JournalEntry S E F X L).isQueueing = hook.isQueueing := by cases extension <;> rfl

theorem Host.tells_announce {hook : Hook S E} (apart : hook.isQueueing = false) (host : Host S E F X L W)
    (sent : beat.sends = []) (unqueued : beat.enqueued? = none) (extensions : List (Extension X)) (info : Info S) :
    host.Tells extensions info beat (host.announce extensions info hook) := by
  rw [Host.announce_eq]
  refine ⟨_, rfl, ?_, ?_⟩
  · rw [sent, List.flatMap_eq_nil_iff, List.forall_mem_map]
    exact fun extension _ => extension.sent_note info hook
  · rw [unqueued, Option.toList_none, List.flatMap_nil, List.filter_eq_nil_iff, List.forall_mem_map]
    intro extension _
    rw [extension.isQueueing_note, apart]
    exact Bool.false_ne_true

theorem Host.tells_queued {post : Post E} (queued : beat.enqueued? = some post) (host : Host S E F X L W)
    (sent : beat.sends = []) (extensions : List (Extension X)) (info : Info S) :
    host.Tells extensions info beat (host.announce extensions info post.announcement) := by
  rw [Host.announce_eq]
  refine ⟨_, rfl, ?_, ?_⟩
  · rw [sent, List.flatMap_eq_nil_iff, List.forall_mem_map]
    exact fun extension _ => extension.sent_note info _
  · rw [queued, Option.toList_some, List.flatMap_singleton, List.filter_eq_self, List.forall_mem_map]
    intro extension _
    rw [extension.isQueueing_note]
    exact post.isQueueing_announcement

end Tells

/-- What the owner of a machine does with it through the machine alone. Other calls on the machine inside define it or
    change who hears of it; they do not move it. -/
def Errand.isOwn : Errand S E F X L → Bool
  | .call (.initializeAt _) | .call .enterInitialState | .call (.fire _) | .call (.load _) => false
  | _ => true

def Errand.post? : Errand S E F X L → Option (Post E)
  | .ask (.submit post) | .ask (.send post) => some post
  | _ => none

theorem Errand.bypasses_of_isOwn {errand : Errand S E F X L} (own : errand.isOwn) : errand.bypasses = false := by
  cases errand with
  | ask request => rfl
  | call call => cases call <;> first | rfl | cases own

namespace Passive

variable [DecidableEq S] [DecidableEq E] [DecidableEq X]

theorem call_own (b : Behaviour S E F X W) (r : Run S E F X L W) {call : Call S E F X L}
    (own : (Errand.call call).isOwn) :
    (r.call b call).host = r.host ∧ (r.call b call).machine.current? = r.machine.current? := by
  cases call with
  | define superState initial history subs =>
    rw [Run.call.eq_def]
    simp only [Machine.define]
    cases r.machine.forest.define? superState initial history subs with
    | ok forest => exact ⟨rfl, rfl⟩
    | error errors => exact ⟨rfl, rfl⟩
  | addTransition source event draft => exact ⟨rfl, rfl⟩
  | addEntryAction s action => exact ⟨rfl, rfl⟩
  | addExitAction s action => exact ⟨rfl, rfl⟩
  | configure change => cases change <;> exact ⟨rfl, rfl⟩
  | initializeAt | enterInitialState | fire | load => cases own

inductive Does (b : Behaviour S E F X W) (p : Passive S E F X L) (host : Host S E F X L W) :
    Beat E → Passive S E F X L → Host S E F X L W → Prop where
  | send (post : Post E) : Does b p host (.sent post) (p.send post) host
  | submit (post : Post E) : Does b p host (.submitted post) (p.enqueue post host).1 (p.enqueue post host).2
  | drain {post : Post E} {rest : List (Post E)} (arrived : p.inbox = post :: rest) :
      Does b p host (.queued post) ({ p with inbox := rest }.enqueue post host).1
        ({ p with inbox := rest }.enqueue post host).2
  | enter {done : Completed S E F X L W} (running : p.running) (pending : p.pending = true) (drained : p.inbox = [])
      (enters : p.machine.enterInitialState b host = .ok done) :
      Does b p host (.entered p.queue done.host.outbox)
        { p with machine := done.machine, inbox := done.host.outbox, pending := false } { done.host with outbox := [] }
  | fire {signal : Signal E} {queue : List (Signal E)} {done : Completed S E F X L W} (running : p.running)
      (settled : p.pending = false) (drained : p.inbox = []) (waits : p.queue = signal :: queue)
      (fires : p.machine.fire b signal host = .ok done) :
      Does b p host (.fired signal queue done.host.outbox)
        { p with machine := done.machine, queue := queue, inbox := done.host.outbox } { done.host with outbox := [] }
  | initializeAt {state : S} {machine : Machine S E F X L} {host' : Host S E F X L W}
      (initializes : p.machine.initializeAt b state host = .ok (machine, host')) :
      Does b p host .aside { p with machine := machine, pending := true } host'
  | start (stopped : p.running = false) (ready : p.machine.isInitialized) :
      Does b p host .aside { p with running := true } (p.machine.announce .started host)
  | stop : Does b p host .aside (p.stop host).1 (p.stop host).2
  | call {call : Call S E F X L} (own : (Errand.call call).isOwn) :
      Does b p host .aside { p with machine := (Run.call b ⟨p.machine, host, []⟩ call).machine } host

inductive Course (b : Behaviour S E F X W) : Passive S E F X L → Host S E F X L W → List (Beat E) →
    Passive S E F X L → Host S E F X L W → Prop where
  | none (p : Passive S E F X L) (host : Host S E F X L W) : Course b p host [] p host
  | next {p p' p'' : Passive S E F X L} {host host' host'' : Host S E F X L W} {beat : Beat E}
      {history : List (Beat E)} (does : p.Does b host beat p' host') (rest : Course b p' host' history p'' host'') :
      Course b p host (beat :: history) p'' host''

variable {b : Behaviour S E F X W} {p p' p'' : Passive S E F X L} {host host' host'' : Host S E F X L W}
  {beat : Beat E} {history further : List (Beat E)} {queue : List (Signal E)}

theorem Does.course (does : p.Does b host beat p' host') : Course b p host [beat] p' host' :=
  .next does (.none p' host')

theorem Course.trans (first : Course b p host history p' host') (second : Course b p' host' further p'' host'') :
    Course b p host (history ++ further) p'' host'' := by
  induction first with
  | none => exact second
  | next does _ ih => exact .next does (ih second)

theorem Course.split (course : Course b p host (history ++ further) p'' host'') :
    ∃ p' host', Course b p host history p' host' ∧ Course b p' host' further p'' host'' := by
  induction history generalizing p host with
  | nil => exact ⟨p, host, .none p host, course⟩
  | cons beat history ih =>
    cases course with
    | next does rest =>
      obtain ⟨p', host', first, second⟩ := ih rest
      exact ⟨p', host', .next does first, second⟩

section Laws

theorem Does.inbox (does : p.Does b host beat p' host') :
    p.inbox ++ beat.arrivals = beat.drained?.toList ++ p'.inbox := by
  cases does with
  | send post => rfl
  | submit post =>
    rw [enqueue_fst]
    exact List.append_nil _
  | drain arrived =>
    rw [enqueue_fst, arrived]
    exact List.append_nil _
  | enter _ _ drained | fire _ _ drained =>
    rw [drained]
    rfl
  | stop =>
    rw [stop_fst]
    exact List.append_nil _
  | initializeAt | start | call => exact List.append_nil _

theorem Course.inbox (course : Course b p host history p' host') :
    p.inbox ++ history.flatMap Beat.arrivals = history.filterMap Beat.drained? ++ p'.inbox := by
  induction course with
  | none => exact List.append_nil _
  | @next p p' p'' host host' host'' beat history does rest ih =>
    have first := does.inbox
    rw [List.flatMap_cons, ← List.append_assoc, first, List.append_assoc, ih, ← List.append_assoc]
    cases drained : beat.drained? <;> simp [drained]

theorem Does.enters (does : p.Does b host beat p' host') :
    (p.inbox ++ beat.accepted).Perm (beat.enqueued?.toList ++ p'.inbox) := by
  cases does with
  | send post => exact .refl _
  | submit post =>
    rw [enqueue_fst]
    exact List.perm_append_comm
  | drain arrived =>
    rw [enqueue_fst, arrived]
    exact .of_eq (List.append_nil _)
  | enter _ _ drained | fire _ _ drained =>
    rw [drained]
    exact .refl _
  | stop =>
    rw [stop_fst]
    exact .of_eq (List.append_nil _)
  | initializeAt | start | call => exact .of_eq (List.append_nil _)

theorem Course.enters (course : Course b p host history p' host') :
    (p.inbox ++ history.flatMap Beat.accepted).Perm (history.filterMap Beat.enqueued? ++ p'.inbox) := by
  induction course with
  | none => exact .of_eq (List.append_nil _)
  | @next p p' p'' host host' host'' beat history does rest ih =>
    have first := does.enters.append_right (history.flatMap Beat.accepted)
    rw [List.append_assoc, List.append_assoc] at first
    refine first.trans ((ih.append_left _).trans (.of_eq ?_))
    cases enqueued : beat.enqueued? <;> simp [enqueued]

theorem Does.leaves (does : p.Does b host beat p' host') :
    (p.queue ++ beat.enqueued?.toList.map Post.signal).Perm (beat.fired?.toList ++ p'.queue) := by
  cases does with
  | submit post | drain arrived =>
    rw [enqueue_fst]
    exact (queueUp_perm _ _).symm
  | fire _ _ _ waits =>
    rw [waits]
    exact .of_eq (List.append_nil _)
  | stop =>
    rw [stop_fst]
    exact .of_eq (List.append_nil _)
  | send | enter | initializeAt | start | call => exact .of_eq (List.append_nil _)

theorem Course.leaves (course : Course b p host history p' host') :
    (p.queue ++ (history.filterMap Beat.enqueued?).map Post.signal).Perm
      (history.filterMap Beat.fired? ++ p'.queue) := by
  induction course with
  | none => exact .of_eq (List.append_nil _)
  | @next p p' p'' host host' host'' beat history does rest ih =>
    have first := does.leaves.append_right ((history.filterMap Beat.enqueued?).map Post.signal)
    rw [List.append_assoc, List.append_assoc] at first
    have last := first.trans (ih.append_left _)
    cases enqueued : beat.enqueued? <;> cases fired : beat.fired? <;> simpa [enqueued, fired] using last

theorem Does.queue_eq (does : p.Does b host beat p' host') (unfired : beat.fired? = none) :
    p'.queue = beat.enqueued?.toList.foldl queueUp p.queue := by
  cases does with
  | submit post | drain arrived =>
    rw [enqueue_fst]
    rfl
  | fire => cases unfired
  | stop =>
    rw [stop_fst]
    rfl
  | send | enter | initializeAt | start | call => rfl

theorem Course.queue_eq (course : Course b p host history p' host') (unfired : history.filterMap Beat.fired? = []) :
    p'.queue = (history.filterMap Beat.enqueued?).foldl queueUp p.queue := by
  induction course with
  | none => rfl
  | @next p p' p'' host host' host'' beat history does rest ih =>
    cases fired : beat.fired? with
    | some signal => simp [fired] at unfired
    | none =>
      rw [List.filterMap_cons_none fired] at unfired
      rw [ih unfired, does.queue_eq fired]
      cases enqueued : beat.enqueued? <;> simp [enqueued]

/-- The machine is at work on nothing but what stood first in the queue, with the inbox empty; what code sends meanwhile
    is in the inbox when the work is done. -/
theorem Does.whole (does : p.Does b host beat p' host') (works : beat.waiting? = some queue) :
    p.inbox = [] ∧ p.queue = beat.fired?.toList ++ queue ∧ p'.queue = queue ∧ p'.inbox = beat.sends := by
  cases does with
  | enter _ _ drained =>
    cases works
    exact ⟨drained, rfl, rfl, rfl⟩
  | fire _ _ drained waits =>
    cases works
    exact ⟨drained, waits, rfl, rfl⟩
  | send | submit | drain | initializeAt | start | stop | call => cases works

section Take

variable {signal : Signal E} {queue' : List (Signal E)} {sent' : List (Post E)}
  (course : Course b p host (beat :: (history ++ .fired signal queue' sent' :: further)) p' host')
  (works : beat.waiting? = some queue) (unfired : history.filterMap Beat.fired? = [])

include course works unfired

theorem Course.take : signal :: queue' = (history.filterMap Beat.enqueued?).foldl queueUp queue ∧
    history.filterMap Beat.drained? = beat.sends ++ history.flatMap Beat.arrivals := by
  cases course with
  | next does rest =>
    obtain ⟨_, _, behind, left⟩ := does.whole works
    obtain ⟨q, h, between, last⟩ := rest.split
    cases last with
    | next fires _ =>
      have behind' : Beat.waiting? (.fired signal queue' sent') = some queue' := rfl
      obtain ⟨drained, stood, _⟩ := fires.whole behind'
      have moved := between.inbox
      have grown := between.queue_eq unfired
      rw [left, drained, List.append_nil] at moved
      rw [behind, stood] at grown
      exact ⟨grown, moved.symm⟩

theorem Course.take_next (nothing : history.flatMap Beat.accepted = []) : signal :: queue' =
    ((beat.sends.filter Post.priority).map Post.signal).reverse ++ queue ++
      (beat.sends.filter (!Post.priority ·)).map Post.signal := by
  have unaccepted (beat : Beat E) (member : beat ∈ history) :=
    Beat.unaccepted (List.flatMap_eq_nil_iff.mp nothing beat member)
  have arrived : history.flatMap Beat.arrivals = [] :=
    List.flatMap_eq_nil_iff.mpr fun beat member => (unaccepted beat member).1
  have moved : history.filterMap Beat.enqueued? = history.filterMap Beat.drained? :=
    List.filterMap_congr fun beat member => (unaccepted beat member).2
  obtain ⟨grown, through⟩ := course.take works unfired
  rw [arrived, List.append_nil] at through
  rw [grown, moved, through, foldl_queueUp_eq]

end Take

omit [DecidableEq E] [DecidableEq X] in
theorem initializeAt_kept {s : S} {m m' : Machine S E F X L} (initialized : m.initializeAt b s host = .ok (m', host')) :
    host'.world = host.world ∧ host'.outbox = host.outbox := by
  unfold Machine.initializeAt at initialized
  split at initialized
  · cases initialized
  · rw [Host.consult_eq] at initialized
    cases initialized
    rw [Machine.announce, Host.announce_eq]
    exact ⟨rfl, rfl⟩

theorem Does.idle (does : p.Does b host beat p' host') (stopped : p.running = false) :
    beat.waiting? = none ∧ p'.machine.current? = p.machine.current? ∧ host'.world = host.world := by
  cases does with
  | submit post | drain arrived =>
    exact ⟨rfl, by rw [enqueue_fst], enqueue_alike.world⟩
  | enter running | fire running =>
    rw [stopped] at running
    cases running
  | initializeAt initializes => exact ⟨rfl, Machine.initializeAt_current initializes, (initializeAt_kept initializes).1⟩
  | start => exact ⟨rfl, rfl, (Host.alike_announce rfl _ _).world⟩
  | stop =>
    unfold Passive.stop
    rw [if_neg (by simp [stopped])]
    exact ⟨rfl, rfl, rfl⟩
  | call own => exact ⟨rfl, (call_own b ⟨p.machine, host, []⟩ own).2, rfl⟩
  | send => exact ⟨rfl, rfl, rfl⟩

omit [DecidableEq S] [DecidableEq E] [DecidableEq X] in
theorem enqueue_snd (p : Passive S E F X L) (post : Post E) (host : Host S E F X L W) :
    (p.enqueue post host).2 = p.machine.announce post.announcement host := by
  unfold enqueue Post.announcement
  split <;> rfl

theorem Does.tells (does : p.Does b host beat p' host') (quiet : host.outbox = []) :
    host.Tells p.machine.extensions p.machine.info beat host' ∧ host'.outbox = [] := by
  cases does with
  | submit | drain =>
    refine ⟨?_, enqueue_alike.outbox.trans quiet⟩
    rw [enqueue_snd]
    exact host.tells_queued rfl rfl _ _
  | enter _ _ _ enters => exact ⟨(Machine.enterInitialState_sends enters).tells quiet rfl rfl _ _, rfl⟩
  | fire _ _ _ _ fires => exact ⟨(Machine.fire_sends fires).tells quiet rfl rfl _ _, rfl⟩
  | initializeAt initializes =>
    have kept := (initializeAt_kept initializes).2.trans quiet
    refine ⟨(Machine.initializeAt_sends initializes).tells quiet ?_ rfl _ _, kept⟩
    exact kept.symm
  | start => exact ⟨host.tells_announce rfl rfl rfl _ _, (Host.alike_announce rfl _ _).outbox.trans quiet⟩
  | stop =>
    unfold Passive.stop
    split
    · exact ⟨host.tells_announce rfl rfl rfl _ _, (Host.alike_announce rfl _ _).outbox.trans quiet⟩
    · exact ⟨host.tells_refl rfl rfl _ _, quiet⟩
  | send | call => exact ⟨host.tells_refl rfl rfl _ _, quiet⟩

end Laws

end Passive

end Statechart
