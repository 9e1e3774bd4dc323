import Statechart.Proofs.Machine.Retelling
import Statechart.Proofs.Passive.Safety

namespace Statechart.Passive

variable {S E F X L W : Type} {audience audience' : List (Subscriber L)} {start start' host host' : Host S E F X L W}
  {b : Behaviour S E F X W} {rounds : Nat} {p : Passive S E F X L}

def facing (audience : List (Subscriber L)) (p : Passive S E F X L) : Passive S E F X L :=
  { p with machine := p.machine.facing audience }

structure Answer.Retells (audience audience' : List (Subscriber L)) (start start' : Host S E F X L W)
    (answer answer' : Answer S E F X L W) : Prop where
  result : answer'.result = answer.result
  kept : answer.passive.machine.subscribers = audience
  passive : answer'.passive = answer.passive.facing audience'
  host : Host.Retells audience audience' start start' answer.host answer'.host

section Queue

variable (retells : Host.Retells audience audience' start start' host host') (p)

include retells

theorem enqueue_retells (post : Post E) :
    Host.Retells audience audience' start start' (p.enqueue post host).2
      ((p.facing audience').enqueue post host').2 := by
  unfold enqueue
  split
  · exact retells.announce _ _ _
  · exact retells.announce _ _ _

theorem drain_retells :
    Host.Retells audience audience' start start' (p.drain host).2 ((p.facing audience').drain host').2 := by
  induction arrived : p.inbox generalizing p host host' with
  | nil =>
    obtain ⟨machine, queue, inbox, running, pending⟩ := p
    cases arrived
    exact retells
  | cons post rest ih =>
    have arrived' : (p.facing audience').inbox = post :: rest := arrived
    have queued := enqueue_retells { p with inbox := rest } retells post
    have drained := ih { p with inbox := rest, queue := queueUp p.queue post } queued rfl
    rw [drain_cons arrived, drain_cons arrived', enqueue_fst, enqueue_fst]
    exact drained

end Queue

variable [DecidableEq S] [DecidableEq E]

theorem work_retells (kept : p.machine.subscribers = audience)
    (retells : Host.Retells audience audience' start start' host host') (b : Behaviour S E F X W) (rounds : Nat) :
    Option.Rel (Answer.Retells audience audience' start start') (p.work b rounds host)
      ((p.facing audience').work b rounds host') := by
  induction rounds generalizing p host host' with
  | zero => exact .none
  | succ rounds ih =>
    obtain rfl := kept
    have drained := drain_retells p retells
    cases waits : p.backlog with
    | nil =>
      have waits' : (p.facing audience').backlog = [] := waits
      rw [work_idle waits, work_idle waits']
      exact .some ⟨rfl, rfl, rfl, drained⟩
    | cons signal queue =>
      have waits' : (p.facing audience').backlog = signal :: queue := waits
      have fired := Machine.fire_retells drained b signal
      generalize fires : p.machine.fire b signal (p.drain host).2 = answer at fired
      generalize fires' : (p.machine.facing audience').fire b signal ((p.facing audience').drain host').2 = answer'
        at fired
      cases fired with
      | refused error =>
        rw [work_refused waits fires, work_refused waits' fires']
        exact .some ⟨rfl, rfl, rfl, drained⟩
      | @accepted done done' ended =>
        obtain ⟨machine', host', context'⟩ := done'
        obtain rfl : machine' = done.machine.facing audience' := ended.reaches.machine
        rw [work_round waits fires, work_round waits' fires', ended.reaches.host.outbox]
        exact ih ended.reaches.kept (ended.reaches.host.play .collected)

theorem execute_retells (kept : p.machine.subscribers = audience)
    (retells : Host.Retells audience audience' start start' host host') (b : Behaviour S E F X W) (rounds : Nat) :
    Option.Rel (Answer.Retells audience audience' start start') (p.execute b rounds host)
      ((p.facing audience').execute b rounds host') := by
  obtain rfl := kept
  have drained := drain_retells p retells
  unfold execute
  simp only [drain_fst]
  rw [show (p.facing audience').running = p.running from rfl, show (p.facing audience').pending = p.pending from rfl]
  split
  · exact .some ⟨rfl, rfl, rfl, drained⟩
  · split
    · have entered := Machine.enterInitialState_retells drained b
      rw [show (p.facing audience').machine = p.machine.facing audience' from rfl]
      generalize p.machine.enterInitialState b (p.drain host).2 = answer at entered ⊢
      generalize (p.machine.facing audience').enterInitialState b ((p.facing audience').drain host').2 = answer'
        at entered ⊢
      cases entered with
      | refused error => exact .some ⟨rfl, rfl, rfl, drained⟩
      | @accepted done done' ended =>
        obtain ⟨machine', host', context'⟩ := done'
        obtain rfl : machine' = done.machine.facing audience' := ended.reaches.machine
        have sent : host'.outbox = done.host.outbox := ended.reaches.host.outbox
        simp only [collect, List.nil_append, sent]
        exact work_retells
          (p := { p with machine := done.machine, queue := p.backlog, inbox := done.host.outbox, pending := false })
          ended.reaches.kept (ended.reaches.host.play .collected) b rounds
    · exact work_retells (p := { p with queue := p.backlog, inbox := [] }) rfl drained b rounds

theorem request_retells (retells : Host.Retells p.machine.subscribers audience' start start' host host')
    (b : Behaviour S E F X W) (rounds : Nat) (asked : Request S E) :
    Option.Rel (Answer.Retells p.machine.subscribers audience' start start') (p.request b rounds host asked)
      ((p.facing audience').request b rounds host' asked) := by
  cases asked with
  | initializeAt state =>
    have prepared := Machine.initializeAt_retells retells b state
    unfold request initializeAt
    simp only
    rw [show (p.facing audience').machine = p.machine.facing audience' from rfl]
    generalize p.machine.initializeAt b state host = answer at prepared ⊢
    generalize (p.machine.facing audience').initializeAt b state host' = answer' at prepared ⊢
    cases prepared with
    | refused error => exact .some ⟨rfl, rfl, rfl, retells⟩
    | @granted out out' reaches =>
      obtain ⟨machine', host'⟩ := out'
      obtain rfl : machine' = out.1.facing audience' := reaches.machine
      exact execute_retells (p := { p with machine := out.1, pending := true }) reaches.kept reaches.host b rounds
  | submit post =>
    have queued := enqueue_retells p retells post
    have executed := execute_retells (p := (p.enqueue post host).1) (by rw [enqueue_fst]) queued b rounds
    unfold request submit
    rw [enqueue_fst] at executed
    simp only [enqueue_fst]
    exact executed
  | send post => exact .some ⟨rfl, rfl, rfl, retells⟩
  | start =>
    unfold request Passive.start
    simp only
    rw [show (p.facing audience').running = p.running from rfl,
      show (p.facing audience').machine.isInitialized = p.machine.isInitialized from rfl]
    split
    · exact .some ⟨rfl, rfl, rfl, retells⟩
    · split
      · exact .some ⟨rfl, rfl, rfl, retells⟩
      · exact execute_retells (p := { p with running := true }) rfl (retells.announce _ _ _) b rounds
  | stop =>
    unfold request stop
    simp only
    rw [show (p.facing audience').running = p.running from rfl]
    split
    · exact .some ⟨rfl, rfl, rfl, retells.announce _ _ _⟩
    · exact .some ⟨rfl, rfl, rfl, retells⟩

end Statechart.Passive
