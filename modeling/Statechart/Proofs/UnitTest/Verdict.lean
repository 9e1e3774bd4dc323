import Statechart.Proofs.Machine.Unfolding
import Statechart.Proofs.Passive.Retelling
import Statechart.UnitTest

namespace Statechart

variable {S E F X L W : Type}

inductive Trial (S E F X L : Type) where
  | ask (request : Request S E)
  | direct (errand : Errand S E F X L)

def Request.isChecked {S E : Type} : Request S E → Bool
  | .initializeAt _ | .submit _ | .start => true
  | .send _ | .stop => false

def Trial.errand : Trial S E F X L → Errand S E F X L
  | .ask request => .ask request
  | .direct errand => errand

section Collector

variable {audience : List (Subscriber L)} (collects : Subscriber.collector ∈ audience)

include collects

theorem head?_collected (notice : Notice S E) :
    (audience.flatMap (Subscriber.collected notice)).head? = Failure.ofNotice? notice := by
  cases failed : Failure.ofNotice? notice with
  | none =>
    have nothing : audience.flatMap (Subscriber.collected notice) = [] := by
      rw [List.flatMap_eq_nil_iff]
      intro subscriber _
      cases subscriber with
      | collector => rw [Subscriber.collected, failed, Option.toList_none]
      | custom subscriber => rfl
    rw [nothing, List.head?_nil]
  | some failure =>
    induction audience with
    | nil => cases collects
    | cons first rest ih =>
      cases first with
      | collector =>
        rw [List.flatMap_cons, Subscriber.collected, failed]
        rfl
      | custom subscriber =>
        rw [List.flatMap_cons]
        rcases List.mem_cons.mp collects with same | member
        · cases same
        · exact ih member

theorem head?_kept (notices : List (Notice S E)) :
    (notices.flatMap fun notice => audience.flatMap (Subscriber.collected notice)).head? =
      notices.findSome? Failure.ofNotice? := by
  induction notices with
  | nil => rfl
  | cons notice rest ih =>
    rw [List.flatMap_cons, List.head?_append, head?_collected collects, ih, List.findSome?_cons]
    cases Failure.ofNotice? notice <;> rfl

end Collector

namespace UnitTest

def Answer.ofPassive (answer : Passive.Answer S E F X L W) : Answer S E F X L W :=
  match answer.result with
  | .error error => ⟨.error (.misuse error), ⟨answer.passive⟩, answer.host⟩
  | .ok () => ⟨answer.host.failures.head?.elim (.ok ()) .error, ⟨answer.passive⟩, { answer.host with failures := [] }⟩

theorem checked_eq (u : UnitTest S E F X L)
    (call : Passive S E F X L → Host S E F X L W → Option (Passive.Answer S E F X L W)) (host : Host S E F X L W) :
    u.checked call host = (call u.passive { host with failures := [] }).map Answer.ofPassive := by
  unfold checked
  congr 1
  funext answer
  unfold Answer.ofPassive
  cases answer.result with
  | error error => rfl
  | ok _ => cases answer.host.failures <;> rfl

/-- A test machine and a passive machine that differ in nothing but who collects failures, and which. -/
structure Wraps (u : UnitTest S E F X L) (host : Host S E F X L W) (p : Passive S E F X L) (host' : Host S E F X L W) :
    Prop where
  collects : Subscriber.collector ∈ u.passive.machine.subscribers
  passive : p = u.passive.facing p.machine.subscribers
  listeners : p.machine.subscribers.filterMap Subscriber.listener? =
    u.passive.machine.subscribers.filterMap Subscriber.listener?
  host : host.Matches host'

theorem wraps_ofMachine (m : Machine S E F X L) (host : Host S E F X L W) :
    (ofMachine m).Wraps host (.ofMachine m) host where
  collects := List.mem_append_right _ List.mem_cons_self
  passive := rfl
  listeners := by
    change _ = (m.subscribers ++ [Subscriber.collector]).filterMap Subscriber.listener?
    rw [List.filterMap_append]
    exact (List.append_nil _).symm
  host := rfl

/-- The answer of a test machine is right for what the passive machine answers and publishes before some audience. An
    error of the machine stands as it is. Otherwise the first failure among the notices counts, if there is one. -/
structure Answer.Judges (audience : List (Subscriber L)) (start : Host S E F X L W) (answer : Answer S E F X L W)
    (answer' : Passive.Answer S E F X L W) : Prop where
  misuse : ∀ error, answer.result = .error (.misuse error) ↔ answer'.result = .error error
  verdict : ∃ notices raised, start.Publishes audience answer'.host notices raised ∧
    (answer'.result = .ok () → answer.result = (notices.findSome? Failure.ofNotice?).elim (.ok ()) .error)

section Judges

variable {audience audience' : List (Subscriber L)} {start start' : Host S E F X L W}
  {inner answer : Passive.Answer S E F X L W}

theorem Answer.judges_ofPassive (collects : Subscriber.collector ∈ audience) (cleared : start.failures = [])
    (retells : inner.Retells audience audience' start start' answer) :
    (ofPassive inner).Judges audience' start' answer := by
  obtain ⟨notices, raised, here, there⟩ := retells.host.publishes
  have first : inner.host.failures.head? = notices.findSome? Failure.ofNotice? := by
    rw [here.failures, cleared, List.nil_append, head?_kept collects]
  unfold ofPassive
  cases ended : inner.result with
  | error error =>
    have failed : answer.result = .error error := retells.result.trans ended
    refine ⟨fun other => ?_, notices, raised, there, fun succeeded => ?_⟩
    · rw [failed, Except.error.injEq, Except.error.injEq, Failure.misuse.injEq]
    · rw [failed] at succeeded
      cases succeeded
  | ok _ =>
    have succeeded : answer.result = .ok () := retells.result.trans ended
    refine ⟨fun error => ⟨fun misused => ?_, fun failed => ?_⟩, notices, raised, there, fun _ => ?_⟩
    · exfalso
      simp only [first] at misused
      cases found : notices.findSome? Failure.ofNotice? with
      | none =>
        rw [found] at misused
        cases misused
      | some failure =>
        rw [found] at misused
        cases misused
        -- nothing that is published is a misuse
        obtain ⟨notice, _, failed⟩ := List.exists_of_findSome?_eq_some found
        cases notice <;> cases failed
    · rw [succeeded] at failed
      cases failed
    · simp only [first]

theorem Wraps.ofPassive {p : Passive S E F X L} {host' : Host S E F X L W}
    (wraps : Wraps ⟨inner.passive⟩ inner.host p host') :
    (Answer.ofPassive inner).unit.Wraps (Answer.ofPassive inner).host p host' := by
  unfold Answer.ofPassive
  cases inner.result with
  | error error => exact wraps
  | ok _ => exact ⟨wraps.collects, wraps.passive, wraps.listeners, wraps.host⟩

end Judges

variable [DecidableEq S] [DecidableEq E] {b : Behaviour S E F X W} {rounds : Nat} {u : UnitTest S E F X L}
  {p : Passive S E F X L} {host host' : Host S E F X L W}

def request (b : Behaviour S E F X W) (rounds : Nat) (u : UnitTest S E F X L) (host : Host S E F X L W) :
    Request S E → Option (Answer S E F X L W)
  | .initializeAt state => u.initializeAt b rounds state host
  | .submit post => u.submit b rounds post host
  | .send post => some ⟨.ok (), ⟨u.passive.send post⟩, host⟩
  | .start => u.start b rounds host
  | .stop => some ⟨.ok (), (u.stop host).1, (u.stop host).2⟩

def undergo [DecidableEq X] (b : Behaviour S E F X W) (rounds : Nat) (u : UnitTest S E F X L)
    (host : Host S E F X L W) : Trial S E F X L → Option (UnitTest S E F X L × Host S E F X L W)
  | .ask request => (u.request b rounds host request).map fun answer => (answer.unit, answer.host)
  | .direct errand => (u.passive.attend b rounds host errand).map fun (passive, host) => (⟨passive⟩, host)

def undergoAll [DecidableEq X] (b : Behaviour S E F X W) (rounds : Nat) (u : UnitTest S E F X L)
    (host : Host S E F X L W) (trials : List (Trial S E F X L)) : Option (UnitTest S E F X L × Host S E F X L W) :=
  trials.foldlM (fun (u, host) trial => u.undergo b rounds host trial) (u, host)

theorem request_checked (u : UnitTest S E F X L) (b : Behaviour S E F X W) (rounds : Nat) (host : Host S E F X L W)
    {asked : Request S E} (checks : asked.isChecked) : u.request b rounds host asked =
      (u.passive.request b rounds { host with failures := [] } asked).map Answer.ofPassive := by
  have checked := checked_eq u (fun p host => p.request b rounds host asked) host
  cases asked with
  | initializeAt | submit | start => exact checked
  | send | stop => cases checks

namespace Wraps

variable (wraps : u.Wraps host p host') (b : Behaviour S E F X W) (rounds : Nat)

include wraps

theorem asks {start : Host S E F X L W} (pair : start.Matches host') (asked : Request S E) :
    Option.Rel (fun inner answer => Wraps ⟨inner.passive⟩ inner.host answer.passive answer.host)
      (u.passive.request b rounds start asked) (p.request b rounds host' asked) := by
  have ready : Host.Retells u.passive.machine.subscribers p.machine.subscribers start host' start host' :=
    .of_matches pair
  have retells := Passive.request_retells ready b rounds asked
  rw [← wraps.passive] at retells
  generalize u.passive.request b rounds start asked = inner? at retells ⊢
  generalize p.request b rounds host' asked = answer? at retells ⊢
  cases retells with
  | none => exact .none
  | @some inner answer same =>
    refine .some ⟨?_, ?_, ?_, same.host.matches_of_listeners pair wraps.listeners⟩
    · rw [same.kept]
      exact wraps.collects
    · rw [same.passive]
      rfl
    · rw [same.passive, same.kept]
      exact wraps.listeners

theorem request (asked : Request S E) :
    Option.Rel (fun answer answer' => answer.unit.Wraps answer.host answer'.passive answer'.host)
      (u.request b rounds host asked) (p.request b rounds host' asked) := by
  cases checks : asked.isChecked with
  | true =>
    have pair : Host.Matches { host with failures := [] } host' := wraps.host
    have asks := wraps.asks b rounds pair asked
    rw [request_checked u b rounds host checks]
    generalize u.passive.request b rounds { host with failures := [] } asked = inner? at asks ⊢
    generalize p.request b rounds host' asked = answer? at asks ⊢
    cases asks with
    | none => exact .none
    | some wraps => exact .some wraps.ofPassive
  | false =>
    have asks := wraps.asks b rounds wraps.host asked
    cases asked with
    | initializeAt | submit | start => cases checks
    | send | stop =>
      cases asks with
      | some wraps => exact .some wraps

theorem judges (asked : Request S E) (audience : List (Subscriber L)) :
    Option.Rel (Answer.Judges audience host') (u.request b rounds host asked)
      ((p.facing audience).request b rounds host' asked) := by
  cases checks : asked.isChecked with
  | true =>
    have faced : p.facing audience = u.passive.facing audience := by
      rw [wraps.passive]
      rfl
    have pair : Host.Matches { host with failures := [] } host' := wraps.host
    have ready : Host.Retells u.passive.machine.subscribers audience { host with failures := [] } host' _ _ :=
      .of_matches pair
    have retells := Passive.request_retells ready b rounds asked
    rw [request_checked u b rounds host checks, faced]
    generalize u.passive.request b rounds { host with failures := [] } asked = inner? at retells ⊢
    generalize (u.passive.facing audience).request b rounds host' asked = answer? at retells ⊢
    cases retells with
    | none => exact .none
    | some same => exact .some (Answer.judges_ofPassive wraps.collects rfl same)
  | false =>
    cases asked with
    | initializeAt | submit | start => cases checks
    | send post => exact .some ⟨fun error => ⟨nofun, nofun⟩, [], [], .refl host', fun _ => rfl⟩
    | stop =>
      refine .some ⟨fun error => ⟨nofun, nofun⟩, [], [], ?_, fun _ => rfl⟩
      change host'.Publishes audience ((p.facing audience).stop host').2 [] []
      unfold Passive.stop
      split
      · exact Host.Publishes.announce (.refl host') _ _ _
      · exact .refl host'

variable [DecidableEq X]

theorem reach (call : Call S E F X L) :
    Wraps ⟨(u.passive.reach b host call).1⟩ (u.passive.reach b host call).2 (p.reach b host' call).1
      (p.reach b host' call).2 := by
  obtain ⟨audience', rfl⟩ : ∃ audience', p = u.passive.facing audience' := ⟨_, wraps.passive⟩
  have ready : Host.Retells u.passive.machine.subscribers audience' host host' host host' :=
    .of_matches wraps.host
  obtain ⟨⟨newcomers, joined, machine⟩, hosts⟩ := Run.call_retells ready b call
  have pair := hosts.matches_of_listeners wraps.host wraps.listeners
  have sent := hosts.outbox
  unfold Passive.reach Passive.collect
  rw [show (u.passive.facing audience').machine = u.passive.machine.facing audience' from rfl]
  generalize Run.call b ⟨u.passive.machine, host, []⟩ call = r at joined machine pair sent ⊢
  generalize Run.call b ⟨u.passive.machine.facing audience', host', []⟩ call = r' at machine pair sent ⊢
  obtain ⟨machine', host', contexts'⟩ := r'
  obtain rfl : machine' = r.machine.facing (audience' ++ newcomers) := machine
  have joined : r.machine.subscribers = u.passive.machine.subscribers ++ newcomers := joined
  have sent : host'.outbox = r.host.outbox := sent
  refine ⟨?_, ?_, ?_, ?_⟩
  · rw [joined]
    exact List.mem_append_left _ wraps.collects
  · simp only [sent]
    rfl
  · simp only [joined, Machine.facing, List.filterMap_append]
    exact congrArg (· ++ newcomers.filterMap Subscriber.listener?) wraps.listeners
  · exact Host.Matches.play pair wraps.listeners .collected

theorem undergo (trial : Trial S E F X L) :
    Option.Rel (fun after after' => after.1.Wraps after.2 after'.1 after'.2) (u.undergo b rounds host trial)
      (p.attend b rounds host' trial.errand) := by
  cases trial with
  | ask asked =>
    have asks := wraps.request b rounds asked
    unfold UnitTest.undergo Trial.errand Passive.attend
    simp only
    generalize u.request b rounds host asked = answer? at asks ⊢
    generalize p.request b rounds host' asked = answer'? at asks ⊢
    cases asks with
    | none => exact .none
    | some wraps => exact .some wraps
  | direct errand =>
    cases errand with
    | ask asked =>
      have asks := wraps.asks b rounds wraps.host asked
      unfold UnitTest.undergo Trial.errand Passive.attend
      simp only
      generalize u.passive.request b rounds host asked = inner? at asks ⊢
      generalize p.request b rounds host' asked = answer? at asks ⊢
      cases asks with
      | none => exact .none
      | some wraps => exact .some wraps
    | call call => exact .some (wraps.reach b call)

theorem undergoAll (trials : List (Trial S E F X L)) :
    Option.Rel (fun after after' => after.1.Wraps after.2 after'.1 after'.2) (u.undergoAll b rounds host trials)
      (p.attendAll b rounds host' (trials.map Trial.errand)) := by
  unfold UnitTest.undergoAll Passive.attendAll
  induction trials generalizing u p host host' with
  | nil => exact .some wraps
  | cons trial rest ih =>
    have undergone := wraps.undergo b rounds trial
    rw [List.map_cons, List.foldlM_cons, List.foldlM_cons]
    simp only
    generalize u.undergo b rounds host trial = after? at undergone ⊢
    generalize p.attend b rounds host' trial.errand = after'? at undergone ⊢
    cases undergone with
    | none => exact .none
    | some wraps => exact ih wraps

end Wraps

variable [DecidableEq X]

/-- A test machine does whatever the passive machine does, and no more is in its answers than what that call has
    brought about. Whatever a test has done before, with the test machine or with the passive machine inside, the two
    stand alike and whoever listens has heard the same. A call then fails for the machine's own reason, or else with the
    first failure that is published while it runs, as any audience in the collector's place would hear it. Failures of
    earlier calls, and those that were never asked for, are not brought up again. -/
theorem undergoAll_judges (m : Machine S E F X L) (start : Host S E F X L W) (b : Behaviour S E F X W) (rounds : Nat)
    (trials : List (Trial S E F X L)) :
    Option.Rel
      (fun after after' => after.1.Wraps after.2 after'.1 after'.2 ∧ ∀ asked audience,
        Option.Rel (Answer.Judges audience after'.2) (after.1.request b rounds after.2 asked)
          ((after'.1.facing audience).request b rounds after'.2 asked))
      ((ofMachine m).undergoAll b rounds start trials)
      ((Passive.ofMachine m).attendAll b rounds start (trials.map Trial.errand)) := by
  have undergone := (wraps_ofMachine m start).undergoAll b rounds trials
  generalize (ofMachine m).undergoAll b rounds start trials = after? at undergone ⊢
  generalize (Passive.ofMachine m).attendAll b rounds start (trials.map Trial.errand) = after'? at undergone ⊢
  cases undergone with
  | none => exact .none
  | some wraps => exact .some ⟨wraps, wraps.judges b rounds⟩

def jammedLamp : Machine Lamp Switch Unit Unit Unit :=
  ((Run.start .standard (.ofWorld ())).callAll Lamp.jammed (Lamp.explanation.take 2)).machine

theorem undergoAll_judges_lamp :
    let trials : List (Trial Lamp Switch Unit Unit Unit) :=
      [.ask (.initializeAt .off), .ask .start, .direct (.ask (.submit ⟨⟨.turn, []⟩, false⟩))]
    ∃ after after' answer answer', (ofMachine jammedLamp).undergoAll Lamp.jammed 9 (.ofWorld ()) trials = some after ∧
      (Passive.ofMachine jammedLamp).attendAll Lamp.jammed 9 (.ofWorld ()) (trials.map Trial.errand) = some after' ∧
      after.1.Wraps after.2 after'.1 after'.2 ∧ after.2.failures = [.declined .off .turn] ∧
      after.1.request Lamp.jammed 9 after.2 (.submit ⟨⟨.toggle, []⟩, false⟩) = some answer ∧
      answer.result = .error (.thrown (some .off) (some .toggle) (.custom "jammed")) ∧
      answer.Judges [.custom ()] after'.2 answer' := by
  intro trials
  have undergone := undergoAll_judges jammedLamp (.ofWorld ()) Lamp.jammed 9 trials
  have answers : ((ofMachine jammedLamp).undergoAll Lamp.jammed 9 (.ofWorld ()) trials).any (fun after =>
      after.2.failures = [.declined .off .turn] ∧
        (after.1.request Lamp.jammed 9 after.2 (.submit ⟨⟨.toggle, []⟩, false⟩)).any fun answer =>
          match answer.result with
          | .error failure => failure = .thrown (some .off) (some .toggle) (.custom "jammed")
          | .ok _ => false) = true := by decide +kernel
  generalize (ofMachine jammedLamp).undergoAll Lamp.jammed 9 (.ofWorld ()) trials = after? at undergone answers ⊢
  generalize (Passive.ofMachine jammedLamp).attendAll Lamp.jammed 9 (.ofWorld ()) (trials.map Trial.errand) = after'?
    at undergone ⊢
  cases undergone with
  | none => cases answers
  | @some after after' alike =>
    obtain ⟨wraps, judges⟩ := alike
    obtain ⟨declined, answers⟩ := of_decide_eq_true answers
    have judged := judges (.submit ⟨⟨.toggle, []⟩, false⟩) [.custom ()]
    generalize asks : after.1.request Lamp.jammed 9 after.2 (.submit ⟨⟨.toggle, []⟩, false⟩) = answer? at judged answers
    generalize (after'.1.facing [.custom ()]).request Lamp.jammed 9 after'.2 (.submit ⟨⟨.toggle, []⟩, false⟩) = answer'?
      at judged
    cases judged with
    | none => cases answers
    | @some answer answer' judges =>
      obtain ⟨⟨error⟩ | _, unit, host⟩ := answer
      · obtain rfl := of_decide_eq_true answers
        exact ⟨after, after', _, answer', rfl, rfl, wraps, declined, asks, rfl, judges⟩
      · cases answers

end UnitTest

end Statechart
