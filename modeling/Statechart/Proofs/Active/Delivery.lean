import Statechart.Proofs.Active.Ledger
import Statechart.Proofs.Machine.Run

namespace Statechart

variable {S E F X L W : Type}

namespace History

variable {h before before' during during' : History E X L} {o o' : Observers X L} {moment : Moment E X L}
  {message : Message E X L} {n : Nat} {stopping : Bool}

def StopsOnce (h : History E X L) : Prop :=
  ∃ earlier number, h.accepted = earlier ++ [(.stop, number)] ∧ ∀ entry ∈ earlier, entry.1 ≠ .stop

def Underway (h : History E X L) (stopping : Bool) : Prop :=
  ∃ before o during, h = before ++ .began o :: during ∧ (∀ o', .began o' ∉ during) ∧
    if stopping then StopsOnce during else ∀ entry ∈ accepted during, entry.1 ≠ .stop

/-- Every run that has ended accepted one stop, as its last message, and left nothing unfired. -/
def Completed (h : History E X L) : Prop :=
  ∀ before o during after, h = before ++ .began o :: (during ++ .ended :: after) → (∀ o', .began o' ∉ during) →
    StopsOnce during ∧ ∀ post number, Accepts (before ++ .began o :: during) post number →
      number ∈ fired (before ++ .began o :: during)

theorem last_run_unique (split : before ++ .began o :: during = before' ++ .began o' :: during')
    (whole : ∀ o', .began o' ∉ during) (whole' : ∀ o', .began o' ∉ during') :
    before = before' ∧ o = o' ∧ during = during' := by
  rcases List.append_eq_append_iff.mp split with ⟨between, rfl, rest⟩ | ⟨between, rfl, rest⟩
  · cases between with
    | nil =>
      cases rest
      exact ⟨(List.append_nil _).symm, rfl, rfl⟩
    | cons first between =>
      obtain ⟨_, rfl⟩ := List.cons.inj rest
      exact (whole o' (by simp)).elim
  · cases between with
    | nil =>
      cases rest
      exact ⟨List.append_nil _, rfl, rfl⟩
    | cons first between =>
      obtain ⟨_, rfl⟩ := List.cons.inj rest
      exact (whole' o (by simp)).elim

theorem underway_began (h : History E X L) (o : Observers X L) : Underway (h ++ [.began o]) false :=
  ⟨h, o, [], rfl, by simp, by simp [accepted]⟩

theorem Underway.fired (underway : h.Underway stopping) (signal : Signal E) (n : Nat) (o : Observers X L) :
    Underway (h ++ [.fired signal n o]) stopping := by
  obtain ⟨before, first, during, rfl, whole, stops⟩ := underway
  refine ⟨before, first, during ++ [.fired signal n o], by simp, by simpa using whole, ?_⟩
  have same : accepted (during ++ [.fired signal n o]) = accepted during := by
    rw [accepted_snoc]
    exact List.append_nil _
  simp only [StopsOnce, same]
  exact stops

theorem Underway.accepted (underway : h.Underway false) (message : Message E X L) (n : Nat) :
    Underway (h ++ [.accepted message n]) (match message with | .stop => true | _ => false) := by
  obtain ⟨before, first, during, rfl, whole, unstopped⟩ := underway
  refine ⟨before, first, during ++ [.accepted message n], by simp, by simpa using whole, ?_⟩
  have grown : History.accepted (during ++ [.accepted message n]) = History.accepted during ++ [(message, n)] :=
    accepted_snoc _ _
  rw [if_neg (by simp)] at unstopped
  have others : message ≠ .stop → ∀ entry ∈ History.accepted (during ++ [.accepted message n]), entry.1 ≠ .stop := by
    intro other entry member
    rw [grown, List.mem_append, List.mem_singleton] at member
    rcases member with member | rfl
    · exact unstopped entry member
    · exact other
  cases message with
  | stop => exact ⟨History.accepted during, n, grown, unstopped⟩
  | post post => exact others (by simp)
  | configure change => exact others (by simp)

theorem Completed.snoc (completed : h.Completed) (goesOn : moment ≠ .ended) : Completed (h ++ [moment]) := by
  intro before o during after split whole
  rw [← List.cons_append, ← List.append_assoc] at split
  obtain ⟨_, same, _⟩ | ⟨rest, _, earlier⟩ := split_snoc split
  · exact (goesOn same.symm).elim
  · rw [List.append_assoc, List.cons_append] at earlier
    exact completed before o during rest earlier whole

theorem Completed.ended (completed : h.Completed) (underway : h.Underway true)
    (served : ∀ post n, h.Accepts post n → n ∈ h.fired) : Completed (h ++ [.ended]) := by
  intro before o during after split whole
  rw [← List.cons_append, ← List.append_assoc] at split
  obtain ⟨here, _, _⟩ | ⟨rest, _, earlier⟩ := split_snoc split
  · obtain ⟨before', o', during', again, whole', stops⟩ := underway
    rw [← here] at again served
    obtain ⟨rfl, rfl, rfl⟩ := last_run_unique again whole whole'
    exact ⟨stops, served⟩
  · rw [List.append_assoc, List.cons_append] at earlier
    exact completed before o during rest earlier whole

end History

namespace Active

variable {a a' : Active S E F X L} {l : Ledger E X L} {host host' : Host S E F X L W} {deeds : List (Deed E X L)}
  {message : Message E X L}

inductive Stands [DecidableEq X] (a : Active S E F X L) (l : Ledger E X L) : Prop where
  | idle (worker : Worker S E F X L)
      (stands : a.runtime = .stopped worker ∨ a.runtime = .running worker .starting false)
      (queue : worker.queue = []) (waiting : l.waiting = [])
  | busy (worker : Worker S E F X L) (phase : Phase) (stopping : Bool)
      (stands : a.runtime = .running worker phase stopping) (begun : phase ≠ .starting)
      (queue : worker.queue = l.waiting.map fun entry => entry.1.signal) (underway : l.history.Underway stopping)
      (observers : worker.machine.observers = l.history.heard)

structure Kept [DecidableEq X] (a : Active S E F X L) (l : Ledger E X L) : Prop where
  sound : l.Sound
  channel : a.channel = l.sent.drop l.taken
  completed : l.history.Completed
  stands : a.Stands l

section Kept

variable [DecidableEq X]

theorem kept_ofMachine (machine : Machine S E F X L) : (ofMachine machine).Kept .blank where
  sound := Ledger.sound_blank
  channel := rfl
  completed before o during after split := by cases before <;> cases split
  stands := .idle _ (.inl rfl) rfl rfl

theorem Stands.of_runtime {l' : Ledger E X L} (stands : a.Stands l) (runtime : a'.runtime = a.runtime)
    (waiting : l'.waiting = l.waiting) (history : l'.history = l.history) : a'.Stands l' := by
  cases stands with
  | idle worker stands queue empty => exact .idle worker (runtime ▸ stands) queue (waiting ▸ empty)
  | busy worker phase stopping stands begun queue underway observers =>
    exact .busy worker phase stopping (runtime ▸ stands) begun (waiting ▸ queue) (history ▸ underway)
      (history ▸ observers)

theorem Stands.resting {worker : Worker S E F X L} (stands : a.Stands l)
    (rests : a.runtime = .stopped worker ∨ a.runtime = .running worker .starting false) :
    worker.queue = [] ∧ l.waiting = [] := by
  cases stands with
  | idle worker' stands queue waiting =>
    rcases rests with rests | rests <;> rw [rests] at stands <;> rcases stands with same | same <;> cases same
    · exact ⟨queue, waiting⟩
    · exact ⟨queue, waiting⟩
  | busy worker' phase stopping stands begun =>
    rw [stands] at rests
    rcases rests with same | same <;> cases same
    exact absurd rfl begun

theorem Stands.untold {worker : Worker S E F X L} {stopping : Bool} (stands : a.Stands l)
    (begins : a.runtime = .running worker .starting stopping) : stopping = false := by
  cases stands with
  | idle worker' stands =>
    rw [begins] at stands
    rcases stands with same | same <;> cases same
    rfl
  | busy worker' phase stopping stands begun =>
    rw [stands] at begins
    cases begins
    exact absurd rfl begun

theorem Stands.running {worker : Worker S E F X L} {phase : Phase} {stopping : Bool} (stands : a.Stands l)
    (runs : a.runtime = .running worker phase stopping) (begun : phase ≠ .starting) :
    worker.queue = l.waiting.map (fun entry => entry.1.signal) ∧ l.history.Underway stopping ∧
      worker.machine.observers = l.history.heard := by
  cases stands with
  | idle worker' stands =>
    rw [runs] at stands
    rcases stands with same | same
    · cases same
    · cases same
      exact absurd rfl begun
  | busy worker' phase' stopping' stands _ queue underway observers =>
    rw [runs] at stands
    cases stands
    exact ⟨queue, underway, observers⟩

theorem Kept.put (kept : a.Kept l) (message : Message E X L) :
    Kept { a with channel := a.channel ++ [message] } (l.record (.put message)) where
  sound := kept.sound.put message
  channel := by
    change a.channel ++ [message] = (l.sent ++ [message]).drop l.taken
    rw [List.drop_append_of_le_length kept.sound.taken_le, kept.channel]
  completed := kept.completed
  stands := kept.stands.of_runtime rfl rfl rfl

theorem Kept.took {worker : Worker S E F X L} {phase : Phase} {rest : List (Message E X L)} (kept : a.Kept l)
    (stands : a.runtime = .running worker phase false) (begun : phase ≠ .starting)
    (next : a.channel = message :: rest) (host : Host S E F X L W) :
    Kept ({ a with channel := rest }.accept worker message host).1 (l.record (.took message)) := by
  have channel := kept.channel
  rw [next] at channel
  have head : l.sent[l.taken]? = some message := by
    rw [← List.head?_drop, ← channel]
    rfl
  have tail : rest = l.sent.drop (l.record (.took message)).taken := by
    have grown : (l.record (.took message)).taken = l.taken + 1 := Ledger.taken_snoc _ _ _ _
    rw [grown, ← List.tail_drop, ← channel]
    rfl
  obtain ⟨queue, underway, observers⟩ := kept.stands.running stands begun
  have underway := underway.accepted message l.taken
  have completed : History.Completed (l.history ++ [.accepted message l.taken]) := kept.completed.snoc (by simp)
  have heard := History.heard_accepted l.history l.taken message
  cases message with
  | post post =>
    refine ⟨kept.sound.took head, tail, completed, .busy _ _ _ rfl (by simp) ?_ underway ?_⟩
    · simp only [Ledger.record, Ledger.queueUp, queue]
      split <;> simp
    · exact observers.trans heard.symm
  | configure change =>
    refine ⟨kept.sound.took head, tail, completed, .busy _ _ _ rfl (by simp) queue underway ?_⟩
    exact (change.observers_apply worker.machine).trans (by rw [observers]; exact heard.symm)
  | stop =>
    exact ⟨kept.sound.took head, tail, completed, .busy _ _ _ rfl (by simp) queue underway (observers.trans heard.symm)⟩

variable [DecidableEq S] [DecidableEq E] {b : Behaviour S E F X W}

theorem Kept.turn (kept : a.Kept l) (turned : a.Turn b host deeds a' host') (remains : a'.runtime ≠ .lost) :
    a'.Kept (l.recordAll deeds) := by
  cases turned with
  | deliver sent => exact kept.put _
  | @begin worker stopping quiet stands =>
    obtain ⟨machine, published?, alike, begun⟩ := beginRun_kept remains
    obtain rfl := kept.stands.untold stands
    obtain ⟨queue, waiting⟩ := kept.stands.resting (.inr stands)
    rw [begun]
    refine ⟨kept.sound.remark rfl rfl, ?_, kept.completed.snoc (by simp), ?_⟩
    · have same : (l.recordAll [.began worker.machine.observers]).taken = l.taken := Ledger.taken_snoc _ _ _ _
      rw [same]
      exact kept.channel
    · refine .busy _ _ _ rfl (by simp) ?_ (History.underway_began _ _) ?_
      · exact queue.trans (by change [] = l.waiting.map _; rw [waiting]; rfl)
      · exact alike.observers.trans (History.heard_began _ _).symm
  | @take worker phase message rest quiet stands looks next =>
    refine kept.took stands ?_ next host
    rcases looks with rfl | ⟨rfl, _⟩ <;> simp
  | @look worker stopping quiet stands drained =>
    obtain ⟨queue, underway, observers⟩ := kept.stands.running stands (by simp)
    exact ⟨kept.sound, kept.channel, kept.completed, .busy _ _ _ rfl (by simp) queue underway observers⟩
  | @fire worker stopping signal queue quiet stands waits =>
    obtain ⟨machine, published?, alike, fired⟩ := fireNext_kept remains
    obtain ⟨same, underway, observers⟩ := kept.stands.running stands (by simp)
    rw [fired]
    rw [waits] at same
    cases waiting : l.waiting with
    | nil =>
      rw [waiting] at same
      cases same
    | cons entry rest =>
      obtain ⟨post, n⟩ := entry
      rw [waiting] at same
      obtain ⟨rfl, rfl⟩ := List.cons.inj same
      have after : l.recordAll [.fired post.signal worker.machine.observers] =
          { l with
            waiting := rest
            history := l.history ++ [.fired post.signal n worker.machine.observers] } := by
        rw [Ledger.recordAll, List.foldl_cons, List.foldl_nil, Ledger.record, waiting]
      refine ⟨kept.sound.fired waiting observers, ?_, ?_, ?_⟩
      · have same : (l.recordAll [.fired post.signal worker.machine.observers]).taken = l.taken := by
          rw [after]
          exact Ledger.taken_snoc _ _ _ _
        rw [same, after]
        exact kept.channel
      · rw [after]
        exact kept.completed.snoc (by simp)
      · rw [after]
        refine .busy _ _ _ rfl (by simp) rfl (underway.fired _ _ _) ?_
        exact (alike.observers.trans observers).trans (History.heard_fired _ _ _ _).symm
  | @finish worker quiet stands empty =>
    obtain ⟨queue, underway, observers⟩ := kept.stands.running stands (by simp)
    have waiting : l.waiting = [] := by
      rw [empty] at queue
      exact List.map_eq_nil_iff.mp queue.symm
    refine ⟨kept.sound.remark rfl rfl, ?_, ?_, .idle worker (.inl rfl) empty waiting⟩
    · have same : (l.recordAll [.ended]).taken = l.taken := Ledger.taken_snoc _ _ _ _
      rw [same]
      exact kept.channel
    · -- with nothing left in the queue, all that was accepted has been fired
      refine kept.completed.ended underway fun post n accepted => ?_
      rcases kept.sound.served post n accepted with done | waits
      · exact done
      · rw [waiting] at waits
        cases waits

theorem Kept.step (kept : a.Kept l) (step : a.Step b host deeds a' host') : a'.Kept (l.recordAll deeds) := by
  cases step with
  | turn turned remains => exact kept.turn turned remains
  | send message sent =>
    unfold send at sent
    split at sent
    · cases sent
      exact kept.put message
    · cases sent
  | outside world => exact kept
  | start started =>
    unfold start at started
    split at started
    · cases started
    · split at started
      · rename_i worker stands
        cases started
        obtain ⟨queue, waiting⟩ := kept.stands.resting (.inl stands)
        exact ⟨kept.sound, kept.channel, kept.completed, .idle _ (.inr rfl) queue waiting⟩
      · cases started
        exact kept
      · cases started
        exact kept
      · cases started
  | own stands machine isInitialized pending host' =>
    obtain ⟨queue, waiting⟩ := kept.stands.resting (.inl stands)
    exact ⟨kept.sound, kept.channel, kept.completed, .idle _ (.inl rfl) queue waiting⟩

theorem Kept.steps (kept : a.Kept l) (steps : a.Steps b host deeds a' host') : a'.Kept (l.recordAll deeds) := by
  induction steps with
  | none => exact kept
  | more before step ih =>
    rw [Ledger.recordAll, List.foldl_append]
    exact ih.step step

end Kept

section Delivery

variable [DecidableEq S] [DecidableEq E] [DecidableEq X]

end Delivery

def restless : Behaviour Lamp Switch Unit Empty Unit :=
  { Lamp.quiet with action := fun _ _ _ => ⟨.done (), [⟨⟨.toggle, []⟩, true⟩], ()⟩ }

def lampMachine : Machine Lamp Switch Unit Empty Empty :=
  ((Run.start .standard (.ofWorld ())).callAll Lamp.quiet Lamp.definition).machine

end Active

end Statechart
