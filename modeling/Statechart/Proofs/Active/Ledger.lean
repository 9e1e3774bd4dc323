import Statechart.Proofs.Active.Handover
import Mathlib.Data.List.Nodup
import Mathlib.Data.List.Range

namespace Statechart

/-- A deed of a worker, with the number of the message it is about. Messages are numbered in the order in which they
    were put into the channel. -/
inductive Moment (E X L : Type) where
  | began (observers : Observers X L)
  | accepted (message : Message E X L) (number : Nat)
  | fired (signal : Signal E) (number : Nat) (observers : Observers X L)
  | ended

abbrev History (E X L : Type) := List (Moment E X L)

variable {E X L : Type}

def Moment.accepted? : Moment E X L → Option (Message E X L × Nat)
  | accepted message number => some (message, number)
  | _ => none

def Moment.fired? : Moment E X L → Option Nat
  | fired _ number _ => some number
  | _ => none

def Moment.handed? : Moment E X L → Option (Signal E × Observers X L)
  | fired signal _ observers => some (signal, observers)
  | began _ | accepted .. | ended => none

namespace History

def accepted (h : History E X L) : List (Message E X L × Nat) := h.filterMap Moment.accepted?

def fired (h : History E X L) : List Nat := h.filterMap Moment.fired?

/-- Who is to hear of what happens next: whoever the machine had when the run began, with all changes accepted
    since then. -/
def heard [DecidableEq X] (h : History E X L) : Observers X L :=
  h.foldl (fun o moment => match moment with
    | .began o => o
    | .accepted (.configure change) _ => change.observe o
    | _ => o) ⟨[], []⟩

def Accepts (h : History E X L) (post : Post E) (number : Nat) : Prop := (Message.post post, number) ∈ h.accepted

theorem accepted_append (h h' : History E X L) : accepted (h ++ h') = h.accepted ++ h'.accepted :=
  List.filterMap_append

theorem fired_append (h h' : History E X L) : fired (h ++ h') = h.fired ++ h'.fired := List.filterMap_append

theorem accepted_snoc (h : History E X L) (moment : Moment E X L) :
    accepted (h ++ [moment]) = h.accepted ++ moment.accepted?.toList := by
  rw [accepted_append]
  cases shown : moment.accepted? <;> simp [accepted, shown]

theorem fired_snoc (h : History E X L) (moment : Moment E X L) :
    fired (h ++ [moment]) = h.fired ++ moment.fired?.toList := by
  rw [fired_append]
  cases shown : moment.fired? <;> simp [fired, shown]

section Heard

variable [DecidableEq X] (h : History E X L) (o : Observers X L) (n : Nat)

@[simp] theorem heard_began : heard (h ++ [.began o]) = o := by
  unfold heard
  rw [List.foldl_append]
  rfl

@[simp] theorem heard_fired (signal : Signal E) : heard (h ++ [.fired signal n o]) = h.heard := by
  unfold heard
  rw [List.foldl_append]
  rfl

@[simp] theorem heard_accepted (message : Message E X L) : heard (h ++ [.accepted message n]) =
    match message with
    | .configure change => change.observe h.heard
    | .post _ | .stop => h.heard := by
  unfold heard
  rw [List.foldl_append]
  cases message <;> rfl

end Heard

theorem split_snoc {h past future : History E X L} {last moment : Moment E X L}
    (split : h ++ [last] = past ++ moment :: future) :
    past = h ∧ moment = last ∧ future = [] ∨ ∃ rest, future = rest ++ [last] ∧ h = past ++ moment :: rest := by
  cases future using List.reverseRec with
  | nil =>
    obtain ⟨rfl, same⟩ := List.append_inj' split rfl
    cases same
    exact .inl ⟨rfl, rfl, rfl⟩
  | append_singleton rest other =>
    rw [← List.cons_append, ← List.append_assoc] at split
    obtain ⟨before, same⟩ := List.append_inj' split rfl
    cases same
    exact .inr ⟨rest, rfl, before⟩

/-- What is true of the past when a signal is fired: it was accepted, and so was everything put into the channel
    before it, changes included; it was not fired before; no signal without priority waits that is older, and no
    signal with priority that is younger. -/
structure Firing [DecidableEq X] (past : History E X L) (signal : Signal E) (number : Nat) (observers : Observers X L) :
    Prop where
  accepted : ∃ priority, past.Accepts ⟨signal, priority⟩ number
  once : number ∉ past.fired
  earlier : ∀ n < number, ∃ message, (message, n) ∈ past.accepted
  inOrder : past.Accepts ⟨signal, false⟩ number → ∀ n < number, ∀ other, past.Accepts ⟨other, false⟩ n →
    n ∈ past.fired
  urgent : ∀ n, number < n → ∀ other, past.Accepts ⟨other, true⟩ n → n ∈ past.fired
  observers : observers = past.heard

end History

/-- The messages put into a channel, in order, the posts among them that were accepted and wait, and what was done
    with them. -/
structure Ledger (E X L : Type) where
  sent : List (Message E X L)
  waiting : List (Post E × Nat)
  history : History E X L

namespace Ledger

def blank : Ledger E X L := ⟨[], [], []⟩

def taken (l : Ledger E X L) : Nat := l.history.accepted.length

@[simp] theorem taken_snoc (sent : List (Message E X L)) (waiting : List (Post E × Nat)) (h : History E X L)
    (moment : Moment E X L) :
    taken ⟨sent, waiting, h ++ [moment]⟩ = h.accepted.length + moment.accepted?.toList.length := by
  rw [taken, History.accepted_snoc, List.length_append]

def queueUp (number : Nat) (waiting : List (Post E × Nat)) : Message E X L → List (Post E × Nat)
  | .post post => if post.priority then (post, number) :: waiting else waiting ++ [(post, number)]
  | .configure _ | .stop => waiting

def record (l : Ledger E X L) : Deed E X L → Ledger E X L
  | .put message => { l with sent := l.sent ++ [message] }
  | .began observers => { l with history := l.history ++ [.began observers] }
  | .took message => { l with
      waiting := queueUp l.taken l.waiting message
      history := l.history ++ [.accepted message l.taken] }
  | .fired signal observers =>
    match l.waiting with
    | [] => l
    | (_, number) :: rest => { l with waiting := rest, history := l.history ++ [.fired signal number observers] }
  | .ended => { l with history := l.history ++ [.ended] }

def recordAll (l : Ledger E X L) (deeds : List (Deed E X L)) : Ledger E X L := deeds.foldl record l

/-- In the queue, what came with priority stands in front, the last first, and the rest follows in order. -/
def Precedes (first second : Post E × Nat) : Prop :=
  if second.1.priority then first.1.priority ∧ second.2 < first.2 else first.1.priority ∨ first.2 < second.2

structure Sound [DecidableEq X] (l : Ledger E X L) : Prop where
  numbered : l.history.accepted = (l.sent.take l.taken).zipIdx
  waiting_accepted : ∀ entry ∈ l.waiting, l.history.Accepts entry.1 entry.2
  fired_accepted : ∀ n ∈ l.history.fired, n < l.taken
  served : ∀ post n, l.history.Accepts post n → n ∈ l.history.fired ∨ (post, n) ∈ l.waiting
  distinct : (l.history.fired ++ l.waiting.map Prod.snd).Nodup
  ordered : l.waiting.Pairwise Precedes
  firing : ∀ (past future : History E X L) signal n observers,
    l.history = past ++ .fired signal n observers :: future → past.Firing signal n observers

section Sound

variable [DecidableEq X] {l : Ledger E X L} {message : Message E X L} {n : Nat} {post : Post E}
  {rest : List (Post E × Nat)} {observers : Observers X L}

theorem sound_blank : (blank : Ledger E X L).Sound where
  numbered := rfl
  waiting_accepted _ member := by cases member
  fired_accepted _ member := by cases member
  served _ _ member := by cases member
  distinct := .nil
  ordered := .nil
  firing past _ _ _ _ split := by cases past <;> cases split

theorem Sound.taken_le (sound : l.Sound) : l.taken ≤ l.sent.length := by
  have lengths := congrArg List.length sound.numbered
  rw [List.length_zipIdx, List.length_take] at lengths
  unfold taken at *
  omega

theorem Sound.mem_accepted_iff (sound : l.Sound) :
    (message, n) ∈ l.history.accepted ↔ n < l.taken ∧ l.sent[n]? = some message := by
  rw [sound.numbered, List.mem_zipIdx_iff_getElem?, List.getElem?_take]
  split <;> simp [*]

theorem Sound.put (sound : l.Sound) (message : Message E X L) : (l.record (.put message)).Sound where
  numbered := by
    change l.history.accepted = ((l.sent ++ [message]).take l.taken).zipIdx
    rw [List.take_append_of_le_length sound.taken_le]
    exact sound.numbered
  waiting_accepted := sound.waiting_accepted
  fired_accepted := sound.fired_accepted
  served := sound.served
  distinct := sound.distinct
  ordered := sound.ordered
  firing := sound.firing

theorem firing_snoc {h : History E X L} {last : Moment E X L}
    (before : ∀ (past future : History E X L) signal n observers,
      h = past ++ .fired signal n observers :: future → past.Firing signal n observers)
    (now : ∀ signal n observers, last = .fired signal n observers → h.Firing signal n observers)
    (past future : History E X L) (signal : Signal E) (n : Nat) (observers : Observers X L)
    (split : h ++ [last] = past ++ .fired signal n observers :: future) : past.Firing signal n observers := by
  obtain ⟨rfl, same, _⟩ | ⟨rest, _, earlier⟩ := History.split_snoc split
  · exact now signal n observers same.symm
  · exact before past rest signal n observers earlier

theorem Sound.remark {moment : Moment E X L} (sound : l.Sound) (unaccepted : moment.accepted? = none)
    (unfired : moment.fired? = none) : Sound { l with history := l.history ++ [moment] } := by
  have accepted : History.accepted (l.history ++ [moment]) = l.history.accepted := by
    rw [History.accepted_snoc, unaccepted]
    exact List.append_nil _
  have fired : History.fired (l.history ++ [moment]) = l.history.fired := by
    rw [History.fired_snoc, unfired]
    exact List.append_nil _
  refine ⟨?_, ?_, ?_, ?_, ?_, sound.ordered, firing_snoc sound.firing ?_⟩
  · simp only [taken, accepted]
    exact sound.numbered
  · simp only [History.Accepts, accepted]
    exact sound.waiting_accepted
  · simp only [taken, accepted, fired]
    exact sound.fired_accepted
  · simp only [History.Accepts, accepted, fired]
    exact sound.served
  · simp only [fired]
    exact sound.distinct
  · rintro signal n observers rfl
    cases unfired

omit [DecidableEq X] in
theorem mem_queueUp {entry : Post E × Nat} {waiting : List (Post E × Nat)} :
    entry ∈ queueUp n waiting message ↔ entry ∈ waiting ∨ message = .post entry.1 ∧ n = entry.2 := by
  obtain ⟨other, k⟩ := entry
  cases message with
  | post post =>
    simp only [queueUp, Message.post.injEq]
    split <;> simp [or_comm, eq_comm]
  | configure change => simp [queueUp]
  | stop => simp [queueUp]

theorem Sound.took (sound : l.Sound) (next : l.sent[l.taken]? = some message) : (l.record (.took message)).Sound := by
  have accepted : History.accepted (l.history ++ [.accepted message l.taken]) =
      l.history.accepted ++ [(message, l.taken)] := History.accepted_snoc _ _
  have fired : History.fired (l.history ++ [.accepted message l.taken]) = l.history.fired := by
    rw [History.fired_snoc]
    exact List.append_nil _
  have grown : (l.record (.took message)).taken = l.taken + 1 := taken_snoc _ _ _ _
  have waiting_lt : ∀ entry ∈ l.waiting, entry.2 < l.taken := fun entry member =>
    (sound.mem_accepted_iff.mp (sound.waiting_accepted entry member)).1
  -- numbers in use are smaller than the number of messages taken
  have fresh : l.taken ∉ l.history.fired ++ l.waiting.map Prod.snd := by
    intro member
    rcases List.mem_append.mp member with member | member
    · exact Nat.lt_irrefl _ (sound.fired_accepted _ member)
    · obtain ⟨entry, waits, same⟩ := List.mem_map.mp member
      exact Nat.lt_irrefl _ (same ▸ waiting_lt entry waits)
  refine ⟨?_, ?_, ?_, ?_, ?_, ?_, ?_⟩
  · rw [grown, record, accepted, List.take_add_one, next, Option.toList_some, List.zipIdx_append, ← sound.numbered]
    simp [Nat.min_eq_left sound.taken_le]
  · intro entry member
    rw [History.Accepts, record, accepted, List.mem_append, List.mem_singleton]
    rcases mem_queueUp.mp member with member | ⟨same, number⟩
    · exact .inl (sound.waiting_accepted entry member)
    · exact .inr (by rw [same, number])
  · intro n member
    rw [record, fired] at member
    have := sound.fired_accepted n member
    omega
  · intro post n member
    rw [History.Accepts, record, accepted, List.mem_append, List.mem_singleton] at member
    rw [record, fired]
    rcases member with member | same
    · exact (sound.served post n member).imp_right fun waits => mem_queueUp.mpr (.inl waits)
    · obtain ⟨here, rfl⟩ := Prod.mk.inj same
      exact .inr (mem_queueUp.mpr (.inr ⟨here.symm, rfl⟩))
  · rw [record, fired]
    cases message with
    | post post =>
      simp only [queueUp]
      split
      · rw [List.map_cons, List.nodup_middle]
        exact List.nodup_cons.mpr ⟨fresh, sound.distinct⟩
      · rw [List.map_append, ← List.append_assoc]
        exact List.nodup_append_comm.mp (List.nodup_cons.mpr ⟨fresh, sound.distinct⟩)
    | configure change => exact sound.distinct
    | stop => exact sound.distinct
  · cases message with
    | post post =>
      simp only [record, queueUp]
      split
      · rename_i urgent
        refine List.pairwise_cons.mpr ⟨fun entry waits => ?_, sound.ordered⟩
        unfold Precedes
        split
        · exact ⟨urgent, waiting_lt entry waits⟩
        · exact .inl urgent
      · rename_i patient
        refine List.pairwise_append.mpr ⟨sound.ordered, List.pairwise_singleton _ _, ?_⟩
        intro entry waits last member
        rw [List.mem_singleton.mp member, Precedes, if_neg patient]
        exact .inr (waiting_lt entry waits)
    | configure change => exact sound.ordered
    | stop => exact sound.ordered
  · exact firing_snoc sound.firing (fun _ _ _ same => by cases same)

theorem Sound.firing_first (sound : l.Sound) (waits : l.waiting = (post, n) :: rest)
    (heard : observers = l.history.heard) : l.history.Firing post.signal n observers := by
  have first : (post, n) ∈ l.waiting := waits ▸ List.mem_cons_self
  have known := sound.waiting_accepted _ first
  have place := sound.mem_accepted_iff.mp known
  have order := sound.ordered
  have distinct := sound.distinct
  rw [waits] at order distinct
  have before := (List.pairwise_cons.mp order).1
  refine ⟨⟨post.priority, known⟩, ?_, ?_, ?_, ?_, heard⟩
  · intro already
    exact (List.nodup_append.mp distinct).2.2 n already n (by simp) rfl
  · intro k less
    have inside : k < l.sent.length := by
      have := sound.taken_le
      omega
    exact ⟨l.sent[k], sound.mem_accepted_iff.mpr ⟨by omega, List.getElem?_eq_getElem inside⟩⟩
  · intro patient k less other accepted
    have same : post = ⟨post.signal, false⟩ := by
      have there := (sound.mem_accepted_iff.mp patient).2
      rw [place.2] at there
      exact Message.post.inj (Option.some.inj there)
    rcases sound.served _ k accepted with done | stillWaits
    · exact done
    · rw [waits] at stillWaits
      rcases List.mem_cons.mp stillWaits with itself | behind
      · cases itself
        exact absurd less (Nat.lt_irrefl _)
      · have precedes := before _ behind
        rw [same] at precedes
        simp only [Precedes, Bool.false_eq_true, if_false, false_or] at precedes
        omega
  · intro k more other accepted
    rcases sound.served _ k accepted with done | stillWaits
    · exact done
    · rw [waits] at stillWaits
      rcases List.mem_cons.mp stillWaits with itself | behind
      · cases itself
        exact absurd more (Nat.lt_irrefl _)
      · have precedes := before _ behind
        simp only [Precedes, if_true] at precedes
        omega

theorem Sound.fired (sound : l.Sound) (waits : l.waiting = (post, n) :: rest) (heard : observers = l.history.heard) :
    (l.record (.fired post.signal observers)).Sound := by
  have after : l.record (.fired post.signal observers) =
      { l with waiting := rest, history := l.history ++ [.fired post.signal n observers] } := by
    rw [record, waits]
  have accepted : History.accepted (l.history ++ [.fired post.signal n observers]) = l.history.accepted := by
    rw [History.accepted_snoc]
    exact List.append_nil _
  have fired : History.fired (l.history ++ [.fired post.signal n observers]) = l.history.fired ++ [n] :=
    History.fired_snoc _ _
  have waiting := sound.waiting_accepted
  have served := sound.served
  have distinct := sound.distinct
  have ordered := sound.ordered
  rw [waits] at waiting served distinct ordered
  rw [after]
  refine ⟨?_, ?_, ?_, ?_, ?_, (List.pairwise_cons.mp ordered).2, firing_snoc sound.firing ?_⟩
  · simp only [taken, accepted]
    exact sound.numbered
  · intro entry member
    simp only [History.Accepts, accepted]
    exact waiting entry (List.mem_cons_of_mem _ member)
  · intro k member
    simp only [taken, accepted]
    rw [fired] at member
    rcases List.mem_append.mp member with member | member
    · exact sound.fired_accepted k member
    · rw [List.mem_singleton.mp member]
      exact (sound.mem_accepted_iff.mp (waiting _ List.mem_cons_self)).1
  · intro other k member
    simp only [History.Accepts, accepted] at member
    rw [fired, List.mem_append, List.mem_singleton]
    rcases served other k member with done | stillWaits
    · exact .inl (.inl done)
    · rcases List.mem_cons.mp stillWaits with itself | behind
      · exact .inl (.inr (congrArg Prod.snd itself))
      · exact .inr behind
  · rw [fired, List.append_assoc]
    exact distinct
  · rintro signal k others ⟨⟩
    exact sound.firing_first waits heard

end Sound

end Ledger

end Statechart
