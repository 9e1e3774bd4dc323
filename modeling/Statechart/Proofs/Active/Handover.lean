import Statechart.Proofs.Active.Step
import Statechart.Proofs.Machine.Expense

namespace Statechart

variable {S E F X L W : Type}

def Deed.handed? : Deed E X L → Option (Signal E × Observers X L)
  | fired signal observers => some (signal, observers)
  | put _ | began _ | took _ | ended => none

/-- The events that engines have fired, whether a transition was found for them or not. -/
def Host.concluded (host : Host S E F X L W) : List E := host.seen JournalEntry.concluded?

theorem Host.Performs.concluded {b : Behaviour S E F X W} {routines : List (Routine F)} {start host : Host S E F X L W}
    {sent : List (Post E)} (performs : start.Performs b routines 0 sent host) : host.concluded = start.concluded := by
  obtain ⟨entries, journal, none, _⟩ := performs.journal
  unfold Host.concluded Host.seen
  rw [journal, List.filterMap_append, List.length_eq_zero_iff.mp none, List.append_nil]

namespace Active

variable {b : Behaviour S E F X W} {a a' first : Active S E F X L} {host host' start : Host S E F X L W}
  {worker : Worker S E F X L} {stopping : Bool} {signal : Signal E} {queue : List (Signal E)}
  {observers : Observers X L} {deeds before after : List (Deed E X L)} [DecidableEq S]

theorem beginRun_concluded (kept : (a.beginRun b worker stopping host).1.runtime ≠ .lost) :
    (a.beginRun b worker stopping host).2.concluded = host.concluded := by
  have started : host.Performs b worker.machine.routines 0 [] (worker.machine.announce .started host) :=
    (Host.Performs.refl b _ host).announce _ _ _
  unfold beginRun at kept ⊢
  simp only at kept ⊢
  split at kept
  · rename_i pending
    rw [if_pos pending]
    cases entered : worker.machine.enterInitialState b (worker.machine.announce .started host) with
    | error error =>
      simp only [entered] at kept ⊢
      rw [(resume_kept kept).2]
      exact (started.log rfl).concluded
    | ok done =>
      simp only [entered] at kept ⊢
      rw [(resume_kept kept).2]
      obtain ⟨sent, performs, _⟩ := Machine.enterInitialState_performs entered
      exact (started.trans performs).concluded
  · rename_i pending
    rw [if_neg pending]
    exact started.concluded

variable [DecidableEq E]

variable [DecidableEq X]

theorem Turn.concluded (turned : a.Turn b host deeds a' host') (kept : a'.runtime ≠ .lost)
    (nothing : deeds.filterMap Deed.handed? = []) : host'.concluded = host.concluded := by
  have announced (m : Machine S E F X L) (hook : Hook S E) :
      (m.announce hook host).concluded = host.concluded :=
    ((Host.Performs.refl b m.routines host).announce _ _ _).concluded
  cases turned with
  | deliver | look => rfl
  | begin quiet stands => exact beginRun_concluded kept
  | @take worker phase message rest quiet stands looks next =>
    cases message with
    | post post => exact announced _ _
    | configure | stop => rfl
  | fire => cases nothing
  | finish quiet stands empty => exact announced _ _

end Active

end Statechart
