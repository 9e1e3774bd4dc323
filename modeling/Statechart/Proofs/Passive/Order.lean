import Statechart.Proofs.Passive.Work

namespace Statechart

section Orderly

variable {E : Type} {line line' line'' : List (Signal E)} {log log' : List (Affair E)} {signal : Signal E}
  {post other : Post E}

def Affair.signal? : Affair E → Option (Signal E)
  | posted _ => none
  | fired signal => some signal

def firings (log : List (Affair E)) : List (Signal E) := log.filterMap Affair.signal?

/-- Only the first in line is ever fired. A post with priority goes to the front of the line, any other to its end. -/
inductive Orderly : List (Signal E) → List (Affair E) → List (Signal E) → Prop where
  | none (line : List (Signal E)) : Orderly line [] line
  | posted {line line' : List (Signal E)} {log : List (Affair E)} {post : Post E}
      (rest : Orderly (queueUp line post) log line') : Orderly line (.posted post :: log) line'
  | fired {line line' : List (Signal E)} {log : List (Affair E)} {signal : Signal E} (rest : Orderly line log line') :
      Orderly (signal :: line) (.fired signal :: log) line'

theorem Orderly.trans (first : Orderly line log line') (second : Orderly line' log' line'') :
    Orderly line (log ++ log') line'' := by
  induction first with
  | none => exact second
  | posted _ ih => exact .posted (ih second)
  | fired _ ih => exact .fired (ih second)

theorem orderly_posted (line : List (Signal E)) (sent : List (Post E)) :
    Orderly line (sent.map .posted) (sent.foldl queueUp line) := by
  induction sent generalizing line with
  | nil => exact .none line
  | cons post rest ih => exact .posted (ih _)

theorem queueUp_perm (line : List (Signal E)) (post : Post E) : (queueUp line post).Perm (line ++ [post.signal]) := by
  unfold queueUp
  split
  · exact (List.perm_append_singleton post.signal line).symm
  · exact .refl _

theorem foldl_queueUp_perm (line : List (Signal E)) (sent : List (Post E)) :
    (sent.foldl queueUp line).Perm (line ++ sent.map Post.signal) := by
  induction sent generalizing line with
  | nil => rw [List.foldl_nil, List.map_nil, List.append_nil]
  | cons post rest ih =>
    have first := (queueUp_perm line post).append_right (rest.map Post.signal)
    rw [List.append_assoc] at first
    exact (ih _).trans first

theorem Orderly.perm (orderly : Orderly line log line') :
    (line ++ (posts log).map Post.signal).Perm (firings log ++ line') := by
  induction orderly with
  | none line =>
    change (line ++ []).Perm line
    rw [List.append_nil]
  | @posted line line' log post _ ih =>
    have placed := (queueUp_perm line post).append_right ((posts log).map Post.signal)
    rw [List.append_assoc] at placed
    exact placed.symm.trans ih
  | fired _ ih => exact ih.cons _

theorem queueUp_comm (differ : other.priority ≠ post.priority) (line : List (Signal E)) :
    queueUp (queueUp line post) other = queueUp (queueUp line other) post := by
  unfold queueUp
  cases first : post.priority with
  | true =>
    have second : other.priority = false := by simpa [first] using differ
    simp [second]
  | false =>
    have second : other.priority = true := by simpa [first] using differ
    simp [second]

theorem foldl_queueUp_comm {sent : List (Post E)} (differ : ∀ other ∈ sent, other.priority ≠ post.priority)
    (line : List (Signal E)) : sent.foldl queueUp (queueUp line post) = queueUp (sent.foldl queueUp line) post := by
  induction sent generalizing line with
  | nil => rfl
  | cons other rest ih =>
    rw [List.foldl_cons, queueUp_comm (differ other List.mem_cons_self)]
    exact ih (fun next member => differ next (List.mem_cons_of_mem _ member)) _

end Orderly

namespace Passive

variable {S E F X L W : Type} {p p' : Passive S E F X L} {host host' : Host S E F X L W} {post : Post E}

theorem backlog_send (p : Passive S E F X L) (post : Post E) : (p.send post).backlog = queueUp p.backlog post :=
  List.foldl_append

/-- What goes into the queue directly goes past everything in the inbox. -/
theorem backlog_enqueue (p : Passive S E F X L) (post : Post E) (host : Host S E F X L W) :
    (p.enqueue post host).1.backlog = p.inbox.foldl queueUp (queueUp p.queue post) := by
  rw [enqueue_fst]
  rfl

theorem backlog_enqueue_perm (p : Passive S E F X L) (post : Post E) (host : Host S E F X L W) :
    (p.enqueue post host).1.backlog.Perm (p.backlog ++ [post.signal]) := by
  rw [backlog_enqueue]
  have direct := (foldl_queueUp_perm (queueUp p.queue post) p.inbox).trans ((queueUp_perm p.queue post).append_right _)
  have drained := (foldl_queueUp_perm p.queue p.inbox).append_right [post.signal]
  refine direct.trans (.trans ?_ drained.symm)
  rw [List.append_assoc, List.append_assoc]
  exact List.perm_append_comm.append_left _

theorem backlog_enqueue_inTurn (inTurn : ∀ other ∈ p.inbox, other.priority ≠ post.priority) :
    (p.enqueue post host).1.backlog = queueUp p.backlog post := by
  rw [backlog_enqueue]
  exact foldl_queueUp_comm inTurn p.queue

theorem backlog_drain : (p.drain host).1.backlog = p.backlog := by
  rw [drain_fst]
  rfl

theorem Advances.orderly [DecidableEq S] [DecidableEq E] {b : Behaviour S E F X W} {n : Nat} {log : List (Affair E)}
    (advances : p.Advances b host n log p' host') : Orderly p.backlog log p'.backlog := by
  induction advances with
  | entered entered =>
    rw [backlog_drain]
    exact .none _
  | enter pending enters => exact orderly_posted _ _
  | round before waits fires ih => exact ih.trans (waits ▸ .fired (orderly_posted _ _))

end Passive

end Statechart
