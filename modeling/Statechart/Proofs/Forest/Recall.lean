import Statechart.Context
import Statechart.Proofs.Forest.WellFormed

namespace Statechart

variable {S E F : Type} [DecidableEq S]

def lastLeft? (contexts : List (Context S E)) (s : S) : Option (Context S E) :=
  contexts.reverse.find? fun context => ⟨.exit, s⟩ ∈ context.records

theorem lastLeft?_append (contexts : List (Context S E)) (context : Context S E) (s : S) :
    lastLeft? (contexts ++ [context]) s =
      if ⟨.exit, s⟩ ∈ context.records then some context else lastLeft? contexts s := by
  unfold lastLeft?
  rw [List.reverse_append, List.reverse_singleton, List.singleton_append, List.find?_cons]
  split <;> simp_all

namespace Forest

def lastExited? (f : Forest S E F) (p : S) (records : List (Record S)) : Option S :=
  (records.reverse.find? fun record => record.kind = .exit ∧ f.super? record.state = some p).map Record.state

variable {f : Forest S E F} {memory : Memory S} {current p c t a leaf : S} {pivot? : Option S}
  {records : List (Record S)} {states active active' : List S} {contexts : List (Context S E)}
  {context : Context S E}

theorem lastExited?_append (f : Forest S E F) (p : S) (first second : List (Record S)) :
    f.lastExited? p (first ++ second) = (f.lastExited? p second).or (f.lastExited? p first) := by
  unfold lastExited?
  rw [List.reverse_append, List.find?_append]
  cases second.reverse.find? fun record => record.kind = .exit ∧ f.super? record.state = some p <;> rfl

theorem lastExited?_eq_none (quiet : ∀ c, f.super? c = some p → ⟨.exit, c⟩ ∉ records) :
    f.lastExited? p records = none := by
  unfold lastExited?
  rw [Option.map_eq_none_iff, List.find?_eq_none]
  rintro ⟨kind, c⟩ member found
  simp only [decide_eq_true_eq] at found
  obtain ⟨rfl, link⟩ := found
  exact quiet c link (List.mem_reverse.mp member)

theorem lastExited?_enters (f : Forest S E F) (p : S) (states : List S) :
    f.lastExited? p (states.map (Record.mk .enter)) = none :=
  lastExited?_eq_none fun c _ member => by simp at member

theorem get?_rememberAll (f : Forest S E F) (memory : Memory S) (states : List S) (p : S) :
    (states.foldl f.remember memory).get? p =
      (f.lastExited? p (states.map (Record.mk .exit))).or (memory.get? p) := by
  induction states generalizing memory with
  | nil => rfl
  | cons s rest ih =>
    have single : (f.remember memory s).get? p = (f.lastExited? p [⟨.exit, s⟩]).or (memory.get? p) := by
      unfold remember lastExited?
      cases link : f.super? s with
      | none => simp [link]
      | some parent =>
        by_cases same : p = parent
        · simp [link, same, Table.get?_insert]
        · simp [link, same, Ne.symm same, Table.get?_insert]
    have split := f.lastExited?_append p [⟨.exit, s⟩] (rest.map (Record.mk .exit))
    rw [List.singleton_append] at split
    rw [List.foldl_cons, ih, single, List.map_cons, split, Option.or_assoc]

theorem get?_rememberAll_of_quiet (quiet : ∀ c, f.super? c = some p → c ∉ states) :
    (states.foldl f.remember memory).get? p = memory.get? p := by
  have none : f.lastExited? p (states.map (Record.mk .exit)) = none :=
    lastExited?_eq_none fun c link member => quiet c link (by simpa using member)
  rw [get?_rememberAll, none]
  rfl

theorem Ranked.get?_rememberAll_branch {rank : S → Nat} (h : f.Ranked rank) (link : f.super? c = some p)
    (left : c ∈ f.branch pivot? current) :
    ((f.branch pivot? current).foldl f.remember memory).get? p = some c := by
  rw [get?_rememberAll]
  unfold lastExited?
  cases found : ((f.branch pivot? current).map (Record.mk .exit)).reverse.find? fun record =>
      record.kind = .exit ∧ f.super? record.state = some p with
  | none =>
    rw [List.find?_eq_none] at found
    have absent := found ⟨.exit, c⟩ (by simpa using left)
    simp [link] at absent
  | some record =>
    have fits := List.find?_some found
    have member := List.mem_of_find?_eq_some found
    simp only [decide_eq_true_eq] at fits
    obtain ⟨a, other, rfl⟩ := List.mem_map.mp (List.mem_reverse.mp member)
    have same : a = c := h.sub_unique fits.2 link (mem_branch_lineage other) (mem_branch_lineage left)
    rw [same]
    rfl

theorem Ranked.get?_rememberAll_outside {rank : S → Nat} (h : f.Ranked rank) (outside : a ∉ f.lineage current) :
    ((f.branch pivot? current).foldl f.remember memory).get? a = memory.get? a := by
  refine get?_rememberAll_of_quiet fun c link left => outside ?_
  exact h.mem_lineage_trans (h.mem_lineage_super link) (mem_branch_lineage left)

theorem WellFormed.resume_below (h : f.WellFormed) (fits : f.MemoryFits memory) (t : S) :
    ∀ a b, t ∈ f.lineage a → f.resume? memory a = some b → t ∈ f.lineage b := by
  intro a b below next
  exact (h.mem_lineage_iff (h.resume_down fits a b next)).mpr (.inr below)

theorem WellFormed.ends_of_left (h : f.WellFormed) (fits : f.MemoryFits memory) (leaf : f.isComposite current = false)
    (above : ∀ p ∈ pivot?, p ∈ f.lineage current) (left : t ∈ f.branch pivot? current) :
    Ends (f.resume? ((f.branch pivot? current).foldl f.remember memory)) t current := by
  have last : f.resume? ((f.branch pivot? current).foldl f.remember memory) current = none := by
    refine Option.or_eq_none_iff.mpr ⟨?_, h.initial_none_iff.mpr leaf⟩
    by_contra remembered
    obtain ⟨c, found⟩ := Option.ne_none_iff_exists'.mp remembered
    have member := h.sub_iff.mpr ((fits.rememberAll _) current c found)
    simp only [isComposite, Bool.not_eq_false', List.isEmpty_iff] at leaf
    simp [leaf] at member
  generalize depth : f.level current - f.level t = n
  induction n generalizing t with
  | zero =>
    have same : t = current := by
      by_contra other
      have := h.rank_lt_of_mem (mem_branch_lineage left) other
      omega
    rw [same]
    exact .here last
  | succ n ih =>
    have other : t ≠ current := by
      rintro rfl
      omega
    obtain ⟨c, link, inLineage⟩ := h.exists_sub_of_mem (mem_branch_lineage left) other
    obtain ⟨inside, outside⟩ := (h.mem_branch_iff above).mp left
    have leftToo : c ∈ f.branch pivot? current := by
      refine (h.mem_branch_iff above).mpr ⟨inLineage, fun active => outside ?_⟩
      cases pivot? with
      | none => cases active
      | some p => exact h.mem_lineage_trans (h.mem_lineage_super link) active
    have next : f.resume? ((f.branch pivot? current).foldl f.remember memory) t = some c := by
      rw [resume?, h.get?_rememberAll_branch link leftToo]
      rfl
    have := h.rank_sub link
    exact .link next (ih leftToo (by omega))

/-- What inactive states remember. From a state that was left, memory leads to where the machine stood when
    it was left last. Below a state that was never left, nothing is remembered. -/
def Recalls (f : Forest S E F) (memory : Memory S) (active : List S) (contexts : List (Context S E)) : Prop :=
  ∀ t, t ∉ active →
    match lastLeft? contexts t with
    | some context => ∃ leaf, context.state? = some leaf ∧ Ends (f.resume? memory) t leaf
    | none => ∀ a, t ∈ f.lineage a → memory.get? a = none

theorem Recalls.mono (recalls : f.Recalls memory active contexts) (more : ∀ a ∈ active, a ∈ active') :
    f.Recalls memory active' contexts := fun t inactive => recalls t fun member => inactive (more t member)

theorem Recalls.quiet (recalls : f.Recalls memory active contexts) (quiet : ∀ s, ⟨.exit, s⟩ ∉ context.records) :
    f.Recalls memory active (contexts ++ [context]) := by
  intro t inactive
  rw [lastLeft?_append, if_neg (quiet t)]
  exact recalls t inactive

theorem Recalls.leave (recalls : f.Recalls memory (f.lineage current) contexts) (h : f.WellFormed)
    (fits : f.MemoryFits memory) (leaf : f.isComposite current = false)
    (above : ∀ p ∈ pivot?, p ∈ f.lineage current) (state : context.state? = some current)
    (exits : ∀ s, ⟨.exit, s⟩ ∈ context.records ↔ s ∈ f.branch pivot? current) :
    f.Recalls ((f.branch pivot? current).foldl f.remember memory) (f.configuration pivot?) (contexts ++ [context]) := by
  intro t inactive
  rw [lastLeft?_append]
  by_cases left : t ∈ f.branch pivot? current
  · rw [if_pos ((exits t).mpr left)]
    exact ⟨current, state, h.ends_of_left fits leaf above left⟩
  · rw [if_neg fun member => left ((exits t).mp member)]
    have outside : t ∉ f.lineage current := fun inside => left ((h.mem_branch_iff above).mpr ⟨inside, inactive⟩)
    -- nothing below a state outside the lineage has lost or gained a memory
    have kept : ∀ a, t ∈ f.lineage a → ((f.branch pivot? current).foldl f.remember memory).get? a = memory.get? a :=
      fun a below => h.get?_rememberAll_outside fun inside => outside (h.mem_lineage_trans below inside)
    have before := recalls t outside
    cases found : lastLeft? contexts t with
    | none =>
      rw [found] at before
      exact fun a below => (kept a below).trans (before a below)
    | some earlier =>
      rw [found] at before
      obtain ⟨leaf', stood, ends⟩ := before
      refine ⟨leaf', stood, ends.congr (h.resume_below fits t) ?_ (h.mem_lineage_self t)⟩
      intro a below
      rw [resume?, resume?, kept a below]

end Forest

end Statechart
