import Statechart.Proofs.Forest.Definition
import Statechart.Proofs.Forest.Route
import Statechart.Proofs.Walk

namespace Statechart

/-- What a loop does at a place: it has arrived, it goes on, or it cannot go on because something is missing. -/
inductive Turn (α : Type) where
  | arrived
  | onward (place : α)
  | stranded
deriving DecidableEq

namespace Turn

def next? {α : Type} : Turn α → Option α
  | onward place => some place
  | arrived | stranded => none

def ofOption {α : Type} : Option α → Turn α
  | some place => onward place
  | none => stranded

end Turn

namespace Forest

variable {S E F : Type} [DecidableEq S]

def unwindTurn (f : Forest S E F) (source s : S) : Turn S :=
  if s = source then .arrived else .ofOption (f.super? s)

def traverseTurn (f : Forest S E F) (finalTarget : S) (pair : S × S) : Turn (S × S) :=
  if pair.1 = finalTarget then .arrived
  else if pair.1 = pair.2 then .arrived
  else if f.super? pair.1 = f.super? pair.2 then .arrived
  else if f.level pair.2 < f.level pair.1 then .ofOption ((f.super? pair.1).map fun above => (above, pair.2))
  else if f.level pair.1 < f.level pair.2 then .ofOption ((f.super? pair.2).map fun above => (pair.1, above))
  else .ofOption ((f.super? pair.1).bind fun above => (f.super? pair.2).map fun above' => (above, above'))

def relevelTurn (config : List (S × Nat) × Forest S E F) : Turn (List (S × Nat) × Forest S E F) :=
  match config.1.getLast? with
  | none => .arrived
  | some (s, level) => .onward (config.1.dropLast ++ (config.2.subs s).map fun sub => (sub, level + 1),
      config.2.modify s fun node => { node with level := level })

variable {f g : Forest S E F} {rank : S → Nat} {s t source parent sub : S}

/-- The states that are left are those that the loop comes by before it arrives. -/
theorem unwind?_eq_some_iff {steps : Nat} {exits : List S} : f.unwind? source steps s = some exits ↔
    Trail (fun a => (f.unwindTurn source a).next?) s (exits ++ [source]) ∧ exits.length < steps := by
  induction steps generalizing s exits with
  | zero => simp [unwind?]
  | succ steps ih =>
    rw [unwind?]
    by_cases here : s = source
    · have stops : (f.unwindTurn source s).next? = none := by rw [unwindTurn, if_pos here]; rfl
      rw [if_pos here, trail_last_iff stops, here, List.append_eq_singleton_iff]
      simp only [Option.some.injEq]
      constructor
      · rintro rfl
        simp
      · rintro ⟨⟨rfl, _⟩ | ⟨_, impossible⟩, _⟩
        · rfl
        · cases impossible
    rw [if_neg here]
    cases link : f.super? s with
    | none =>
      have stops : (f.unwindTurn source s).next? = none := by rw [unwindTurn, if_neg here, link]; rfl
      rw [trail_last_iff stops, List.append_eq_singleton_iff]
      simp [Ne.symm here]
    | some p =>
      have goesOn : (f.unwindTurn source s).next? = some p := by rw [unwindTurn, if_neg here, link]; rfl
      rw [trail_link_iff goesOn, Option.bind_some, Option.map_eq_some_iff]
      constructor
      · rintro ⟨rest, unwound, rfl⟩
        obtain ⟨trail, short⟩ := ih.mp unwound
        exact ⟨⟨rest ++ [source], rfl, trail⟩, by simpa using short⟩
      · rintro ⟨⟨rest, split, trail⟩, short⟩
        cases exits with
        | nil =>
          cases split
          cases trail
        | cons first exits =>
          cases split
          exact ⟨exits, ih.mpr ⟨trail, by simpa using short⟩, rfl⟩

theorem climb?_isSome (f : Forest S E F) (finalTarget : S) (steps : Nat) (pair : S × S) :
    (f.climb? finalTarget (steps + 1) pair.1 pair.2).isSome = match f.traverseTurn finalTarget pair with
      | .arrived => true
      | .onward next => (f.climb? finalTarget steps next.1 next.2).isSome
      | .stranded => false := by
  obtain ⟨s, t⟩ := pair
  rw [climb?, traverseTurn]
  dsimp only
  split
  · rfl
  split
  · rfl
  split
  · rfl
  split
  · cases f.super? s <;> simp [Turn.ofOption]
  split
  · cases f.super? t <;> simp [Turn.ofOption]
  · cases f.super? s <;> cases f.super? t <;> simp [Turn.ofOption]

/-- There is a route when the recursion arrives, and enough steps are allowed for that. -/
theorem climb?_isSome_iff {finalTarget : S} {steps : Nat} {pair : S × S} :
    (f.climb? finalTarget steps pair.1 pair.2).isSome ↔
      ∃ path met, Trail (fun pair => (f.traverseTurn finalTarget pair).next?) pair (path ++ [met]) ∧
        f.traverseTurn finalTarget met = .arrived ∧ path.length < steps := by
  induction steps generalizing pair with
  | zero => simp [climb?]
  | succ steps ih =>
    rw [climb?_isSome]
    cases turn : f.traverseTurn finalTarget pair with
    | arrived =>
      have stops : (f.traverseTurn finalTarget pair).next? = none := by rw [turn]; rfl
      exact iff_of_true rfl ⟨[], pair, .last stops, turn, by simp⟩
    | stranded =>
      have stops : (f.traverseTurn finalTarget pair).next? = none := by rw [turn]; rfl
      refine iff_of_false (by simp) ?_
      rintro ⟨path, met, trail, arrived, _⟩
      rcases List.append_eq_singleton_iff.mp ((trail_last_iff stops).mp trail) with ⟨_, last⟩ | ⟨_, impossible⟩
      · cases last
        rw [turn] at arrived
        cases arrived
      · cases impossible
    | onward next =>
      have goesOn : (f.traverseTurn finalTarget pair).next? = some next := by rw [turn]; rfl
      dsimp only
      rw [ih]
      constructor
      · rintro ⟨path, met, trail, arrived, short⟩
        exact ⟨pair :: path, met, .link goesOn trail, arrived, by simpa using short⟩
      · rintro ⟨path, met, trail, arrived, short⟩
        obtain ⟨rest, split, trail⟩ := (trail_link_iff goesOn).mp trail
        cases path with
        | nil =>
          cases split
          cases trail
        | cons first path =>
          cases split
          exact ⟨path, met, trail, arrived, by simpa using short⟩

theorem traverseTurn_next {finalTarget : S} {pair next : S × S}
    (goesOn : (f.traverseTurn finalTarget pair).next? = some next) :
    (next.1 = pair.1 ∨ f.super? pair.1 = some next.1) ∧ (next.2 = pair.2 ∨ f.super? pair.2 = some next.2) := by
  unfold traverseTurn at goesOn
  iterate 3
    split at goesOn
    · cases goesOn
  cases link : f.super? pair.1 <;> cases link' : f.super? pair.2 <;> rw [link, link'] at goesOn <;>
    split_ifs at goesOn <;> cases goesOn <;> simp

namespace Ranked

theorem lineage_trail (h : f.Ranked rank) (s : S) : Trail f.super? s (f.lineage s) :=
  (walk?_eq_some_iff.mp (h.lineage?_eq s)).1

theorem unwind_trail (h : f.Ranked f.level) (member : source ∈ f.lineage s) :
    Trail (fun a => (f.unwindTurn source a).next?) s (f.branch (some source) s ++ [source]) :=
  (unwind?_eq_some_iff.mp (h.unwind?_eq f.steps s member (h.rank_lt_steps s))).1

theorem traverse_trail (h : f.Ranked f.level) (known : s ∈ f.keys) (known' : t ∈ f.keys) :
    ∃ path met, Trail (fun pair => (f.traverseTurn t pair).next?) (s, t) (path ++ [met]) ∧
      f.traverseTurn t met = .arrived ∧ ∀ pair ∈ path ++ [met], pair.1 ∈ f.keys ∧ pair.2 ∈ f.keys := by
  have climbed : (f.climb? t (f.level s + f.level t + 1) (s, t).1 (s, t).2).isSome := by
    rw [h.climb?_eq]
    rfl
  obtain ⟨path, met, trail, arrived, _⟩ := climb?_isSome_iff.mp climbed
  refine ⟨path, met, trail, arrived, trail.forall_mem (fun pair next there goesOn => ?_) ⟨known, known'⟩⟩
  have stays {a b : S} (there : a ∈ f.keys) (step : b = a ∨ f.super? a = some b) : b ∈ f.keys := by
    rcases step with rfl | link
    · exact there
    · exact h.super_mem link
  obtain ⟨first, second⟩ := traverseTurn_next goesOn
  exact ⟨stays there.1 first, stays there.2 second⟩

theorem cascade_trail (h : f.Ranked rank) {next : S → Option S} (down : ∀ a b, next a = some b → f.super? b = some a)
    (known : s ∈ f.keys) : ∃ path leaf, Trail next s (path ++ [leaf]) ∧ next leaf = none ∧
      ∀ a ∈ path ++ [leaf], a ∈ f.keys := by
  refine exists_trail (fun a => f.size - rank a) (fun a b _ link => ?_) known
  have linked := down a b link
  have there := mem_of_super linked
  have bound := h.rank_lt_size there
  have deeper := h.rank_sub linked
  exact ⟨there, by omega⟩

theorem subs_wellFounded (h : f.Ranked rank) : WellFounded fun c p => c ∈ f.subs p := by
  refine Subrelation.wf (fun {c p} member => ?_) (measure fun a => f.size - rank a).wf
  have linked := h.sub_iff.mp member
  have bound := h.rank_lt_size (mem_of_super linked)
  have deeper := h.rank_sub linked
  show f.size - rank c < f.size - rank p
  omega

end Ranked

theorem Settling.relevel_trail {pending : List S} (h : f.Ranked rank) (settling : f.Settling rank pending g) :
    ∃ path result, Trail (fun config => (relevelTurn config).next?) (pending.map fun s => (s, rank s), g)
        (path ++ [([], result)]) ∧ f.SameLinks result ∧ (∀ s, result.level s = rank s) ∧
      ∀ config ∈ path, ∀ entry ∈ config.1, entry.1 ∈ f.keys := by
  generalize bound : (f.unsettled pending).card = n
  induction n using Nat.strong_induction_on generalizing pending g with
  | _ n ih =>
    rcases List.eq_nil_or_concat' pending with rfl | ⟨pending, s, rfl⟩
    · exact ⟨[], g, .last rfl, settling.same, settling.done, by simp⟩
    · have first : f.Settling rank (s :: pending) g := settling.perm (List.perm_append_singleton s pending)
      have fewer := h.unsettled_step (first.known s List.mem_cons_self) first.apart
      have listed : f.unsettled (s :: pending) = f.unsettled (pending ++ [s]) := by
        ext a
        simp [mem_unsettled, or_comm]
      rw [listed, bound] at fewer
      obtain ⟨path, result, trail, same, levels, inside⟩ := ih _ fewer (first.step h) rfl
      have goesOn : (relevelTurn ((pending ++ [s]).map fun s => (s, rank s), g)).next? =
          some ((pending ++ f.subs s).map fun s => (s, rank s), g.modify s fun node => { node with level := rank s }) := by
        unfold relevelTurn
        simp [Turn.next?, settling.same.subs, h.subs_ranks]
      refine ⟨_ :: path, result, .link goesOn trail, same, levels, ?_⟩
      rintro config (_ | ⟨_, later⟩) entry member
      · obtain ⟨a, pends, rfl⟩ := List.mem_map.mp member
        exact settling.known a pends
      · exact inside config later entry member

theorem Graftable.relevel_trail (h : f.Graftable parent sub) :
    let linked := f.link parent sub
    ∃ path, Trail (fun config => (relevelTurn config).next?) ([(sub, linked.level parent + 1)], linked)
        (path ++ [([], f.attach parent sub)]) ∧
      ∀ config ∈ path, ∀ entry ∈ config.1, entry.1 ∈ f.keys := by
  intro linked
  obtain ⟨_, same, levels⟩ := h.attach_settled
  obtain ⟨path, result, trail, same', levels', inside⟩ := h.settling.relevel_trail h.link_ranked
  have whole : result = f.attach parent sub :=
    same.eq_of_levels h.link_ranked.keys_nodup same' fun s => (levels' s).trans (levels s).symm
  rw [List.map_singleton, h.graftedLevel_sub, whole] at trail
  exact ⟨path, trail, fun config member entry pends => Graftable.keys_link f parent sub ▸ inside config member entry pends⟩

theorem Placeable.rest {before rest : List S} (h : f.Placeable parent (before ++ rest)) :
    Placeable (before.foldl (Forest.place parent) f) parent rest := by
  induction before generalizing f with
  | nil => exact h
  | cons s before ih => exact ih (h.step h.place)

end Forest

end Statechart
