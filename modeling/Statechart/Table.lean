namespace Statechart

/-- A finite map that keeps its keys in the order in which they were first added. -/
structure Table (K V : Type) where
  entries : List (K × V)
deriving DecidableEq

namespace Table

variable {K V : Type} [DecidableEq K]

def empty : Table K V := ⟨[]⟩

instance : Inhabited (Table K V) := ⟨empty⟩

def keys (t : Table K V) : List K := t.entries.map Prod.fst

def values (t : Table K V) : List V := t.entries.map Prod.snd

def size (t : Table K V) : Nat := t.entries.length

def get? (t : Table K V) (k : K) : Option V := (t.entries.find? fun entry => entry.1 = k).map Prod.snd

def contains (t : Table K V) (k : K) : Bool := k ∈ t.keys

def position? (t : Table K V) (k : K) : Option Nat := t.entries.findIdx? fun entry => entry.1 = k

def ensure (t : Table K V) (k : K) (v : V) : Table K V :=
  if t.contains k then t else ⟨t.entries ++ [(k, v)]⟩

def modify (t : Table K V) (k : K) (f : V → V) : Table K V :=
  ⟨t.entries.map fun entry => if entry.1 = k then (entry.1, f entry.2) else entry⟩

def insert (t : Table K V) (k : K) (v : V) : Table K V := (t.ensure k v).modify k fun _ => v

omit [DecidableEq K] in
@[simp] theorem keys_empty : (empty : Table K V).keys = [] := rfl

@[simp] theorem get?_empty (k : K) : (empty : Table K V).get? k = none := rfl

theorem contains_iff {t : Table K V} {k : K} : t.contains k = true ↔ k ∈ t.keys := by
  simp [contains]

theorem get?_isSome_iff {t : Table K V} {k : K} : (t.get? k).isSome ↔ k ∈ t.keys := by
  simp [get?, keys, List.find?_isSome]

theorem get?_eq_none_iff {t : Table K V} {k : K} : t.get? k = none ↔ k ∉ t.keys := by
  rw [← Option.not_isSome_iff_eq_none, get?_isSome_iff]

theorem position?_eq_some_iff {t : Table K V} {k : K} {i : Nat} (distinct : t.keys.Nodup) :
    t.position? k = some i ↔ t.keys[i]? = some k := by
  unfold position? keys at *
  rw [List.findIdx?_eq_some_iff_getElem, List.getElem?_eq_some_iff]
  constructor
  · rintro ⟨bound, here, _⟩
    exact ⟨by rwa [List.length_map], by simpa using here⟩
  · rintro ⟨bound, here⟩
    have inside : i < t.entries.length := by rwa [List.length_map] at bound
    have key : t.entries[i].1 = k := by simpa using here
    refine ⟨inside, by simpa using key, fun j earlier => ?_⟩
    simp only [decide_eq_true_eq]
    intro same
    have apart := List.pairwise_iff_getElem.mp distinct j i (by rw [List.length_map]; omega) bound earlier
    exact apart (by simp [same, key])

theorem keys_ensure (t : Table K V) (k : K) (v : V) :
    (t.ensure k v).keys = if k ∈ t.keys then t.keys else t.keys ++ [k] := by
  unfold ensure
  by_cases h : k ∈ t.keys
  · rw [if_pos (contains_iff.mpr h), if_pos h]
  · rw [if_neg (by simpa [contains] using h), if_neg h]
    simp [keys]

@[simp] theorem keys_modify (t : Table K V) (k : K) (f : V → V) : (t.modify k f).keys = t.keys := by
  simp only [keys, modify, List.map_map]
  apply List.map_congr_left
  intro entry _
  simp only [Function.comp_apply]
  split <;> rfl

theorem get?_ensure (t : Table K V) (k j : K) (v : V) :
    (t.ensure k v).get? j = if j = k ∧ k ∉ t.keys then some v else t.get? j := by
  unfold ensure
  by_cases h : k ∈ t.keys
  · simp [contains_iff.mpr h, h]
  · have absent := get?_eq_none_iff.mpr h
    by_cases hj : j = k
    · subst hj
      simp only [contains, h, decide_false, Bool.false_eq_true, if_false, get?, List.find?_append]
      simp only [get?, Option.map_eq_none_iff] at absent
      simp [absent]
    · simp [contains, h, hj, get?, List.find?_append, Ne.symm hj]

theorem get?_modify (t : Table K V) (k j : K) (f : V → V) :
    (t.modify k f).get? j = if j = k then (t.get? j).map f else t.get? j := by
  simp only [get?, modify, List.find?_map]
  have same : ((fun entry : K × V => decide (entry.1 = j)) ∘
      fun entry => if entry.1 = k then (entry.1, f entry.2) else entry) = fun entry => decide (entry.1 = j) := by
    funext entry
    simp only [Function.comp_apply]
    split <;> rfl
  rw [same]
  cases found : t.entries.find? fun entry => entry.1 = j with
  | none => simp
  | some entry =>
    have key : entry.1 = j := by simpa using List.find?_some found
    subst key
    simp only [Option.map_some]
    split <;> rfl

theorem get?_insert (t : Table K V) (k j : K) (v : V) :
    (t.insert k v).get? j = if j = k then some v else t.get? j := by
  rw [insert, get?_modify, get?_ensure]
  by_cases hj : j = k
  · subst hj
    by_cases h : j ∈ t.keys
    · obtain ⟨w, hw⟩ := Option.isSome_iff_exists.mp (get?_isSome_iff.mpr h)
      simp [h, hw]
    · simp [h]
  · simp [hj]

end Table

end Statechart
