import Mathlib.Algebra.Group.Nat.Defs
import Statechart.Binary

namespace Statechart.Binary

variable {α β : Type} {bytes rest taken more : Bytes} {count : Nat}
variable {write : α → Bytes} {read? : Bytes → Option (α × Bytes)}

section Number

theorem length_littleEndian (count n : Nat) : (littleEndian count n).length = count := by
  induction count generalizing n with
  | zero => rfl
  | succ count ih => rw [littleEndian, List.length_cons, ih]

theorem ofLittleEndian_littleEndian (count n : Nat) : ofLittleEndian (littleEndian count n) = n % 256 ^ count := by
  induction count generalizing n with
  | zero => exact (Nat.mod_one n).symm
  | succ count ih =>
    calc ofLittleEndian (littleEndian (count + 1) n)
      _ = (UInt8.ofNat n).toNat + 256 * ofLittleEndian (littleEndian count (n / 256)) := rfl
      _ = n % 256 + 256 * (n / 256 % 256 ^ count) := by rw [ih, UInt8.toNat_ofNat']
      _ = n % 256 ^ (count + 1) := by rw [Nat.pow_succ', Nat.mod_mul]

theorem take?_eq_some : take? count bytes = some (taken, rest) ↔ bytes = taken ++ rest ∧ taken.length = count := by
  constructor
  · intro read
    simp only [take?] at read
    split at read
    · rename_i whole
      cases read
      exact ⟨(List.take_append_drop count bytes).symm, whole⟩
    · cases read
  · rintro ⟨rfl, rfl⟩
    simp [take?]

theorem number?_littleEndian {n : Nat} (small : n < 256 ^ count) (rest : Bytes) :
    number? count (littleEndian count n ++ rest) = some (n, rest) := by
  simp only [number?, take?_eq_some.mpr ⟨rfl, length_littleEndian count n⟩, Option.map_some,
    ofLittleEndian_littleEndian, Nat.mod_eq_of_lt small]

end Number

/-- Whatever is written is read back, as long as it fits into memory, and nothing that follows it is touched. -/
def Inverts (write : α → Bytes) (read? : Bytes → Option (α × Bytes)) : Prop :=
  ∀ a, (write a).length < 2 ^ 64 → ∀ rest, read? (write a ++ rest) = some (a, rest)

/-- What has been read does not depend on what follows. -/
def Local (read? : Bytes → Option (α × Bytes)) : Prop :=
  ∀ bytes a rest, read? bytes = some (a, rest) → ∀ more, read? (bytes ++ more) = some (a, rest ++ more)

namespace Inverts

theorem append_inj (inverts : Inverts write read?) {a b : α} (fits : (write a).length < 2 ^ 64)
    (fits' : (write b).length < 2 ^ 64) (same : write a ++ rest = write b ++ more) : a = b ∧ rest = more := by
  have read := inverts a fits rest
  rw [same, inverts b fits' more] at read
  cases read
  exact ⟨rfl, rfl⟩

theorem eq_none_of_prefix (inverts : Inverts write read?) (steady : Local read?) {a : α} (fits : (write a).length < 2 ^ 64)
    (part : bytes <+: write a) (strict : bytes ≠ write a) : read? bytes = none := by
  obtain ⟨missing, whole⟩ := part
  cases cut : read? bytes with
  | none => rfl
  | some result =>
    have longer := steady bytes result.1 result.2 cut missing
    have read := inverts a fits []
    rw [List.append_nil, ← whole, longer] at read
    have nothing : result.2 ++ missing = [] := (Prod.mk.inj (Option.some.inj read)).2
    rw [(List.append_eq_nil_iff.mp nothing).2, List.append_nil] at whole
    exact absurd whole strict

end Inverts

section Local

theorem local_number? (count : Nat) : Local (number? count) := by
  intro bytes n rest read more
  obtain ⟨⟨taken, _⟩, took, same⟩ := Option.map_eq_some_iff.mp read
  cases same
  obtain ⟨rfl, whole⟩ := take?_eq_some.mp took
  rw [number?, List.append_assoc, take?_eq_some.mpr ⟨rfl, whole⟩, Option.map_some]

theorem local_text? : Local text? := by
  intro bytes s rest read more
  obtain ⟨⟨length, bytes'⟩, counted, read⟩ := Option.bind_eq_some_iff.mp read
  obtain ⟨⟨taken, rest'⟩, took, read⟩ := Option.bind_eq_some_iff.mp read
  obtain ⟨s', decoded, same⟩ := Option.bind_eq_some_iff.mp read
  cases same
  obtain ⟨rfl, whole⟩ := take?_eq_some.mp took
  unfold text?
  simp only [local_number? 8 _ _ _ counted more, List.append_assoc, take?_eq_some.mpr ⟨rfl, whole⟩,
    Option.bind_eq_bind, Option.bind_some, decoded]
  rfl

theorem Local.wrap (steady : Local read?) (wrap : α → β) :
    Local (fun bytes => (read? bytes).map fun (a, rest) => (wrap a, rest)) := by
  intro bytes b rest read more
  obtain ⟨⟨a, _⟩, found, same⟩ := Option.map_eq_some_iff.mp read
  cases same
  simp only [steady _ _ _ found more, Option.map_some]

theorem Local.option? (steady : Local read?) : Local (option? read?) := by
  intro bytes a? rest read more
  unfold Binary.option? at read
  split at read
  · cases read
    rfl
  · rename_i bytes'
    obtain ⟨⟨a, _⟩, found, same⟩ := Option.map_eq_some_iff.mp read
    cases same
    rw [List.cons_append, Binary.option?, steady _ _ _ found, Option.map_some]
  · cases read

theorem Local.many? (steady : Local read?) (count : Nat) : Local (many? read? count) := by
  induction count with
  | zero =>
    intro bytes as rest read more
    cases read
    rfl
  | succ count ih =>
    intro bytes as rest read more
    obtain ⟨⟨a, bytes'⟩, first, read⟩ := Option.bind_eq_some_iff.mp read
    obtain ⟨⟨as', _⟩, others, same⟩ := Option.map_eq_some_iff.mp read
    cases same
    simp only [Binary.many?, steady _ _ _ first, Option.bind_some, ih _ _ _ others, Option.map_some]

theorem Local.list? (steady : Local read?) : Local (list? read?) := by
  intro bytes as rest read more
  obtain ⟨⟨count, bytes'⟩, counted, read⟩ := Option.bind_eq_some_iff.mp read
  simp only [Binary.list?, local_number? 8 _ _ _ counted, Option.bind_some, steady.many? count _ _ _ read]

end Local

section Inverts

theorem length_writeText (s : String) : (writeText s).length = 8 + s.utf8ByteSize := by
  rw [writeText, List.length_append, length_littleEndian]
  rfl

theorem writeText_ne_nil (s : String) : writeText s ≠ [] := by
  apply List.ne_nil_of_length_pos
  rw [length_writeText]
  omega

theorem inverts_text : Inverts writeText text? := by
  intro s fits rest
  rw [length_writeText] at fits
  have length : s.toUTF8.data.toList.length = s.utf8ByteSize := rfl
  have decoded : String.fromUTF8? s.toUTF8 = some s := dif_pos s.isValidUTF8
  unfold text? writeText
  simp only [List.append_assoc, number?_littleEndian (show s.utf8ByteSize < 256 ^ 8 by omega), Option.bind_eq_bind,
    Option.bind_some, take?_eq_some.mpr ⟨rfl, length⟩]
  simp only [Array.toArray_toList, decoded]
  rfl

theorem Inverts.wrap (inverts : Inverts write read?) {wrap : α → β} {unwrap : β → α} (inverse : ∀ b, wrap (unwrap b) = b) :
    Inverts (fun b => write (unwrap b)) (fun bytes => (read? bytes).map fun (a, rest) => (wrap a, rest)) := by
  intro b fits rest
  simp only [inverts (unwrap b) fits rest, Option.map_some, inverse]

theorem Inverts.option (inverts : Inverts write read?) : Inverts (writeOption write) (option? read?) := by
  intro a? fits rest
  cases a? with
  | none => rfl
  | some a =>
    rw [writeOption, List.length_cons] at fits
    rw [writeOption, List.cons_append, option?, inverts a (by omega) rest, Option.map_some]

theorem Inverts.many (inverts : Inverts write read?) (as : List α) (fits : (as.flatMap write).length < 2 ^ 64)
    (rest : Bytes) : many? read? as.length (as.flatMap write ++ rest) = some (as, rest) := by
  induction as with
  | nil => rfl
  | cons a as ih =>
    rw [List.flatMap_cons, List.length_append] at fits
    simp only [List.flatMap_cons, List.append_assoc, List.length_cons, many?, inverts a (show _ < 2 ^ 64 by omega),
      Option.bind_some, ih (show _ < 2 ^ 64 by omega), Option.map_some]

theorem length_le_flatMap (proper : ∀ a, write a ≠ []) (as : List α) : as.length ≤ (as.flatMap write).length := by
  induction as with
  | nil => exact Nat.le_refl 0
  | cons a as ih =>
    have positive := List.length_pos_iff.mpr (proper a)
    rw [List.flatMap_cons, List.length_append, List.length_cons]
    omega

theorem Inverts.list (inverts : Inverts write read?) (proper : ∀ a, write a ≠ []) :
    Inverts (writeList write) (list? read?) := by
  intro as fits rest
  rw [writeList, List.length_append, length_littleEndian] at fits
  have short := length_le_flatMap proper as
  have counted := number?_littleEndian (show as.length < 256 ^ 8 by omega) (as.flatMap write ++ rest)
  simp only [writeList, List.append_assoc, list?, counted, Option.bind_some]
  exact inverts.many as (by omega) rest

end Inverts

end Statechart.Binary
