import Statechart.Checkpoint.Binary
import Statechart.Proofs.Checkpoint.Text

namespace Statechart

open Binary

variable {S : Type} [Codec S] [LawfulCodec S]

namespace HistoryEntry

theorem toBytes_ne_nil (entry : HistoryEntry S) : entry.toBytes ≠ [] :=
  List.append_ne_nil_of_left_ne_nil (LawfulCodec.toBytes_ne_nil entry.superState) _

theorem inverts : Inverts (toBytes : HistoryEntry S → Bytes) ofBytes? := by
  intro entry fits rest
  rw [toBytes, List.length_append] at fits
  have superState := LawfulCodec.inverts entry.superState (show _ < 2 ^ 64 by omega)
  have lastActive := LawfulCodec.inverts entry.lastActive (show _ < 2 ^ 64 by omega)
  unfold ofBytes? toBytes
  simp only [List.append_assoc, superState, lastActive, Option.bind_eq_bind, Option.bind_some]
  rfl

theorem keeps : Local (ofBytes? : Bytes → Option (HistoryEntry S × Bytes)) := by
  intro bytes entry rest read more
  obtain ⟨⟨superState, bytes'⟩, first, read⟩ := Option.bind_eq_some_iff.mp read
  obtain ⟨⟨lastActive, rest'⟩, second, same⟩ := Option.bind_eq_some_iff.mp read
  cases same
  unfold ofBytes?
  simp only [LawfulCodec.keeps _ _ _ first more, LawfulCodec.keeps _ _ _ second more, Option.bind_eq_bind,
    Option.bind_some]
  rfl

end HistoryEntry

namespace Checkpoint

theorem inverts : Inverts (toBytes : Checkpoint S → Bytes) take? := by
  intro c fits rest
  unfold toBytes at fits ⊢
  simp only [List.length_append] at fits
  have version := number?_littleEndian (show _ < 256 ^ 4 from c.version.toNat_lt)
  have id := inverts_text c.id (by omega)
  have timestamp := inverts_text (String.ofList c.timestamp.render) (by omega)
  have machine := inverts_text c.machine (by omega)
  have initial := (LawfulCodec.inverts (S := S)).option c.initial? (by omega)
  have current := (LawfulCodec.inverts (S := S)).option c.current? (by omega)
  have history := (HistoryEntry.inverts (S := S)).list HistoryEntry.toBytes_ne_nil c.history (by omega)
  unfold take?
  simp only [List.append_assoc, version, id, timestamp, String.toList_ofList, Timestamp.parse?_render, machine, initial,
    current, history, Option.bind_eq_bind, Option.bind_some, UInt32.ofNat_toNat]
  rfl

theorem keeps : Local (take? : Bytes → Option (Checkpoint S × Bytes)) := by
  intro bytes c rest read more
  obtain ⟨⟨version, _⟩, versionRead, read⟩ := Option.bind_eq_some_iff.mp read
  obtain ⟨⟨id, _⟩, idRead, read⟩ := Option.bind_eq_some_iff.mp read
  obtain ⟨⟨text, _⟩, textRead, read⟩ := Option.bind_eq_some_iff.mp read
  obtain ⟨timestamp, timestampRead, read⟩ := Option.bind_eq_some_iff.mp read
  obtain ⟨⟨machine, _⟩, machineRead, read⟩ := Option.bind_eq_some_iff.mp read
  obtain ⟨⟨initial?, _⟩, initialRead, read⟩ := Option.bind_eq_some_iff.mp read
  obtain ⟨⟨current?, _⟩, currentRead, read⟩ := Option.bind_eq_some_iff.mp read
  obtain ⟨⟨history, _⟩, historyRead, same⟩ := Option.bind_eq_some_iff.mp read
  cases same
  unfold take?
  simp only [local_number? 4 _ _ _ versionRead more, local_text? _ _ _ idRead more, local_text? _ _ _ textRead more,
    timestampRead, local_text? _ _ _ machineRead more, LawfulCodec.keeps.option? _ _ _ initialRead more,
    LawfulCodec.keeps.option? _ _ _ currentRead more, HistoryEntry.keeps.list? _ _ _ historyRead more,
    Option.bind_eq_bind, Option.bind_some]
  rfl

theorem ofBytes_toBytes {c : Checkpoint S} (fits : c.toBytes.length < 2 ^ 64) (rest : Bytes) :
    ofBytes (c.toBytes ++ rest) = c.checkVersion.map fun _ => c := by
  unfold ofBytes
  rw [inverts c fits rest]

/-- Reading undoes writing and stops where the checkpoint does: what follows it is ignored and what breaks off before
    its end is refused. So no two checkpoints share their bytes, and the bytes are read as the text is. An encoding
    that exceeds the range of the lengths in it does not fit into memory. -/
theorem ofBytes_lossless (c : Checkpoint S) (fits : c.toBytes.length < 2 ^ 64) :
    (∀ rest, ofBytes (c.toBytes ++ rest) =
      if c.version = checkpointVersion then .ok c else .error (.unsupportedVersion c.version)) ∧
    (∀ bytes, bytes <+: c.toBytes → bytes ≠ c.toBytes → ofBytes (S := S) bytes = .error .malformed) ∧
    (∀ (c' : Checkpoint S) (rest rest' : Bytes), c'.toBytes.length < 2 ^ 64 →
      c.toBytes ++ rest = c'.toBytes ++ rest' → c = c' ∧ rest = rest') ∧
    ∀ rest, ofBytes (S := S) (c.toBytes ++ rest) = ofJson c.toJson := by
  refine ⟨fun rest => ?whole, fun bytes part strict => ?cut, fun c' rest rest' fits' same => ?injective, fun rest => ?text⟩
  case whole => rw [ofBytes_toBytes fits, checkVersion_map]
  case cut =>
    have nothing := inverts.eq_none_of_prefix keeps fits part strict
    unfold ofBytes
    rw [nothing]
  case injective => exact inverts.append_inj fits fits' same
  case text => rw [ofBytes_toBytes fits, ofJson_toJson]

theorem ofBytes_lossless_dusk :
    let standing : Checkpoint Symbol := { dusk with current? := some ⟨"off"⟩ }
    let part := dusk.toBytes.take 40
    dusk.toBytes.length < 2 ^ 64 ∧ standing.toBytes.length < 2 ^ 64 ∧ part <+: dusk.toBytes ∧ part ≠ dusk.toBytes ∧
      ofBytes (dusk.toBytes ++ [7]) = .ok dusk ∧ ofBytes (S := Symbol) part = .error .malformed ∧
      (∀ rest, dusk.toBytes ++ rest ≠ standing.toBytes) ∧ ofBytes (S := Symbol) dusk.toBytes = ofJson dusk.toJson := by
  intro standing part
  have fits : dusk.toBytes.length < 2 ^ 64 := by decide +kernel
  have fits' : standing.toBytes.length < 2 ^ 64 := by decide +kernel
  have starts : part <+: dusk.toBytes := List.take_prefix 40 _
  have strict : part ≠ dusk.toBytes := by decide +kernel
  obtain ⟨whole, cut, injective, text⟩ := ofBytes_lossless dusk fits
  refine ⟨fits, fits', starts, strict, whole [7], cut part starts strict, fun rest same => ?_, ?_⟩
  · have equal := injective standing rest [] fits' (same.trans (List.append_nil _).symm)
    exact absurd equal.1 (by decide)
  · have read := text []
    rwa [List.append_nil] at read

end Checkpoint

end Statechart
