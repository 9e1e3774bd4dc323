import Statechart.Checkpoint.Text
import Statechart.Proofs.Codec
import Statechart.Proofs.Timestamp.Text

namespace Statechart

open Json (Value)

variable {S : Type} [Codec S] [LawfulCodec S]

namespace HistoryEntry

omit [LawfulCodec S] in
theorem toJson_eq_record (entry : HistoryEntry S) : entry.toJson =
    .record ["super_state", "last_active"] [Codec.toJson entry.superState, Codec.toJson entry.lastActive] := rfl

theorem toJson_plain (entry : HistoryEntry S) : entry.toJson.Plain := by
  rw [toJson_eq_record]
  apply Value.Plain.record
  intro value member
  simp only [List.mem_cons, List.not_mem_nil, or_false] at member
  rcases member with rfl | rfl <;> exact LawfulCodec.plain _

theorem ofJson?_toJson (entry : HistoryEntry S) : ofJson? entry.toJson = some entry := by
  have distinct : ["super_state", "last_active"].Nodup := by decide
  unfold ofJson?
  rw [toJson_eq_record, Json.fields?_record distinct rfl]
  simp only [List.map_cons, List.map_nil, LawfulCodec.ofJson?_toJson, Option.bind_eq_bind, Option.bind_some]
  rfl

end HistoryEntry

namespace Checkpoint

section Fields

theorem optionToJson_plain (s? : Option S) : (optionToJson s?).Plain := by
  cases s? with
  | none => exact .null
  | some s => exact LawfulCodec.plain s

theorem optionOfJson?_optionToJson (s? : Option S) : optionOfJson? (some (optionToJson s?)) = some s? := by
  cases s? with
  | none => rfl
  | some s =>
    have present : optionToJson (some s) ≠ .null := LawfulCodec.toJson_ne_null s
    rw [optionOfJson?]
    · rw [optionToJson, LawfulCodec.ofJson?_toJson, Option.map_some]
    · exact present

omit [Codec S] [LawfulCodec S] in
theorem versionOfJson?_integer (version : UInt32) : versionOfJson? (.integer version.toNat) = some version := by
  have small : (0 : Int) ≤ version.toNat ∧ (version.toNat : Int) < UInt32.size :=
    ⟨Int.natCast_nonneg _, Int.ofNat_lt.mpr version.toNat_lt⟩
  rw [versionOfJson?, Value.asInteger?, Option.bind_some, if_pos small, Int.toNat_natCast, UInt32.ofNat_toNat]

theorem timestampOfJson?_render (t : Timestamp) : timestampOfJson? (.text (some (String.ofList t.render))) = some t := by
  rw [timestampOfJson?, Value.asText?, Option.bind_some, String.toList_ofList, Timestamp.parse?_render]

theorem historyOfJson?_map (history : List (HistoryEntry S)) :
    historyOfJson? (.array (history.map HistoryEntry.toJson)) = some history := by
  rw [historyOfJson?]
  induction history with
  | nil => rfl
  | cons entry history ih =>
    rw [List.map_cons, List.mapM_cons, ih, HistoryEntry.ofJson?_toJson]
    rfl

end Fields

section Record

omit [LawfulCodec S] in
theorem ofValue?_record {c : Checkpoint S} {version id timestamp machine initial current history : Value}
    (versionRead : versionOfJson? version = some c.version) (idRead : id.asText? = some c.id)
    (timestampRead : timestampOfJson? timestamp = some c.timestamp) (machineRead : machine.asText? = some c.machine)
    (initialRead : optionOfJson? (some initial) = some c.initial?)
    (currentRead : optionOfJson? (some current) = some c.current?)
    (historyRead : historyOfJson? history = some c.history) :
    ofValue? (.record fieldNames [version, id, timestamp, machine, initial, current, history]) = some c := by
  have distinct : fieldNames.Nodup := by decide
  have fields := Json.fields?_record distinct
    (show fieldNames.length = [version, id, timestamp, machine, initial, current, history].length from rfl)
  unfold ofValue?
  rw [fields]
  refine Option.bind_eq_some_iff.mpr ⟨_, rfl, ?_⟩
  refine Option.bind_eq_some_iff.mpr ⟨_, versionRead, ?_⟩
  refine Option.bind_eq_some_iff.mpr ⟨_, idRead, ?_⟩
  refine Option.bind_eq_some_iff.mpr ⟨_, timestampRead, ?_⟩
  refine Option.bind_eq_some_iff.mpr ⟨_, machineRead, ?_⟩
  refine Option.bind_eq_some_iff.mpr ⟨_, initialRead, ?_⟩
  refine Option.bind_eq_some_iff.mpr ⟨_, currentRead, ?_⟩
  exact Option.bind_eq_some_iff.mpr ⟨_, historyRead, rfl⟩

def fieldValues (c : Checkpoint S) : List Value := [.integer c.version.toNat, .text (some c.id),
  .text (some (String.ofList c.timestamp.render)), .text (some c.machine), optionToJson c.initial?,
  optionToJson c.current?, .array (c.history.map HistoryEntry.toJson)]

omit [LawfulCodec S] in
theorem toValue_eq_record (c : Checkpoint S) : c.toValue = .record fieldNames c.fieldValues := rfl

theorem ofValue?_toValue (c : Checkpoint S) : ofValue? c.toValue = some c := by
  rw [toValue_eq_record]
  apply ofValue?_record
  · exact versionOfJson?_integer c.version
  · rfl
  · exact timestampOfJson?_render c.timestamp
  · rfl
  · exact optionOfJson?_optionToJson c.initial?
  · exact optionOfJson?_optionToJson c.current?
  · exact historyOfJson?_map c.history

theorem toValue_plain (c : Checkpoint S) : c.toValue.Plain := by
  rw [toValue_eq_record]
  apply Value.Plain.record
  intro value member
  simp only [fieldValues, List.mem_cons, List.not_mem_nil, or_false] at member
  rcases member with rfl | rfl | rfl | rfl | rfl | rfl | rfl
  · exact .integer _
  · exact .text _
  · exact .text _
  · exact .text _
  · exact optionToJson_plain _
  · exact optionToJson_plain _
  · apply Value.Plain.array
    intro element member
    obtain ⟨entry, _, rfl⟩ := List.mem_map.mp member
    exact entry.toJson_plain

end Record

theorem ofJson_toJson (c : Checkpoint S) : ofJson c.toJson = c.checkVersion.map fun _ => c := by
  have parsed : Json.parse? c.toJson = some c.toValue := Json.parse?_write c.toValue_plain .indented
  have read : (Json.parse? c.toJson).bind ofValue? = some c := by rw [parsed, Option.bind_some, ofValue?_toValue]
  unfold ofJson
  rw [read]

omit [Codec S] [LawfulCodec S] in
theorem checkVersion_map (c : Checkpoint S) : (c.checkVersion.map fun _ => c) =
    if c.version = checkpointVersion then .ok c else .error (.unsupportedVersion c.version) := by
  rw [checkVersion]
  split <;> rfl

omit [LawfulCodec S] in
theorem version_of_ofJson {text : String} {c : Checkpoint S} (read : ofJson text = .ok c) :
    c.version = checkpointVersion := by
  unfold ofJson at read
  split at read
  · cases read
  · rw [checkVersion_map] at read
    split at read
    · rename_i supported
      cases read
      exact supported
    · cases read

/-- Reading undoes writing, whatever the names and texts of a checkpoint consist of, and a checkpoint that was read
    from any text can be written and read again without a loss. -/
theorem ofJson_lossless :
    (∀ c : Checkpoint S, ofJson c.toJson =
      if c.version = checkpointVersion then .ok c else .error (.unsupportedVersion c.version)) ∧
    ∀ (text : String) (c : Checkpoint S), ofJson text = .ok c → ofJson c.toJson = .ok c := by
  refine ⟨fun c => ?_, fun text c read => ?_⟩
  · rw [ofJson_toJson, checkVersion_map]
  · rw [ofJson_toJson, checkVersion_map, if_pos (version_of_ofJson read)]

def dusk : Checkpoint Symbol where
  version := 1
  id := "a\"b"
  timestamp := ⟨⟨2024, 3, 1⟩, ⟨1800, 500000000⟩, by decide⟩
  machine := "lamp"
  initial? := some ⟨"on"⟩
  current? := none
  history := [⟨⟨"on"⟩, ⟨"off"⟩⟩]

theorem ofJson_lossless_dusk :
    let text := "[1, \"\\u0061\\\"b\", \"2024-02-29T23:30:00.5-01:00\", \"lamp\",\n\"on\", null, [[\"on\", \"off\"]]]"
    ofJson (S := Symbol) text = .ok dusk ∧ ofJson (S := Symbol) dusk.toJson = .ok dusk ∧
      ofJson (S := Symbol) { dusk with version := 2 }.toJson = .error (.unsupportedVersion 2) := by
  intro text
  have read : ofJson (S := Symbol) text = .ok dusk := by decide +kernel
  exact ⟨read, ofJson_lossless.2 text dusk read, ofJson_lossless.1 { dusk with version := 2 }⟩

end Checkpoint

end Statechart
