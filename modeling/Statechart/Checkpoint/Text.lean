import Statechart.Checkpoint
import Statechart.Codec
import Statechart.Json.Reader
import Statechart.Json.Writer
import Statechart.Timestamp.Text

namespace Statechart

variable {S : Type} [Codec S]

def HistoryEntry.toJson (entry : HistoryEntry S) : Json.Value :=
  .object [
    (some "super_state", Codec.toJson entry.superState),
    (some "last_active", Codec.toJson entry.lastActive)]

def HistoryEntry.ofJson? (value : Json.Value) : Option (HistoryEntry S) := do
  match ← value.fields? ["super_state", "last_active"] with
  | [some superState, some lastActive] => return ⟨← Codec.ofJson? superState, ← Codec.ofJson? lastActive⟩
  | _ => none

namespace Checkpoint

def fieldNames : List String :=
  ["version", "id", "timestamp", "machine", "initial_state", "current_state", "history"]

def optionToJson : Option S → Json.Value
  | none => .null
  | some s => Codec.toJson s

def optionOfJson? : Option Json.Value → Option (Option S)
  | none | some .null => some none
  | some value => (Codec.ofJson? value).map some

def versionOfJson? (value : Json.Value) : Option UInt32 :=
  value.asInteger?.bind fun n => if 0 ≤ n ∧ n < UInt32.size then some (UInt32.ofNat n.toNat) else none

def timestampOfJson? (value : Json.Value) : Option Timestamp :=
  value.asText?.bind fun s => Timestamp.parse? s.toList

def historyOfJson? : Json.Value → Option (List (HistoryEntry S))
  | .array entries => entries.mapM HistoryEntry.ofJson?
  | _ => none

def toValue (c : Checkpoint S) : Json.Value :=
  .object [
    (some "version", .integer c.version.toNat),
    (some "id", .text (some c.id)),
    (some "timestamp", .text (some (String.ofList c.timestamp.render))),
    (some "machine", .text (some c.machine)),
    (some "initial_state", optionToJson c.initial?),
    (some "current_state", optionToJson c.current?),
    (some "history", .array (c.history.map HistoryEntry.toJson))]

def ofValue? (value : Json.Value) : Option (Checkpoint S) := do
  if let .array elements := value then guard (elements.length = fieldNames.length)
  match ← value.fields? fieldNames with
  | [some version, some id, some timestamp, some machine, initial?, current?, some history] =>
    return {
      version := ← versionOfJson? version
      id := ← id.asText?
      timestamp := ← timestampOfJson? timestamp
      machine := ← machine.asText?
      initial? := ← optionOfJson? initial?
      current? := ← optionOfJson? current?
      history := ← historyOfJson? history }
  | _ => none

def toJson (c : Checkpoint S) : String := Json.pretty c.toValue

/-- Reads a checkpoint. Its version is looked at only when everything else is in order. -/
def ofJson (s : String) : Except (CheckpointError S) (Checkpoint S) :=
  match (Json.parse? s).bind ofValue? with
  | none => .error .malformed
  | some c => c.checkVersion.map fun _ => c

end Checkpoint

end Statechart
