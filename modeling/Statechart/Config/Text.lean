import Statechart.Config
import Statechart.History
import Statechart.Json.Reader
import Statechart.Json.Writer

namespace Statechart

namespace Config

def fieldNames : List String := ["name", "worker_thread_name", "log_transitions"]

def toValue (config : Config) : Json.Value :=
  .object [
    (some "name", .text (some config.name)),
    (some "worker_thread_name", match config.workerThread? with
      | none => .null
      | some thread => .text (some thread)),
    (some "log_transitions", .bool config.logTransitions)]

/-- Settings that are left out keep their standard values. Only the thread name may be null. -/
def ofValue? (value : Json.Value) : Option Config := do
  match ← value.fields? fieldNames with
  | [name?, thread?, log?] =>
    let name ← match name? with
      | none => some standardName
      | some value => value.asText?
    let workerThread? ← match thread? with
      | none | some .null => some none
      | some value => value.asText?.map some
    let logTransitions ← match log? with
      | none => some false
      | some value => value.asBool?
    return ⟨name, workerThread?, logTransitions⟩
  | _ => none

def toJson (config : Config) : String := Json.compact config.toValue

def ofJson? (s : String) : Option Config := (Json.parse? s).bind ofValue?

end Config

namespace HistoryType

def toJson (history : HistoryType) : String := Json.compact (.text (some history.name))

def ofValue? : Json.Value → Option HistoryType
  | .text (some name) => ofName? name
  | .object [(some name, .null)] => ofName? name
  | _ => Option.none

def ofJson? (s : String) : Option HistoryType := (Json.parse? s).bind ofValue?

end HistoryType

end Statechart
