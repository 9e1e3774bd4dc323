import Statechart.Machine.Basic
import Statechart.Timestamp

namespace Statechart

structure HistoryEntry (S : Type) where
  superState : S
  lastActive : S
deriving DecidableEq

structure Checkpoint (S : Type) where
  version : UInt32
  id : String
  timestamp : Timestamp
  machine : String
  initial? : Option S
  current? : Option S
  history : List (HistoryEntry S)
deriving DecidableEq

namespace Checkpoint

variable {S : Type}

def checkVersion (c : Checkpoint S) : Except (CheckpointError S) Unit :=
  if c.version = checkpointVersion then .ok () else .error (.unsupportedVersion c.version)

end Checkpoint

namespace Machine

variable {S E F X L W : Type} [DecidableEq S]

def rememberedSubStates (m : Machine S E F X L) : List (HistoryEntry S) :=
  m.forest.composites.filterMap fun s => (m.memory.get? s).map fun sub => ⟨s, sub⟩

def save (m : Machine S E F X L) (id : String) (timestamp : Timestamp) : Checkpoint S :=
  ⟨checkpointVersion, id, timestamp, m.name, m.initial?, m.current?, m.rememberedSubStates⟩

def checkKnown (m : Machine S E F X L) (s : S) : Except (CheckpointError S) Unit :=
  if m.forest.contains s then .ok () else .error (.unknownState s)

def checkCurrent (m : Machine S E F X L) (s : S) : Except (CheckpointError S) Unit := do
  m.checkKnown s
  if m.forest.isComposite s then .error (.currentNotLeaf s) else .ok ()

def checkHistory (m : Machine S E F X L) (entry : HistoryEntry S) : Except (CheckpointError S) Unit := do
  m.checkKnown entry.superState
  m.checkKnown entry.lastActive
  if m.forest.super? entry.lastActive = some entry.superState then .ok ()
  else .error (.notSubState entry.lastActive entry.superState)

/-- Restores a saved position. Nothing is entered and no code runs. A checkpoint of a machine that was not
    initialized changes nothing. -/
def load (m : Machine S E F X L) (c : Checkpoint S) (host : Host S E F X L W) :
    Except (CheckpointError S) (Machine S E F X L × Host S E F X L W) := do
  if m.isInitialized then .error .alreadyInitialized
  c.checkVersion
  match c.initial? with
  | none => if c.current?.isSome then .error .currentWithoutInitial else return (m, host)
  | some initial =>
    m.checkKnown initial
    c.current?.forM m.checkCurrent
    c.history.forM m.checkHistory
    let memory := c.history.foldl (fun memory entry => memory.insert entry.superState entry.lastActive) m.memory
    return ({ m with memory := memory, initial? := some initial, current? := c.current? },
      host.log (.loadedCheckpoint m.name c.id c.current?))

end Machine

end Statechart
