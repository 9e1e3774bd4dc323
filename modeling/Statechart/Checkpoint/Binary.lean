import Statechart.Checkpoint
import Statechart.Codec
import Statechart.Timestamp.Text

namespace Statechart

open Binary

variable {S : Type} [Codec S]

def HistoryEntry.toBytes (entry : HistoryEntry S) : Bytes :=
  Codec.toBytes entry.superState ++ Codec.toBytes entry.lastActive

def HistoryEntry.ofBytes? (bytes : Bytes) : Option (HistoryEntry S × Bytes) := do
  let (superState, bytes) ← Codec.ofBytes? bytes
  let (lastActive, bytes) ← Codec.ofBytes? bytes
  return (⟨superState, lastActive⟩, bytes)

namespace Checkpoint

def toBytes (c : Checkpoint S) : Bytes :=
  littleEndian 4 c.version.toNat ++ writeText c.id ++ writeText (String.ofList c.timestamp.render) ++
    writeText c.machine ++ writeOption Codec.toBytes c.initial? ++ writeOption Codec.toBytes c.current? ++
    writeList HistoryEntry.toBytes c.history

def take? (bytes : Bytes) : Option (Checkpoint S × Bytes) := do
  let (version, bytes) ← number? 4 bytes
  let (id, bytes) ← text? bytes
  let (timestamp, bytes) ← text? bytes
  let timestamp ← Timestamp.parse? timestamp.toList
  let (machine, bytes) ← text? bytes
  let (initial?, bytes) ← option? Codec.ofBytes? bytes
  let (current?, bytes) ← option? Codec.ofBytes? bytes
  let (history, bytes) ← list? HistoryEntry.ofBytes? bytes
  return (⟨UInt32.ofNat version, id, timestamp, machine, initial?, current?, history⟩, bytes)

/-- Reads a checkpoint. Bytes that follow it are ignored. -/
def ofBytes (bytes : Bytes) : Except (CheckpointError S) (Checkpoint S) :=
  match take? bytes with
  | none => .error .malformed
  | some (c, _) => c.checkVersion.map fun _ => c

end Checkpoint

end Statechart
