import Statechart.Binary
import Statechart.Identifier
import Statechart.Json.Value

namespace Statechart

/-- How identifiers stand in checkpoints, as text and as bytes. -/
class Codec (α : Type) where
  toJson : α → Json.Value
  ofJson? : Json.Value → Option α
  toBytes : α → Binary.Bytes
  ofBytes? : Binary.Bytes → Option (α × Binary.Bytes)

instance : Codec Symbol where
  toJson symbol := .text (some symbol.name)
  ofJson? value := value.asText?.map Symbol.mk
  toBytes symbol := Binary.writeText symbol.name
  ofBytes? bytes := (Binary.text? bytes).map fun (name, rest) => (⟨name⟩, rest)

instance : Codec Label where
  toJson label := .text (some label.text)
  ofJson? value := value.asText?.map Label.mk
  toBytes label := Binary.writeText label.text
  ofBytes? bytes := (Binary.text? bytes).map fun (text, rest) => (⟨text⟩, rest)

def int64OfInt? (n : Int) : Option Int64 :=
  if (Int64.ofInt n).toInt = n then some (Int64.ofInt n) else none

instance : Codec Int64 where
  toJson n := .integer n.toInt
  ofJson? value := value.asInteger?.bind int64OfInt?
  toBytes n := Binary.littleEndian 8 n.toUInt64.toNat
  ofBytes? bytes := (Binary.number? 8 bytes).map fun (n, rest) => ((UInt64.ofNat n).toInt64, rest)

end Statechart
