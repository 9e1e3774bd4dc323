import Statechart.Codec
import Statechart.Proofs.Binary
import Statechart.Proofs.Json.RoundTrip

namespace Statechart

/-- Identifiers are told apart in a text and in bytes, both from each other and from an absent one. -/
class LawfulCodec (S : Type) [Codec S] : Prop where
  plain : ∀ s : S, (Codec.toJson s).Plain
  toJson_ne_null : ∀ s : S, Codec.toJson s ≠ .null
  ofJson?_toJson : ∀ s : S, Codec.ofJson? (Codec.toJson s) = some s
  toBytes_ne_nil : ∀ s : S, Codec.toBytes s ≠ []
  inverts : Binary.Inverts (Codec.toBytes : S → Binary.Bytes) Codec.ofBytes?
  keeps : Binary.Local (Codec.ofBytes? : Binary.Bytes → Option (S × Binary.Bytes))

instance : LawfulCodec Symbol where
  plain symbol := .text symbol.name
  toJson_ne_null _ := Json.Value.noConfusion
  ofJson?_toJson _ := rfl
  toBytes_ne_nil symbol := Binary.writeText_ne_nil symbol.name
  inverts := Binary.inverts_text.wrap fun _ => rfl
  keeps := Binary.local_text?.wrap Symbol.mk

instance : LawfulCodec Label where
  plain label := .text label.text
  toJson_ne_null _ := Json.Value.noConfusion
  ofJson?_toJson _ := rfl
  toBytes_ne_nil label := Binary.writeText_ne_nil label.text
  inverts := Binary.inverts_text.wrap fun _ => rfl
  keeps := Binary.local_text?.wrap Label.mk

instance : LawfulCodec Int64 where
  plain n := .integer n.toInt
  toJson_ne_null _ := Json.Value.noConfusion
  ofJson?_toJson n := by
    show int64OfInt? n.toInt = some n
    rw [int64OfInt?, Int64.ofInt_toInt, if_pos rfl]
  toBytes_ne_nil n := by
    apply List.ne_nil_of_length_pos
    show 0 < (Binary.littleEndian 8 n.toUInt64.toNat).length
    rw [Binary.length_littleEndian]
    decide
  inverts := by
    intro n _ rest
    have small : n.toUInt64.toNat < 256 ^ 8 := n.toUInt64.toNat_lt
    show (Binary.number? 8 (Binary.littleEndian 8 n.toUInt64.toNat ++ rest)).map _ = _
    simp only [Binary.number?_littleEndian small, Option.map_some, UInt64.ofNat_toNat]
    rfl
  keeps := (Binary.local_number? 8).wrap fun n => (UInt64.ofNat n).toInt64

end Statechart
