import TwoTier.Failure
import TwoTier.Codec.JsonText.Read
import TwoTier.Codec.JsonText.Write
import TwoTier.Codec.FixedWidth
import TwoTier.Codec.MessagePack.Read
import TwoTier.Codec.MessagePack.Write

/-!
# Codecs

A **codec** turns the values of every shape into payloads and back. All tiers of a cache hold the
same payloads, so a payload can go from one tier to the other as it is. There are three codecs here
(`Codec.jsonText`, `Codec.fixedWidth`, `Codec.messagePack`); the cache works with any.
-/

namespace TwoTier

/-- What kind of failure an encoding has. -/
inductive CodecFailure.Kind where
  /-- A JSON text cannot be read. -/
  | jsonText (fault : JsonText.Fault)
  /-- Fixed-width bytes cannot be read. -/
  | fixedWidth (fault : FixedWidth.Fault)
  /-- MessagePack bytes cannot be read. -/
  | messagePack (fault : MessagePack.Fault)
  /-- A value has no encoding. -/
  | refused
  /-- A failure of a codec from elsewhere. -/
  | other
deriving DecidableEq, Repr

/-- A failure to encode or decode a value. -/
structure CodecFailure where
  kind : CodecFailure.Kind
  failure : Failure
deriving DecidableEq, Repr

namespace CodecFailure

/-- The text of a fault in a JSON text. -/
def jsonTextFault : JsonText.Fault → String
  | .truncated => "the text ends inside a value"
  | .malformed => "the text is not well formed"
  | .mismatched => "the value is not of the type"

/-- The text of a fault in fixed-width bytes. -/
def fixedWidthFault : FixedWidth.Fault → String
  | .short => "the bytes end inside a value"
  | .badText => "a text is not UTF-8"
  | .badBool => "a truth value is neither 0 nor 1"
  | .badChar => "a character is not UTF-8"
  | .badMark => "the mark of an optional value is neither 0 nor 1"
  | .freeForm => "a free-form value cannot be read"
  | .unacceptable => "the value is not of the type"

/-- The text of a fault in MessagePack bytes. -/
def messagePackFault : MessagePack.Fault → String
  | .noMarker => "the bytes end before a value"
  | .short => "the bytes end inside a value"
  | .wrongMarker => "the marker is not of the type"
  | .wrongLength => "there are more parts than the value has"
  | .badText => "a text is not UTF-8"
  | .mismatched => "the value is not of the type"
  | .tooDeep => "arrays and maps nest too deep"

/-- A fault in a JSON text. -/
def ofJsonText (f : JsonText.Fault) : CodecFailure := ⟨.jsonText f, { text := jsonTextFault f }⟩

/-- A fault in fixed-width bytes. -/
def ofFixedWidth (f : FixedWidth.Fault) : CodecFailure :=
  ⟨.fixedWidth f, { text := fixedWidthFault f }⟩

/-- A fault in MessagePack bytes. -/
def ofMessagePack (f : MessagePack.Fault) : CodecFailure :=
  ⟨.messagePack f, { text := messagePackFault f }⟩

end CodecFailure

/-- Turns the values of every shape into payloads and back. -/
structure Codec where
  /-- The name in messages. -/
  name : String
  /-- The name in outlines. -/
  label : String
  /-- The payload of a value. -/
  serialize : {α : Type} → Shape α → α → Except CodecFailure Bytes
  /-- The value of a payload. -/
  deserialize : {α : Type} → Shape α → Bytes → Except CodecFailure α

namespace Codec

/-- The payload that `write` gives, unless the value has no encoding. -/
def encode {α : Type} (write : Shape α → α → Bytes) (s : Shape α) (v : α) :
    Except CodecFailure Bytes :=
  match s.refusal? v with
  | some reason => .error ⟨.refused, { text := reason }⟩
  | none => .ok (write s v)

/-- JSON text. -/
def jsonText : Codec where
  name := "serde_json"
  label := "JsonCodec"
  serialize := encode JsonText.write
  deserialize s b := (JsonText.read s b).mapError .ofJsonText

/-- The fixed-width encoding. -/
def fixedWidth : Codec where
  name := "bincode"
  label := "BincodeCodec"
  serialize := encode FixedWidth.write
  deserialize s b := (FixedWidth.read s b).mapError .ofFixedWidth

/-- MessagePack. -/
def messagePack : Codec where
  name := "msgpack"
  label := "MsgPackCodec"
  serialize := encode MessagePack.write
  deserialize s b := (MessagePack.read s b).mapError .ofMessagePack

end Codec

end TwoTier
