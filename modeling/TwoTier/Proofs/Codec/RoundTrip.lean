import TwoTier.Codec
import TwoTier.Config.Shape
import TwoTier.Proofs.Codec.FixedWidth
import TwoTier.Proofs.Codec.JsonText.Value
import TwoTier.Proofs.Codec.MessagePack.Value
import TwoTier.Value.Sample

/-!
# Round trips

What a codec makes of a value, it reads back as that value. This holds for all regular shapes
(`Codec.fixedWidth_takes`, `Codec.messagePack_takes`, `Codec.jsonText_takes`), and so for the values
that are kept in a cache (`Sample.Kept`): `Codec.deserialize_serialize`.

The binary encodings write lengths with a fixed number of bytes, eight and four. No text in memory
is too long for the first, but some are for the second: `MessagePack.read_write_of_length_eq` shows
what becomes of a text whose length is the least that does not fit, and
`Codec.longest_text_read_empty` is the case. JSON text has no such limit, but writes doubles as
decimals.
-/

namespace TwoTier

open Reader

/-! ### What is kept in a cache -/

namespace Sample

/-- The layouts of values that are kept in a cache, doubles and free-form values apart. -/
inductive Kept : {α : Type} → Shape α → Prop
  | text : Kept .text
  | bool : Kept .bool
  | char : Kept .char
  | unit : Kept .unit
  | byte : Kept (.int .byte)
  | nat32 : Kept (.int .nat32)
  | nat64 : Kept (.int .nat64)
  | int64 : Kept (.int .int64)
  | bytes : Kept (.list (.int .byte))
  | nats : Kept (.list (.int .nat32))
  | texts : Kept (.list .text)
  | optionNat : Kept (.option (.int .nat32))
  | natMap : Kept (.map (.int .nat32))
  | byteAndText : Kept (.pair (.int .byte) .text)
  | user : Kept User.shape
  | contactName : Kept ContactName.shape
  | contact : Kept Contact.shape
  | mode : Kept Mode.shape
  | config : Kept Config.shape

variable {α : Type} {s : Shape α}

/-- The modes have distinct names. -/
theorem regular_mode : Mode.shape.Regular := by
  simp only [Mode.shape, Shape.Regular]
  decide

/-- The two parts of a time span have distinct names, and neither may be left out. -/
theorem regular_duration : Duration.shape.Regular := by
  simp only [Duration.shape, Duration.fields, Shape.Regular, Fields.Regular]
  decide

/-- **All of these layouts are regular**, so that no two values of one are written alike. -/
theorem Kept.regular (h : Kept s) : s.Regular := by
  -- the layouts that are built in are regular by their form, of records the names are compared
  cases h with
  | text | bool | char | unit | byte | nat32 | nat64 | int64 | bytes | nats | texts | natMap =>
    trivial
  | optionNat => exact ⟨rfl, trivial⟩
  | byteAndText => exact ⟨trivial, trivial⟩
  | user =>
    simp only [User.shape, User.fields, Shape.Regular, Fields.Regular]
    decide
  | contactName =>
    simp only [ContactName.shape, ContactName.fields, Shape.Regular, Fields.Regular]
    decide
  | contact =>
    simp only [Contact.shape, Contact.fields, Shape.Regular, Fields.Regular]
    decide
  | mode => exact regular_mode
  | config =>
    simp only [Config.shape, Config.fields, Shape.Regular, Fields.Regular, regular_mode,
      regular_duration]
    decide

/-- There is no double in them. -/
theorem Kept.floatFree (h : Kept s) : s.FloatFree := by
  cases h <;>
    simp only [User.shape, User.fields, ContactName.shape, ContactName.fields, Contact.shape,
      Contact.fields, Mode.shape, Config.shape, Config.fields, Duration.shape, Duration.fields,
      Shape.FloatFree, Fields.FloatFree, and_self]

/-- None of them nests deeper than a list of texts, or a configuration with its time spans. -/
theorem Kept.depth_le (h : Kept s) : s.depth ≤ 2 := by
  cases h <;> decide

/-- A contact with an address. -/
def contact : Contact := ⟨⟨7, by decide⟩, "ada", some "ada@example.org"⟩

/-- The texts of the contact fit in a few bytes. -/
theorem fits_contact {width : Nat} (h : 15 < Bytes.bound width) :
    Contact.shape.Fits width contact := by
  refine ⟨trivial, Nat.lt_trans (by decide) h, fun a ha => ?_, trivial⟩
  cases ha
  exact Nat.lt_of_le_of_lt (by decide) h

/-- A text of `n` letters. -/
def letters (n : Nat) : String := String.ofList (List.replicate n 'a')

/-- Each letter is one byte. -/
theorem ofText_letters (n : Nat) : Bytes.ofText (letters n) = List.replicate n 0x61 := by
  rw [letters, Bytes.ofText_ofList, List.flatMap_replicate]
  exact List.flatten_replicate_singleton

/-- So the length in bytes is the number of letters, which makes texts of every length. -/
theorem length_ofText_letters (n : Nat) : (Bytes.ofText (letters n)).length = n := by
  rw [ofText_letters, List.length_replicate]

end Sample

/-! ### Codecs and their readers -/

namespace Codec

variable {α : Type} {s : Shape α} {v : α} {b : Bytes}

/-- A regular value is always written: nothing in it is refused. -/
theorem encode_eq (write : Shape α → α → Bytes) (hs : s.Regular) (v : α) :
    encode write s v = .ok (write s v) := by
  -- only a shape that refuses its values stands in the way, and a regular one has none in it
  rw [encode, s.refusal?_eq_none hs v]

/-- What the reader takes is what the codec gives back; bytes after it are ignored. -/
theorem fixedWidth_of_takes (h : Takes closed (FixedWidth.reader s) b v) (rest : Bytes) :
    fixedWidth.deserialize s (b ++ rest) = .ok v := by
  simp only [fixedWidth, FixedWidth.read, h.run_closed rest]
  rfl

/-- In particular, if there are none. -/
theorem fixedWidth_of_takes_self (h : Takes closed (FixedWidth.reader s) b v) :
    fixedWidth.deserialize s b = .ok v := by
  rw [← List.append_nil b]
  exact fixedWidth_of_takes h []

/-- Where the reader fails, so does the codec. -/
theorem fixedWidth_of_fails (h : (FixedWidth.reader s).Fails b) :
    ∃ e, fixedWidth.deserialize s b = .error e := by
  obtain ⟨e, he⟩ := h
  simp only [fixedWidth, FixedWidth.read, he]
  exact ⟨_, rfl⟩

/-- What the reader takes is what the codec gives back; bytes after it are ignored. -/
theorem messagePack_of_takes (h : Takes closed (MessagePack.reader s MessagePack.maxDepth) b v)
    (rest : Bytes) : messagePack.deserialize s (b ++ rest) = .ok v := by
  simp only [messagePack, MessagePack.read, h.run_closed rest]
  rfl

/-- In particular, if there are none. -/
theorem messagePack_of_takes_self
    (h : Takes closed (MessagePack.reader s MessagePack.maxDepth) b v) :
    messagePack.deserialize s b = .ok v := by
  rw [← List.append_nil b]
  exact messagePack_of_takes h []

/-- Where the reader fails, so does the codec. -/
theorem messagePack_of_fails (h : (MessagePack.reader s MessagePack.maxDepth).Fails b) :
    ∃ e, messagePack.deserialize s b = .error e := by
  obtain ⟨e, he⟩ := h
  simp only [messagePack, MessagePack.read, he]
  exact ⟨_, rfl⟩

/-- JSON text has to end with its value, so this is about the very bytes that the reader takes. -/
theorem jsonText_of_takes {more : UInt8 → Bool}
    (h : Takes more (JsonText.reader s JsonText.maxDepth) b v) :
    jsonText.deserialize s b = .ok v := by
  -- nothing is left, so there is nothing but white space left
  simp only [jsonText, JsonText.read, h.run_self]
  rfl

/-- Where the reader fails, so does the codec. -/
theorem jsonText_of_fails (h : (JsonText.reader s JsonText.maxDepth).Fails b) :
    ∃ e, jsonText.deserialize s b = .error e := by
  obtain ⟨e, he⟩ := h
  simp only [jsonText, JsonText.read, he]
  exact ⟨_, rfl⟩

/-! ### Round trips -/

/-- The fixed-width reader takes what its writer writes, whole. -/
theorem fixedWidth_takes (hs : s.Regular) (hv : s.Fits 8 v) :
    Takes closed (FixedWidth.reader s) (FixedWidth.write s v) v :=
  FixedWidth.takes_reader s hs v hv

/-- The reader of MessagePack takes what its writer writes, whole, if the value nests no deeper than
the reader follows. -/
theorem messagePack_takes (hs : s.Regular) (hd : s.depth ≤ MessagePack.maxDepth)
    (hv : s.Fits 4 v) :
    Takes closed (MessagePack.reader s MessagePack.maxDepth) (MessagePack.write s v) v :=
  MessagePack.takes_reader s hs _ hd v hv

/-- The reader of JSON text takes what its writer writes, up to a byte that goes on with a number,
and as long as there is no double in it. -/
theorem jsonText_takes (hs : s.Regular) (hf : s.FloatFree) (hd : s.depth ≤ JsonText.maxDepth)
    (v : α) :
    Takes (JsonText.ending s) (JsonText.reader s JsonText.maxDepth) (JsonText.write s v) v :=
  JsonText.takes_reader s hs hf _ hd v

/-- No reader runs out of levels on what is kept in a cache. -/
theorem depth_le_of_kept (h : Sample.Kept s) :
    s.depth ≤ JsonText.maxDepth ∧ s.depth ≤ MessagePack.maxDepth :=
  ⟨Nat.le_trans h.depth_le (by decide), Nat.le_trans h.depth_le (by decide)⟩

/-- **What is kept in a cache is read back as it was written**, with each codec; in the binary ones
so is every double, bit by bit. Every value is written. The lengths in it must be ones that the
encoding can write: below `2 ^ 64`, which all lengths are in the memory of a machine, and below
`2 ^ 32`. -/
theorem deserialize_serialize :
    (∀ {α : Type} {s : Shape α}, Sample.Kept s → ∀ v : α,
      (∃ b, jsonText.serialize s v = .ok b ∧ jsonText.deserialize s b = .ok v) ∧
      (∃ b, fixedWidth.serialize s v = .ok b ∧
        (s.Fits 8 v → fixedWidth.deserialize s b = .ok v)) ∧
      (∃ b, messagePack.serialize s v = .ok b ∧
        (s.Fits 4 v → messagePack.deserialize s b = .ok v))) ∧
    ∀ x : Binary64,
      (∃ b, fixedWidth.serialize .float x = .ok b ∧ fixedWidth.deserialize .float b = .ok x) ∧
      (∃ b, messagePack.serialize .float x = .ok b ∧
        messagePack.deserialize .float b = .ok x) := by
  constructor
  · intro α s h v
    have hs := h.regular
    obtain ⟨hjson, hpack⟩ := depth_le_of_kept h
    refine ⟨⟨_, encode_eq _ hs v, ?_⟩, ⟨_, encode_eq _ hs v, fun hv => ?_⟩,
      ⟨_, encode_eq _ hs v, fun hv => ?_⟩⟩
    · -- the text has no lengths in it
      exact jsonText_of_takes (jsonText_takes hs h.floatFree hjson v)
    · -- the lengths are in the value by hypothesis
      exact fixedWidth_of_takes_self (fixedWidth_takes hs hv)
    · -- here they must be lengths that can be announced
      exact messagePack_of_takes_self (messagePack_takes hs hpack hv)
  · intro x
    -- a double is eight bytes in either encoding, whatever its bits mean
    have hs : Shape.float.Regular := trivial
    refine ⟨⟨_, encode_eq _ hs x, ?_⟩, ⟨_, encode_eq _ hs x, ?_⟩⟩
    · exact fixedWidth_of_takes_self (fixedWidth_takes hs trivial)
    · exact messagePack_of_takes_self (messagePack_takes hs (by decide) trivial)

/-- A contact of a short name is kept by all three codecs. -/
theorem deserialize_serialize_contact :
    (∃ b, jsonText.serialize Sample.Contact.shape Sample.contact = .ok b ∧
      jsonText.deserialize Sample.Contact.shape b = .ok Sample.contact) ∧
    (∃ b, fixedWidth.serialize Sample.Contact.shape Sample.contact = .ok b ∧
      fixedWidth.deserialize Sample.Contact.shape b = .ok Sample.contact) ∧
    ∃ b, messagePack.serialize Sample.Contact.shape Sample.contact = .ok b ∧
      messagePack.deserialize Sample.Contact.shape b = .ok Sample.contact := by
  obtain ⟨hjson, ⟨b, hb, hfixed⟩, c, hc, hpacked⟩ :=
    deserialize_serialize.1 Sample.Kept.contact Sample.contact
  exact ⟨hjson, ⟨b, hb, hfixed (Sample.fits_contact (by decide))⟩,
    c, hc, hpacked (Sample.fits_contact (by decide))⟩

/-- **A text that is one byte too long** is announced with the length zero, as only the last four
bytes of its length are kept. So the empty text is read back. -/
theorem messagePack_of_length_eq {v : String} (hlen : (Bytes.ofText v).length = Bytes.bound 4) :
    v ≠ "" ∧ ∃ b, messagePack.serialize .text v = .ok b ∧
      messagePack.deserialize .text b = .ok "" := by
  refine ⟨fun hv => ?_, _, encode_eq _ Sample.Kept.text.regular v, ?_⟩
  · -- the empty text has another length
    rw [hv] at hlen
    exact absurd hlen (by decide)
  · -- for a text in a variable: the bytes of this one are too many to compute with
    show (MessagePack.read .text (MessagePack.write .text v)).mapError _ = _
    rw [MessagePack.read_write_of_length_eq hlen]
    rfl

/-- A text of `2 ^ 32` letters is read back empty from MessagePack. -/
theorem longest_text_read_empty :
    let v := Sample.letters (Bytes.bound 4)
    Sample.Kept .text ∧ v ≠ "" ∧ ∃ b, messagePack.serialize .text v = .ok b ∧
      messagePack.deserialize .text b = .ok "" :=
  ⟨.text, messagePack_of_length_eq (Sample.length_ofText_letters _)⟩

end Codec

end TwoTier
