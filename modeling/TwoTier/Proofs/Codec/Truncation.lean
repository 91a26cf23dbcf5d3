import TwoTier.Proofs.Codec.RoundTrip

/-!
# Payloads that were cut short

A payload of which the end is missing is never taken for a value (`Codec.RefusesCuts`). The binary
encodings are closed forms, so that a payload also ends by itself: what comes after it is not looked
at (`Codec.Delimits`). In JSON text bare numbers are the exception, since the first digits of a
number are a number too; any other text, cut anywhere, also inside an escape or a character, is a
fault. For what is kept in a cache this is `Codec.refusesCuts_and_delimits`.
-/

namespace TwoTier.Codec

open Reader

variable {α : Type} {s : Shape α} {v : α} {b : Bytes}

/-- No strict prefix of the payload is decoded. -/
def RefusesCuts (c : Codec) (s : Shape α) (b : Bytes) : Prop :=
  ∀ p, p <+: b → p ≠ b → ∃ e, c.deserialize s p = .error e

/-- The payload is decoded as the value, whatever comes after it. -/
def Delimits (c : Codec) (s : Shape α) (b : Bytes) (v : α) : Prop :=
  ∀ rest, c.deserialize s (b ++ rest) = .ok v

/-- What is read up to its end and no further is not read from a part of it, … -/
theorem refusesCuts_fixedWidth (h : Takes closed (FixedWidth.reader s) b v) :
    fixedWidth.RefusesCuts s b :=
  fun _ hp hne => fixedWidth_of_fails (h.fails_of_prefix hp hne)

/-- … in each of the binary encodings … -/
theorem refusesCuts_messagePack
    (h : Takes closed (MessagePack.reader s MessagePack.maxDepth) b v) :
    messagePack.RefusesCuts s b :=
  fun _ hp hne => messagePack_of_fails (h.fails_of_prefix hp hne)

/-- … and in JSON text. -/
theorem refusesCuts_jsonText (h : Takes closed (JsonText.reader s JsonText.maxDepth) b v) :
    jsonText.RefusesCuts s b :=
  fun _ hp hne => jsonText_of_fails (h.fails_of_prefix hp hne)

/-- **A payload that was cut short is never decoded**, and a binary payload ends by itself; the
lengths in it must be ones that the encoding can write. In JSON text this holds of all values but
bare numbers. -/
theorem refusesCuts_and_delimits :
    (∀ {α : Type} {s : Shape α}, Sample.Kept s → ∀ v : α,
      (∃ b, fixedWidth.serialize s v = .ok b ∧
        (s.Fits 8 v → fixedWidth.RefusesCuts s b ∧ fixedWidth.Delimits s b v)) ∧
      (∃ b, messagePack.serialize s v = .ok b ∧
        (s.Fits 4 v → messagePack.RefusesCuts s b ∧ messagePack.Delimits s b v)) ∧
      (JsonText.isNumber s = false →
        ∃ b, jsonText.serialize s v = .ok b ∧ jsonText.RefusesCuts s b)) ∧
    ∀ x : Binary64,
      (∃ b, fixedWidth.serialize .float x = .ok b ∧
        fixedWidth.RefusesCuts .float b ∧ fixedWidth.Delimits .float b x) ∧
      (∃ b, messagePack.serialize .float x = .ok b ∧
        messagePack.RefusesCuts .float b ∧ messagePack.Delimits .float b x) := by
  constructor
  · intro α s h v
    have hs := h.regular
    -- no shape that is kept nests deeper than a reader goes
    obtain ⟨hjson, hpack⟩ := depth_le_of_kept h
    refine ⟨⟨_, encode_eq _ hs v, fun hv => ?_⟩, ⟨_, encode_eq _ hs v, fun hv => ?_⟩,
      fun hn => ⟨_, encode_eq _ hs v, ?_⟩⟩
    · have ht := fixedWidth_takes hs hv
      exact ⟨refusesCuts_fixedWidth ht, fixedWidth_of_takes ht⟩
    · have ht := messagePack_takes hs hpack hv
      exact ⟨refusesCuts_messagePack ht, messagePack_of_takes ht⟩
    · have ht := jsonText_takes hs h.floatFree hjson v
      -- what is no bare number ends by itself
      rw [JsonText.ending, hn] at ht
      exact refusesCuts_jsonText ht
  · intro x
    -- doubles are their bits in both binary encodings
    have hs : Shape.float.Regular := trivial
    have hfixed := fixedWidth_takes (v := x) hs trivial
    have hpacked := messagePack_takes (v := x) hs (by decide) trivial
    exact ⟨⟨_, encode_eq _ hs x, refusesCuts_fixedWidth hfixed, fixedWidth_of_takes hfixed⟩,
      ⟨_, encode_eq _ hs x, refusesCuts_messagePack hpacked, messagePack_of_takes hpacked⟩⟩

/-- A contact, cut anywhere, is decoded from none of its encodings. -/
theorem refusesCuts_and_delimits_contact :
    (∃ b, fixedWidth.serialize Sample.Contact.shape Sample.contact = .ok b ∧
      fixedWidth.RefusesCuts Sample.Contact.shape b ∧
      fixedWidth.Delimits Sample.Contact.shape b Sample.contact) ∧
    (∃ b, messagePack.serialize Sample.Contact.shape Sample.contact = .ok b ∧
      messagePack.RefusesCuts Sample.Contact.shape b ∧
      messagePack.Delimits Sample.Contact.shape b Sample.contact) ∧
    ∃ b, jsonText.serialize Sample.Contact.shape Sample.contact = .ok b ∧
      jsonText.RefusesCuts Sample.Contact.shape b := by
  obtain ⟨⟨b, hb, hfixed⟩, ⟨c, hc, hpacked⟩, hjson⟩ :=
    refusesCuts_and_delimits.1 Sample.Kept.contact Sample.contact
  exact ⟨⟨b, hb, hfixed (Sample.fits_contact (by decide))⟩,
    ⟨c, hc, hpacked (Sample.fits_contact (by decide))⟩, hjson rfl⟩

/-- What MessagePack makes of a text whose length is the least that it cannot announce begins with
an empty text. -/
theorem messagePack_cut_of_length_eq {v : String}
    (hlen : (Bytes.ofText v).length = Bytes.bound 4) :
    ∃ b, messagePack.serialize .text v = .ok b ∧ [0xa0] <+: b ∧ [0xa0] ≠ b := by
  refine ⟨_, encode_eq _ Sample.Kept.text.regular v, ?_⟩
  rw [MessagePack.write, MessagePack.writeText_of_length_eq hlen]
  refine ⟨⟨_, rfl⟩, fun h => ?_⟩
  -- the text is not empty, so there is more than that first byte
  have hempty : Bytes.ofText v = [] := List.self_eq_append_right.mp h
  rw [hempty] at hlen
  exact absurd hlen (by decide)

/-- The first byte of a text of `2 ^ 32` letters is decoded, as an empty text, and so is all of it,
with what it says passed over. -/
theorem longest_text_decoded_from_cut :
    let v := Sample.letters (Bytes.bound 4)
    Sample.Kept .text ∧ ∃ b, messagePack.serialize .text v = .ok b ∧ [0xa0] <+: b ∧ [0xa0] ≠ b ∧
      messagePack.deserialize .text [0xa0] = .ok "" := by
  obtain ⟨b, hb, hcut, hne⟩ := messagePack_cut_of_length_eq (Sample.length_ofText_letters _)
  have hempty : (Bytes.ofText "").length < Bytes.bound 4 := by decide
  exact ⟨.text, b, hb, hcut, hne, messagePack_of_takes_self
    (messagePack_takes (v := "") Sample.Kept.text.regular (by decide) hempty)⟩

end TwoTier.Codec
