import TwoTier.Proofs.Codec.RoundTrip

/-!
# Records of another version

`Sample.Contact` is `Sample.ContactName` with one more field, an address that may be missing. What
was stored in one form and is read in the other depends on the encoding:

* in JSON text and in MessagePack fields have names. A contact that was stored without an address is
  read as one whose address is not known, and the address of one that was stored with it is passed
  over; the order of the stored fields makes no difference.
* in the fixed-width encoding fields are told by their places. The bytes of a contact without an
  address end where an address is expected, which is a fault and never an address; those of a
  contact with an address begin with those of the same contact without.

`Codec.deserialize_other_form` says this of all contacts.
-/

namespace TwoTier

open Reader

namespace Sample

/-- The stored entries of a contact without an address, in the order of its fields. -/
def ContactName.entries (write : {α : Type} → Shape α → α → Bytes) (c : ContactName) :
    List (String × Bytes) :=
  ContactName.fields.entries write (c.id, c.name, ())

/-- The stored entries of a contact, in the order of its fields. -/
def Contact.entries (write : {α : Type} → Shape α → α → Bytes) (c : Contact) :
    List (String × Bytes) :=
  Contact.fields.entries write (c.id, c.name, c.email, ())

/-- The contact without its address. -/
def Contact.toContactName (c : Contact) : ContactName := ⟨c.id, c.name⟩

/-- The contact with an address that is not known. -/
def ContactName.toContact (c : ContactName) : Contact := ⟨c.id, c.name, none⟩

section Holds

variable {P : {α : Type} → Shape α → α → Bytes → Prop}
  {write : {α : Type} → Shape α → α → Bytes}

/-- What was stored without an address are fields of a contact whose address is not known. -/
theorem ContactName.holds_contact {c : ContactName} {e : String × Bytes}
    (h : ContactName.fields.All (fun s a => P s a (write s a)) (c.id, c.name, ()))
    (he : e ∈ c.entries write) :
    Contact.fields.Holds P (c.id, c.name, none, ()) e.1 e.2 := by
  rcases List.mem_cons.mp he with rfl | he
  · exact Fields.holds_head.mpr h.1
  · cases List.mem_singleton.mp he
    exact (Fields.holds_tail (show "name" ≠ "id" by decide)).mpr (Fields.holds_head.mpr h.2.1)

/-- What was stored of a contact are fields of the contact without its address, and the address. -/
theorem Contact.holds_contactName {c : Contact} {e : String × Bytes}
    (h : Contact.fields.All (fun s a => P s a (write s a)) (c.id, c.name, c.email, ()))
    (he : e ∈ c.entries write) :
    ContactName.fields.Holds P (c.id, c.name, ()) e.1 e.2 ∨
      e = ("email", write (.option .text) c.email) := by
  rcases List.mem_cons.mp he with rfl | he
  · exact .inl (Fields.holds_head.mpr h.1)
  · rcases List.mem_cons.mp he with rfl | he
    · exact .inl ((Fields.holds_tail (show "name" ≠ "id" by decide)).mpr
        (Fields.holds_head.mpr h.2.1))
    · exact .inr (List.mem_singleton.mp he)

end Holds

/-- The names that were stored, in whatever order. -/
theorem ContactName.map_fst_entries {write : {α : Type} → Shape α → α → Bytes} {c : ContactName}
    {es : List (String × Bytes)} (hes : es.Perm (c.entries write)) :
    (es.map (·.1)).Perm ["id", "name"] :=
  hes.map (·.1)

/-- With an address there are three of them. -/
theorem Contact.map_fst_entries {write : {α : Type} → Shape α → α → Bytes} {c : Contact}
    {es : List (String × Bytes)} (hes : es.Perm (c.entries write)) :
    (es.map (·.1)).Perm ["id", "name", "email"] :=
  hes.map (·.1)

/-- In a contact that was stored without an address, all fields are there or have their
fallback. -/
theorem ContactName.restored {known : List String} (h : known.Perm ["id", "name"])
    (c : ContactName) : Contact.fields.Restored known (c.id, c.name, none, ()) :=
  ⟨.inl (h.mem_iff.mpr (by decide)), .inl (h.mem_iff.mpr (by decide)), .inr rfl, trivial⟩

/-- In a contact that was stored with an address, the fields of one without are all there. -/
theorem Contact.restored {known : List String} (h : known.Perm ["id", "name", "email"])
    (c : Contact) : ContactName.fields.Restored known (c.id, c.name, ()) :=
  ⟨.inl (h.mem_iff.mpr (by decide)), .inl (h.mem_iff.mpr (by decide)), trivial⟩

end Sample

open Sample

/-! ### JSON text -/

namespace JsonText

variable {es : List (String × Bytes)}

theorem write_contactName (c : ContactName) :
    write ContactName.shape c = writeObject (c.entries write) :=
  write_record c

theorem write_contact (c : Contact) : write Contact.shape c = writeObject (c.entries write) :=
  write_record c

/-- **Without an address**, the fields are taken in any order, and the address falls back. -/
theorem takes_contact_of_contactName {c : ContactName} (hes : es.Perm (c.entries write)) :
    Takes closed (reader Contact.shape maxDepth) (writeObject es) c.toContact := by
  have hall := all_takes ContactName.fields Kept.contactName.regular.2.2 Kept.contactName.floatFree
    126 (by decide) (c.id, c.name, ())
  -- each entry is that of a field of a contact
  have hplace (e) (he : e ∈ es) : InPlace false Contact.fields 126 (c.id, c.name, none, ()) e :=
    .inl (ContactName.holds_contact hall (hes.mem_iff.mp he))
  have hnames := ContactName.map_fst_entries hes
  rw [Contact.shape, reader]
  exact takes_record (by decide) hplace (hnames.nodup_iff.mpr (by decide))
    (ContactName.restored hnames c) rfl

/-- **With an address**, the fields are taken in any order, and the address is passed over. -/
theorem takes_contactName_of_contact {c : Contact} (hes : es.Perm (c.entries write)) :
    Takes closed (reader ContactName.shape maxDepth) (writeObject es) c.toContactName := by
  have hall := all_takes Contact.fields Kept.contact.regular.2.2 Kept.contact.floatFree
    126 (by decide) (c.id, c.name, c.email, ())
  -- the address, or that there is none, is a value that can be passed over
  have hskip : Takes goesOn skip (write (.option .text) c.email) () := by
    cases c.email with
    | none => exact takes_skip_null
    | some a => exact takes_skip_text a
  have hplace (e) (he : e ∈ es) : InPlace false ContactName.fields 126 (c.id, c.name, ()) e := by
    rcases Contact.holds_contactName (P := fun s a w => Takes goesOn (reader s 126) w a) hall
      (hes.mem_iff.mp he) with hfield | rfl
    · -- a field of the shorter form, or the address, which is of no field there
      exact .inl hfield
    · exact .inr ⟨rfl, show "email" ∉ ContactName.fields.names by decide, hskip⟩
  have hnames := Contact.map_fst_entries hes
  rw [ContactName.shape, reader]
  exact takes_record (by decide) hplace (hnames.nodup_iff.mpr (by decide))
    (Contact.restored hnames c) rfl

end JsonText

/-! ### MessagePack -/

namespace MessagePack

variable {es : List (String × Bytes)}

theorem write_contactName (c : ContactName) :
    write ContactName.shape c = writeMap (c.entries write) :=
  write_record c

theorem write_contact (c : Contact) : write Contact.shape c = writeMap (c.entries write) :=
  write_record c

/-- **Without an address**, as in JSON text, if the name can be announced. -/
theorem takes_contact_of_contactName {c : ContactName} (hc : ContactName.shape.Fits 4 c)
    (hes : es.Perm (c.entries write)) :
    Takes closed (reader Contact.shape maxDepth) (writeMap es) c.toContact := by
  have hall := all_takes ContactName.fields Kept.contactName.regular.2.2 1022 (by decide)
    (c.id, c.name, ()) hc
  have hnames := ContactName.map_fst_entries hes
  -- the names of the fields are short, and each entry is that of a field
  have hplace (e) (he : e ∈ es) : InPlace false Contact.fields 1022 (c.id, c.name, none, ()) e := by
    refine ⟨?_, .inl (ContactName.holds_contact hall (hes.mem_iff.mp he))⟩
    refine shortName_of_mem_names ContactName.fields Kept.contactName.regular.2.2 ?_
    exact hnames.mem_iff.mp (List.mem_map_of_mem he)
  have hlen : es.length < Bytes.bound 4 := by
    rw [hes.length_eq]
    exact (by decide : 2 < Bytes.bound 4)
  rw [Contact.shape, reader]
  exact takes_record (by decide) hlen hplace (hnames.nodup_iff.mpr (by decide))
    (ContactName.restored hnames c) rfl

/-- **With an address**, as in JSON text, if the name and the address can be announced. -/
theorem takes_contactName_of_contact {c : Contact} (hc : Contact.shape.Fits 4 c)
    (hes : es.Perm (c.entries write)) :
    Takes closed (reader ContactName.shape maxDepth) (writeMap es) c.toContactName := by
  have hall := all_takes Contact.fields Kept.contact.regular.2.2 1022 (by decide)
    (c.id, c.name, c.email, ()) hc
  have hskip : Takes closed (skip 1022) (write (.option .text) c.email) () :=
    takes_skip (.option .text) ⟨rfl, trivial⟩ 1022 (by decide) c.email hc.2.2.1
  have hnames := Contact.map_fst_entries hes
  have hplace (e) (he : e ∈ es) : InPlace false ContactName.fields 1022 (c.id, c.name, ()) e := by
    refine ⟨?_, ?_⟩
    · refine shortName_of_mem_names Contact.fields Kept.contact.regular.2.2 ?_
      exact hnames.mem_iff.mp (List.mem_map_of_mem he)
    · rcases Contact.holds_contactName (P := fun s a w => Takes closed (reader s 1022) w a) hall
        (hes.mem_iff.mp he) with hfield | rfl
      · exact .inl hfield
      · exact .inr ⟨rfl, show "email" ∉ ContactName.fields.names by decide, hskip⟩
  have hlen : es.length < Bytes.bound 4 := by
    rw [hes.length_eq]
    exact (by decide : 3 < Bytes.bound 4)
  rw [ContactName.shape, reader]
  exact takes_record (by decide) hlen hplace (hnames.nodup_iff.mpr (by decide))
    (Contact.restored hnames c) rfl

/-- The name is the last field, so a name that is too long to be announced stands behind a contact
without a name. -/
theorem write_contactName_of_length_eq (id : Id) {name : String}
    (hlen : (Bytes.ofText name).length = Bytes.bound 4) :
    write ContactName.shape ⟨id, name⟩ = write ContactName.shape ⟨id, ""⟩ ++ Bytes.ofText name := by
  rw [ContactName.shape, write, write]
  simp only [ContactName.fields, writeFields, write, writeText_of_length_eq hlen,
    List.append_assoc, List.append_nil]

end MessagePack

/-! ### The fixed-width encoding -/

namespace FixedWidth

/-- A fault in the fields after the first one. -/
theorem fails_fieldsReader_cons {α β : Type} {name : String} {fallback : Option α} {s : Shape α}
    {rest : Fields β} {w r : Bytes} {a : α} (h : (reader s).run w = .ok (a, r))
    (hrest : (fieldsReader rest).Fails r) :
    (fieldsReader (.cons name fallback s rest)).Fails w := by
  rw [fieldsReader]
  exact .bind_right h (hrest.bind _)

/-- The bytes of a contact without an address end where the mark of an address is expected. -/
theorem fails_contact_of_contactName {c : ContactName} (hc : ContactName.shape.Fits 8 c) :
    (reader Contact.shape).Fails (write ContactName.shape c) := by
  have hid := takes_reader (.int .nat64) trivial c.id trivial
  have hname := takes_reader .text trivial c.name hc.2.1
  -- the input ends where a mark says whether there is an address
  have hemail : (fieldsReader (.cons "email" (some none) (.option .text) .nil)).Fails [] := by
    rw [fieldsReader, reader]
    exact ((fails_byte_nil Fault.short).bind _).bind _
  have hfields : (fieldsReader Contact.fields).Fails
      (write (.int .nat64) c.id ++ write .text c.name) :=
    fails_fieldsReader_cons (hid.run_closed _) (fails_fieldsReader_cons hname.run_self hemail)
  have hbytes : write ContactName.shape c = writeFields ContactName.fields (c.id, c.name, ()) := by
    rw [ContactName.shape, write]
  rw [hbytes, ContactName.fields, writeFields, writeFields, writeFields, List.append_nil,
    Contact.shape, reader]
  exact hfields.bind _

/-- The bytes of a contact begin with those of the contact without its address. -/
theorem write_contact_eq (c : Contact) :
    write Contact.shape c =
      write ContactName.shape c.toContactName ++ write (.option .text) c.email := by
  rw [Contact.shape, ContactName.shape, write, write]
  simp only [Contact.fields, ContactName.fields, writeFields, List.append_assoc, List.append_nil,
    Contact.toContactName]

end FixedWidth

/-! ### The codecs -/

namespace Codec

/-- **A name that is one byte too long** is announced as empty, and its bytes stand where the
contact has ended. -/
theorem other_form_of_length_eq (id : Id) {name : String}
    (hlen : (Bytes.ofText name).length = Bytes.bound 4) :
    name ≠ "" ∧ ∃ b, messagePack.serialize ContactName.shape ⟨id, name⟩ = .ok b ∧
      messagePack.deserialize Contact.shape b = .ok ⟨id, "", none⟩ := by
  have hfits : ContactName.shape.Fits 4 ⟨id, ""⟩ :=
    ⟨trivial, show (Bytes.ofText "").length < Bytes.bound 4 by decide, trivial⟩
  have htakes := MessagePack.takes_contact_of_contactName hfits (.refl _)
  refine ⟨(messagePack_of_length_eq hlen).1, _, encode_eq _ Kept.contactName.regular _, ?_⟩
  rw [MessagePack.write_contactName_of_length_eq id hlen, MessagePack.write_contactName]
  exact messagePack_of_takes htakes _

/-- **A record can be read in its other form**, by all codecs that name the fields, in whatever
order they were stored. The codec without names refuses to read an address that was not stored, and
ignores one that was. The lengths must be ones that the encoding can write. -/
theorem deserialize_other_form (c : ContactName) (d : Contact) :
    -- JSON text
    (jsonText.serialize ContactName.shape c =
        .ok (JsonText.writeObject (c.entries JsonText.write)) ∧
      ∀ es, es.Perm (c.entries JsonText.write) →
        jsonText.deserialize Contact.shape (JsonText.writeObject es) =
          .ok ⟨c.id, c.name, none⟩) ∧
    (jsonText.serialize Contact.shape d =
        .ok (JsonText.writeObject (d.entries JsonText.write)) ∧
      ∀ es, es.Perm (d.entries JsonText.write) →
        jsonText.deserialize ContactName.shape (JsonText.writeObject es) = .ok ⟨d.id, d.name⟩) ∧
    -- MessagePack
    (messagePack.serialize ContactName.shape c =
        .ok (MessagePack.writeMap (c.entries MessagePack.write)) ∧
      (ContactName.shape.Fits 4 c → ∀ es, es.Perm (c.entries MessagePack.write) →
        messagePack.deserialize Contact.shape (MessagePack.writeMap es) =
          .ok ⟨c.id, c.name, none⟩)) ∧
    (messagePack.serialize Contact.shape d =
        .ok (MessagePack.writeMap (d.entries MessagePack.write)) ∧
      (Contact.shape.Fits 4 d → ∀ es, es.Perm (d.entries MessagePack.write) →
        messagePack.deserialize ContactName.shape (MessagePack.writeMap es) =
          .ok ⟨d.id, d.name⟩)) ∧
    -- the fixed-width encoding
    (∃ b, fixedWidth.serialize ContactName.shape c = .ok b ∧
      (ContactName.shape.Fits 8 c → ∃ e, fixedWidth.deserialize Contact.shape b = .error e)) ∧
    ∃ b, fixedWidth.serialize Contact.shape d = .ok b ∧
      (Contact.shape.Fits 8 d →
        fixedWidth.deserialize ContactName.shape b = .ok ⟨d.id, d.name⟩) := by
  have hc := Kept.contactName.regular
  have hd := Kept.contact.regular
  refine ⟨⟨?_, fun es hes => ?_⟩, ⟨?_, fun es hes => ?_⟩, ⟨?_, fun hfits es hes => ?_⟩,
    ⟨?_, fun hfits es hes => ?_⟩, ⟨_, encode_eq _ hc c, fun hfits => ?_⟩,
    ⟨_, encode_eq _ hd d, fun hfits => ?_⟩⟩
  · rw [← JsonText.write_contactName]
    exact encode_eq _ hc c
  · exact jsonText_of_takes (JsonText.takes_contact_of_contactName hes)
  · rw [← JsonText.write_contact]
    exact encode_eq _ hd d
  · exact jsonText_of_takes (JsonText.takes_contactName_of_contact hes)
  · rw [← MessagePack.write_contactName]
    exact encode_eq _ hc c
  · exact messagePack_of_takes_self (MessagePack.takes_contact_of_contactName hfits hes)
  · rw [← MessagePack.write_contact]
    exact encode_eq _ hd d
  · exact messagePack_of_takes_self (MessagePack.takes_contactName_of_contact hfits hes)
  · exact fixedWidth_of_fails (FixedWidth.fails_contact_of_contactName hfits)
  · have ht := fixedWidth_takes (v := d.toContactName) hc ⟨trivial, hfits.2.1, trivial⟩
    rw [FixedWidth.write_contact_eq]
    exact fixedWidth_of_takes ht _

/-- A contact without an address is read as one whose address is not known, although its fields were
stored in the opposite order. -/
theorem deserialize_other_form_reversed :
    jsonText.deserialize Contact.shape
        (JsonText.writeObject (contact.toContactName.entries JsonText.write).reverse) =
      .ok ⟨contact.id, "ada", none⟩ ∧
    messagePack.deserialize Contact.shape
        (MessagePack.writeMap (contact.toContactName.entries MessagePack.write).reverse) =
      .ok ⟨contact.id, "ada", none⟩ ∧
    (∃ b e, fixedWidth.serialize ContactName.shape contact.toContactName = .ok b ∧
      fixedWidth.deserialize Contact.shape b = .error e) ∧
    ∃ b, fixedWidth.serialize Contact.shape contact = .ok b ∧
      fixedWidth.deserialize ContactName.shape b = .ok ⟨contact.id, "ada"⟩ := by
  have hfits (width : Nat) (h : 15 < Bytes.bound width) :
      ContactName.shape.Fits width contact.toContactName :=
    ⟨trivial, (fits_contact h).2.1, trivial⟩
  obtain ⟨⟨-, hjson⟩, -, ⟨-, hpacked⟩, -, ⟨b, hb, herror⟩, b', hb', hok⟩ :=
    deserialize_other_form contact.toContactName contact
  obtain ⟨e, he⟩ := herror (hfits 8 (by decide))
  exact ⟨hjson _ (List.reverse_perm _), hpacked (hfits 4 (by decide)) _ (List.reverse_perm _),
    ⟨b, e, hb, he⟩, b', hb', hok (fits_contact (by decide))⟩

/-- A contact whose name is of `2 ^ 32` letters loses it in MessagePack. -/
theorem longest_name_lost :
    let c : ContactName := ⟨⟨7, by decide⟩, letters (Bytes.bound 4)⟩
    c.name ≠ "" ∧ ∃ b, messagePack.serialize ContactName.shape c = .ok b ∧
      messagePack.deserialize Contact.shape b = .ok ⟨c.id, "", none⟩ :=
  other_form_of_length_eq ⟨7, by decide⟩ (length_ofText_letters _)

end Codec

end TwoTier
