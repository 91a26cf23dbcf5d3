import TwoTier.Proofs.Codec.MessagePack.Token
import TwoTier.Proofs.Codec.Row

/-!
# Reading what was written in MessagePack

`MessagePack.reader` takes what `MessagePack.write` makes of a value for that value, if the shape is
regular, nests no deeper than the budget, and the lengths in the value fit in the four bytes that
they are written with (`takes_reader`).

Two results say more than that:

* a record is read from the entries of its fields in any order, with entries of other fields among
  them and with fields missing that have a fallback (`takes_record`);
* what was written of a value of any shape can be passed over (`takes_skip`).
-/

namespace TwoTier.MessagePack

open Reader

/-! ### Values of one token -/

section Scalars

variable {α : Type} {w : Bytes} {m : Marker} {t : Token} {a : α} {accept : Token → Option α}
  {budget : Nat}

/-- The token begins an array, a map or an extension. -/
def Token.nests : Token → Bool
  | .array _ => true
  | .map _ => true
  | .extension _ => true
  | _ => false

/-- A token is read within a budget that is not used up, if it begins anything. -/
theorem takes_tokenWithin (ht : Takes closed token w t) (hb : t.nests = true → budget ≠ 0) :
    Takes closed (tokenWithin budget) w t := by
  refine ht.bind_nil fun s => ?_
  cases t with
  | array n | map n | extension n => simp only [if_neg (hb rfl)]; rfl
  | nil | bool | nat | int | float | text | binary => rfl

/-- A token that begins nothing needs no budget, and is accepted. -/
theorem takes_scalar (ht : Takes closed token w t) (hn : t.nests = false)
    (ha : accept t = some a) : Takes closed (scalar budget accept) w a := by
  have hwithin : t.nests = true → budget ≠ 0 := fun h => by rw [hn] at h; cases h
  refine (takes_tokenWithin ht hwithin).bind_nil fun s => ?_
  rw [ha]
  rfl

/-- A number or a truth value. -/
theorem takes_plain (hw : StartsWith w m t) (hm : m.isNumber = true ∨ ∃ b, m = .bool b)
    (ha : accept t = some a) : Takes closed (plain accept) w a := by
  obtain ⟨b, bs, rfl, rfl, ht⟩ := hw
  have hmarker : Takes closed marker [b] (Marker.of b) :=
    (Takes.byte Fault.noMarker b).bind (.pure _)
  refine Takes.bind hmarker ?_
  -- the marker is one of those that are asked for, and its kind says how it goes on
  generalize Marker.of b = m at hm ht
  cases m with
  | small | unsigned | signed | single | double | bool => exact ht.bind_ofOption ha
  | nil | reserved | text | binary | array | map | extension =>
    rcases hm with hm | ⟨_, hm⟩ <;> cases hm

/-- A text is read back, if its length was announced as it is. -/
theorem takes_text {s : String} (hs : (Bytes.ofText s).length < Bytes.bound 4) :
    Takes closed (text budget) (writeText s) s := by
  obtain ⟨l, hw⟩ := startsWith_writeText hs
  exact takes_scalar hw.takes_token rfl (Bytes.text?_ofText s)

/-- An integer is read back, whichever form was the shortest for it. -/
theorem takes_int {k : IntKind} (v : k.Value) :
    Takes closed (reader (.int k) budget) (writeInt v.1) v := by
  obtain ⟨m, hm, hw⟩ := startsWith_writeInt (IntKind.inRange v)
  rw [reader]
  refine takes_plain hw (.inl hm) ?_
  -- a natural was written without a sign
  by_cases h0 : 0 ≤ v.1
  · simp only [Token.ofInt, if_pos h0, Int.toNat_of_nonneg h0, IntKind.ofInt?_val]
  · simp only [Token.ofInt, if_neg h0, IntKind.ofInt?_val]

theorem startsWith_bool (b : Bool) :
    StartsWith [if b then 0xc3 else 0xc2] (.bool b) (.bool b) := by
  cases b <;> exact startsWith_single rfl rfl

theorem startsWith_nil : StartsWith [0xc0] .nil .nil := startsWith_single rfl rfl

/-- A character is a text of its own. -/
theorem length_ofText_singleton (c : Char) :
    (Bytes.ofText (String.singleton c)).length < Bytes.bound 4 := by
  have h4 : Bytes.bound 4 = 0x100000000 := rfl
  have hsize := c.utf8Size_le_four
  rw [Bytes.ofText_singleton, String.length_utf8EncodeChar]
  omega

/-- The name of a choice is read back as the choice. -/
theorem takes_choice {names : List String} (hn : names.Nodup)
    (hshort : ∀ name ∈ names, ShortName name) (i : Fin names.length) :
    Takes closed (choice budget names) (writeText (names.get i)) i := by
  obtain ⟨l, hw⟩ := startsWith_writeText (hshort (names.get i) (List.get_mem names i))
  refine hw.takes_token.bind_nil fun s => ?_
  simp only [choiceName, Bytes.text?_ofText, Option.bind_some, finIdxOf?_get hn i]
  rfl

end Scalars

/-! ### Records -/

/-- The reader of rows is the row of the reader. -/
theorem row_eq (budget : Nat) : {α : Type} → (fs : Fields α) →
    row fs budget = fs.row rowStyle fun s => reader s budget
  | _, .nil => by rw [row, Fields.row]
  | _, .cons _ _ _ rest => by rw [row, Fields.row, row_eq budget rest]

/-- An entry of a record: a name, and a value under it. -/
def writeEntry (e : String × Bytes) : Bytes := writeText e.1 ++ e.2

/-- A map with the given entries. -/
def writeMap (es : List (String × Bytes)) : Bytes :=
  mapStart es.length ++ es.flatMap writeEntry

section Records

variable {α β : Type} {strict : Bool} {fs : Fields α} {budget : Nat}

/-- **An entry is in place** in a record with the given fields: it holds the value of its field, or
it is of no field, and then the record is not strict and the entry can be passed over. -/
def InPlace (strict : Bool) (fs : Fields α) (budget : Nat) (v : α) (e : String × Bytes) : Prop :=
  ShortName e.1 ∧
    (fs.Holds (fun s a w => Takes closed (reader s budget) w a) v e.1 e.2 ∨
      strict = false ∧ e.1 ∉ fs.names ∧ Takes closed (skip budget) e.2 ())

/-- Another entry in place makes its name known. -/
theorem takes_recordEntry {v : α} {e : String × Bytes} {known : List String}
    (hn : fs.names.Nodup) (he : InPlace strict fs budget v e) (hk : e.1 ∉ known) :
    Takes closed (recordEntry strict (fieldNames fs) budget (row fs budget) (fs.slotsOf known v))
      (writeEntry e) (fs.slotsOf (e.1 :: known) v) := by
  obtain ⟨hshort, he⟩ := he
  obtain ⟨l, hw⟩ := startsWith_writeText hshort
  have hname : Takes closed (fieldName budget) (writeText e.1) (.text e.1) := by
    refine takes_scalar hw.takes_token rfl ?_
    simp only [Bytes.text?_ofText]
    rfl
  rw [row_eq, writeEntry, recordEntry]
  rcases he with hfield | ⟨rfl, hnone, hskip⟩
  · -- the reader that the slot of the field has for it
    have hbetween : Takes closed (rowStyle.between) [] () := .pure ()
    obtain ⟨p, hp, ht⟩ := fs.fill?_slotsOf hbetween hk hn v hfield
    cases strict with
    | true =>
      refine (takes_text hshort).bind ?_
      simp only [hp]
      exact ht
    | false =>
      refine hname.bind ?_
      simp only [hp]
      exact ht
  · rw [if_neg Bool.false_ne_true]
    refine hname.bind ?_
    simp only [fs.fill?_eq_none _ hnone, fs.slotsOf_cons_of_not_mem v hnone]
    exact hskip.bind_nil fun _ => rfl

/-- The entries that are left make their names known, one after the other. -/
theorem takes_recordEntries {v : α} (hn : fs.names.Nodup) {es : List (String × Bytes)}
    (he : ∀ e ∈ es, InPlace strict fs budget v e) (hes : (es.map (·.1)).Nodup)
    {known : List String} (hk : ∀ e ∈ es, e.1 ∉ known) :
    Takes closed
      (recordEntries strict (fieldNames fs) budget (row fs budget) es.length (fs.slotsOf known v))
      (es.flatMap writeEntry) (fs.slotsOf ((es.map (·.1)).reverse ++ known) v) := by
  -- along the entries; what is known grows with each
  induction es generalizing known with
  | nil => exact .pure _
  | cons e es ih =>
    have hes' := List.nodup_cons.mp hes
    have hstep := takes_recordEntry hn (he e List.mem_cons_self) (hk e List.mem_cons_self)
    have hrest := ih (fun x hx => he x (List.mem_cons_of_mem e hx)) hes'.2
      (Fields.not_known_of_nodup hes hk)
    rw [List.map_cons, List.reverse_cons, List.append_assoc, List.singleton_append]
    exact hstep.bind hrest

/-- **A record is read from its entries in any order**, if each is in place and each field that has
no entry has its fallback for its value. -/
theorem takes_record {make : α → Option β} {v : α} {b : β} (hn : fs.names.Nodup)
    {es : List (String × Bytes)} (hlen : es.length < Bytes.bound 4)
    (he : ∀ e ∈ es, InPlace strict fs budget v e) (hes : (es.map (·.1)).Nodup)
    (hv : fs.Restored (es.map (·.1)) v) (hmake : make v = some b) :
    Takes closed (record strict fs (budget + 1) (row fs) make) (writeMap es) b := by
  obtain ⟨l, hw⟩ := startsWith_mapStart hlen
  refine (takes_tokenWithin hw.takes_token fun _ => Nat.succ_ne_zero budget).bind ?_
  -- at the beginning no name is known
  have hnone : ∀ e ∈ es, e.1 ∉ ([] : List String) := fun _ _ => List.not_mem_nil
  have hentries := takes_recordEntries hn he hes hnone
  rw [fs.slotsOf_nil] at hentries
  refine hentries.bind_ofOption ?_
  rw [fs.collect_slotsOf v (hv.mono fun name hname => by simpa using hname)]
  exact hmake

end Records

/-! ### Values -/

/-- The entries of the fields of a record. -/
theorem writeFields_eq : {α : Type} → (fs : Fields α) → (v : α) →
    writeFields fs v = (fs.entries write v).flatMap writeEntry
  | _, .nil, _ => rfl
  | _, .cons _ _ _ rest, v => by
    rw [writeFields, writeFields_eq rest v.2]
    rfl

/-- A record is the map of its fields. -/
theorem write_record {α β : Type} {strict : Bool} {fs : Fields α} {make : α → Option β}
    {fields : β → α} {hmake : ∀ b, make (fields b) = some b} (v : β) :
    write (.record strict fs make fields hmake) v = writeMap (fs.entries write (fields v)) := by
  rw [write, writeFields_eq, writeMap, fs.length_entries]

/-- The fields of a regular record have short names. -/
theorem shortName_of_mem_names {name : String} :
    {α : Type} → (fs : Fields α) → fs.Regular → name ∈ fs.names → ShortName name
  | _, .nil, _, h => nomatch h
  | _, .cons _ _ _ rest, hs, h => by
    rcases List.mem_cons.mp h with rfl | h
    · exact hs.1
    · exact shortName_of_mem_names rest hs.2.2 h

/-- A text is not written as nil. -/
theorem notNil_writeText {s : String} (hs : (Bytes.ofText s).length < Bytes.bound 4) :
    NotNil (writeText s) := by
  obtain ⟨l, hw⟩ := startsWith_writeText hs
  exact hw.notNil nofun

/-- What is there is not written as nil. -/
theorem notNil_write : {α : Type} → (s : Shape α) → s.Regular → s.nullable = false → (v : α) →
    s.Fits 4 v → NotNil (write s v)
  | _, .bool, _, _, b, _ => (startsWith_bool b).notNil nofun
  | _, .char, _, _, c, _ => notNil_writeText (length_ofText_singleton c)
  | _, .text, _, _, _, hv => notNil_writeText hv
  | _, .int _, _, _, i, _ => by
    obtain ⟨m, hm, hw⟩ := startsWith_writeInt (IntKind.inRange i)
    exact hw.notNil fun h => by rw [h] at hm; cases hm
  | _, .float, _, _, x, _ => (startsWith_float x).notNil nofun
  | _, .list _, _, _, _, hv => by
    obtain ⟨l, hw⟩ := startsWith_arrayStart hv.1
    exact (hw.notNil nofun).append _
  | _, .map _, _, _, _, hv => by
    obtain ⟨l, hw⟩ := startsWith_mapStart hv.1
    exact (hw.notNil nofun).append _
  | _, .pair _ _, _, _, _, _ => ⟨0x92, _, rfl, by decide⟩
  | _, .record _ fs _ _ _, hs, _, _, _ => by
    obtain ⟨l, hw⟩ := startsWith_mapStart hs.2.1
    exact (hw.notNil nofun).append _
  | _, .choice names _ index _, hs, _, v, _ =>
    notNil_writeText (hs.2.2 (names.get (index v)) (List.get_mem names (index v)))
  | _, .unit, _, h, _, _ => nomatch h
  | _, .option _, _, h, _, _ => nomatch h
  | _, .json, hs, _, _, _ => hs.elim
  | _, .refused _, hs, _, _, _ => hs.elim

mutual
/-- **The reader takes what was written of a value.** -/
theorem takes_reader : {α : Type} → (s : Shape α) → s.Regular → (budget : Nat) →
    s.depth ≤ budget → (v : α) → s.Fits 4 v → Takes closed (reader s budget) (write s v) v
  | _, .unit, _, budget, _, _, _ => takes_scalar startsWith_nil.takes_token rfl rfl
  | _, .bool, _, budget, _, b, _ => takes_plain (startsWith_bool b) (.inr ⟨b, rfl⟩) rfl
  | _, .char, _, budget, _, c, _ => by
    obtain ⟨l, hw⟩ := startsWith_writeText (length_ofText_singleton c)
    rw [reader, write]
    refine takes_scalar hw.takes_token rfl ?_
    simp only [Bytes.text?_ofText, Option.bind_some, onlyChar?, String.toList_singleton]
  | _, .text, _, budget, _, s, hv => takes_text hv
  | _, .int k, _, budget, _, i, _ => takes_int i
  | _, .float, _, budget, _, x, _ => takes_plain (startsWith_float x) (.inl rfl) rfl
  | _, .option s, hs, budget, hb, v, hv => by
    rw [reader]
    cases v with
    | none => exact Takes.peek ((Takes.byte Fault.noMarker _).bind (.pure none)) ⟨_, rfl⟩
    | some a =>
      -- what is there does not begin as nil does
      have ha := takes_reader s hs.2 budget hb a (hv a rfl)
      obtain ⟨b, bs, hw, hne⟩ := notNil_write s hs.2 hs.1 a (hv a rfl)
      rw [write]
      rw [hw] at ha ⊢
      refine Takes.peek ?_ ⟨_, rfl⟩
      simp only [if_neg (show ¬ (b == 0xc0) = true by simpa using hne)]
      exact ha.map some
  | _, .list s, hs, d + 1, hb, v, hv => by
    obtain ⟨l, hw⟩ := startsWith_arrayStart hv.1
    rw [reader, write]
    refine (takes_tokenWithin hw.takes_token fun _ => Nat.succ_ne_zero d).bind ?_
    exact .times_self fun a ha => takes_reader s hs d (Nat.le_of_succ_le_succ hb) a (hv.2 a ha)
  | _, .map s, hs, d + 1, hb, v, hv => by
    obtain ⟨l, hw⟩ := startsWith_mapStart hv.1
    -- each entry is a name and a value, one level deeper
    have hentry (e) (he : e ∈ v.entries) :
        Takes closed (entry (text d) (reader s d)) (writeText e.1 ++ write s e.2) e :=
      (takes_text (hv.2 e he).1).bind
        ((takes_reader s hs d (Nat.le_of_succ_le_succ hb) e.2 (hv.2 e he).2).map (e.1, ·))
    rw [reader, write]
    refine (takes_tokenWithin hw.takes_token fun _ => Nat.succ_ne_zero d).bind ?_
    refine (Takes.times_self hentry).bind_nil fun r => ?_
    rw [TextMap.ofList_entries]
    rfl
  | _, .pair s t, hs, d + 1, hb, v, hv => by
    obtain ⟨l, hw⟩ := startsWith_arrayStart (show 2 < Bytes.bound 4 by decide)
    have hdepth := Nat.max_le.mp (Nat.le_of_succ_le_succ hb)
    have h1 := takes_reader s hs.1 d hdepth.1 v.1 hv.1
    have h2 := takes_reader t hs.2 d hdepth.2 v.2 hv.2
    rw [reader, write, List.append_assoc]
    refine (takes_tokenWithin hw.takes_token fun _ => Nat.succ_ne_zero d).bind ?_
    -- two items are announced, and none is left after them
    exact (h1.map (·, 1)).bind ((h2.map (·, 0)).bind_nil fun _ => rfl)
  | _, .record strict fs make fields hmake, hs, d + 1, hb, v, hv => by
    have hall := all_takes fs hs.2.2 d (Nat.le_of_succ_le_succ hb) (fields v) hv
    -- what was written of the fields are entries in place, in the order of the fields
    have hplace (e) (he : e ∈ fs.entries write (fields v)) :
        InPlace strict fs d (fields v) e := by
      have hmem : e.1 ∈ fs.names := by
        rw [← fs.map_fst_entries (fields v)]
        exact List.mem_map_of_mem he
      exact ⟨shortName_of_mem_names fs hs.2.2 hmem,
        .inl (fs.holds_of_mem_entries hs.1 (fields v) hall he)⟩
    rw [reader, write_record]
    -- the same record could be read from any other order
    refine takes_record hs.1 ?_ hplace ?_ ?_ (hmake v)
    · rw [fs.length_entries]
      exact hs.2.1
    · rw [fs.map_fst_entries]
      exact hs.1
    · rw [fs.map_fst_entries]
      exact fs.restored_of_names (fields v) fun _ h => h
  | _, .choice names pick index hpick, hs, budget, _, v, _ => by
    rw [reader, write]
    refine (takes_choice hs.1 hs.2.2 (index v)).bind_nil fun _ => ?_
    rw [Function.comp_apply, hpick]
    rfl
  | _, .json, hs, _, _, _, _ => hs.elim
  | _, .refused _, hs, _, _, _, _ => hs.elim
/-- The readers of all fields take what was written of them. -/
theorem all_takes : {α : Type} → (fs : Fields α) → fs.Regular → (budget : Nat) →
    fs.depth ≤ budget → (v : α) → fs.Fits 4 v →
      fs.All (fun s a => Takes closed (reader s budget) (write s a) a) v
  | _, .nil, _, _, _, _, _ => trivial
  | _, .cons _ _ s rest, hs, budget, hb, v, hv =>
    ⟨takes_reader s hs.2.1 budget (Nat.max_le.mp hb).1 v.1 hv.1,
      all_takes rest hs.2.2 budget (Nat.max_le.mp hb).2 v.2 hv.2⟩
end

/-! ### Lengths that do not fit -/

/-- The least length that does not fit is announced as zero, so that the text is written behind an
empty one. -/
theorem writeText_of_length_eq {s : String} (hs : (Bytes.ofText s).length = Bytes.bound 4) :
    writeText s = writeText "" ++ Bytes.ofText s := by
  have hzero : announced (Bytes.ofText s).length = announced (Bytes.ofText "").length := by
    rw [hs, announced, Nat.mod_self]
    rfl
  simp only [writeText, hzero]
  rfl

/-- Such a text is read back empty, and what it says is taken for what comes after it. -/
theorem read_write_of_length_eq {s : String} (hs : (Bytes.ofText s).length = Bytes.bound 4) :
    read .text (write .text s) = .ok "" := by
  have htext : Takes closed (text maxDepth) (writeText "") "" := takes_text (by decide)
  have hread : reader .text maxDepth = text maxDepth := by rw [reader]
  rw [read, hread, write, writeText_of_length_eq hs, htext.run_closed]

/-! ### Passing over a value -/

/-- A token that begins nothing is passed over with any budget. -/
theorem takes_skip_of_token {w : Bytes} {t : Token} (ht : Takes closed token w t)
    (hn : t.nests = false) : (budget : Nat) → Takes closed (skip budget) w ()
  | 0 => by
    have hwithin : t.nests = true → 0 ≠ 0 := fun h => by rw [hn] at h; cases h
    exact (takes_tokenWithin ht hwithin).bind_nil fun _ => rfl
  | d + 1 => by
    refine ht.bind_nil fun _ => ?_
    cases t with
    | array | map | extension => cases hn
    | nil | bool | nat | int | float | text | binary => rfl

/-- A text is passed over. -/
theorem takes_skip_text {s : String} (hs : (Bytes.ofText s).length < Bytes.bound 4)
    (budget : Nat) : Takes closed (skip budget) (writeText s) () := by
  obtain ⟨l, hw⟩ := startsWith_writeText hs
  exact takes_skip_of_token hw.takes_token rfl budget

/-- Entries that are passed over are twice as many values. -/
theorem takes_times_skip {d : Nat} {es : List (String × Bytes)}
    (hname : ∀ e ∈ es, (Bytes.ofText e.1).length < Bytes.bound 4)
    (hvalue : ∀ e ∈ es, Takes closed (skip d) e.2 ()) :
    Takes closed ((skip d).times (2 * es.length)) (es.flatMap writeEntry)
      (List.replicate (2 * es.length) ()) := by
  -- along the entries: a name and a value each
  induction es with
  | nil => exact .pure []
  | cons e es ih =>
    have hrest := ih (fun x hx => hname x (List.mem_cons_of_mem e hx))
      fun x hx => hvalue x (List.mem_cons_of_mem e hx)
    have h1 := takes_skip_text (hname e List.mem_cons_self) d
    have h2 := hvalue e List.mem_cons_self
    rw [List.flatMap_cons, writeEntry, List.append_assoc, List.length_cons, Nat.mul_succ]
    exact h1.bind ((h2.bind (hrest.map (() :: ·))).map (() :: ·))

/-- A map is passed over with its entries. -/
theorem takes_skip_map {d : Nat} {es : List (String × Bytes)}
    (hname : ∀ e ∈ es, (Bytes.ofText e.1).length < Bytes.bound 4)
    (hvalue : ∀ e ∈ es, Takes closed (skip d) e.2 ()) (hlen : es.length < Bytes.bound 4) :
    Takes closed (skip (d + 1)) (writeMap es) () := by
  obtain ⟨l, hw⟩ := startsWith_mapStart hlen
  exact hw.takes_token.bind ((takes_times_skip hname hvalue).bind_nil fun _ => rfl)

mutual
/-- **What was written of a value can be passed over.** -/
theorem takes_skip : {α : Type} → (s : Shape α) → s.Regular → (budget : Nat) →
    s.depth ≤ budget → (v : α) → s.Fits 4 v → Takes closed (skip budget) (write s v) ()
  | _, .unit, _, budget, _, _, _ => takes_skip_of_token startsWith_nil.takes_token rfl budget
  | _, .bool, _, budget, _, b, _ =>
    takes_skip_of_token (startsWith_bool b).takes_token rfl budget
  | _, .char, _, budget, _, c, _ => takes_skip_text (length_ofText_singleton c) budget
  | _, .text, _, budget, _, s, hv => takes_skip_text hv budget
  | _, .int k, _, budget, _, i, _ => by
    obtain ⟨m, -, hw⟩ := startsWith_writeInt (IntKind.inRange i)
    refine takes_skip_of_token hw.takes_token ?_ budget
    unfold Token.ofInt
    split <;> rfl
  | _, .float, _, budget, _, x, _ =>
    takes_skip_of_token (startsWith_float x).takes_token rfl budget
  | _, .option s, hs, budget, hb, v, hv => by
    cases v with
    | none => exact takes_skip_of_token startsWith_nil.takes_token rfl budget
    | some a => exact takes_skip s hs.2 budget hb a (hv a rfl)
  | _, .list s, hs, d + 1, hb, v, hv => by
    obtain ⟨l, hw⟩ := startsWith_arrayStart hv.1
    -- the items, one level deeper
    have hitems :
        Takes closed ((skip d).times v.length) (v.flatMap (write s)) (v.map fun _ => ()) :=
      .times fun a ha => takes_skip s hs d (Nat.le_of_succ_le_succ hb) a (hv.2 a ha)
    rw [write]
    exact hw.takes_token.bind (hitems.bind_nil fun _ => rfl)
  | _, .map s, hs, d + 1, hb, v, hv => by
    -- as entries that are written, a map is like a record
    let es := v.entries.map fun e => (e.1, write s e.2)
    have hes : es.flatMap writeEntry = v.entries.flatMap fun e => writeText e.1 ++ write s e.2 :=
      List.flatMap_map ..
    have hlen : es.length = v.size := List.length_map _
    rw [write, ← hes, ← hlen]
    refine takes_skip_map ?_ ?_ (by rw [hlen]; exact hv.1)
    · intro e he
      obtain ⟨x, hx, rfl⟩ := List.mem_map.mp he
      exact (hv.2 x hx).1
    · intro e he
      obtain ⟨x, hx, rfl⟩ := List.mem_map.mp he
      exact takes_skip s hs d (Nat.le_of_succ_le_succ hb) x.2 (hv.2 x hx).2
  | _, .pair s t, hs, d + 1, hb, v, hv => by
    obtain ⟨l, hw⟩ := startsWith_arrayStart (show 2 < Bytes.bound 4 by decide)
    have hdepth := Nat.max_le.mp (Nat.le_of_succ_le_succ hb)
    have h1 := takes_skip s hs.1 d hdepth.1 v.1 hv.1
    have h2 := takes_skip t hs.2 d hdepth.2 v.2 hv.2
    have hlast : Takes closed ((skip d).times 1) (write t v.2) [()] := h2.bind_nil fun _ => rfl
    have hitems : Takes closed ((skip d).times 2) (write s v.1 ++ write t v.2) [(), ()] :=
      h1.bind (hlast.map (() :: ·))
    rw [write, List.append_assoc]
    exact hw.takes_token.bind (hitems.bind_nil fun _ => rfl)
  | _, .record _ fs _ fields _, hs, d + 1, hb, v, hv => by
    have hall := all_skipped fs hs.2.2 d (Nat.le_of_succ_le_succ hb) (fields v) hv
    rw [write_record]
    refine takes_skip_map ?_ ?_ ?_
    · intro e he
      refine shortName_of_mem_names fs hs.2.2 ?_
      rw [← fs.map_fst_entries (fields v)]
      exact List.mem_map_of_mem he
    · exact fs.forall_mem_entries (fun w => Takes closed (skip d) w ()) (fields v) hall
    · rw [fs.length_entries]
      exact hs.2.1
  | _, .choice names _ index _, hs, budget, _, v, _ =>
    takes_skip_text (hs.2.2 (names.get (index v)) (List.get_mem names (index v))) budget
  | _, .json, hs, _, _, _, _ => hs.elim
  | _, .refused _, hs, _, _, _, _ => hs.elim
/-- What was written of all fields can be passed over. -/
theorem all_skipped : {α : Type} → (fs : Fields α) → fs.Regular → (budget : Nat) →
    fs.depth ≤ budget → (v : α) → fs.Fits 4 v →
      fs.All (fun s a => Takes closed (skip budget) (write s a) ()) v
  | _, .nil, _, _, _, _, _ => trivial
  | _, .cons _ _ s rest, hs, budget, hb, v, hv =>
    ⟨takes_skip s hs.2.1 budget (Nat.max_le.mp hb).1 v.1 hv.1,
      all_skipped rest hs.2.2 budget (Nat.max_le.mp hb).2 v.2 hv.2⟩
end

end TwoTier.MessagePack
