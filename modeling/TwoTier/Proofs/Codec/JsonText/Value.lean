import TwoTier.Proofs.Codec.JsonText.Container
import TwoTier.Proofs.Codec.Row

/-!
# Reading what was written in JSON text

`JsonText.reader` takes what `JsonText.write` makes of a value for that value, if the shape is
regular, has no doubles and nests no deeper than the budget (`takes_reader`). Only bare numbers can
go on after their last digit (`Shape.isNumber`); every other form is closed.

A record is read from the entries of its fields in any order, with entries of other fields among
them and with fields missing that have a fallback (`takes_record`).
-/

namespace TwoTier.JsonText

open Reader

/-! ### First bytes of values -/

/-- A number, or nothing, is all that is written of a value. -/
def isNumber : {α : Type} → Shape α → Bool
  | _, .int _ => true
  | _, .float => true
  | _, .option s => isNumber s
  | _, _ => false

/-- The bytes that go on with a value: digits, if it may be a number. -/
def ending {α : Type} (s : Shape α) : UInt8 → Bool := if isNumber s then goesOn else closed

/-- A digit begins a number. -/
theorem start_of_digit {c : UInt8} (h : isDigit c = true) : Start.of c = .number := by
  -- it is none of the bytes that begin anything else
  have hne (d : UInt8) (hd : isDigit d = false) : (c == d) = false := by
    refine beq_eq_false_iff_ne.mpr fun hcd => ?_
    rw [hcd, hd] at h
    cases h
  simp only [Start.of, hne (Bytes.ascii 'n') (by decide), hne (Bytes.ascii 't') (by decide),
    hne (Bytes.ascii 'f') (by decide), h, Bool.or_true, if_true, Bool.false_eq_true, if_false]

/-- An integer begins with a digit or a minus sign. -/
theorem start_writeInt (i : Int) : ∃ c t, writeInt i = c :: t ∧ Start.of c = .number := by
  rw [writeInt_eq]
  by_cases hneg : i < 0
  · rw [if_pos hneg]
    exact ⟨_, _, rfl, rfl⟩
  · obtain ⟨d, ds, hds, -⟩ := decimal_eq_cons i.natAbs
    have hd : isDigit d = true :=
      isDigit_of_mem_decimal i.natAbs d (by rw [hds]; exact List.mem_cons_self)
    rw [if_neg hneg, hds]
    exact ⟨d, ds, rfl, start_of_digit hd⟩

/-- A value has a first byte, and is not taken for nothing when it is there. -/
theorem starts_write : {α : Type} → (s : Shape α) → s.Regular → s.FloatFree → (v : α) →
    ∃ c t, write s v = c :: t ∧ Starts c ∧ (s.nullable = false → Start.of c ≠ .nullWord)
  | _, .unit, _, _, _ => ⟨_, _, rfl, by decide, nofun⟩
  | _, .bool, _, _, b => by cases b <;> exact ⟨_, _, rfl, by decide, fun _ => by decide⟩
  | _, .char, _, _, _ => ⟨_, _, rfl, by decide, fun _ => by decide⟩
  | _, .text, _, _, _ => ⟨_, _, rfl, by decide, fun _ => by decide⟩
  | _, .int k, _, _, i => by
    obtain ⟨c, t, hct, hc⟩ := start_writeInt i.1
    refine ⟨c, t, hct, ?_, fun _ => ?_⟩
    · rw [Starts, hc]
      decide
    · rw [hc]
      decide
  | _, .float, _, hf, _ => hf.elim
  | _, .option _, _, _, none => ⟨_, _, rfl, by decide, nofun⟩
  | _, .option s, hs, hf, some a => by
    obtain ⟨c, t, hct, hc, -⟩ := starts_write s hs.2 hf a
    exact ⟨c, t, hct, hc, nofun⟩
  | _, .list s, _, _, v => by
    rw [write, enclose_eq]
    exact ⟨_, _, rfl, by decide, fun _ => by decide⟩
  | _, .map _, _, _, _ => by
    rw [write, enclose_eq]
    exact ⟨_, _, rfl, by decide, fun _ => by decide⟩
  | _, .pair _ _, _, _, _ => ⟨_, _, rfl, by decide, fun _ => by decide⟩
  | _, .record _ _ _ _ _, _, _, _ => by
    rw [write, enclose_eq]
    exact ⟨_, _, rfl, by decide, fun _ => by decide⟩
  | _, .choice _ _ _ _, _, _, _ => ⟨_, _, rfl, by decide, fun _ => by decide⟩
  | _, .json, hs, _, _ => hs.elim
  | _, .refused _, hs, _, _ => hs.elim

/-- There is no value at the end of the input. -/
theorem fails_reader_nil : {α : Type} → (s : Shape α) → (budget : Nat) → (reader s budget).Fails []
  | _, .unit, _ => ⟨.truncated, rfl⟩
  | _, .bool, _ => ⟨.truncated, rfl⟩
  | _, .char, _ => ⟨.truncated, rfl⟩
  | _, .text, _ => ⟨.truncated, rfl⟩
  | _, .int _, _ => ⟨.truncated, rfl⟩
  | _, .float, _ => ⟨.truncated, rfl⟩
  | _, .option s, budget => by
    have hs : (some <$> reader s budget).Fails [] := (fails_reader_nil s budget).map some
    rw [reader]
    exact .bind_right (show peekPastBlank.run [] = .ok (none, []) from rfl) hs
  | _, .list _, _ => by rw [reader]; exact ⟨.truncated, rfl⟩
  | _, .map _, _ => by rw [reader]; exact ⟨.truncated, rfl⟩
  | _, .pair _ _, _ => by rw [reader]; exact ⟨.truncated, rfl⟩
  | _, .record _ _ _ _ _, _ => by rw [reader]; exact ⟨.truncated, rfl⟩
  | _, .choice _ _ _ _, _ => by rw [reader]; exact ⟨.truncated, rfl⟩
  | _, .json, 0 => ⟨.truncated, rfl⟩
  | _, .json, _ + 1 => ⟨.truncated, rfl⟩
  | _, .refused _, _ => ⟨.mismatched, rfl⟩

/-! ### Scalars -/

section Scalars

variable {α : Type} {w : Bytes} {a : α} {budget : Nat}

/-- An integer is read back, up to a byte that goes on with it. -/
theorem takes_int {k : IntKind} (i : k.Value) :
    Takes goesOn (reader (.int k) budget) (writeInt i.1) i := by
  have hnumber := takes_number (IntKind.inRange i)
  obtain ⟨c, t, hct, hc⟩ := start_writeInt i.1
  rw [hct] at hnumber ⊢
  refine takes_scalar (v := .number (.int i.1)) (by rw [Starts, hc]; decide) ?_ (k.ofInt?_val i)
  rw [hc]
  exact hnumber.bind_nil fun _ => rfl

/-- The name of a choice is read back as the choice. -/
theorem takes_choice {names : List String} (hn : names.Nodup) (i : Fin names.length) :
    Takes closed (choice budget names) (writeText (names.get i)) i := by
  refine takes_start (by decide) ?_
  exact (takes_quoted (names.get i)).bind_ofOption (finIdxOf?_get hn i)

end Scalars

/-! ### Passing over a value -/

/-- What is not an array or object is passed over at once. -/
theorem takes_skip_of_leaf {w : Bytes} {c : UInt8} (hc : Starts c)
    (h : Takes goesOn (skipAt [] (Start.of c)) (c :: w) (.done ())) :
    Takes goesOn skip (c :: w) () :=
  .loop_done (takes_start hc h)

theorem takes_skip_text (s : String) : Takes goesOn skip (writeText s) () :=
  takes_skip_of_leaf (by decide)
    ((Takes.byte Fault.truncated _).bind ((takes_skipText _).bind_nil fun _ => rfl).of_closed)

/-- The word for nothing is passed over. -/
theorem takes_skip_null : Takes goesOn skip (Bytes.ofText "null") () :=
  takes_skip_of_leaf (by decide)
    ((Takes.byte Fault.truncated _).bind
      ((takes_exactly (Bytes.ofText "ull")).bind_nil fun _ => rfl).of_closed)

/-! ### Records -/

/-- An object with the given entries: keys, and values as they are written. -/
def writeObject (es : List (String × Bytes)) : Bytes :=
  enclose '\x7b' '\x7d' (es.map fun e => writeEntry e.1 e.2)

/-- The reader of rows is the row of the reader. -/
theorem row_eq (budget : Nat) : {α : Type} → (fs : Fields α) →
    row fs budget = fs.row rowStyle fun s => reader s budget
  | _, .nil => by rw [row, Fields.row]
  | _, .cons _ _ _ rest => by rw [row, Fields.row, row_eq budget rest]

section Records

variable {α β : Type} {strict : Bool} {fs : Fields α} {budget : Nat}

/-- **An entry is in place** in a record with the given fields: it holds the value of its field, or
it is of no field, and then the record is not strict and the value can be passed over. -/
def InPlace (strict : Bool) (fs : Fields α) (budget : Nat) (v : α) (e : String × Bytes) : Prop :=
  fs.Holds (fun s a w => Takes goesOn (reader s budget) w a) v e.1 e.2 ∨
    strict = false ∧ e.1 ∉ fs.names ∧ Takes goesOn skip e.2 ()

/-- Another entry in place makes its name known. -/
theorem takes_recordEntry {v : α} {e : String × Bytes} {known : List String}
    (hn : fs.names.Nodup) (he : InPlace strict fs budget v e) (hk : e.1 ∉ known) :
    Takes goesOn (recordEntry strict (row fs budget) (fs.slotsOf known v) e.1)
      (Bytes.ascii ':' :: e.2) (fs.slotsOf (e.1 :: known) v) := by
  rw [row_eq, recordEntry]
  rcases he with hfield | ⟨rfl, hnone, hskip⟩
  · -- the reader that the slot of the field has for it
    have hbetween : Takes closed rowStyle.between [Bytes.ascii ':'] () := takes_colon
    obtain ⟨p, hp, ht⟩ := fs.fill?_slotsOf hbetween hk hn v hfield
    simp only [hp]
    exact ht
  · simp only [fs.fill?_eq_none _ hnone, fs.slotsOf_cons_of_not_mem v hnone]
    exact takes_colon.bind (hskip.bind_nil fun _ => rfl)

/-- The entries that are left make their names known, one after the other. -/
theorem leads_recordEntries {v : α} (hn : fs.names.Nodup) {es : List (String × Bytes)}
    (he : ∀ e ∈ es, InPlace strict fs budget v e) (hes : (es.map (·.1)).Nodup)
    {known : List String} (hk : ∀ e ∈ es, e.1 ∉ known) :
    Leads (recordEntry strict (row fs budget)) (fs.slotsOf known v) es
      (fs.slotsOf ((es.map (·.1)).reverse ++ known) v) := by
  -- along the entries; what is known grows with each
  induction es generalizing known with
  | nil => exact .nil _
  | cons e es ih =>
    have hstep := takes_recordEntry hn (he e List.mem_cons_self) (hk e List.mem_cons_self)
    have hrest := ih (fun x hx => he x (List.mem_cons_of_mem e hx)) (List.nodup_cons.mp hes).2
      (Fields.not_known_of_nodup hes hk)
    rw [List.map_cons, List.reverse_cons, List.append_assoc, List.singleton_append]
    exact .cons hstep hrest

/-- **A record is read from its entries in any order**, if each is in place and each field that has
no entry has its fallback for its value. -/
theorem takes_record {make : α → Option β} {v : α} {b : β} (hn : fs.names.Nodup)
    {es : List (String × Bytes)} (he : ∀ e ∈ es, InPlace strict fs budget v e)
    (hes : (es.map (·.1)).Nodup) (hv : fs.Restored (es.map (·.1)) v) (hmake : make v = some b) :
    Takes closed (record strict fs (budget + 1) (row fs) make)
      (writeObject es) b := by
  have hleads := leads_recordEntries hn he hes fun _ _ => List.not_mem_nil
  rw [fs.slotsOf_nil] at hleads
  have hcollect : fs.collect (fs.slotsOf ((es.map (·.1)).reverse ++ []) v) = some v :=
    fs.collect_slotsOf v (hv.mono fun name hname => by simpa using hname)
  rw [writeObject, enclose_eq]
  refine takes_start (by decide) (takes_object ?_)
  rw [Reader.bind_assoc]
  refine takes_entries hleads ?_ fun slots => ?_
  · -- the fields make the value, and the brace closes it
    rw [hcollect, Option.bind_some, hmake]
    exact (takes_closing (by decide)).bind_nil fun _ => rfl
  · cases (fs.collect slots).bind make with
    | none => exact (fails_fail Fault.mismatched []).bind _
    | some b' => exact (fails_closing '\x7d').bind _

end Records

/-! ### Values -/

/-- The entries of the fields of a record. -/
theorem writeFields_eq : {α : Type} → (fs : Fields α) → (v : α) →
    writeFields fs v = (fs.entries write v).map fun e => writeEntry e.1 e.2
  | _, .nil, _ => rfl
  | _, .cons _ _ _ rest, v => by
    rw [writeFields, writeFields_eq rest v.2]
    rfl

/-- A record is the object of its fields. -/
theorem write_record {α β : Type} {strict : Bool} {fs : Fields α} {make : α → Option β}
    {fields : β → α} {hmake : ∀ b, make (fields b) = some b} (v : β) :
    write (.record strict fs make fields hmake) v = writeObject (fs.entries write (fields v)) := by
  rw [write, writeFields_eq, writeObject]

/-- Inside an array or object a value is ended by what comes after it. -/
theorem TakesValue.of_takes {α : Type} {s : Shape α} {budget : Nat} {v : α} (hs : s.Regular)
    (hf : s.FloatFree) (h : Takes (ending s) (reader s budget) (write s v) v) :
    TakesValue (reader s budget) (write s v) v := by
  obtain ⟨c, t, hct, hc, -⟩ := starts_write s hs hf v
  refine ⟨h.mono fun c hc => ?_, c, t, hct, hc⟩
  rw [ending] at hc
  split at hc
  · exact hc
  · cases hc

/-- The entries of a map are put into it one after the other. -/
theorem leads_mapEntries {α : Type} {p : Reader Fault α} {write : α → Bytes}
    {es : List (String × α)} (h : ∀ e ∈ es, TakesValue p (write e.2) e.2) (m : TextMap α) :
    Leads (mapEntry p) m (es.map fun e => (e.1, write e.2))
      (es.foldl (fun m e => m.insert e.1 e.2) m) := by
  -- along the entries, from whatever the map has by now
  induction es generalizing m with
  | nil => exact .nil m
  | cons e es ih =>
    have hfirst : Takes goesOn (mapEntry p m e.1) (Bytes.ascii ':' :: write e.2)
        (m.insert e.1 e.2) :=
      takes_colon.bind ((h e List.mem_cons_self).takes.bind_nil fun _ => rfl)
    exact .cons hfirst (ih (fun x hx => h x (List.mem_cons_of_mem e hx)) _)

section Items

variable {α : Type} {p : Reader Fault α} {w : Bytes} {a : α}

/-- The first item of an array is read without a comma. -/
theorem takes_firstItem (h : TakesValue p w a) :
    Takes goesOn (rowStyle.item none p true) w (a, false) := by
  obtain ⟨c, t, rfl, hc⟩ := h.starts
  exact .stop (run_another_true hc) ⟨.truncated, rfl⟩ (h.takes.bind_nil fun _ => rfl)

/-- Any other item is read after one. -/
theorem takes_nextItem (h : TakesValue p w a) :
    Takes goesOn (rowStyle.item none p false) (Bytes.ascii ',' :: w) (a, false) := by
  obtain ⟨c, t, rfl, hc⟩ := h.starts
  exact takes_another hc (h.takes.bind_nil fun _ => rfl)

end Items

section Containers

variable {α β : Type} {s : Shape α} {t : Shape β} {d : Nat}

/-- A list is read back as an array, if its items are read as values. -/
theorem takes_list {v : List α} (hitem : ∀ a ∈ v, TakesValue (reader s d) (write s a) a) :
    Takes closed (reader (.list s) (d + 1)) (write (.list s) v) v := by
  rw [reader, write, enclose_eq]
  refine takes_start (by decide) (takes_array ?_)
  refine takes_items hitem ?_ fun _ => (fails_closing ']').bind _
  exact (takes_closing (by decide)).bind_nil fun _ => rfl

/-- A map is read back as an object, if its values are read as values. -/
theorem takes_map {v : TextMap α}
    (hvalue : ∀ e ∈ v.entries, TakesValue (reader s d) (write s e.2) e.2) :
    Takes closed (reader (.map s) (d + 1)) (write (.map s) v) v := by
  have hleads := leads_mapEntries hvalue TextMap.empty
  -- putting its own entries into an empty map gives the map
  have hmap : v.entries.foldl (fun m e => m.insert e.1 e.2) TextMap.empty = v :=
    TextMap.ofList_entries v
  rw [hmap] at hleads
  have hes : (v.entries.map fun e => writeEntry e.1 (write s e.2)) =
      (v.entries.map fun e => (e.1, write s e.2)).map fun e => writeEntry e.1 e.2 := by
    rw [List.map_map]
    rfl
  rw [reader, write, enclose_eq, hes]
  refine takes_start (by decide) (takes_object ?_)
  refine takes_entries hleads ?_ fun _ => (fails_closing '\x7d').bind _
  exact (takes_closing (by decide)).bind_nil fun _ => rfl

/-- A pair is read as the array of two items that it is written as. -/
theorem takes_pair {v : α × β} (h1 : TakesValue (reader s d) (write s v.1) v.1)
    (h2 : TakesValue (reader t d) (write t v.2) v.2) :
    Takes closed (reader (.pair s t) (d + 1)) (write (.pair s t) v) v := by
  have hsep : separated true [write s v.1, write t v.2] =
      write s v.1 ++ Bytes.ascii ',' :: write t v.2 := by
    simp only [separated, if_true, List.nil_append, List.append_nil, if_false, Bool.false_eq_true,
      List.singleton_append]
  rw [reader, write, enclose_eq, hsep]
  refine takes_start (by decide) (takes_array ?_)
  rw [Reader.bind_assoc, List.append_assoc, List.cons_append]
  -- the comma ends the first item, and the bracket the second
  refine (takes_firstItem h1).bind_closed ?_ (by decide) fun _ => ⟨.truncated, rfl⟩
  rw [Reader.bind_assoc]
  refine (takes_nextItem h2).bind_closed ?_ (by decide) fun _ => ⟨.truncated, rfl⟩
  exact (takes_closing (by decide)).bind_nil fun _ => rfl

end Containers

mutual
/-- **The reader takes what was written of a value.** -/
theorem takes_reader : {α : Type} → (s : Shape α) → s.Regular → s.FloatFree → (budget : Nat) →
    s.depth ≤ budget → (v : α) → Takes (ending s) (reader s budget) (write s v) v
  | _, .unit, _, _, budget, _, _ => takes_scalar (by decide) takes_null rfl
  | _, .bool, _, _, budget, _, b => by
    cases b with
    | false => exact takes_scalar (by decide) takes_false rfl
    | true => exact takes_scalar (by decide) takes_true rfl
  | _, .char, _, _, budget, _, c => by
    refine takes_scalar (by decide) (takes_text (String.singleton c)) ?_
    simp only [onlyChar?, String.toList_singleton]
  | _, .text, _, _, budget, _, s => takes_scalar (by decide) (takes_text s) rfl
  | _, .int k, _, _, budget, _, i => takes_int i
  | _, .float, _, hf, _, _, _ => hf.elim
  | _, .option s, hs, hf, budget, hb, v => by
    rw [reader]
    cases v with
    | none =>
      refine takes_peekPastBlank (by decide) ((fails_reader_nil s budget).map some) ?_
      exact (takes_null.bind_nil fun _ => rfl).of_closed
    | some a =>
      -- what is there does not begin as nothing does
      have ha := takes_reader s hs.2 hf budget hb a
      obtain ⟨c, t, hct, hc, hnull⟩ := starts_write s hs.2 hf a
      rw [write]
      rw [hct] at ha ⊢
      refine takes_peekPastBlank hc.not_blank ((fails_reader_nil s budget).map some) ?_
      have hword : ¬ ((some c).map Start.of == some .nullWord) = true := by simpa using hnull hs.1
      rw [if_neg hword]
      exact ha.map some
  | _, .list s, hs, hf, d + 1, hb, v =>
    takes_list fun a _ => .of_takes hs hf (takes_reader s hs hf d (Nat.le_of_succ_le_succ hb) a)
  | _, .map s, hs, hf, d + 1, hb, v =>
    takes_map fun e _ =>
      .of_takes hs hf (takes_reader s hs hf d (Nat.le_of_succ_le_succ hb) e.2)
  | _, .pair s t, hs, hf, d + 1, hb, v => by
    have hdepth := Nat.max_le.mp (Nat.le_of_succ_le_succ hb)
    have h1 : TakesValue (reader s d) (write s v.1) v.1 :=
      .of_takes hs.1 hf.1 (takes_reader s hs.1 hf.1 d hdepth.1 v.1)
    have h2 : TakesValue (reader t d) (write t v.2) v.2 :=
      .of_takes hs.2 hf.2 (takes_reader t hs.2 hf.2 d hdepth.2 v.2)
    exact takes_pair h1 h2
  | _, .record strict fs make fields hmake, hs, hf, d + 1, hb, v => by
    have hall := all_takes fs hs.2.2 hf d (Nat.le_of_succ_le_succ hb) (fields v)
    -- what was written of the fields are entries in place
    have hplace (e) (he : e ∈ fs.entries write (fields v)) :
        InPlace strict fs d (fields v) e :=
      .inl (fs.holds_of_mem_entries hs.1 (fields v) hall he)
    rw [reader, write_record]
    refine takes_record hs.1 hplace ?_ ?_ (hmake v)
    · rw [fs.map_fst_entries]
      exact hs.1
    · rw [fs.map_fst_entries]
      exact fs.restored_of_names (fields v) fun _ h => h
  | _, .choice names pick index hpick, hs, _, budget, _, v => by
    rw [reader, write]
    refine (takes_choice hs.1 (index v)).bind_nil fun _ => ?_
    rw [Function.comp_apply, hpick]
    rfl
  | _, .json, hs, _, _, _, _ => hs.elim
  | _, .refused _, hs, _, _, _, _ => hs.elim
/-- The readers of all fields take what was written of them. -/
theorem all_takes : {α : Type} → (fs : Fields α) → fs.Regular → fs.FloatFree → (budget : Nat) →
    fs.depth ≤ budget → (v : α) →
      fs.All (fun s a => Takes goesOn (reader s budget) (write s a) a) v
  | _, .nil, _, _, _, _, _ => trivial
  | _, .cons _ _ s rest, hs, hf, budget, hb, v =>
    ⟨(TakesValue.of_takes hs.2.1 hf.1
        (takes_reader s hs.2.1 hf.1 budget (Nat.max_le.mp hb).1 v.1)).takes,
      all_takes rest hs.2.2 hf.2 budget (Nat.max_le.mp hb).2 v.2⟩
end

end TwoTier.JsonText
