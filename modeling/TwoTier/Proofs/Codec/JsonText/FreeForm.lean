import TwoTier.Proofs.Codec.JsonText.Value

/-!
# Free-form values in JSON text

A free-form value without doubles is written in one way and read back as itself, if arrays and
objects nest in it no deeper than the budget (`takes_json`). If they nest deeper, the reader finds
the text malformed when it comes to the first bracket or brace that is too deep: everything before
it is taken, and nothing after it is looked at (`refuses_json`).

Both are inductions on the value, with the budget left at each level. An object is read entry by
entry into a map, and the entries of a canonical object are those of the map.
-/

namespace TwoTier.JsonText

open Reader

variable {α : Type} {w : Bytes} {c : UInt8}

/-! ### Written forms -/

/-- Items are written one by one. -/
theorem writeItems_eq (vs : List Json) : writeItems vs = vs.map writeJson := by
  induction vs with
  | nil => rfl
  | cons v vs ih => rw [writeItems, ih, List.map_cons]

/-- Entries as they are written: keys, and values as they are written. -/
def writtenEntries (es : List (String × Json)) : List (String × Bytes) :=
  es.map fun e => (e.1, writeJson e.2)

/-- So are entries, each as its key and its value. -/
theorem writeEntries_eq (es : List (String × Json)) :
    writeEntries es = (writtenEntries es).map fun e => writeEntry e.1 e.2 := by
  induction es with
  | nil => rfl
  | cons e es ih =>
    obtain ⟨k, v⟩ := e
    rw [writeEntries, ih]
    rfl

/-- A value has a first byte. -/
theorem starts_writeJson : (v : Json) → v.FloatFree → ∃ c t, writeJson v = c :: t ∧ Starts c
  | .null, _ => ⟨_, _, rfl, by decide⟩
  | .bool b, _ => by cases b <;> exact ⟨_, _, rfl, by decide⟩
  | .int i, _ => by
    obtain ⟨c, t, hct, hc⟩ := start_writeInt i
    refine ⟨c, t, hct, ?_⟩
    rw [Starts, hc]
    decide
  | .float _, hf => hf.elim
  | .text _, _ => ⟨_, _, rfl, by decide⟩
  | .array items, _ => by
    rw [writeJson, enclose_eq]
    exact ⟨_, _, rfl, by decide⟩
  | .object entries, _ => by
    rw [writeJson, enclose_eq]
    exact ⟨_, _, rfl, by decide⟩

/-! ### Values within the budget -/

section Takes

variable {inner : Option (Reader Fault Json)} {p : Reader Fault Json}

/-- A scalar needs no budget. -/
theorem takes_jsonOf_int {i : Int} (h : Json.InRange i) :
    Takes goesOn (jsonOf inner) (writeInt i) (.int i) := by
  have hnumber := takes_number h
  obtain ⟨c, t, hct, hc⟩ := start_writeInt i
  rw [hct] at hnumber ⊢
  refine takes_start (by rw [Starts, hc]; decide) ?_
  rw [hc]
  exact (hnumber.bind_nil fun _ => rfl).bind_nil fun _ => rfl

/-- An array is taken, if its items are. -/
theorem takes_jsonOf_array {vs : List Json} (h : ∀ v ∈ vs, TakesValue p (writeJson v) v) :
    Takes closed (jsonOf (some p)) (writeJson (.array vs)) (.array vs) := by
  rw [writeJson, enclose_eq, writeItems_eq]
  refine takes_start (by decide) (Takes.map (takes_array ?_) Json.array)
  refine takes_items h ?_ fun _ => (fails_closing ']').bind _
  exact (takes_closing (by decide)).bind_nil fun _ => rfl

/-- **An object is taken**, if its values are: the entries are gathered into the map that they are
the entries of. -/
theorem takes_jsonOf_object {es : List (String × Json)}
    (hsorted : es.Pairwise fun a b => a.1 < b.1)
    (h : ∀ e ∈ es, TakesValue p (writeJson e.2) e.2) :
    Takes closed (jsonOf (some p)) (writeJson (.object es)) (.object es) := by
  have hleads := leads_mapEntries h TextMap.empty
  -- sorted entries without repetition are the map itself
  have hmap : es.foldl (fun m e => m.insert e.1 e.2) TextMap.empty = ⟨es, hsorted⟩ :=
    TextMap.ofList_entries ⟨es, hsorted⟩
  rw [hmap] at hleads
  have hobject : Takes closed (object 1 fun _ => entries (mapEntry p) .empty)
      (Bytes.ascii '\x7b' :: (separated true
        ((writtenEntries es).map fun e => writeEntry e.1 e.2) ++ [Bytes.ascii '\x7d']))
      (⟨es, hsorted⟩ : TextMap Json) := by
    refine takes_object (takes_entries hleads ?_ fun _ => (fails_closing '\x7d').bind _)
    exact (takes_closing (by decide)).bind_nil fun _ => rfl
  rw [writeJson, enclose_eq, writeEntries_eq]
  exact takes_start (by decide) (hobject.map Json.ofMap)

end Takes

mutual
/-- **The reader takes what was written of a value** that nests no deeper than the budget. -/
theorem takes_json : (v : Json) → v.Canonical → v.FloatFree → (budget : Nat) → v.depth ≤ budget →
    TakesValue (json budget) (writeJson v) v
  | .null, _, _, 0, _ | .null, _, _, _ + 1, _ =>
    ⟨takes_start (by decide) (takes_null.bind_nil fun _ => rfl).of_closed, _, _, rfl, by decide⟩
  | .bool true, _, _, 0, _ | .bool true, _, _, _ + 1, _ =>
    ⟨takes_start (by decide) (takes_true.bind_nil fun _ => rfl).of_closed, _, _, rfl, by decide⟩
  | .bool false, _, _, 0, _ | .bool false, _, _, _ + 1, _ =>
    ⟨takes_start (by decide) (takes_false.bind_nil fun _ => rfl).of_closed, _, _, rfl, by decide⟩
  | .int i, hc, hf, 0, _ | .int i, hc, hf, _ + 1, _ =>
    ⟨takes_jsonOf_int hc, starts_writeJson (.int i) hf⟩
  -- doubles are left out: their text need not be read back as the same bits
  | .float _, _, hf, _, _ => hf.elim
  | .text s, _, _, 0, _ | .text s, _, _, _ + 1, _ =>
    ⟨takes_start (by decide) ((takes_text s).bind_nil fun _ => rfl).of_closed, _, _, rfl,
      by decide⟩
  -- the depth is not zero, so neither is the budget
  | .array vs, hc, hf, d + 1, hd =>
    ⟨(takes_jsonOf_array (takes_items_json vs hc hf d (Nat.le_of_succ_le_succ hd))).of_closed,
      starts_writeJson (.array vs) hf⟩
  | .object es, hc, hf, d + 1, hd =>
    ⟨(takes_jsonOf_object hc.1
        (takes_entries_json es hc.2 hf d (Nat.le_of_succ_le_succ hd))).of_closed,
      starts_writeJson (.object es) hf⟩
/-- The reader takes what was written of every item. -/
theorem takes_items_json : (vs : List Json) → Json.CanonicalItems vs → Json.FloatFreeItems vs →
    (budget : Nat) → Json.depthItems vs ≤ budget →
      ∀ v ∈ vs, TakesValue (json budget) (writeJson v) v
  | [], _, _, _, _ => nofun
  | v :: vs, hc, hf, budget, hd =>
    List.forall_mem_cons.mpr ⟨takes_json v hc.1 hf.1 budget (Nat.max_le.mp hd).1,
      takes_items_json vs hc.2 hf.2 budget (Nat.max_le.mp hd).2⟩
/-- The reader takes what was written of every value of an object. -/
theorem takes_entries_json : (es : List (String × Json)) → Json.CanonicalEntries es →
    Json.FloatFreeEntries es → (budget : Nat) → Json.depthEntries es ≤ budget →
      ∀ e ∈ es, TakesValue (json budget) (writeJson e.2) e.2
  | [], _, _, _, _ => nofun
  | (_, v) :: es, hc, hf, budget, hd =>
    List.forall_mem_cons.mpr ⟨takes_json v hc.1 hf.1 budget (Nat.max_le.mp hd).1,
      takes_entries_json es hc.2 hf.2 budget (Nat.max_le.mp hd).2⟩
end

/-! ### Values beyond the budget -/

section Refuses

variable {p : Reader Fault Json} {ws : List Bytes} {e : Fault} {v : Json}

/-- A value that is refused by its first byte. -/
theorem refuses_start {f : Start → Reader Fault α} (hc : Starts c)
    (h : (f (Start.of c)).Refuses (c :: w) e) : (start >>= f).Refuses (c :: w) e := by
  -- the look at the first byte leaves it where it is
  refine .stop (fun s => ?_) h
  rw [start, run_bind_ok (run_peekPastBlank hc.not_blank s)]
  rfl

/-- A value that is refused, with the first byte that it has. -/
structure RefusesValue (p : Reader Fault α) (w : Bytes) (e : Fault) : Prop where
  refuses : p.Refuses w e
  starts : ∃ c t, w = c :: t ∧ Starts c

/-! #### Items -/

/-- A comma before an item is passed over. -/
theorem run_itemComma (hc : Starts c) (s : Bytes) :
    itemComma.run (Bytes.ascii ',' :: c :: s) = .ok ((), c :: s) := by
  have hbracket : ¬ (c == Bytes.ascii ']') = true := by simpa using hc.ne (by decide)
  rw [itemComma, run_bind_ok (run_byte_cons _ _ _), run_bind_ok (run_peekPastBlank hc.not_blank s)]
  simp only [if_neg hbracket]
  rfl

/-- An item that is refused, after its comma. -/
theorem refuses_itemStep (h : RefusesValue p w e) (sofar : List Json) :
    (itemStep p sofar).Refuses (Bytes.ascii ',' :: w) e := by
  obtain ⟨c, t, rfl, hc⟩ := h.starts
  refine .stop (run_peekPastBlank (by decide)) ?_
  intro rest
  exact (run_bind_ok (run_itemComma hc _)).trans (run_bind_error (h.refuses rest))

/-- A later item that is refused. -/
theorem refuses_itemLoop (h : RefusesValue p w e) (ws : List Bytes) (sofar : List Json) :
    (loop (itemStep p) (moves_itemStep p) sofar).Refuses (separated false (w :: ws)) e := by
  rw [loop_eq, separated, if_neg Bool.false_ne_true, ← List.append_assoc]
  exact ((refuses_itemStep h sofar).bind _).append _

/-- A later item that is taken, before one that is refused. -/
theorem refuses_itemLoop_next {u : Bytes} (h : TakesValue p w v) (sofar : List Json)
    (hrest : (loop (itemStep p) (moves_itemStep p) (v :: sofar)).Refuses
      (separated false (u :: ws)) e) :
    (loop (itemStep p) (moves_itemStep p) sofar).Refuses (separated false (w :: u :: ws)) e := by
  rw [loop_eq, separated, if_neg Bool.false_ne_true, ← List.append_assoc]
  -- the comma that starts what follows ends the item before it
  exact (takes_itemStep h sofar).bind_refuses_cons (by decide) hrest

/-- The first item is refused. -/
theorem refuses_items (h : RefusesValue p w e) (ws : List Bytes) :
    (items p).Refuses (separated true (w :: ws)) e := by
  obtain ⟨c, t, rfl, hc⟩ := h.starts
  refine Refuses.append (w := c :: t) (.stop (run_another_true hc) ?_) _
  exact h.refuses.bind _

/-- The first item is taken, and a later one is refused. -/
theorem refuses_items_next {u : Bytes} (h : TakesValue p w v)
    (hrest : (loop (itemStep p) (moves_itemStep p) [v]).Refuses (separated false (u :: ws)) e) :
    (items p).Refuses (separated true (w :: u :: ws)) e := by
  have hall : (do let a ← p; loop (itemStep p) (moves_itemStep p) [a]).Refuses
      (w ++ separated false (u :: ws)) e :=
    h.takes.bind_refuses_cons (by decide) hrest
  obtain ⟨c, t, rfl, hc⟩ := h.starts
  exact .stop (run_another_true hc) hall

/-! #### Entries -/

/-- The quote of a key is found, after a comma if the entry is not the first. -/
theorem run_anotherKey (first : Bool) (s : Bytes) :
    (anotherKey first).run ((if first then [] else [Bytes.ascii ',']) ++ Bytes.ascii '"' :: s) =
      .ok (true, Bytes.ascii '"' :: s) := by
  cases first <;> rfl

/-- An entry whose value is refused. -/
theorem refuses_entryStep (h : p.Refuses w e) (k : String) (first : Bool) (m : TextMap Json) :
    (entryStep (mapEntry p) (first, m)).Refuses
      ((if first then [] else [Bytes.ascii ',']) ++ writeEntry k w) e := by
  -- the colon is taken, and the value is refused
  have hentry : (mapEntry p m k).Refuses (Bytes.ascii ':' :: w) e :=
    takes_colon.bind_refuses (h.bind _)
  have hkey : (do
      let k ← quoted
      let st' ← mapEntry p m k
      pure (.next (false, st') : Turn (Bool × TextMap Json) (TextMap Json))).Refuses
        (writeEntry k w) e :=
    (takes_quoted k).bind_refuses (hentry.bind _)
  intro rest
  rw [List.append_assoc]
  exact (run_bind_ok (run_anotherKey first _)).trans (hkey rest)

/-- An entry whose value is refused, before whatever other entries. -/
theorem refuses_entryLoop (h : p.Refuses w e) (k : String) (ws : List Bytes) (first : Bool)
    (m : TextMap Json) :
    (loop (entryStep (mapEntry p)) (moves_entryStep _) (first, m)).Refuses
      (separated first (writeEntry k w :: ws)) e := by
  rw [loop_eq, separated, ← List.append_assoc]
  exact ((refuses_entryStep h k first m).bind _).append _

/-- An entry that is taken, before one that is refused. -/
theorem refuses_entryLoop_next {u : Bytes} (h : TakesValue p w v) (k : String) (first : Bool)
    (m : TextMap Json)
    (hrest : (loop (entryStep (mapEntry p)) (moves_entryStep _) (false, m.insert k v)).Refuses
      (separated false (u :: ws)) e) :
    (loop (entryStep (mapEntry p)) (moves_entryStep _) (first, m)).Refuses
      (separated first (writeEntry k w :: u :: ws)) e := by
  have hentry : Takes goesOn (mapEntry p m k) (Bytes.ascii ':' :: w) (m.insert k v) :=
    takes_colon.bind (h.takes.bind_nil fun _ => rfl)
  rw [loop_eq, separated, ← List.append_assoc]
  exact (takes_entryStep hentry first).bind_refuses_cons (by decide) hrest

/-! #### Arrays and objects -/

/-- An array is refused, if its items are. -/
theorem refuses_jsonOf_array {vs : List Json}
    (h : (items p).Refuses (separated true (writeItems vs)) e) :
    (jsonOf (some p)).Refuses (writeJson (.array vs)) e := by
  have harray : (array 1 fun _ => items p).Refuses
      (Bytes.ascii '[' :: separated true (writeItems vs)) e :=
    (Takes.byte Fault.truncated _).bind_refuses (h.bind _)
  rw [writeJson, enclose_eq, ← List.cons_append]
  exact (refuses_start (by decide) (harray.map Json.array)).append _

/-- An object is refused, if its entries are. -/
theorem refuses_jsonOf_object {es : List (String × Json)}
    (h : (entries (mapEntry p) .empty).Refuses (separated true (writeEntries es)) e) :
    (jsonOf (some p)).Refuses (writeJson (.object es)) e := by
  have hobject : (object 1 fun _ => entries (mapEntry p) .empty).Refuses
      (Bytes.ascii '\x7b' :: separated true (writeEntries es)) e :=
    (Takes.byte Fault.truncated _).bind_refuses (h.bind _)
  rw [writeJson, enclose_eq, ← List.cons_append]
  exact (refuses_start (by decide) (hobject.map Json.ofMap)).append _

end Refuses

mutual
/-- **The reader refuses what was written of a value** that nests deeper than the budget. -/
theorem refuses_json : (v : Json) → v.Canonical → v.FloatFree → (budget : Nat) →
    budget < v.depth → RefusesValue (json budget) (writeJson v) .malformed
  | .null, _, _, _, hd | .bool _, _, _, _, hd | .int _, _, _, _, hd | .text _, _, _, _, hd =>
    absurd hd (Nat.not_lt_zero _)
  | .float _, _, hf, _, _ => hf.elim
  -- no level is left: the bracket itself is refused
  | .array vs, _, hf, 0, _ => by
    refine ⟨?_, starts_writeJson (.array vs) hf⟩
    rw [writeJson, enclose_eq]
    exact refuses_start (by decide) (refuses_fail _ _)
  | .object es, _, hf, 0, _ => by
    refine ⟨?_, starts_writeJson (.object es) hf⟩
    rw [writeJson, enclose_eq]
    exact refuses_start (by decide) (refuses_fail _ _)
  -- a level is left, and the items nest deeper than what remains
  | .array vs, hc, hf, d + 1, hd =>
    ⟨refuses_jsonOf_array (refuses_items_json vs hc hf d (Nat.lt_of_succ_lt_succ hd)),
      starts_writeJson (.array vs) hf⟩
  | .object es, hc, hf, d + 1, hd =>
    ⟨refuses_jsonOf_object
        (refuses_entryLoop_json es hc.2 hf d (Nat.lt_of_succ_lt_succ hd) true .empty),
      starts_writeJson (.object es) hf⟩
/-- Items of which one is refused. -/
theorem refuses_items_json : (vs : List Json) → Json.CanonicalItems vs → Json.FloatFreeItems vs →
    (budget : Nat) → budget < Json.depthItems vs →
      (items (json budget)).Refuses (separated true (writeItems vs)) .malformed
  | [], _, _, _, hd => absurd hd (Nat.not_lt_zero _)
  | v :: vs, hc, hf, budget, hd => by
    by_cases hv : budget < v.depth
    · exact refuses_items (refuses_json v hc.1 hf.1 budget hv) _
    · -- the first item is taken, so a later one is refused
      have hvs : budget < Json.depthItems vs := by
        rw [Json.depthItems] at hd
        omega
      have htakes := takes_json v hc.1 hf.1 budget (Nat.le_of_not_lt hv)
      have hrest := refuses_itemLoop_json vs hc.2 hf.2 budget hvs [v]
      match vs, hvs with
      | u :: us, _ => exact refuses_items_next htakes hrest
/-- Later items of which one is refused. -/
theorem refuses_itemLoop_json : (vs : List Json) → Json.CanonicalItems vs →
    Json.FloatFreeItems vs → (budget : Nat) → budget < Json.depthItems vs → (sofar : List Json) →
      (loop (itemStep (json budget)) (moves_itemStep _) sofar).Refuses
        (separated false (writeItems vs)) .malformed
  | [], _, _, _, hd, _ => absurd hd (Nat.not_lt_zero _)
  | v :: vs, hc, hf, budget, hd, sofar => by
    by_cases hv : budget < v.depth
    · exact refuses_itemLoop (refuses_json v hc.1 hf.1 budget hv) _ sofar
    · have hvs : budget < Json.depthItems vs := by
        rw [Json.depthItems] at hd
        omega
      have htakes := takes_json v hc.1 hf.1 budget (Nat.le_of_not_lt hv)
      have hrest := refuses_itemLoop_json vs hc.2 hf.2 budget hvs (v :: sofar)
      match vs, hvs with
      | u :: us, _ => exact refuses_itemLoop_next htakes sofar hrest
/-- Entries of which one is refused. -/
theorem refuses_entryLoop_json : (es : List (String × Json)) → Json.CanonicalEntries es →
    Json.FloatFreeEntries es → (budget : Nat) → budget < Json.depthEntries es → (first : Bool) →
      (m : TextMap Json) →
      (loop (entryStep (mapEntry (json budget))) (moves_entryStep _) (first, m)).Refuses
        (separated first (writeEntries es)) .malformed
  | [], _, _, _, hd, _, _ => absurd hd (Nat.not_lt_zero _)
  | (k, v) :: es, hc, hf, budget, hd, first, m => by
    by_cases hv : budget < v.depth
    · exact refuses_entryLoop (refuses_json v hc.1 hf.1 budget hv).refuses k _ first m
    · have hes : budget < Json.depthEntries es := by
        rw [Json.depthEntries] at hd
        omega
      have htakes := takes_json v hc.1 hf.1 budget (Nat.le_of_not_lt hv)
      have hrest := refuses_entryLoop_json es hc.2 hf.2 budget hes false (m.insert k v)
      match es, hes with
      | (_, _) :: _, _ => exact refuses_entryLoop_next htakes k first m hrest
end

end TwoTier.JsonText
