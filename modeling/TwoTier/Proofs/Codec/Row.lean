import TwoTier.Codec.Row
import TwoTier.Proofs.Codec.Takes
import TwoTier.Proofs.Value.Regular

/-!
# Reading records by name

Where a record is written as entries under the names of its fields, the entries may come in any
order. What has been read of a value after some of them is `Fields.slotsOf known v`: the fields with
a `known` name have their values, and the others have none.

* The entry of a field takes the slots one step further (`Fields.fill?_slotsOf`), an entry of no
  field is left to the encoding (`Fields.fill?_eq_none`);
* in the end the value is there, if every field was read or has its fallback for a value
  (`Fields.collect_slotsOf`).

`Fields.row` is the row of the fields for any way to read values, so that this is said once for all
encodings.
-/

namespace TwoTier.Fields

open Reader

variable {ε σ α : Type}

/-! ### Rows, slots and entries -/

/-- The row of the fields, whose values are read by `value`. -/
def row (style : RowStyle ε σ) (value : {α : Type} → Shape α → Reader ε α) :
    {α : Type} → (fs : Fields α) → Row ε σ α fs.Slots
  | _, .nil => Row.nil
  | _, .cons name fallback s rest =>
    Row.cons style name fallback (value s) (rest.row style value)

/-- The slots in which the fields with a known name have their values. -/
def slotsOf (known : List String) : {α : Type} → (fs : Fields α) → α → fs.Slots
  | _, .nil, _ => ()
  | _, .cons name _ _ rest, v => (if name ∈ known then some v.1 else none, rest.slotsOf known v.2)

/-- The field under the name `k` is there, and its shape and value satisfy `P` with `w`. -/
def Holds (P : {α : Type} → Shape α → α → Bytes → Prop) :
    {α : Type} → Fields α → α → String → Bytes → Prop
  | _, .nil, _, _, _ => False
  | _, .cons name _ s rest, v, k, w => if k = name then P s v.1 w else rest.Holds P v.2 k w

/-- All fields have a known name, or their fallbacks for their values. -/
def Restored (known : List String) : {α : Type} → Fields α → α → Prop
  | _, .nil, _ => True
  | _, .cons name fallback _ rest, v =>
    (name ∈ known ∨ fallback = some v.1) ∧ rest.Restored known v.2

/-- The shapes and values of all fields satisfy `P`. -/
def All (P : {α : Type} → Shape α → α → Prop) : {α : Type} → Fields α → α → Prop
  | _, .nil, _ => True
  | _, .cons _ _ s rest, v => P s v.1 ∧ rest.All P v.2

/-- The entries of the fields, with their values as `write` makes them. -/
def entries (write : {α : Type} → Shape α → α → Bytes) :
    {α : Type} → Fields α → α → List (String × Bytes)
  | _, .nil, _ => []
  | _, .cons name _ s rest, v => (name, write s v.1) :: rest.entries write v.2

/-! ### Slots -/

/-- Before the first entry all slots are empty. -/
theorem slotsOf_nil : {α : Type} → (fs : Fields α) → (v : α) → fs.slotsOf [] v = fs.blank
  | _, .nil, _ => rfl
  | _, .cons _ _ _ rest, v => by
    rw [slotsOf, blank, if_neg List.not_mem_nil, rest.slotsOf_nil v.2]

/-- A name that no field has makes no difference. -/
theorem slotsOf_cons_of_not_mem {k : String} {known : List String} :
    {α : Type} → (fs : Fields α) → (v : α) → k ∉ fs.names →
      fs.slotsOf (k :: known) v = fs.slotsOf known v
  | _, .nil, _, _ => rfl
  | _, .cons name _ _ rest, v, hk => by
    have hne : name ≠ k := fun h => hk (h ▸ List.mem_cons_self)
    -- the new name is not the one of the first field, which is filled as before
    have hmem : name ∈ k :: known ↔ name ∈ known := by simp [hne]
    simp only [slotsOf, hmem]
    rw [rest.slotsOf_cons_of_not_mem v.2 fun h => hk (List.mem_cons_of_mem _ h)]

/-- In the end there is the value, if each field was read or has its fallback. -/
theorem collect_slotsOf {known : List String} :
    {α : Type} → (fs : Fields α) → (v : α) → fs.Restored known v →
      fs.collect (fs.slotsOf known v) = some v
  | _, .nil, _, _ => rfl
  | _, .cons name fallback _ rest, v, h => by
    -- either the entry of the first field has been read, or its fallback stands in for it
    have hslot : (if name ∈ known then some v.1 else none).or fallback = some v.1 := by
      split
      · rfl
      · exact h.1.resolve_left ‹_›
    have hrest := rest.collect_slotsOf v.2 h.2
    simp only [slotsOf, collect, hslot, hrest]
    rfl

/-- If every field was read, no fallback is needed. -/
theorem restored_of_names {known : List String} :
    {α : Type} → (fs : Fields α) → (v : α) → (∀ name ∈ fs.names, name ∈ known) →
      fs.Restored known v
  | _, .nil, _, _ => trivial
  | _, .cons _ _ _ rest, v, h =>
    ⟨.inl (h _ List.mem_cons_self),
      rest.restored_of_names v.2 fun name hn => h name (List.mem_cons_of_mem _ hn)⟩

/-- To read more entries spoils nothing. -/
theorem Restored.mono {known known' : List String} (hsub : ∀ name ∈ known, name ∈ known') :
    {α : Type} → {fs : Fields α} → {v : α} → fs.Restored known v → fs.Restored known' v
  | _, .nil, _, _ => trivial
  | _, .cons .., _, h => ⟨h.1.imp_left (hsub _), h.2.mono hsub⟩

/-- Entries of different names are still unknown after the first of them. -/
theorem not_known_of_nodup {known : List String} {e : String × Bytes} {es : List (String × Bytes)}
    (hes : ((e :: es).map (·.1)).Nodup) (hk : ∀ x ∈ e :: es, x.1 ∉ known) :
    ∀ x ∈ es, x.1 ∉ e.1 :: known := by
  intro x hx hmem
  -- an entry that is known now is the first one, or was known before
  rcases List.mem_cons.mp hmem with heq | hmem
  · have hx' : x.1 ∈ es.map (·.1) := List.mem_map_of_mem hx
    rw [heq] at hx'
    exact (List.nodup_cons.mp hes).1 hx'
  · exact hk x (List.mem_cons_of_mem e hx) hmem

/-! ### Filling a slot -/

section Fill

variable {style : RowStyle ε σ} {value : {α : Type} → Shape α → Reader ε α} {more : UInt8 → Bool}
  {known : List String} {k : String} {w sep : Bytes}

/-- An entry whose name no field has fills no slot. -/
theorem fill?_eq_none : {α : Type} → (fs : Fields α) → (slots : fs.Slots) → k ∉ fs.names →
    (fs.row style value).fill? k slots = none
  | _, .nil, _, _ => rfl
  | _, .cons name _ _ rest, slots, hk => by
    have hne : k ≠ name := fun h => hk (h ▸ List.mem_cons_self)
    rw [row]
    simp only [Row.cons, if_neg hne]
    rw [rest.fill?_eq_none slots.2 fun h => hk (List.mem_cons_of_mem _ h)]
    rfl

/-- **The entry of a field fills its slot.** -/
theorem fill?_slotsOf (hsep : Takes closed style.between sep ()) (hk : k ∉ known) :
    {α : Type} → (fs : Fields α) → fs.names.Nodup → (v : α) →
      fs.Holds (fun s a w => Takes more (value s) w a) v k w →
      ∃ p, (fs.row style value).fill? k (fs.slotsOf known v) = some p ∧
        Takes more p (sep ++ w) (fs.slotsOf (k :: known) v)
  | _, .nil, _, _, h => h.elim
  | _, .cons name _ s rest, hn, v, h => by
    have hn' := List.nodup_cons.mp hn
    rw [Holds] at h
    by_cases hname : k = name
    · -- its own field, which has not been read before
      subst hname
      rw [if_pos rfl] at h
      simp only [row, Row.cons, slotsOf, if_true, if_neg hk, if_pos List.mem_cons_self]
      refine ⟨_, rfl, hsep.bind (h.bind_nil fun r => ?_)⟩
      rw [rest.slotsOf_cons_of_not_mem v.2 hn'.1]
      rfl
    · -- a field further on
      rw [if_neg hname] at h
      obtain ⟨p, hp, ht⟩ := rest.fill?_slotsOf hsep hk hn'.2 v.2 h
      have hmem : name ∈ k :: known ↔ name ∈ known := by simp [Ne.symm hname]
      simp only [row, Row.cons, slotsOf, if_neg hname, hp, Option.map_some]
      simp only [hmem]
      exact ⟨_, rfl, ht.map fun slots' => (_, slots')⟩

/-- Reads an entry for a slot, and makes something of its value. -/
def fillSlot (style : RowStyle ε σ) (slot : Option α) (p : Reader ε α) {β : Type} (f : α → β) :
    Reader ε β :=
  match slot with
  | some _ => fail style.duplicate
  | none => do
    style.between
    let a ← p
    pure (f a)

theorem fillSlot_bind {β γ : Type} (slot : Option α) (p : Reader ε α) (f : α → β) (g : β → γ) :
    (fillSlot style slot p f >>= fun b => pure (g b)) = fillSlot style slot p fun a => g (f a) := by
  -- a full slot fails on both sides, and an empty one is read the same way
  cases slot with
  | some a => rfl
  | none =>
    unfold fillSlot
    dsimp only
    rw [Reader.bind_assoc]
    congr 1
    funext
    rw [Reader.bind_assoc]
    rfl

section Names

variable {β : Type} {name : String} {fallback : Option α} {s : Shape α} {rest : Fields β}

/-- The first field takes the entries under its name, … -/
theorem fill?_head (slots : Option α × rest.Slots) :
    ((Fields.cons name fallback s rest).row style value).fill? name slots =
      some (fillSlot style slots.1 (value s) fun a => (some a, slots.2)) := by
  obtain ⟨slot, slots⟩ := slots
  simp only [row, Row.cons, if_true]
  cases slot <;> rfl

/-- … and leaves all others to the rest of the fields. -/
theorem fill?_tail {γ : Type} {slot : Option γ} {p : Reader ε γ} {f : γ → rest.Slots}
    {slots : Option α × rest.Slots} (hk : k ≠ name)
    (h : (rest.row style value).fill? k slots.2 = some (fillSlot style slot p f)) :
    ((Fields.cons name fallback s rest).row style value).fill? k slots =
      some (fillSlot style slot p fun a => (slots.1, f a)) := by
  simp only [row, Row.cons, if_neg hk, h, Option.map_some]
  rw [fillSlot_bind]

end Names

end Fill

/-! ### The entries of a value -/

section Holds

variable {β : Type} {P : {α : Type} → Shape α → α → Bytes → Prop} {name k : String}
  {fallback : Option α} {s : Shape α} {rest : Fields β} {v : α × β} {w : Bytes}

/-- The first field is the one under its own name, … -/
theorem holds_head : (Fields.cons name fallback s rest).Holds P v name w ↔ P s v.1 w := by
  rw [Holds, if_pos rfl]

/-- … and is passed over under any other. -/
theorem holds_tail (hk : k ≠ name) :
    (Fields.cons name fallback s rest).Holds P v k w ↔ rest.Holds P v.2 k w := by
  rw [Holds, if_neg hk]

end Holds

section Entries

variable {write : {α : Type} → Shape α → α → Bytes} {P : {α : Type} → Shape α → α → Bytes → Prop}

/-- The entries stand under the names of the fields, in their order, … -/
@[simp] theorem map_fst_entries : {α : Type} → (fs : Fields α) → (v : α) →
    (fs.entries write v).map (·.1) = fs.names
  | _, .nil, _ => rfl
  | _, .cons _ _ _ rest, v => by rw [entries, names, List.map_cons, rest.map_fst_entries v.2]

/-- … and there is one for each field. -/
@[simp] theorem length_entries : {α : Type} → (fs : Fields α) → (v : α) →
    (fs.entries write v).length = fs.size
  | _, .nil, _ => rfl
  | _, .cons _ _ _ rest, v => by rw [entries, size, List.length_cons, rest.length_entries v.2]

/-- The entries of a value whose fields all satisfy `P` satisfy it field by field. -/
theorem holds_of_mem_entries {e : String × Bytes} :
    {α : Type} → (fs : Fields α) → fs.names.Nodup → (v : α) →
      fs.All (fun s a => P s a (write s a)) v → e ∈ fs.entries write v →
      fs.Holds P v e.1 e.2
  | _, .nil, _, _, _, he => nomatch he
  | _, .cons name _ s rest, hn, v, h, he => by
    have hn' := List.nodup_cons.mp hn
    rw [Holds]
    rcases List.mem_cons.mp he with rfl | he
    · rw [if_pos rfl]
      exact h.1
    · -- an entry of a later field; the names differ, so it is not the first field's
      have hmem : e.1 ∈ rest.names := by
        rw [← rest.map_fst_entries v.2]
        exact List.mem_map_of_mem he
      have hne : e.1 ≠ name := fun h => hn'.1 (by rwa [← h])
      rw [if_neg hne]
      exact rest.holds_of_mem_entries hn'.2 v.2 h.2 he

/-- What holds of all fields holds of their entries. -/
theorem forall_mem_entries (Q : Bytes → Prop) : {α : Type} → (fs : Fields α) → (v : α) →
    fs.All (fun s a => Q (write s a)) v → ∀ e ∈ fs.entries write v, Q e.2
  | _, .nil, _, _, _, he => nomatch he
  | _, .cons _ _ _ rest, v, h, e, he => by
    rcases List.mem_cons.mp he with rfl | he
    · exact h.1
    · exact rest.forall_mem_entries Q v.2 h.2 e he

end Entries

end TwoTier.Fields
