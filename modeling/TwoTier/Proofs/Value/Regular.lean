import TwoTier.Bytes
import TwoTier.Value.Shape

/-!
# Regular shapes

A shape is **regular** (`Shape.Regular`) if its values can be told apart once they are written down:

* the fields of a record and the names of a choice have names of their own;
* what may be missing is not written as nothing when it is there (`Shape.nullable`);
* nothing in it is free-form or refused.

All values of a regular shape have an encoding (`Shape.refusal?_eq_none`). What else an encoding may
ask is `Shape.FloatFree`, where doubles are not written exactly; `Shape.depth`, where nesting is
limited; and `Shape.Fits`, where lengths are written with a fixed number of bytes.

Maps come back from their entries: `TextMap.ofList_entries`.
-/

namespace TwoTier

/-! ### Maps and their entries -/

namespace TextMap

variable {α : Type}

/-- An entry whose key is above all others comes last. -/
theorem insertEntry_of_forall_lt {k : String} {v : α} {l : List (String × α)}
    (h : ∀ e ∈ l, e.1 < k) : insertEntry k v l = l ++ [(k, v)] := by
  induction l with
  | nil => rfl
  | cons e l ih =>
    have he : e.1 < k := h e List.mem_cons_self
    -- the new key belongs behind this one
    have hlt : ¬ k < e.1 := fun hlt => String.lt_irrefl k (String.lt_trans hlt he)
    have hne : ¬ k = e.1 := fun heq => String.lt_irrefl k (by rwa [← heq] at he)
    rw [insertEntry, if_neg hlt, if_neg hne, ih fun x hx => h x (List.mem_cons_of_mem e hx)]
    rfl

/-- Entries in ascending order, put into a map that is below them, come after its own. -/
theorem entries_foldl_insert {l : List (String × α)} (h : l.Pairwise fun a b => a.1 < b.1)
    (m : TextMap α) (hm : ∀ e ∈ m.entries, ∀ e' ∈ l, e.1 < e'.1) :
    (l.foldl (fun m e => m.insert e.1 e.2) m).entries = m.entries ++ l := by
  -- on the entries that are left, each above all that are in the map
  induction l generalizing m with
  | nil => rw [List.append_nil, List.foldl_nil]
  | cons e l ih =>
    have hl := List.pairwise_cons.mp h
    have he : (m.insert e.1 e.2).entries = m.entries ++ [e] :=
      insertEntry_of_forall_lt fun x hx => hm x hx e List.mem_cons_self
    rw [List.foldl_cons, ih hl.2, he, List.append_assoc, List.singleton_append]
    intro x hx y hy
    rw [he] at hx
    -- what is in the map was there, or is the entry just put in
    rcases List.mem_append.mp hx with hx | hx
    · exact hm x hx y (List.mem_cons_of_mem e hy)
    · cases List.mem_singleton.mp hx
      exact hl.1 y hy

/-- A map is its entries. -/
theorem ext_entries {m m' : TextMap α} (h : m.entries = m'.entries) : m = m' := by
  cases m
  cases m'
  cases h
  rfl

theorem ofList_entries (m : TextMap α) : ofList m.entries = m :=
  ext_entries (entries_foldl_insert m.sorted empty fun _ he => nomatch he)

end TextMap

/-! ### Integers and names -/

/-- The integers of every kind are integers of 64 bits, signed or not. -/
theorem IntKind.inRange {k : IntKind} (v : k.Value) : Json.InRange v.1 := by
  obtain ⟨i, hi⟩ := v
  -- the bounds of each kind are numbers
  cases k <;> simp only [IntKind.least, IntKind.greatest] at hi <;>
    simp only [Json.InRange] <;> omega

/-- Among different names each is at one position only. -/
theorem finIdxOf?_get {names : List String} (hn : names.Nodup) (i : Fin names.length) :
    names.finIdxOf? (names.get i) = some i := by
  refine List.finIdxOf?_eq_some_iff.mpr ⟨rfl, fun j hj heq => ?_⟩
  -- an earlier position would have another name
  exact absurd (List.getElem_inj hn |>.mp heq) (by omega)

/-! ### Regular shapes -/

/-- The names of the fields, in order. -/
def Fields.names : {α : Type} → Fields α → List String
  | _, .nil => []
  | _, .cons name _ _ rest => name :: rest.names

/-- Some value of the shape may be written as nothing. -/
def Shape.nullable : {α : Type} → Shape α → Bool
  | _, .unit => true
  | _, .option _ => true
  | _, .json => true
  | _, .refused _ => true
  | _, _ => false

/-- A text whose length takes at most four bytes. -/
def ShortName (name : String) : Prop := (Bytes.ofText name).length < Bytes.bound 4

instance (name : String) : Decidable (ShortName name) := inferInstanceAs (Decidable (_ < _))

mutual
/-- The values of the shape can be told apart once they are written down. -/
def Shape.Regular : {α : Type} → Shape α → Prop
  | _, .option s => s.nullable = false ∧ s.Regular
  | _, .list s => s.Regular
  | _, .map s => s.Regular
  | _, .pair s t => s.Regular ∧ t.Regular
  | _, .record _ fs _ _ _ => fs.names.Nodup ∧ fs.size < Bytes.bound 4 ∧ fs.Regular
  | _, .choice names _ _ _ =>
    names.Nodup ∧ names.length < Bytes.bound 4 ∧ ∀ name ∈ names, ShortName name
  | _, .json => False
  | _, .refused _ => False
  | _, _ => True
/-- The values of all fields can be told apart once they are written down. -/
def Fields.Regular : {α : Type} → Fields α → Prop
  | _, .nil => True
  | _, .cons name _ s rest => ShortName name ∧ s.Regular ∧ rest.Regular
end

mutual
/-- No value of the shape has an encoding that fails. -/
theorem Shape.refusal?_eq_none : {α : Type} → (s : Shape α) → s.Regular → ∀ v, s.refusal? v = none
  | _, .unit, _, _ => rfl
  | _, .bool, _, _ => rfl
  | _, .char, _, _ => rfl
  | _, .text, _, _ => rfl
  | _, .int _, _, _ => rfl
  | _, .float, _, _ => rfl
  | _, .option _, _, none => rfl
  | _, .option s, hs, some a => s.refusal?_eq_none hs.2 a
  | _, .list s, hs, v => List.findSome?_eq_none_iff.mpr fun a _ => s.refusal?_eq_none hs a
  | _, .map s, hs, v => List.findSome?_eq_none_iff.mpr fun e _ => s.refusal?_eq_none hs e.2
  | _, .pair s t, hs, v => by
    rw [Shape.refusal?, s.refusal?_eq_none hs.1, t.refusal?_eq_none hs.2, Option.none_or]
  | _, .record _ fs _ fields _, hs, v => fs.refusal?_eq_none hs.2.2 (fields v)
  | _, .choice _ _ _ _, _, _ => rfl
  | _, .json, hs, _ => hs.elim
  | _, .refused _, hs, _ => hs.elim
/-- No fields of a record have an encoding that fails. -/
theorem Fields.refusal?_eq_none :
    {α : Type} → (fs : Fields α) → fs.Regular → ∀ v, fs.refusal? v = none
  | _, .nil, _, _ => rfl
  | _, .cons _ _ s rest, hs, v => by
    rw [Fields.refusal?, s.refusal?_eq_none hs.2.1, rest.refusal?_eq_none hs.2.2, Option.none_or]
end

/-! ### Doubles, depth and lengths -/

mutual
/-- No double occurs in the values of the shape. -/
def Shape.FloatFree : {α : Type} → Shape α → Prop
  | _, .float => False
  | _, .option s => s.FloatFree
  | _, .list s => s.FloatFree
  | _, .map s => s.FloatFree
  | _, .pair s t => s.FloatFree ∧ t.FloatFree
  | _, .record _ fs _ _ _ => fs.FloatFree
  | _, .json => False
  | _, _ => True
/-- No double occurs in the fields. -/
def Fields.FloatFree : {α : Type} → Fields α → Prop
  | _, .nil => True
  | _, .cons _ _ s rest => s.FloatFree ∧ rest.FloatFree
end

mutual
/-- How deep sequences, maps and records nest in the values of the shape; a scalar has depth
zero. -/
def Shape.depth : {α : Type} → Shape α → Nat
  | _, .option s => s.depth
  | _, .list s => s.depth + 1
  | _, .map s => s.depth + 1
  | _, .pair s t => max s.depth t.depth + 1
  | _, .record _ fs _ _ _ => fs.depth + 1
  | _, _ => 0
/-- The greatest depth among the fields. -/
def Fields.depth : {α : Type} → Fields α → Nat
  | _, .nil => 0
  | _, .cons _ _ s rest => max s.depth rest.depth
end

mutual
/-- The length of every text, sequence and map in the value fits in `width` bytes. -/
def Shape.Fits (width : Nat) : {α : Type} → Shape α → α → Prop
  | _, .text, v => (Bytes.ofText v).length < Bytes.bound width
  | _, .option s, v => ∀ a ∈ v, s.Fits width a
  | _, .list s, v => v.length < Bytes.bound width ∧ ∀ a ∈ v, s.Fits width a
  | _, .map s, v => v.size < Bytes.bound width ∧
      ∀ e ∈ v.entries, (Bytes.ofText e.1).length < Bytes.bound width ∧ s.Fits width e.2
  | _, .pair s t, v => s.Fits width v.1 ∧ t.Fits width v.2
  | _, .record _ fs _ fields _, v => fs.Fits width (fields v)
  | _, _, _ => True
/-- The lengths in the values of all fields fit in `width` bytes. -/
def Fields.Fits (width : Nat) : {α : Type} → Fields α → α → Prop
  | _, .nil, _ => True
  | _, .cons _ _ s rest, v => s.Fits width v.1 ∧ rest.Fits width v.2
end

end TwoTier
