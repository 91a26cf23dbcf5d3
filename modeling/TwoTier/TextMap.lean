/-!
# Maps from texts

A finite map whose keys are texts, kept as its entries in ascending order of the keys. Texts are
compared by code points, which is also the order of their UTF-8 forms; so the entries of a map are
in the order in which they are shown and written, and two maps with the same entries are equal.

* `TextMap.find?` is the view through which the operations are described: `find?_empty`,
  `find?_insert`, `find?_erase`;
* `TextMap.insert` and `TextMap.erase` keep the order (`sorted`), so that it is part of the type.
-/

namespace TwoTier

/-- A finite map from texts, as its entries in ascending order of the keys. -/
structure TextMap (α : Type) where
  /-- The entries, in ascending order of the keys. -/
  entries : List (String × α)
  /-- Each key is below every later one. -/
  sorted : entries.Pairwise fun a b => a.1 < b.1
deriving DecidableEq

namespace TextMap

variable {α β : Type}

/-- The map without entries. -/
def empty : TextMap α := ⟨[], .nil⟩

instance : Inhabited (TextMap α) := ⟨empty⟩

/-- The number of entries. -/
def size (m : TextMap α) : Nat := m.entries.length

/-- The keys, in ascending order. -/
def keys (m : TextMap α) : List String := m.entries.map (·.1)

/-- The value under a key. -/
def find? (m : TextMap α) (k : String) : Option α :=
  (m.entries.find? fun e => e.1 == k).map (·.2)

/-- Whether there is a value under a key. -/
def contains (m : TextMap α) (k : String) : Bool := (m.find? k).isSome

/-! ### Insertion -/

/-- Puts an entry into its place among entries in ascending order, over an entry with its key. -/
def insertEntry (k : String) (v : α) : List (String × α) → List (String × α)
  | [] => [(k, v)]
  | e :: rest =>
    -- the keys ascend, so no later entry can have this key
    if k < e.1 then (k, v) :: e :: rest
    else if k = e.1 then (k, v) :: rest
    else e :: insertEntry k v rest

theorem mem_insertEntry {k : String} {v : α} {l : List (String × α)} {e : String × α}
    (h : e ∈ insertEntry k v l) : e = (k, v) ∨ e ∈ l := by
  induction l with
  | nil => simpa [insertEntry] using h
  | cons e' rest ih =>
    rw [insertEntry] at h
    split at h
    · simpa using h
    · split at h
      · rcases List.mem_cons.1 h with h | h
        · exact .inl h
        · exact .inr (List.mem_cons_of_mem _ h)
      · rcases List.mem_cons.1 h with h | h
        · exact .inr (h ▸ List.mem_cons_self)
        · exact (ih h).imp id (List.mem_cons_of_mem _)

theorem lt_of_not_lt_of_ne {a b : String} (h : ¬ a < b) (hne : a ≠ b) : b < a := by
  rcases Std.lt_trichotomy a b with h' | h' | h'
  · exact absurd h' h
  · exact absurd h' hne
  · exact h'

theorem sorted_insertEntry (k : String) (v : α) {l : List (String × α)}
    (h : l.Pairwise fun a b => a.1 < b.1) :
    (insertEntry k v l).Pairwise fun a b => a.1 < b.1 := by
  induction l with
  | nil => simp [insertEntry]
  | cons e rest ih =>
    have hrest := List.pairwise_cons.1 h
    rw [insertEntry]
    split
    · next hk =>
      refine List.pairwise_cons.2 ⟨?_, h⟩
      intro e' he'
      rcases List.mem_cons.1 he' with rfl | he'
      · exact hk
      · exact String.lt_trans hk (hrest.1 e' he')
    · next hk =>
      split
      · next he => exact List.pairwise_cons.2 ⟨fun e' he' => he ▸ hrest.1 e' he', hrest.2⟩
      · next he =>
        refine List.pairwise_cons.2 ⟨?_, ih hrest.2⟩
        intro e' he'
        rcases mem_insertEntry he' with rfl | he'
        · exact lt_of_not_lt_of_ne hk he
        · exact hrest.1 e' he'

/-- The map with `v` under `k`, whatever was there before. -/
def insert (m : TextMap α) (k : String) (v : α) : TextMap α :=
  ⟨insertEntry k v m.entries, sorted_insertEntry k v m.sorted⟩

/-- The map with the given entries, of which the last wins among those with one key. -/
def ofList (l : List (String × α)) : TextMap α :=
  l.foldl (fun m e => m.insert e.1 e.2) empty

/-! ### Removal -/

/-- The map without an entry under `k`. -/
def erase (m : TextMap α) (k : String) : TextMap α :=
  ⟨m.entries.filter fun e => e.1 != k, m.sorted.filter _⟩

/-- The entries that `keep` keeps. -/
def filter (keep : String → α → Bool) (m : TextMap α) : TextMap α :=
  ⟨m.entries.filter fun e => keep e.1 e.2, m.sorted.filter _⟩

/-- The map with every value replaced. -/
def map (f : α → β) (m : TextMap α) : TextMap β :=
  ⟨m.entries.map fun e => (e.1, f e.2), List.pairwise_map.2 m.sorted⟩

/-! ### The view -/

@[simp] theorem find?_empty (k : String) : (empty : TextMap α).find? k = none := rfl

theorem find?_insert (m : TextMap α) (k : String) (v : α) (k' : String) :
    (m.insert k v).find? k' = if k' = k then some v else m.find? k' := by
  obtain ⟨l, hl⟩ := m
  simp only [find?, insert]
  clear hl
  -- on the entries: the order of the keys plays no part in a look-up
  induction l with
  | nil => simp only [insertEntry, List.find?_cons, List.find?_nil]; grind
  | cons e rest ih =>
    rw [insertEntry]
    split
    · simp only [List.find?_cons]; grind
    · split
      · simp only [List.find?_cons]; grind
      · simp only [List.find?_cons]; grind

@[simp] theorem find?_insert_self (m : TextMap α) (k : String) (v : α) :
    (m.insert k v).find? k = some v := by simp [find?_insert]

theorem find?_erase (m : TextMap α) (k k' : String) :
    (m.erase k).find? k' = if k' = k then none else m.find? k' := by
  obtain ⟨l, hl⟩ := m
  simp only [find?, erase]
  clear hl
  induction l with
  | nil => simp
  | cons e rest ih =>
    by_cases h : e.1 = k <;> simp only [List.filter_cons, List.find?_cons] <;> grind

@[simp] theorem find?_erase_self (m : TextMap α) (k : String) : (m.erase k).find? k = none := by
  simp [find?_erase]

end TextMap

end TwoTier
