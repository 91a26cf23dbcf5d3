import TwoTier.Decimal.Binary64
import TwoTier.TextMap
import TwoTier.Value.Json

/-!
# Shapes of values

A **shape** says how the values of a type are laid out, apart from any encoding: which scalars,
sequences, maps and records they are made of. `Shape α` describes the values of `α`; an encoding is
given once, by recursion on shapes, and then works for every type that has one.

* `IntKind` lists the integers: a byte, naturals of 32 and 64 bits, integers of 64 bits.
* A **record** has named fields in a fixed order (`Fields`); a field with a fallback may be missing.
  The fields of a record make a value of the record's type, or none (a sum out of range, say), and
  `make (fields b) = some b` ties the two directions together.
* A **choice** is one of finitely many named values.
* `Fields.Slots` holds the fields of a record that were read so far, in any order, and
  `Fields.collect` makes the fields of them, with the fallbacks for those still missing.
* `Shape.refused` has a value that no encoding accepts.
-/

namespace TwoTier

/-! ### Integers -/

/-- The kinds of integers. -/
inductive IntKind where
  | byte
  | nat32
  | nat64
  | int64
deriving DecidableEq, Repr

namespace IntKind

/-- The least integer of a kind. -/
def least : IntKind → Int
  | .int64 => -0x8000000000000000
  | _ => 0

/-- The greatest integer of a kind. -/
def greatest : IntKind → Int
  | .byte => 0xff
  | .nat32 => 0xffffffff
  | .nat64 => 0xffffffffffffffff
  | .int64 => 0x7fffffffffffffff

/-- The number of bytes that hold an integer of a kind. -/
def width : IntKind → Nat
  | .byte => 1
  | .nat32 => 4
  | .nat64 => 8
  | .int64 => 8

/-- The integers of a kind. -/
abbrev Value (k : IntKind) : Type := { i : Int // k.least ≤ i ∧ i ≤ k.greatest }

/-- The integer, if it is one of the kind. -/
def ofInt? (k : IntKind) (i : Int) : Option k.Value :=
  if h : k.least ≤ i ∧ i ≤ k.greatest then some ⟨i, h⟩ else none

@[simp] theorem ofInt?_val {k : IntKind} (v : k.Value) : k.ofInt? v.1 = some v := by
  simp [ofInt?, v.2]

/-- A byte is an integer of every kind. -/
def ofByte (k : IntKind) (b : UInt8) : k.Value :=
  ⟨b.toNat, by have := b.toNat_lt; cases k <;> simp [least, greatest] <;> omega⟩

end IntKind

/-! ### Shapes -/

mutual
/-- How the values of a type are laid out. -/
inductive Shape : Type → Type 1 where
  | unit : Shape Unit
  | bool : Shape Bool
  | char : Shape Char
  | text : Shape String
  | int (k : IntKind) : Shape k.Value
  | float : Shape Binary64
  | option {α : Type} (s : Shape α) : Shape (Option α)
  | list {α : Type} (s : Shape α) : Shape (List α)
  | map {α : Type} (s : Shape α) : Shape (TextMap α)
  | pair {α β : Type} (s : Shape α) (t : Shape β) : Shape (α × β)
  /-- A record. A `strict` one refuses fields that it does not have, and names them by text only. -/
  | record {α β : Type} (strict : Bool) (fs : Fields α) (make : α → Option β) (fields : β → α)
      (make_fields : ∀ b, make (fields b) = some b) : Shape β
  /-- One of finitely many named values. -/
  | choice {β : Type} (names : List String) (pick : Fin names.length → β)
      (index : β → Fin names.length) (pick_index : ∀ b, pick (index b) = b) : Shape β
  | json : Shape Json
  /-- A value that no encoding accepts, for the reason given. -/
  | refused (reason : String) : Shape Unit
/-- The fields of a record, in order. -/
inductive Fields : Type → Type 1 where
  | nil : Fields Unit
  /-- A field; one with a `fallback` may be missing, and then has that value. -/
  | cons {α β : Type} (name : String) (fallback : Option α) (s : Shape α) (rest : Fields β) :
      Fields (α × β)
end

/-- The number of fields. -/
def Fields.size : {α : Type} → Fields α → Nat
  | _, .nil => 0
  | _, .cons _ _ _ rest => rest.size + 1

/-! ### Slots for the fields of a record -/

/-- For each field, its value if it was read. -/
def Fields.Slots : {α : Type} → Fields α → Type
  | _, .nil => Unit
  | _, .cons (α := α) _ _ _ rest => Option α × rest.Slots

/-- No field was read. -/
def Fields.blank : {α : Type} → (fs : Fields α) → fs.Slots
  | _, .nil => ()
  | _, .cons _ _ _ rest => (none, rest.blank)

/-- The fields with the values in the slots; `none` if one without a fallback is missing. -/
def Fields.collect : {α : Type} → (fs : Fields α) → fs.Slots → Option α
  | _, .nil, _ => some ()
  | _, .cons _ fallback _ rest, slots => do
    let a ← slots.1.or fallback
    let b ← rest.collect slots.2
    pure (a, b)

/-! ### Values without an encoding -/

mutual
/-- The reason why a value cannot be encoded, if there is one. -/
def Shape.refusal? : {α : Type} → Shape α → α → Option String
  | _, .refused reason, _ => some reason
  | _, .option s, v => match v with
    | none => none
    | some a => s.refusal? a
  | _, .list s, v => v.findSome? s.refusal?
  | _, .map s, v => v.entries.findSome? fun e => s.refusal? e.2
  | _, .pair s t, v => (s.refusal? v.1).or (t.refusal? v.2)
  | _, .record _ fs _ fields _, v => fs.refusal? (fields v)
  | _, _, _ => none
/-- The reason why the fields of a record cannot be encoded, if there is one. -/
def Fields.refusal? : {α : Type} → Fields α → α → Option String
  | _, .nil, _ => none
  | _, .cons _ _ s rest, v => (s.refusal? v.1).or (rest.refusal? v.2)
end

end TwoTier
