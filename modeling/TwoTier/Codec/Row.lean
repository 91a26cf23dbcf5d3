import TwoTier.Codec.Reader
import TwoTier.Value.Shape

/-!
# Rows of field readers

An encoding writes a record either as its fields in order or as entries under the fields' names. A
**row** reads both forms, and is put together field by field, as the fields of a shape are:

* `Row.inOrder` reads the fields one after the other, for as long as the encoding says that there is
  another item; a field beyond the last item has its fallback.
* `Row.fill?` reads the value of one entry into the slot of its field; a second entry for a field is
  a fault, and a name that no field has is left to the caller.
-/

namespace TwoTier

/-- What an encoding has to say about its records. The states `σ` tell how far the items of a record
in order have been read. -/
structure RowStyle (ε σ : Type) where
  /-- Whether there is one more item, and the state after it. -/
  another : σ → Reader ε (Option σ)
  /-- What stands between the name and the value of an entry. -/
  between : Reader ε Unit
  /-- The fault of a field that is missing and has no fallback. -/
  missing : ε
  /-- The fault of a second entry for one field. -/
  duplicate : ε

/-- Reads the next item with `p`; beyond the last one stands the fallback. -/
def RowStyle.item {ε σ α : Type} (style : RowStyle ε σ) (fallback : Option α) (p : Reader ε α)
    (st : σ) : Reader ε (α × σ) := do
  match ← style.another st with
  | some st' =>
    let a ← p
    pure (a, st')
  | none =>
    let a ← Reader.ofOption style.missing fallback
    pure (a, st)

/-- A reader of fields `α`, whose slots are `S`. -/
structure Row (ε σ α S : Type) where
  /-- Reads the fields in order. -/
  inOrder : σ → Reader ε (α × σ)
  /-- Reads the value of the entry under a name into its slot, if a field has that name. -/
  fill? : String → S → Option (Reader ε S)

namespace Row

variable {ε σ α β S : Type}

/-- No fields. -/
def nil : Row ε σ Unit Unit where
  inOrder st := pure ((), st)
  fill? _ _ := none

/-- One more field in front. -/
def cons (style : RowStyle ε σ) (name : String) (fallback : Option α) (value : Reader ε α)
    (rest : Row ε σ β S) : Row ε σ (α × β) (Option α × S) where
  inOrder st := do
    let (a, st) ← style.item fallback value st
    let (b, st) ← rest.inOrder st
    pure ((a, b), st)
  fill? key slots :=
    if key = name then
      match slots.1 with
      | some _ => some (Reader.fail style.duplicate)
      | none => some do
        style.between
        let a ← value
        pure (some a, slots.2)
    else
      (rest.fill? key slots.2).map fun p => do
        let slots' ← p
        pure (slots.1, slots')

end Row

end TwoTier
