import TwoTier.Value.Shape

/-!
# Sample records

Three records as they are kept in a cache. `Contact` is the later form of `ContactName`: it has one
field more, which may be missing in what was stored before the field was there.
-/

namespace TwoTier

namespace Sample

/-- The number of a record. -/
abbrev Id : Type := IntKind.nat64.Value

/-! ### A user -/

/-- A user. -/
structure User where
  id : Id
  name : String
  email : String
deriving DecidableEq

/-- The fields of a user. -/
def User.fields : Fields (Id × String × String × Unit) :=
  .cons "id" none (.int .nat64) <| .cons "name" none .text <| .cons "email" none .text .nil

/-- The layout of a user. -/
def User.shape : Shape User :=
  .record false User.fields (fun f => some ⟨f.1, f.2.1, f.2.2.1⟩)
    (fun u => (u.id, u.name, u.email, ())) fun _ => rfl

/-! ### A contact, before and after its address was added -/

/-- A contact without an address. -/
structure ContactName where
  id : Id
  name : String
deriving DecidableEq

/-- The fields of a contact without an address. -/
def ContactName.fields : Fields (Id × String × Unit) :=
  .cons "id" none (.int .nat64) <| .cons "name" none .text .nil

/-- The layout of a contact without an address. -/
def ContactName.shape : Shape ContactName :=
  .record false ContactName.fields (fun f => some ⟨f.1, f.2.1⟩)
    (fun c => (c.id, c.name, ())) fun _ => rfl

/-- A contact, with an address if it is known. -/
structure Contact where
  id : Id
  name : String
  email : Option String
deriving DecidableEq

/-- The fields of a contact; the address may be missing. -/
def Contact.fields : Fields (Id × String × Option String × Unit) :=
  .cons "id" none (.int .nat64) <| .cons "name" none .text <|
  .cons "email" (some none) (.option .text) .nil

/-- The layout of a contact. -/
def Contact.shape : Shape Contact :=
  .record false Contact.fields (fun f => some ⟨f.1, f.2.1, f.2.2.1⟩)
    (fun c => (c.id, c.name, c.email, ())) fun _ => rfl

end Sample

end TwoTier
