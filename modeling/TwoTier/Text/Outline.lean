/-!
# Outlines

An **outline** shows a value by its parts: a constructor with its arguments, or a record with its
fields. It is written on one line (`Outline.line`), or as a block with each part on a line of its
own, indented by four spaces a level and followed by a comma (`Outline.block`).
-/

namespace TwoTier.Text

/-- A value by its parts. -/
inductive Outline where
  /-- A value shown as it is. -/
  | atom (s : String)
  /-- A constructor and its arguments. -/
  | call (name : String) (args : List Outline)
  /-- A record and its fields. -/
  | record (name : String) (fields : List (String × Outline))

namespace Outline

/-- An optional value. -/
def option {α : Type} (f : α → Outline) : Option α → Outline
  | none => .atom "None"
  | some a => .call "Some" [f a]

/-- A truth value. -/
def bool (b : Bool) : Outline := .atom (if b then "true" else "false")

mutual
/-- The outline on one line. -/
def line : Outline → String
  | .atom s => s
  | .call name args => name ++ "(" ++ ", ".intercalate (lineArgs args) ++ ")"
  | .record name fields =>
    if fields.isEmpty then name
    else name ++ " \x7b " ++ ", ".intercalate (lineFields fields) ++ " \x7d"
/-- The arguments, each on one line. -/
def lineArgs : List Outline → List String
  | [] => []
  | o :: os => o.line :: lineArgs os
/-- The fields, each on one line. -/
def lineFields : List (String × Outline) → List String
  | [] => []
  | (name, o) :: fs => (name ++ ": " ++ o.line) :: lineFields fs
end

mutual
/-- The outline as a block, whose lines after the first are indented by `margin`. -/
def block (margin : String) : Outline → String
  | .atom s => s
  | .call name args => name ++ "(\n" ++ blockArgs margin args ++ margin ++ ")"
  | .record name fields =>
    if fields.isEmpty then name
    else name ++ " \x7b\n" ++ blockFields margin fields ++ margin ++ "\x7d"
/-- The arguments, each on lines of its own. -/
def blockArgs (margin : String) : List Outline → String
  | [] => ""
  | o :: os => margin ++ "    " ++ o.block (margin ++ "    ") ++ ",\n" ++ blockArgs margin os
/-- The fields, each on lines of its own. -/
def blockFields (margin : String) : List (String × Outline) → String
  | [] => ""
  | (name, o) :: fs =>
    margin ++ "    " ++ name ++ ": " ++ o.block (margin ++ "    ") ++ ",\n" ++ blockFields margin fs
end

end Outline

end TwoTier.Text
