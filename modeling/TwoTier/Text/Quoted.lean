import TwoTier.Text.Unprintable

/-!
# Quoted texts

A text as it is shown inside a message: in quotes, with the quote and the backslash escaped, the
line feed, the carriage return, the tab and the null character in their short forms, and every other
character without an appearance of its own by its code.
-/

namespace TwoTier.Text

/-- A character by its code, in lower-case hexadecimal. -/
def codeEscape (c : Char) : String :=
  "\\u\x7b" ++ String.ofList (Nat.toDigits 16 c.toNat) ++ "\x7d"

/-- A character of a quoted text. -/
def quotedChar (c : Char) : String :=
  if c == '"' then "\\\""
  else if c == '\\' then "\\\\"
  else if c == '\n' then "\\n"
  else if c == '\r' then "\\r"
  else if c == '\t' then "\\t"
  else if c.toNat == 0 then "\\0"
  else if isUnprintable c then codeEscape c
  else String.singleton c

/-- The text in quotes. -/
def quoted (s : String) : String :=
  "\"" ++ String.join (s.toList.map quotedChar) ++ "\""

end TwoTier.Text
