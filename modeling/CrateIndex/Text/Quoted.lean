import CrateIndex.Text.Printable

/-!
# Quoted text

How a text is shown in a message: between quotes, with an escape for each code point that is not
printable.
-/

namespace CrateIndex

/-- The hexadecimal digit of a number below 16, in lower case. -/
def hexDigit (n : Nat) : CodePoint := .ofNat (if n < 10 then 48 + n else 87 + n)

/-- The last `width` hexadecimal digits of a number. -/
def hexDigits : (width : Nat) → Nat → Text
  | 0, _ => []
  | width + 1, n => hexDigits width (n / 16) ++ [hexDigit (n % 16)]

/-- The apostrophe. -/
def apostrophe : CodePoint := .ofNat 39

/-- The escape that names a code point by its number, in the least of the three widths. -/
def CodePoint.numericEscape (c : CodePoint) : Text :=
  if c.val < 0x100 then "\\x" ++ hexDigits 2 c.val
  else if c.val < 0x10000 then "\\u" ++ hexDigits 4 c.val
  else "\\U" ++ hexDigits 8 c.val

/-- One code point between quotes `quote`. -/
def CodePoint.quotedIn (quote c : CodePoint) : Text :=
  if c = quote ∨ c = '\\' then ['\\', c]
  else if c = '\n' then "\\n"
  else if c = '\r' then "\\r"
  else if c = '\t' then "\\t"
  else if c.isPrintable then [c]
  else c.numericEscape

/-- The text between apostrophes; between double quotes if it holds an apostrophe and no double
quote. -/
def Text.quoted (s : Text) : Text :=
  let quote : CodePoint := if apostrophe ∈ s ∧ (CodePoint.ofChar '"') ∉ s then '"' else apostrophe
  quote :: s.flatMap (CodePoint.quotedIn quote) ++ [quote]

end CrateIndex
