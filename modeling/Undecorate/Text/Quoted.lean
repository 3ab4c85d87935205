import Undecorate.Text.Printable

/-!
Quoted text for messages: unprintable characters are escaped, and the quotation mark is the one
that spares an escape, with the apostrophe preferred.
-/

namespace Undecorate.Text

def apostrophe : Char := Char.ofNat 39

/-- The last `width` hexadecimal digits of a number, most significant first. -/
def hexDigits : Nat → Nat → Text
  | 0, _ => []
  | width + 1, n => hexDigits width (n / 16) ++ [Nat.digitChar (n % 16)]

def escape (mark c : Char) : Text :=
  if c = mark ∨ c = '\\' then ['\\', c]
  else if c = '\n' then ['\\', 'n']
  else if c = '\r' then ['\\', 'r']
  else if c = '\t' then ['\\', 't']
  else if isPrintable c then [c]
  else if c.toNat < 0x100 then '\\' :: 'x' :: hexDigits 2 c.toNat
  else if c.toNat < 0x10000 then '\\' :: 'u' :: hexDigits 4 c.toNat
  else '\\' :: 'U' :: hexDigits 8 c.toNat

/-- The double quotation mark is used only around a text that holds an apostrophe and no double
quotation mark. -/
def quotationMark (t : Text) : Char :=
  if apostrophe ∈ t ∧ '"' ∉ t then '"' else apostrophe

def quoted (t : Text) : Text :=
  quotationMark t :: (t.flatMap (escape (quotationMark t)) ++ [quotationMark t])

/-- Quoted texts in square brackets, separated by a comma and a space. -/
def quotedList (ts : List Text) : Text :=
  '[' :: (List.intercalate [',', ' '] (ts.map quoted) ++ [']'])

end Undecorate.Text
