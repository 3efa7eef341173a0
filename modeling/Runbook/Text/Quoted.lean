import Runbook.Text.Printable

/-!
# Quoted texts

A text between quotes as it appears inside other texts: single quotes unless the text has one and no
double quote, a backslash before the quote and before a backslash, escapes for what is not printable.

* `quote` for texts, `quoteBytes` for byte strings.
-/

namespace Runbook.Text

/-- The digit of a value below 16. -/
def hexDigit (n : Nat) : Char := Nat.digitChar n

/-- The last `width` hexadecimal digits of a number. -/
def hexChars : (width : Nat) → Nat → List Char
  | 0, _ => []
  | width + 1, n => hexChars width (n / 16) ++ [hexDigit (n % 16)]

/-- The escape of a character by its code point. -/
def escapeCode (n : Nat) : List Char :=
  if n < 0x100 then '\\' :: 'x' :: hexChars 2 n
  else if n < 0x10000 then '\\' :: 'u' :: hexChars 4 n
  else '\\' :: 'U' :: hexChars 8 n

/-- The quote that a text is put in. -/
def quoteMark (cs : List Char) : Char := if '\'' ∈ cs ∧ '"' ∉ cs then '"' else '\''

/-- A character inside a quoted text. -/
def quoteChar (mark c : Char) : List Char :=
  if c = mark ∨ c = '\\' then ['\\', c]
  else if c = '\n' then ['\\', 'n']
  else if c = '\r' then ['\\', 'r']
  else if c = '\t' then ['\\', 't']
  else if isPrintable c then [c]
  else escapeCode c.toNat

/-- The quoted form of a list of characters. -/
def quoteChars (cs : List Char) : List Char :=
  let mark := quoteMark cs
  mark :: cs.flatMap (quoteChar mark) ++ [mark]

/-- The quoted form of a text. -/
def quote (s : String) : String := String.ofList (quoteChars s.toList)

/-- The quoted form of a byte string: bytes outside the printable ASCII range are escaped. -/
def quoteBytes (bytes : List UInt8) : String :=
  let cs := bytes.map fun b => Char.ofNat b.toNat
  let mark := quoteMark cs
  let body := cs.flatMap fun c =>
    if c.toNat < 0x7f then quoteChar mark c else escapeCode c.toNat
  String.ofList ('b' :: mark :: body ++ [mark])

end Runbook.Text
