/-
Text in quotes, as a message shows it.

Single quotes enclose the text unless it holds a single quote and no double one.
What has no visible form is written as an escape whose width depends on the code
point; everything else stands for itself.
-/
import SourceDrift.Text.Numeral
import SourceDrift.Text.Printable

set_option autoImplicit false

namespace SourceDrift.Text

/-- The escape of a character by its code point. -/
def escapeCode (c : Char) : List Char :=
  let n := c.toNat
  if n < 0x100 then '\\' :: 'x' :: Numeral.hexDigits 2 n
  else if n < 0x10000 then '\\' :: 'u' :: Numeral.hexDigits 4 n
  else '\\' :: 'U' :: Numeral.hexDigits 8 n

/-- One character between quotes of a kind. -/
def showChar (quote c : Char) : List Char :=
  if c = quote ∨ c = '\\' then ['\\', c]
  else if c = '\n' then ['\\', 'n']
  else if c = '\r' then ['\\', 'r']
  else if c = '\t' then ['\\', 't']
  else if isPrintable c then [c]
  else escapeCode c

/-- The quotes that enclose a text. -/
def quoteFor (cs : List Char) : Char :=
  if cs.contains '\'' && !cs.contains '"' then '"' else '\''

/-- The text in quotes. -/
def shown (s : String) : List Char :=
  let quote := quoteFor s.toList
  quote :: s.toList.flatMap (showChar quote) ++ [quote]

end SourceDrift.Text
