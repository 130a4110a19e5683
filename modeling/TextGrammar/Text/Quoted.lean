/-
Quoted texts, as messages show them.

A text stands between single quotes, or between double quotes when it holds a single quote and no double quote.
Inside, the quote in use and the backslash are written after a backslash, line feed, carriage return and tab have
their letters, and every other unprintable character is written by its code point in two, four or eight hexadecimal
digits.
-/
import TextGrammar.Text.Printable

namespace TextGrammar.Text

/-- the last `width` hexadecimal digits of a number, the most significant first -/
def hexDigits : Nat → Nat → List Char
  | 0, _ => []
  | width + 1, n => hexDigits width (n / 16) ++ [Nat.digitChar (n % 16)]

/-- a character written by its code point -/
def byCodePoint (c : Char) : List Char :=
  if c.toNat < 0x100 then '\\' :: 'x' :: hexDigits 2 c.toNat
  else if c.toNat < 0x10000 then '\\' :: 'u' :: hexDigits 4 c.toNat
  else '\\' :: 'U' :: hexDigits 8 c.toNat

/-- the quote that a text is put between -/
def quoteOf (cs : List Char) : Char :=
  if cs.contains '\'' && !cs.contains '"' then '"' else '\''

/-- a character as it stands between the given quotes -/
def escaped (quote c : Char) : List Char :=
  if c = quote then ['\\', c]
  else match c with
    | '\\' => ['\\', '\\']
    | '\n' => ['\\', 'n']
    | '\r' => ['\\', 'r']
    | '\t' => ['\\', 't']
    | _ => if isPrintable c then [c] else byCodePoint c

/-- a text between quotes -/
def quoted (s : String) : String :=
  let quote := quoteOf s.toList
  String.ofList (quote :: s.toList.flatMap (escaped quote) ++ [quote])

end TextGrammar.Text
