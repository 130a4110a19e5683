/-
Integers written in the digits of any script.

An integer may have a sign. It has one or more decimal digits, with single underscores between them as separators, and
blanks may stand around it; the information separators U+001C to U+001F do not count as blank here.
-/
import TextGrammar.Text.Blank
import TextGrammar.Text.Digit

namespace TextGrammar.Number

/-- may the character stand around an integer? -/
def isMargin (c : Char) : Bool :=
  Text.isBlank c && !(0x1C ≤ c.toNat && c.toNat ≤ 0x1F)

/-- reads on after digits worth `n`; `afterDigit` is unset at the start and after an underscore, where a digit is due -/
def digitsFrom (afterDigit : Bool) (n : Nat) : List Char → Option Nat
  | [] => if afterDigit then some n else none
  | c :: cs =>
    match Text.digitValue? c with
    | some d => digitsFrom true (10 * n + d) cs
    | none => if afterDigit && c = '_' then digitsFrom false n cs else none

/-- reads digits with single underscores between them -/
def natural? (cs : List Char) : Option Nat :=
  digitsFrom false 0 cs

/-- reads an integer with nothing around it -/
def signed? : List Char → Option Int
  | '-' :: cs => (natural? cs).map fun n => -(n : Int)
  | '+' :: cs => (natural? cs).map fun n => (n : Int)
  | cs => (natural? cs).map fun n => (n : Int)

/-- reads an integer -/
def integer? (cs : List Char) : Option Int :=
  signed? (((cs.dropWhile isMargin).reverse.dropWhile isMargin).reverse)

end TextGrammar.Number
