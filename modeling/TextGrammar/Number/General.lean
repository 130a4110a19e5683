/-
Numbers in the general format: a fixed count of significant digits, without the zeros at their end.

A finite number is a natural number times a power of two. Its decimal exponent is the `e` with `10 ^ e ≤ x < 10 ^ (e +
1)`; `Scaled.round` divides by the power of ten that leaves the wanted count of digits before the point and rounds the
quotient to the nearest natural number, a tie to the even one. All of it is arithmetic on natural numbers, so nothing
is lost before the one rounding. `GeneralFormat` says how many digits there are and which exponents are written out in
full.
-/

namespace TextGrammar.Number

/-- how many significant digits there are, from which decimal exponent up to the digit count a number is written without
an exponent, and the least count of digits of a written exponent -/
structure GeneralFormat where
  digits : Nat
  lowestPlain : Int
  exponentWidth : Nat

/-- what the bits of a binary64 number say: the magnitude is `mantissa * 2 ^ exponent` -/
inductive Parts where
  | finite (negative : Bool) (mantissa : Nat) (exponent : Int)
  | infinite (negative : Bool)
  | undefined
  deriving DecidableEq

/-- the parts of a number; a biased exponent of zero has no hidden bit -/
def Parts.of (x : Float) : Parts :=
  let bits : Nat := x.toBits.toNat
  let negative := bits / Nat.pow 2 63 % 2 == 1
  let biased : Nat := bits / Nat.pow 2 52 % Nat.pow 2 11
  let fraction : Nat := bits % Nat.pow 2 52
  if biased = 2047 then if fraction = 0 then .infinite negative else .undefined
  else if biased = 0 then .finite negative fraction (-1074)
  else .finite negative (Nat.pow 2 52 + fraction) ((biased : Int) - 1075)

/-- the natural number nearest to `num / den`, of two the even one -/
def roundDiv (num den : Nat) : Nat :=
  let q := num / den
  let r := num % den
  if 2 * r > den then q + 1
  else if 2 * r = den && q % 2 = 1 then q + 1
  else q

/-- how many decimal digits a natural number has -/
def digitCount (n : Nat) : Nat :=
  (Nat.toDigits 10 n).length

/-- the decimal exponent of `num / den`, both positive -/
def decimalExponent (num den : Nat) : Int :=
  if den ≤ num then digitCount (num / den) - 1
  else -digitCount ((den + num - 1) / num - 1)

/-- a natural number with a decimal exponent -/
structure Scaled where
  digits : Nat
  exponent : Int

/-- the quotient `num / den` rounded to `count` significant digits, with its decimal exponent after the rounding -/
def Scaled.round (count num den : Nat) : Scaled :=
  let e := decimalExponent num den
  let shift := e - (count - 1 : Nat)
  let n := if shift < 0 then roundDiv (num * Nat.pow 10 (-shift).toNat) den
    else roundDiv num (den * Nat.pow 10 shift.toNat)
  if n = Nat.pow 10 count then ⟨Nat.pow 10 (count - 1), e + 1⟩ else ⟨n, e⟩

/-- digits without the zeros at their end -/
def withoutFinalZeros (digits : List Char) : List Char :=
  (digits.reverse.dropWhile (· == '0')).reverse

/-- digits, and a point before the fraction if there is one -/
def pointed (whole fraction : List Char) : List Char :=
  match fraction with
  | [] => whole
  | _ => whole ++ '.' :: fraction

/-- an exponent with its sign -/
def GeneralFormat.exponentText (f : GeneralFormat) (e : Int) : List Char :=
  'e' :: (if e < 0 then '-' else '+') :: (Nat.toDigits 10 e.natAbs).leftpad f.exponentWidth '0'

/-- a positive magnitude that has been rounded -/
def GeneralFormat.layout (f : GeneralFormat) (s : Scaled) : List Char :=
  let digits := withoutFinalZeros (Nat.toDigits 10 s.digits)
  if s.exponent < f.lowestPlain || (f.digits : Int) ≤ s.exponent then
    pointed (digits.take 1) (digits.drop 1) ++ f.exponentText s.exponent
  else if s.exponent < 0 then
    pointed ['0'] (List.replicate (s.exponent.natAbs - 1) '0' ++ digits)
  else
    let places := s.exponent.toNat + 1
    pointed (digits.take places ++ List.replicate (places - digits.length) '0') (digits.drop places)

/-- the magnitude `mantissa * 2 ^ exponent` -/
def GeneralFormat.magnitude (f : GeneralFormat) (mantissa : Nat) (exponent : Int) : List Char :=
  if mantissa = 0 then ['0']
  else if exponent < 0 then f.layout (.round f.digits mantissa (Nat.pow 2 exponent.natAbs))
  else f.layout (.round f.digits (mantissa * Nat.pow 2 exponent.toNat) 1)

/-- a number in the general format -/
def GeneralFormat.write (f : GeneralFormat) (x : Float) : String :=
  let signed (negative : Bool) (cs : List Char) := String.ofList (if negative then '-' :: cs else cs)
  match Parts.of x with
  | .undefined => "nan"
  | .infinite negative => signed negative ['i', 'n', 'f']
  | .finite negative mantissa exponent => signed negative (f.magnitude mantissa exponent)

end TextGrammar.Number
