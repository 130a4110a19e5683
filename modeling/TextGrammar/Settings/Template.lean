/-
References between settings.

In the value of an option a percent sign is special: two of them stand for one, and `%(name)s` stands for the value of
the option of that name, in which percent signs are special again. Values may be nested ten deep.

`pieces` cuts a value into `Piece`s and `expand` puts the text together, piece by piece from the left, so the first
piece that cannot be expanded gives the error.
-/
import TextGrammar.Text.Lowercase

namespace TextGrammar.Settings

/-- what can stand at a place of a value -/
inductive Piece where
  | char (c : Char)
  /-- two percent signs -/
  | percent
  /-- the name between round brackets, behind a percent sign and before an `s` -/
  | reference (name : List Char)
  /-- a percent sign before something else, with all the text from there -/
  | lonePercent (rest : List Char)
  /-- a round bracket that starts no reference, with all the text from the percent sign -/
  | badReference (rest : List Char)
  deriving DecidableEq

/-- how many characters of the value a piece covers; an error covers all that is left -/
def Piece.size : Piece → Nat
  | char _ => 1
  | percent => 2
  | reference name => name.length + 4
  | lonePercent rest => rest.length
  | badReference rest => rest.length

/-- the piece at a character with the text behind it -/
def pieceAt (c : Char) (cs : List Char) : Piece :=
  if c ≠ '%' then .char c
  else match cs with
    | '%' :: _ => .percent
    | '(' :: behind =>
      match behind.takeWhile (· ≠ ')'), behind.dropWhile (· ≠ ')') with
      | n :: name, ')' :: 's' :: _ => .reference (n :: name)
      | _, _ => .badReference (c :: cs)
    | _ => .lonePercent (c :: cs)

/-- the pieces of a text, after `skip` characters that belong to an earlier piece -/
def piecesFrom : Nat → List Char → List Piece
  | _, [] => []
  | skip + 1, _ :: cs => piecesFrom skip cs
  | 0, c :: cs =>
    let p := pieceAt c cs
    p :: piecesFrom (p.size - 1) cs

/-- the pieces of a value -/
def pieces (cs : List Char) : List Piece :=
  piecesFrom 0 cs

/-- why a value cannot be expanded -/
inductive ExpandError where
  | lonePercent (rest : String)
  | badReference (rest : String)
  | unknownOption (name : String)
  | tooDeep
  deriving DecidableEq

/-- how deep values may be nested -/
def expandLimit : Nat := 10

/-- the text of a value, with the options' values from `lookup` and the given number of levels left -/
def expandFrom (lookup : String → Option String) : Nat → String → Except ExpandError (List Char)
  | 0, _ => .error .tooDeep
  | levels + 1, value => do
    let parts ← (pieces value.toList).mapM fun
      | .char c => .ok [c]
      | .percent => .ok ['%']
      | .lonePercent rest => .error (.lonePercent (String.ofList rest))
      | .badReference rest => .error (.badReference (String.ofList rest))
      | .reference name =>
        let option := Text.lowercase (String.ofList name)
        match lookup option with
        | none => .error (.unknownOption option)
        | some v => if v.toList.contains '%' then expandFrom lookup levels v else .ok v.toList
    return parts.flatten

/-- the text of a value -/
def expand (lookup : String → Option String) (value : String) : Except ExpandError String :=
  String.ofList <$> expandFrom lookup expandLimit value

end TextGrammar.Settings
