/-
The lines of a settings file.

Line breaks of every kind count as line feeds (`unifyBreaks`), and the text is cut behind each of them (`splitLines`).
A semicolon in the first column or behind a blank starts a comment, so a line whose first character that is not blank
is a semicolon is all comment. What is left of a line without comment and without the blanks around it is its value,
and its indent is the count of blanks in front.
-/
import TextGrammar.Text.Blank

namespace TextGrammar.Settings

/-- a line with its number, counted from one, and its characters up to and with the line feed -/
structure Line where
  number : Nat
  chars : List Char
  deriving DecidableEq

/-- the text with a line feed for each line break -/
def unifyBreaks : List Char → List Char
  | [] => []
  | '\r' :: '\n' :: cs => '\n' :: unifyBreaks cs
  | '\r' :: cs => '\n' :: unifyBreaks cs
  | c :: cs => c :: unifyBreaks cs

/-- the text cut behind each line feed -/
def splitLines : List Char → List (List Char)
  | [] => []
  | c :: cs =>
    if c = '\n' then [c] :: splitLines cs
    else match splitLines cs with
      | [] => [[c]]
      | line :: lines => (c :: line) :: lines

/-- lines with their numbers, starting from the given one -/
def numbered (n : Nat) : List (List Char) → List Line
  | [] => []
  | l :: ls => ⟨n, l⟩ :: numbered (n + 1) ls

/-- the lines of a text -/
def linesOf (cs : List Char) : List Line :=
  numbered 1 (splitLines (unifyBreaks cs))

/-- the text in front of a comment, or all of it where there is none; `opensHere` tells whether a semicolon would start
a comment here -/
def beforeComment (opensHere : Bool) : List Char → List Char
  | [] => []
  | c :: cs => if c = ';' && opensHere then [] else c :: beforeComment (Text.isBlank c) cs

/-- is there a comment in the text? -/
def hasComment (opensHere : Bool) : List Char → Bool
  | [] => false
  | c :: cs => if c = ';' && opensHere then true else hasComment (Text.isBlank c) cs

namespace Line

/-- what the line says without its comment and the blanks around -/
def value (l : Line) : List Char :=
  Text.trim (beforeComment true l.chars)

/-- does the line have a comment? -/
def commented (l : Line) : Bool :=
  hasComment true l.chars

/-- the count of blanks in front -/
def indent (l : Line) : Nat :=
  (l.chars.takeWhile Text.isBlank).length

/-- the name of the section that a value heads: what stands between a square bracket at its start and the last closing
one, unless that is nothing -/
def heading? : List Char → Option String
  | '[' :: cs =>
    match (cs.reverse.dropWhile (· ≠ ']')).tail with
    | [] => none
    | name => some (String.ofList name.reverse)
  | _ => none

/-- the two parts of a value that sets an option: in front of the first equals sign or colon, and behind it -/
def assignment? (value : List Char) : Option (List Char × List Char) :=
  let isSign (c : Char) := c = '=' || c = ':'
  match value.dropWhile (!isSign ·) with
  | [] => none
  | _ :: behind => some (value.takeWhile (!isSign ·), behind)

end Line

end TextGrammar.Settings
