/-
Tokens of grammar text: their kinds, their spelling and how they are described.

A token is a punctuation mark, the space after a control word, a comparison operator, a control keyword, a run of
plain text or a number. Only text and numbers carry a value; every other token is spelled by its kind alone.

- `Kind.all` lists the kinds in their order; `Kind.label` is the source spelling of a kind without a value, and the
  word `text` or `number` for the two others.
- `Token.rawText` is a token as it stands in source. A number without a spelling of its own is written in the general
  format with six significant digits.
- `Token.agrees` compares tokens as values: numbers as numbers, so zero agrees with minus zero and an undefined number
  agrees with nothing.
-/
import TextGrammar.Number.General
import TextGrammar.Text.Quoted

namespace TextGrammar

/-- punctuation, which is never part of plain text -/
inductive Mark where
  | hash | openSquare | closeSquare | openRound | closeRound | dot | colon | comma
  deriving DecidableEq

/-- comparison operators of a condition -/
inductive Operator where
  | equals | differs
  deriving DecidableEq

/-- words that steer a control bracket -/
inductive Keyword where
  | ifWord | thenWord | elseWord | whileWord | doWord | inWord | notInWord
  deriving DecidableEq

/-- what a token is, apart from the value of a text or a number -/
inductive Kind where
  | mark (m : Mark)
  | space
  | operator (o : Operator)
  | keyword (k : Keyword)
  | text
  | number
  deriving DecidableEq

/-- one token; a number may keep the spelling it was read from -/
inductive Token where
  | mark (m : Mark)
  | space
  | operator (o : Operator)
  | keyword (k : Keyword)
  | text (content : String)
  | number (value : Float) (spelling : Option String)
  deriving DecidableEq

/-! ## Spelling -/

namespace Mark

/-- every mark -/
def all : List Mark := [hash, openSquare, closeSquare, openRound, closeRound, dot, colon, comma]

/-- the character that a mark is -/
def char : Mark → Char
  | hash => '#'
  | openSquare => '['
  | closeSquare => ']'
  | openRound => '('
  | closeRound => ')'
  | dot => '.'
  | colon => ':'
  | comma => ','

/-- the mark that a character is -/
def ofChar? : Char → Option Mark
  | '#' => some hash
  | '[' => some openSquare
  | ']' => some closeSquare
  | '(' => some openRound
  | ')' => some closeRound
  | '.' => some dot
  | ':' => some colon
  | ',' => some comma
  | _ => none

@[simp] theorem ofChar?_char (m : Mark) : ofChar? m.char = some m := by
  cases m <;> rfl

/-- a mark is read from its own character only -/
theorem char_of_ofChar? {c : Char} {m : Mark} (h : ofChar? c = some m) : m.char = c := by
  unfold ofChar? at h
  split at h <;> simp at h <;> subst h <;> rfl

/-- the name by which marks are described -/
def name : Mark → String
  | hash => "HASH"
  | openSquare => "LEFT_SQUARE_BRACKET"
  | closeSquare => "RIGHT_SQUARE_BRACKET"
  | openRound => "LEFT_ROUND_BRACKET"
  | closeRound => "RIGHT_ROUND_BRACKET"
  | dot => "DOT"
  | colon => "COLON"
  | comma => "COMMA"

end Mark

namespace Operator

/-- every operator -/
def all : List Operator := [equals, differs]

/-- the characters of the operator -/
def chars : Operator → List Char
  | equals => ['=', '=']
  | differs => ['!', '=']

/-- the operator as it is spelled -/
def symbol (o : Operator) : String :=
  String.ofList o.chars

/-- the name by which operators are described -/
def name : Operator → String
  | equals => "EQUAL_TO"
  | differs => "NOT_EQUAL_TO"

end Operator

namespace Keyword

/-- every keyword -/
def all : List Keyword := [ifWord, thenWord, elseWord, whileWord, doWord, inWord, notInWord]

/-- the characters of the word; the last one is two words with the space between them -/
def chars : Keyword → List Char
  | ifWord => ['i', 'f']
  | thenWord => ['t', 'h', 'e', 'n']
  | elseWord => ['e', 'l', 's', 'e']
  | whileWord => ['w', 'h', 'i', 'l', 'e']
  | doWord => ['d', 'o']
  | inWord => ['i', 'n']
  | notInWord => ['n', 'o', 't', ' ', 'i', 'n']

/-- the word as it is spelled -/
def word (k : Keyword) : String :=
  String.ofList k.chars

/-- the name by which keywords are described -/
def name : Keyword → String
  | ifWord => "KEYWORD_IF"
  | thenWord => "KEYWORD_THEN"
  | elseWord => "KEYWORD_ELSE"
  | whileWord => "KEYWORD_WHILE"
  | doWord => "KEYWORD_DO"
  | inWord => "KEYWORD_IN"
  | notInWord => "KEYWORD_NOT_IN"

end Keyword

namespace Kind

/-- every kind, in the order in which kinds are listed -/
def all : List Kind :=
  Mark.all.map mark ++ [space] ++ Operator.all.map operator ++ Keyword.all.map keyword ++ [text, number]

/-- the spelling of a kind without a value, and a word for the two others -/
def label : Kind → String
  | mark m => String.singleton m.char
  | space => " "
  | operator o => o.symbol
  | keyword k => k.word
  | text => "text"
  | number => "number"

/-- the name by which tokens of a kind are described -/
def name : Kind → String
  | mark m => m.name
  | space => "SPACE"
  | operator o => o.name
  | keyword k => k.name
  | text => "TEXT"
  | number => "NUMBER"

end Kind

namespace Token

/-- numbers have six significant digits; exponents from -4 to 5 are written out, others have at least two digits -/
def numberFormat : Number.GeneralFormat := ⟨6, -4, 2⟩

/-- the kind of a token -/
def kind : Token → Kind
  | mark m => .mark m
  | space => .space
  | operator o => .operator o
  | keyword k => .keyword k
  | text _ => .text
  | number _ _ => .number

/-- the token as it stands in source -/
def rawText : Token → String
  | text s => s
  | number _ (some s) => s
  | number x none => numberFormat.write x
  | t => t.kind.label

/-- the token by the name of its kind, with the quoted source of a text or a number -/
def description (t : Token) : String :=
  match t with
  | text _ | number _ _ => t.kind.name ++ "(" ++ Text.quoted t.rawText ++ ")"
  | _ => t.kind.name

/-- the source of a list of tokens -/
def joinRaw : List Token → String
  | [] => ""
  | t :: ts => t.rawText ++ joinRaw ts

/-- agreement of two tokens, in which numbers agree by their value -/
def agrees : Token → Token → Bool
  | number x s, number y t => x == y && s == t
  | number _ _, _ => false
  | s, t => s == t

/-- agreement of two lists, token by token -/
def agreeAll : List Token → List Token → Bool
  | [], [] => true
  | s :: ss, t :: ts => s.agrees t && agreeAll ss ts
  | _, _ => false

end Token

end TextGrammar
