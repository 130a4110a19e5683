/-
What goes wrong in a parse, and what is worth remarking about one that goes on.

A `ParseError` is a cause; `ParseError.message` is its wording. Where a token of a certain kind was due, the cause
holds the token that stood there instead, and the message ends with its quoted source, or with `eof` when there was
none.

A `Remark` is made when input that fits no form is kept as text. Remarks go to the log at the level for debugging, a
parse error at the level for errors.
-/
import TextGrammar.Token

namespace TextGrammar

/-- what was due at a place, in words of its own -/
inductive Expectation where
  | modifierName (rule : String)
  | closingRound (modifier : String)
  | closingHash (rule : String)
  | tagName
  | tagColon (tag : String)
  | spaceAfter (k : Keyword)
  | afterCondition (k : Keyword)
  /-- whatever a caller asks for -/
  | custom (message : String)
  deriving DecidableEq

/-- the wording of what was due -/
def Expectation.message : Expectation → String
  | modifierName rule => "expected modifier name after . in rule '" ++ rule ++ "'"
  | closingRound modifier => "expected closing ) for modifier '" ++ modifier ++ "'"
  | closingHash rule => "closing # not found for rule '" ++ rule ++ "'"
  | tagName => "expected tag name"
  | tagColon tag => "expected : after tag '" ++ tag ++ "'"
  | spaceAfter k => "expected space after " ++ k.word
  | afterCondition k => "expected '" ++ k.word ++ "' after condition"
  | custom message => message

/-- why a token list does not fit the grammar -/
inductive ParseError where
  /-- the tokens end where one is due -/
  | unexpectedEnd
  /-- another kind is due than that of the token found -/
  | mismatch (due : Kind) (found : Token)
  /-- what is due is not there -/
  | missing (due : Expectation) (found : Option Token)
  /-- constructs are nested deeper than the limit -/
  | tooDeep (limit : Nat)
  /-- an element of a list is empty -/
  | emptyElement
  /-- the first value of a tag is empty -/
  | emptyTagValue
  /-- nothing follows a comparison operator -/
  | emptyOperand (o : Operator)
  /-- nothing follows a membership keyword -/
  | emptyMembers
  /-- the block after `then`, `else` or `do` is empty -/
  | emptyBlock (k : Keyword)
  deriving DecidableEq

/-- a token in a message: its quoted source, or `eof` where the tokens end -/
def foundText : Option Token → String
  | none => "eof"
  | some t => Text.quoted t.rawText

/-- the wording of the error -/
def ParseError.message : ParseError → String
  | unexpectedEnd => "unexpected eof"
  | mismatch due found =>
    "token mismatch expected " ++ Text.quoted due.label ++ ", got: " ++ foundText (some found)
  | missing due found => due.message ++ ", got: " ++ foundText found
  | tooDeep limit => "maximum nesting depth " ++ Nat.repr limit ++ " exceeded"
  | emptyElement => "expected value after ,"
  | emptyTagValue => "expected some value"
  | emptyOperand o => "expected rule or text after " ++ o.symbol ++ " in condition"
  | emptyMembers => "expected rule after in/not in keyword"
  | emptyBlock k => "'" ++ k.word ++ "' must be followed by rule(s)"

/-- input that was kept as text because it fits no form -/
inductive Remark where
  /-- a token that nothing starts with, at its index -/
  | stray (t : Token) (index : Nat)
  /-- a hash with nothing behind it -/
  | loneHash
  /-- a colon with no number behind it -/
  | bareColon
  deriving DecidableEq

/-- the wording of the remark -/
def Remark.message : Remark → String
  | stray t index => "Stray " ++ Text.quoted t.rawText ++ " at token " ++ Nat.repr index ++ " kept as text"
  | loneHash => "Lone '#' at end of input kept as text"
  | bareColon => "':' without a number kept as text"

/-- one entry of a log -/
inductive Notice where
  | debug (r : Remark)
  | error (e : ParseError)
  deriving DecidableEq

namespace Notice

/-- the level at which the entry is logged -/
def level : Notice → String
  | debug _ => "DEBUG"
  | error _ => "ERROR"

/-- the wording of the entry -/
def message : Notice → String
  | debug r => r.message
  | error e => e.message

/-- is the entry there for debugging only? -/
def isDebug : Notice → Bool
  | debug _ => true
  | error _ => false

end Notice

end TextGrammar
