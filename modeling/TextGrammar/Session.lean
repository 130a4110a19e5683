/-
Parsing by hand, one command at a time.

A session walks one cursor over one list of tokens. Each command runs a parser where the last one left the cursor; a
failing command leaves it where the failure happened, and the session goes on from there.

- `Command.run` is the parser of a command, with its `Answer` as the result.
- `run` performs a list of commands and gives the run of each.
-/
import TextGrammar.Document

namespace TextGrammar.Session

open TextGrammar.Parser

/-- what a session can be told to do -/
inductive Command where
  | document
  | fragment
  | block
  | blockList
  | construct (k : Construct)
  | weight
  | condition
  | advance
  /-- the text by which messages show the next token -/
  | found
  | optionalText
  | requireText (message : String)
  | nextIs (k : Kind)
  | skip (k : Kind)
  /-- an empty message counts as none -/
  | expect (k : Kind) (message : Option String)
  deriving DecidableEq

/-- what a command answers -/
inductive Answer where
  | done
  | nodes (ns : List Node)
  | maybeNodes (ns : Option (List Node))
  | blocks (bs : List (List Node))
  | condition (c : Condition Node)
  | text (s : String)
  | maybeText (s : Option String)
  | flag (b : Bool)

/-- the parser of a command, nested no deeper than the limit -/
def Command.run (limit : Nat) : Command → Parser Answer
  | document => .nodes <$> TextGrammar.document limit
  | fragment => .maybeNodes <$> TextGrammar.fragment (outermost limit)
  | block => .nodes <$> TextGrammar.block (outermost limit)
  | blockList => .blocks <$> TextGrammar.blockList (outermost limit)
  | construct k => .nodes <$> outermost limit k
  | weight => .nodes <$> TextGrammar.weight
  | condition => .condition <$> TextGrammar.condition (outermost limit)
  | advance => do
    Parser.advance
    return .done
  | found => return .text (foundText (← peek))
  | optionalText => .maybeText <$> Parser.optionalText
  | requireText message => .text <$> Parser.requireText (.custom message)
  | nextIs k => .flag <$> Parser.nextIs k
  | skip k => do
    Parser.skip k
    return .done
  | expect k none => do
    Parser.expect k
    return .done
  | expect k (some message) => do
    if message = "" then Parser.expect k else Parser.require k (.custom message)
    return .done

/-- the runs of some commands, each from where the one before it stopped -/
def run (limit : Nat) (c : Cursor) : List Command → List (Run Answer)
  | [] => []
  | command :: rest =>
    let r := command.run limit c
    r :: run limit r.cursor rest

end TextGrammar.Session
