/-
Whole texts: tokens and source as a tree, with a log of the parse.

At the top of a text everything is allowed. A token that no fragment starts with is kept as text and remarked on, so a
parse fails only inside a construct.

- `document` parses up to the end of the tokens, and `build` is its report: the nodes or the error, and a log with the
  remarks in order and, after a failure, the error as the last entry.
- `parse` is the report on a source, with the default limit on nesting.
- `checkLimit` accepts the positive limits, and `buildWithin` is the report under any limit that it accepts.
-/
import TextGrammar.Parser.Construct
import TextGrammar.Source

namespace TextGrammar

open TextGrammar.Parser

/-- how deep constructs may be nested where nothing else is said -/
def defaultLimit : Nat := 64

/-- a limit on nesting that is zero or less -/
structure LimitError where
  limit : Int
  deriving DecidableEq

/-- the wording of the refusal -/
def LimitError.message (e : LimitError) : String :=
  "max_depth must be positive, got " ++ Int.repr e.limit

/-- a limit on nesting, if it is positive -/
def checkLimit (n : Int) : Except LimitError Nat :=
  if n < 1 then .error ⟨n⟩ else .ok n.toNat

/-- the constructs with the levels that the limit leaves where the parser is -/
def outermost (limit : Nat) : Inner := fun k c => construct limit (limit - c.depth) k c

/-- the block ahead and the token that ends it, as long as there are tokens -/
def passage (limit : Nat) : Parser (Option (List Node)) := do
  if (← peek).isNone then return none
  let nodes ← block (outermost limit)
  match ← peek with
  | none => return some nodes
  | some t =>
    remark (.stray t (← place).index)
    advance
    return some (nodes ++ [.text t.rawText])

/-- everything up to the end of the tokens -/
def document (limit : Nat) : Parser (List Node) := do
  return (← many (passage limit)).flatten

/-- the outcome of a parse and the log of it -/
structure Report where
  result : Except ParseError (List Node)
  log : List Notice

/-- the report of a run: its remarks, and its error if it has one -/
def Report.ofRun (r : Run (List Node)) : Report where
  result := r.result
  log := r.remarks.map .debug ++ match r.result with
    | .ok _ => []
    | .error e => [.error e]

/-- tokens as a tree, nested no deeper than the limit -/
def build (limit : Nat) (ts : List Token) : Report :=
  .ofRun (document limit (.start ts))

/-- tokens as a tree under a limit that may have any value, if that is positive -/
def buildWithin (n : Int) (ts : List Token) : Except LimitError Report := do
  return build (← checkLimit n) ts

/-- source as a tree -/
def parse (source : String) : Report :=
  build defaultLimit (Source.tokens source)

end TextGrammar
