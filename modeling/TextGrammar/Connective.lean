/-
What stands between the two sides of a condition.

A comparison operator compares the sides. The keywords `in` and `not in` test membership, which against literal text
is a comparison as well (`Relation.ofMembers`). A condition may also do without a connective; then it asks whether its
left-hand side differs from the empty text.

`membershipRelation` is the test for a token kind and a right-hand side that come from anywhere: it refuses kinds that
are no membership keyword, and an empty right-hand side.
-/
import TextGrammar.Node
import TextGrammar.Parser.Error

namespace TextGrammar

/-- what stands between the two sides of a condition -/
inductive Connective where
  | comparison (o : Operator)
  | membership (negated : Bool)
  deriving DecidableEq

namespace Connective

/-- the connective that a kind of token is -/
def ofKind? : Kind → Option Connective
  | .operator o => some (comparison o)
  | .keyword .inWord => some (membership false)
  | .keyword .notInWord => some (membership true)
  | _ => none

/-- the relation to the given right-hand side -/
def relation (rhs : List Node) : Connective → Relation
  | comparison .equals => .equalTo
  | comparison .differs => .notEqualTo
  | membership negated => .ofMembers negated rhs

/-- nothing follows the connective -/
def emptyError : Connective → ParseError
  | comparison o => .emptyOperand o
  | membership _ => .emptyMembers

end Connective

/-- the right-hand side of a condition without a connective -/
def emptyTextSide : List Node := [.text ""]

/-- why there is no membership test -/
inductive MembershipError where
  | notMembership (k : Kind)
  | noMembers
  deriving DecidableEq

/-- the wording of the refusal -/
def MembershipError.message : MembershipError → String
  | notMembership k => "not a membership keyword: <TokenKind." ++ k.name ++ ": " ++ Text.quoted k.label ++ ">"
  | noMembers => "membership test needs a right-hand side"

/-- the relation of a membership test between a keyword and a right-hand side -/
def membershipRelation (k : Kind) (rhs : List Node) : Except MembershipError Relation :=
  match Connective.ofKind? k, rhs with
  | some (.membership _), [] => .error .noMembers
  | some (.membership negated), _ => .ok (.ofMembers negated rhs)
  | _, _ => .error (.notMembership k)

end TextGrammar
