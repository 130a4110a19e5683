/-
The constructs of the grammar.

    block     := fragment*
    fragment  := rule | tag | if | while | weight | TEXT | NUMBER
    rule      := '#' tag* ( '#' | NAME? modifier* '#' )
    modifier  := '.' NAME ( '(' list ')' )?
    tag       := '[' ( rule | tag | NAME ':' list )* ']'
    if        := '[' 'if' ' ' condition 'then' ' ' block ( 'else' ' ' block )? ']'
    while     := '[' 'while' ' ' condition 'do' ' ' block ']'
    condition := block ( ( '==' | '!=' | 'in' | 'not in' ) ' '? block )?
    weight    := ':' NUMBER
    list      := block ( ',' block )*

Rules, tags and the two control brackets nest; everything else is written over a parser `inner` for these four
(`Construct`), and `construct` ties the knot: it goes down one level at a time and fails where no level is left. So
the recursion is on the levels that the nesting limit leaves, whatever the tokens are.

Some input is kept as text: a rule of two hashes is an empty text, a hash with nothing behind it is the text `#`, and
a colon without a number is the text `:`.
-/
import TextGrammar.Connective
import TextGrammar.Parser.Repetition

namespace TextGrammar

open TextGrammar.Parser

/-- the forms that open one level of nesting -/
inductive Construct where
  | rule | tag | ifBlock | whileBlock
  deriving DecidableEq

/-- a parser for each construct -/
abbrev Inner : Type := Construct → Parser (List Node)

/-! ## Blocks and lists -/

/-- a colon, with the number of a weight if one follows -/
def weight : Parser (List Node) := do
  expect (.mark .colon)
  match ← peek with
  | some (.number x _) =>
    advance
    return [.weight x]
  | _ =>
    remark .bareColon
    return [.text ":"]

/-- what starts at a token with the given tokens behind it: nothing, or a parser for it -/
def startAt (inner : Inner) : List Token → Option (Parser (List Node))
  | .mark .hash :: _ => some (inner .rule)
  | [.mark .openSquare] => none
  | .mark .openSquare :: .keyword .ifWord :: _ => some (inner .ifBlock)
  | .mark .openSquare :: .keyword .whileWord :: _ => some (inner .whileBlock)
  | .mark .openSquare :: _ => some (inner .tag)
  | .mark .colon :: _ => some weight
  | .text s :: _ => some do
    advance
    return [.text s]
  | .number x s :: _ => some do
    advance
    return [.text (Token.rawText (.number x s))]
  | _ => none

/-- the nodes of one fragment, or nothing where none can start -/
def fragment (inner : Inner) : Parser (Option (List Node)) := do
  match startAt inner (← place).ahead with
  | none => return none
  | some p => return some (← p)

/-- fragments as far as they go -/
def block (inner : Inner) : Parser (List Node) := do
  return (← many (fragment inner)).flatten

/-- a comma and the block behind it, which may not be empty -/
def listElement (inner : Inner) : Parser (Option (List Node)) := do
  if ← nextIs (.mark .comma) then
    advance
    match ← block inner with
    | [] => fail .emptyElement
    | nodes => return some nodes
  else return none

/-- blocks between commas; only the first may be empty -/
def blockList (inner : Inner) : Parser (List (List Node)) := do
  let first ← block inner
  return first :: (← many (listElement inner))

/-! ## Rules and tags -/

/-- the parameters that a list of blocks stands for: a single empty block stands for none -/
def paramsOf : List (List Node) → List (List Node)
  | [[]] => []
  | blocks => blocks

/-- the parameters of a modifier, if there are round brackets for them -/
def params (inner : Inner) (modifier : String) : Parser (List (List Node)) := do
  if ← nextIs (.mark .openRound) then
    advance
    let blocks ← blockList inner
    require (.mark .closeRound) (.closingRound modifier)
    return paramsOf blocks
  else return []

/-- a dot and the modifier behind it -/
def modifier (inner : Inner) (rule : String) : Parser (Option (Modifier Node)) := do
  if ← nextIs (.mark .dot) then
    advance
    let name ← requireText (.modifierName rule)
    return some ⟨name, ← params inner name⟩
  else return none

/-- a tag in front of the name of a rule -/
def headTag (inner : Inner) : Parser (Option (List Node)) := do
  if ← nextIs (.mark .openSquare) then
    return some (← inner .tag)
  else return none

/-- the name of a rule, its modifiers and the closing hash -/
def ruleReference (inner : Inner) : Parser (List Node) := do
  let name := (← optionalText).getD ""
  let modifiers ← many (modifier inner name)
  require (.mark .hash) (.closingHash name)
  return [.rule name modifiers]

/-- the rest of a rule behind its tags -/
def ruleBody (inner : Inner) : Parser (List Node) := do
  match ← peek with
  | none =>
    remark .loneHash
    return [.text "#"]
  | some (.mark .hash) =>
    advance
    return [.text ""]
  | some _ => ruleReference inner

/-- a rule: the nodes of its tags and the reference itself -/
def rule (inner : Inner) : Parser (List Node) := do
  expect (.mark .hash)
  let tags ← many (headTag inner)
  return tags.flatten ++ (← ruleBody inner)

/-- the name of a tag and its values, the first of which may not be empty -/
def tagEntry (inner : Inner) : Parser (List Node) := do
  let name ← requireText .tagName
  require (.mark .colon) (.tagColon name)
  match ← blockList inner with
  | [] :: _ => fail .emptyTagValue
  | values => return [.tag name values]

/-- one thing inside a tag -/
def tagItem (inner : Inner) : Parser (Option (List Node)) := do
  match ← peek with
  | none => return none
  | some (.mark .closeSquare) => return none
  | some (.mark .hash) => return some (← inner .rule)
  | some (.mark .openSquare) => return some (← inner .tag)
  | some _ => return some (← tagEntry inner)

/-- a tag: rules, tags and entries between square brackets -/
def tag (inner : Inner) : Parser (List Node) := do
  expect (.mark .openSquare)
  let items ← many (tagItem inner)
  expect (.mark .closeSquare)
  return items.flatten

/-! ## Conditions and control brackets -/

/-- the two sides of a condition, each without one final space -/
def condition (inner : Inner) : Parser (Condition Node) := do
  let lhs := Node.dropFinalSpace (← block inner)
  match (← peek).bind (Connective.ofKind? ·.kind) with
  | none => return ⟨lhs, .notEqualTo, emptyTextSide⟩
  | some connective =>
    advance
    skip .space
    match ← block inner with
    | [] => fail connective.emptyError
    | rhs => return ⟨lhs, connective.relation rhs, Node.dropFinalSpace rhs⟩

/-- the space and the block behind a control word; the block may not be empty -/
def filledBlock (inner : Inner) (k : Keyword) : Parser (List Node) := do
  require .space (.spaceAfter k)
  match ← block inner with
  | [] => fail (.emptyBlock k)
  | nodes => return nodes

/-- an opening square bracket, a control word and its condition -/
def controlHead (inner : Inner) (k : Keyword) : Parser (Condition Node) := do
  expect (.mark .openSquare)
  expect (.keyword k)
  require .space (.spaceAfter k)
  condition inner

/-- a block for when a condition holds, and perhaps one for when it does not; a space before `else` is dropped -/
def ifBlock (inner : Inner) : Parser (List Node) := do
  let cond ← controlHead inner .ifWord
  require (.keyword .thenWord) (.afterCondition .thenWord)
  let thenBlock ← filledBlock inner .thenWord
  if ← nextIs (.keyword .elseWord) then
    advance
    let elseBlock ← filledBlock inner .elseWord
    expect (.mark .closeSquare)
    return [.ifBlock cond (Node.dropFinalSpace thenBlock) (some elseBlock)]
  else
    expect (.mark .closeSquare)
    return [.ifBlock cond thenBlock none]

/-- a block for as long as a condition holds -/
def whileBlock (inner : Inner) : Parser (List Node) := do
  let cond ← controlHead inner .whileWord
  require (.keyword .doWord) (.afterCondition .doWord)
  let doBlock ← filledBlock inner .doWord
  expect (.mark .closeSquare)
  return [.whileBlock cond doBlock]

/-! ## Nesting -/

/-- a construct over a parser for the constructs inside it -/
def Construct.body (inner : Inner) : Construct → Parser (List Node)
  | rule => TextGrammar.rule inner
  | tag => TextGrammar.tag inner
  | ifBlock => TextGrammar.ifBlock inner
  | whileBlock => TextGrammar.whileBlock inner

/-- a construct with the given number of levels left under the limit -/
def construct (limit : Nat) : Nat → Inner
  | 0, _ => fail (.tooDeep limit)
  | levels + 1, k => deeper (k.body (construct limit levels))

end TextGrammar
