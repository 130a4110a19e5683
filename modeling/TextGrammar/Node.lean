/-
The tree of a grammar text.

A block is a list of nodes. Text and weights are leaves; a rule reference holds blocks in the parameters of its
modifiers, a tag holds its values, and the two control nodes hold both sides of a condition and one or two further
blocks.

- `Node.ruleRefs` and `Node.ruleRefsIn` count the rule references of a node and of a block, at any depth.
- `Node.plainText` joins a block of text nodes; any other node is an `Unrenderable`.
- `Node.dropFinalSpace` takes one space off the end of a block.
- `Node.agrees` compares nodes as values, weights as numbers.
-/

namespace TextGrammar

/-- how a condition relates its two sides -/
inductive Relation where
  | equalTo | notEqualTo | valueIn | valueNotIn
  deriving DecidableEq

/-- a change to the expansion of a rule, written `.name(param, param)` -/
structure Modifier (N : Type) where
  name : String
  params : List (List N)

/-- what an if or a while bracket asks -/
structure Condition (N : Type) where
  lhs : List N
  relation : Relation
  rhs : List N

/-- one node of the tree -/
inductive Node where
  /-- literal text -/
  | text (content : String)
  /-- a reference to a named rule, with modifiers applied in order -/
  | rule (name : String) (modifiers : List (Modifier Node))
  /-- a key bound to alternative values -/
  | tag (name : String) (values : List (List Node))
  /-- the weight of the choice that it stands in -/
  | weight (value : Float)
  /-- a condition with a block for each outcome; the second may be missing -/
  | ifBlock (condition : Condition Node) (thenBlock : List Node) (elseBlock : Option (List Node))
  /-- a block repeated while a condition holds -/
  | whileBlock (condition : Condition Node) (doBlock : List Node)

namespace Relation

/-- every relation -/
def all : List Relation := [equalTo, notEqualTo, valueIn, valueNotIn]

/-- the word for the relation -/
def label : Relation → String
  | equalTo => "equalTo"
  | notEqualTo => "notEqualTo"
  | valueIn => "valueIn"
  | valueNotIn => "valueNotIn"

/-- the name by which relations are listed -/
def name : Relation → String
  | equalTo => "EQUAL_TO"
  | notEqualTo => "NOT_EQUAL_TO"
  | valueIn => "VALUE_IN"
  | valueNotIn => "VALUE_NOT_IN"

/-- the relation of a membership test: against literal text it is a comparison, and against anything that can produce
several values it asks whether the value is among them -/
def ofMembers (negated : Bool) : List Node → Relation
  | .text _ :: _ => if negated then notEqualTo else equalTo
  | _ => if negated then valueNotIn else valueIn

end Relation

namespace Node

/-! ## Counting rule references -/

mutual

/-- the rule references in a node, the node itself included -/
def ruleRefs : Node → Nat
  | .text _ => 0
  | .rule _ ms => 1 + ruleRefsInModifiers ms
  | .tag _ vs => ruleRefsInEach vs
  | .weight _ => 0
  | .ifBlock ⟨l, _, r⟩ t none => ruleRefsIn l + ruleRefsIn r + ruleRefsIn t
  | .ifBlock ⟨l, _, r⟩ t (some e) => ruleRefsIn l + ruleRefsIn r + ruleRefsIn t + ruleRefsIn e
  | .whileBlock ⟨l, _, r⟩ d => ruleRefsIn l + ruleRefsIn r + ruleRefsIn d

/-- the rule references in a block -/
def ruleRefsIn : List Node → Nat
  | [] => 0
  | n :: ns => ruleRefs n + ruleRefsIn ns

/-- the rule references in several blocks -/
def ruleRefsInEach : List (List Node) → Nat
  | [] => 0
  | b :: bs => ruleRefsIn b + ruleRefsInEach bs

/-- the rule references in the parameters of modifiers -/
def ruleRefsInModifiers : List (Modifier Node) → Nat
  | [] => 0
  | ⟨_, ps⟩ :: ms => ruleRefsInEach ps + ruleRefsInModifiers ms

end

/-! ## Agreement as values -/

mutual

/-- agreement of two nodes, in which weights agree as numbers -/
def agrees : Node → Node → Bool
  | .text s, .text t => s == t
  | .rule a ms, .rule b ns => a == b && modifiersAgree ms ns
  | .tag a vs, .tag b ws => a == b && eachAgree vs ws
  | .weight x, .weight y => x == y
  | .ifBlock ⟨l, p, r⟩ t none, .ifBlock ⟨l', p', r'⟩ t' none =>
    blocksAgree l l' && p == p' && blocksAgree r r' && blocksAgree t t'
  | .ifBlock ⟨l, p, r⟩ t (some e), .ifBlock ⟨l', p', r'⟩ t' (some e') =>
    blocksAgree l l' && p == p' && blocksAgree r r' && blocksAgree t t' && blocksAgree e e'
  | .whileBlock ⟨l, p, r⟩ d, .whileBlock ⟨l', p', r'⟩ d' =>
    blocksAgree l l' && p == p' && blocksAgree r r' && blocksAgree d d'
  | _, _ => false

/-- agreement of two blocks, node by node -/
def blocksAgree : List Node → List Node → Bool
  | [], [] => true
  | m :: ms, n :: ns => agrees m n && blocksAgree ms ns
  | _, _ => false

/-- agreement of two lists of blocks, block by block -/
def eachAgree : List (List Node) → List (List Node) → Bool
  | [], [] => true
  | b :: bs, c :: cs => blocksAgree b c && eachAgree bs cs
  | _, _ => false

/-- agreement of two lists of modifiers, in name and parameters -/
def modifiersAgree : List (Modifier Node) → List (Modifier Node) → Bool
  | [], [] => true
  | ⟨a, ps⟩ :: ms, ⟨b, qs⟩ :: ns => a == b && eachAgree ps qs && modifiersAgree ms ns
  | _, _ => false

end

/-! ## Plain text -/

/-- what a node is called -/
def className : Node → String
  | .text _ => "TextNode"
  | .rule _ _ => "RuleNode"
  | .tag _ _ => "TagNode"
  | .weight _ => "WeightNode"
  | .ifBlock _ _ _ => "IfNode"
  | .whileBlock _ _ => "WhileNode"

/-- a node that is no plain text -/
structure Unrenderable where
  node : Node

/-- the wording of the refusal -/
def Unrenderable.message (u : Unrenderable) : String :=
  "cannot render " ++ u.node.className ++ " as text"

/-- the text of a block that holds text nodes only, or else its first node of another kind -/
def plainText : List Node → Except Unrenderable String
  | [] => .ok ""
  | .text s :: ns => (plainText ns).map (s ++ ·)
  | n :: _ => .error ⟨n⟩

/-- a text node without one final space; a node that is just a space goes away -/
def textWithoutFinalSpace (s : String) : List Node :=
  if s = " " then []
  else if s.toList.getLast? = some ' ' then [.text (String.ofList s.toList.dropLast)]
  else [.text s]

/-- a block without one space at the end of a final text node -/
def dropFinalSpace : List Node → List Node
  | [] => []
  | [.text s] => textWithoutFinalSpace s
  | n :: ns => n :: dropFinalSpace ns

/-- only the last node of a block changes -/
theorem dropFinalSpace_append_text (ns : List Node) (s : String) :
    dropFinalSpace (ns ++ [.text s]) = ns ++ textWithoutFinalSpace s := by
  induction ns with
  | nil => rfl
  | cons n ns ih =>
    cases hns : ns ++ [Node.text s] with
    | nil => simp at hns
    | cons m ms =>
      rw [List.cons_append, hns, dropFinalSpace, ← hns, ih, List.cons_append]
      simp

end Node

end TextGrammar
