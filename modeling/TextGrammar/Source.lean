/-
Grammar source, read as items and then as tokens.

Source is plain text in which eight punctuation marks and the numbers at word starts stand out. A square bracket that
opens with `if` or `while` and a space is a control bracket; inside it, and only there, some words and operators stand
out as well. Which ones depends on the part of the bracket (`Phase`): the condition knows its operators and `in`, `not
in`, `then` and `do`; after `then` only `else` is known; after `else` or `do` nothing is. A backslash takes away
whatever the next character would mean.

Reading has two stages.

- `items` cuts the source into the things that stand in it (`Item`), each with the characters it covers. What an item
  is depends on the text ahead and on a `State`: the parts of the brackets that are open, and whether a word starts
  here. Every item covers at least one character (`size_itemAt_pos`), and the next one starts behind it
  (`itemsFrom_cons`).
- `assemble` turns the items into tokens, where a run of plain characters becomes one text.

`tokens` is the two together.
-/
import TextGrammar.Number.Decimal
import TextGrammar.Token

namespace TextGrammar.Source

open Number

/-! ## Control brackets -/

/-- the part of a control bracket that the reading is in -/
inductive Phase where
  | opening | condition | thenPart | lastPart
  deriving DecidableEq

/-- the words known in a part, in the order in which they are tried -/
def Phase.keywords : Phase → List Keyword
  | opening => [.ifWord, .whileWord]
  | condition => [.notInWord, .thenWord, .doWord, .inWord]
  | thenPart => [.elseWord]
  | lastPart => []

/-- the part that a word leads to -/
def Phase.after (p : Phase) : Keyword → Phase
  | .ifWord | .whileWord => condition
  | .thenWord => thenPart
  | .elseWord | .doWord => lastPart
  | .inWord | .notInWord => p

/-- what the reading remembers: whether a word starts here, and for each open bracket, innermost first, the part of it
that the reading is in, or `none` for a bracket without control words -/
structure State where
  wordStart : Bool
  brackets : List (Option Phase)
  deriving DecidableEq

/-- the state at the start of a source -/
def State.start : State := ⟨true, []⟩

/-- the part of the innermost bracket, if that is a control bracket -/
def State.phase (s : State) : Option Phase :=
  s.brackets.head?.join

/-! ## Items -/

/-- what can stand at a place of the source -/
inductive Item where
  /-- punctuation; `control` is set on an opening square bracket with `if` or `while` and a space behind it -/
  | mark (m : Mark) (control : Bool)
  /-- a comparison; `spaced` if one space belongs to it -/
  | operator (o : Operator) (spaced : Bool)
  /-- a control word; `spaced` if one space belongs to it -/
  | keyword (k : Keyword) (spaced : Bool)
  | number (d : Decimal)
  /-- a character that stands for itself -/
  | plain (c : Char)
  /-- a character after a backslash -/
  | escaped (c : Char)
  deriving DecidableEq

/-- how many characters of the source an item covers -/
def Item.size : Item → Nat
  | mark _ _ => 1
  | operator o spaced => o.chars.length + spaced.toNat
  | keyword k spaced => k.chars.length + spaced.toNat
  | number d => d.spelling.length
  | plain _ => 1
  | escaped _ => 2

/-- the state after an item -/
def State.after (s : State) : Item → State
  | .mark .openSquare control => ⟨true, (if control then some .opening else none) :: s.brackets⟩
  | .mark .closeSquare _ => ⟨true, s.brackets.tail⟩
  | .mark _ _ => ⟨true, s.brackets⟩
  | .operator _ _ => ⟨true, s.brackets⟩
  | .keyword k _ => ⟨true, s.brackets.modifyHead (·.map (·.after k))⟩
  | .number _ => ⟨true, s.brackets⟩
  | .plain c | .escaped c => ⟨c = ' ', s.brackets⟩

/-- does a space come next? -/
def spaceNext : List Char → Bool
  | ' ' :: _ => true
  | _ => false

/-- does the text behind a mark make it the start of a control bracket? -/
def opensControl (m : Mark) (cs : List Char) : Bool :=
  m = .openSquare && [Keyword.ifWord, .whileWord].any fun k => (k.chars ++ [' ']).isPrefixOf cs

/-- may a control word end before this text? It may before a space, a closing square bracket or the end, and before a
line feed that is the last character. -/
def endsWord : List Char → Bool
  | [] | ' ' :: _ | ']' :: _ | ['\n'] => true
  | _ => false

/-- the operator at the head of the text, where the condition of a control bracket is being read -/
def operatorAt? (s : State) (cs : List Char) : Option Operator :=
  if s.phase = some .condition then Operator.all.find? (·.chars.isPrefixOf cs) else none

/-- the control word at the head of the text, where a word starts and the part of the bracket knows it -/
def keywordAt? (s : State) (cs : List Char) : Option Keyword :=
  match s.phase with
  | none => none
  | some p =>
    if s.wordStart then
      p.keywords.find? fun k => k.chars.isPrefixOf cs && endsWord (cs.drop k.chars.length)
    else none

/-- the number at the head of the text, where a word starts -/
def numberAt? (s : State) (cs : List Char) : Option Decimal :=
  if s.wordStart then Decimal.at? cs else none

/-- the item at a character with the text behind it. A backslash at the very end stands for itself. -/
def itemAt (s : State) (c : Char) (cs : List Char) : Item :=
  if c = '\\' then
    match cs with
    | [] => .plain c
    | next :: _ => .escaped next
  else match Mark.ofChar? c with
    | some m => .mark m (opensControl m cs)
    | none => match operatorAt? s (c :: cs) with
      | some o => .operator o (spaceNext ((c :: cs).drop o.chars.length))
      | none => match keywordAt? s (c :: cs) with
        | some k => .keyword k (spaceNext ((c :: cs).drop k.chars.length))
        | none => match numberAt? s (c :: cs) with
          | some d => .number d
          | none => .plain c

/-- the items of a text, after `skip` characters that belong to an earlier item -/
def itemsFrom : Nat → State → List Char → List Item
  | _, _, [] => []
  | skip + 1, s, _ :: cs => itemsFrom skip s cs
  | 0, s, c :: cs =>
    let i := itemAt s c cs
    i :: itemsFrom (i.size - 1) (s.after i) cs

/-- the items of a source -/
def items (cs : List Char) : List Item :=
  itemsFrom 0 .start cs

/-- characters that belong to an earlier item are passed over -/
theorem itemsFrom_eq_drop (skip : Nat) (s : State) (cs : List Char) :
    itemsFrom skip s cs = itemsFrom 0 s (cs.drop skip) := by
  induction skip generalizing cs with
  | zero => rw [List.drop_zero]
  | succ skip ih =>
    cases cs with
    | nil => rw [List.drop_nil, itemsFrom, itemsFrom]
    | cons c cs => rw [itemsFrom, List.drop_succ_cons, ih]

/-- every item covers a character -/
theorem size_itemAt_pos (s : State) (c : Char) (cs : List Char) : 0 < (itemAt s c cs).size := by
  unfold itemAt
  split
  · cases cs <;> simp [Item.size]
  · split
    · simp [Item.size]
    · split
      · rename_i o _
        exact Nat.add_pos_left (by cases o <;> decide) _
      · split
        · rename_i k _
          exact Nat.add_pos_left (by cases k <;> decide) _
        · split
          · rename_i d hd
            unfold numberAt? at hd
            split at hd
            · exact (Decimal.spelling_of_at? hd).2
            · simp at hd
          · simp [Item.size]

/-- after an item the reading goes on behind the characters that it covers -/
theorem itemsFrom_cons (s : State) (c : Char) (cs : List Char) :
    itemsFrom 0 s (c :: cs) =
      itemAt s c cs :: itemsFrom 0 (s.after (itemAt s c cs)) ((c :: cs).drop (itemAt s c cs).size) := by
  obtain ⟨n, hn⟩ := Nat.exists_eq_add_of_lt (size_itemAt_pos s c cs)
  rw [itemsFrom, itemsFrom_eq_drop, hn]
  simp

/-! ## Tokens -/

/-- the space token that belongs to a control word or an operator -/
def spaceToken (spaced : Bool) : List Token :=
  if spaced then [.space] else []

/-- a run of plain characters as a token, unless it is empty; the run comes last character first -/
def textToken : List Char → List Token
  | [] => []
  | run => [.text (String.ofList run.reverse)]

/-- the tokens of a list of items that follows the given run of plain characters, last character first -/
def assemble (run : List Char) : List Item → List Token
  | [] => textToken run
  | .plain c :: rest | .escaped c :: rest => assemble (c :: run) rest
  | .mark m _ :: rest => textToken run ++ .mark m :: assemble [] rest
  | .operator o spaced :: rest => textToken run ++ .operator o :: spaceToken spaced ++ assemble [] rest
  | .keyword k spaced :: rest => textToken run ++ .keyword k :: spaceToken spaced ++ assemble [] rest
  | .number d :: rest => textToken run ++ .number d.value (some (String.ofList d.spelling)) :: assemble [] rest

/-- the tokens of a source -/
def tokens (source : String) : List Token :=
  assemble [] (items source.toList)

end TextGrammar.Source
