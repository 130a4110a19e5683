/-
Where the text of a source goes.

A tree has literals: the content of its text nodes and the names of its references, modifiers and tags, in order
(`Node.literalsIn`). A token list has its text tokens. A parse puts each of the latter into the tree and adds nothing
but marks, numbers that it found and empty texts; what it takes away is final spaces. So the two have the same
`letters`, which are all characters but spaces, digits and marks.

- `Derives.letters_eq`: the letters of what a form yields are those of the text tokens that it takes.
- `Document.letters_eq`: so for a document, in which all control tokens stand inside brackets.
- `Source.plainNumbers_tokens`: source has no number with a letter in its spelling.

Result:
- `letters_of_source`: the letters of a parsed source are those of its text tokens.
-/
import TextGrammar.Proofs.Brackets

namespace TextGrammar

open Node TextGrammar.Parser

/-! ## Literals -/

namespace Node

mutual

/-- the literals of a node: its text or its name, and then those of the blocks in it -/
def literals : Node → List String
  | .text s => [s]
  | .rule name ms => name :: literalsInModifiers ms
  | .tag name vs => name :: literalsInEach vs
  | .weight _ => []
  | .ifBlock ⟨l, _, r⟩ t none => literalsIn l ++ literalsIn r ++ literalsIn t
  | .ifBlock ⟨l, _, r⟩ t (some e) => literalsIn l ++ literalsIn r ++ literalsIn t ++ literalsIn e
  | .whileBlock ⟨l, _, r⟩ d => literalsIn l ++ literalsIn r ++ literalsIn d

/-- the literals of a block -/
def literalsIn : List Node → List String
  | [] => []
  | n :: ns => literals n ++ literalsIn ns

/-- the literals of several blocks -/
def literalsInEach : List (List Node) → List String
  | [] => []
  | b :: bs => literalsIn b ++ literalsInEach bs

/-- the literals of modifiers: each name, and then the parameters -/
def literalsInModifiers : List (Modifier Node) → List String
  | [] => []
  | ⟨name, ps⟩ :: ms => name :: literalsInEach ps ++ literalsInModifiers ms

end

theorem literalsIn_append (ms ns : List Node) : literalsIn (ms ++ ns) = literalsIn ms ++ literalsIn ns := by
  induction ms with
  | nil => rfl
  | cons m ms ih => rw [List.cons_append, literalsIn, literalsIn, ih, List.append_assoc]

theorem literalsIn_singleton (n : Node) : literalsIn [n] = literals n :=
  List.append_nil _

end Node

/-! ## Letters -/

/-- spaces, digits and marks -/
def isFiller (c : Char) : Bool :=
  c = ' ' || c.isDigit || (Mark.ofChar? c).isSome

/-- strings one after another, without spaces, digits and marks -/
def letters (ss : List String) : List Char :=
  (ss.flatMap String.toList).filter fun c => !isFiller c

@[simp] theorem letters_append (ss ts : List String) : letters (ss ++ ts) = letters ss ++ letters ts := by
  simp [letters]

theorem letters_cons (s : String) (ss : List String) : letters (s :: ss) = letters [s] ++ letters ss :=
  letters_append [s] ss

theorem letters_eq_nil_iff {s : String} : letters [s] = [] ↔ ∀ c ∈ s.toList, isFiller c = true := by
  simp [letters]

/-- a final space is no letter -/
theorem letters_dropFinalSpace (ns : List Node) :
    letters (literalsIn (dropFinalSpace ns)) = letters (literalsIn ns) := by
  induction ns using dropFinalSpace.induct with
  | case1 => rfl
  | case2 s =>
    rw [dropFinalSpace, textWithoutFinalSpace]
    split
    · subst s
      rfl
    · split
      · rename_i h
        obtain ⟨cs, hs⟩ := List.getLast?_eq_some_iff.1 h
        simp [literalsIn, literals, letters, hs, isFiller]
      · rfl
  | case3 n ns hn ih => rw [dropFinalSpace.eq_3 n ns hn, literalsIn, literalsIn, letters_append, letters_append, ih]

/-- the content of a text token -/
def Token.text? : Token → Option String
  | .text s => some s
  | _ => none

/-- the letters of the text tokens -/
def textLetters (ts : List Token) : List Char :=
  letters (ts.filterMap Token.text?)

section

variable {ts : List Token}

@[simp] theorem textLetters_text (s : String) : textLetters (.text s :: ts) = letters [s] ++ textLetters ts :=
  letters_cons s _

@[simp] theorem textLetters_mark (m : Mark) : textLetters (.mark m :: ts) = textLetters ts := rfl

@[simp] theorem textLetters_number (x : Float) (s : Option String) :
    textLetters (.number x s :: ts) = textLetters ts := rfl

theorem textLetters_connective {t : Token} {c : Connective} (h : Connective.ofKind? t.kind = some c) :
    textLetters (t :: ts) = textLetters ts := by
  cases t with
  | text s => cases h
  | _ => rfl

theorem textLetters_afterSpace (ts : List Token) : textLetters (afterSpace ts) = textLetters ts := by
  unfold afterSpace
  split <;> rfl

end

/-- every number is spelled without a letter -/
def PlainNumbers (ts : List Token) : Prop :=
  ∀ x s, .number x s ∈ ts → letters [Token.rawText (.number x s)] = []

theorem PlainNumbers.of_suffix {ts us : List Token} (h : PlainNumbers ts) (hs : us <:+ ts) : PlainNumbers us :=
  fun x s hm => h x s (hs.subset hm)

theorem PlainNumbers.tail {t : Token} {ts : List Token} (h : PlainNumbers (t :: ts)) : PlainNumbers ts :=
  h.of_suffix (List.suffix_cons t ts)

/-! ## Derivations -/

/-- the literals of what a form yields -/
def Form.literals : (f : Form) → f.Yield → List String
  | .block, ns | .fragment, ns | .heads, ns | .reference, ns | .items, ns | .construct _, ns => literalsIn ns
  | .list, bs | .elements, bs | .params, bs => literalsInEach bs
  | .modifiers, ms => literalsInModifiers ms
  | .condition, c => literalsIn c.lhs ++ literalsIn c.rhs

/-- the letters of what a form yields are those of the text tokens that it takes -/
theorem Derives.letters_eq {n : Nat} {f : Form} {ts rest : List Token} {y : f.Yield} (h : Derives n f ts y rest)
    (hp : PlainNumbers ts) : letters (f.literals y) ++ textLetters rest = textLetters ts := by
  induction h with
  | blockEnd | elementsEnd | headsEnd | loneHash | modifiersEnd | noParams | itemsEnd => rfl
  | text => exact (textLetters_text _).symm
  | weight | colon | doubleHash => rfl
  | number =>
    simp only [Form.literals, literalsIn_singleton, literals, hp _ _ List.mem_cons_self, List.nil_append,
      textLetters_number]
  | opened _ _ ih => exact ih hp
  | blockMore h₁ _ ih₁ ih₂ | headsMore h₁ _ ih₁ ih₂ | itemsOpened _ h₁ _ ih₁ ih₂ =>
    simp only [Form.literals, literalsIn_append, letters_append, List.append_assoc] at ih₁ ih₂ ⊢
    rw [ih₂ (hp.of_suffix h₁.suffix), ih₁ hp]
  | list h₁ _ ih₁ ih₂ =>
    simp only [Form.literals, literalsInEach, letters_append, List.append_assoc] at ih₁ ih₂ ⊢
    rw [ih₂ (hp.of_suffix h₁.suffix), ih₁ hp]
  | elementsMore h₁ _ _ ih₁ ih₂ =>
    have hp := hp.tail
    simp only [Form.literals, literalsInEach, letters_append, List.append_assoc] at ih₁ ih₂ ⊢
    rw [ih₂ (hp.of_suffix h₁.suffix), ih₁ hp, textLetters_mark]
  | named h ih =>
    simp only [Form.literals, literalsIn_singleton, literals] at ih ⊢
    rw [letters_cons, List.append_assoc, ← textLetters_mark, ih hp.tail, textLetters_text]
  | unnamed h ih =>
    simp only [Form.literals, literalsIn_singleton, literals] at ih ⊢
    rw [letters_cons, List.append_assoc, ← textLetters_mark, ih hp]
    rfl
  | modifiersMore h₁ _ ih₁ ih₂ =>
    have hp := hp.tail.tail
    simp only [Form.literals, literalsInModifiers, List.cons_append] at ih₁ ih₂ ⊢
    rw [letters_cons, letters_append, List.append_assoc, List.append_assoc, ih₂ (hp.of_suffix h₁.suffix), ih₁ hp,
      textLetters_mark, textLetters_text]
  | emptyParams _ ih => exact ih hp.tail
  | params _ _ ih => exact ih hp.tail
  | itemsEntry h₁ _ _ ih₁ ih₂ =>
    have hp := hp.tail.tail
    simp only [Form.literals, literalsIn, literals, List.cons_append] at ih₁ ih₂ ⊢
    rw [letters_cons, letters_append, List.append_assoc, List.append_assoc, ih₂ (hp.of_suffix h₁.suffix), ih₁ hp,
      textLetters_text, textLetters_mark]
  | plainCondition _ _ ih =>
    simp only [Form.literals, letters_append, letters_dropFinalSpace, List.append_assoc] at ih ⊢
    exact ih hp
  | condition h₁ hc _ _ ih₁ ih₂ =>
    have hp₁ := hp.of_suffix h₁.suffix
    simp only [Form.literals, letters_append, letters_dropFinalSpace, List.append_assoc] at ih₁ ih₂ ⊢
    rw [ih₂ (hp₁.tail.of_suffix (afterSpace_suffix _)), textLetters_afterSpace, ← textLetters_connective hc, ih₁ hp]
  | rule h₁ _ ih₁ ih₂ =>
    have hp := hp.tail
    simp only [Form.literals, literalsIn_append, letters_append, List.append_assoc] at ih₁ ih₂ ⊢
    rw [ih₂ (hp.of_suffix h₁.suffix), ih₁ hp, textLetters_mark]
  | tag _ ih => exact ih hp.tail
  | ifThen h₁ _ _ ih₁ ih₂ | whileDo h₁ _ _ ih₁ ih₂ =>
    have hp := hp.tail.tail.tail
    have hp₁ := hp.of_suffix h₁.suffix
    simp only [Form.literals, literalsIn_singleton, literals, letters_append, List.append_assoc] at ih₁ ih₂ ⊢
    rw [← textLetters_mark, ih₂ hp₁.tail.tail]
    exact ih₁ hp
  | ifThenElse h₁ h₂ _ _ _ ih₁ ih₂ ih₃ =>
    have hp := hp.tail.tail.tail
    have hp₁ := (hp.of_suffix h₁.suffix).tail.tail
    have hp₂ := (hp₁.of_suffix h₂.suffix).tail.tail
    simp only [Form.literals, literalsIn_singleton, literals, letters_append, letters_dropFinalSpace,
      List.append_assoc] at ih₁ ih₂ ih₃ ⊢
    rw [← textLetters_mark, ih₃ hp₂]
    exact (congrArg _ (congrArg _ (ih₂ hp₁))).trans (ih₁ hp)

/-- a token that is left over at the top level is a mark -/
theorem Token.LeftOver.exists_mark {t : Token} {rest : List Token} (h : t.LeftOver rest) : ∃ m, t = .mark m := by
  rcases h with h | ⟨rfl, -⟩
  · obtain ⟨m, -, rfl⟩ := List.mem_map.1 h
    exact ⟨m, rfl⟩
  · exact ⟨.openSquare, rfl⟩

theorem letters_mark (m : Mark) : letters [(Token.mark m).rawText] = [] := by
  cases m <;> rfl

/-- what a document keeps as text at the top level are marks -/
theorem Document.letters_eq {n : Nat} {ts : List Token} {ns : List Node} (h : Document n ts ns) (hi : Inside 0 ts)
    (hp : PlainNumbers ts) : letters (literalsIn ns) = textLetters ts := by
  induction h with
  | last h => exact (List.append_nil _).symm.trans (h.letters_eq hp)
  | stray h _ ih =>
    obtain ⟨hl, hr⟩ := leftOver_of_block h hi
    obtain ⟨m, rfl⟩ := hl.exists_mark
    have hb := h.letters_eq hp
    simp only [Form.literals, textLetters_mark] at hb
    rw [literalsIn_append, letters_append, literalsIn, literals, letters_append, letters_mark, List.nil_append,
      ih hr (hp.of_suffix h.suffix).tail, hb]

/-! ## Source -/

namespace Source

theorem plainNumbers_tokens (source : String) : PlainNumbers (tokens source) := by
  intro x o h
  obtain ⟨d, hd, rfl⟩ := number_of_mem_assemble h
  obtain ⟨s, cs, -, hat⟩ := stands_of_mem hd
  refine letters_eq_nil_iff.2 fun c hc => ?_
  rw [Token.rawText, String.toList_ofList] at hc
  rcases Number.Decimal.isDigit_of_at? hat hc with hc | rfl
  · simp [isFiller, hc]
  · rfl

end Source

/-- **Literal text is kept.** For every source that parses, under any limit, the literals of the tree are the text
tokens of the source, letter by letter: none is lost, none is there twice, and they are in order. -/
theorem letters_of_source {limit : Nat} {source : String} {ns : List Node}
    (h : (build limit (Source.tokens source)).result = .ok ns) :
    letters (literalsIn ns) = letters ((Source.tokens source).filterMap Token.text?) :=
  (build_ok_iff.1 h).letters_eq (Source.inside_tokens source) (Source.plainNumbers_tokens source)

/-- a tag in the head of a rule stands in front of the rule -/
theorem letters_of_source_hoisted :
    (build 2 (Source.tokens "#[a:b]c#")).result = .ok [.tag "a" [[.text "b"]], .rule "c" []] ∧
      letters (literalsIn [.tag "a" [[.text "b"]], .rule "c" []]) =
        letters ((Source.tokens "#[a:b]c#").filterMap Token.text?) := by
  have tokens : Source.tokens "#[a:b]c#" = [.mark .hash, .mark .openSquare, .text "a", .mark .colon, .text "b",
      .mark .closeSquare, .text "c", .mark .hash] := by rfl
  have h : (build 2 (Source.tokens "#[a:b]c#")).result = .ok [.tag "a" [[.text "b"]], .rule "c" []] := by
    rw [tokens]
    rfl
  exact ⟨h, letters_of_source h⟩

end TextGrammar
