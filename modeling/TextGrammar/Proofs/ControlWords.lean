/-
Where control words, operators and spaces stand in source.

The reading of source knows which part of a control bracket it is in and makes tokens of the words and operators of
that part only. A replay of the tokens gets to the same knowledge without the source: a square bracket that opens is a
control bracket if `if` or `while` comes next, and the control words at its level tell which part of it is over.
`Token.Allowed` says of each token where it may stand in such a replay, and `AllAllowed` says it of a whole list.

- The brackets of the reading and those of the replay agree (`Agrees`) at every item, with one exception: behind a
  bracket that opens in front of a control word the two differ until the word is read. So both items are taken together
  (`allAllowed_control`).
- `allAllowed_assemble`: from places where they agree the tokens ahead are allowed, by induction on the source ahead.

Result:
- `control_tokens_of_source`: in the tokens of a source all tokens are allowed, and so no parse of a source misses the
  space behind `if` or `while`.
-/
import Mathlib.Data.List.Forall2
import TextGrammar.Proofs.Items
import TextGrammar.Proofs.Passage

namespace TextGrammar

open TextGrammar.Parser

/-! ## Replaying tokens -/

/-- a square bracket that is open: whether it is a control bracket, and the control words read at its own level -/
structure OpenBracket where
  control : Bool
  words : List Keyword

/-- a control bracket whose condition is not over -/
def OpenBracket.InCondition (b : OpenBracket) : Prop :=
  b.control = true ∧ .thenWord ∉ b.words ∧ .doWord ∉ b.words

/-- a control bracket in which `else` may come -/
def OpenBracket.InThen (b : OpenBracket) : Prop :=
  b.control = true ∧ .thenWord ∈ b.words ∧ .elseWord ∉ b.words

/-- a bracket in front of these tokens is a control bracket -/
def controlAhead (ts : List Token) : Bool :=
  ts.head? = some (.keyword .ifWord) || ts.head? = some (.keyword .whileWord)

/-- the brackets that are open behind a token, innermost first, given those in front of it and the tokens that follow -/
def Token.replay (stack : List OpenBracket) (rest : List Token) : Token → List OpenBracket
  | .mark .openSquare => ⟨controlAhead rest, []⟩ :: stack
  | .mark .closeSquare => stack.tail
  | .keyword k => stack.modifyHead fun b => { b with words := k :: b.words }
  | _ => stack

/-- a control word other than `if` and `while` may end in front of these tokens -/
def WordEnds (rest : List Token) : Prop :=
  rest.head? = some .space ∨ rest.head? = some (.mark .closeSquare) ∨ rest = [] ∨ rest = [.text "\n"]

/-- keywords and operators, behind which a space is a token of its own -/
def Token.takesSpace : Token → Bool
  | .keyword _ | .operator _ => true
  | _ => false

/-- where a token may stand: behind which token, in which open brackets, and in front of which tokens -/
def Token.Allowed (before : Option Token) (stack : List OpenBracket) (rest : List Token) : Token → Prop
  | .keyword .ifWord | .keyword .whileWord => before = some (.mark .openSquare) ∧ rest.head? = some .space
  | .keyword .elseWord => (∃ b ∈ stack.head?, b.InThen) ∧ WordEnds rest
  | .keyword _ => (∃ b ∈ stack.head?, b.InCondition) ∧ WordEnds rest
  | .operator _ => ∃ b ∈ stack.head?, b.InCondition
  | .space => ∃ t ∈ before, t.takesSpace = true
  | _ => True

/-- every token stands where it may, with the given token and the given brackets in front of the first one -/
def AllAllowed : Option Token → List OpenBracket → List Token → Prop
  | _, _, [] => True
  | before, stack, t :: ts => t.Allowed before stack ts ∧ AllAllowed (some t) (t.replay stack ts) ts

/-- what is allowed behind anything -/
def AllowedBehind (stack : List OpenBracket) (ts : List Token) : Prop :=
  ∀ before, AllAllowed before stack ts

/-! ## Source -/

namespace Source

variable {s : State} {stack : List OpenBracket} {ts : List Token}

theorem allowedBehind_nil : AllowedBehind stack [] := fun _ => trivial

theorem allowedBehind_cons {t : Token} (ht : ∀ before, t.Allowed before stack ts)
    (h : AllAllowed (some t) (t.replay stack ts) ts) : AllowedBehind stack (t :: ts) :=
  fun before => ⟨ht before, h⟩

theorem allowed_textToken (h : AllowedBehind stack ts) (run : List Char) :
    AllowedBehind stack (textToken run ++ ts) := by
  intro before
  cases run with
  | nil => exact h before
  | cons c run => exact ⟨trivial, h _⟩

theorem allowed_spaceToken (h : AllowedBehind stack ts) {t : Token} (ht : t.takesSpace = true) (spaced : Bool) :
    AllAllowed (some t) stack (spaceToken spaced ++ ts) := by
  cases spaced with
  | false => exact h _
  | true => exact ⟨⟨t, rfl, ht⟩, h _⟩

/-- what the replay knows of a bracket is enough for the part of it that the reading is in -/
def Agrees : Option Phase → OpenBracket → Prop
  | none, _ | some .lastPart, _ => True
  | some .opening, _ => False
  | some .condition, b => b.InCondition ∧ .elseWord ∉ b.words
  | some .thenPart, b => b.InThen

theorem agrees_keyword {p : Phase} {b : OpenBracket} {k : Keyword} (h : Agrees (some p) b) (hk : k ∈ p.keywords) :
    Agrees (some (p.after k)) { b with words := k :: b.words } := by
  cases p with
  | opening => exact absurd h id
  | lastPart => cases hk
  | condition =>
    obtain ⟨⟨hc, ht, hd⟩, he⟩ := h
    simp only [Phase.keywords, List.mem_cons, List.not_mem_nil, or_false] at hk
    rcases hk with rfl | rfl | rfl | rfl
    · exact ⟨⟨hc, by simpa using ht, by simpa using hd⟩, by simpa using he⟩
    · exact ⟨hc, List.mem_cons_self, by simpa using he⟩
    · exact trivial
    · exact ⟨⟨hc, by simpa using ht, by simpa using hd⟩, by simpa using he⟩
  | thenPart =>
    obtain rfl := List.mem_singleton.1 hk
    exact trivial

/-- the bracket of the replay in which a part of a control bracket is read -/
theorem exists_agrees_of_phase {p : Phase} (hp : s.phase = some p) (h : List.Forall₂ Agrees s.brackets stack) :
    ∃ b bs stack', s.brackets = some p :: bs ∧ stack = b :: stack' ∧ Agrees (some p) b ∧
      List.Forall₂ Agrees bs stack' := by
  rw [State.phase] at hp
  generalize s.brackets = ps at hp h
  cases h with
  | nil => cases hp
  | cons hb h =>
    rw [List.head?_cons, Option.join_some] at hp
    subst hp
    exact ⟨_, _, _, rfl, rfl, hb, h⟩

/-- what the source has behind a control word becomes tokens in front of which the word may end -/
theorem wordEnds_of_endsWord {cs : List Char} (h : endsWord cs = true) (s : State) :
    WordEnds (spaceToken (spaceNext cs) ++ assemble [] (itemsFrom 0 s (cs.drop (spaceNext cs).toNat))) := by
  unfold endsWord at h
  split at h
  · exact Or.inr (Or.inr (Or.inl rfl))
  · exact Or.inl rfl
  · exact Or.inr (Or.inl rfl)
  · refine Or.inr (Or.inr (Or.inr ?_))
    show assemble [] (itemsFrom 0 s ['\n']) = _
    rw [itemsFrom_cons, itemAt_lineFeed]
    rfl
  · cases h

/-- a bracket that opens, `if` or `while` and a space, in front of what is allowed in a condition -/
theorem allowedBehind_control {k : Keyword} (hk : k = .ifWord ∨ k = .whileWord)
    (h : AllowedBehind (⟨true, [k]⟩ :: stack) ts) :
    AllowedBehind stack (.mark .openSquare :: .keyword k :: .space :: ts) := by
  rcases hk with rfl | rfl <;> exact fun before => ⟨trivial, ⟨rfl, rfl⟩, ⟨_, rfl, rfl⟩, h _⟩

/-- a mark that opens no control bracket -/
theorem agrees_mark (h : List.Forall₂ Agrees s.brackets stack) (m : Mark) (ts : List Token) :
    List.Forall₂ Agrees (s.after (.mark m false)).brackets ((Token.mark m).replay stack ts) := by
  cases m with
  | openSquare => exact .cons trivial h
  | closeSquare =>
    rw [State.after, Token.replay]
    generalize s.brackets = bs at h
    cases h with
    | nil => exact .nil
    | cons _ h => exact h
  | _ => exact h

/-- where the bracket is right, a control word is allowed in front of the tokens of the source behind it -/
theorem allowed_keyword {p : Phase} {b : OpenBracket} {k : Keyword} {rest : List Token} (hb : b ∈ stack.head?)
    (h : Agrees (some p) b) (hk : k ∈ p.keywords) (hw : WordEnds rest) (before : Option Token) :
    (Token.keyword k).Allowed before stack rest := by
  cases p with
  | opening => exact absurd h id
  | lastPart => cases hk
  | condition =>
    simp only [Phase.keywords, List.mem_cons, List.not_mem_nil, or_false] at hk
    rcases hk with rfl | rfl | rfl | rfl <;> exact ⟨⟨b, hb, h.1⟩, hw⟩
  | thenPart =>
    obtain rfl := List.mem_singleton.1 hk
    exact ⟨⟨b, hb, h⟩, hw⟩

/-- in a condition that has just begun the brackets agree -/
theorem agrees_condition {k : Keyword} (hk : k = .ifWord ∨ k = .whileWord) : Agrees (some .condition) ⟨true, [k]⟩ := by
  rcases hk with rfl | rfl <;> exact ⟨⟨rfl, by decide, by decide⟩, by decide⟩

section

variable {is : List Item} (h : List.Forall₂ Agrees s.brackets stack) (run : List Char)

include h

theorem allowed_assemble_mark {m : Mark}
    (behind : ∀ stack', List.Forall₂ Agrees (s.after (.mark m false)).brackets stack' →
      AllowedBehind stack' (assemble [] is)) :
    AllowedBehind stack (assemble run (.mark m false :: is)) := by
  rw [assemble]
  refine allowed_textToken (allowedBehind_cons (fun _ => ?_) ?_) run
  · exact trivial
  · exact behind _ (agrees_mark h m _) _

theorem allowed_assemble_operator {o : Operator} {spaced : Bool} (hp : s.phase = some .condition)
    (behind : AllowedBehind stack (assemble [] is)) :
    AllowedBehind stack (assemble run (.operator o spaced :: is)) := by
  obtain ⟨b, bs, stack', -, rfl, hb, -⟩ := exists_agrees_of_phase hp h
  rw [assemble, List.append_assoc]
  refine allowed_textToken (allowedBehind_cons (fun _ => ?_) ?_) run
  · exact ⟨b, rfl, hb.1⟩
  · exact allowed_spaceToken behind rfl spaced

theorem allowed_assemble_keyword {p : Phase} {k : Keyword} {spaced : Bool} (hp : s.phase = some p)
    (hk : k ∈ p.keywords) (ends : WordEnds (spaceToken spaced ++ assemble [] is))
    (behind : ∀ stack', List.Forall₂ Agrees (s.after (.keyword k spaced)).brackets stack' →
      AllowedBehind stack' (assemble [] is)) :
    AllowedBehind stack (assemble run (.keyword k spaced :: is)) := by
  obtain ⟨b, bs, stack', hs, rfl, hb, hbs⟩ := exists_agrees_of_phase hp h
  have hafter : List.Forall₂ Agrees (s.after (.keyword k spaced)).brackets
      ({ b with words := k :: b.words } :: stack') := by
    rw [State.after, hs]
    exact .cons (agrees_keyword hb hk) hbs
  rw [assemble, List.append_assoc]
  refine allowed_textToken (allowedBehind_cons (fun before => ?_) ?_) run
  · exact allowed_keyword rfl hb hk ends before
  · exact allowed_spaceToken (behind _ hafter) rfl spaced

/-- a bracket that opens in front of a control word, and the word -/
theorem allowed_assemble_control {k : Keyword} (hk : k = .ifWord ∨ k = .whileWord)
    (behind : ∀ stack', List.Forall₂ Agrees (some .condition :: s.brackets) stack' →
      AllowedBehind stack' (assemble [] is)) :
    AllowedBehind stack (assemble run (.mark .openSquare true :: .keyword k true :: is)) := by
  have hafter : AllowedBehind (⟨true, [k]⟩ :: stack) (assemble [] is) :=
    behind _ (.cons (agrees_condition hk) h)
  exact allowed_textToken (allowedBehind_control hk hafter) run

end

/-- from where the brackets agree all tokens ahead are allowed -/
theorem allowed_assemble (h : List.Forall₂ Agrees s.brackets stack) (cs : List Char) (run : List Char) :
    AllowedBehind stack (assemble run (itemsFrom 0 s cs)) := by
  induction hn : cs.length using Nat.strongRecOn generalizing s stack cs run with
  | ind n ih =>
    cases cs with
    | nil =>
      have h : AllowedBehind stack (textToken run ++ []) := allowed_textToken allowedBehind_nil run
      rwa [List.append_nil] at h
    | cons c cs =>
      rw [itemsFrom_cons]
      have stands := itemAt_stands s c cs
      have shorter := hn ▸ length_behind_itemAt_lt s c cs
      have next (s' : State) (run : List Char) (stack' : List OpenBracket)
          (h : List.Forall₂ Agrees s'.brackets stack') := ih _ shorter h _ run rfl
      cases hi : itemAt s c cs <;> rw [hi] at stands next
      case mark m control =>
        cases control with
        | false => exact allowed_assemble_mark h run (next _ [])
        | true =>
          obtain ⟨rfl, k, rest, hk, hcs⟩ := exists_word_of_opensControl stands.2.symm
          obtain rfl : cs = k.chars ++ ' ' :: rest := hcs
          have hrest : rest.length < n := by
            simp only [List.length_cons, List.length_append] at hn
            omega
          have hitems := itemsFrom_control hk s.brackets rest
          refine hitems ▸ allowed_assemble_control h run hk fun stack' h => ?_
          exact ih _ hrest (s := ⟨true, some .condition :: s.brackets⟩) h _ [] rfl
      case operator o spaced =>
        exact allowed_assemble_operator h run stands.1 (next (s.after (.operator o spaced)) [] _ h)
      case keyword k spaced =>
        obtain ⟨-, ⟨p, hp, hk⟩, -, hw, hspaced⟩ := stands
        have ends := wordEnds_of_endsWord hw (s.after (.keyword k spaced))
        rw [List.drop_drop, ← hspaced] at ends
        exact allowed_assemble_keyword h run hp hk ends (next _ [])
      case number d =>
        rw [assemble]
        refine allowed_textToken (allowedBehind_cons (fun _ => ?_) ?_) run
        · exact trivial
        · exact next (s.after (.number d)) [] _ h _
      case plain d => exact next (s.after (.plain d)) (d :: run) _ h
      case escaped d => exact next (s.after (.escaped d)) (d :: run) _ h

theorem allAllowed_tokens (source : String) : AllAllowed none [] (tokens source) :=
  allowed_assemble (s := .start) .nil source.toList [] none

end Source

/-! ## Parses of source -/

theorem AllAllowed.of_suffix {before : Option Token} {stack : List OpenBracket} {ts us : List Token}
    (h : AllAllowed before stack ts) (hs : us <:+ ts) : ∃ before stack, AllAllowed before stack us := by
  induction ts generalizing before stack with
  | nil =>
    obtain rfl := List.suffix_nil.1 hs
    exact ⟨before, stack, h⟩
  | cons t ts ih =>
    rcases List.suffix_cons_iff.1 hs with rfl | hs
    · exact ⟨before, stack, h⟩
    · exact ih h.2 hs

/-- no space is missing behind `if` or `while` -/
def ParseError.Spaced (e : ParseError) : Prop :=
  ∀ k found, k = .ifWord ∨ k = .whileWord → e ≠ .missing (.spaceAfter k) found

/-- in front of some of the tokens no error arises about a space behind `if` or `while`, if these tokens are allowed -/
theorem ParseError.Arises.spaced {ts : List Token} (h : AllAllowed none [] ts) {c : Cursor} {e : ParseError}
    (he : e.Arises (·.ahead <:+ ts) c) : e.Spaced := by
  rintro k found hk rfl
  obtain ⟨hfound, hspace, b, hb, hword, rfl⟩ := he
  obtain ⟨before, stack, hrest⟩ := h.of_suffix (b.ahead_eq hword ▸ hb)
  have hhead : b.next.ahead.head? = some .space := by
    rcases hk with rfl | rfl <;> exact hrest.1.2
  exact hspace (hfound.symm.trans hhead)

/-- no parse of allowed tokens misses a space behind `if` or `while` -/
theorem document_spaced {ts : List Token} (h : AllAllowed none [] ts) (limit : Nat) :
    Obeys ParseError.Spaced (fun _ => True) (.start ts) (document limit (.start ts)) := by
  have moves {c d : Cursor} (hc : c.ahead <:+ ts) (hr : c.Reaches d) : d.ahead <:+ ts := hr.suffix.trans hc
  refine document_obeys (·.ahead <:+ ts) moves (·.spaced h) (fun _ => trivial) (fun k c hc => ?_) (List.suffix_refl ts)
  exact construct_obeys (·.ahead <:+ ts) moves (·.spaced h) (fun _ => trivial) id (by simp [ParseError.Spaced]) _ k hc

/-- **Control tokens of source.** In the tokens of any source, control words, operators and spaces stand only where the
grammar of control brackets lets them: `if` and `while` behind a bracket that opens and in front of a space; operators,
`in`, `not in`, `then` and `do` in a condition that is not over; `else` once, behind `then`; a space behind a control
word or an operator; and each further control word where it may end. So no parse of a source, under any limit, misses
the space behind `if` or `while`. -/
theorem control_tokens_of_source (source : String) :
    AllAllowed none [] (Source.tokens source) ∧
      ∀ limit k found, k = .ifWord ∨ k = .whileWord →
        (build limit (Source.tokens source)).result ≠ .error (.missing (.spaceAfter k) found) := by
  have allowed := Source.allAllowed_tokens source
  refine ⟨allowed, fun limit k found hk he => ?_⟩
  exact (document_spaced allowed limit).error _ he k found hk rfl

end TextGrammar
