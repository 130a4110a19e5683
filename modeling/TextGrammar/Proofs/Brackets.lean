/-
Square brackets in source and in the parser.

The reading of source keeps a stack of the open square brackets, and makes spaces, operators and control words tokens
of their own only inside of one. The parser keeps no such stack. Yet at the top level it finds none of these tokens:
`Inside d ts` says that the control tokens of `ts` stand inside brackets if `d` brackets are open in front of it, a
closing bracket too many being passed over, and both sides keep it.

- Source: `inside_tokens`. What follows an item is inside with the stack that the item leaves (`inside_assemble`).
- Parser: `Derives.inside`. Whatever a form takes, as many brackets are open behind it as in front of it.

Results:
- `leftOver_of_block`: so a token that ends a block at the top level is a closing square bracket, a round bracket, a
  dot, a comma or a square bracket that opens at the very end;
- `stray_of_source`: these are the only tokens that a parse of source remarks on as stray, failed parses included.
-/
import TextGrammar.Proofs.Decision
import TextGrammar.Proofs.Items

namespace TextGrammar

open TextGrammar.Parser

/-! ## Control tokens inside brackets -/

/-- spaces, operators and control words -/
def Token.isControl : Token → Bool
  | .space | .operator _ | .keyword _ => true
  | _ => false

/-- how many square brackets are open behind a token, if that many are open in front of it -/
def Token.openAfter (d : Nat) : Token → Nat
  | .mark .openSquare => d + 1
  | .mark .closeSquare => d - 1
  | _ => d

/-- control tokens stand inside brackets, if that many are open in front -/
def Inside : Nat → List Token → Prop
  | _, [] => True
  | d, t :: ts => (t.isControl = true → 0 < d) ∧ Inside (t.openAfter d) ts

/-! ## Source -/

namespace Source

variable {d : Nat} {ts : List Token}

theorem inside_textToken (run : List Char) (h : Inside d ts) : Inside d (textToken run ++ ts) := by
  cases run with
  | nil => exact h
  | cons c run => exact ⟨fun hc => by simp [Token.isControl] at hc, h⟩

theorem inside_spaceToken (spaced : Bool) (hd : 0 < d) (h : Inside d ts) : Inside d (spaceToken spaced ++ ts) := by
  cases spaced with
  | false => exact h
  | true => exact ⟨fun _ => hd, h⟩

/-- the items that become control tokens -/
def Item.isControl : Item → Bool
  | .operator _ _ | .keyword _ _ => true
  | _ => false

/-- operators and control words are only known inside a bracket -/
theorem brackets_pos_of_itemAt {s : State} {c : Char} {cs : List Char} (h : (itemAt s c cs).isControl = true) :
    0 < s.brackets.length := by
  have hi := itemAt_stands s c cs
  cases hat : itemAt s c cs <;> rw [hat] at h hi
  case operator => exact brackets_pos_of_phase hi.1
  case keyword =>
    obtain ⟨-, ⟨p, hp, -⟩, -⟩ := hi
    exact brackets_pos_of_phase hp
  all_goals cases h

theorem length_brackets_after_mark (s : State) (m : Mark) (control : Bool) :
    (s.after (.mark m control)).brackets.length = (Token.mark m).openAfter s.brackets.length := by
  cases m <;> simp [State.after, Token.openAfter]

/-- one item of the reading: the control tokens that it becomes are inside, and so is what follows with the brackets
that it leaves open -/
theorem inside_assemble_cons {s : State} {i : Item} {rest : List Item} (run : List Char)
    (hi : i.isControl = true → 0 < s.brackets.length)
    (h : ∀ run, Inside (s.after i).brackets.length (assemble run rest)) :
    Inside s.brackets.length (assemble run (i :: rest)) := by
  cases i with
  | mark m control =>
    have hm := h []
    rw [length_brackets_after_mark] at hm
    exact inside_textToken run ⟨fun hc => by simp [Token.isControl] at hc, hm⟩
  | operator o spaced =>
    rw [assemble, List.append_assoc]
    exact inside_textToken run ⟨fun _ => hi rfl, inside_spaceToken spaced (hi rfl) (h [])⟩
  | keyword k spaced =>
    have hk := h []
    rw [length_brackets_after_keyword] at hk
    rw [assemble, List.append_assoc]
    exact inside_textToken run ⟨fun _ => hi rfl, inside_spaceToken spaced (hi rfl) hk⟩
  | number x => exact inside_textToken run ⟨fun hc => by simp [Token.isControl] at hc, h []⟩
  | plain c => exact h (c :: run)
  | escaped c => exact h (c :: run)

/-- the tokens of the source ahead are inside, with the brackets of the state open in front of them -/
theorem inside_assemble (s : State) (cs : List Char) (run : List Char) :
    Inside s.brackets.length (assemble run (itemsFrom 0 s cs)) := by
  induction s, cs using source_induction generalizing run with
  | nil s =>
    have h : Inside s.brackets.length (textToken run ++ []) := inside_textToken run trivial
    rwa [List.append_nil] at h
  | cons s c cs ih =>
    rw [itemsFrom_cons]
    exact inside_assemble_cons run brackets_pos_of_itemAt ih

theorem inside_tokens (source : String) : Inside 0 (tokens source) :=
  inside_assemble .start source.toList []

end Source

/-! ## Derivations -/

theorem Inside.afterSpace {d : Nat} {ts : List Token} (h : Inside d ts) : Inside d (afterSpace ts) := by
  unfold TextGrammar.afterSpace
  split
  · exact h.2
  · exact h

/-- a token that connects the sides of a condition is no bracket -/
theorem openAfter_of_connective {t : Token} {c : Connective} (h : Connective.ofKind? t.kind = some c) (d : Nat) :
    t.openAfter d = d := by
  cases t with
  | mark m => simp [Token.kind, Connective.ofKind?] at h
  | _ => rfl

/-- as many brackets are open behind what a form takes as in front of it -/
theorem Derives.inside {n : Nat} {f : Form} {ts rest : List Token} {y : f.Yield} (h : Derives n f ts y rest) {d : Nat}
    (hd : Inside d ts) : Inside d rest := by
  induction h generalizing d with
  | blockEnd | elementsEnd | headsEnd | loneHash | modifiersEnd | noParams | itemsEnd => exact hd
  | text | number | colon | doubleHash => exact hd.2
  | weight => exact hd.2.2
  | opened _ _ ih | plainCondition _ _ ih => exact ih hd
  | blockMore _ _ h₁ h₂ | list _ _ h₁ h₂ | headsMore _ _ h₁ h₂ | itemsOpened _ _ _ h₁ h₂ => exact h₂ (h₁ hd)
  | elementsMore _ _ _ h₁ h₂ | rule _ _ h₁ h₂ => exact h₂ (h₁ hd.2)
  | named _ ih => exact (ih hd.2).2
  | unnamed _ ih => exact (ih hd).2
  | modifiersMore _ _ h₁ h₂ | itemsEntry _ _ _ h₁ h₂ => exact h₂ (h₁ hd.2.2)
  | emptyParams _ ih | params _ _ ih => exact (ih hd.2).2
  | condition _ hc _ _ h₁ h₂ =>
    have hm := (h₁ hd).2
    rw [openAfter_of_connective hc] at hm
    exact h₂ hm.afterSpace
  | tag _ ih => exact (ih hd.2).2
  | ifThen _ _ _ h₁ h₂ | whileDo _ _ _ h₁ h₂ => exact (h₂ (h₁ hd.2.2.2).2.2).2
  | ifThenElse _ _ _ _ _ h₁ h₂ h₃ => exact (h₃ (h₂ (h₁ hd.2.2.2).2.2).2.2).2

/-- a block ends where no fragment starts -/
theorem Derives.starts_rest {n : Nat} {f : Form} {ts rest : List Token} {y : f.Yield} (h : Derives n f ts y rest)
    (hf : f = .block) : starts rest = false := by
  induction h with
  | blockEnd hs => exact hs
  | blockMore _ _ _ ih => exact ih hf
  | _ => cases hf

/-- a token that can be left over at the top level, in front of the given tokens: a mark that nothing starts with, or a
square bracket that opens at the end -/
def Token.LeftOver (t : Token) (rest : List Token) : Prop :=
  t ∈ [Mark.closeSquare, .openRound, .closeRound, .dot, .comma].map Token.mark ∨ t = .mark .openSquare ∧ rest = []

theorem leftOver_of_starts {t : Token} {ts : List Token} (h : starts (t :: ts) = false) (hc : t.isControl = false) :
    t.LeftOver ts := by
  cases t with
  | text s => simp [starts] at h
  | number x s => simp [starts] at h
  | space | operator o | keyword k => simp [Token.isControl] at hc
  | mark m =>
    cases m with
    | hash | colon => simp [starts, opens] at h
    | openSquare =>
      refine Or.inr ⟨rfl, ?_⟩
      cases ts with
      | nil => rfl
      | cons u us =>
        rcases u with _ | _ | _ | ⟨_ | _⟩ | _ | _ <;> simp [starts, opens] at h
    | closeSquare | openRound | closeRound | dot | comma => exact Or.inl (by simp)

/-- the token that ends a block at the top level, and what is behind it -/
theorem leftOver_of_block {n : Nat} {ts rest : List Token} {ns : List Node} {t : Token}
    (h : Derives n .block ts ns (t :: rest)) (hi : Inside 0 ts) : t.LeftOver rest ∧ Inside 0 rest := by
  obtain ⟨hc, hr⟩ := h.inside hi
  have hc : t.isControl = false := by
    cases ht : t.isControl with
    | false => rfl
    | true => exact absurd (hc ht) (Nat.lt_irrefl 0)
  have hl := leftOver_of_starts (h.starts_rest rfl) hc
  refine ⟨hl, ?_⟩
  rcases hl with hm | ⟨rfl, rfl⟩
  · simp only [List.map_cons, List.map_nil, List.mem_cons, List.not_mem_nil, or_false] at hm
    rcases hm with rfl | rfl | rfl | rfl | rfl <;> exact hr
  · exact hr

/-! ## Runs at the top level -/

namespace Parser

/-- what a step keeps at the cursors that it gives, and what it remarks, holds along a repetition of it, whether or not
that fails in the end -/
theorem remarks_many {α : Type} {p : Parser (Option α)} (hp : Advances p) {I : Cursor → Prop} {Q : Remark → Prop}
    (hq : ∀ c, I c → ∀ r ∈ (p c).remarks, Q r) (hs : ∀ c a d, I c → Gives p c (some a) d → I d) {c : Cursor}
    (hc : I c) : ∀ r ∈ (many p c).remarks, Q r := by
  refine remarks_many_induction hp (I := I) (M := fun _ rs => ∀ r ∈ rs, Q r) hq (fun c a d hc h => ?_) hc
  exact ⟨hs c a d hc h, fun rs hrs => List.forall_mem_append.2 ⟨hq c hc, hrs⟩⟩

end Parser

/-- a cursor between two passages over the tokens: the index is the place in them, and no bracket is open there -/
structure AtTop (tokens : List Token) (c : Cursor) : Prop where
  ahead : c.ahead = tokens.drop c.index
  inside : Inside 0 c.ahead

/-- a remark about a stray token names one that stands at its index and that can be left over there -/
def Remark.Faithful (tokens : List Token) : Remark → Prop
  | .stray t i => tokens[i]? = some t ∧ t.LeftOver (tokens.drop (i + 1))
  | _ => True

/-- the block of a passage, and the token behind it -/
theorem AtTop.behind_block {tokens : List Token} {limit n : Nat} {c e : Cursor} {ns : List Node} {t : Token}
    {ts : List Token} (h : AtTop tokens c) (hb : Gives (block (construct limit n)) c ns e) (he : e.ahead = t :: ts) :
    (Remark.stray t e.index).Faithful tokens ∧ AtTop tokens e.next := by
  have hd := block_sound (construct_sound limit n) hb
  rw [he] at hd
  have hdrop := ((orderly_block limit n).gives hb).ahead_eq_drop h.ahead
  obtain ⟨hl, hi⟩ := leftOver_of_block hd h.inside
  rw [he] at hdrop
  have hts : ts = tokens.drop (e.index + 1) := by rw [← List.tail_drop, ← hdrop, List.tail_cons]
  refine ⟨⟨?_, hts ▸ hl⟩, ?_, ?_⟩
  · rw [← List.head?_drop, ← hdrop, List.head?_cons]
  · rw [Cursor.next_ahead he]
    exact hts
  · rw [Cursor.next_ahead he]
    exact hi

/-- what a passage remarks on as stray could be left over -/
theorem passage_faithful {limit : Nat} {tokens : List Token} {c : Cursor} (h : AtTop tokens c) :
    ∀ r ∈ (passage limit c).remarks, r.Faithful tokens := by
  by_cases hc : c.ahead = []
  · simp [passage_nil hc]
  · have quiet : ∀ r ∈ (block (construct limit (limit - c.depth)) c).remarks, r.Faithful tokens := by
      intro r hr
      have := (orderly_block limit _ c).remarks r hr
      cases r with
      | stray t i => simp [Remark.isStray] at this
      | _ => trivial
    rw [passage_apply hc]
    rcases hb : block (construct limit (limit - c.depth)) c with ⟨err | ns, e, rs⟩ <;> rw [hb] at quiet
    · exact quiet
    · cases he : e.ahead with
      | nil => simpa only [he] using quiet
      | cons t ts =>
        simp only [he, List.forall_mem_append, List.forall_mem_singleton]
        exact ⟨quiet, (h.behind_block ⟨by rw [hb], by rw [hb]⟩ he).1⟩

/-- a passage that is followed by another one ends between passages -/
theorem passage_atTop {limit : Nat} {tokens : List Token} {c d : Cursor} {ns : List Node} (h : AtTop tokens c)
    (hg : Gives (passage limit) c (some ns) d) : AtTop tokens d := by
  obtain ⟨-, ms, e, hb, he⟩ := gives_passage_some.1 hg
  rcases he with ⟨he, -, rfl⟩ | ⟨t, he, -, rfl⟩
  · refine ⟨((orderly_block limit _).gives hb).ahead_eq_drop h.ahead, ?_⟩
    rw [he]
    trivial
  · exact (h.behind_block hb (e.ahead_eq he)).2

/-- **What source leaves over.** Every token that a parse of source remarks on as stray, also where the parse fails
later, is the one at its index: a closing square bracket, a round bracket, a dot or a comma, or a square bracket that
opens at the very end. So it is never a space, an operator or a control word. -/
theorem stray_of_source {limit : Nat} {source : String} {t : Token} {i : Nat}
    (h : Notice.debug (.stray t i) ∈ (build limit (Source.tokens source)).log) :
    (Source.tokens source)[i]? = some t ∧ t.isControl = false ∧
      (t ∈ [Mark.closeSquare, .openRound, .closeRound, .dot, .comma].map Token.mark ∨
        t = .mark .openSquare ∧ i + 1 = (Source.tokens source).length) := by
  have hin := Source.inside_tokens source
  generalize Source.tokens source = ts at h hin ⊢
  have hr : Remark.stray t i ∈ (document limit (.start ts)).remarks := by
    simp only [build, Report.ofRun, List.mem_append, List.mem_map] at h
    rcases h with ⟨r, hr, he⟩ | h
    · obtain rfl := Notice.debug.inj he
      exact hr
    · split at h <;> simp at h
  have hm : Remark.stray t i ∈ (many (passage limit) (.start ts)).remarks := by
    rw [document, bind_pure_comp, map_apply] at hr
    exact hr
  obtain ⟨ht, hl⟩ := remarks_many (advances_passage limit) (fun c hc => passage_faithful hc)
    (fun c ns d hc hg => passage_atTop hc hg) (c := .start ts) ⟨rfl, hin⟩ _ hm
  obtain ⟨hi, -⟩ := List.getElem?_eq_some_iff.1 ht
  rcases hl with hl | ⟨rfl, hl⟩
  · refine ⟨ht, ?_, Or.inl hl⟩
    obtain ⟨m, -, rfl⟩ := List.mem_map.1 hl
    rfl
  · refine ⟨ht, rfl, Or.inr ⟨rfl, ?_⟩⟩
    exact Nat.le_antisymm hi (List.drop_eq_nil_iff.1 hl)

theorem stray_of_source_failing :
    Notice.debug (.stray (.mark .closeSquare) 1) ∈ (build 1 (Source.tokens "a]#b")).log ∧
      (Source.tokens "a]#b")[1]? = some (.mark .closeSquare) ∧ (Token.mark .closeSquare).isControl = false ∧
      (Token.mark .closeSquare ∈ [Mark.closeSquare, .openRound, .closeRound, .dot, .comma].map Token.mark ∨
        Token.mark .closeSquare = .mark .openSquare ∧ 1 + 1 = (Source.tokens "a]#b").length) := by
  have h : Notice.debug (.stray (.mark .closeSquare) 1) ∈ (build 1 (Source.tokens "a]#b")).log := by decide
  exact ⟨h, stray_of_source h⟩

end TextGrammar
