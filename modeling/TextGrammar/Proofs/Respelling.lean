/-
Source that is printed from its tokens, and read again.

`print` gives every character of text a backslash, unless it is a line feed, and spells everything else as it was. A
line feed has to stay as it is: behind a control word it counts as the end of the source if it is the last character,
and a backslash does not. Each item is then read as the same one, or as the same character of text (`Item.printed`),
although what comes behind it is spelled differently. What an item has to know of the text behind it is little:

- `head_reprint`: printed source begins with a backslash, a line feed, or the character that the source began with, and
  then not with a letter of text and not with a digit of text;
- so a space comes next, a control word may end, a control bracket opens and a number ends where they did before
  (`spaceNext_spaced`, `endsWord_spaced`, `opensControl_reprint`, `complete_reprint`);
- `itemsFrom_written`: so an item is read again, and `itemsFrom_reprint`: so are all, by induction on the source ahead.

Result:
- `tokens_print`: the tokens of printed source are those that it was printed from.
-/
import TextGrammar.Proofs.Spelling

namespace TextGrammar.Source

open Number

/-- a character of text as it is printed -/
def printChar (c : Char) : List Char :=
  if c = '\n' then [c] else ['\\', c]

/-- tokens as source again -/
def print (ts : List Token) : String :=
  String.ofList (ts.flatMap (Token.written printChar))

/-- an item as it is read from print -/
def Item.printed : Item → Item
  | .plain c | .escaped c => if c = '\n' then .plain c else .escaped c
  | i => i

/-- the source ahead, read and printed -/
def reprint (s : State) (cs : List Char) : List Char :=
  (itemsFrom 0 s cs).flatMap (Item.written printChar)

variable {s : State} {cs : List Char} {c : Char}

theorem reprint_cons (s : State) (c : Char) (cs : List Char) :
    reprint s (c :: cs) = (itemAt s c cs).written printChar ++
      reprint (s.after (itemAt s c cs)) ((c :: cs).drop (itemAt s c cs).size) := by
  rw [reprint, itemsFrom_cons, List.flatMap_cons, reprint]

theorem reprint_mark (s : State) (m : Mark) (cs : List Char) :
    reprint s (m.char :: cs) = m.char :: reprint (s.after (.mark m (opensControl m cs))) cs := by
  rw [reprint_cons, itemAt_mark]
  rfl

theorem reprint_lineFeed (s : State) (cs : List Char) :
    reprint s ('\n' :: cs) = '\n' :: reprint ⟨false, s.brackets⟩ cs := by
  rw [reprint_cons, itemAt_lineFeed]
  rfl

/-! ## What printed source begins with -/

/-- a character with which printed source begins as the source did -/
structure Shared (s : State) (cs : List Char) (c : Char) : Prop where
  head : cs.head? = some c
  number : c.isDigit = true → ∃ d, Decimal.at? cs = some d
  word : s.phase = none → c ≠ 'i' ∧ c ≠ 'w'

theorem shared_mark {m : Mark} (h : cs.head? = some m.char) : Shared s cs m.char where
  head := h
  number hdigit := by cases m <;> cases hdigit
  word _ := by cases m <;> decide

/-- an operator or a control word, which stand in control brackets only -/
theorem shared_word {us : List Char} (hphase : s.phase ≠ none) (h : us <+: cs) (hc : us.head? = some c)
    (hletter : c.isDigit = false) : Shared s cs c where
  head := by
    obtain ⟨rest, rfl⟩ := h
    rw [List.head?_append, hc, Option.some_or]
  number hdigit := by
    rw [hletter] at hdigit
    cases hdigit
  word hnone := absurd hnone hphase

theorem shared_number {d : Decimal} (h : Decimal.at? cs = some d) (hc : d.spelling.head? = some c) :
    Shared s cs c := by
  have hhead : cs.head? = some c := by
    obtain ⟨⟨rest, rfl⟩, -⟩ := Decimal.spelling_of_at? h
    rw [List.head?_append, hc, Option.some_or]
  obtain ⟨rest, rfl⟩ := List.head?_eq_some_iff.1 hhead
  have hdigit : c.isDigit = true := Decimal.isDigit_of_at?_cons h
  refine ⟨hhead, fun _ => ⟨d, h⟩, fun _ => ?_⟩
  constructor <;> rintro rfl <;> cases hdigit

theorem head_printChar {e : Char} {rest : List Char} (h : (printChar e ++ rest).head? = some c) :
    c = '\\' ∨ c = '\n' := by
  unfold printChar at h
  split at h
  · exact Or.inr ((Option.some.inj h).symm.trans ‹_›)
  · exact Or.inl (Option.some.inj h).symm

/-- text is printed behind a backslash, or is a line feed, and every other item is printed as it stood -/
theorem head_reprint (h : (reprint s cs).head? = some c) : c = '\\' ∨ c = '\n' ∨ Shared s cs c := by
  cases cs with
  | nil => cases h
  | cons d ds =>
    rw [reprint_cons] at h
    have stands := itemAt_stands s d ds
    cases hi : itemAt s d ds <;> rw [hi] at h stands
    case plain e | escaped e => exact (head_printChar h).imp_right Or.inl
    case mark m control =>
      obtain rfl : m.char = c := Option.some.inj h
      exact Or.inr (Or.inr (shared_mark stands.1))
    case operator o spaced =>
      obtain ⟨hphase, ho, -⟩ := stands
      refine Or.inr (Or.inr (shared_word ?_ ho ?_ ?_))
      · rw [hphase]
        exact Option.some_ne_none _
      · cases o <;> exact h
      · cases o <;> cases h <;> rfl
    case keyword k spaced =>
      obtain ⟨-, ⟨p, hphase, -⟩, hk, -⟩ := stands
      refine Or.inr (Or.inr (shared_word ?_ hk ?_ ?_))
      · rw [hphase]
        exact Option.some_ne_none _
      · cases k <;> exact h
      · cases k <;> cases h <;> rfl
    case number e =>
      obtain ⟨x, xs, hspelling⟩ := List.exists_cons_of_length_pos (Decimal.spelling_of_at? stands.2).2
      refine Or.inr (Or.inr (shared_number stands.2 ?_))
      rw [Item.written, hspelling] at h
      rw [hspelling]
      exact h

/-! ## What an item has to know of the text behind it -/

theorem spaceNext_iff : spaceNext cs = true ↔ cs.head? = some ' ' := by
  constructor
  · intro h
    unfold spaceNext at h
    split at h
    · rfl
    · cases h
  · intro h
    obtain ⟨rest, rfl⟩ := List.head?_eq_some_iff.1 h
    rfl

/-- print begins with no space of its own -/
theorem spaceNext_of_reprint (h : spaceNext (reprint s cs) = true) : spaceNext cs = true := by
  rcases head_reprint (spaceNext_iff.1 h) with hc | hc | hc
  · cases hc
  · cases hc
  · exact spaceNext_iff.2 hc.head

/-- where a control word may end, it may end in print -/
theorem endsWord_reprint (h : endsWord cs = true) (hspace : spaceNext cs = false) :
    endsWord (reprint s cs) = true := by
  unfold endsWord at h
  split at h
  · rfl
  · cases hspace
  · exact congrArg endsWord (reprint_mark s .closeSquare _)
  · rw [reprint_lineFeed]
    rfl
  · cases h

/-- a mark opens a control bracket in print only if it opened one -/
theorem opensControl_of_reprint {m : Mark}
    (h : opensControl m (reprint (s.after (.mark m false)) cs) = true) : opensControl m cs = true := by
  obtain ⟨rfl, k, rest, hk, hcs⟩ := exists_word_of_opensControl h
  obtain ⟨c, hhead, hword⟩ : ∃ c, (k.chars ++ ' ' :: rest).head? = some c ∧ (c = 'i' ∨ c = 'w') := by
    rcases hk with rfl | rfl
    · exact ⟨'i', rfl, Or.inl rfl⟩
    · exact ⟨'w', rfl, Or.inr rfl⟩
  rcases head_reprint ((congrArg List.head? hcs).trans hhead) with rfl | rfl | hshared
  · cases hword <;> contradiction
  · cases hword <;> contradiction
  · obtain ⟨hi, hw⟩ := hshared.word rfl
    exact absurd hword (not_or.2 ⟨hi, hw⟩)

theorem opensControl_reprint (s : State) (m : Mark) (cs : List Char) :
    opensControl m (reprint (s.after (.mark m (opensControl m cs))) cs) = opensControl m cs := by
  cases h : opensControl m cs with
  | true =>
    obtain ⟨rfl, k, rest, hk, rfl⟩ := exists_word_of_opensControl h
    have hword : reprint (s.after (.mark .openSquare true)) (k.chars ++ ' ' :: rest) =
        k.chars ++ ' ' :: reprint ⟨true, some .condition :: s.brackets⟩ rest := by
      rw [reprint, State.after, if_pos rfl, itemsFrom_control hk, List.flatMap_cons, Item.written, reprint,
        List.append_assoc]
      rfl
    rw [hword]
    rcases hk with rfl | rfl <;> rfl
  | false =>
    refine Bool.eq_false_iff.2 fun hprint => Bool.eq_false_iff.1 h ?_
    exact opensControl_of_reprint hprint

section

variable (s : State)

/-- a space that an operator or a control word takes comes next in print, and no other one -/
theorem spaceNext_spaced (cs : List Char) :
    spaceNext (spaceChars (spaceNext cs) ++ reprint s (cs.drop (spaceNext cs).toNat)) = spaceNext cs := by
  cases h : spaceNext cs with
  | true => rfl
  | false =>
    refine Bool.eq_false_iff.2 fun hprint => Bool.eq_false_iff.1 h ?_
    exact spaceNext_of_reprint hprint

theorem endsWord_spaced (h : endsWord cs = true) :
    endsWord (spaceChars (spaceNext cs) ++ reprint s (cs.drop (spaceNext cs).toNat)) = true := by
  cases hspace : spaceNext cs with
  | true => rfl
  | false => exact endsWord_reprint h hspace

end

/-- where a number may end, it may end in print -/
theorem endsBefore_reprint (h : Decimal.endsBefore cs = true) : Decimal.endsBefore (reprint s cs) = true := by
  cases hprint : reprint s cs with
  | nil => rfl
  | cons c rest =>
    rcases head_reprint (congrArg List.head? hprint) with rfl | rfl | hshared
    · rfl
    · rfl
    · obtain ⟨behind, rfl⟩ := List.head?_eq_some_iff.1 hshared.head
      exact h

/-- print does not continue a number by a fraction -/
theorem fractionAt_reprint (h : Decimal.fractionAt cs = []) : Decimal.fractionAt (reprint s cs) = [] := by
  refine Decidable.byContradiction fun hfraction => ?_
  obtain ⟨rest, hprint, hdigits, -⟩ := Decimal.exists_rest_of_fractionAt hfraction
  rcases head_reprint (congrArg List.head? hprint) with hc | hc | hpoint
  · cases hc
  · cases hc
  obtain ⟨behind, rfl⟩ := List.head?_eq_some_iff.1 hpoint.head
  obtain ⟨c, digits, hcons⟩ := List.exists_cons_of_ne_nil hfraction
  have hbehind : reprint (s.after (.mark .dot (opensControl .dot behind))) behind = c :: (digits ++ rest) := by
    rw [hcons] at hprint
    exact (List.cons.inj ((reprint_mark s .dot behind).symm.trans hprint)).2
  have hc : c.isDigit = true := hdigits c (hcons ▸ List.mem_cons_self)
  -- the digit was printed for a number that stood behind the point, and that would have been the fraction
  rcases head_reprint (congrArg List.head? hbehind) with rfl | rfl | hdigit
  · cases hc
  · cases hc
  · obtain ⟨d, hd⟩ := hdigit.number hc
    exact Decimal.fractionAt_ne_nil_of_at? hd h

/-- a number that the source does not continue is not continued by its print -/
theorem complete_reprint {d : Decimal} (h : d.Complete cs) (s : State) : d.Complete (reprint s cs) where
  whole_ne_nil := h.whole_ne_nil
  whole := h.whole
  fraction := h.fraction
  ends := endsBefore_reprint h.ends
  longest hnil := fractionAt_reprint (h.longest hnil)

/-! ## Reading print -/

/-- a character of text is read from print as it was, with a backslash unless it is a line feed -/
theorem itemsFrom_printChar (s : State) (c : Char) (rest : List Char) :
    itemsFrom 0 s (printChar c ++ rest) =
      (Item.plain c).printed :: itemsFrom 0 ⟨c = ' ', s.brackets⟩ rest := by
  by_cases hc : c = '\n'
  · subst hc
    show itemsFrom 0 s ('\n' :: rest) = _
    rw [itemsFrom_cons, itemAt_lineFeed]
    rfl
  · rw [printChar, Item.printed, if_neg hc, if_neg hc]
    rfl

theorem length_spaced (us : List Char) (spaced : Bool) :
    us.length + spaced.toNat = (us ++ spaceChars spaced).length := by
  cases spaced <;> simp [spaceChars]

/-- an item is read from print as it was, or as the same character of text -/
theorem itemsFrom_written {i : Item} (h : i.Stands s cs) :
    itemsFrom 0 s (i.written printChar ++ reprint (s.after i) (cs.drop i.size)) =
      i.printed :: itemsFrom 0 (s.after i) (reprint (s.after i) (cs.drop i.size)) := by
  cases i with
  | mark m control =>
    obtain ⟨hc, rfl⟩ := h
    obtain ⟨rest, rfl⟩ := List.head?_eq_some_iff.1 hc
    have stands : (Item.mark m (opensControl m rest)).Stands s
        ([m.char] ++ reprint (s.after (.mark m (opensControl m rest))) rest) :=
      ⟨rfl, (opensControl_reprint s m rest).symm⟩
    exact itemsFrom_of_stands stands (by simp [Item.printed]) rfl
  | operator o spaced =>
    obtain ⟨hphase, ⟨rest, rfl⟩, rfl⟩ := h
    rw [Item.size, ← List.drop_drop, List.drop_left]
    refine itemsFrom_of_stands ⟨hphase, ?_, ?_⟩ (by simp [Item.printed]) ?_
    · rw [Item.written, List.append_assoc]
      exact List.prefix_append _ _
    · rw [Item.written, List.append_assoc, List.drop_left, spaceNext_spaced]
    · exact length_spaced o.chars _
  | keyword k spaced =>
    obtain ⟨hstart, hphase, ⟨rest, rfl⟩, hends, rfl⟩ := h
    rw [List.drop_left] at hends
    rw [Item.size, ← List.drop_drop, List.drop_left]
    refine itemsFrom_of_stands ⟨hstart, hphase, ?_, ?_, ?_⟩ (by simp [Item.printed]) ?_
    · rw [Item.written, List.append_assoc]
      exact List.prefix_append _ _
    · rw [Item.written, List.append_assoc, List.drop_left]
      exact endsWord_spaced _ hends
    · rw [Item.written, List.append_assoc, List.drop_left, spaceNext_spaced]
    · exact length_spaced k.chars _
  | number d =>
    obtain ⟨rest, rfl, hcomplete⟩ := Decimal.exists_complete_of_at? h.2
    rw [Item.size, List.drop_left]
    have hread := Decimal.at?_of_complete (complete_reprint hcomplete (s.after (.number d)))
    exact itemsFrom_of_stands ⟨h.1, hread⟩ (by simp [Item.printed]) rfl
  | plain c | escaped c => exact itemsFrom_printChar s c _

/-- source that is printed item by item is read item by item -/
theorem itemsFrom_reprint (s : State) (cs : List Char) :
    itemsFrom 0 s (reprint s cs) = (itemsFrom 0 s cs).map Item.printed := by
  induction s, cs using source_induction with
  | nil s => rfl
  | cons s c cs ih => rw [reprint_cons, itemsFrom_written (itemAt_stands s c cs), ih, itemsFrom_cons, List.map_cons]

/-- characters of text are the same token, whether a backslash stands in front of them or not -/
theorem assemble_printed (run : List Char) (is : List Item) :
    assemble run (is.map Item.printed) = assemble run is := by
  induction is generalizing run with
  | nil => rfl
  | cons i is ih =>
    have text (c : Char) : assemble run ((Item.plain c).printed :: is.map Item.printed) = assemble (c :: run) is := by
      rw [Item.printed]
      split <;> exact ih (c :: run)
    cases i with
    | plain c | escaped c => exact text c
    | _ => simp only [List.map_cons, Item.printed, assemble, ih]

/-- **Print is read as what it was printed from.** For every source: its tokens, written with a backslash in front of
every character of text but line feeds, and otherwise as they were spelled, are a source with the same tokens, numbers
and their spelling among them. -/
theorem tokens_print (source : String) : tokens (print (tokens source)) = tokens source := by
  have hprint : (print (tokens source)).toList = reprint .start source.toList := by
    rw [print, String.toList_ofList, tokens, written_assemble, items, reprint]
    rfl
  rw [tokens, items, hprint, itemsFrom_reprint, assemble_printed]
  rfl

/-- behind `then` the line feed is still the last character, and so `then` is still a word -/
example : print (tokens "3.50[if a then\n") = "3.50[if \\a\\ then\n" := by rfl

end TextGrammar.Source
