/-
Source in front of a separator and behind it.

A separator is a mark that neither opens a square bracket nor may be the point of a number. Where no bracket is open,
the reading begins anew behind one. That it reads the same in front of one needs a word on every item that looks ahead:
- a control bracket, an operator and a control word are spelled without a separator, and a separator is no space
  (`prefix_append_cons`, `spaceNext_append_cons`);
- a number ends in front of a separator as it does at the end (`Decimal.at?_append`);
- a control word may end at the end of the source and not in front of most separators. But then its bracket is still
  open at the end, so no such word stands in a source that leaves no bracket open (`not_atEnd_of_keyword`).

`itemAt_append_separator` puts these together for one item and `itemsFrom_append_separator` for all, by induction on the
source ahead.

Result:
- `tokens_append_separator`: the tokens of a source that leaves no bracket open, a separator and more source are the
  tokens of the two, with the separator between them.
-/
import TextGrammar.Proofs.Respelling

namespace TextGrammar.Source

open Number

/-! ## What a source leaves open -/

/-- the state behind all of the source ahead -/
def State.behind (s : State) (cs : List Char) : State :=
  (itemsFrom 0 s cs).foldl State.after s

/-- does the text end in a backslash with no character left for it? From the left, each backslash takes the character
behind it. -/
def endsEscape : List Char → Bool
  | [] => false
  | ['\\'] => true
  | '\\' :: _ :: cs => endsEscape cs
  | _ :: cs => endsEscape cs

/-- the marks behind which the reading can begin anew -/
def separators : List Mark := [.hash, .closeSquare, .openRound, .closeRound, .colon, .comma]

section

variable {s : State} {c : Char} {cs : List Char}

@[simp] theorem behind_nil (s : State) : s.behind [] = s := rfl

theorem behind_cons (s : State) (c : Char) (cs : List Char) :
    s.behind (c :: cs) = (s.after (itemAt s c cs)).behind ((c :: cs).drop (itemAt s c cs).size) := by
  rw [State.behind, itemsFrom_cons, List.foldl_cons, State.behind]

theorem brackets_behind_lineFeed (s : State) : (s.behind ['\n']).brackets = s.brackets := by
  rw [behind_cons, itemAt_lineFeed]
  rfl

theorem endsEscape_cons (hc : c ≠ '\\') (cs : List Char) : endsEscape (c :: cs) = endsEscape cs := by
  rw [endsEscape]
  · rintro rfl
    exact absurd rfl hc
  · rintro _ _ rfl
    exact absurd rfl hc

theorem endsEscape_append {us : List Char} (h : '\\' ∉ us) (cs : List Char) :
    endsEscape (us ++ cs) = endsEscape cs := by
  induction us with
  | nil => rfl
  | cons u us ih =>
    rw [List.mem_cons, not_or] at h
    rw [List.cons_append, endsEscape_cons (Ne.symm h.1), ih h.2]

/-- a backslash that is left over at the end is left over behind every item -/
theorem endsEscape_drop_itemAt (s : State) (h : endsEscape (c :: cs) = false) :
    endsEscape ((c :: cs).drop (itemAt s c cs).size) = false := by
  by_cases hc : c = '\\'
  · subst hc
    cases cs with
    | nil => cases h
    | cons d cs => exact h
  · have stands := itemAt_stands s c cs
    generalize itemAt s c cs = i at stands
    have hi : ∀ d, i ≠ .escaped d := by
      rintro d rfl
      exact hc (eq_backslash_of_stands stands)
    rwa [← written_append_drop stands hi, endsEscape_append (backslash_notMem_written stands hc)] at h

end

/-! ## Looking ahead over a separator -/

section

variable {cs : List Char} (rest : List Char)

/-- what is spelled without a character does not reach over it -/
theorem prefix_append_cons {c : Char} {us : List Char} (hc : c ∉ us) :
    us <+: cs ++ c :: rest ↔ us <+: cs := by
  refine ⟨fun h => ?_, fun h => h.trans (List.prefix_append _ _)⟩
  rcases List.prefix_or_prefix_of_prefix h (List.prefix_append cs (c :: rest)) with h' | ⟨ws, rfl⟩
  · exact h'
  · cases ws with
    | nil => simp
    | cons w ws =>
      obtain ⟨rfl, -⟩ := List.cons_prefix_cons.1 ((List.prefix_append_right_inj cs).1 h)
      exact absurd (List.mem_append_right _ List.mem_cons_self) hc

theorem opensControl_append_cons {c : Char} (hc : ∀ k : Keyword, c ∉ k.chars ++ [' ']) (n : Mark) :
    opensControl n (cs ++ c :: rest) = opensControl n cs := by
  have same (k : Keyword) : (k.chars ++ [' ']).isPrefixOf (cs ++ c :: rest) = (k.chars ++ [' ']).isPrefixOf cs := by
    rw [Bool.eq_iff_iff, List.isPrefixOf_iff_prefix, List.isPrefixOf_iff_prefix, prefix_append_cons rest (hc k)]
  simp only [opensControl, same]

theorem spaceNext_append_cons {c : Char} (hc : c ≠ ' ') : spaceNext (cs ++ c :: rest) = spaceNext cs := by
  rw [Bool.eq_iff_iff, spaceNext_iff, spaceNext_iff]
  cases cs <;> simp [hc]

/-- a control word that is not at the end of the source ends in front of a space or a closing square bracket -/
theorem endsWord_iff : endsWord cs = true ↔ cs = [] ∨ cs = ['\n'] ∨ cs.head? = some ' ' ∨ cs.head? = some ']' := by
  rw [List.head?_eq_some_iff, List.head?_eq_some_iff]
  unfold endsWord
  split <;> simp_all

/-- where a control word may end in front of more source, it may end in the source without it -/
theorem endsWord_of_append_cons {c : Char} (h : endsWord (cs ++ c :: rest) = true) : endsWord cs = true := by
  cases cs with
  | nil => rfl
  | cons d ds =>
    have hd : d = ' ' ∨ d = ']' := by simpa [endsWord_iff] using h
    simp [endsWord_iff, hd]

theorem endsWord_append (h : endsWord cs = true) (hend : cs ≠ [] ∧ cs ≠ ['\n']) :
    endsWord (cs ++ rest) = true := by
  obtain ⟨d, ds, rfl⟩ := List.exists_cons_of_ne_nil hend.1
  have hd : d = ' ' ∨ d = ']' := by simpa [endsWord_iff, hend] using h
  simp [endsWord_iff, hd]

end

/-! ## Items in front of a separator -/

section

variable {s : State} {m : Mark} {c : Char} {cs : List Char}

theorem char_notMem_operator (m : Mark) (o : Operator) : m.char ∉ o.chars := by
  cases m <;> cases o <;> decide

theorem char_notMem_keyword (m : Mark) (k : Keyword) : m.char ∉ k.chars ++ [' '] := by
  cases m <;> cases k <;> decide

theorem isWord_char (m : Mark) : Text.isWord m.char = false := by
  cases m <;> rfl

theorem char_ne_space (m : Mark) : m.char ≠ ' ' := by
  cases m <;> decide

/-- a separator is not the point of a number -/
theorem char_ne_point (hm : m ∈ separators) : m.char ≠ '.' := by
  revert hm
  cases m <;> decide

/-- the characters behind a word, with a separator and more source behind them -/
theorem drop_append_behind {us : List Char} (h : us <+: cs) (more : List Char) :
    (cs ++ more).drop us.length = cs.drop us.length ++ more :=
  List.drop_append_of_le_length h.length_le

/-- a control word that ends at the end of the source, or in front of a line feed there, stands in a bracket that is
still open -/
theorem not_atEnd_of_keyword {k : Keyword} {spaced : Bool} (h : itemAt s c cs = .keyword k spaced)
    (hopen : (s.behind (c :: cs)).brackets = []) :
    (c :: cs).drop k.chars.length ≠ [] ∧ (c :: cs).drop k.chars.length ≠ ['\n'] := by
  obtain ⟨-, ⟨p, hp, -⟩, -, -, hspaced⟩ : (Item.keyword k spaced).Stands s (c :: cs) := h ▸ itemAt_stands s c cs
  have hpos : 0 < (s.after (.keyword k spaced)).brackets.length := by
    rw [length_brackets_after_keyword]
    exact brackets_pos_of_phase hp
  rw [behind_cons, h, Item.size, ← List.drop_drop] at hopen
  constructor <;> intro hend <;> rw [hend] at hspaced hopen <;> subst hspaced
  · rw [List.drop_nil, behind_nil] at hopen
    exact absurd hpos (by simp [hopen])
  · have hopen : ((s.after (.keyword k false)).behind ['\n']).brackets = [] := hopen
    rw [brackets_behind_lineFeed] at hopen
    exact absurd hpos (by simpa [spaceNext] using hopen)

/-- an item stands in front of a separator as it stands at the end, but a control word may end at the end -/
theorem stands_append_separator {i : Item} (hm : m ∈ separators) (rest : List Char) (h : i.Stands s cs)
    (hword : ∀ k spaced, i = .keyword k spaced → cs.drop k.chars.length ≠ [] ∧ cs.drop k.chars.length ≠ ['\n']) :
    i.Stands s (cs ++ m.char :: rest) := by
  cases i with
  | mark n control =>
    obtain ⟨hc, rfl⟩ := h
    obtain ⟨tail, rfl⟩ := List.head?_eq_some_iff.1 hc
    exact ⟨rfl, (opensControl_append_cons rest (char_notMem_keyword m) n).symm⟩
  | operator o spaced =>
    obtain ⟨hp, ho, rfl⟩ := h
    refine ⟨hp, (prefix_append_cons rest (char_notMem_operator m o)).2 ho, ?_⟩
    rw [drop_append_behind ho, spaceNext_append_cons rest (char_ne_space m)]
  | keyword k spaced =>
    obtain ⟨hs, hp, hk, he, rfl⟩ := h
    have hend := hword k _ rfl
    refine ⟨hs, hp, hk.trans (List.prefix_append _ _), ?_, ?_⟩
    · rw [drop_append_behind hk]
      exact endsWord_append _ he hend
    · rw [drop_append_behind hk, spaceNext_append_cons rest (char_ne_space m)]
  | number d => exact ⟨h.1, (Decimal.at?_append (isWord_char m) (char_ne_point hm) cs rest).trans h.2⟩
  | plain d =>
    obtain ⟨tail, rfl⟩ := List.head?_eq_some_iff.1 h
    rfl
  | escaped d => exact h.trans (List.prefix_append _ _)

/-- what stands in front of a separator stands there as well if the source ends there -/
theorem stands_of_append_separator {i : Item} (hm : m ∈ separators) {rest : List Char}
    (h : i.Stands s (c :: cs ++ m.char :: rest)) (hescape : endsEscape (c :: cs) = false) : i.Stands s (c :: cs) := by
  cases i with
  | mark n control =>
    obtain ⟨hc, rfl⟩ := h
    exact ⟨hc, opensControl_append_cons rest (char_notMem_keyword m) n⟩
  | operator o spaced =>
    obtain ⟨hp, ho, rfl⟩ := h
    have ho := (prefix_append_cons rest (char_notMem_operator m o)).1 ho
    refine ⟨hp, ho, ?_⟩
    rw [drop_append_behind ho, spaceNext_append_cons rest (char_ne_space m)]
  | keyword k spaced =>
    obtain ⟨hs, hp, hk, he, rfl⟩ := h
    have hk := (prefix_append_cons rest fun hc => char_notMem_keyword m k (List.mem_append_left _ hc)).1 hk
    rw [drop_append_behind hk] at he
    refine ⟨hs, hp, hk, endsWord_of_append_cons rest he, ?_⟩
    rw [drop_append_behind hk, spaceNext_append_cons rest (char_ne_space m)]
  | number d => exact ⟨h.1, (Decimal.at?_append (isWord_char m) (char_ne_point hm) (c :: cs) rest).symm.trans h.2⟩
  | plain d => exact h
  | escaped d =>
    obtain rfl : c = '\\' := eq_backslash_of_stands h
    cases cs with
    | nil => cases hescape
    | cons e cs =>
      obtain ⟨behind, h⟩ := h
      cases h
      exact ⟨cs, rfl⟩

/-- an item is read in front of a separator as it is at the end, if no bracket and no backslash is left over there -/
theorem itemAt_append_separator (hm : m ∈ separators) (rest : List Char) (hopen : (s.behind (c :: cs)).brackets = [])
    (hescape : endsEscape (c :: cs) = false) : itemAt s c (cs ++ m.char :: rest) = itemAt s c cs := by
  have short := itemAt_stands s c cs
  have long := itemAt_stands s c (cs ++ m.char :: rest)
  -- what is no plain character in one of the two readings stands in the other, and so it is read there
  by_cases hplain : ∃ d, itemAt s c cs = .plain d
  · by_cases hplain' : ∃ d, itemAt s c (cs ++ m.char :: rest) = .plain d
    · obtain ⟨d, hd⟩ := hplain
      obtain ⟨d', hd'⟩ := hplain'
      rw [hd] at short
      rw [hd'] at long
      obtain rfl : c = d := Option.some.inj short
      obtain rfl : c = d' := Option.some.inj long
      rw [hd, hd']
    · exact (itemAt_eq_of_stands (stands_of_append_separator hm long hescape) fun d hd => hplain' ⟨d, hd⟩).symm
  · refine itemAt_eq_of_stands (stands_append_separator hm rest short fun k spaced hk => ?_) fun d hd => hplain ⟨d, hd⟩
    exact not_atEnd_of_keyword hk hopen

/-- an item covers no more than there is -/
theorem size_le_of_stands {i : Item} (h : i.Stands s cs) : i.size ≤ cs.length := by
  have spaced_le (us : List Char) : (spaceNext us).toNat ≤ us.length := by
    cases us with
    | nil => exact Nat.zero_le _
    | cons u us => exact Nat.le_trans (Bool.toNat_le _) (Nat.le_add_left 1 _)
  cases i with
  | mark n control =>
    obtain ⟨tail, rfl⟩ := List.head?_eq_some_iff.1 h.1
    exact Nat.le_add_left 1 _
  | operator o spaced =>
    obtain ⟨-, ⟨tail, rfl⟩, rfl⟩ := h
    rw [Item.size, List.drop_left, List.length_append]
    exact Nat.add_le_add_left (spaced_le tail) _
  | keyword k spaced =>
    obtain ⟨-, -, ⟨tail, rfl⟩, -, rfl⟩ := h
    rw [Item.size, List.drop_left, List.length_append]
    exact Nat.add_le_add_left (spaced_le tail) _
  | number d => exact (Decimal.spelling_of_at? h.2).1.length_le
  | plain d =>
    obtain ⟨tail, rfl⟩ := List.head?_eq_some_iff.1 h
    exact Nat.le_add_left 1 _
  | escaped d => exact List.IsPrefix.length_le h

/-- the reading of a separator where no bracket is open -/
theorem itemsFrom_separator (hm : m ∈ separators) (h : s.brackets = []) (rest : List Char) :
    itemsFrom 0 s (m.char :: rest) = .mark m false :: itemsFrom 0 .start rest := by
  have hne : m ≠ .openSquare := by
    rintro rfl
    exact absurd hm (by decide)
  have hcontrol : opensControl m rest = false := by simp [opensControl, hne]
  have hafter : s.after (.mark m false) = .start := by
    cases m with
    | openSquare => exact absurd rfl hne
    | closeSquare => exact congrArg (fun bs => State.mk true bs.tail) h
    | _ => exact congrArg (State.mk true) h
  rw [itemsFrom_cons, itemAt_mark, hcontrol, hafter]
  rfl

/-- source in front of a separator is read as at the end, and what is behind it as at the start -/
theorem itemsFrom_append_separator (hm : m ∈ separators) (rest : List Char) (hopen : (s.behind cs).brackets = [])
    (hescape : endsEscape cs = false) :
    itemsFrom 0 s (cs ++ m.char :: rest) = itemsFrom 0 s cs ++ .mark m false :: itemsFrom 0 .start rest := by
  induction s, cs using source_induction with
  | nil s => exact itemsFrom_separator hm hopen rest
  | cons s c cs ih =>
    have hsize := size_le_of_stands (itemAt_stands s c cs)
    have hitem := itemAt_append_separator hm rest hopen hescape
    have hbehind := ih (behind_cons s c cs ▸ hopen) (endsEscape_drop_itemAt s hescape)
    calc itemsFrom 0 s (c :: cs ++ m.char :: rest)
        = itemAt s c cs :: itemsFrom 0 (s.after (itemAt s c cs))
            ((c :: cs).drop (itemAt s c cs).size ++ m.char :: rest) := by
          rw [List.cons_append, itemsFrom_cons, hitem, ← List.cons_append, List.drop_append_of_le_length hsize]
      _ = itemsFrom 0 s (c :: cs) ++ .mark m false :: itemsFrom 0 .start rest := by
          rw [hbehind, itemsFrom_cons s c cs, List.cons_append]

end

/-! ## Tokens -/

/-- the tokens of items with a mark between them -/
theorem assemble_append_mark (run : List Char) (is js : List Item) (m : Mark) (control : Bool) :
    assemble run (is ++ .mark m control :: js) = assemble run is ++ .mark m :: assemble [] js := by
  induction is generalizing run with
  | nil => rfl
  | cons i is ih => cases i <;> simp only [List.cons_append, assemble, ih, List.append_assoc]

/-- **The reading begins anew behind a separator.** Take a source behind which no square bracket is open and no
backslash waits for a character, and a hash, a closing square bracket, a round bracket, a colon or a comma. The tokens
of this source, the mark and any other source are the tokens of the first, the mark and the tokens of the second. -/
theorem tokens_append_separator {source : String} {m : Mark} (hm : m ∈ separators)
    (hopen : (State.start.behind source.toList).brackets = []) (hescape : endsEscape source.toList = false)
    (other : String) :
    tokens (source ++ String.singleton m.char ++ other) = tokens source ++ .mark m :: tokens other := by
  have hsource : (source ++ String.singleton m.char ++ other).toList = source.toList ++ m.char :: other.toList := by
    rw [String.toList_append, String.toList_append, String.toList_singleton, List.append_assoc]
    rfl
  rw [tokens, items, hsource, itemsFrom_append_separator hm other.toList hopen hescape, assemble_append_mark]
  rfl

/-- a dot is no separator, since it may be the point of a number -/
example : items ['3', '.', '5'] = [.number ⟨['3'], ['5']⟩] := by decide

/-- a control bracket that is closed, a number at the end, and a digit and a control word behind the separator -/
theorem tokens_append_separator_colon :
    Mark.colon ∈ separators ∧ (State.start.behind "[while a in b do c\\]]\\\\ 3".toList).brackets = [] ∧
      endsEscape "[while a in b do c\\]]\\\\ 3".toList = false ∧
      tokens "[while a in b do c\\]]\\\\ 3:5 then]" =
        tokens "[while a in b do c\\]]\\\\ 3" ++ .mark .colon :: tokens "5 then]" := by
  have hm : Mark.colon ∈ separators := by decide
  have hopen : (State.start.behind "[while a in b do c\\]]\\\\ 3".toList).brackets = [] := by decide
  have hescape : endsEscape "[while a in b do c\\]]\\\\ 3".toList = false := by decide
  exact ⟨hm, hopen, hescape, tokens_append_separator hm hopen hescape "5 then]"⟩

end TextGrammar.Source
