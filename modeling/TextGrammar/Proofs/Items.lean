/-
What an item says about the source that it stands in.

`Item.Stands s cs i` says what holds of the source `cs` ahead and of the state `s` where the item `i` is read: the
characters it is read from, what the reading has to know there, and what comes behind. Proofs about the reading of
source use it and do not go through the order in which items are tried.

Results:
- `itemAt_stands`: the item that is read stands there, and `itemAt_eq_of_stands`: what stands there is read, unless it
  is a plain character;
- `itemsFrom_of_stands`: so from there on, source is read as that item and what comes behind it;
- `length_behind_itemAt_lt`: the source behind it is shorter, and `source_induction`: so there is induction along a
  source;
- `stands_of_mem`: every item of a source stands somewhere;
- `number_of_mem_assemble`: a number among the tokens is one of the items, spelled as it stands in the source.
-/
import TextGrammar.Source

namespace TextGrammar.Source

open Number

/-- what holds of the source ahead and of the state where the item is read -/
def Item.Stands (s : State) (cs : List Char) : Item → Prop
  | .mark m control => cs.head? = some m.char ∧ control = opensControl m cs.tail
  | .operator o spaced => s.phase = some .condition ∧ o.chars <+: cs ∧ spaced = spaceNext (cs.drop o.chars.length)
  | .keyword k spaced => s.wordStart = true ∧ (∃ p, s.phase = some p ∧ k ∈ p.keywords) ∧ k.chars <+: cs ∧
      endsWord (cs.drop k.chars.length) = true ∧ spaced = spaceNext (cs.drop k.chars.length)
  | .number d => s.wordStart = true ∧ Decimal.at? cs = some d
  | .plain c => cs.head? = some c
  | .escaped c => ['\\', c] <+: cs

section

variable {s : State} {cs : List Char}

theorem operatorAt?_eq_some {o : Operator} (h : operatorAt? s cs = some o) :
    s.phase = some .condition ∧ o.chars <+: cs := by
  unfold operatorAt? at h
  split at h
  · rename_i hp
    have ho := List.find?_some h
    exact ⟨hp, List.isPrefixOf_iff_prefix.1 ho⟩
  · cases h

theorem keywordAt?_eq_some {k : Keyword} (h : keywordAt? s cs = some k) :
    s.wordStart = true ∧ (∃ p, s.phase = some p ∧ k ∈ p.keywords) ∧ k.chars <+: cs ∧
      endsWord (cs.drop k.chars.length) = true := by
  unfold keywordAt? at h
  split at h
  · cases h
  · rename_i p hp
    split at h
    · rename_i hs
      have hf := List.find?_some h
      obtain ⟨hk, he⟩ := Bool.and_eq_true_iff.1 hf
      exact ⟨hs, ⟨p, hp, List.mem_of_find?_eq_some h⟩, List.isPrefixOf_iff_prefix.1 hk, he⟩
    · cases h

theorem numberAt?_eq_some {d : Decimal} (h : numberAt? s cs = some d) :
    s.wordStart = true ∧ Decimal.at? cs = some d := by
  unfold numberAt? at h
  split at h
  · rename_i hs
    exact ⟨hs, h⟩
  · cases h

/-- the item that is read stands where it is read -/
theorem itemAt_stands (s : State) (c : Char) (cs : List Char) : (itemAt s c cs).Stands s (c :: cs) := by
  unfold itemAt
  split
  · rename_i hc
    subst hc
    cases cs with
    | nil => rfl
    | cons next cs => exact ⟨cs, rfl⟩
  · split
    · rename_i m hm
      exact ⟨congrArg some (Mark.char_of_ofChar? hm).symm, rfl⟩
    · split
      · rename_i o ho
        obtain ⟨hp, hc⟩ := operatorAt?_eq_some ho
        exact ⟨hp, hc, rfl⟩
      · split
        · rename_i k hk
          obtain ⟨hs, hp, hc, he⟩ := keywordAt?_eq_some hk
          exact ⟨hs, hp, hc, he, rfl⟩
        · split
          · rename_i d hd
            exact numberAt?_eq_some hd
          · rfl

/-- the operators begin differently, so the one that stands there is found -/
theorem operatorAt?_of_prefix {o : Operator} (hp : s.phase = some .condition) (h : o.chars <+: cs) :
    operatorAt? s cs = some o := by
  obtain ⟨rest, rfl⟩ := h
  rw [operatorAt?, if_pos hp]
  cases o <;> rfl

theorem operatorAt?_eq_none (h : ∀ o : Operator, ¬o.chars <+: cs) : operatorAt? s cs = none :=
  Option.eq_none_iff_forall_ne_some.2 fun o ho => h o (operatorAt?_eq_some ho).2

/-- the words that a part knows begin differently, so the one that stands there is found -/
theorem keywordAt?_of_prefix {p : Phase} {k : Keyword} (hs : s.wordStart = true) (hp : s.phase = some p)
    (hk : k ∈ p.keywords) (h : k.chars <+: cs) (he : endsWord (cs.drop k.chars.length) = true) :
    keywordAt? s cs = some k := by
  obtain ⟨rest, rfl⟩ := h
  rw [List.drop_left] at he
  rw [keywordAt?, hp]
  simp only [hs, if_true]
  cases p <;> simp only [Phase.keywords, List.mem_cons, List.not_mem_nil, or_false] at hk ⊢
  case opening => rcases hk with rfl | rfl <;> simp [Keyword.chars, he]
  case condition => rcases hk with rfl | rfl | rfl | rfl <;> simp [Keyword.chars, he]
  case thenPart => subst hk; simp [Keyword.chars, he]

theorem keywordAt?_eq_none (h : ∀ k : Keyword, ¬k.chars <+: cs) : keywordAt? s cs = none :=
  Option.eq_none_iff_forall_ne_some.2 fun k hk => h k (keywordAt?_eq_some hk).2.2.1

section

variable {c : Char} {rest : List Char}

theorem itemAt_mark (s : State) (m : Mark) (cs : List Char) : itemAt s m.char cs = .mark m (opensControl m cs) := by
  cases m <;> rfl

/-- no operator begins with a backslash or a mark -/
theorem itemAt_operator {o : Operator} (hp : s.phase = some .condition) (h : o.chars <+: c :: rest) :
    itemAt s c rest = .operator o (spaceNext ((c :: rest).drop o.chars.length)) := by
  have hfound := operatorAt?_of_prefix hp h
  have hc : c ≠ '\\' ∧ Mark.ofChar? c = none := by
    obtain ⟨_, h⟩ := h
    cases o <;> cases h <;> decide
  unfold itemAt
  rw [if_neg hc.1, hc.2]
  simp only [hfound]

/-- no control word begins with a backslash, a mark or an operator -/
theorem itemAt_keyword {p : Phase} {k : Keyword} (hs : s.wordStart = true) (hp : s.phase = some p)
    (hk : k ∈ p.keywords) (h : k.chars <+: c :: rest)
    (he : endsWord ((c :: rest).drop k.chars.length) = true) :
    itemAt s c rest = .keyword k (spaceNext ((c :: rest).drop k.chars.length)) := by
  have hfound := keywordAt?_of_prefix hs hp hk h he
  have hc : c ≠ '\\' ∧ Mark.ofChar? c = none ∧ ∀ o : Operator, ¬o.chars <+: c :: rest := by
    obtain ⟨_, h⟩ := h
    cases k <;> cases h <;> refine ⟨by decide, rfl, ?_⟩ <;> rintro o ⟨_, ho⟩ <;> cases o <;> cases ho
  unfold itemAt
  rw [if_neg hc.1, hc.2.1]
  simp only [operatorAt?_eq_none hc.2.2, hfound]

/-- a digit or a line feed begins no mark, operator or word -/
theorem itemAt_of_isDigit_or_lineFeed (h : c.isDigit = true ∨ c = '\n') :
    itemAt s c rest = (numberAt? s (c :: rest)).elim (.plain c) .number := by
  have other {d : Char} (hd : d.isDigit = false ∧ d ≠ '\n') : d ≠ c := by
    rintro rfl
    exact h.elim (by simp [hd.1]) hd.2
  have hc : c ≠ '\\' := (other (by decide)).symm
  have hm : Mark.ofChar? c = none := Option.eq_none_iff_forall_ne_some.2 fun m hm =>
    other (by cases m <;> decide) (Mark.char_of_ofChar? hm)
  have ho (o : Operator) : ¬o.chars <+: c :: rest := by
    rintro ⟨_, ho⟩
    cases o <;> exact other (by decide) (List.cons.inj ho).1
  have hk (k : Keyword) : ¬k.chars <+: c :: rest := by
    rintro ⟨_, hk⟩
    cases k <;> exact other (by decide) (List.cons.inj hk).1
  unfold itemAt
  rw [if_neg hc, hm]
  simp only [operatorAt?_eq_none ho, keywordAt?_eq_none hk]
  cases numberAt? s (c :: rest) <;> rfl

theorem itemAt_number {d : Decimal} (hs : s.wordStart = true) (h : Decimal.at? (c :: rest) = some d) :
    itemAt s c rest = .number d := by
  have hnumber : numberAt? s (c :: rest) = some d := by rw [numberAt?, if_pos hs, h]
  rw [itemAt_of_isDigit_or_lineFeed (Or.inl (Decimal.isDigit_of_at?_cons h)), hnumber, Option.elim]

/-- a line feed is always plain -/
theorem itemAt_lineFeed (s : State) (cs : List Char) : itemAt s '\n' cs = .plain '\n' := by
  have hnumber : numberAt? s ('\n' :: cs) = none := by
    rw [numberAt?]
    split <;> rfl
  rw [itemAt_of_isDigit_or_lineFeed (Or.inr rfl), hnumber, Option.elim]

/-- an item that is no plain character is read wherever it stands, so the order in which items are tried does not
matter -/
theorem itemAt_eq_of_stands {i : Item} (h : i.Stands s (c :: rest)) (hi : ∀ d, i ≠ .plain d) : itemAt s c rest = i := by
  cases i with
  | mark m control =>
    obtain ⟨hc, rfl⟩ := h
    obtain rfl : c = m.char := Option.some.inj hc
    exact itemAt_mark s m rest
  | operator o spaced =>
    obtain ⟨hp, ho, rfl⟩ := h
    exact itemAt_operator hp ho
  | keyword k spaced =>
    obtain ⟨hs, ⟨p, hp, hk⟩, hchars, he, rfl⟩ := h
    exact itemAt_keyword hs hp hk hchars he
  | number d => exact itemAt_number h.1 h.2
  | plain d => exact absurd rfl (hi d)
  | escaped d =>
    obtain ⟨_, h⟩ := h
    cases h
    rfl

end

end

/-- an item covers at least one character, so the source behind it is shorter -/
theorem length_behind_itemAt_lt (s : State) (c : Char) (cs : List Char) :
    ((c :: cs).drop (itemAt s c cs).size).length < (c :: cs).length := by
  have := size_itemAt_pos s c cs
  rw [List.length_drop, List.length_cons]
  omega

/-- induction along a source: at its end, and at an item from what comes behind the item -/
@[elab_as_elim]
theorem source_induction {motive : State → List Char → Prop} (nil : ∀ s, motive s [])
    (cons : ∀ s c cs, motive (s.after (itemAt s c cs)) ((c :: cs).drop (itemAt s c cs).size) → motive s (c :: cs))
    (s : State) (cs : List Char) : motive s cs := by
  -- an item may cover any number of characters, so this is on the length of what is ahead
  induction hn : cs.length using Nat.strongRecOn generalizing s cs with
  | ind n ih =>
    cases cs with
    | nil => exact nil s
    | cons c cs =>
      have shorter := hn ▸ length_behind_itemAt_lt s c cs
      exact cons s c cs (ih _ shorter _ _ rfl)

/-- a control bracket begins with `if` or `while` and a space -/
theorem exists_word_of_opensControl {m : Mark} {cs : List Char} (h : opensControl m cs = true) :
    m = .openSquare ∧
      ∃ (k : Keyword) (rest : List Char), (k = .ifWord ∨ k = .whileWord) ∧ cs = k.chars ++ ' ' :: rest := by
  obtain ⟨hm, hw⟩ := Bool.and_eq_true_iff.1 h
  obtain ⟨k, hk, hp⟩ := List.any_eq_true.1 hw
  obtain ⟨rest, rfl⟩ := List.isPrefixOf_iff_prefix.1 hp
  exact ⟨of_decide_eq_true hm, k, rest, by simpa using hk, by simp⟩

/-- the word at the beginning of a control bracket -/
theorem itemsFrom_control {k : Keyword} (hk : k = .ifWord ∨ k = .whileWord) (bs : List (Option Phase))
    (cs : List Char) :
    itemsFrom 0 ⟨true, some .opening :: bs⟩ (k.chars ++ ' ' :: cs) =
      .keyword k true :: itemsFrom 0 ⟨true, some .condition :: bs⟩ cs := by
  rcases hk with rfl | rfl <;> rfl

/-- an escaped character stands behind a backslash -/
theorem eq_backslash_of_stands {c d : Char} {s : State} {cs : List Char} (h : (Item.escaped d).Stands s (c :: cs)) :
    c = '\\' := by
  obtain ⟨_, h⟩ := h
  exact (List.cons.inj h).1.symm

/-- where a part of a control bracket is read, a bracket is open -/
theorem brackets_pos_of_phase {s : State} {p : Phase} (h : s.phase = some p) : 0 < s.brackets.length := by
  cases hb : s.brackets with
  | nil => simp [State.phase, hb] at h
  | cons b bs => exact Nat.succ_pos _

theorem length_brackets_after_keyword (s : State) (k : Keyword) (spaced : Bool) :
    (s.after (.keyword k spaced)).brackets.length = s.brackets.length := by
  simp [State.after]

/-- nothing stands at the end -/
theorem not_stands_nil (i : Item) (s : State) : ¬i.Stands s [] := by
  intro h
  cases i with
  | mark m control => cases h.1
  | operator o spaced => cases o <;> cases List.prefix_nil.1 h.2.1
  | keyword k spaced => cases k <;> cases List.prefix_nil.1 h.2.2.1
  | number d => cases h.2
  | plain c => cases h
  | escaped c => cases List.prefix_nil.1 h

/-- where an item stands that is no plain character, it is read, and the reading goes on behind it -/
theorem itemsFrom_of_stands {i : Item} {s : State} {us cs : List Char} (h : i.Stands s (us ++ cs))
    (hi : ∀ d, i ≠ .plain d) (hsize : i.size = us.length) :
    itemsFrom 0 s (us ++ cs) = i :: itemsFrom 0 (s.after i) cs := by
  cases hsource : us ++ cs with
  | nil => exact absurd (hsource ▸ h) (not_stands_nil i s)
  | cons c rest =>
    have hread : itemAt s c rest = i := itemAt_eq_of_stands (hsource ▸ h) hi
    rw [itemsFrom_cons, hread, hsize, ← hsource, List.drop_left]

/-- every item of a source stands somewhere -/
theorem stands_of_mem {i : Item} {skip : Nat} {s : State} {cs : List Char} (h : i ∈ itemsFrom skip s cs) :
    ∃ s cs, i.Stands s cs := by
  fun_induction itemsFrom skip s cs with
  | case1 => cases h
  | case2 _ _ _ _ ih => exact ih h
  | case3 s c cs i ih =>
    rcases List.mem_cons.1 h with rfl | h
    · exact ⟨s, c :: cs, itemAt_stands s c cs⟩
    · exact ih h

/-- a number among the tokens is one of the items -/
theorem number_of_mem_assemble {x : Float} {o : Option String} {run : List Char} {is : List Item}
    (h : .number x o ∈ assemble run is) : ∃ d, .number d ∈ is ∧ o = some (String.ofList d.spelling) := by
  induction is generalizing run with
  | nil => cases run <;> simp [assemble, textToken] at h
  | cons i is ih =>
    have later (run : List Char) (h : .number x o ∈ assemble run is) :
        ∃ d, .number d ∈ i :: is ∧ o = some (String.ofList d.spelling) := by
      obtain ⟨d, hd, ho⟩ := ih h
      exact ⟨d, List.mem_cons_of_mem i hd, ho⟩
    have hrun : .number x o ∉ textToken run := by cases run <;> simp [textToken]
    have hspace (spaced : Bool) : .number x o ∉ spaceToken spaced := by cases spaced <;> simp [spaceToken]
    cases i with
    | plain c | escaped c => exact later _ h
    | mark m control => exact later [] (by simpa [assemble, hrun] using h)
    | operator _ spaced | keyword _ spaced => exact later [] (by simpa [assemble, hrun, hspace] using h)
    | number d =>
      have h : (x = d.value ∧ o = some (String.ofList d.spelling)) ∨ .number x o ∈ assemble [] is := by
        simpa [assemble, hrun] using h
      rcases h with ⟨-, ho⟩ | h
      · exact ⟨d, List.mem_cons_self, ho⟩
      · exact later [] h

end TextGrammar.Source
