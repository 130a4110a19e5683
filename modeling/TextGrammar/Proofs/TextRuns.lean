/-
What the reading of source leaves in its texts.

A text is a run of plain characters that nothing interrupts, so whatever could have been read inside of it was looked
for and not found. `State.Leaves` says this of the characters of a run: there is no mark among them, at no word start a
number or a control word of the part that the reading is in, and no operator in a condition.

- `Comes`: the places that the reading of a source comes to, each in one state only (`Comes.unique`).
- `Pending`: a run of plain characters in front of a place, which may go on. It grows with each plain character
  (`Pending.push`), and a text is made of it at any other item (`Pending.leaves`).
- `Settled` says what holds of a token between the tokens around it, and `Along` says it of all of a list. One item that
  ends a run settles the text before it and its own tokens (`Pending.along_item`), and so all tokens are settled, by
  induction on the source ahead (`along_assemble`).

Result:
- `texts_leave_nothing`: in a source without backslashes, texts leave nothing to be read, and each number is as long as
  it can be.
-/
import Mathlib.Logic.Relation
import TextGrammar.Proofs.Spelling

namespace TextGrammar.Source

open Number

/-! ## Places of the reading -/

/-- one item of the reading, from the place in front of it to the place behind it; a place is a state and the source
ahead -/
def Steps (a b : State × List Char) : Prop :=
  ∃ c cs, a.2 = c :: cs ∧ b = (a.1.after (itemAt a.1 c cs), (c :: cs).drop (itemAt a.1 c cs).size)

/-- the reading of the source comes to a place, in this state and with this source ahead -/
def Comes (source : List Char) (s : State) (cs : List Char) : Prop :=
  Relation.ReflTransGen Steps (.start, source) (s, cs)

theorem steps_rightUnique : Relator.RightUnique Steps := by
  rintro a b b' ⟨c, cs, ha, rfl⟩ ⟨c', cs', ha', rfl⟩
  obtain ⟨rfl, rfl⟩ := List.cons.inj (ha.symm.trans ha')
  rfl

theorem length_lt_of_steps {a b : State × List Char} (h : Steps a b) : b.2.length < a.2.length := by
  obtain ⟨c, cs, ha, rfl⟩ := h
  rw [ha]
  exact length_behind_itemAt_lt a.1 c cs

theorem eq_or_length_lt {a b : State × List Char} (h : Relation.ReflTransGen Steps a b) :
    a = b ∨ b.2.length < a.2.length := by
  induction h with
  | refl => exact Or.inl rfl
  | tail _ hstep ih =>
    rcases ih with rfl | hlt
    · exact Or.inr (length_lt_of_steps hstep)
    · exact Or.inr (Nat.lt_trans (length_lt_of_steps hstep) hlt)

section

variable {source cs : List Char} {s s' : State}

theorem Comes.next {c : Char} (h : Comes source s (c :: cs)) :
    Comes source (s.after (itemAt s c cs)) ((c :: cs).drop (itemAt s c cs).size) :=
  Relation.ReflTransGen.tail h ⟨c, cs, rfl, rfl⟩

/-- the reading comes to a place in one state only -/
theorem Comes.unique (h : Comes source s cs) (h' : Comes source s' cs) : s = s' := by
  rcases Relation.ReflTransGen.total_of_right_unique steps_rightUnique h h' with h | h
  · rcases eq_or_length_lt h with heq | hlt
    · exact congrArg Prod.fst heq
    · exact absurd hlt (Nat.lt_irrefl _)
  · rcases eq_or_length_lt h with heq | hlt
    · exact (congrArg Prod.fst heq).symm
    · exact absurd hlt (Nat.lt_irrefl _)

end

/-! ## Runs of plain characters -/

/-- does a word start behind these characters of a text? It does at the beginning and behind a space. -/
def startsWord (us : List Char) : Bool :=
  us.getLast?.all (· = ' ')

/-- the source from a word start of a text on, which is followed by the rest -/
def FromWordStart (us rest cs : List Char) : Prop :=
  ∃ pre c post, us = pre ++ c :: post ∧ startsWord pre = true ∧ cs = c :: (post ++ rest)

/-- a text whose reading began in the state and that leaves nothing to be read, in front of the rest of the source -/
structure State.Leaves (s : State) (us rest : List Char) : Prop where
  ne_nil : us ≠ []
  noMark : ∀ m : Mark, m.char ∉ us
  noNumber : ∀ cs, FromWordStart us rest cs → ∀ n, ¬Decimal.CanRead n cs
  noOperator : s.phase = some .condition → ∀ o : Operator, ¬o.chars <:+: us
  noKeyword : ∀ p, s.phase = some p → ∀ k ∈ p.keywords, ∀ cs, FromWordStart us rest cs →
    ¬(k.chars <+: cs ∧ endsWord (cs.drop k.chars.length) = true)

/-- a run of plain characters in front of a place that the reading comes to, behind a token that is no text. The run
comes last character first. -/
structure Pending (source : List Char) (before : Option Token) (s : State) (run cs : List Char) : Prop where
  here : Comes source s cs
  began : Comes source ⟨true, s.brackets⟩ (run.reverse ++ cs)
  wordStart : s.wordStart = startsWord run.reverse
  plain : ∀ pre c post, run.reverse = pre ++ c :: post →
    itemAt ⟨startsWord pre, s.brackets⟩ c (post ++ cs) = .plain c
  notText : ∀ t ∈ before, t.kind ≠ .text
  notNumber : ∀ t ∈ before, t.kind = .number → Decimal.endsBefore (run.reverse ++ cs) = true

section

variable {source run cs : List Char} {before : Option Token} {s : State} {c : Char}

/-- behind a token that is no text an empty run begins -/
theorem pending_nil (h : Comes source s cs) (hword : s.wordStart = true) (notText : ∀ t ∈ before, t.kind ≠ .text)
    (notNumber : ∀ t ∈ before, t.kind = .number → Decimal.endsBefore cs = true) : Pending source before s [] cs where
  here := h
  began := by
    rw [← hword]
    exact h
  wordStart := hword
  plain pre c post hsplit := by simp at hsplit
  notText := notText
  notNumber := notNumber

/-- where a list with one more character is split, the split is at that character or at one before it -/
theorem split_concat {us pre post : List Char} {d : Char} (h : us ++ [c] = pre ++ d :: post) :
    (pre = us ∧ d = c ∧ post = []) ∨ ∃ post', post = post' ++ [c] ∧ us = pre ++ d :: post' := by
  rcases List.eq_nil_or_concat post with rfl | ⟨post, e, rfl⟩
  · obtain ⟨hpre, hd⟩ := List.append_inj' h rfl
    exact Or.inl ⟨hpre.symm, (List.singleton_inj.1 hd).symm, rfl⟩
  · rw [List.concat_eq_append, ← List.cons_append, ← List.append_assoc] at h
    obtain ⟨hus, he⟩ := List.append_inj' h rfl
    obtain rfl := List.singleton_inj.1 he
    exact Or.inr ⟨post, List.concat_eq_append, hus⟩

/-- a plain character goes on with the run -/
theorem Pending.push (h : Pending source before s run (c :: cs)) (hc : itemAt s c cs = .plain c) :
    Pending source before ⟨c = ' ', s.brackets⟩ (c :: run) cs where
  here := by
    have hnext := h.here.next
    rwa [hc] at hnext
  began := by
    rw [List.reverse_cons, List.append_assoc]
    exact h.began
  wordStart := by simp [startsWord]
  plain pre d post hsplit := by
    rw [List.reverse_cons] at hsplit
    rcases split_concat hsplit with ⟨rfl, rfl, rfl⟩ | ⟨post, rfl, hrun⟩
    · rw [← h.wordStart]
      exact hc
    · rw [List.append_assoc]
      exact h.plain pre d post hrun
  notText := h.notText
  notNumber := by
    rw [List.reverse_cons, List.append_assoc]
    exact h.notNumber

/-- what is no plain character does not stand at a character of the run -/
theorem Pending.not_stands (h : Pending source before s run cs) {pre post : List Char} {i : Item}
    (hsplit : run.reverse = pre ++ c :: post) (hi : ∀ d, i ≠ .plain d) :
    ¬i.Stands ⟨startsWord pre, s.brackets⟩ (c :: (post ++ cs)) := by
  intro hstands
  have hread := itemAt_eq_of_stands hstands hi
  rw [h.plain pre c post hsplit] at hread
  exact hi c hread.symm

/-- a run leaves nothing to be read -/
theorem Pending.leaves (h : Pending source before s run cs) (hrun : run ≠ []) :
    State.Leaves ⟨true, s.brackets⟩ run.reverse cs where
  ne_nil hnil := hrun (List.reverse_eq_nil_iff.1 hnil)
  noMark m hm := by
    obtain ⟨pre, post, hsplit⟩ := List.append_of_mem hm
    exact h.not_stands (i := .mark m _) hsplit nofun ⟨rfl, rfl⟩
  noNumber := by
    rintro _ ⟨pre, c, post, hsplit, hstart, rfl⟩ n hn
    obtain ⟨d, hd, -⟩ := Decimal.exists_at?_of_canRead hn
    exact h.not_stands (i := .number d) hsplit nofun ⟨hstart, hd⟩
  noOperator := by
    rintro hphase o ⟨pre, post, hsplit⟩
    obtain ⟨c, us, ho⟩ : ∃ c us, o.chars = c :: us := by cases o <;> exact ⟨_, _, rfl⟩
    rw [ho, List.append_assoc, List.cons_append] at hsplit
    refine h.not_stands (i := .operator o _) hsplit.symm nofun ⟨hphase, ?_, rfl⟩
    rw [ho, List.append_assoc, ← List.cons_append]
    exact List.prefix_append _ _
  noKeyword := by
    rintro p hphase k hk _ ⟨pre, c, post, hsplit, hstart, rfl⟩ ⟨hchars, hends⟩
    exact h.not_stands (i := .keyword k _) hsplit nofun ⟨hstart, ⟨p, hphase, hk⟩, hchars, hends, rfl⟩

end

/-! ## Tokens -/

/-- the items that become part of a text -/
def Item.isText : Item → Bool
  | .plain _ | .escaped _ => true
  | _ => false

/-- a word may start behind an item that is no character of text -/
theorem wordStart_after (s : State) {i : Item} (hi : i.isText = false) : (s.after i).wordStart = true := by
  cases i with
  | plain c | escaped c => cases hi
  | mark m control => cases m <;> rfl
  | operator o spaced | keyword k spaced | number d => rfl

/-- every token of a list has a property, which may speak of the token in front of it and of the tokens behind it -/
def Along (P : Option Token → List Token → Token → Prop) : Option Token → List Token → Prop
  | _, [] => True
  | before, t :: ts => P before ts t ∧ Along P (some t) ts

theorem Along.of_append {P : Option Token → List Token → Token → Prop} {first : Option Token}
    {before after : List Token} {t : Token} (h : Along P first (before ++ t :: after)) :
    P (before.getLast?.or first) after t := by
  induction before generalizing first with
  | nil => exact h.1
  | cons u before ih =>
    have hrest := ih h.2
    cases before with
    | nil => exact hrest
    | cons v before => exact hrest

/-- a text behind a token, if there is one, and in front of the rest of the source -/
structure SettledText (source : List Char) (before : Option Token) (rest us : List Char) : Prop where
  alone : ∀ v, before ≠ some (.text v)
  comes : ∃ s, Comes source s (us ++ rest)
  leaves : ∀ s, Comes source s (us ++ rest) → s.Leaves us rest

/-- the spelling of a number behind a token, if there is one, and in front of the rest of the source -/
structure SettledNumber (before : Option Token) (rest n : List Char) : Prop where
  alone : ∀ x spelling, before ≠ some (.number x spelling)
  wordStart : ∀ v, before = some (.text v) → startsWord v.toList = true
  read : Decimal.CanRead n (n ++ rest)
  longest : ∀ m, Decimal.CanRead m (n ++ rest) → m.length ≤ n.length

/-- what holds of a token of a source, between the token before it and the tokens behind it -/
def Settled (source : List Char) (before : Option Token) (after : List Token) : Token → Prop
  | .text u => SettledText source before (Token.joinRaw after).toList u.toList
  | .number _ spelling => ∃ n, spelling = some n ∧ SettledNumber before (Token.joinRaw after).toList n.toList
  | _ => True

section

variable {source run cs : List Char} {before : Option Token} {s : State} {c : Char}

/-- the text that a run becomes, in front of tokens -/
theorem Pending.along_textToken (h : Pending source before s run cs) {ts : List Token}
    (hts : (Token.joinRaw ts).toList = cs) (behind : Along (Settled source) ((textToken run).getLast?.or before) ts) :
    Along (Settled source) before (textToken run ++ ts) := by
  cases run with
  | nil => exact behind
  | cons c run =>
    have htext : textToken (c :: run) ++ ts = .text (String.ofList (c :: run).reverse) :: ts := rfl
    have settled : SettledText source before cs (c :: run).reverse :=
      ⟨fun v hv => h.notText _ hv rfl, ⟨_, h.began⟩, fun s' hs' => hs'.unique h.began ▸ h.leaves (List.cons_ne_nil c run)⟩
    rw [htext]
    refine ⟨?_, behind⟩
    rw [Settled, hts, String.toList_ofList]
    exact settled

/-- an item that is no character of text ends the run -/
theorem assemble_cons (run : List Char) {i : Item} (hi : i.isText = false) (is : List Item) :
    assemble run (i :: is) = textToken run ++ assemble [] (i :: is) := by
  cases i with
  | plain c | escaped c => cases hi
  | operator o spaced | keyword k spaced => simp [assemble, textToken]
  | mark m control | number d => rfl

/-- the space behind an operator or a control word, if there is one -/
theorem along_spaceToken {t : Token} {ts : List Token} (h : Along (Settled source) (some t) ts)
    (hspace : Along (Settled source) (some .space) ts) (spaced : Bool) :
    Along (Settled source) (some t) (spaceToken spaced ++ ts) := by
  cases spaced with
  | false => exact h
  | true => exact ⟨trivial, hspace⟩

/-- a number is as long as it can be, and does not stand behind a number or inside a word -/
theorem Pending.settled_number {d : Decimal} (h : Pending source before s run (c :: cs))
    (hd : (Item.number d).Stands s (c :: cs)) {ts : List Token}
    (hts : (Token.joinRaw ts).toList = (c :: cs).drop d.spelling.length) :
    Settled source ((textToken run).getLast?.or before) ts (.number d.value (some (String.ofList d.spelling))) := by
  obtain ⟨hstart, hat⟩ := hd
  obtain ⟨rest, hrest⟩ := (Decimal.spelling_of_at? hat).1
  have hahead : d.spelling ++ (Token.joinRaw ts).toList = c :: cs := by rw [hts, ← hrest, List.drop_left]
  refine ⟨_, rfl, ?_⟩
  rw [String.toList_ofList]
  constructor
  case alone =>
    intro x spelling hx
    cases run with
    | nil =>
      -- directly behind a number there is no digit for another one to begin with
      have hends := h.notNumber _ hx rfl
      exact Decimal.not_isDigit_of_endsBefore hends (Decimal.isDigit_of_at?_cons hat)
    | cons e run => cases hx
  case wordStart =>
    intro v hv
    cases run with
    | nil => exact absurd rfl (h.notText _ hv)
    | cons e run =>
      obtain rfl := Token.text.inj (Option.some.inj hv)
      rw [String.toList_ofList, ← h.wordStart]
      exact hstart
  case read =>
    rw [hahead]
    exact Decimal.canRead_of_at? hat
  case longest =>
    intro m hm
    rw [hahead] at hm
    obtain ⟨d', hd', hle⟩ := Decimal.exists_at?_of_canRead hm
    obtain rfl : d = d' := Option.some.inj (hat.symm.trans hd')
    exact hle

/-- one item that ends the run: the text before it and the tokens that it becomes are settled, if those behind are -/
theorem Pending.along_item {i : Item} {is : List Item} (h : Pending source before s run (c :: cs))
    (stands : i.Stands s (c :: cs)) (hi : i.isText = false)
    (spelled : (Token.joinRaw (assemble [] (i :: is))).toList = c :: cs)
    (spelled_behind : (Token.joinRaw (assemble [] is)).toList = (c :: cs).drop i.size)
    (behind : ∀ t : Token, t.kind ≠ .text →
      (t.kind = .number → Decimal.endsBefore ((c :: cs).drop i.size) = true) →
      Along (Settled source) (some t) (assemble [] is)) :
    Along (Settled source) before (assemble run (i :: is)) := by
  rw [assemble_cons run hi]
  refine h.along_textToken spelled ?_
  cases i with
  | plain d | escaped d => cases hi
  | mark m control => exact ⟨trivial, behind (.mark m) nofun nofun⟩
  | operator o spaced =>
    refine ⟨trivial, along_spaceToken ?_ ?_ spaced⟩
    · exact behind (.operator o) nofun nofun
    · exact behind .space nofun nofun
  | keyword k spaced =>
    refine ⟨trivial, along_spaceToken ?_ ?_ spaced⟩
    · exact behind (.keyword k) nofun nofun
    · exact behind .space nofun nofun
  | number d =>
    refine ⟨h.settled_number stands spelled_behind, behind _ nofun fun _ => ?_⟩
    obtain ⟨rest, hrest, hcomplete⟩ := Decimal.exists_complete_of_at? stands.2
    rw [hrest, Item.size, List.drop_left]
    exact hcomplete.ends

/-- behind a run all tokens of the source ahead are settled -/
theorem along_assemble (hcs : '\\' ∉ cs) (h : Pending source before s run cs) :
    Along (Settled source) before (assemble run (itemsFrom 0 s cs)) := by
  induction s, cs using source_induction generalizing before run with
  | nil s =>
    -- at the end of the source the run is the last text
    have htext : Along (Settled source) before (textToken run ++ []) := h.along_textToken rfl trivial
    rwa [List.append_nil] at htext
  | cons s c cs ih =>
    have hbehind : '\\' ∉ (c :: cs).drop (itemAt s c cs).size := fun hmem => hcs (List.mem_of_mem_drop hmem)
    have stands := itemAt_stands s c cs
    have hnext := h.here.next
    have spelled := toList_joinRaw_of_notMem hcs s
    rw [itemsFrom_cons] at spelled ⊢
    cases htext : (itemAt s c cs).isText with
    | false =>
      refine h.along_item stands htext spelled (toList_joinRaw_of_notMem hbehind _) fun t ht hnumber => ?_
      refine ih hbehind (pending_nil hnext (wordStart_after s htext) ?_ ?_)
      · simpa using ht
      · simpa using hnumber
    | true =>
      cases hi : itemAt s c cs <;> rw [hi] at htext stands hbehind ih
      case plain d =>
        obtain rfl : c = d := Option.some.inj stands
        exact ih hbehind (h.push hi)
      case escaped d =>
        obtain rfl := eq_backslash_of_stands stands
        exact absurd List.mem_cons_self hcs
      all_goals cases htext

end

/-- **Texts leave nothing to be read.** Take any token of a source without backslashes. The tokens before it spell what
the source has in front of it, and the token and those behind it spell the rest. If the token is a text, no other text
stands before it, it is not empty and has no mark in it; at its beginning and behind each space of it the source has no
number, and no control word of the part that the reading is in, in front of a place where one may end; and it has no
operator in it if that part is a condition. If the token is a number, no other number stands before it, and a text
before it ends in a space; and it is spelled by digits, with or without a point and more digits, as many as the source
has there in front of a character that is no word character. -/
theorem texts_leave_nothing {source : String} (h : '\\' ∉ source.toList) {before after : List Token} {t : Token}
    (ht : tokens source = before ++ t :: after) :
    source = Token.joinRaw before ++ Token.joinRaw (t :: after) ∧
      Settled source.toList before.getLast? after t := by
  have hstart : Pending source.toList none .start [] source.toList :=
    pending_nil .refl rfl nofun nofun
  have hsettled : Along (Settled source.toList) none (before ++ t :: after) := ht ▸ along_assemble h hstart
  have hspelled : Token.joinRaw (tokens source) = source := String.toList_inj.1 (toList_joinRaw_of_notMem h .start)
  refine ⟨?_, ?_⟩
  · rw [← Token.joinRaw_append, ← ht, hspelled]
  · rw [← Option.or_none (o := before.getLast?)]
    exact hsettled.of_append

/-- in a condition, a text that ends in front of a number and shows words and digits that are none -/
theorem texts_leave_nothing_condition :
    ∃ after, '\\' ∉ "[if a3 3a ine 3.5b then in 2.50]".toList ∧
      tokens "[if a3 3a ine 3.5b then in 2.50]" =
        [.mark .openSquare, .keyword .ifWord, .space] ++ .text "a3 3a ine " :: after ∧
      "[if a3 3a ine 3.5b then in 2.50]" = "[if " ++ Token.joinRaw (.text "a3 3a ine " :: after) ∧
      Settled "[if a3 3a ine 3.5b then in 2.50]".toList (some .space) after (.text "a3 3a ine ") := by
  have hbackslash : '\\' ∉ "[if a3 3a ine 3.5b then in 2.50]".toList := by decide
  obtain ⟨after, htokens⟩ : ∃ after, tokens "[if a3 3a ine 3.5b then in 2.50]" =
      [.mark .openSquare, .keyword .ifWord, .space] ++ .text "a3 3a ine " :: after := ⟨_, rfl⟩
  obtain ⟨hspelled, hsettled⟩ := texts_leave_nothing hbackslash htokens
  exact ⟨after, hbackslash, htokens, hspelled, hsettled⟩

end TextGrammar.Source
