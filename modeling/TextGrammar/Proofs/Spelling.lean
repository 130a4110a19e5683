/-
What tokens spell, and source without any meaning but its text.

Tokens are written out one after the other, with a rule `spell` for the characters of text (`Token.written`); spelled as
they are, they are `joinRaw`. The items of a source are written by the same rule, and assembling them into tokens keeps
what is written (`written_assemble`). So what the tokens of a source spell is seen item by item:

- `written_append_drop`: an item that is not escaped is written as the characters that it covers;
- `unescape_itemAt`: so one item takes from the source what it writes, escapes aside;
- `unescape_items`: and so do all items, by induction on the source ahead; without backslashes the tokens spell it as it
  is (`toList_joinRaw_of_notMem`).

In the other direction a backslash in front of each character leaves only text (`itemsFrom_escape`).

Result:
- `joinRaw_tokens`: the tokens of a source spell it, escapes aside, and any text can be written as source.
-/
import TextGrammar.Document
import TextGrammar.Proofs.Items

namespace TextGrammar

/-! ## Writing -/

/-- a token as it is written where the characters of text are written by a rule -/
def Token.written (spell : Char → List Char) : Token → List Char
  | .text s => s.toList.flatMap spell
  | t => t.rawText.toList

/-- with characters as they are, tokens are written as they stand in source -/
theorem Token.toList_joinRaw (ts : List Token) :
    (Token.joinRaw ts).toList = ts.flatMap (Token.written fun c => [c]) := by
  induction ts with
  | nil => rfl
  | cons t ts ih =>
    have ht : t.written (fun c => [c]) = t.rawText.toList := by
      cases t with
      | text s => exact List.flatMap_singleton' s.toList
      | _ => rfl
    rw [Token.joinRaw, String.toList_append, List.flatMap_cons, ih, ht]

theorem Token.joinRaw_append (ts us : List Token) :
    Token.joinRaw (ts ++ us) = Token.joinRaw ts ++ Token.joinRaw us := by
  rw [← String.toList_inj, String.toList_append, Token.toList_joinRaw, Token.toList_joinRaw, Token.toList_joinRaw,
    List.flatMap_append]

namespace Source

open Number

/-- the space that belongs to a control word or an operator -/
def spaceChars (spaced : Bool) : List Char :=
  if spaced then [' '] else []

/-- an item as it is written where the characters of text are written by a rule -/
def Item.written (spell : Char → List Char) : Item → List Char
  | .mark m _ => [m.char]
  | .operator o spaced => o.chars ++ spaceChars spaced
  | .keyword k spaced => k.chars ++ spaceChars spaced
  | .number d => d.spelling
  | .plain c | .escaped c => spell c

section

variable (spell : Char → List Char)

theorem written_textToken (run : List Char) :
    (textToken run).flatMap (Token.written spell) = run.reverse.flatMap spell := by
  cases run with
  | nil => rfl
  | cons c run => simp [textToken, Token.written]

theorem written_mark (m : Mark) : (Token.mark m).written spell = [m.char] := by
  show (String.singleton m.char).toList = _
  rw [String.toList_singleton]

theorem written_operator (o : Operator) : (Token.operator o).written spell = o.chars :=
  String.toList_ofList

theorem written_keyword (k : Keyword) : (Token.keyword k).written spell = k.chars :=
  String.toList_ofList

theorem written_number (d : Decimal) :
    (Token.number d.value (some (String.ofList d.spelling))).written spell = d.spelling :=
  String.toList_ofList

theorem written_token (run : List Char) (t : Token) (ts : List Token) :
    (textToken run ++ t :: ts).flatMap (Token.written spell) =
      run.reverse.flatMap spell ++ (t.written spell ++ ts.flatMap (Token.written spell)) := by
  rw [List.flatMap_append, List.flatMap_cons, written_textToken]

theorem written_spaced (spaced : Bool) (ts : List Token) :
    (spaceToken spaced ++ ts).flatMap (Token.written spell) =
      spaceChars spaced ++ ts.flatMap (Token.written spell) := by
  cases spaced <;> rfl

/-- tokens are written as the items that they are assembled from -/
theorem written_assemble (run : List Char) (is : List Item) :
    (assemble run is).flatMap (Token.written spell) =
      run.reverse.flatMap spell ++ is.flatMap (Item.written spell) := by
  induction is generalizing run with
  | nil => rw [assemble, written_textToken, List.flatMap_nil, List.append_nil]
  | cons i is ih =>
    have behind : (assemble [] is).flatMap (Token.written spell) = is.flatMap (Item.written spell) := ih []
    rw [List.flatMap_cons]
    cases i with
    | plain c | escaped c =>
      calc (assemble (c :: run) is).flatMap (Token.written spell)
          = (c :: run).reverse.flatMap spell ++ is.flatMap (Item.written spell) := ih (c :: run)
        _ = run.reverse.flatMap spell ++ (spell c ++ is.flatMap (Item.written spell)) := by
          rw [List.reverse_cons, List.flatMap_append, List.flatMap_singleton, List.append_assoc]
    | mark m control => rw [assemble, written_token, written_mark, behind, Item.written]
    | operator o spaced =>
      rw [assemble, List.append_assoc, List.cons_append, written_token, written_operator, written_spaced, behind,
        Item.written, List.append_assoc]
    | keyword k spaced =>
      rw [assemble, List.append_assoc, List.cons_append, written_token, written_keyword, written_spaced, behind,
        Item.written, List.append_assoc]
    | number d => rw [assemble, written_token, written_number, behind, Item.written]

end

/-! ## What items cover -/

/-- a space that is taken for a token is the one that comes next -/
theorem spaceChars_spaceNext (cs : List Char) : spaceChars (spaceNext cs) ++ cs.drop (spaceNext cs).toNat = cs := by
  unfold spaceNext
  split <;> rfl

theorem spaced_append_drop {us cs : List Char} (h : us <+: cs) :
    (us ++ spaceChars (spaceNext (cs.drop us.length))) ++
      cs.drop (us.length + (spaceNext (cs.drop us.length)).toNat) = cs := by
  obtain ⟨rest, rfl⟩ := h
  rw [← List.drop_drop, List.drop_left, List.append_assoc, spaceChars_spaceNext]

/-- an item that is not escaped is written as the characters that it covers -/
theorem written_append_drop {i : Item} {s : State} {cs : List Char} (h : i.Stands s cs) (hi : ∀ c, i ≠ .escaped c) :
    i.written (fun c => [c]) ++ cs.drop i.size = cs := by
  cases i with
  | mark m control =>
    obtain ⟨rest, rfl⟩ := List.head?_eq_some_iff.1 h.1
    rfl
  | operator o spaced =>
    obtain ⟨-, ho, rfl⟩ := h
    exact spaced_append_drop ho
  | keyword k spaced =>
    obtain ⟨-, -, hk, -, rfl⟩ := h
    exact spaced_append_drop hk
  | number d =>
    obtain ⟨rest, rfl⟩ := (Decimal.spelling_of_at? h.2).1
    exact congrArg _ List.drop_left
  | plain c =>
    obtain ⟨rest, rfl⟩ := List.head?_eq_some_iff.1 h
    rfl
  | escaped c => exact absurd rfl (hi c)

/-! ## Escapes -/

/-- a text without the backslashes that take away a meaning. A backslash at the very end stays. -/
def unescape : List Char → List Char
  | '\\' :: c :: cs => c :: unescape cs
  | c :: cs => c :: unescape cs
  | [] => []

/-- a text with a backslash in front of each character -/
def escape (cs : List Char) : List Char :=
  cs.flatMap fun c => ['\\', c]

theorem unescape_cons {c : Char} (h : c ≠ '\\') (cs : List Char) : unescape (c :: cs) = c :: unescape cs := by
  rw [unescape]
  intro _ _ hc
  exact absurd hc h

/-- in front of any text, what has no backslash stays as it is -/
theorem unescape_append {us : List Char} (h : '\\' ∉ us) (cs : List Char) :
    unescape (us ++ cs) = us ++ unescape cs := by
  induction us with
  | nil => rfl
  | cons u us ih =>
    rw [List.mem_cons, not_or] at h
    rw [List.cons_append, unescape_cons (Ne.symm h.1), ih h.2, List.cons_append]

/-- only a backslash that begins the source is written -/
theorem backslash_notMem_written {i : Item} {s : State} {c : Char} {cs : List Char} (h : i.Stands s (c :: cs))
    (hc : c ≠ '\\') : '\\' ∉ i.written fun c => [c] := by
  intro hmem
  cases i with
  | mark m control => exact absurd (List.mem_singleton.1 hmem) (by cases m <;> decide)
  | operator o spaced => cases o <;> cases spaced <;> exact absurd hmem (by decide)
  | keyword k spaced => cases k <;> cases spaced <;> exact absurd hmem (by decide)
  | number d => rcases Decimal.isDigit_of_at? h.2 hmem with hd | hd <;> cases hd
  | plain d =>
    obtain rfl : c = d := Option.some.inj h
    exact hc (List.mem_singleton.1 hmem).symm
  | escaped d => exact hc (eq_backslash_of_stands h)

/-- one item takes from the source what it writes, escapes aside -/
theorem unescape_itemAt (s : State) (c : Char) (cs : List Char) :
    unescape (c :: cs) =
      (itemAt s c cs).written (fun c => [c]) ++ unescape ((c :: cs).drop (itemAt s c cs).size) := by
  by_cases hc : c = '\\'
  · subst hc
    cases cs <;> rfl
  · have stands := itemAt_stands s c cs
    generalize itemAt s c cs = i at stands
    have hi : ∀ d, i ≠ .escaped d := by
      rintro d rfl
      exact hc (eq_backslash_of_stands stands)
    have hplain := backslash_notMem_written stands hc
    calc unescape (c :: cs)
        = unescape (i.written (fun c => [c]) ++ (c :: cs).drop i.size) := by rw [written_append_drop stands hi]
      _ = i.written (fun c => [c]) ++ unescape ((c :: cs).drop i.size) := unescape_append hplain _

/-- all items take the source ahead, escapes aside -/
theorem unescape_items (s : State) (cs : List Char) :
    (itemsFrom 0 s cs).flatMap (Item.written fun c => [c]) = unescape cs := by
  induction s, cs using source_induction with
  | nil s => rfl
  | cons s c cs ih => rw [itemsFrom_cons, List.flatMap_cons, ih, ← unescape_itemAt]

theorem unescape_of_notMem {cs : List Char} (h : '\\' ∉ cs) : unescape cs = cs := by
  simpa [unescape] using unescape_append h []

/-- tokens spell the run that they begin with and the source ahead, escapes aside -/
theorem toList_joinRaw_assemble (run : List Char) (s : State) (cs : List Char) :
    (Token.joinRaw (assemble run (itemsFrom 0 s cs))).toList = run.reverse ++ unescape cs := by
  rw [Token.toList_joinRaw, written_assemble, unescape_items, List.flatMap_singleton']

/-- without backslashes tokens spell the source ahead -/
theorem toList_joinRaw_of_notMem {cs : List Char} (h : '\\' ∉ cs) (s : State) :
    (Token.joinRaw (assemble [] (itemsFrom 0 s cs))).toList = cs := by
  rw [toList_joinRaw_assemble, unescape_of_notMem h]
  rfl

/-- a mark is only read where it stands in the source, or behind a backslash that it belongs to -/
theorem char_mem_of_mark_mem {m : Mark} {source : String} (h : .mark m ∈ tokens source) :
    m.char ∈ unescape source.toList := by
  have hspelled : (Token.joinRaw (tokens source)).toList = unescape source.toList :=
    toList_joinRaw_assemble [] .start source.toList
  rw [← hspelled, Token.toList_joinRaw, List.mem_flatMap]
  exact ⟨.mark m, h, by rw [written_mark]; exact List.mem_singleton_self m.char⟩

/-! ## Source that is nothing but text -/

/-- every character of a text with backslashes in front is an escaped one -/
theorem itemsFrom_escape (s : State) (cs : List Char) : itemsFrom 0 s (escape cs) = cs.map .escaped := by
  induction cs generalizing s with
  | nil => rfl
  | cons c cs ih => exact congrArg (Item.escaped c :: ·) (ih _)

theorem textToken_of_ne_nil {run : List Char} (h : run ≠ []) : textToken run = [.text (String.ofList run.reverse)] := by
  cases run with
  | nil => exact absurd rfl h
  | cons c run => rfl

theorem assemble_escaped (run cs : List Char) : assemble run (cs.map .escaped) = textToken (cs.reverse ++ run) := by
  induction cs generalizing run with
  | nil => rfl
  | cons c cs ih => rw [List.map_cons, assemble, ih, List.reverse_cons, List.append_assoc, List.singleton_append]

/-- **Tokens spell the source.** The tokens of a source, written one after the other, are the source without the
backslashes of its escapes, and so the source itself where it has no backslash. In the other direction any text but the
empty one is the only token, and the only node, of the source that has a backslash in front of each of its characters,
and the parse of that source has an empty log. -/
theorem joinRaw_tokens :
    (∀ source, Token.joinRaw (tokens source) = String.ofList (unescape source.toList)) ∧
      (∀ source, '\\' ∉ source.toList → Token.joinRaw (tokens source) = source) ∧
      ∀ x ≠ "", tokens (String.ofList (escape x.toList)) = [.text x] ∧
        parse (String.ofList (escape x.toList)) = ⟨.ok [.text x], []⟩ := by
  have spelled (source : String) : Token.joinRaw (tokens source) = String.ofList (unescape source.toList) := by
    rw [← String.toList_inj, String.toList_ofList, Token.toList_joinRaw, tokens, written_assemble, items,
      unescape_items]
    rfl
  refine ⟨spelled, ?_, ?_⟩
  · intro source h
    have hsame : unescape source.toList = source.toList := by simpa [unescape] using unescape_append h []
    rw [spelled, hsame, String.ofList_toList]
  · intro x hx
    have hrun : x.toList.reverse ≠ [] := by simpa using hx
    have htokens : tokens (String.ofList (escape x.toList)) = [.text x] := by
      rw [tokens, items, String.toList_ofList, itemsFrom_escape, assemble_escaped, List.append_nil,
        textToken_of_ne_nil hrun, List.reverse_reverse, String.ofList_toList]
    refine ⟨htokens, ?_⟩
    rw [parse, htokens]
    rfl

/-- a bracket that an escape leaves open, a source without escapes, and a text that would be a tag -/
theorem joinRaw_tokens_brackets :
    Token.joinRaw (tokens "[if a\\] then 3.5a\\") = "[if a] then 3.5a\\" ∧
      ('\\' ∉ "[while a not in b do 3.5a".toList ∧
        Token.joinRaw (tokens "[while a not in b do 3.5a") = "[while a not in b do 3.5a") ∧
      "[a:b]" ≠ "" ∧ tokens "\\[\\a\\:\\b\\]" = [.text "[a:b]"] ∧
        parse "\\[\\a\\:\\b\\]" = ⟨.ok [.text "[a:b]"], []⟩ := by
  have hplain : '\\' ∉ "[while a not in b do 3.5a".toList := by decide
  have hne : "[a:b]" ≠ "" := by decide
  have hescape : String.ofList (escape "[a:b]".toList) = "\\[\\a\\:\\b\\]" := by rfl
  obtain ⟨hspelled, hsame, htext⟩ := joinRaw_tokens
  refine ⟨hspelled "[if a\\] then 3.5a\\", ⟨hplain, hsame _ hplain⟩, hne, ?_⟩
  exact hescape ▸ htext "[a:b]" hne

end Source

end TextGrammar
