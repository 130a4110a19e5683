/-
Tokens without rules and brackets.

Without a hash, and without a square bracket that opens in front of another token, no construct opens anywhere. What is
left has two ways into the tree: a text, a number or a colon is a fragment of a block, and any other token ends the
block and is kept as text. `flatNodes` does not know of the two ways. It takes the tokens one by one, a colon together
with a number behind it.

- `Document.fragment_cons` and `Document.stray_cons` put a token in front of a document on either way;
- `document_flatNodes`: so the tokens are a document that yields `flatNodes`, by induction along it;
- `plainText_flatNodes`: where no number follows a colon these nodes spell the tokens.

Result:
- `unstructured_is_flat`: such tokens always parse, to `flatNodes`, and so does a source without backslashes, hashes and
  opening square brackets. Where it has no weight, the text of its nodes is the source again.
-/
import TextGrammar.Proofs.Decision
import TextGrammar.Proofs.Spelling

namespace TextGrammar

/-- a colon in front of a number -/
def HasWeight (ts : List Token) : Prop :=
  ∃ x spelling, [.mark .colon, .number x spelling] <:+: ts

/-- no hash, and no square bracket that opens in front of another token -/
structure Unstructured (ts : List Token) : Prop where
  noHash : .mark .hash ∉ ts
  noBracket : .mark .openSquare ∉ ts.dropLast

/-- a weight for a colon and the number behind it, and a text for any other token -/
def flatNodes : List Token → List Node
  | [] => []
  | .mark .colon :: .number x _ :: ts => .weight x :: flatNodes ts
  | t :: ts => .text t.rawText :: flatNodes ts

variable {t : Token} {ts : List Token}

theorem Unstructured.tail (h : Unstructured (t :: ts)) : Unstructured ts where
  noHash hmem := h.noHash (List.mem_cons_of_mem t hmem)
  noBracket hmem := by
    have hne : ts ≠ [] := by
      rintro rfl
      cases hmem
    refine h.noBracket ?_
    rw [List.dropLast_cons_of_ne_nil hne]
    exact List.mem_cons_of_mem t hmem

/-- a square bracket that opens is the last token -/
theorem Unstructured.eq_nil (h : Unstructured (.mark .openSquare :: ts)) : ts = [] := by
  cases ts with
  | nil => rfl
  | cons u us => exact absurd List.mem_cons_self h.noBracket

theorem HasWeight.cons (h : HasWeight ts) (t : Token) : HasWeight (t :: ts) := by
  obtain ⟨x, spelling, h⟩ := h
  exact ⟨x, spelling, List.infix_cons h⟩

/-! ## Documents -/

section

variable {n : Nat} {ns ms : List Node}

/-- a fragment in front of a document belongs to its first block -/
theorem Document.fragment_cons {us : List Token} (hf : Derives n .fragment ts ns us) (h : Document n us ms) :
    Document n ts (ns ++ ms) := by
  cases h with
  | last hb => exact .last (.blockMore hf hb)
  | stray hb hd =>
    rw [← List.append_assoc]
    exact .stray (.blockMore hf hb) hd

/-- a token that no fragment starts with stands behind an empty block -/
theorem Document.stray_cons (ht : starts (t :: ts) = false) (h : Document n ts ms) :
    Document n (t :: ts) (.text t.rawText :: ms) :=
  .stray (.blockEnd ht) h

end

/-- without rules and brackets each token is a node of its own, and a weight takes two -/
theorem document_flatNodes (n : Nat) (h : Unstructured ts) : Document n ts (flatNodes ts) := by
  fun_induction flatNodes ts with
  | case1 => exact .last (.blockEnd rfl)
  | case2 x spelling ts ih => exact .fragment_cons .weight (ih h.tail.tail)
  | case3 t ts hweight ih =>
    have rest := ih h.tail
    cases t with
    | text s => exact .fragment_cons .text rest
    | number x spelling => exact .fragment_cons .number rest
    | space | operator o | keyword k => exact .stray_cons rfl rest
    | mark m =>
      cases m with
      | hash => exact absurd List.mem_cons_self h.noHash
      | openSquare =>
        obtain rfl := h.eq_nil
        exact .stray_cons rfl rest
      | colon =>
        have hnumber : numberAhead ts = false := by
          refine numberAhead_eq_false_iff.2 fun x spelling hx => ?_
          obtain ⟨us, rfl⟩ := List.head?_eq_some_iff.1 hx
          exact hweight x spelling us rfl rfl
        exact .fragment_cons (.colon hnumber) rest
      | closeSquare | openRound | closeRound | dot | comma => exact .stray_cons rfl rest

theorem plainText_flatNodes (h : ¬HasWeight ts) : Node.plainText (flatNodes ts) = .ok (Token.joinRaw ts) := by
  fun_induction flatNodes ts with
  | case1 => rfl
  | case2 x spelling ts ih => exact absurd ⟨x, spelling, (List.prefix_append _ ts).isInfix⟩ h
  | case3 t ts hweight ih =>
    rw [Node.plainText, ih fun hw => h (hw.cons t), Token.joinRaw]
    rfl

/-! ## Source -/

/-- what the source does not show is not among its tokens -/
theorem unstructured_tokens {source : String} (hbackslash : '\\' ∉ source.toList) (hhash : '#' ∉ source.toList)
    (hbracket : '[' ∉ source.toList) : Unstructured (Source.tokens source) := by
  have notMem {m : Mark} (hm : m.char ∉ source.toList) : .mark m ∉ Source.tokens source := by
    intro h
    have hchar := Source.char_mem_of_mark_mem h
    rw [Source.unescape_of_notMem hbackslash] at hchar
    exact hm hchar
  exact ⟨notMem hhash, fun h => notMem (m := .openSquare) hbracket (List.dropLast_subset _ h)⟩

/-- **Tokens without rules and brackets.** Tokens without a hash, and without a square bracket that opens in front of
another token, parse under every limit: to one weight for each colon in front of a number and to one text for each
other token, in order. If there is no weight, the text of these nodes is what the tokens spell. So a source without
backslashes, hashes and opening square brackets always parses, and if its tokens have no weight the text of its nodes
is the source again, and parses to the same nodes. -/
theorem unstructured_is_flat :
    (∀ limit ts, .mark .hash ∉ ts → .mark .openSquare ∉ ts.dropLast →
      (build limit ts).result = .ok (flatNodes ts) ∧
        (¬HasWeight ts → Node.plainText (flatNodes ts) = .ok (Token.joinRaw ts))) ∧
      ∀ source : String, '\\' ∉ source.toList → '#' ∉ source.toList → '[' ∉ source.toList →
        ∃ nodes, (parse source).result = .ok nodes ∧ (¬HasWeight (Source.tokens source) →
          Node.plainText nodes = .ok source ∧
            ∀ text, Node.plainText nodes = .ok text → (parse text).result = .ok nodes) := by
  refine ⟨fun limit ts hhash hbracket => ?_, fun source hbackslash hhash hbracket => ?_⟩
  · exact ⟨build_ok_iff.2 (document_flatNodes limit ⟨hhash, hbracket⟩), plainText_flatNodes⟩
  · have hparse : (parse source).result = .ok (flatNodes (Source.tokens source)) :=
      build_ok_iff.2 (document_flatNodes defaultLimit (unstructured_tokens hbackslash hhash hbracket))
    refine ⟨_, hparse, fun hweight => ?_⟩
    have hspelled : Token.joinRaw (Source.tokens source) = source :=
      String.toList_inj.1 (Source.toList_joinRaw_of_notMem hbackslash .start)
    have htext : Node.plainText (flatNodes (Source.tokens source)) = .ok source := by
      rw [plainText_flatNodes hweight, hspelled]
    refine ⟨htext, fun text h => ?_⟩
    obtain rfl : source = text := Except.ok.inj (htext.symm.trans h)
    exact hparse

/-- a weight and tokens that no fragment starts with, and a source without weights -/
theorem unstructured_is_flat_strays :
    (∃ ts, ts = [.mark .colon, .number 2 (some "2"), .mark .closeRound, .space, Token.mark .openSquare] ∧
      .mark .hash ∉ ts ∧ .mark .openSquare ∉ ts.dropLast ∧
      (build 1 ts).result = .ok [.weight 2, .text ")", .text " ", .text "["]) ∧
      '\\' ∉ "a] (b): c, if d".toList ∧ '#' ∉ "a] (b): c, if d".toList ∧ '[' ∉ "a] (b): c, if d".toList ∧
      ¬HasWeight (Source.tokens "a] (b): c, if d") ∧
      ∃ nodes, (parse "a] (b): c, if d").result = .ok nodes ∧ Node.plainText nodes = .ok "a] (b): c, if d" := by
  obtain ⟨flat_tokens, flat_source⟩ := unstructured_is_flat
  have hbackslash : '\\' ∉ "a] (b): c, if d".toList := by decide
  have hhash : '#' ∉ "a] (b): c, if d".toList := by decide
  have hbracket : '[' ∉ "a] (b): c, if d".toList := by decide
  have hweight : ¬HasWeight (Source.tokens "a] (b): c, if d") := by
    rintro ⟨x, spelling, h⟩
    have hmem : .number x spelling ∈ Source.tokens "a] (b): c, if d" :=
      h.subset (List.mem_cons_of_mem _ List.mem_cons_self)
    have hkinds : ∀ t ∈ Source.tokens "a] (b): c, if d", t.kind ≠ .number := by decide
    exact hkinds _ hmem rfl
  obtain ⟨nodes, hnodes, htext⟩ := flat_source _ hbackslash hhash hbracket
  refine ⟨⟨_, rfl, ?_, ?_, ?_⟩, hbackslash, hhash, hbracket, hweight, nodes, hnodes, (htext hweight).1⟩
  · simp
  · simp
  · exact (flat_tokens 1 _ (by simp) (by simp)).1

end TextGrammar
