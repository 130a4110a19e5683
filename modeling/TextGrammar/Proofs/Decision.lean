/-
The parser decides the grammar.

What a construct gives is derived (`construct_sound`). The other way round takes one induction on the derivation.

Results:
- `complete`: what is derived, the parser of the form gives;
- `document_sound`, `document_complete`: documents are derived and given in the same way;
- `build_decides_documents`: so `build` accepts exactly the documents, and yields what they stand for.
-/
import TextGrammar.Proofs.Passage

namespace TextGrammar

open TextGrammar.Parser

variable {c d : Cursor}

/-! ## Completeness -/

/-- the parser of a form. A parser that wraps what it yields is unwrapped; one that is given a name for its messages is
taken with every name. -/
def Form.Reads (inner : Inner) : (f : Form) → Cursor → f.Yield → Cursor → Prop
  | .block, c, ns, d => Gives (TextGrammar.block inner) c ns d
  | .fragment, c, ns, d => Gives (TextGrammar.fragment inner) c (some ns) d
  | .list, c, bs, d => Gives (blockList inner) c bs d
  | .elements, c, bs, d => Gives (many (listElement inner)) c bs d
  | .heads, c, ns, d => ∃ nss, Gives (many (headTag inner)) c nss d ∧ nss.flatten = ns
  | .reference, c, ns, d => Gives (ruleBody inner) c ns d
  | .modifiers, c, ms, d => ∀ name, Gives (many (modifier inner name)) c ms d
  | .params, c, ps, d => ∀ name, Gives (TextGrammar.params inner name) c ps d
  | .items, c, ns, d => ∃ nss, Gives (many (tagItem inner)) c nss d ∧ nss.flatten = ns
  | .condition, c, r, d => Gives (TextGrammar.condition inner) c r d
  | .construct k, c, ns, d => Gives (inner k) c ns d

theorem reads_controlHead {inner : Inner} {k : Keyword} {ts rest : List Token} {r : Condition Node}
    (hc : c.ahead = .mark .openSquare :: .keyword k :: .space :: ts)
    (h : ∀ c : Cursor, c.ahead = ts → ∃ d, Gives (condition inner) c r d ∧ d.ahead = rest) :
    ∃ d, Gives (controlHead inner k) c r d ∧ d.ahead = rest := by
  have h₁ := c.next_ahead hc
  have h₂ := c.next.next_ahead h₁
  obtain ⟨d, hg, hd⟩ := h c.next.next.next (c.next.next.next_ahead h₂)
  exact ⟨d, gives_controlHead.2 ⟨c.head?_ahead hc, c.next.head?_ahead h₁, c.next.next.head?_ahead h₂, hg⟩, hd⟩

theorem reads_filledBlock {inner : Inner} (k : Keyword) {ts rest : List Token} {ns : List Node} (hn : ns ≠ [])
    (hc : c.ahead = .space :: ts)
    (h : ∀ c : Cursor, c.ahead = ts → ∃ d, Gives (block inner) c ns d ∧ d.ahead = rest) :
    ∃ d, Gives (filledBlock inner k) c ns d ∧ d.ahead = rest := by
  obtain ⟨d, hg, hd⟩ := h c.next (c.next_ahead hc)
  exact ⟨d, gives_filledBlock.2 ⟨c.head?_ahead hc, hg, hn⟩, hd⟩

theorem gives_construct {limit n : Nat} {k : Construct} {ns : List Node} :
    Gives (construct limit (n + 1) k) c ns d ↔ ∃ e, Gives (k.body (construct limit n)) c.below ns e ∧ e.above = d :=
  gives_deeper

/-- one round more of a repetition that puts its nodes together -/
theorem reads_more {p : Parser (Option (List Node))} {ns ms : List Node} {e : Cursor} (hp : Advances p)
    (h : Gives p c (some ns) e) (hm : ∃ nss, Gives (many p) e nss d ∧ nss.flatten = ms) :
    ∃ nss, Gives (many p) c nss d ∧ nss.flatten = ns ++ ms := by
  obtain ⟨nss, hm, rfl⟩ := hm
  exact ⟨ns :: nss, many_more hp h hm, List.flatten_cons⟩

theorem reads_reference {inner : Inner} {o : Option String} {ms : List (Modifier Node)} {t : Token}
    {ts rest : List Token} {e : Cursor} (hc : c.ahead = t :: ts) (ht : t ≠ .mark .hash) (ho : Gives optionalText c o e)
    (hm : Gives (many (modifier inner (o.getD ""))) e ms d) (hd : d.ahead = .mark .hash :: rest) :
    Gives (ruleBody inner) c [.rule (o.getD "") ms] d.next := by
  have hr := gives_ruleReference.2 ⟨o, e, ms, d, ho, hm, d.head?_ahead hd, rfl, rfl⟩
  have hn : c.ahead ≠ [] := by simp [hc]
  have hh : c.ahead.head? ≠ some (.mark .hash) := by simpa [hc] using ht
  exact gives_ruleBody.2 (Or.inr (Or.inr ⟨hn, hh, hr⟩))

theorem reads_params {inner : Inner} {bs : List (List Node)} {ts rest : List Token}
    (hc : c.ahead = .mark .openRound :: ts) (hl : Gives (blockList inner) c.next bs d)
    (hd : d.ahead = .mark .closeRound :: rest) (name : String) : Gives (params inner name) c (paramsOf bs) d.next :=
  gives_params.2 (Or.inl ⟨c.head?_ahead hc, bs, d, hl, d.head?_ahead hd, rfl, rfl⟩)

theorem paramsOf_eq {bs : List (List Node)} (h : bs ≠ [[]]) : paramsOf bs = bs := by
  unfold paramsOf
  split
  · exact absurd rfl h
  · rfl

/-- **Completeness.** What is derived, the parser of the form reads, and it leaves over what the derivation does. -/
theorem complete {n : Nat} {f : Form} {ts rest : List Token} {y : f.Yield} (limit : Nat)
    (h : Derives n f ts y rest) (c : Cursor) (hc : c.ahead = ts) :
    ∃ d, f.Reads (construct limit n) c y d ∧ d.ahead = rest := by
  induction h generalizing c with
  | blockEnd hs =>
    subst hc
    refine ⟨c, gives_block.2 ⟨[], many_stop (advances_fragment (construct_sound limit _)) ?_, rfl⟩, rfl⟩
    exact gives_fragment_none.2 ⟨startAt_eq_none_iff.2 hs, rfl⟩
  | blockMore _ _ h₁ h₂ =>
    obtain ⟨e, hf, he⟩ := h₁ c hc
    obtain ⟨d, hb, hd⟩ := h₂ e he
    exact ⟨d, gives_block.2 (reads_more (advances_fragment (construct_sound limit _)) hf (gives_block.1 hb)), hd⟩
  | text => exact ⟨c.next, gives_fragment_some.2 ⟨_, by rw [hc]; rfl, by simp⟩, c.next_ahead hc⟩
  | number =>
    exact ⟨c.next, gives_fragment_some.2 ⟨_, by rw [hc]; rfl, by simp⟩, c.next_ahead hc⟩
  | weight =>
    have hn := c.next_ahead hc
    refine ⟨c.next.next, gives_fragment_some.2 ⟨weight, by rw [hc]; rfl, ?_⟩, c.next.next_ahead hn⟩
    exact gives_weight.2 ⟨c.head?_ahead hc, Or.inl ⟨_, _, c.next.head?_ahead hn, rfl, rfl⟩⟩
  | colon hx =>
    refine ⟨c.next, gives_fragment_some.2 ⟨weight, by rw [hc]; rfl, ?_⟩, c.next_ahead hc⟩
    rw [← c.next_ahead hc] at hx
    exact gives_weight.2 ⟨c.head?_ahead hc, Or.inr ⟨numberAhead_eq_false_iff.1 hx, rfl, rfl⟩⟩
  | opened hk _ ih =>
    obtain ⟨d, hg, hd⟩ := ih c hc
    exact ⟨d, gives_fragment_some.2 ⟨_, startAt_of_opens (hc ▸ hk), hg⟩, hd⟩
  | list _ _ h₁ h₂ =>
    obtain ⟨e, hb, he⟩ := h₁ c hc
    obtain ⟨d, hes, hd⟩ := h₂ e he
    exact ⟨d, gives_blockList.2 ⟨_, e, _, hb, hes, rfl⟩, hd⟩
  | elementsEnd hx =>
    subst hc
    exact ⟨c, many_stop (advances_listElement (construct_sound limit _)) (gives_listElement_none.2 ⟨hx, rfl⟩), rfl⟩
  | elementsMore _ hn _ h₁ h₂ =>
    obtain ⟨e, hb, he⟩ := h₁ c.next (c.next_ahead hc)
    obtain ⟨d, hes, hd⟩ := h₂ e he
    have hg := gives_listElement_some.2 ⟨c.head?_ahead hc, hb, hn⟩
    exact ⟨d, many_more (advances_listElement (construct_sound limit _)) hg hes, hd⟩
  | headsEnd hx =>
    subst hc
    refine ⟨c, ⟨[], many_stop (advances_headTag (construct_sound limit _)) ?_, rfl⟩, rfl⟩
    exact gives_headTag_none.2 ⟨hx, rfl⟩
  | headsMore hd₁ _ h₁ h₂ =>
    obtain ⟨e, ht, he⟩ := h₁ c hc
    obtain ⟨d, hm, hd⟩ := h₂ e he
    have hx : c.ahead.head? = some (.mark .openSquare) := by
      rw [hc]
      cases hd₁
      rfl
    exact ⟨d, reads_more (advances_headTag (construct_sound limit _)) (gives_headTag_some.2 ⟨hx, ht⟩) hm, hd⟩
  | doubleHash => exact ⟨c.next, gives_ruleBody.2 (Or.inr (Or.inl ⟨c.head?_ahead hc, rfl, rfl⟩)), c.next_ahead hc⟩
  | loneHash => exact ⟨c, gives_ruleBody.2 (Or.inl ⟨hc, rfl, rfl⟩), hc⟩
  | @named _ name _ _ _ _ ih =>
    obtain ⟨f, hm, hf⟩ := ih c.next (c.next_ahead hc)
    have ho : Gives optionalText c (some name) c.next :=
      gives_optionalText.2 (Or.inl ⟨name, c.head?_ahead hc, rfl, rfl⟩)
    exact ⟨f.next, reads_reference hc (by simp) ho (hm _) hf, f.next_ahead hf⟩
  | unnamed _ ih =>
    obtain ⟨f, hm, hf⟩ := ih c hc
    have ho : Gives optionalText c none c := gives_optionalText.2 (Or.inr ⟨by simp [hc], rfl, rfl⟩)
    exact ⟨f.next, reads_reference hc (by simp) ho (hm _) hf, f.next_ahead hf⟩
  | modifiersEnd hx =>
    subst hc
    exact ⟨c, fun name => many_stop (advances_modifier (construct_sound limit _) name)
      (gives_modifier_none.2 ⟨hx, rfl⟩), rfl⟩
  | @modifiersMore _ name _ ps _ ms _ _ _ h₁ h₂ =>
    have hn := c.next_ahead hc
    obtain ⟨e, hp, he⟩ := h₁ c.next.next (c.next.next_ahead hn)
    obtain ⟨d, hm, hd⟩ := h₂ e he
    refine ⟨d, fun rule => many_more (advances_modifier (construct_sound limit _) rule) ?_ (hm rule), hd⟩
    exact gives_modifier_some.2 ⟨c.head?_ahead hc, c.next.head?_ahead hn, hp name⟩
  | noParams hx =>
    subst hc
    exact ⟨c, fun name => gives_params.2 (Or.inr ⟨hx, rfl, rfl⟩), rfl⟩
  | emptyParams _ ih =>
    obtain ⟨e, hl, he⟩ := ih c.next (c.next_ahead hc)
    exact ⟨e.next, reads_params hc hl he, e.next_ahead he⟩
  | params _ hb ih =>
    obtain ⟨e, hl, he⟩ := ih c.next (c.next_ahead hc)
    have hp := reads_params hc hl he
    rw [paramsOf_eq hb] at hp
    exact ⟨e.next, hp, e.next_ahead he⟩
  | itemsEnd hx =>
    subst hc
    refine ⟨c, ⟨[], many_stop (advances_tagItem (construct_sound limit _)) ?_, rfl⟩, rfl⟩
    exact gives_tagItem_none.2 ⟨hx, rfl⟩
  | itemsOpened hk _ _ h₁ h₂ =>
    obtain ⟨e, ht, he⟩ := h₁ c hc
    obtain ⟨d, hm, hd⟩ := h₂ e he
    refine ⟨d, reads_more (advances_tagItem (construct_sound limit _)) (gives_tagItem_some.2 ?_) hm, hd⟩
    subst hc
    rcases opensInTag_eq_some_iff.1 hk with ⟨hx, rfl⟩ | ⟨hx, rfl⟩
    · exact Or.inl ⟨hx, ht⟩
    · exact Or.inr (Or.inl ⟨hx, ht⟩)
  | itemsEntry _ hv _ h₁ h₂ =>
    have hn := c.next_ahead hc
    obtain ⟨e, hl, he⟩ := h₁ c.next.next (c.next.next_ahead hn)
    obtain ⟨d, hm, hd⟩ := h₂ e he
    have hg := gives_tagEntry.2 ⟨_, _, _, c.head?_ahead hc, c.next.head?_ahead hn, hl, hv, rfl⟩
    have hi := gives_tagItem_some.2 (Or.inr (Or.inr hg))
    exact ⟨d, reads_more (advances_tagItem (construct_sound limit _)) hi hm, hd⟩
  | plainCondition _ hx ih =>
    obtain ⟨e, hb, he⟩ := ih c hc
    exact ⟨e, gives_condition.2 ⟨_, e, hb, Or.inl ⟨he ▸ hx, rfl, rfl⟩⟩, he⟩
  | @condition _ _ _ t _ k _ _ _ hk _ hn h₁ h₂ =>
    obtain ⟨e, hb, he⟩ := h₁ c hc
    have hs := (gives_skip (c := e.next) (u := ()) (k := .space) rfl).2 rfl
    obtain ⟨d, hb', hd⟩ := h₂ _ ((ahead_skip hs).trans (by rw [e.next_ahead he]))
    have hx : e.ahead.head?.bind (Connective.ofKind? ·.kind) = some k := by rw [he]; exact hk
    exact ⟨d, gives_condition.2 ⟨_, e, hb, Or.inr ⟨k, _, _, hx, hs, hb', hn, rfl⟩⟩, hd⟩
  | rule _ _ h₁ h₂ =>
    obtain ⟨e, ⟨nss, hm, rfl⟩, he⟩ := h₁ (c.below.next) (c.below.next_ahead hc)
    obtain ⟨d, hb, hd⟩ := h₂ e he
    exact ⟨d.above, gives_construct.2 ⟨d, gives_rule.2 ⟨c.head?_ahead hc, nss, e, _, hm, hb, rfl⟩, rfl⟩, hd⟩
  | tag _ ih =>
    obtain ⟨e, ⟨nss, hm, rfl⟩, he⟩ := ih (c.below.next) (c.below.next_ahead hc)
    exact ⟨e.next.above, gives_construct.2 ⟨e.next, gives_tag.2 ⟨c.head?_ahead hc, nss, e, hm, e.head?_ahead he, rfl,
      rfl⟩, rfl⟩, e.next_ahead he⟩
  | ifThen _ _ ht h₁ h₂ =>
    obtain ⟨e, hh, he⟩ := reads_controlHead (c := c.below) hc h₁
    obtain ⟨f, hf, hfe⟩ := reads_filledBlock .thenWord ht (e.next_ahead he) h₂
    have hg := gives_ifBlock.2 ⟨_, e, _, f, hh, e.head?_ahead he, hf, Or.inr ⟨f.head?_ahead hfe, rfl, rfl⟩⟩
    exact ⟨f.next.above, gives_construct.2 ⟨f.next, hg, rfl⟩, f.next_ahead hfe⟩
  | ifThenElse _ _ ht _ hb h₁ h₂ h₃ =>
    obtain ⟨e, hh, he⟩ := reads_controlHead (c := c.below) hc h₁
    obtain ⟨f, hf, hfe⟩ := reads_filledBlock .thenWord ht (e.next_ahead he) h₂
    obtain ⟨g, hg, hge⟩ := reads_filledBlock .elseWord hb (f.next_ahead hfe) h₃
    have hg := gives_ifBlock.2 ⟨_, e, _, f, hh, e.head?_ahead he, hf,
      Or.inl ⟨f.head?_ahead hfe, _, g, hg, g.head?_ahead hge, rfl, rfl⟩⟩
    exact ⟨g.next.above, gives_construct.2 ⟨g.next, hg, rfl⟩, g.next_ahead hge⟩
  | whileDo _ _ hb h₁ h₂ =>
    obtain ⟨e, hh, he⟩ := reads_controlHead (c := c.below) hc h₁
    obtain ⟨f, hf, hfe⟩ := reads_filledBlock .doWord hb (e.next_ahead he) h₂
    have hg := gives_whileBlock.2 ⟨_, e, _, f, hh, e.head?_ahead he, hf, f.head?_ahead hfe, rfl, rfl⟩
    exact ⟨f.next.above, gives_construct.2 ⟨f.next, hg, rfl⟩, f.next_ahead hfe⟩

/-- the block in front of a list of tokens is one thing only, however deep it may be nested -/
theorem Derives.block_unique {n m : Nat} {ts rest rest' : List Token} {ns ms : List Node}
    (h₁ : Derives n .block ts ns rest) (h₂ : Derives m .block ts ms rest') : ns = ms ∧ rest = rest' := by
  obtain ⟨d, ⟨hn, hd⟩, rfl⟩ := complete 0 (h₁.mono (Nat.le_max_left n m)) (.start ts) rfl
  obtain ⟨e, ⟨hm, he⟩, rfl⟩ := complete 0 (h₂.mono (Nat.le_max_right n m)) (.start ts) rfl
  exact ⟨Except.ok.inj (hn.symm.trans hm), by rw [← hd, ← he]⟩

/-! ## Documents -/

theorem Document.of_nil {n : Nat} {ns : List Node} (h : Document n [] ns) : ns = [] := by
  cases h with
  | last h =>
    cases h with
    | blockEnd => rfl
    | blockMore h _ => exact absurd h.fragment_shortens (Nat.not_lt_zero _)
  | stray h _ => exact absurd h.suffix.length_le (Nat.not_succ_le_zero _)

theorem document_sound {limit : Nat} {nss : List (List Node)} (h : Gives (many (passage limit)) c nss d)
    (hc : c.depth = 0) : Document limit c.ahead nss.flatten := by
  revert hc
  refine many_induction (advances_passage limit) (M := fun c nss _ => c.depth = 0 → Document limit c.ahead nss.flatten)
    (fun c d h _ => ?_) (fun c ns e nss d h ih hc => ?_) h
  · obtain ⟨hc, -⟩ := gives_passage_none.1 h
    rw [hc]
    exact .last (.blockEnd rfl)
  · obtain ⟨-, ms, f, hb, hf⟩ := gives_passage_some.1 h
    rw [hc, Nat.sub_zero] at hb
    have hd := block_sound (construct_sound limit _) hb
    have hfd := ((orderly_block limit _).gives hb).depth_eq.trans hc
    rcases hf with ⟨hf, rfl, rfl⟩ | ⟨t, hf, rfl, rfl⟩
    · rw [hf] at hd
      have hn := ih hfd
      rw [hf] at hn
      rw [List.flatten_cons, hn.of_nil, List.append_nil]
      exact .last hd
    · rw [f.ahead_eq hf] at hd
      simpa using Document.stray hd (ih hfd)

theorem document_complete {limit : Nat} {ts : List Token} {ns : List Node} (h : Document limit ts ns)
    (hts : c.ahead = ts) (hc : c.depth = 0) : ∃ d nss, Gives (many (passage limit)) c nss d ∧ nss.flatten = ns := by
  induction h generalizing c with
  | @last ts ns h =>
    obtain ⟨d, hb, hd⟩ := complete limit h c hts
    have stop {e : Cursor} (he : e.ahead = []) := many_stop (advances_passage limit) (gives_passage_none.2 ⟨he, rfl⟩)
    by_cases hn : c.ahead = []
    · rw [← hts, hn] at h
      exact ⟨c, [], stop hn, (Document.last h).of_nil.symm⟩
    · have hp : Gives (passage limit) c (some ns) d :=
        gives_passage_some.2 ⟨hn, ns, d, by rwa [hc], Or.inl ⟨hd, rfl, rfl⟩⟩
      exact ⟨d, [ns], many_more (advances_passage limit) hp (stop hd), by simp⟩
  | @stray ts ns t rest ms h _ ih =>
    obtain ⟨e, hb, he⟩ := complete limit h c hts
    have hed := ((orderly_block limit _).gives hb).depth_eq.trans hc
    obtain ⟨d, nss, hm, rfl⟩ := ih (e.next_ahead he) hed
    have hn : c.ahead ≠ [] := by
      rintro hn
      have := h.suffix.length_le
      simp [← hts, hn] at this
    have hp : Gives (passage limit) c (some (ns ++ [.text t.rawText])) e.next :=
      gives_passage_some.2 ⟨hn, ns, e, by rwa [hc], Or.inr ⟨t, e.head?_ahead he, rfl, rfl⟩⟩
    exact ⟨d, _, many_more (advances_passage limit) hp hm, by simp⟩

theorem build_ok_iff {limit : Nat} {ts : List Token} {ns : List Node} :
    (build limit ts).result = .ok ns ↔ Document limit ts ns := by
  have hd : (build limit ts).result = .ok ns ↔ ∃ d, Gives (document limit) (.start ts) ns d :=
    ⟨fun h => ⟨_, h, rfl⟩, fun ⟨_, h, _⟩ => h⟩
  rw [hd]
  simp only [document, gives_bind, gives_pure]
  constructor
  · rintro ⟨d, nss, e, hm, rfl, rfl⟩
    exact document_sound hm rfl
  · intro h
    obtain ⟨d, nss, hm, rfl⟩ := document_complete (c := .start ts) h rfl rfl
    exact ⟨d, nss, d, hm, rfl, rfl⟩

/-- **The parser decides the grammar.** It accepts a token list if and only if the list is a document, it yields what
the document stands for, which is one thing only, and it fails with a parse error on every other list. -/
theorem build_decides_documents (limit : Nat) (ts : List Token) :
    (∀ ns, (build limit ts).result = .ok ns ↔ Document limit ts ns) ∧
      (∀ ms ns, Document limit ts ms → Document limit ts ns → ms = ns) ∧
      ((∃ e, (build limit ts).result = .error e) ↔ ∀ ns, ¬ Document limit ts ns) := by
  refine ⟨fun ns => build_ok_iff, fun ms ns hm hn => ?_, ?_⟩
  · have := (build_ok_iff.2 hm).symm.trans (build_ok_iff.2 hn)
    exact Except.ok.inj this
  · constructor
    · rintro ⟨e, he⟩ ns hn
      rw [build_ok_iff.2 hn] at he
      cases he
    · intro h
      cases hr : (build limit ts).result with
      | ok ns => exact absurd (build_ok_iff.1 hr) (h ns)
      | error e => exact ⟨e, rfl⟩

end TextGrammar
