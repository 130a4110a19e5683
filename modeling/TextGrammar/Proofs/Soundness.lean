/-
What a parser gives is derived.

One lemma for each parser over constructs that are sound (`Sound`), and `construct_sound` by induction on the levels
left. The lemmas `advances_*` come with them, since a repetition can be unrolled only where its rounds take tokens.
-/
import TextGrammar.Proofs.Grammar
import TextGrammar.Proofs.Outcome

namespace TextGrammar

open TextGrammar.Parser

variable {c d : Cursor}

/-! ## What starts a fragment -/

theorem startAt_of_opens {inner : Inner} {ts : List Token} {k : Construct} (h : opens ts = some k) :
    startAt inner ts = some (inner k) := by
  unfold opens at h
  split at h <;> cases h
  · rfl
  · rfl
  · rfl
  · unfold startAt
    split <;> simp_all

theorem isSome_startAt (inner : Inner) (ts : List Token) : (startAt inner ts).isSome = starts ts := by
  unfold startAt
  split <;> simp_all [starts, opens]

theorem startAt_eq_none_iff {inner : Inner} {ts : List Token} : startAt inner ts = none ↔ starts ts = false := by
  rw [← isSome_startAt inner, Option.isSome_eq_false_iff, Option.isNone_iff_eq_none]

/-- the parser that starts at some tokens is that of a construct, a weight, a text or a number -/
theorem startAt_cases {inner : Inner} {ts : List Token} {p : Parser (List Node)} (h : startAt inner ts = some p) :
    (∃ k, opens ts = some k ∧ p = inner k) ∨ (∃ us, ts = .mark .colon :: us ∧ p = weight) ∨
      (∃ s us, ts = .text s :: us ∧ p = (do advance; return [.text s])) ∨
      ∃ x s us, ts = .number x s :: us ∧ p = (do advance; return [.text (Token.rawText (.number x s))]) := by
  unfold startAt at h
  split at h <;> cases h
  · exact Or.inl ⟨_, rfl, rfl⟩
  · exact Or.inl ⟨_, rfl, rfl⟩
  · exact Or.inl ⟨_, rfl, rfl⟩
  · exact Or.inl ⟨.tag, by simp_all [opens], rfl⟩
  · exact Or.inr (Or.inl ⟨_, rfl, rfl⟩)
  · exact Or.inr (Or.inr (Or.inl ⟨_, _, rfl, rfl⟩))
  · exact Or.inr (Or.inr (Or.inr ⟨_, _, _, rfl, rfl⟩))

theorem numberAhead_eq_false_iff {ts : List Token} :
    numberAhead ts = false ↔ ∀ x s, ts.head? ≠ some (.number x s) := by
  cases ts with
  | nil => simp [numberAhead]
  | cons t ts => cases t <;> simp [numberAhead]

theorem opensInTag_eq_some_iff {ts : List Token} {k : Construct} :
    opensInTag ts = some k ↔
      ts.head? = some (.mark .hash) ∧ k = .rule ∨ ts.head? = some (.mark .openSquare) ∧ k = .tag := by
  cases ts with
  | nil => simp [opensInTag]
  | cons t ts =>
    cases t with
    | mark m => cases m <;> simp [opensInTag, eq_comm]
    | _ => simp [opensInTag]

theorem ahead_skip (h : Gives (skip .space) c () d) : d.ahead = afterSpace c.ahead := by
  obtain rfl := (gives_skip rfl).1 h
  unfold afterSpace
  split
  · rename_i hc
    obtain ⟨ts, hts⟩ := List.head?_eq_some_iff.1 hc
    rw [hts, Cursor.next_ahead hts]
  · rename_i hc
    split
    · rename_i ts hts
      exact absurd (Cursor.head?_ahead hts) hc
    · rfl

/-! ## Soundness -/

/-- parsers of constructs that give only what is derived -/
def Sound (n : Nat) (inner : Inner) : Prop :=
  ∀ k c ns d, Gives (inner k) c ns d → Derives n (.construct k) c.ahead ns d.ahead

theorem weight_sound {n : Nat} {ns : List Node} (h : Gives weight c ns d) : Derives n .fragment c.ahead ns d.ahead := by
  obtain ⟨hc, ⟨x, s, hx, rfl, rfl⟩ | ⟨hx, rfl, rfl⟩⟩ := gives_weight.1 h
  · rw [c.ahead_eq hc, c.next.ahead_eq hx]
    exact .weight
  · rw [c.ahead_eq hc]
    exact .colon (numberAhead_eq_false_iff.2 hx)

section

variable {n : Nat} {inner : Inner} {ns : List Node} (hi : Sound n inner)

include hi

theorem fragment_sound (h : Gives (fragment inner) c (some ns) d) : Derives n .fragment c.ahead ns d.ahead := by
  obtain ⟨p, hs, hp⟩ := gives_fragment_some.1 h
  rcases startAt_cases hs with ⟨k, hk, rfl⟩ | ⟨us, hc, rfl⟩ | ⟨s, us, hc, rfl⟩ | ⟨x, s, us, hc, rfl⟩
  · exact .opened hk (hi k c ns d hp)
  · exact weight_sound hp
  · rw [gives_advance_bind, gives_pure] at hp
    obtain ⟨rfl, rfl⟩ := hp
    rw [c.ahead_eq (Cursor.head?_ahead hc)]
    exact .text
  · rw [gives_advance_bind, gives_pure] at hp
    obtain ⟨rfl, rfl⟩ := hp
    rw [c.ahead_eq (Cursor.head?_ahead hc)]
    exact .number

theorem advances_fragment : Advances (fragment inner) :=
  advances_of_gives fun _ _ _ h => (fragment_sound hi h).fragment_shortens

theorem block_sound (h : Gives (block inner) c ns d) : Derives n .block c.ahead ns d.ahead := by
  obtain ⟨nss, hm, rfl⟩ := gives_block.1 h
  refine many_induction (advances_fragment hi) (M := fun c nss d => Derives n .block c.ahead nss.flatten d.ahead)
    (fun c d h => ?_) (fun c ns e nss d h ih => ?_) hm
  · obtain ⟨hs, rfl⟩ := gives_fragment_none.1 h
    exact .blockEnd (startAt_eq_none_iff.1 hs)
  · exact .blockMore (fragment_sound hi h) ih

theorem advances_listElement : Advances (listElement inner) := by
  refine advances_of_gives fun c ns d h => ?_
  obtain ⟨hc, hb, -⟩ := gives_listElement_some.1 h
  rw [c.ahead_eq hc]
  exact Nat.lt_succ_of_le (block_sound hi hb).suffix.length_le

theorem elements_sound {bs : List (List Node)} (h : Gives (many (listElement inner)) c bs d) :
    Derives n .elements c.ahead bs d.ahead := by
  refine many_induction (advances_listElement hi) (M := fun c bs d => Derives n .elements c.ahead bs d.ahead)
    (fun c d h => ?_) (fun c ns e bs d h ih => ?_) h
  · obtain ⟨hc, rfl⟩ := gives_listElement_none.1 h
    exact .elementsEnd hc
  · obtain ⟨hc, hb, hn⟩ := gives_listElement_some.1 h
    rw [c.ahead_eq hc]
    exact .elementsMore (block_sound hi hb) hn ih

theorem blockList_sound {bs : List (List Node)} (h : Gives (blockList inner) c bs d) :
    Derives n .list c.ahead bs d.ahead := by
  obtain ⟨b, e, es, hb, he, rfl⟩ := gives_blockList.1 h
  exact .list (block_sound hi hb) (elements_sound hi he)

theorem params_sound {name : String} {ps : List (List Node)} (h : Gives (params inner name) c ps d) :
    Derives n .params c.ahead ps d.ahead := by
  rcases gives_params.1 h with ⟨hc, bs, e, hb, he, rfl, rfl⟩ | ⟨hc, rfl, rfl⟩
  · have hl := blockList_sound hi hb
    rw [e.ahead_eq he] at hl
    rw [c.ahead_eq hc]
    unfold paramsOf
    split
    · exact .emptyParams hl
    · rename_i hbs
      exact .params hl hbs
  · exact .noParams hc

theorem advances_modifier (name : String) : Advances (modifier inner name) := by
  refine advances_of_gives fun c m d h => ?_
  obtain ⟨hc, hn, hp⟩ := gives_modifier_some.1 h
  rw [c.ahead_eq hc, c.next.ahead_eq hn]
  have := (params_sound hi hp).suffix.length_le
  simp only [List.length_cons]
  omega

theorem modifiers_sound {name : String} {ms : List (Modifier Node)}
    (h : Gives (many (modifier inner name)) c ms d) : Derives n .modifiers c.ahead ms d.ahead := by
  refine many_induction (advances_modifier hi name) (M := fun c ms d => Derives n .modifiers c.ahead ms d.ahead)
    (fun c d h => ?_) (fun c m e ms d h ih => ?_) h
  · obtain ⟨hc, rfl⟩ := gives_modifier_none.1 h
    exact .modifiersEnd hc
  · obtain ⟨hc, hn, hp⟩ := gives_modifier_some.1 h
    rw [c.ahead_eq hc, c.next.ahead_eq hn]
    exact .modifiersMore (params_sound hi hp) ih

theorem advances_headTag : Advances (headTag inner) := by
  refine advances_of_gives fun c ns d h => ?_
  exact (hi _ _ _ _ (gives_headTag_some.1 h).2).construct_shortens

theorem heads_sound {nss : List (List Node)} (h : Gives (many (headTag inner)) c nss d) :
    Derives n .heads c.ahead nss.flatten d.ahead := by
  refine many_induction (advances_headTag hi) (M := fun c nss d => Derives n .heads c.ahead nss.flatten d.ahead)
    (fun c d h => ?_) (fun c ns e nss d h ih => ?_) h
  · obtain ⟨hc, rfl⟩ := gives_headTag_none.1 h
    exact .headsEnd hc
  · exact .headsMore (hi _ _ _ _ (gives_headTag_some.1 h).2) ih

theorem ruleReference_sound (h : Gives (ruleReference inner) c ns d) (hc : c.ahead.head? ≠ some (.mark .hash)) :
    Derives n .reference c.ahead ns d.ahead := by
  obtain ⟨o, e, ms, f, ho, hm, hf, rfl, rfl⟩ := gives_ruleReference.1 h
  have hms := modifiers_sound hi hm
  rw [f.ahead_eq hf] at hms
  rcases gives_optionalText.1 ho with ⟨s, hs, rfl, rfl⟩ | ⟨hs, rfl, rfl⟩
  · rw [c.ahead_eq hs]
    exact .named hms
  · -- without a name there is a dot ahead, since the modifiers do not start at the closing hash
    generalize c.ahead = ts at *
    cases hms with
    | modifiersEnd h => exact absurd rfl hc
    | modifiersMore hp hm => exact .unnamed (.modifiersMore hp hm)

theorem ruleBody_sound (h : Gives (ruleBody inner) c ns d) : Derives n .reference c.ahead ns d.ahead := by
  rcases gives_ruleBody.1 h with ⟨hc, rfl, rfl⟩ | ⟨hc, rfl, rfl⟩ | ⟨-, hc, h⟩
  · rw [hc]
    exact .loneHash
  · rw [c.ahead_eq hc]
    exact .doubleHash
  · exact ruleReference_sound hi h hc

theorem rule_sound (h : Gives (rule inner) c ns d) : Derives (n + 1) (.construct .rule) c.ahead ns d.ahead := by
  obtain ⟨hc, tags, e, ms, ht, hb, rfl⟩ := gives_rule.1 h
  rw [c.ahead_eq hc]
  exact .rule (heads_sound hi ht) (ruleBody_sound hi hb)

theorem tagEntry_sound (h : Gives (tagEntry inner) c ns d) :
    ∃ name ts v vs, c.ahead = .text name :: .mark .colon :: ts ∧ Derives n .list ts (v :: vs) d.ahead ∧ v ≠ [] ∧
      ns = [.tag name (v :: vs)] := by
  obtain ⟨name, v, vs, hc, hn, hl, hv, rfl⟩ := gives_tagEntry.1 h
  exact ⟨name, _, v, vs, by rw [c.ahead_eq hc, c.next.ahead_eq hn], blockList_sound hi hl, hv, rfl⟩

theorem advances_tagItem : Advances (tagItem inner) := by
  refine advances_of_gives fun c ns d h => ?_
  rcases gives_tagItem_some.1 h with ⟨-, h⟩ | ⟨-, h⟩ | h
  · exact (hi _ _ _ _ h).construct_shortens
  · exact (hi _ _ _ _ h).construct_shortens
  · obtain ⟨name, ts, v, vs, hc, hl, -, -⟩ := tagEntry_sound hi h
    have := hl.suffix.length_le
    rw [hc]
    simp only [List.length_cons]
    omega

theorem items_sound {nss : List (List Node)} (h : Gives (many (tagItem inner)) c nss d) :
    Derives n .items c.ahead nss.flatten d.ahead := by
  refine many_induction (advances_tagItem hi) (M := fun c nss d => Derives n .items c.ahead nss.flatten d.ahead)
    (fun c d h => ?_) (fun c ns e nss d h ih => ?_) h
  · obtain ⟨hc, rfl⟩ := gives_tagItem_none.1 h
    exact .itemsEnd hc
  · rcases gives_tagItem_some.1 h with ⟨hc, h⟩ | ⟨hc, h⟩ | h
    · exact .itemsOpened (opensInTag_eq_some_iff.2 (Or.inl ⟨hc, rfl⟩)) (hi _ _ _ _ h) ih
    · exact .itemsOpened (opensInTag_eq_some_iff.2 (Or.inr ⟨hc, rfl⟩)) (hi _ _ _ _ h) ih
    · obtain ⟨name, ts, v, vs, hc, hl, hv, rfl⟩ := tagEntry_sound hi h
      rw [hc]
      exact .itemsEntry hl hv ih

theorem tag_sound (h : Gives (tag inner) c ns d) : Derives (n + 1) (.construct .tag) c.ahead ns d.ahead := by
  obtain ⟨hc, items, e, hm, he, rfl, rfl⟩ := gives_tag.1 h
  have hit := items_sound hi hm
  rw [e.ahead_eq he] at hit
  rw [c.ahead_eq hc]
  exact .tag hit

theorem condition_sound {r : Condition Node} (h : Gives (condition inner) c r d) :
    Derives n .condition c.ahead r d.ahead := by
  obtain ⟨lhs, e, hl, ⟨he, rfl, rfl⟩ | ⟨k, f, rhs, he, hs, hr, hn, rfl⟩⟩ := gives_condition.1 h
  · exact .plainCondition (block_sound hi hl) he
  · obtain ⟨t, ht, hk⟩ := Option.bind_eq_some_iff.1 he
    have hb := block_sound hi hl
    have hb' := block_sound hi hr
    rw [e.ahead_eq ht] at hb
    rw [ahead_skip hs] at hb'
    exact .condition hb hk hb' hn

theorem controlHead_sound {k : Keyword} {r : Condition Node} (h : Gives (controlHead inner k) c r d) :
    ∃ ts, c.ahead = .mark .openSquare :: .keyword k :: .space :: ts ∧ Derives n .condition ts r d.ahead := by
  obtain ⟨h₁, h₂, h₃, h⟩ := gives_controlHead.1 h
  exact ⟨_, by rw [c.ahead_eq h₁, c.next.ahead_eq h₂, c.next.next.ahead_eq h₃], condition_sound hi h⟩

theorem filledBlock_sound {k : Keyword} (h : Gives (filledBlock inner k) c ns d) :
    ∃ ts, c.ahead = .space :: ts ∧ Derives n .block ts ns d.ahead ∧ ns ≠ [] := by
  obtain ⟨hc, hb, hn⟩ := gives_filledBlock.1 h
  exact ⟨_, c.ahead_eq hc, block_sound hi hb, hn⟩

theorem ifBlock_sound (h : Gives (ifBlock inner) c ns d) :
    Derives (n + 1) (.construct .ifBlock) c.ahead ns d.ahead := by
  obtain ⟨r, e, t, f, hh, he, ht, h⟩ := gives_ifBlock.1 h
  obtain ⟨ts, hts, hr⟩ := controlHead_sound hi hh
  obtain ⟨us, hus, ht, htn⟩ := filledBlock_sound hi ht
  rw [e.ahead_eq he, hus] at hr
  rw [hts]
  rcases h with ⟨hf, b, g, hb, hg, rfl, rfl⟩ | ⟨hf, rfl, rfl⟩
  · obtain ⟨vs, hvs, hb, hbn⟩ := filledBlock_sound hi hb
    rw [f.ahead_eq hf, hvs] at ht
    rw [g.ahead_eq hg] at hb
    exact .ifThenElse hr ht htn hb hbn
  · rw [f.ahead_eq hf] at ht
    exact .ifThen hr ht htn

theorem whileBlock_sound (h : Gives (whileBlock inner) c ns d) :
    Derives (n + 1) (.construct .whileBlock) c.ahead ns d.ahead := by
  obtain ⟨r, e, b, f, hh, he, hb, hf, rfl, rfl⟩ := gives_whileBlock.1 h
  obtain ⟨ts, hts, hr⟩ := controlHead_sound hi hh
  obtain ⟨us, hus, hb, hbn⟩ := filledBlock_sound hi hb
  rw [e.ahead_eq he, hus] at hr
  rw [f.ahead_eq hf] at hb
  rw [hts]
  exact .whileDo hr hb hbn

theorem body_sound {k : Construct} (h : Gives (k.body inner) c ns d) :
    Derives (n + 1) (.construct k) c.ahead ns d.ahead := by
  cases k with
  | rule => exact rule_sound hi h
  | tag => exact tag_sound hi h
  | ifBlock => exact ifBlock_sound hi h
  | whileBlock => exact whileBlock_sound hi h

end

/-- **Soundness.** A construct gives only what is derived, nested no deeper than the levels it was given. -/
theorem construct_sound (limit levels : Nat) : Sound levels (construct limit levels) := by
  induction levels with
  | zero => exact fun k c ns d h => absurd h gives_fail
  | succ levels ih =>
    intro k c ns d h
    obtain ⟨e, hb, rfl⟩ := gives_deeper.1 h
    exact body_sound (c := c.below) (d := e) ih hb

end TextGrammar
