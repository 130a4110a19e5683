/-
What control brackets hold.

A block that has nodes when it is checked may lose its only one when its final space is dropped. So the block behind
`then` may come out empty where there is an `else`, and so may the right-hand side of a condition. This happens at a
gap: nothing but one blank token, and square brackets in pairs, which yield no nodes, between `then` and `else` or
between a connective and what follows the condition.

- `Gap ts`: such a gap begins at the head of `ts`. It is a property of the tokens alone.
- `Clean ts rest`: no gap begins in the part of `ts` in front of `rest`.

Results:
- `dropFinalSpace_block_eq_nil_iff`: the block in front of a token comes out empty if and only if nothing but a gap is
  there;
- `Derives.filled_iff`: the control nodes that a form yields are filled if and only if what it takes is clean, by
  induction on the derivation;
- `filled_iff_no_gap`: so the control nodes of a source that parses are filled if and only if there is no gap in it.
-/
import TextGrammar.Proofs.Brackets
import TextGrammar.Proofs.WellFormed

namespace TextGrammar

open Node

/-! ## Filled nodes -/

/-- the right-hand side of the condition and every block of a control node have nodes -/
def Node.Filled : Node → Prop
  | .ifBlock c t none => c.rhs ≠ [] ∧ t ≠ []
  | .ifBlock c t (some e) => c.rhs ≠ [] ∧ t ≠ [] ∧ e ≠ []
  | .whileBlock c d => c.rhs ≠ [] ∧ d ≠ []
  | _ => True

/-- every node in a block is filled -/
def AllFilled (ns : List Node) : Prop :=
  ∀ n ∈ nodesIn ns, n.Filled

section

variable {n : Node} {ns ms : List Node}

theorem allFilled_nil : AllFilled [] :=
  fun _ h => absurd h List.not_mem_nil

theorem allFilled_singleton : AllFilled [n] ↔ n.Filled ∧ ∀ b ∈ n.blocks, AllFilled b :=
  forall_nodesIn_cons.trans (and_iff_left allFilled_nil)

theorem allFilled_append : AllFilled (ms ++ ns) ↔ AllFilled ms ∧ AllFilled ns :=
  forall_nodesIn_append

theorem allFilled_dropFinalSpace : AllFilled (dropFinalSpace ns) ↔ AllFilled ns :=
  forall_nodesIn_dropFinalSpace fun _ => trivial

theorem allFilled_text {s : String} : AllFilled [.text s] :=
  List.forall_mem_singleton.2 trivial

theorem allFilled_weight {v : Float} : AllFilled [.weight v] :=
  List.forall_mem_singleton.2 trivial

end

/-! ## Gaps -/

/-- square brackets that open and close in pairs -/
inductive Paired : List Token → Prop where
  | nil : Paired []
  | pair {ts us} : Paired ts → Paired us → Paired (.mark .openSquare :: (ts ++ .mark .closeSquare :: us))

/-- a text or a number that is written as one space -/
def Token.Blank (t : Token) : Prop :=
  (t.kind = .text ∨ t.kind = .number) ∧ t.rawText = " "

/-- one blank token, and square brackets in pairs around it -/
def JustSpace (ts : List Token) : Prop :=
  ∃ p t q, ts = p ++ t :: q ∧ Paired p ∧ t.Blank ∧ Paired q

/-- a gap begins at the head: `then` with just a space in front of `else`, or a connective with just a space in front of
`then` or `do` -/
def Gap : List Token → Prop
  | .keyword .thenWord :: .space :: ts => ∃ seg rest, ts = seg ++ .keyword .elseWord :: rest ∧ JustSpace seg
  | t :: ts => (Connective.ofKind? t.kind).isSome ∧
      ∃ seg w rest, afterSpace ts = seg ++ .keyword w :: rest ∧ (w = .thenWord ∨ w = .doWord) ∧ JustSpace seg
  | [] => False

/-- `then` and the connectives -/
def Token.opensGap (t : Token) : Bool :=
  t.kind = .keyword .thenWord || (Connective.ofKind? t.kind).isSome

/-- no gap begins in front of `rest` -/
def Clean (ts rest : List Token) : Prop :=
  ∀ us, us <:+ ts → rest.length < us.length → ¬ Gap us

section

variable {t : Token} {ts mid rest : List Token}

theorem clean_refl (ts : List Token) : Clean ts ts := by
  intro us hu hl
  exact absurd hu.length_le (Nat.not_le_of_lt hl)

theorem clean_trans (h₁ : mid <:+ ts) (h₂ : rest <:+ mid) : Clean ts rest ↔ Clean ts mid ∧ Clean mid rest := by
  constructor
  · intro h
    constructor
    · intro us hu hl
      exact h us hu (Nat.lt_of_le_of_lt h₂.length_le hl)
    · intro us hu hl
      exact h us (hu.trans h₁) hl
  · rintro ⟨h, h'⟩ us hu hl
    by_cases hm : mid.length < us.length
    · exact h us hu hm
    · exact h' us (List.suffix_of_suffix_length_le hu h₁ (Nat.le_of_not_lt hm)) hl

theorem clean_cons (h : rest <:+ ts) : Clean (t :: ts) rest ↔ ¬ Gap (t :: ts) ∧ Clean ts rest := by
  have head : Clean (t :: ts) ts ↔ ¬ Gap (t :: ts) := by
    constructor
    · intro h
      exact h _ (List.suffix_refl _) (Nat.lt_succ_self _)
    · intro h us hu hl
      rwa [hu.eq_of_length_le hl]
  rw [clean_trans (List.suffix_cons t ts) h, head]

theorem opensGap_of_gap (h : Gap (t :: ts)) : t.opensGap = true := by
  unfold Gap at h
  split at h
  · rename_i he
    rw [(List.cons.inj he).1]
    rfl
  · rename_i he
    rw [(List.cons.inj he).1, Token.opensGap, h.1, Bool.or_true]
  · exact h.elim

theorem not_gap (ht : t.opensGap = false) : ¬ Gap (t :: ts) := by
  intro h
  rw [opensGap_of_gap h] at ht
  cases ht

/-- tokens at which no gap begins make no difference -/
theorem clean_cons_iff (ht : t.opensGap = false) (h : rest <:+ ts) : Clean (t :: ts) rest ↔ Clean ts rest :=
  (clean_cons h).trans (and_iff_right (not_gap ht))

theorem clean_skip (ht : t.opensGap = false) : Clean (t :: ts) ts :=
  (clean_cons_iff ht (List.suffix_refl _)).2 (clean_refl ts)

theorem clean_end_iff (ht : t.opensGap = false) (h : t :: rest <:+ ts) : Clean ts rest ↔ Clean ts (t :: rest) :=
  (clean_trans h (List.suffix_cons t rest)).trans (and_iff_left (clean_skip ht))

/-- the parts of a control bracket: its condition, the word behind that, and the rest of it -/
theorem clean_control {w w' : Keyword} (hw : (Token.keyword w).opensGap = false)
    (h : .keyword w' :: .space :: mid <:+ ts) (hr : rest <:+ mid) :
    Clean (.mark .openSquare :: .keyword w :: .space :: ts) rest ↔
      Clean ts (.keyword w' :: .space :: mid) ∧ ¬ Gap (.keyword w' :: .space :: mid) ∧ Clean mid rest := by
  have hm : rest <:+ .keyword w' :: .space :: mid := suffix_skip (suffix_skip hr)
  have hts : rest <:+ ts := hm.trans h
  calc Clean (.mark .openSquare :: .keyword w :: .space :: ts) rest
      ↔ Clean ts rest := by
        rw [clean_cons_iff rfl (suffix_skip (suffix_skip hts)), clean_cons_iff hw (suffix_skip hts),
          clean_cons_iff rfl hts]
    _ ↔ Clean ts (.keyword w' :: .space :: mid) ∧ Clean (.keyword w' :: .space :: mid) rest := clean_trans h hm
    _ ↔ Clean ts (.keyword w' :: .space :: mid) ∧ ¬ Gap (.keyword w' :: .space :: mid) ∧ Clean mid rest := by
        rw [clean_cons (suffix_skip hr), clean_cons_iff rfl hr]

theorem clean_afterSpace (h : rest <:+ afterSpace ts) : Clean ts rest ↔ Clean (afterSpace ts) rest := by
  unfold afterSpace at h ⊢
  split at h
  · exact clean_cons_iff rfl h
  · rfl

end

/-! ## Blocks of next to nothing -/

theorem Paired.append {ts us : List Token} (h : Paired ts) (hu : Paired us) : Paired (ts ++ us) := by
  induction h with
  | nil => exact hu
  | pair h₁ _ _ ih => simpa using Paired.pair h₁ ih

/-- what stands in front of `rest` -/
def Spans (p : List Token → Prop) (ts rest : List Token) : Prop :=
  ∃ seg, ts = seg ++ rest ∧ p seg

/-- what a form has taken that yields nothing, or a space; the forms inside of constructs never yield one -/
def Form.Traces (ts rest : List Token) : (f : Form) → f.Yield → Prop
  | .block, ns | .fragment, ns => (ns = [] → Spans Paired ts rest) ∧ (ns = [.text " "] → Spans JustSpace ts rest)
  | .construct _, ns | .items, ns => (ns = [] → Spans Paired ts rest) ∧ .text " " ∉ ns
  | .heads, ns => .text " " ∉ ns
  | .reference, ns => ns ≠ [] ∧ .text " " ∉ ns
  | _, _ => True

theorem Spans.paired {ts mid rest : List Token} (h₁ : Spans Paired ts mid) (h₂ : Spans Paired mid rest) :
    Spans Paired ts rest := by
  obtain ⟨p, rfl, hp⟩ := h₁
  obtain ⟨q, rfl, hq⟩ := h₂
  exact ⟨p ++ q, by rw [List.append_assoc], hp.append hq⟩

theorem Spans.paired_justSpace {ts mid rest : List Token} (h₁ : Spans Paired ts mid) (h₂ : Spans JustSpace mid rest) :
    Spans JustSpace ts rest := by
  obtain ⟨p, rfl, hp⟩ := h₁
  obtain ⟨_, rfl, q, t, r, rfl, hq, ht, hr⟩ := h₂
  exact ⟨p ++ (q ++ t :: r), by simp, p ++ q, t, r, by simp, hp.append hq, ht, hr⟩

theorem Spans.justSpace_paired {ts mid rest : List Token} (h₁ : Spans JustSpace ts mid) (h₂ : Spans Paired mid rest) :
    Spans JustSpace ts rest := by
  obtain ⟨_, rfl, p, t, q, rfl, hp, ht, hq⟩ := h₁
  obtain ⟨r, rfl, hr⟩ := h₂
  exact ⟨p ++ t :: q ++ r, by simp, p, t, q ++ r, by simp, hp, ht, hq.append hr⟩

theorem Token.Blank.spans {t : Token} (h : t.Blank) (ts : List Token) : Spans JustSpace (t :: ts) ts :=
  ⟨[t], rfl, [], t, [], rfl, .nil, h, .nil⟩

/-- a form that yields nothing has taken pairs of brackets, and a block that is a space one blank token as well -/
theorem Derives.traces {n : Nat} {f : Form} {ts rest : List Token} {y : f.Yield} (h : Derives n f ts y rest) :
    f.Traces ts rest y := by
  induction h with
  | blockEnd => exact ⟨fun _ => ⟨[], rfl, .nil⟩, fun h => by simp at h⟩
  | blockMore _ _ h₁ h₂ =>
    refine ⟨fun h => ?_, fun h => ?_⟩
    · obtain ⟨hn, hm⟩ := List.append_eq_nil_iff.1 h
      exact (h₁.1 hn).paired (h₂.1 hm)
    · rcases List.append_eq_singleton_iff.1 h with ⟨hn, hm⟩ | ⟨hn, hm⟩
      · exact (h₁.1 hn).paired_justSpace (h₂.2 hm)
      · exact (h₁.2 hn).justSpace_paired (h₂.1 hm)
  | @text _ s ts =>
    refine ⟨fun h => by simp at h, fun h => Token.Blank.spans ⟨Or.inl rfl, ?_⟩ ts⟩
    simpa [Token.rawText] using h
  | @number _ x s ts =>
    refine ⟨fun h => by simp at h, fun h => Token.Blank.spans ⟨Or.inr rfl, ?_⟩ ts⟩
    simpa using h
  | weight => exact ⟨fun h => by simp at h, fun h => by simp at h⟩
  | colon => exact ⟨fun h => by simp at h, fun h => by simp at h⟩
  | opened _ _ ih => exact ⟨ih.1, fun h => absurd (h ▸ List.mem_singleton_self _) ih.2⟩
  | list | elementsEnd | elementsMore | modifiersEnd | modifiersMore | noParams | emptyParams | params
  | plainCondition | condition => trivial
  | headsEnd => exact List.not_mem_nil
  | headsMore _ _ h₁ h₂ => exact fun h => (List.mem_append.1 h).elim h₁.2 h₂
  | doubleHash | loneHash | named | unnamed => exact ⟨List.cons_ne_nil _ _, by simp⟩
  | itemsEnd => exact ⟨fun _ => ⟨[], rfl, .nil⟩, List.not_mem_nil⟩
  | itemsOpened _ _ _ h₁ h₂ =>
    refine ⟨fun h => ?_, fun h => (List.mem_append.1 h).elim h₁.2 h₂.2⟩
    obtain ⟨hn, hm⟩ := List.append_eq_nil_iff.1 h
    exact (h₁.1 hn).paired (h₂.1 hm)
  | itemsEntry _ _ _ _ h₂ => exact ⟨fun h => by simp at h, by simpa using h₂.2⟩
  | rule _ _ h₁ h₂ =>
    exact ⟨fun h => absurd (List.append_eq_nil_iff.1 h).2 h₂.1, fun h => (List.mem_append.1 h).elim h₁ h₂.2⟩
  | tag _ ih =>
    refine ⟨fun h => ?_, ih.2⟩
    obtain ⟨p, rfl, hp⟩ := ih.1 h
    exact ⟨_, by simp, Paired.pair hp .nil⟩
  | ifThen | ifThenElse | whileDo => exact ⟨fun h => by simp at h, by simp⟩

/-- pairs of brackets in front of the items of a tag or of a block add nothing -/
theorem Paired.derives {p : List Token} (hp : Paired p) {m : Nat} (hm : p.length ≤ m) {ts rest : List Token}
    {ns : List Node} : (Derives m .items ts ns rest → Derives m .items (p ++ ts) ns rest) ∧
      (Derives m .block ts ns rest → Derives m .block (p ++ ts) ns rest) := by
  induction hp generalizing m ts rest ns with
  | nil => exact ⟨id, id⟩
  | @pair us vs _ _ h₁ h₂ =>
    simp only [List.length_cons, List.length_append] at hm
    obtain ⟨k, rfl⟩ := Nat.exists_eq_add_of_le' (show 1 ≤ m by omega)
    have tag (xs : List Token) :
        Derives (k + 1) (.construct .tag) (.mark .openSquare :: (us ++ .mark .closeSquare :: xs)) [] xs :=
      .tag ((h₁ (by omega)).1 (.itemsEnd (by simp)))
    simp only [List.cons_append, List.append_assoc]
    refine ⟨fun h => ?_, fun h => ?_⟩
    · exact .itemsOpened rfl (tag _) ((h₂ (by omega)).1 h)
    · refine .blockMore (.opened ?_ (tag _)) ((h₂ (by omega)).2 h)
      -- an opening bracket is followed by another one or by the one that closes it
      cases ‹Paired us› <;> rfl

theorem Token.Blank.derives {t : Token} (h : t.Blank) (n : Nat) (ts : List Token) :
    Derives n .fragment (t :: ts) [.text " "] ts := by
  obtain ⟨hk, hr⟩ := h
  cases t with
  | text s =>
    obtain rfl : s = " " := hr
    exact .text
  | number x s =>
    rw [← hr]
    exact .number
  | _ => simp [Token.kind] at hk

/-- just a space is read as a space -/
theorem JustSpace.derives {seg rest : List Token} (h : JustSpace seg) (hr : starts rest = false) :
    Derives seg.length .block (seg ++ rest) [.text " "] rest := by
  obtain ⟨p, t, q, rfl, hp, ht, hq⟩ := h
  simp only [List.append_assoc, List.cons_append]
  have hq := (hq.derives (m := (p ++ t :: q).length) (by simp; omega)).2 (.blockEnd hr)
  exact (hp.derives (by simp)).2 (.blockMore (ht.derives _ _) hq)

/-- a block that has nodes loses all of them if and only if just a space stands in front of what it leaves over -/
theorem dropFinalSpace_block_eq_nil_iff {n : Nat} {ts rest : List Token} {ns : List Node}
    (h : Derives n .block ts ns rest) (hn : ns ≠ []) :
    dropFinalSpace ns = [] ↔ ∃ seg, ts = seg ++ rest ∧ JustSpace seg := by
  rw [dropFinalSpace_eq_nil_iff, or_iff_right hn]
  constructor
  · exact h.traces.2
  · rintro ⟨seg, rfl, hs⟩
    exact (h.block_unique (hs.derives (h.starts_rest rfl))).1

/-! ## Gaps and blocks -/

section

variable {n : Nat} {ts rest : List Token} {ns : List Node}

/-- just a space in front of a token that ends a block, where the block is read -/
theorem exists_justSpace_iff (h : Derives n .block ts ns rest) (p : Keyword → Prop) :
    (∃ seg w us, ts = seg ++ .keyword w :: us ∧ p w ∧ JustSpace seg) ↔
      (∃ seg, ts = seg ++ rest ∧ JustSpace seg) ∧ ∃ w us, rest = .keyword w :: us ∧ p w := by
  constructor
  · rintro ⟨seg, w, us, rfl, hw, hs⟩
    obtain ⟨-, rfl⟩ := h.block_unique (hs.derives rfl)
    exact ⟨⟨seg, rfl, hs⟩, w, us, rfl, hw⟩
  · rintro ⟨⟨seg, rfl, hs⟩, w, us, rfl, hw⟩
    exact ⟨seg, w, us, rfl, hw, hs⟩

/-- no gap begins at `then` where the block suffix_drop it does not end in `else` -/
theorem not_gap_then (h : Derives n .block ts ns (.mark .closeSquare :: rest)) :
    ¬ Gap (.keyword .thenWord :: .space :: ts) := by
  rintro ⟨seg, us, hts, hs⟩
  obtain ⟨-, w, vs, hr, -⟩ := (exists_justSpace_iff h (· = .elseWord)).1 ⟨seg, _, us, hts, rfl, hs⟩
  simp at hr

/-- a gap begins at `then` if and only if the block up to `else` comes out empty -/
theorem gap_then_iff (h : Derives n .block ts ns (.keyword .elseWord :: rest)) (hn : ns ≠ []) :
    Gap (.keyword .thenWord :: .space :: ts) ↔ dropFinalSpace ns = [] := by
  rw [dropFinalSpace_block_eq_nil_iff h hn]
  constructor
  · rintro ⟨seg, us, hts, hs⟩
    exact ((exists_justSpace_iff h (· = .elseWord)).1 ⟨seg, _, us, hts, rfl, hs⟩).1
  · rintro ⟨seg, hts, hs⟩
    exact ⟨seg, rest, hts, hs⟩

/-- a gap begins at a connective if and only if the right-hand side suffix_drop it comes out empty -/
theorem gap_connective_iff {t : Token} {c : Connective} {w : Keyword} (hc : Connective.ofKind? t.kind = some c)
    (hw : w = .thenWord ∨ w = .doWord) (h : Derives n .block (afterSpace ts) ns (.keyword w :: rest)) (hn : ns ≠ []) :
    Gap (t :: ts) ↔ dropFinalSpace ns = [] := by
  have hg : Gap (t :: ts) ↔ ∃ seg w us, afterSpace ts = seg ++ .keyword w :: us ∧
      (w = .thenWord ∨ w = .doWord) ∧ JustSpace seg := by
    cases t with
    | keyword k => cases k <;> simp_all [Gap, Token.kind, Connective.ofKind?]
    | operator o => simp [Gap, Token.kind, Connective.ofKind?]
    | _ => simp [Token.kind, Connective.ofKind?] at hc
  rw [hg, exists_justSpace_iff h, dropFinalSpace_block_eq_nil_iff h hn]
  exact and_iff_left ⟨w, rest, rfl, hw⟩

end

/-! ## Filled nodes and clean tokens -/

section

variable {c : Condition Node} {t e d : List Node} {vs : List (List Node)} {ms : List (Modifier Node)} {name : String}

theorem allFilled_rule : AllFilled [.rule name ms] ↔ ∀ m ∈ ms, ∀ b ∈ m.params, AllFilled b := by
  simp only [allFilled_singleton, Filled, blocks, true_and, List.mem_flatMap, forall_exists_index, and_imp]
  exact ⟨fun h m hm b hb => h b m hm hb, fun h b m hm hb => h m hm b hb⟩

theorem allFilled_tag : AllFilled [.tag name vs] ↔ ∀ v ∈ vs, AllFilled v := by
  simp only [allFilled_singleton, Filled, blocks, true_and]

theorem allFilled_ifThen (ht : t ≠ []) :
    AllFilled [.ifBlock c t none] ↔ (c.rhs ≠ [] ∧ AllFilled c.lhs ∧ AllFilled c.rhs) ∧ AllFilled t := by
  simp only [allFilled_singleton, Filled, blocks, List.forall_mem_cons, List.not_mem_nil, false_imp_iff, implies_true,
    and_true, and_iff_left ht, and_assoc]

theorem allFilled_ifThenElse (he : e ≠ []) :
    AllFilled [.ifBlock c t (some e)] ↔
      (c.rhs ≠ [] ∧ AllFilled c.lhs ∧ AllFilled c.rhs) ∧ t ≠ [] ∧ AllFilled t ∧ AllFilled e := by
  simp only [allFilled_singleton, Filled, blocks, List.forall_mem_cons, List.not_mem_nil, false_imp_iff, implies_true,
    and_true, and_iff_left he]
  constructor
  · rintro ⟨⟨hn, htn⟩, hl, hr, hb⟩
    exact ⟨⟨hn, hl, hr⟩, htn, hb⟩
  · rintro ⟨⟨hn, hl, hr⟩, htn, hb⟩
    exact ⟨⟨hn, htn⟩, hl, hr, hb⟩

theorem allFilled_whileDo (hd : d ≠ []) :
    AllFilled [.whileBlock c d] ↔ (c.rhs ≠ [] ∧ AllFilled c.lhs ∧ AllFilled c.rhs) ∧ AllFilled d := by
  simp only [allFilled_singleton, Filled, blocks, List.forall_mem_cons, List.not_mem_nil, false_imp_iff, implies_true,
    and_true, and_iff_left hd, and_assoc]

end

/-- what a form yields is filled -/
def Form.Filled : (f : Form) → f.Yield → Prop
  | .list, bs | .elements, bs | .params, bs => ∀ b ∈ bs, AllFilled b
  | .modifiers, ms => ∀ m ∈ ms, ∀ b ∈ m.params, AllFilled b
  | .condition, c => c.rhs ≠ [] ∧ AllFilled c.lhs ∧ AllFilled c.rhs
  | .block, ns | .fragment, ns | .heads, ns | .reference, ns | .items, ns | .construct _, ns => AllFilled ns

/-- where a form is read as a part of another one, a condition stands in front of `then` or `do` -/
def Form.Ends (rest : List Token) : Form → Prop
  | .condition => ∃ w us, rest = .keyword w :: us ∧ (w = .thenWord ∨ w = .doWord)
  | _ => True

/-- **Filled nodes and clean tokens.** The control nodes that a form yields are filled if and only if no gap begins in
what it takes. -/
theorem Derives.filled_iff {n : Nat} {f : Form} {ts rest : List Token} {y : f.Yield} (h : Derives n f ts y rest)
    (he : f.Ends rest) : f.Filled y ↔ Clean ts rest := by
  induction h with
  | blockEnd | headsEnd | itemsEnd => exact iff_of_true allFilled_nil (clean_refl _)
  | elementsEnd | noParams => exact iff_of_true (fun _ h => absurd h List.not_mem_nil) (clean_refl _)
  | modifiersEnd => exact iff_of_true (fun _ h => absurd h List.not_mem_nil) (clean_refl _)
  | text | number | colon | doubleHash => exact iff_of_true allFilled_text (clean_skip rfl)
  | loneHash => exact iff_of_true allFilled_text (clean_refl _)
  | weight => exact iff_of_true allFilled_weight ((clean_cons_iff rfl (List.suffix_cons _ _)).2 (clean_skip rfl))
  | opened _ _ ih => exact ih trivial
  | blockMore h₁ h₂ ih₁ ih₂ | headsMore h₁ h₂ ih₁ ih₂ | itemsOpened _ h₁ h₂ ih₁ ih₂ =>
    rw [clean_trans h₁.suffix h₂.suffix, ← ih₁ trivial, ← ih₂ trivial]
    exact allFilled_append
  | list h₁ h₂ ih₁ ih₂ =>
    rw [clean_trans h₁.suffix h₂.suffix, ← ih₁ trivial, ← ih₂ trivial]
    exact List.forall_mem_cons
  | elementsMore h₁ _ h₂ ih₁ ih₂ =>
    rw [clean_cons_iff rfl (h₂.suffix.trans h₁.suffix), clean_trans h₁.suffix h₂.suffix, ← ih₁ trivial, ← ih₂ trivial]
    exact List.forall_mem_cons
  | named h ih =>
    rw [clean_cons_iff rfl (suffix_drop h.suffix), clean_end_iff rfl h.suffix, ← ih trivial]
    exact allFilled_rule
  | unnamed h ih =>
    rw [clean_end_iff rfl h.suffix, ← ih trivial]
    exact allFilled_rule
  | modifiersMore h₁ h₂ ih₁ ih₂ =>
    have hs := h₂.suffix.trans h₁.suffix
    rw [clean_cons_iff rfl (suffix_skip hs), clean_cons_iff rfl hs, clean_trans h₁.suffix h₂.suffix,
      ← ih₁ trivial, ← ih₂ trivial]
    exact List.forall_mem_cons
  | emptyParams h ih =>
    rw [clean_cons_iff rfl (suffix_drop h.suffix), clean_end_iff rfl h.suffix, ← ih trivial]
    exact iff_of_true (fun _ h => absurd h List.not_mem_nil) (List.forall_mem_singleton.2 allFilled_nil)
  | params h _ ih =>
    rw [clean_cons_iff rfl (suffix_drop h.suffix), clean_end_iff rfl h.suffix]
    exact ih trivial
  | itemsEntry h₁ _ h₂ ih₁ ih₂ =>
    have hs := h₂.suffix.trans h₁.suffix
    rw [clean_cons_iff rfl (suffix_skip hs), clean_cons_iff rfl hs, clean_trans h₁.suffix h₂.suffix,
      ← ih₁ trivial, ← ih₂ trivial]
    exact allFilled_append.trans (and_congr_left' allFilled_tag)
  | plainCondition h _ ih =>
    rw [← ih trivial]
    simp [Form.Filled, allFilled_dropFinalSpace, allFilled_text]
  | @condition _ ts lhs t mid _ rhs rest h₁ hc h₂ hn ih₁ ih₂ =>
    obtain ⟨w, us, rfl, hw⟩ := he
    have hm : .keyword w :: us <:+ mid := h₂.suffix.trans (afterSpace_suffix mid)
    have gap : Gap (t :: mid) ↔ dropFinalSpace rhs = [] := gap_connective_iff hc hw h₂ hn
    calc dropFinalSpace rhs ≠ [] ∧ AllFilled (dropFinalSpace lhs) ∧ AllFilled (dropFinalSpace rhs)
        ↔ AllFilled lhs ∧ dropFinalSpace rhs ≠ [] ∧ AllFilled rhs := by
          rw [allFilled_dropFinalSpace, allFilled_dropFinalSpace]
          exact and_left_comm
      _ ↔ Clean ts (t :: mid) ∧ ¬ Gap (t :: mid) ∧ Clean mid (.keyword w :: us) := by
          rw [gap, clean_afterSpace h₂.suffix, ← ih₁ trivial, ← ih₂ trivial]
          rfl
      _ ↔ Clean ts (.keyword w :: us) := by
          rw [clean_trans h₁.suffix (suffix_skip hm), clean_cons hm]
  | rule h₁ h₂ ih₁ ih₂ =>
    rw [clean_cons_iff rfl (h₂.suffix.trans h₁.suffix), clean_trans h₁.suffix h₂.suffix, ← ih₁ trivial, ← ih₂ trivial]
    exact allFilled_append
  | tag h ih =>
    rw [clean_cons_iff rfl (suffix_drop h.suffix), clean_end_iff rfl h.suffix]
    exact ih trivial
  | ifThen h₁ h₂ ht ih₁ ih₂ =>
    have condition := ih₁ ⟨_, _, rfl, Or.inl rfl⟩
    have block := ih₂ trivial
    rw [clean_control rfl h₁.suffix (suffix_drop h₂.suffix), and_iff_right (not_gap_then h₂),
      clean_end_iff rfl h₂.suffix, ← condition, ← block]
    exact allFilled_ifThen ht
  | @ifThenElse _ _ _ mid t mid' e rest h₁ h₂ ht h₃ hn ih₁ ih₂ ih₃ =>
    have condition := ih₁ ⟨_, _, rfl, Or.inl rfl⟩
    have thenBlock : AllFilled (dropFinalSpace t) ↔ Clean mid (.keyword .elseWord :: .space :: mid') :=
      allFilled_dropFinalSpace.trans (ih₂ trivial)
    have elseBlock := ih₃ trivial
    have hr : rest <:+ mid' := suffix_drop h₃.suffix
    have hm : rest <:+ mid := (suffix_skip (suffix_skip hr)).trans h₂.suffix
    have blocks : Clean mid rest ↔ Clean mid (.keyword .elseWord :: .space :: mid') ∧ Clean mid' rest := by
      rw [clean_trans h₂.suffix (suffix_skip (suffix_skip hr)), clean_cons_iff rfl (suffix_skip hr),
        clean_cons_iff rfl hr]
    rw [clean_control rfl h₁.suffix hm, gap_then_iff h₂ ht, blocks, clean_end_iff rfl h₃.suffix, ← condition,
      ← thenBlock, ← elseBlock]
    exact allFilled_ifThenElse hn
  | whileDo h₁ h₂ hd ih₁ ih₂ =>
    have condition := ih₁ ⟨_, _, rfl, Or.inr rfl⟩
    have block := ih₂ trivial
    rw [clean_control rfl h₁.suffix (suffix_drop h₂.suffix), and_iff_right (not_gap rfl),
      clean_end_iff rfl h₂.suffix, ← condition, ← block]
    exact allFilled_whileDo hd

/-- no gap begins at a token that is left over at the top level -/
theorem Token.LeftOver.opensGap {t : Token} {rest : List Token} (h : t.LeftOver rest) : t.opensGap = false := by
  rcases h with h | ⟨rfl, -⟩
  · obtain ⟨m, -, rfl⟩ := List.mem_map.1 h
    rfl
  · rfl

theorem Document.filled_iff {n : Nat} {ts : List Token} {ns : List Node} (h : Document n ts ns) (hi : Inside 0 ts) :
    AllFilled ns ↔ Clean ts [] := by
  induction h with
  | last h => exact h.filled_iff trivial
  | stray h _ ih =>
    obtain ⟨hl, hr⟩ := leftOver_of_block h hi
    rw [allFilled_append, ← List.singleton_append, allFilled_append, and_iff_right allFilled_text,
      clean_trans h.suffix List.nil_suffix, clean_cons_iff hl.opensGap List.nil_suffix, ← ih hr]
    exact and_congr_left' (h.filled_iff trivial)

/-- **Control nodes are filled where there is no gap.** For every source that parses, the blocks and the right-hand
sides of all control nodes have nodes if and only if no gap begins anywhere in its tokens. -/
theorem filled_iff_no_gap {limit : Nat} {source : String} {ns : List Node}
    (h : (build limit (Source.tokens source)).result = .ok ns) :
    (∀ n ∈ nodesIn ns, n.Filled) ↔ ∀ ts, ts <:+ Source.tokens source → ¬ Gap ts := by
  have hd := (build_ok_iff.1 h).filled_iff (Source.inside_tokens source)
  refine hd.trans ⟨fun hc ts hts hg => ?_, fun hn ts hts _ => hn ts hts⟩
  cases ts with
  | nil => exact hg
  | cons t ts => exact hc _ hts (Nat.succ_pos _) hg

theorem filled_iff_no_gap_while :
    (build 1 (Source.tokens "[while a do b]")).result =
        .ok [.whileBlock ⟨[.text "a"], .notEqualTo, [.text ""]⟩ [.text "b"]] ∧
      ((∀ n ∈ nodesIn [.whileBlock ⟨[.text "a"], .notEqualTo, [.text ""]⟩ [.text "b"]], n.Filled) ↔
        ∀ ts, ts <:+ Source.tokens "[while a do b]" → ¬ Gap ts) := by
  have h : (build 1 (Source.tokens "[while a do b]")).result =
      .ok [.whileBlock ⟨[.text "a"], .notEqualTo, [.text ""]⟩ [.text "b"]] := by rfl
  exact ⟨h, filled_iff_no_gap h⟩

/-- two spaces in front of `else` leave nothing between `then` and `else` -/
theorem parse_empty_then :
    ∃ ns, (parse "[if a then  else b]").result = .ok ns ∧ ¬ ∀ n ∈ nodesIn ns, n.Filled := by
  refine ⟨[.ifBlock ⟨[.text "a"], .notEqualTo, [.text ""]⟩ [] (some [.text "b"])], by rfl, fun h => ?_⟩
  exact (h _ List.mem_cons_self).2.1 rfl

end TextGrammar
