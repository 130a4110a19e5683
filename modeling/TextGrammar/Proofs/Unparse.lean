/-
Trees as tokens.

`unparseIn` writes a block as tokens, one spelling for each kind of node. A space goes behind every block whose final
space the parser drops: both sides of a condition, and the first block where there is a second one.

Results:
- `derives_unparseIn`: a block that fits `k` levels is derived from its tokens, in front of anything that no fragment
  starts with. The induction is on the levels; a fragment is derived from the blocks in it (`derives_unparse`), which
  are one level further in;
- `built_iff_wellFormed`: the trees that the parser yields are the well-formed ones, each of them from its own tokens
  and under every limit that is not below its height;
- `height_of_build`: how deep a tree may go under a limit, and that it may go as deep as that.
-/
import TextGrammar.Proofs.Decision
import TextGrammar.Proofs.WellFormed

namespace TextGrammar

open Node

/-! ## Writing -/

/-- the connective that asks for a relation -/
def Relation.connective : Relation → Connective
  | equalTo => .comparison .equals
  | notEqualTo => .comparison .differs
  | valueIn => .membership false
  | valueNotIn => .membership true

/-- the token that asks for a relation -/
def Relation.token : Relation → Token
  | equalTo => .operator .equals
  | notEqualTo => .operator .differs
  | valueIn => .keyword .inWord
  | valueNotIn => .keyword .notInWord

namespace Node

mutual

/-- a node as tokens -/
def unparse : Node → List Token
  | .text s => [.text s]
  | .rule name ms => .mark .hash :: .text name :: (unparseModifiers ms ++ [.mark .hash])
  | .tag name vs => .mark .openSquare :: .text name :: .mark .colon :: (unparseList vs ++ [.mark .closeSquare])
  | .weight v => [.mark .colon, .number v none]
  | .ifBlock c t none =>
    .mark .openSquare :: .keyword .ifWord :: .space :: (unparseCondition c ++
      .keyword .thenWord :: .space :: (unparseIn t ++ [.mark .closeSquare]))
  | .ifBlock c t (some e) =>
    .mark .openSquare :: .keyword .ifWord :: .space :: (unparseCondition c ++
      .keyword .thenWord :: .space :: (unparseIn t ++ .text " " ::
        .keyword .elseWord :: .space :: (unparseIn e ++ [.mark .closeSquare])))
  | .whileBlock c d =>
    .mark .openSquare :: .keyword .whileWord :: .space :: (unparseCondition c ++
      .keyword .doWord :: .space :: (unparseIn d ++ [.mark .closeSquare]))

/-- a block as tokens -/
def unparseIn : List Node → List Token
  | [] => []
  | n :: ns => unparse n ++ unparseIn ns

/-- blocks as tokens, with commas between them -/
def unparseList : List (List Node) → List Token
  | [] => []
  | b :: bs => unparseIn b ++ unparseElements bs

/-- blocks as tokens, with a comma in front of each -/
def unparseElements : List (List Node) → List Token
  | [] => []
  | b :: bs => .mark .comma :: (unparseIn b ++ unparseElements bs)

/-- modifiers as tokens; one without parameters has no brackets -/
def unparseModifiers : List (Modifier Node) → List Token
  | [] => []
  | ⟨name, []⟩ :: ms => .mark .dot :: .text name :: unparseModifiers ms
  | ⟨name, p :: ps⟩ :: ms =>
    .mark .dot :: .text name :: .mark .openRound ::
      (unparseIn p ++ unparseElements ps ++ .mark .closeRound :: unparseModifiers ms)

/-- a condition as tokens -/
def unparseCondition : Condition Node → List Token
  | ⟨lhs, o, rhs⟩ => unparseIn lhs ++ .text " " :: o.token :: .space :: (unparseIn rhs ++ [.text " "])

end

end Node

/-! ## Reading back -/

theorem dropFinalSpace_append_space (ns : List Node) : dropFinalSpace (ns ++ [.text " "]) = ns := by
  rw [dropFinalSpace_append_text, textWithoutFinalSpace, if_pos rfl, List.append_nil]

theorem starts_token (o : Relation) (ts : List Token) : starts (o.token :: ts) = false := by
  cases o <;> rfl

/-- the relation that is asked for is the one that is read, also if its right-hand side gets a space behind it -/
theorem relation_connective {l r : List Node} {o : Relation} (h : Condition.Shaped ⟨l, o, r⟩) (ns : List Node) :
    o.connective.relation (r ++ ns) = o := by
  have members (ho : o = .valueIn ∨ o = .valueNotIn) (negated : Bool) :
      Relation.ofMembers negated (r ++ ns) = if negated then .valueNotIn else .valueIn := by
    obtain ⟨n, ms, hr, hn⟩ := h ho
    simp only at hr
    subst hr
    cases n with
    | text s => exact absurd rfl (hn s)
    | _ => rfl
  cases o with
  | equalTo | notEqualTo => rfl
  | valueIn => exact members (Or.inl rfl) false
  | valueNotIn => exact members (Or.inr rfl) true

theorem ofKind?_token (o : Relation) : Connective.ofKind? o.token.kind = some o.connective := by
  cases o <;> rfl

/-- blocks that fit `k` levels are derived from their tokens -/
def ReadsBack (k : Nat) : Prop :=
  ∀ ns rest, Fits k ns → starts rest = false → Derives k .block (unparseIn ns ++ rest) ns rest

section

variable {k : Nat} {rest : List Token} (hb : ReadsBack k)

include hb

/-- a block with a space behind it, up to a token that ends it -/
theorem derives_spaced {ns : List Node} (h : Fits k ns) (hr : starts rest = false) :
    Derives k .block (unparseIn ns ++ .text " " :: rest) (ns ++ [.text " "]) rest := by
  have happ : ∀ ms : List Node, unparseIn (ms ++ [.text " "]) ++ rest = unparseIn ms ++ .text " " :: rest := by
    intro ms
    induction ms with
    | nil => rfl
    | cons m ms ih => rw [List.cons_append, unparseIn, unparseIn, List.append_assoc, ih, List.append_assoc]
  rw [← happ]
  exact hb _ _ (fits_append.2 ⟨h, fits_text⟩) hr

theorem derives_unparseElements {bs : List (List Node)} (hf : ∀ b ∈ bs, Fits k b) (hn : ∀ b ∈ bs, b ≠ [])
    (hr : starts rest = false) (hc : rest.head? ≠ some (.mark .comma)) :
    Derives k .elements (unparseElements bs ++ rest) bs rest := by
  induction bs with
  | nil => exact .elementsEnd hc
  | cons b bs ih =>
    obtain ⟨hfb, hf⟩ := List.forall_mem_cons.1 hf
    obtain ⟨hnb, hn⟩ := List.forall_mem_cons.1 hn
    rw [unparseElements, List.cons_append, List.append_assoc]
    refine .elementsMore (hb _ _ hfb ?_) hnb (ih hf hn)
    cases bs with
    | nil => exact hr
    | cons c bs => rfl

theorem derives_unparseList {b : List Node} {bs : List (List Node)} (hf : ∀ x ∈ b :: bs, Fits k x)
    (hn : ∀ x ∈ bs, x ≠ []) (hr : starts rest = false) (hc : rest.head? ≠ some (.mark .comma)) :
    Derives k .list (unparseIn b ++ unparseElements bs ++ rest) (b :: bs) rest := by
  obtain ⟨hfb, hf⟩ := List.forall_mem_cons.1 hf
  rw [List.append_assoc]
  refine .list (hb _ _ hfb ?_) (derives_unparseElements hb hf hn hr hc)
  cases bs with
  | nil => exact hr
  | cons c bs => rfl

theorem derives_unparseModifiers {ms : List (Modifier Node)}
    (h : ∀ m ∈ ms, (∀ b ∈ m.params, Fits k b) ∧ m.Shaped) :
    Derives k .modifiers (unparseModifiers ms ++ .mark .hash :: rest) ms (.mark .hash :: rest) := by
  induction ms with
  | nil => exact .modifiersEnd (by simp [unparseModifiers])
  | cons m ms ih =>
    obtain ⟨⟨hf, hn, hne⟩, hms⟩ := List.forall_mem_cons.1 h
    obtain ⟨name, ps⟩ := m
    cases ps with
    | nil =>
      refine .modifiersMore (.noParams ?_) (ih hms)
      -- the next modifier begins with a dot, and the rule ends in a hash
      rcases ms with _ | ⟨⟨_, _ | _⟩, _⟩ <;> simp [unparseModifiers]
    | cons p ps =>
      have hl : Derives k .list
          (unparseIn p ++ unparseElements ps ++ .mark .closeRound :: (unparseModifiers ms ++ .mark .hash :: rest))
          (p :: ps) (.mark .closeRound :: (unparseModifiers ms ++ .mark .hash :: rest)) :=
        derives_unparseList hb hf hn rfl (by simp)
      rw [unparseModifiers, List.cons_append, List.cons_append, List.cons_append, List.append_assoc, List.cons_append]
      exact .modifiersMore (.params hl hne) (ih hms)

theorem derives_unparseCondition {c : Condition Node} {w : Keyword} (hl : Fits k c.lhs) (hr : Fits k c.rhs)
    (hs : c.Shaped) :
    Derives k .condition (unparseCondition c ++ .keyword w :: rest) c (.keyword w :: rest) := by
  obtain ⟨l, o, r⟩ := c
  have h : Derives k .condition (unparseCondition ⟨l, o, r⟩ ++ .keyword w :: rest)
      ⟨dropFinalSpace (l ++ [.text " "]), o.connective.relation (r ++ [.text " "]), dropFinalSpace (r ++ [.text " "])⟩
      (.keyword w :: rest) := by
    simp only [unparseCondition, List.append_assoc, List.cons_append, List.nil_append]
    exact .condition (derives_spaced hb hl (starts_token o _)) (ofKind?_token o) (derives_spaced hb hr rfl) (by simp)
  rwa [relation_connective hs, dropFinalSpace_append_space, dropFinalSpace_append_space] at h

/-- the constructs, from the blocks in them -/
theorem derives_unparse {n : Node} (h : Fits (k + 1) [n]) : Derives (k + 1) .fragment (unparse n ++ rest) [n] rest := by
  cases n with
  | text s => exact .text
  | weight v => exact .weight
  | rule name ms =>
    have hm : Derives k .modifiers (unparseModifiers ms ++ .mark .hash :: rest) ms (.mark .hash :: rest) :=
      derives_unparseModifiers hb (fits_rule.1 h)
    simp only [unparse, List.cons_append, List.append_assoc, List.nil_append]
    exact .opened rfl (.rule (.headsEnd (by simp)) (.named hm))
  | tag name vs =>
    obtain ⟨hf, hv, hn⟩ := fits_tag.1 h
    obtain ⟨v, vs, rfl⟩ := List.exists_cons_of_ne_nil hv
    obtain ⟨hnv, hn⟩ := List.forall_mem_cons.1 hn
    have hl : Derives k .list (unparseIn v ++ unparseElements vs ++ .mark .closeSquare :: rest) (v :: vs)
        (.mark .closeSquare :: rest) := derives_unparseList hb hf hn rfl (by simp)
    simp only [unparse, unparseList, List.cons_append, List.append_assoc _ [_], List.nil_append]
    exact .opened rfl (.tag (.itemsEntry hl hnv (.itemsEnd (by simp))))
  | ifBlock c t e =>
    cases e with
    | none =>
      obtain ⟨⟨⟨hl, hr⟩, hs⟩, ht, hn⟩ := fits_ifThen.1 h
      simp only [unparse, List.cons_append, List.append_assoc, List.nil_append]
      exact .opened rfl (.ifThen (derives_unparseCondition hb hl hr hs) (hb _ _ ht rfl) hn)
    | some e =>
      obtain ⟨⟨⟨hl, hr⟩, hs⟩, ht, he, hn⟩ := fits_ifThenElse.1 h
      have hi : Derives (k + 1) (.construct .ifBlock) (unparse (.ifBlock c t (some e)) ++ rest)
          [.ifBlock c (dropFinalSpace (t ++ [.text " "])) (some e)] rest := by
        simp only [unparse, List.cons_append, List.append_assoc, List.nil_append]
        exact .ifThenElse (derives_unparseCondition hb hl hr hs) (derives_spaced hb ht rfl) (by simp) (hb _ _ he rfl) hn
      rw [dropFinalSpace_append_space] at hi
      exact .opened rfl hi
  | whileBlock c d =>
    obtain ⟨⟨⟨hl, hr⟩, hs⟩, hd, hn⟩ := fits_whileDo.1 h
    simp only [unparse, List.cons_append, List.append_assoc, List.nil_append]
    exact .opened rfl (.whileDo (derives_unparseCondition hb hl hr hs) (hb _ _ hd rfl) hn)

end

/-- a block from its tokens, if each node of it is derived from its own -/
theorem derives_block_of_fragments {k : Nat} {ns : List Node} {rest : List Token}
    (h : ∀ n ∈ ns, ∀ rest, Derives k .fragment (unparse n ++ rest) [n] rest) (hr : starts rest = false) :
    Derives k .block (unparseIn ns ++ rest) ns rest := by
  induction ns with
  | nil => exact .blockEnd hr
  | cons n ns ih =>
    obtain ⟨hn, h⟩ := List.forall_mem_cons.1 h
    rw [unparseIn, List.append_assoc]
    exact .blockMore (hn _) (ih h)

theorem Fits.of_mem {k : Nat} {n : Node} {ns : List Node} (h : Fits k ns) (hn : n ∈ ns) : Fits k [n] := by
  obtain ⟨as, bs, rfl⟩ := List.append_of_mem hn
  rw [fits_append, ← List.singleton_append, fits_append] at h
  exact h.2.1

/-- a block that fits is derived from its tokens -/
theorem derives_unparseIn (k : Nat) : ReadsBack k := by
  induction k with
  | zero =>
    intro ns rest h hr
    refine derives_block_of_fragments (fun n hn rest => ?_) hr
    have hh := heightIn_le_iff.1 (h.of_mem hn).height n (List.mem_singleton_self n)
    cases n with
    | text s => exact .text
    | weight v => exact .weight
    | rule | tag | whileBlock => simp [height] at hh
    | ifBlock _ _ e => cases e <;> simp [height] at hh
  | succ k ih =>
    intro ns rest h hr
    exact derives_block_of_fragments (fun n hn rest => derives_unparse ih (h.of_mem hn)) hr

/-- the parser reads a tree from its own tokens, if it is well-formed and the limit leaves room for it -/
theorem build_unparseIn {limit : Nat} {ns : List Node} (h : Fits limit ns) :
    (build limit (unparseIn ns)).result = .ok ns := by
  have hd := derives_unparseIn limit ns [] h rfl
  rw [List.append_nil] at hd
  exact build_ok_iff.2 (.last hd)

/-- **The parser yields the well-formed trees.** A tree is the result of some parse if and only if it is well-formed,
under a given limit if and only if it goes no deeper than that as well, and then its own tokens are parsed as it. -/
theorem built_iff_wellFormed (ns : List Node) :
    ((∃ limit ts, 0 < limit ∧ (build limit ts).result = .ok ns) ↔ WellFormed ns) ∧
      (∀ limit, (∃ ts, (build limit ts).result = .ok ns) ↔ WellFormed ns ∧ heightIn ns ≤ limit) ∧
      ∀ limit, (build limit (unparseIn ns)).result = .ok ns ↔ WellFormed ns ∧ heightIn ns ≤ limit := by
  have image {limit ts} (h : (build limit ts).result = .ok ns) : WellFormed ns ∧ heightIn ns ≤ limit := by
    have hf := (build_ok_iff.1 h).fits
    exact ⟨hf.wellFormed, hf.height⟩
  have inverse {limit} (h : WellFormed ns ∧ heightIn ns ≤ limit) : (build limit (unparseIn ns)).result = .ok ns :=
    build_unparseIn ⟨h.1, h.2⟩
  refine ⟨?_, ?_, ?_⟩
  · constructor
    · rintro ⟨limit, ts, -, h⟩
      exact (image h).1
    · intro h
      exact ⟨heightIn ns + 1, unparseIn ns, Nat.succ_pos _, inverse ⟨h, Nat.le_succ _⟩⟩
  · intro limit
    constructor
    · rintro ⟨ts, h⟩
      exact image h
    · intro h
      exact ⟨unparseIn ns, inverse h⟩
  · intro limit
    exact ⟨image, inverse⟩

/-- modifiers without parameters have no brackets, and values are separated by commas -/
example : unparseIn [.tag "k" [[.text "a"], [.rule "r" [⟨"s", []⟩]]]] =
    [.mark .openSquare, .text "k", .mark .colon, .text "a", .mark .comma, .mark .hash, .text "r", .mark .dot, .text "s",
      .mark .hash, .mark .closeSquare] := by
  rfl

/-! ## Heights -/

/-- tags in tags -/
def tower : Nat → List Node
  | 0 => [.text ""]
  | k + 1 => [.tag "" [tower k]]

theorem heightIn_tower (k : Nat) : heightIn (tower k) = k := by
  induction k with
  | zero => rfl
  | succ k ih =>
    simp only [tower, heightIn, height, heightInEach, ih]
    omega

theorem fits_tower (k : Nat) : Fits k (tower k) := by
  induction k with
  | zero => exact fits_text
  | succ k ih =>
    have hn : tower k ≠ [] := by cases k <;> exact List.cons_ne_nil _ _
    exact fits_tag.2 ⟨List.forall_mem_singleton.2 ih, List.cons_ne_nil _ _, List.forall_mem_singleton.2 hn⟩

/-- a construct goes no deeper than the levels that are left where it starts -/
theorem height_of_construct {limit : Nat} {k : Construct} {c d : Cursor} {ns : List Node}
    (h : Parser.Gives (outermost limit k) c ns d) : c.depth + heightIn ns ≤ limit := by
  have hd : Derives (limit - c.depth) (.construct k) c.ahead ns d.ahead := construct_sound limit _ k c ns d h
  have hle : heightIn ns ≤ limit - c.depth := hd.fits.height
  -- where no level is left there is no construct
  have hne : limit - c.depth ≠ 0 := by
    intro hn
    rw [hn] at hd
    cases hd
  omega

/-- **The limit bounds the tree.** A tree that the parser yields goes no deeper than the limit. Inside, what a construct
yields goes no deeper than the limit leaves below the constructs that are open around it. No smaller bound would do:
under each limit some token list yields a tree that goes exactly as deep. -/
theorem height_of_build (limit : Nat) :
    (∀ ts ns, (build limit ts).result = .ok ns → heightIn ns ≤ limit) ∧
      (∀ k c ns d, Parser.Gives (outermost limit k) c ns d → c.depth + heightIn ns ≤ limit) ∧
      ∃ ts ns, (build limit ts).result = .ok ns ∧ heightIn ns = limit := by
  refine ⟨fun ts ns h => (build_ok_iff.1 h).fits.height, fun k c ns d => height_of_construct, ?_⟩
  exact ⟨unparseIn (tower limit), tower limit, build_unparseIn (fits_tower limit), heightIn_tower limit⟩

/-- a tag in front of a rule is read inside of the rule and stands beside it in the tree, which is less deep than the
limit that is needed -/
theorem height_of_build_beside :
    ∃ ts ns, (build 2 ts).result = .error (.tooDeep 2) ∧ (build 3 ts).result = .ok ns ∧ heightIn ns = 2 ∧
      heightIn ns ≤ 3 := by
  obtain ⟨ts, ns, htooDeep, h, hheight⟩ : ∃ ts ns, (build 2 ts).result = .error (.tooDeep 2) ∧
      (build 3 ts).result = .ok ns ∧ heightIn ns = 2 :=
    ⟨[.mark .hash, .mark .openSquare, .text "a", .mark .colon, .mark .hash, .text "b", .mark .hash, .mark .closeSquare,
      .text "c", .mark .hash], [.tag "a" [[.rule "b" []]], .rule "c" []], by rfl, by rfl, by decide⟩
  obtain ⟨hbound, -⟩ := height_of_build 3
  exact ⟨ts, ns, htooDeep, h, hheight, hbound ts ns h⟩

end TextGrammar
