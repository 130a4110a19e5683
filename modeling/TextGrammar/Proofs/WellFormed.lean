/-
Well-formed trees, and what a derivation yields.

A tree is well-formed if the shape of every node in it (`Node.Shaped`) is one that source can be written for:
- a modifier has no parameters, or parameters of which only the first may be empty, and not if it is the only one;
- a tag has values, and all of them have nodes;
- a membership relation has a right-hand side that does not begin with text, else it would be a comparison;
- the last block of a control node has nodes. The other blocks may be empty: they are checked before a final space is
  dropped.

`Fits k ns` adds that the tree goes no deeper than `k`.

Results:
- `Derives.fits`: what a form yields within `k` levels fits, each form with what it owes the node that it is part of
  (`Form.Fits`);
- `Document.fits`: so does a whole document.
-/
import TextGrammar.Proofs.Grammar
import TextGrammar.Proofs.Tree

namespace TextGrammar

open Node

/-! ## Well-formed trees -/

/-- no parameters, or parameters of which only the first of several may be empty -/
def Modifier.Shaped (m : Modifier Node) : Prop :=
  (∀ b ∈ m.params.tail, b ≠ []) ∧ m.params ≠ [[]]

/-- membership is asked of a right-hand side that does not begin with text -/
def Condition.Shaped (c : Condition Node) : Prop :=
  c.relation = .valueIn ∨ c.relation = .valueNotIn → ∃ n ns, c.rhs = n :: ns ∧ ∀ s, n ≠ .text s

/-- the shape that a node has, whatever the nodes below it look like -/
def Node.Shaped : Node → Prop
  | .text _ | .weight _ => True
  | .rule _ ms => ∀ m ∈ ms, m.Shaped
  | .tag _ vs => vs ≠ [] ∧ ∀ v ∈ vs, v ≠ []
  | .ifBlock c t none => c.Shaped ∧ t ≠ []
  | .ifBlock c _ (some e) => c.Shaped ∧ e ≠ []
  | .whileBlock c d => c.Shaped ∧ d ≠ []

/-- every node in a block is shaped -/
def WellFormed (ns : List Node) : Prop :=
  ∀ n ∈ nodesIn ns, n.Shaped

/-- well-formed, and no deeper than `k` -/
structure Fits (k : Nat) (ns : List Node) : Prop where
  wellFormed : WellFormed ns
  height : heightIn ns ≤ k

section

variable {k m : Nat} {n : Node} {ns ms : List Node} {s : String}

theorem wellFormed_nil : WellFormed [] :=
  fun _ h => absurd h List.not_mem_nil

theorem fits_nil : Fits k [] :=
  ⟨wellFormed_nil, Nat.zero_le k⟩

theorem fits_text : Fits k [.text s] :=
  ⟨List.forall_mem_singleton.2 trivial, Nat.zero_le k⟩

theorem fits_weight {v : Float} : Fits k [.weight v] :=
  ⟨List.forall_mem_singleton.2 trivial, Nat.zero_le k⟩

theorem fits_append : Fits k (ms ++ ns) ↔ Fits k ms ∧ Fits k ns := by
  constructor
  · rintro ⟨hw, hh⟩
    obtain ⟨hw₁, hw₂⟩ := forall_nodesIn_append.1 hw
    obtain ⟨hh₁, hh₂⟩ := heightIn_append_le_iff.1 hh
    exact ⟨⟨hw₁, hh₁⟩, hw₂, hh₂⟩
  · rintro ⟨⟨hw₁, hh₁⟩, hw₂, hh₂⟩
    exact ⟨forall_nodesIn_append.2 ⟨hw₁, hw₂⟩, heightIn_append_le_iff.2 ⟨hh₁, hh₂⟩⟩

/-- a node fits one level above its blocks -/
theorem fits_singleton_succ : Fits (k + 1) [n] ↔ n.Shaped ∧ ∀ b ∈ n.blocks, Fits k b := by
  have hh : heightIn [n] ≤ k + 1 ↔ ∀ b ∈ n.blocks, heightIn b ≤ k := by
    rw [heightIn_le_iff, List.forall_mem_singleton, height_le_succ_iff]
  constructor
  · rintro ⟨hw, h⟩
    obtain ⟨⟨hs, hb⟩, -⟩ := forall_nodesIn_cons.1 hw
    exact ⟨hs, fun b m => ⟨hb b m, hh.1 h b m⟩⟩
  · rintro ⟨hs, hb⟩
    exact ⟨forall_nodesIn_cons.2 ⟨⟨hs, fun b m => (hb b m).wellFormed⟩, wellFormed_nil⟩,
      hh.2 fun b m => (hb b m).height⟩

theorem Fits.mono (h : Fits k ns) (hm : k ≤ m) : Fits m ns :=
  ⟨h.wellFormed, Nat.le_trans h.height hm⟩

theorem Fits.dropFinalSpace (h : Fits k ns) : Fits k (dropFinalSpace ns) :=
  ⟨(forall_nodesIn_dropFinalSpace fun _ => trivial).2 h.wellFormed, heightIn_dropFinalSpace_le_iff.2 h.height⟩

end

/-! ## What a derivation yields -/

/-- what a form yields within `k` levels -/
def Form.Fits (k : Nat) : (f : Form) → f.Yield → Prop
  | .block, ns | .fragment, ns | .heads, ns | .construct _, ns => TextGrammar.Fits k ns
  | .reference, ns | .items, ns => TextGrammar.Fits (k + 1) ns
  | .list, bs => (∀ b ∈ bs, TextGrammar.Fits k b) ∧ ∀ b ∈ bs.tail, b ≠ []
  | .elements, bs => (∀ b ∈ bs, TextGrammar.Fits k b) ∧ ∀ b ∈ bs, b ≠ []
  | .params, bs => (∀ b ∈ bs, TextGrammar.Fits k b) ∧ (∀ b ∈ bs.tail, b ≠ []) ∧ bs ≠ [[]]
  | .modifiers, ms => ∀ m ∈ ms, (∀ b ∈ m.params, TextGrammar.Fits k b) ∧ m.Shaped
  | .condition, c => (TextGrammar.Fits k c.lhs ∧ TextGrammar.Fits k c.rhs) ∧ c.Shaped

/-- a membership test with text is a comparison, and what does not begin with text keeps its beginning -/
theorem condition_shaped {l rhs : List Node} {c : Connective} (h : rhs ≠ []) :
    Condition.Shaped ⟨l, c.relation rhs, dropFinalSpace rhs⟩ := by
  intro hr
  cases c with
  | comparison o => cases o <;> simp [Connective.relation] at hr
  | membership negated =>
    obtain ⟨n, ns, rfl⟩ := List.exists_cons_of_ne_nil h
    have hn : ∀ s, n ≠ .text s := by
      rintro s rfl
      cases negated <;> simp [Connective.relation, Relation.ofMembers] at hr
    exact ⟨n, dropFinalSpace ns, dropFinalSpace_cons_of_not_text hn, hn⟩

theorem fits_rule {k : Nat} {name : String} {ms : List (Modifier Node)} :
    Fits (k + 1) [.rule name ms] ↔ ∀ m ∈ ms, (∀ b ∈ m.params, Fits k b) ∧ m.Shaped := by
  rw [fits_singleton_succ]
  simp only [Shaped, blocks, List.mem_flatMap, forall_exists_index, and_imp]
  exact ⟨fun h m hm => ⟨fun b hb => h.2 b m hm hb, h.1 m hm⟩,
    fun h => ⟨fun m hm => (h m hm).2, fun b m hm hb => (h m hm).1 b hb⟩⟩

theorem fits_tag {k : Nat} {name : String} {vs : List (List Node)} :
    Fits (k + 1) [.tag name vs] ↔ (∀ b ∈ vs, Fits k b) ∧ vs ≠ [] ∧ ∀ v ∈ vs, v ≠ [] := by
  rw [fits_singleton_succ, and_comm]
  rfl

theorem fits_ifThen {k : Nat} {c : Condition Node} {t : List Node} :
    Fits (k + 1) [.ifBlock c t none] ↔ ((Fits k c.lhs ∧ Fits k c.rhs) ∧ c.Shaped) ∧ Fits k t ∧ t ≠ [] := by
  rw [fits_singleton_succ]
  simp only [Shaped, blocks, List.forall_mem_cons, List.not_mem_nil, false_imp_iff, implies_true, and_true]
  constructor
  · rintro ⟨⟨hc, hn⟩, hl, hr, ht⟩
    exact ⟨⟨⟨hl, hr⟩, hc⟩, ht, hn⟩
  · rintro ⟨⟨⟨hl, hr⟩, hc⟩, ht, hn⟩
    exact ⟨⟨hc, hn⟩, hl, hr, ht⟩

theorem fits_ifThenElse {k : Nat} {c : Condition Node} {t e : List Node} :
    Fits (k + 1) [.ifBlock c t (some e)] ↔
      ((Fits k c.lhs ∧ Fits k c.rhs) ∧ c.Shaped) ∧ Fits k t ∧ Fits k e ∧ e ≠ [] := by
  rw [fits_singleton_succ]
  simp only [Shaped, blocks, List.forall_mem_cons, List.not_mem_nil, false_imp_iff, implies_true, and_true]
  constructor
  · rintro ⟨⟨hc, hn⟩, hl, hr, ht, he⟩
    exact ⟨⟨⟨hl, hr⟩, hc⟩, ht, he, hn⟩
  · rintro ⟨⟨⟨hl, hr⟩, hc⟩, ht, he, hn⟩
    exact ⟨⟨hc, hn⟩, hl, hr, ht, he⟩

theorem fits_whileDo {k : Nat} {c : Condition Node} {d : List Node} :
    Fits (k + 1) [.whileBlock c d] ↔ ((Fits k c.lhs ∧ Fits k c.rhs) ∧ c.Shaped) ∧ Fits k d ∧ d ≠ [] := by
  rw [fits_singleton_succ]
  simp only [Shaped, blocks, List.forall_mem_cons, List.not_mem_nil, false_imp_iff, implies_true, and_true]
  constructor
  · rintro ⟨⟨hc, hn⟩, hl, hr, hd⟩
    exact ⟨⟨⟨hl, hr⟩, hc⟩, hd, hn⟩
  · rintro ⟨⟨⟨hl, hr⟩, hc⟩, hd, hn⟩
    exact ⟨⟨hc, hn⟩, hl, hr, hd⟩

/-- what a form yields within `k` levels fits -/
theorem Derives.fits {k : Nat} {f : Form} {ts rest : List Token} {y : f.Yield} (h : Derives k f ts y rest) :
    f.Fits k y := by
  induction h with
  | blockEnd | headsEnd => exact fits_nil
  | blockMore _ _ h₁ h₂ | headsMore _ _ h₁ h₂ => exact fits_append.2 ⟨h₁, h₂⟩
  | text | number | colon => exact fits_text
  | doubleHash | loneHash => exact fits_text
  | weight => exact fits_weight
  | opened _ _ ih => exact ih
  | list _ _ h₁ h₂ => exact ⟨List.forall_mem_cons.2 ⟨h₁, h₂.1⟩, h₂.2⟩
  | elementsEnd => exact ⟨fun _ h => absurd h List.not_mem_nil, fun _ h => absurd h List.not_mem_nil⟩
  | elementsMore _ hn _ h₁ h₂ =>
    exact ⟨List.forall_mem_cons.2 ⟨h₁, h₂.1⟩, List.forall_mem_cons.2 ⟨hn, h₂.2⟩⟩
  | named _ ih | unnamed _ ih => exact fits_rule.2 ih
  | modifiersEnd => exact fun _ h => absurd h List.not_mem_nil
  | modifiersMore _ _ h₁ h₂ => exact List.forall_mem_cons.2 ⟨h₁, h₂⟩
  | noParams | emptyParams =>
    exact ⟨fun _ h => absurd h List.not_mem_nil, fun _ h => absurd h List.not_mem_nil, by simp⟩
  | params _ hb ih => exact ⟨ih.1, ih.2, hb⟩
  | itemsEnd => exact fits_nil
  | itemsOpened _ _ _ h₁ h₂ => exact fits_append.2 ⟨h₁.mono (Nat.le_succ _), h₂⟩
  | itemsEntry _ hv _ h₁ h₂ =>
    exact fits_append.2 ⟨fits_tag.2 ⟨h₁.1, List.cons_ne_nil _ _, List.forall_mem_cons.2 ⟨hv, h₁.2⟩⟩, h₂⟩
  | plainCondition _ _ ih => exact ⟨⟨ih.dropFinalSpace, fits_text⟩, fun h => by simp at h⟩
  | condition _ _ _ hn h₁ h₂ => exact ⟨⟨h₁.dropFinalSpace, h₂.dropFinalSpace⟩, condition_shaped hn⟩
  | rule _ _ h₁ h₂ => exact fits_append.2 ⟨h₁.mono (Nat.le_succ _), h₂⟩
  | tag _ ih => exact ih
  | ifThen _ _ ht h₁ h₂ => exact fits_ifThen.2 ⟨h₁, h₂, ht⟩
  | ifThenElse _ _ _ _ he h₁ h₂ h₃ => exact fits_ifThenElse.2 ⟨h₁, h₂.dropFinalSpace, h₃, he⟩
  | whileDo _ _ hd h₁ h₂ => exact fits_whileDo.2 ⟨h₁, h₂, hd⟩

/-- the nodes of a document fit below the limit -/
theorem Document.fits {k : Nat} {ts : List Token} {ns : List Node} (h : Document k ts ns) : Fits k ns := by
  induction h with
  | last h => exact h.fits
  | stray h _ ih => exact fits_append.2 ⟨h.fits, fits_append.2 ⟨fits_text, ih⟩⟩

end TextGrammar
