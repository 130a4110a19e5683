/-
Hashes and what becomes of them.

A rule takes two hashes, and two hashes alone are an empty text. A hash with nothing behind it but its tags is alone: it
becomes a text. Nothing else takes a hash. So the hashes of a document stand in pairs, but for a lone one at the end,
and its tree has no more rules than there are pairs.

`Balance` and `Spent` say so of the tokens between two places. Where the tokens are plain they are exact: each pair is a
rule or an empty text. A control bracket is not plain, since a condition without a connective is compared with an empty
text that nobody wrote, and since final spaces are dropped there.

Results:
- `Derives.spends`: what each form makes of the hashes that it takes, by induction on the derivation;
- `Document.spends`: so the hashes of a document are spent.
-/
import TextGrammar.Proofs.Brackets
import TextGrammar.Proofs.Tree

namespace TextGrammar

open Node TextGrammar.Parser

/-! ## Counting -/

/-- how many hashes there are -/
def hashes (ts : List Token) : Nat := ts.count (.mark .hash)

@[simp] theorem hashes_nil : hashes [] = 0 := rfl

@[simp] theorem hashes_hash (ts : List Token) : hashes (.mark .hash :: ts) = hashes ts + 1 :=
  List.count_cons_self

theorem hashes_cons_of_ne {t : Token} (ht : t ≠ .mark .hash) (ts : List Token) : hashes (t :: ts) = hashes ts :=
  List.count_cons_of_ne ht

theorem hashes_afterSpace (ts : List Token) : hashes (afterSpace ts) = hashes ts := by
  unfold afterSpace
  split
  · exact (hashes_cons_of_ne (by simp) _).symm
  · rfl

/-- an empty text -/
def Node.isEmptyText : Node → Bool
  | .text s => s = ""
  | _ => false

/-- no bracket is a control bracket, and no text or number is written without any character -/
structure PlainTokens (ts : List Token) : Prop where
  noControl : ∀ k, k = .ifWord ∨ k = .whileWord → .keyword k ∉ ts
  spelled : ∀ t ∈ ts, t.kind = .text ∨ t.kind = .number → t.rawText ≠ ""

theorem PlainTokens.of_suffix {ts us : List Token} (h : PlainTokens ts) (hs : us <:+ ts) : PlainTokens us where
  noControl k hk hm := h.noControl k hk (hs.subset hm)
  spelled t ht := h.spelled t (hs.subset ht)

/-- no token is written without any character, if no text or number is -/
theorem PlainTokens.rawText_ne {t : Token} {ts : List Token} (h : PlainTokens ts) (ht : t ∈ ts) : t.rawText ≠ "" := by
  cases t with
  | text | number => exact h.spelled _ ht (by simp [Token.kind])
  | mark m => cases m <;> decide
  | space => decide
  | operator o => cases o <;> decide
  | keyword k => cases k <;> decide

/-! ## Balance -/

/-- of the hashes of `ts`, those in front of `rest` stand in pairs but for `lone` of them. There is a pair for each rule
among the nodes; and if `plain`, there is one for each empty text as well, and no more. -/
def Balance (plain : Prop) (lone : Nat) (ts rest : List Token) (ns : List Node) : Prop :=
  ∃ pairs, hashes ts = hashes rest + 2 * pairs + lone ∧ ns.countP isRule ≤ pairs ∧
    (plain → pairs = ns.countP isRule + ns.countP isEmptyText)

/-- all hashes in front of `rest` stand in pairs, or one is alone and nothing is left over -/
def Spent (plain : Prop) (ts rest : List Token) (ns : List Node) : Prop :=
  Balance plain 0 ts rest ns ∨ rest = [] ∧ Balance plain 1 ts rest ns

section

variable {plain : Prop} {l k : Nat} {t : Token} {ts mid rest : List Token} {n : Node} {ns ms : List Node}

theorem balance_refl : Balance plain 0 ts ts [] :=
  ⟨0, rfl, Nat.le_refl 0, fun _ => rfl⟩

theorem Balance.append (h₁ : Balance plain l ts mid ns) (h₂ : Balance plain k mid rest ms) :
    Balance plain (l + k) ts rest (ns ++ ms) := by
  obtain ⟨p, hp, hrules, hexact⟩ := h₁
  obtain ⟨q, hq, hrules', hexact'⟩ := h₂
  refine ⟨p + q, by omega, ?_, fun h => ?_⟩
  · rw [List.countP_append]
    omega
  · rw [List.countP_append, List.countP_append, hexact h, hexact' h]
    omega

/-- another token in front -/
theorem Balance.skip (ht : t ≠ .mark .hash) (h : Balance plain l ts rest ns) : Balance plain l (t :: ts) rest ns := by
  rwa [Balance, hashes_cons_of_ne ht]

/-- an opening bracket, a control word and its space in front -/
theorem Balance.skip_control {w : Keyword} (h : Balance plain l ts rest ns) :
    Balance plain l (.mark .openSquare :: .keyword w :: .space :: ts) rest ns :=
  ((h.skip (by simp)).skip (by simp)).skip (by simp)

/-- a hash in front of both places -/
theorem Balance.hash (h : Balance plain l ts rest ns) :
    Balance plain l (.mark .hash :: ts) (.mark .hash :: rest) ns := by
  obtain ⟨p, hp, h⟩ := h
  refine ⟨p, ?_, h⟩
  rw [hashes_hash, hashes_hash]
  omega

/-- another token behind -/
theorem Balance.stop (ht : t ≠ .mark .hash) (h : Balance plain l ts (t :: rest) ns) : Balance plain l ts rest ns := by
  rwa [Balance, hashes_cons_of_ne ht] at h

/-- another node that takes no hashes -/
theorem Balance.node (hr : n.isRule = false) (he : n.isEmptyText = false) (h : Balance plain l ts rest ns) :
    Balance plain l ts rest (n :: ns) := by
  rwa [Balance, List.countP_cons_of_neg (by simp [hr]), List.countP_cons_of_neg (by simp [he])]

/-- a rule around nodes, and its two hashes around tokens -/
theorem Balance.rule {name : String} {mods : List (Modifier Node)} (h : Balance plain 0 ts (.mark .hash :: rest) ns) :
    Balance plain 0 (.mark .hash :: ts) rest (.rule name mods :: ns) := by
  obtain ⟨p, hp, hrules, hexact⟩ := h
  rw [hashes_hash] at hp
  refine ⟨p + 1, ?_, ?_, fun h => ?_⟩
  · rw [hashes_hash]
    omega
  · rw [List.countP_cons_of_pos rfl]
    omega
  · rw [List.countP_cons_of_pos rfl, List.countP_cons_of_neg (by simp [isEmptyText]), hexact h]
    omega

/-- where the count is not exact only the number of rules matters -/
theorem Balance.inexact (hp : ¬ plain) (hr : ms.countP isRule = ns.countP isRule) (h : Balance plain l ts rest ns) :
    Balance plain l ts rest ms := by
  obtain ⟨p, hp', hrules, -⟩ := h
  exact ⟨p, hp', hr ▸ hrules, fun h => absurd h hp⟩

/-- a text that is not empty takes no hashes -/
theorem balance_text {s : String} (hs : plain → s ≠ "") : Balance plain 0 ts ts [.text s] :=
  ⟨0, rfl, Nat.le_refl 0, fun h => by simp [isRule, isEmptyText, hs h]⟩

theorem Spent.append (h₁ : Spent plain ts mid ns) (h₂ : Spent plain mid rest ms) (hs : rest <:+ mid) :
    Spent plain ts rest (ns ++ ms) := by
  rcases h₁ with h₁ | ⟨rfl, h₁⟩
  · rcases h₂ with h₂ | ⟨hrest, h₂⟩
    · exact Or.inl (h₁.append h₂)
    · exact Or.inr ⟨hrest, (Nat.zero_add 1) ▸ h₁.append h₂⟩
  · obtain rfl := List.suffix_nil.1 hs
    rcases h₂ with h₂ | ⟨-, q, hq, -⟩
    · exact Or.inr ⟨rfl, h₁.append h₂⟩
    · -- no hash is left that could be alone as well
      rw [hashes_nil] at hq
      omega

/-- in front of a token no hash is alone -/
theorem Spent.closed (h : Spent plain ts (t :: rest) ns) : Balance plain 0 ts (t :: rest) ns := by
  rcases h with h | ⟨hrest, -⟩
  · exact h
  · cases hrest

theorem Spent.skip (ht : t ≠ .mark .hash) (h : Spent plain ts rest ns) : Spent plain (t :: ts) rest ns :=
  h.imp (·.skip ht) (And.imp_right (·.skip ht))

theorem Spent.of_afterSpace (h : Spent plain (afterSpace ts) rest ns) : Spent plain ts rest ns := by
  rwa [Spent, Balance, Balance, hashes_afterSpace] at h

theorem Spent.node (hr : n.isRule = false) (he : n.isEmptyText = false) (h : Spent plain ts rest ns) :
    Spent plain ts rest (n :: ns) :=
  h.imp (·.node hr he) (And.imp_right (·.node hr he))

theorem Spent.inexact (hp : ¬ plain) (hr : ms.countP isRule = ns.countP isRule) (h : Spent plain ts rest ns) :
    Spent plain ts rest ms :=
  h.imp (·.inexact hp hr) (And.imp_right (·.inexact hp hr))

end

/-! ## Derivations -/

/-- what a form makes of the hashes that it takes. What follows the tags of a rule is taken with the first hash. -/
def Form.Spends (plain : Prop) : (f : Form) → List Token → f.Yield → List Token → Prop
  | .block, ts, ns, rest | .fragment, ts, ns, rest | .items, ts, ns, rest | .construct .rule, ts, ns, rest =>
    Spent plain ts rest (nodesIn ns)
  | .heads, ts, ns, rest | .construct .tag, ts, ns, rest | .construct .ifBlock, ts, ns, rest
  | .construct .whileBlock, ts, ns, rest => Balance plain 0 ts rest (nodesIn ns)
  | .list, ts, bs, rest | .elements, ts, bs, rest => Spent plain ts rest (nodesInEach bs)
  | .params, ts, bs, rest => Balance plain 0 ts rest (nodesInEach bs)
  | .modifiers, ts, ms, rest => Balance plain 0 ts rest (nodesInModifiers ms)
  | .condition, ts, c, rest => Spent plain ts rest (nodesIn c.lhs ++ nodesIn c.rhs)
  | .reference, ts, ns, rest =>
    ts = [] ∧ rest = [] ∧ Balance plain 1 [.mark .hash] [] (nodesIn ns) ∨
      ts ≠ [] ∧ Balance plain 0 (.mark .hash :: ts) rest (nodesIn ns)

/-- the count can be exact of these tokens. It is not of a condition. -/
def Form.Plain : Form → List Token → Prop
  | .condition, _ => False
  | _, ts => PlainTokens ts

theorem spent_construct {plain : Prop} {k : Construct} {ts rest : List Token} {ns : List Node}
    (h : (Form.construct k).Spends plain ts ns rest) : Spent plain ts rest (nodesIn ns) := by
  cases k with
  | rule => exact h
  | _ => exact Or.inl h

/-! ### Nodes of one node -/

theorem nodesIn_text_cons (s : String) (ns : List Node) : nodesIn (.text s :: ns) = [.text s] ++ nodesIn ns := rfl

theorem nodesIn_rule (name : String) (ms : List (Modifier Node)) :
    nodesIn [.rule name ms] = .rule name ms :: nodesInModifiers ms :=
  List.append_nil _

theorem nodesIn_ifThen (c : Condition Node) (t : List Node) :
    nodesIn [.ifBlock c t none] = .ifBlock c t none :: (nodesIn c.lhs ++ nodesIn c.rhs ++ nodesIn t) :=
  List.append_nil _

theorem nodesIn_ifThenElse (c : Condition Node) (t e : List Node) :
    nodesIn [.ifBlock c t (some e)] =
      .ifBlock c t (some e) :: (nodesIn c.lhs ++ nodesIn c.rhs ++ nodesIn t ++ nodesIn e) :=
  List.append_nil _

theorem nodesIn_whileDo (c : Condition Node) (d : List Node) :
    nodesIn [.whileBlock c d] = .whileBlock c d :: (nodesIn c.lhs ++ nodesIn c.rhs ++ nodesIn d) :=
  List.append_nil _

/-! ### What forms take -/

/-- a control bracket is not plain -/
theorem not_plain_control {plain : Prop} {w : Keyword} (hw : w = .ifWord ∨ w = .whileWord) {ts : List Token}
    (hp : plain → PlainTokens (.mark .openSquare :: .keyword w :: ts)) : ¬ plain :=
  fun h => (hp h).noControl w hw (List.mem_cons_of_mem _ List.mem_cons_self)

theorem Derives.spends {n : Nat} {f : Form} {ts rest : List Token} {y : f.Yield} (h : Derives n f ts y rest)
    {plain : Prop} (hp : plain → f.Plain ts) : f.Spends plain ts y rest := by
  induction h with
  | blockEnd | elementsEnd | itemsEnd => exact Or.inl balance_refl
  | headsEnd | modifiersEnd | noParams => exact balance_refl
  | text => exact Or.inl ((balance_text fun h => (hp h).rawText_ne List.mem_cons_self).skip (by simp))
  | number => exact Or.inl ((balance_text fun h => (hp h).rawText_ne List.mem_cons_self).skip (by simp))
  | weight => exact Or.inl (((balance_refl.node rfl rfl).skip (by simp)).skip (by simp))
  | colon => exact Or.inl ((balance_text fun _ => by decide).skip (by simp))
  | opened _ _ ih => exact spent_construct (ih hp)
  | blockMore h₁ h₂ ih₁ ih₂ =>
    have hns := (ih₁ hp).append (ih₂ fun h => (hp h).of_suffix h₁.suffix) h₂.suffix
    rwa [← nodesIn_append] at hns
  | itemsOpened _ h₁ h₂ ih₁ ih₂ =>
    have hns := (spent_construct (ih₁ hp)).append (ih₂ fun h => (hp h).of_suffix h₁.suffix) h₂.suffix
    rwa [← nodesIn_append] at hns
  | headsMore h₁ _ ih₁ ih₂ =>
    have hns := (ih₁ hp).append (ih₂ fun h => (hp h).of_suffix h₁.suffix)
    rwa [← nodesIn_append] at hns
  | list h₁ h₂ ih₁ ih₂ => exact (ih₁ hp).append (ih₂ fun h => (hp h).of_suffix h₁.suffix) h₂.suffix
  | elementsMore h₁ _ h₂ ih₁ ih₂ =>
    have hp' (h : plain) := (hp h).of_suffix (List.suffix_cons _ _)
    exact ((ih₁ hp').append (ih₂ fun h => (hp' h).of_suffix h₁.suffix) h₂.suffix).skip (by simp)
  | doubleHash => exact Or.inr ⟨by simp, 1, by simp, by decide, fun _ => by decide⟩
  | loneHash => exact Or.inl ⟨rfl, rfl, 0, rfl, by decide, fun _ => by decide⟩
  | named _ ih =>
    have hms := ih fun h => (hp h).of_suffix (List.suffix_cons _ _)
    exact Or.inr ⟨by simp, nodesIn_rule _ _ ▸ (hms.skip (by simp)).rule⟩
  | unnamed _ ih => exact Or.inr ⟨by simp, nodesIn_rule _ _ ▸ (ih hp).rule⟩
  | modifiersMore h₁ _ ih₁ ih₂ =>
    have hp' (h : plain) := (hp h).of_suffix (suffix_skip (List.suffix_cons _ _))
    exact (((ih₁ hp').append (ih₂ fun h => (hp' h).of_suffix h₁.suffix)).skip (by simp)).skip (by simp)
  | emptyParams _ ih =>
    have hbs := ih fun h => (hp h).of_suffix (List.suffix_cons _ _)
    exact (hbs.closed.stop (by simp)).skip (by simp)
  | params _ _ ih =>
    have hbs := ih fun h => (hp h).of_suffix (List.suffix_cons _ _)
    exact (hbs.closed.stop (by simp)).skip (by simp)
  | itemsEntry h₁ _ h₂ ih₁ ih₂ =>
    have hp' (h : plain) := (hp h).of_suffix (suffix_skip (List.suffix_cons _ _))
    have hns := (ih₁ hp').append (ih₂ fun h => (hp' h).of_suffix h₁.suffix) h₂.suffix
    exact ((hns.node rfl rfl).skip (by simp)).skip (by simp)
  | plainCondition _ _ ih =>
    refine (ih fun h => (hp h).elim).inexact hp ?_
    rw [List.countP_append, countP_isRule_dropFinalSpace]
    rfl
  | @condition _ _ _ t _ c _ _ h₁ hc h₂ _ ih₁ ih₂ =>
    have ht : t ≠ .mark .hash := by
      rintro rfl
      cases hc
    have hlhs := (ih₁ fun h => (hp h).elim).closed.stop ht
    have hrhs := (ih₂ fun h => (hp h).elim).of_afterSpace
    refine (Spent.append (Or.inl hlhs) hrhs (h₂.suffix.trans (afterSpace_suffix _))).inexact hp ?_
    rw [List.countP_append, List.countP_append, countP_isRule_dropFinalSpace, countP_isRule_dropFinalSpace]
  | rule h₁ h₂ ih₁ ih₂ =>
    have hp' (h : plain) := (hp h).of_suffix (List.suffix_cons _ _)
    have htags := (ih₁ hp').hash
    have hns := ih₂ fun h => (hp' h).of_suffix h₁.suffix
    rw [Form.Spends, nodesIn_append]
    rcases hns with ⟨rfl, rfl, hns⟩ | ⟨-, hns⟩
    · exact Or.inr ⟨rfl, htags.append hns⟩
    · exact Or.inl (htags.append hns)
  | tag _ ih =>
    have hns := ih fun h => (hp h).of_suffix (List.suffix_cons _ _)
    exact (hns.closed.stop (by simp)).skip (by simp)
  | ifThen _ _ _ ih₁ ih₂ =>
    have hn : ¬ plain := not_plain_control (Or.inl rfl) hp
    have hc := ((ih₁ fun h => absurd h hn).closed.stop (by simp)).stop (by simp)
    have ht := (ih₂ fun h => absurd h hn).closed.stop (by simp)
    rw [Form.Spends, nodesIn_ifThen]
    exact ((hc.append ht).node rfl rfl).skip_control
  | ifThenElse _ _ _ _ _ ih₁ ih₂ ih₃ =>
    have hn : ¬ plain := not_plain_control (Or.inl rfl) hp
    have hc := ((ih₁ fun h => absurd h hn).closed.stop (by simp)).stop (by simp)
    have ht := ((ih₂ fun h => absurd h hn).closed.stop (by simp)).stop (by simp)
    have he := (ih₃ fun h => absurd h hn).closed.stop (by simp)
    have ht' := ht.inexact hn (countP_isRule_dropFinalSpace _)
    rw [Form.Spends, nodesIn_ifThenElse]
    exact (((hc.append ht').append he).node rfl rfl).skip_control
  | whileDo _ _ _ ih₁ ih₂ =>
    have hn : ¬ plain := not_plain_control (Or.inr rfl) hp
    have hc := ((ih₁ fun h => absurd h hn).closed.stop (by simp)).stop (by simp)
    have hd := (ih₂ fun h => absurd h hn).closed.stop (by simp)
    rw [Form.Spends, nodesIn_whileDo]
    exact ((hc.append hd).node rfl rfl).skip_control

/-- a token that a block leaves over is no hash -/
theorem ne_hash_of_starts {t : Token} {ts : List Token} (h : starts (t :: ts) = false) : t ≠ .mark .hash := by
  rintro rfl
  cases h

theorem Document.spends {n : Nat} {ts : List Token} {ns : List Node} (h : Document n ts ns) {plain : Prop}
    (hp : plain → PlainTokens ts) : Spent plain ts [] (nodesIn ns) := by
  induction h with
  | last h => exact h.spends hp
  | @stray ts ns t rest ms h _ ih =>
    have hsuffix : t :: rest <:+ ts := h.suffix
    have hblock := (h.spends hp).closed.stop (ne_hash_of_starts (h.starts_rest rfl))
    have ht : Balance plain 0 rest rest [.text t.rawText] :=
      balance_text fun h => (hp h).rawText_ne (hsuffix.subset List.mem_cons_self)
    have hns := Spent.append (Or.inl (hblock.append ht)) (ih fun h => (hp h).of_suffix (suffix_drop hsuffix))
      List.nil_suffix
    rwa [List.append_assoc, ← nodesIn_text_cons, ← nodesIn_append] at hns

end TextGrammar
