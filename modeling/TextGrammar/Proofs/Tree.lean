/-
What is inside a tree.

A node holds blocks (`Node.blocks`): a rule reference the parameters of its modifiers, a tag its values, a control node
the sides of its condition and what stands behind them. Everything at any depth, and how deep it goes, is computed
along the tree:
- `Node.nodesIn` lists every node in a block, at any depth;
- `Node.heightIn` is the height of a block. Text and weights have height 0, any other node stands one above the blocks
  that it holds.

Results:
- `forall_nodesIn_cons`, `height_le_succ_iff`: what a node holds and how high it is, by its blocks only. Proofs about
  trees use these and do not unfold the two recursions;
- `forall_nodesIn_dropFinalSpace`, `heightIn_dropFinalSpace_le_iff`: a final space makes no difference to what holds of
  any text, nor to the height;
- `dropFinalSpace_eq_nil_iff`: taking it off leaves nothing only of a block that is just a space.
-/
import TextGrammar.Node

namespace TextGrammar

namespace Node

/-! ## Everything in a tree -/

/-- the blocks that a node holds -/
def blocks : Node → List (List Node)
  | .text _ | .weight _ => []
  | .rule _ ms => ms.flatMap (·.params)
  | .tag _ vs => vs
  | .ifBlock c t none => [c.lhs, c.rhs, t]
  | .ifBlock c t (some e) => [c.lhs, c.rhs, t, e]
  | .whileBlock c d => [c.lhs, c.rhs, d]

mutual

/-- the nodes in a node, the node itself first -/
def nodes : Node → List Node
  | .text s => [.text s]
  | .rule a ms => .rule a ms :: nodesInModifiers ms
  | .tag a vs => .tag a vs :: nodesInEach vs
  | .weight v => [.weight v]
  | .ifBlock ⟨l, o, r⟩ t none => .ifBlock ⟨l, o, r⟩ t none :: (nodesIn l ++ nodesIn r ++ nodesIn t)
  | .ifBlock ⟨l, o, r⟩ t (some e) =>
    .ifBlock ⟨l, o, r⟩ t (some e) :: (nodesIn l ++ nodesIn r ++ nodesIn t ++ nodesIn e)
  | .whileBlock ⟨l, o, r⟩ d => .whileBlock ⟨l, o, r⟩ d :: (nodesIn l ++ nodesIn r ++ nodesIn d)

/-- the nodes in a block -/
def nodesIn : List Node → List Node
  | [] => []
  | n :: ns => nodes n ++ nodesIn ns

/-- the nodes in several blocks -/
def nodesInEach : List (List Node) → List Node
  | [] => []
  | b :: bs => nodesIn b ++ nodesInEach bs

/-- the nodes in the parameters of modifiers -/
def nodesInModifiers : List (Modifier Node) → List Node
  | [] => []
  | ⟨_, ps⟩ :: ms => nodesInEach ps ++ nodesInModifiers ms

end

mutual

/-- how deep a node goes -/
def height : Node → Nat
  | .text _ => 0
  | .rule _ ms => 1 + heightInModifiers ms
  | .tag _ vs => 1 + heightInEach vs
  | .weight _ => 0
  | .ifBlock ⟨l, _, r⟩ t none => 1 + max (max (heightIn l) (heightIn r)) (heightIn t)
  | .ifBlock ⟨l, _, r⟩ t (some e) => 1 + max (max (heightIn l) (heightIn r)) (max (heightIn t) (heightIn e))
  | .whileBlock ⟨l, _, r⟩ d => 1 + max (max (heightIn l) (heightIn r)) (heightIn d)

/-- how deep a block goes -/
def heightIn : List Node → Nat
  | [] => 0
  | n :: ns => max (height n) (heightIn ns)

/-- how deep several blocks go -/
def heightInEach : List (List Node) → Nat
  | [] => 0
  | b :: bs => max (heightIn b) (heightInEach bs)

/-- how deep the parameters of modifiers go -/
def heightInModifiers : List (Modifier Node) → Nat
  | [] => 0
  | ⟨_, ps⟩ :: ms => max (heightInEach ps) (heightInModifiers ms)

end

variable {m n : Node} {ns ms : List Node} {k : Nat} {p : Node → Prop}

/-! ### Nodes by blocks -/

theorem nodesInEach_eq (bs : List (List Node)) : nodesInEach bs = bs.flatMap nodesIn := by
  induction bs with
  | nil => rfl
  | cons b bs ih => rw [nodesInEach, ih, List.flatMap_cons]

theorem nodesInModifiers_eq (ms : List (Modifier Node)) :
    nodesInModifiers ms = (ms.flatMap (·.params)).flatMap nodesIn := by
  induction ms with
  | nil => rfl
  | cons m ms ih => rw [nodesInModifiers, ih, nodesInEach_eq, List.flatMap_cons, List.flatMap_append]

/-- a node itself, and what its blocks hold -/
theorem nodes_eq (n : Node) : nodes n = n :: n.blocks.flatMap nodesIn := by
  cases n with
  | text s => rfl
  | weight v => rfl
  | rule a ms => rw [nodes, nodesInModifiers_eq, blocks]
  | tag a vs => rw [nodes, nodesInEach_eq, blocks]
  | ifBlock c t e => cases e <;> simp [nodes, blocks]
  | whileBlock c d => simp [nodes, blocks]

theorem nodesIn_eq (ns : List Node) : nodesIn ns = ns.flatMap nodes := by
  induction ns with
  | nil => rfl
  | cons n ns ih => rw [nodesIn, ih, List.flatMap_cons]

theorem forall_nodesIn_cons :
    (∀ x ∈ nodesIn (n :: ns), p x) ↔ (p n ∧ ∀ b ∈ n.blocks, ∀ x ∈ nodesIn b, p x) ∧ ∀ x ∈ nodesIn ns, p x := by
  have hb : (∀ x ∈ n.blocks.flatMap nodesIn, p x) ↔ ∀ b ∈ n.blocks, ∀ x ∈ nodesIn b, p x := List.forall_mem_flatMap
  rw [nodesIn, List.forall_mem_append, nodes_eq, List.forall_mem_cons, hb]

theorem nodesIn_append (ms ns : List Node) : nodesIn (ms ++ ns) = nodesIn ms ++ nodesIn ns := by
  rw [nodesIn_eq, nodesIn_eq, nodesIn_eq, List.flatMap_append]

theorem forall_nodesIn_append :
    (∀ x ∈ nodesIn (ms ++ ns), p x) ↔ (∀ x ∈ nodesIn ms, p x) ∧ ∀ x ∈ nodesIn ns, p x := by
  rw [nodesIn_append, List.forall_mem_append]

/-! ### Heights by blocks -/

theorem heightInEach_le_iff {bs : List (List Node)} : heightInEach bs ≤ k ↔ ∀ b ∈ bs, heightIn b ≤ k := by
  induction bs with
  | nil => simp [heightInEach]
  | cons b bs ih => rw [heightInEach, Nat.max_le, ih, List.forall_mem_cons]

theorem heightInModifiers_le_iff {ms : List (Modifier Node)} :
    heightInModifiers ms ≤ k ↔ ∀ b ∈ ms.flatMap (·.params), heightIn b ≤ k := by
  induction ms with
  | nil => simp [heightInModifiers]
  | cons m ms ih => rw [heightInModifiers, Nat.max_le, ih, heightInEach_le_iff, List.flatMap_cons,
      List.forall_mem_append]

/-- a node fits below a level above 0 if and only if its blocks fit below the level under it -/
theorem height_le_succ_iff : height n ≤ k + 1 ↔ ∀ b ∈ n.blocks, heightIn b ≤ k := by
  have under {a : Nat} : 1 + a ≤ k + 1 ↔ a ≤ k := by omega
  cases n with
  | text s => simp [height, blocks]
  | weight v => simp [height, blocks]
  | rule a ms => rw [height, under, heightInModifiers_le_iff, blocks]
  | tag a vs => rw [height, under, heightInEach_le_iff, blocks]
  | ifBlock c t e => cases e <;> simp [height, under, blocks, Nat.max_le]
  | whileBlock c d => simp [height, under, blocks, Nat.max_le]

theorem heightIn_le_iff : heightIn ns ≤ k ↔ ∀ n ∈ ns, height n ≤ k := by
  induction ns with
  | nil => simp [heightIn]
  | cons n ns ih => rw [heightIn, Nat.max_le, ih, List.forall_mem_cons]

theorem heightIn_append_le_iff : heightIn (ms ++ ns) ≤ k ↔ heightIn ms ≤ k ∧ heightIn ns ≤ k := by
  simp only [heightIn_le_iff, List.forall_mem_append]

/-! ## Rule references -/

/-- is the node a reference to a rule? -/
def isRule : Node → Bool
  | .rule _ _ => true
  | _ => false

mutual

/-- the rule references counted along a node are the rules among all nodes in it -/
theorem ruleRefs_eq : ∀ n : Node, ruleRefs n = (nodes n).countP isRule
  | .text _ | .weight _ => rfl
  | .rule _ ms => by rw [ruleRefs, nodes, List.countP_cons, ruleRefsInModifiers_eq ms, Nat.add_comm]; rfl
  | .tag _ vs => by rw [ruleRefs, nodes, List.countP_cons, ruleRefsInEach_eq vs]; rfl
  | .ifBlock ⟨l, _, r⟩ t none => by
    rw [ruleRefs, nodes, List.countP_cons, List.countP_append, List.countP_append, ruleRefsIn_eq l, ruleRefsIn_eq r,
      ruleRefsIn_eq t]
    rfl
  | .ifBlock ⟨l, _, r⟩ t (some e) => by
    rw [ruleRefs, nodes, List.countP_cons, List.countP_append, List.countP_append, List.countP_append,
      ruleRefsIn_eq l, ruleRefsIn_eq r, ruleRefsIn_eq t, ruleRefsIn_eq e]
    rfl
  | .whileBlock ⟨l, _, r⟩ d => by
    rw [ruleRefs, nodes, List.countP_cons, List.countP_append, List.countP_append, ruleRefsIn_eq l, ruleRefsIn_eq r,
      ruleRefsIn_eq d]
    rfl

/-- so for a block -/
theorem ruleRefsIn_eq : ∀ ns : List Node, ruleRefsIn ns = (nodesIn ns).countP isRule
  | [] => rfl
  | n :: ns => by rw [ruleRefsIn, nodesIn, List.countP_append, ruleRefs_eq n, ruleRefsIn_eq ns]

/-- so for several blocks -/
theorem ruleRefsInEach_eq : ∀ bs : List (List Node), ruleRefsInEach bs = (nodesInEach bs).countP isRule
  | [] => rfl
  | b :: bs => by rw [ruleRefsInEach, nodesInEach, List.countP_append, ruleRefsIn_eq b, ruleRefsInEach_eq bs]

/-- so for the parameters of modifiers -/
theorem ruleRefsInModifiers_eq : ∀ ms : List (Modifier Node),
    ruleRefsInModifiers ms = (nodesInModifiers ms).countP isRule
  | [] => rfl
  | ⟨_, ps⟩ :: ms => by
    rw [ruleRefsInModifiers, nodesInModifiers, List.countP_append, ruleRefsInEach_eq ps, ruleRefsInModifiers_eq ms]

end

/-! ## Without a final space -/

theorem textWithoutFinalSpace_eq_nil_iff {s : String} : textWithoutFinalSpace s = [] ↔ s = " " := by
  unfold textWithoutFinalSpace
  by_cases hs : s = " "
  · exact iff_of_true (if_pos hs) hs
  · rw [if_neg hs]
    split <;> exact iff_of_false (List.cons_ne_nil _ _) hs

/-- all of a block goes only if it is empty or just a space -/
theorem dropFinalSpace_eq_nil_iff : dropFinalSpace ns = [] ↔ ns = [] ∨ ns = [.text " "] := by
  unfold dropFinalSpace
  split
  · simp
  · simp [textWithoutFinalSpace_eq_nil_iff]
  · rename_i n ns h
    refine iff_of_false (List.cons_ne_nil _ _) ?_
    rintro (hn | hn)
    · exact List.cons_ne_nil _ _ hn
    · obtain ⟨rfl, rfl⟩ := List.cons.inj hn
      exact h _ rfl rfl

/-- a first node that is no text stays -/
theorem dropFinalSpace_cons_of_not_text (h : ∀ s, n ≠ .text s) : dropFinalSpace (n :: ns) = n :: dropFinalSpace ns := by
  cases n with
  | text s => exact absurd rfl (h s)
  | _ => rfl

/-- what holds of any text holds of the nodes of a block with or without the final space -/
theorem forall_dropFinalSpace (hp : ∀ s, p (.text s)) : (∀ x ∈ dropFinalSpace ns, p x) ↔ ∀ x ∈ ns, p x := by
  induction ns using dropFinalSpace.induct with
  | case1 => rfl
  | case2 s =>
    have hs : ∀ x ∈ textWithoutFinalSpace s, p x := by
      intro x hx
      unfold textWithoutFinalSpace at hx
      split at hx
      · exact absurd hx List.not_mem_nil
      · split at hx <;> exact List.mem_singleton.mp hx ▸ hp _
    exact iff_of_true hs (List.forall_mem_singleton.2 (hp s))
  | case3 n ns hn ih => rw [dropFinalSpace.eq_3 n ns hn, List.forall_mem_cons, List.forall_mem_cons, ih]

theorem forall_nodesIn_dropFinalSpace (hp : ∀ s, p (.text s)) :
    (∀ x ∈ nodesIn (dropFinalSpace ns), p x) ↔ ∀ x ∈ nodesIn ns, p x := by
  rw [nodesIn_eq, nodesIn_eq, List.forall_mem_flatMap, List.forall_mem_flatMap]
  exact forall_dropFinalSpace (p := fun n => ∀ x ∈ nodes n, p x) fun s x hx => List.mem_singleton.mp hx ▸ hp s

theorem heightIn_dropFinalSpace_le_iff : heightIn (dropFinalSpace ns) ≤ k ↔ heightIn ns ≤ k := by
  rw [heightIn_le_iff, heightIn_le_iff]
  exact forall_dropFinalSpace (p := (height · ≤ k)) fun _ => Nat.zero_le k

/-- a final space is no rule -/
theorem countP_isRule_dropFinalSpace (ns : List Node) :
    (nodesIn (dropFinalSpace ns)).countP isRule = (nodesIn ns).countP isRule := by
  induction ns using dropFinalSpace.induct with
  | case1 => rfl
  | case2 s =>
    rw [dropFinalSpace, textWithoutFinalSpace]
    split
    · rfl
    · split <;> rfl
  | case3 n ns hn ih =>
    rw [dropFinalSpace.eq_3 n ns hn, nodesIn, nodesIn, List.countP_append, List.countP_append, ih]

end Node

end TextGrammar
