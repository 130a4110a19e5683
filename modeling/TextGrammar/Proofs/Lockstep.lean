/-
Two parsers side by side.

A `Lockstep` is a way in which two parsers can go together: a relation `Rel p q c` between what `p` does at the cursor
`c` and what `q` does there, or at a cursor that goes with `c`. It has to be kept by the few things that parsers are put
together from. Then it holds of everything that is written over a parser for the constructs, as soon as it holds of
that parser. So the grammar is gone through once, and not again for each property of runs.

- `At` says at which cursors the parsers are run. It is kept by steps over tokens.
- `InStep p q`: the two go together wherever they are run.
- `ParseError.Arises`, `Remark.Arises`: what an error or a remark says about the place where it arises.
- `RunRelation`: where the other cursor has the same tokens ahead, a relation between runs is enough.

Results:
- `body_inStep`: the body of a construct, over parsers that go together one token further on;
- `construct_inStep`: so a construct with one level more;
- `inStep_construct`: so all constructs, where the refusal of one that is nested too deep goes together with itself.
-/
import TextGrammar.Proofs.Soundness

namespace TextGrammar

open TextGrammar.Parser

/-- what an error says about the place where it arises, if `At` holds of the places that were gone through. No
construct is too deep for itself, a space is missed only behind its control word, and only some words have a block. -/
def ParseError.Arises (At : Cursor → Prop) (c : Cursor) : ParseError → Prop
  | .unexpectedEnd => c.ahead = []
  | .mismatch due found => c.ahead.head? = some found ∧ found.kind ≠ due
  | .missing (.spaceAfter k) found =>
    c.ahead.head? = found ∧ found ≠ some .space ∧ ∃ b, At b ∧ b.ahead.head? = some (.keyword k) ∧ b.next = c
  | .missing _ found => c.ahead.head? = found
  | .tooDeep _ => False
  | .emptyBlock k => k ∈ [Keyword.thenWord, .elseWord, .doWord]
  | .emptyElement | .emptyTagValue | .emptyOperand _ | .emptyMembers => True

/-- what a remark says about the place where it is made, below the top level: no token is stray there, and a hash is
alone at the end only -/
def Remark.Arises (c : Cursor) : Remark → Prop
  | .stray _ _ => False
  | .loneHash => c.ahead = []
  | .bareColon => True

theorem Remark.Arises.not_stray {c : Cursor} {r : Remark} (h : r.Arises c) : r.isStray = false := by
  cases r with
  | stray t i => exact h.elim
  | _ => rfl

/-- a relation between two parsers at a cursor, kept by whatever parsers are put together from -/
structure Lockstep where
  /-- the cursors at which the parsers are run -/
  At : Cursor → Prop
  /-- what the two parsers have to do with each other at a cursor -/
  Rel : ∀ {α : Type}, Parser α → Parser α → Cursor → Prop
  at_next : ∀ {c}, At c → c.ahead ≠ [] → At c.next
  rel_pure : ∀ {α : Type} (a : α) c, Rel (pure a) (pure a) c
  rel_fail : ∀ {α : Type} {e : ParseError} {c}, e.Arises At c → Rel (fail e : Parser α) (fail e) c
  rel_remark : ∀ {r : Remark} c, r.Arises c → Rel (remark r) (remark r) c
  rel_peek : ∀ {α : Type} {f g : Option Token → Parser α} {c},
    Rel (f c.ahead.head?) (g c.ahead.head?) c → Rel (peek >>= f) (peek >>= g) c
  rel_advance : ∀ {α : Type} {f g : Unit → Parser α} {c},
    c.ahead ≠ [] → Rel (f ()) (g ()) c.next → Rel (advance >>= f) (advance >>= g) c
  rel_bind : ∀ {α β : Type} {p q : Parser α} {f g : α → Parser β} {c}, At c → Rel p q c →
    (∀ a d, At d → Gives p c a d → Rel (f a) (g a) d) → Rel (p >>= f) (q >>= g) c
  rel_many : ∀ {α : Type} {p q : Parser (Option α)} {c}, Advances p → Advances q →
    (∀ purse, Rel (rounds p purse) (rounds q purse) c) → Rel (many p) (many q) c
  rel_fragment : ∀ {inner inner' : Inner} {c}, At c →
    Option.Rel (fun p q => Rel p q c) (startAt inner c.ahead) (startAt inner' c.ahead) →
    Rel (fragment inner) (fragment inner') c
  rel_deeper : ∀ {α : Type} {p q : Parser α} {c}, Rel p q c.below → Rel (deeper p) (deeper q) c

namespace Lockstep

variable {α β : Type} (L : Lockstep) {c : Cursor}

/-- the parsers go together wherever they are run -/
def InStep (p q : Parser α) : Prop := ∀ c, L.At c → L.Rel p q c

variable {L}

/-! ## Closure -/

theorem inStep_pure (a : α) : L.InStep (pure a) (pure a) :=
  fun c _ => L.rel_pure a c

theorem InStep.bind {p q : Parser α} {f g : α → Parser β} (hp : L.InStep p q) (hf : ∀ a, L.InStep (f a) (g a)) :
    L.InStep (p >>= f) (q >>= g) :=
  fun c hc => L.rel_bind hc (hp c hc) fun a d hd _ => hf a d hd

theorem InStep.map {p q : Parser α} (hp : L.InStep p q) (f : α → β) : L.InStep (f <$> p) (f <$> q) := by
  rw [← bind_pure_comp, ← bind_pure_comp]
  exact hp.bind fun a => inStep_pure (f a)

/-- what comes after a look at the next token may depend on it -/
theorem inStep_peek_bind {f g : Option Token → Parser α}
    (hf : ∀ c, L.At c → L.Rel (f c.ahead.head?) (g c.ahead.head?) c) : L.InStep (peek >>= f) (peek >>= g) :=
  fun c hc => L.rel_peek (hf c hc)

theorem rel_step (hc : c.ahead ≠ []) : L.Rel advance advance c := by
  have h := L.rel_advance (f := pure) (g := pure) hc (L.rel_pure () _)
  rwa [bind_pure] at h

theorem ahead_ne_nil_of_any {k : Kind} (h : c.ahead.head?.any (·.kind = k) = true) : c.ahead ≠ [] := by
  rintro hc
  simp [hc] at h

/-- two ways to go on, one of them over a token of the given kind -/
theorem rel_ifNext {k : Kind} {p p' q q' : Parser α}
    (hp : c.ahead.head?.any (·.kind = k) = true → L.Rel p p' c)
    (hq : c.ahead.head?.any (·.kind = k) = false → L.Rel q q' c) :
    L.Rel (nextIs k >>= fun b => if b = true then p else q) (nextIs k >>= fun b => if b = true then p' else q') c := by
  unfold nextIs
  simp only [bind_assoc, pure_bind]
  refine L.rel_peek ?_
  cases hk : c.ahead.head?.any (·.kind = k) with
  | true => exact hp hk
  | false => exact hq hk

/-- a token of the given kind is stepped over, and one pair follows, or else another one -/
theorem inStep_ifNext {k : Kind} {p p' q q' : Parser α} (hp : L.InStep p p') (hq : L.InStep q q') :
    L.InStep (nextIs k >>= fun b => if b = true then (advance >>= fun _ => p) else q)
      (nextIs k >>= fun b => if b = true then (advance >>= fun _ => p') else q') := by
  refine fun c hc => rel_ifNext (fun hk => ?_) fun _ => hq c hc
  have hn := ahead_ne_nil_of_any hk
  exact L.rel_advance hn (hp _ (L.at_next hc hn))

theorem inStep_rounds {p q : Parser (Option α)} (h : L.InStep p q) (purse : List Token) :
    L.InStep (rounds p purse) (rounds q purse) := by
  induction purse with
  | nil => exact h.bind fun _ => inStep_pure _
  | cons t purse ih =>
    refine h.bind fun o => ?_
    cases o with
    | none => exact inStep_pure _
    | some a => exact ih.map _

theorem inStep_many {p q : Parser (Option α)} (hp : Advances p) (hq : Advances q) (h : L.InStep p q) :
    L.InStep (many p) (many q) :=
  fun c hc => L.rel_many hp hq fun purse => inStep_rounds h purse c hc

/-! ## Single tokens -/

/-- what follows a token that is due goes together one token further on -/
theorem rel_expect_bind {k : Kind} {f g : Unit → Parser α} (h : c.ahead ≠ [] → L.Rel (f ()) (g ()) c.next) :
    L.Rel (expect k >>= f) (expect k >>= g) c := by
  unfold expect
  simp only [bind_assoc]
  refine L.rel_peek ?_
  cases hc : c.ahead.head? with
  | none => exact L.rel_fail (List.head?_eq_none_iff.1 hc)
  | some t =>
    have hn : c.ahead ≠ [] := by rintro h; simp [h] at hc
    by_cases hk : t.kind = k
    · simp only [if_pos hk]
      exact L.rel_advance hn (h hn)
    · simp only [if_neg hk]
      exact L.rel_fail ⟨hc, hk⟩

theorem inStep_expect (k : Kind) : L.InStep (expect k) (expect k) := by
  intro c _
  have h := rel_expect_bind (L := L) (k := k) (f := pure) (g := pure) (c := c) fun _ => L.rel_pure () _
  rwa [bind_pure] at h

/-- a token that is due in words of its own -/
theorem rel_require {k : Kind} {due : Expectation} (h : c.ahead.head?.any (·.kind = k) = false →
      L.Rel (fail (α := Unit) (.missing due c.ahead.head?)) (fail (.missing due c.ahead.head?)) c) :
    L.Rel (require k due) (require k due) c := by
  refine rel_ifNext (fun hk => rel_step (ahead_ne_nil_of_any hk)) fun hk => ?_
  exact L.rel_peek (h hk)

theorem inStep_require (k : Kind) {due : Expectation} (h : ∀ w, due ≠ .spaceAfter w) :
    L.InStep (require k due) (require k due) := by
  intro c _
  refine rel_require fun _ => L.rel_fail ?_
  cases due with
  | spaceAfter w => exact absurd rfl (h w)
  | _ => rfl

/-- the space behind a control word -/
theorem rel_requireSpace {w : Keyword} {b : Cursor} (hb : L.At b) (hw : b.ahead.head? = some (.keyword w))
    (hn : b.next = c) : L.Rel (require .space (.spaceAfter w)) (require .space (.spaceAfter w)) c := by
  refine rel_require fun h => L.rel_fail ⟨rfl, ?_, b, hb, hw, hn⟩
  rintro hs
  rw [hs] at h
  exact absurd h (by decide)

theorem inStep_skip (k : Kind) : L.InStep (skip k) (skip k) :=
  fun c _ => rel_ifNext (fun hk => rel_step (ahead_ne_nil_of_any hk)) fun _ => L.rel_pure () c

theorem inStep_optionalText : L.InStep optionalText optionalText := by
  refine inStep_peek_bind fun c _ => ?_
  split
  · rename_i s hc
    exact L.rel_advance (by rintro h; simp [h] at hc) (L.rel_pure _ _)
  · exact L.rel_pure _ c

theorem inStep_requireText {due : Expectation} (h : ∀ w, due ≠ .spaceAfter w) :
    L.InStep (requireText due) (requireText due) := by
  refine inStep_optionalText.bind fun o => ?_
  cases o with
  | some s => exact inStep_pure s
  | none =>
    refine inStep_peek_bind fun c _ => L.rel_fail ?_
    cases due with
    | spaceAfter w => exact absurd rfl (h w)
    | _ => rfl

theorem inStep_weight : L.InStep weight weight := by
  refine (inStep_expect _).bind fun _ => inStep_peek_bind fun c hc => ?_
  split
  · rename_i x s hx
    exact L.rel_advance (by rintro h; simp [h] at hx) (L.rel_pure _ _)
  · exact L.rel_bind hc (L.rel_remark c trivial) fun _ d _ _ => L.rel_pure _ d

/-! ## Constructs -/

section

variable {inner inner' : Inner} (hi : ∀ k, L.InStep (inner k) (inner' k))

include hi

/-- what starts a fragment is the same for both -/
theorem rel_startAt (hc : L.At c) :
    Option.Rel (fun p q => L.Rel p q c) (startAt inner c.ahead) (startAt inner' c.ahead) := by
  have literal {s : String} {t : Token} {ts : List Token} (h : c.ahead = t :: ts) :
      L.Rel (do advance; return [Node.text s]) (do advance; return [Node.text s]) c :=
    L.rel_advance (by simp [h]) (L.rel_pure _ _)
  unfold startAt
  split
  · exact .some (hi .rule c hc)
  · exact .none
  · exact .some (hi .ifBlock c hc)
  · exact .some (hi .whileBlock c hc)
  · exact .some (hi .tag c hc)
  · exact .some (inStep_weight c hc)
  · rename_i h
    exact .some (literal h)
  · rename_i h
    exact .some (literal h)
  · exact .none

theorem inStep_fragment : L.InStep (fragment inner) (fragment inner') :=
  fun _ hc => L.rel_fragment hc (rel_startAt hi hc)

variable {n m : Nat} (hs : Sound n inner) (hs' : Sound m inner')

include hs hs'

theorem inStep_block : L.InStep (block inner) (block inner') :=
  (inStep_many (advances_fragment hs) (advances_fragment hs') (inStep_fragment hi)).bind fun _ => inStep_pure _

theorem inStep_listElement : L.InStep (listElement inner) (listElement inner') := by
  refine inStep_ifNext ((inStep_block hi hs hs').bind fun ns => ?_) (inStep_pure _)
  cases ns with
  | nil => exact fun c _ => L.rel_fail trivial
  | cons n ns => exact inStep_pure _

theorem inStep_blockList : L.InStep (blockList inner) (blockList inner') := by
  have elements := inStep_many (advances_listElement hs) (advances_listElement hs') (inStep_listElement hi hs hs')
  exact (inStep_block hi hs hs').bind fun _ => elements.bind fun _ => inStep_pure _

theorem inStep_params (name : String) : L.InStep (params inner name) (params inner' name) := by
  refine inStep_ifNext ((inStep_blockList hi hs hs').bind fun bs => ?_) (inStep_pure _)
  exact (inStep_require _ (by simp)).bind fun _ => inStep_pure _

theorem inStep_modifier (rule : String) : L.InStep (modifier inner rule) (modifier inner' rule) := by
  refine inStep_ifNext ((inStep_requireText (by simp)).bind fun name => ?_) (inStep_pure _)
  exact (inStep_params hi hs hs' name).bind fun _ => inStep_pure _

theorem inStep_modifiers (rule : String) : L.InStep (many (modifier inner rule)) (many (modifier inner' rule)) :=
  inStep_many (advances_modifier hs rule) (advances_modifier hs' rule) (inStep_modifier hi hs hs' rule)

theorem inStep_headTags : L.InStep (many (headTag inner)) (many (headTag inner')) := by
  refine inStep_many (advances_headTag hs) (advances_headTag hs') fun c hc => rel_ifNext (fun _ => ?_) fun _ => ?_
  · exact (hi .tag).bind (fun _ => inStep_pure _) c hc
  · exact L.rel_pure _ c

theorem inStep_ruleReference : L.InStep (ruleReference inner) (ruleReference inner') := by
  refine inStep_optionalText.bind fun o => (inStep_modifiers hi hs hs' _).bind fun _ => ?_
  exact (inStep_require _ (by simp)).bind fun _ => inStep_pure _

theorem inStep_ruleBody : L.InStep (ruleBody inner) (ruleBody inner') := by
  refine inStep_peek_bind fun c hc => ?_
  split
  · rename_i h
    exact L.rel_bind hc (L.rel_remark c (List.head?_eq_none_iff.1 h)) fun _ d _ _ => L.rel_pure _ d
  · rename_i h
    exact L.rel_advance (by rintro h'; simp [h'] at h) (L.rel_pure _ _)
  · exact inStep_ruleReference hi hs hs' c hc

theorem inStep_tagEntry : L.InStep (tagEntry inner) (tagEntry inner') := by
  refine (inStep_requireText (by simp)).bind fun name => (inStep_require _ (by simp)).bind fun _ =>
    (inStep_blockList hi hs hs').bind fun vs => ?_
  split
  · exact fun c _ => L.rel_fail trivial
  · exact inStep_pure _

theorem inStep_tagItems : L.InStep (many (tagItem inner)) (many (tagItem inner')) := by
  refine inStep_many (advances_tagItem hs) (advances_tagItem hs') (inStep_peek_bind fun c hc => ?_)
  split
  · exact L.rel_pure _ c
  · exact L.rel_pure _ c
  · exact (hi .rule).bind (fun _ => inStep_pure _) c hc
  · exact (hi .tag).bind (fun _ => inStep_pure _) c hc
  · exact (inStep_tagEntry hi hs hs').bind (fun _ => inStep_pure _) c hc

theorem inStep_condition : L.InStep (condition inner) (condition inner') := by
  refine (inStep_block hi hs hs').bind fun lhs => inStep_peek_bind fun c hc => ?_
  split
  · exact L.rel_pure _ c
  · rename_i k hk
    have hn : c.ahead ≠ [] := by rintro h; simp [h] at hk
    refine L.rel_advance hn ?_
    refine (inStep_skip _).bind (fun _ => (inStep_block hi hs hs').bind fun rhs => ?_) _ (L.at_next hc hn)
    split
    · exact fun c _ => L.rel_fail (by cases k <;> trivial)
    · exact inStep_pure _

/-- the block behind a control word that has one -/
theorem rel_filledBlock {w : Keyword} {b : Cursor} (hk : w ∈ [Keyword.thenWord, .elseWord, .doWord]) (hb : L.At b)
    (hw : b.ahead.head? = some (.keyword w)) (hn : b.next = c) :
    L.Rel (filledBlock inner w) (filledBlock inner' w) c := by
  have hc : L.At c := hn ▸ L.at_next hb (by rintro h; simp [h] at hw)
  refine L.rel_bind hc (rel_requireSpace hb hw hn) fun _ d hd _ => ?_
  refine (inStep_block hi hs hs').bind (fun ns => ?_) d hd
  split
  · exact fun c _ => L.rel_fail hk
  · exact inStep_pure _

/-- what follows the opening bracket of a control bracket -/
theorem inStep_controlWord (w : Keyword) {f g : Condition Node → Parser α} (hf : ∀ r, L.InStep (f r) (g r)) :
    L.InStep (expect (.keyword w) >>= fun _ => require .space (.spaceAfter w) >>= fun _ => condition inner >>= f)
      (expect (.keyword w) >>= fun _ => require .space (.spaceAfter w) >>= fun _ => condition inner' >>= g) := by
  refine fun c hc => L.rel_bind hc (inStep_expect _ c hc) fun _ d hd h => ?_
  obtain ⟨hw, hn⟩ := (gives_expect (k := .keyword w) rfl).1 h
  exact L.rel_bind hd (rel_requireSpace hc hw hn) fun _ e he _ => (inStep_condition hi hs hs').bind hf e he

/-- a control word that is due behind a condition, and the block behind it -/
theorem inStep_wordBlock {w : Keyword} (hk : w ∈ [Keyword.thenWord, .elseWord, .doWord])
    {f g : List Node → Parser α} (hf : ∀ ns, L.InStep (f ns) (g ns)) :
    L.InStep (require (.keyword w) (.afterCondition w) >>= fun _ => filledBlock inner w >>= f)
      (require (.keyword w) (.afterCondition w) >>= fun _ => filledBlock inner' w >>= g) := by
  refine fun c hc => L.rel_bind hc (inStep_require _ (by simp) c hc) fun _ d hd h => ?_
  obtain ⟨hw, hn⟩ := (gives_require (k := .keyword w) rfl).1 h
  exact L.rel_bind hd (rel_filledBlock hi hs hs' hk hc hw hn) fun ns e he _ => hf ns e he

/-- the body of a construct is a mark and a rest. The rests go together. -/
theorem exists_rest (k : Construct) : ∃ rest rest' : Parser (List Node),
    k.body inner = (expect (.mark k.opening) >>= fun _ => rest) ∧
      k.body inner' = (expect (.mark k.opening) >>= fun _ => rest') ∧ L.InStep rest rest' := by
  cases k with
  | rule =>
    refine ⟨_, _, rfl, rfl, (inStep_headTags hi hs hs').bind fun _ => ?_⟩
    exact (inStep_ruleBody hi hs hs').bind fun _ => inStep_pure _
  | tag =>
    refine ⟨_, _, rfl, rfl, (inStep_tagItems hi hs hs').bind fun _ => ?_⟩
    exact (inStep_expect _).bind fun _ => inStep_pure _
  | ifBlock =>
    simp only [Construct.body, ifBlock, controlHead, bind_assoc]
    refine ⟨_, _, rfl, rfl, inStep_controlWord hi hs hs' .ifWord fun r => ?_⟩
    refine inStep_wordBlock hi hs hs' (w := .thenWord) (by decide) fun t d hd => rel_ifNext (fun h => ?_) fun _ => ?_
    · have hw := (any_kind_eq_iff (k := .keyword .elseWord) rfl _).1 h
      have hn := ahead_ne_nil_of_any h
      refine L.rel_advance hn ?_
      refine L.rel_bind (L.at_next hd hn) (rel_filledBlock hi hs hs' (by decide) hd hw rfl) fun e f hf _ => ?_
      exact (inStep_expect _).bind (fun _ => inStep_pure _) f hf
    · exact (inStep_expect _).bind (fun _ => inStep_pure _) d hd
  | whileBlock =>
    simp only [Construct.body, whileBlock, controlHead, bind_assoc]
    refine ⟨_, _, rfl, rfl, inStep_controlWord hi hs hs' .whileWord fun r => ?_⟩
    refine inStep_wordBlock hi hs hs' (w := .doWord) (by decide) fun b => ?_
    exact (inStep_expect _).bind fun _ => inStep_pure _

/-- the body of a construct, over parsers that go together one token further on -/
theorem body_inStep (k : Construct) (hc : c.ahead ≠ [] → L.At c.next) : L.Rel (k.body inner) (k.body inner') c := by
  obtain ⟨rest, rest', hbody, hbody', h⟩ := exists_rest hi hs hs' k
  rw [hbody, hbody']
  exact rel_expect_bind fun hn => h _ (hc hn)

end

/-- a construct with one level more -/
theorem construct_inStep {limit limit' n m : Nat} (hi : ∀ k, L.InStep (construct limit n k) (construct limit' m k))
    (k : Construct) (hc : c.ahead ≠ [] → L.At c.below.next) :
    L.Rel (construct limit (n + 1) k) (construct limit' (m + 1) k) c :=
  L.rel_deeper (body_inStep hi (construct_sound limit n) (construct_sound limit' m) k hc)

/-- constructs, if the refusal of one that is nested too deep goes together with itself -/
theorem inStep_construct (everywhere : ∀ c, L.At c) {limit : Nat}
    (refuse : ∀ c, L.Rel (fail (.tooDeep limit) : Parser (List Node)) (fail (.tooDeep limit)) c) (n : Nat)
    (k : Construct) : L.InStep (construct limit n k) (construct limit n k) := by
  induction n generalizing k with
  | zero => exact fun c _ => refuse c
  | succ n ih => exact fun c _ => construct_inStep ih k fun _ => everywhere _

end Lockstep

/-! ## Runs with the same tokens ahead -/

/-- what goes with a cursor has the same tokens ahead, also from the next one on and inside a construct -/
structure KeepsAhead (other : Cursor → Cursor) : Prop where
  ahead : ∀ c, (other c).ahead = c.ahead
  next : ∀ c, (other c).next = other c.next
  below : ∀ c, (other c).below = other c.below

theorem keepsAhead_id : KeepsAhead id := ⟨fun _ => rfl, fun _ => rfl, fun _ => rfl⟩

/-- a relation between the run of a parser at a cursor and the run of another one at a cursor with the same tokens
ahead, kept by whatever parsers are put together from -/
structure RunRelation where
  /-- the cursors at which the parsers are run -/
  At : Cursor → Prop
  /-- where the second one is run instead -/
  other : Cursor → Cursor
  /-- what the two runs have to do with each other -/
  Rel : ∀ {α : Type}, Cursor → Run α → Run α → Prop
  at_next : ∀ {c}, At c → c.ahead ≠ [] → At c.next
  keeps : KeepsAhead other
  pure : ∀ {α : Type} (a : α) c, Rel c ⟨.ok a, c, []⟩ ⟨.ok a, other c, []⟩
  fail : ∀ {α : Type} {e : ParseError} {c}, e.Arises At c → Rel (α := α) c ⟨.error e, c, []⟩ ⟨.error e, other c, []⟩
  remark : ∀ {r : Remark} c, r.Arises c → Rel c ⟨.ok (), c, [r]⟩ ⟨.ok (), other c, [r]⟩
  advance : ∀ {α : Type} {r r' : Run α} {c}, c.ahead ≠ [] → Rel c.next r r' → Rel c r r'
  bind : ∀ {α β : Type} {p q : Parser α} {f g : α → Parser β} {c}, At c → Rel c (p c) (q (other c)) →
    (∀ a d, At d → Gives p c a d → Rel d (f a d) (g a (other d))) → Rel c ((p >>= f) c) ((q >>= g) (other c))
  deeper : ∀ {α : Type} {p q : Parser α} {c}, Rel c.below (p c.below) (q (other c.below)) →
    Rel c (deeper p c) (deeper q (other c))

theorem peek_bind_apply {α : Type} (f : Option Token → Parser α) (c : Cursor) :
    (peek >>= f) c = f c.ahead.head? c := by
  simp [bind_apply, peek]

theorem advance_bind_apply {α : Type} (f : Unit → Parser α) (c : Cursor) : (advance >>= f) c = f () c.next := by
  simp [bind_apply, advance]

theorem ifNext_apply {α : Type} (k : Kind) (p q : Parser α) (c : Cursor) :
    (nextIs k >>= fun b => if b = true then p else q) c =
      if c.ahead.head?.any (·.kind = k) = true then p c else q c := by
  rw [nextIs, bind_assoc, peek_bind_apply, pure_bind]
  split <;> rfl

theorem fragment_apply (inner : Inner) (c : Cursor) :
    fragment inner c = match startAt inner c.ahead with
      | none => ⟨.ok none, c, []⟩
      | some p => (p >>= fun ns => Pure.pure (some ns)) c := by
  simp only [fragment, bind_apply (p := place), place, List.nil_append]
  cases startAt inner c.ahead <;> rfl

/-- the parsers go together where their runs do -/
def RunRelation.lockstep (R : RunRelation) : Lockstep where
  At := R.At
  Rel p q c := R.Rel c (p c) (q (R.other c))
  at_next := R.at_next
  rel_pure := R.pure
  rel_fail := R.fail
  rel_remark := R.remark
  rel_peek {α f g c} h := by
    rw [peek_bind_apply, peek_bind_apply, R.keeps.ahead]
    exact h
  rel_advance {α f g c} hc h := by
    rw [advance_bind_apply, advance_bind_apply, R.keeps.next]
    exact R.advance hc h
  rel_bind := R.bind
  rel_many {α p q c} _ _ h := by
    rw [many, many, R.keeps.ahead]
    exact h c.ahead
  rel_fragment {inner inner' c} hc h := by
    rw [fragment_apply, fragment_apply, R.keeps.ahead]
    cases hi : startAt inner c.ahead <;> cases hi' : startAt inner' c.ahead <;> rw [hi, hi'] at h <;> cases h
    · exact R.pure none c
    · rename_i hpq
      exact R.bind hc hpq fun ns d _ _ => R.pure (some ns) d
  rel_deeper := R.deeper

end TextGrammar
