/-
The grammar of token lists, as a derivation relation.

`Derives n f ts y rest` says that form `f` yields `y` from the tokens of `ts` that stand before `rest`, with constructs
nested at most `n` deep. It is stated over tokens only: there is no cursor, no log and no order in which things are
tried. What keeps it from being ambiguous is written into its rules:
- a form that repeats goes on as long as the next token lets it: blocks while a fragment can start (`starts`), lists
  while there are commas, heads while there are brackets, modifiers while there are dots, the items of a tag up to its
  closing bracket or the end;
- what a bracket opens depends on the token behind it at fragment position (`opens`), and on nothing inside a rule head
  or directly inside a tag, where it is a tag;
- a colon is a weight if and only if a number follows;
- elements of a list behind the first one, the first value of a tag, the block behind a connective and the blocks of
  control brackets have nodes. They are counted before a final space is dropped.

`Document n ts nodes` is the top level, where a token that no fragment starts with is kept as its own text.

Results:
- `Derives.suffix`: what a form leaves over is the end of what it was given;
- `Derives.mono`, `Document.mono`: a derivation stays one when deeper nesting is allowed.
-/
import TextGrammar.Parser.Construct

namespace TextGrammar

/-! ## Forms -/

/-- the forms of the grammar -/
inductive Form where
  /-- fragments one after another -/
  | block
  | fragment
  /-- blocks between commas -/
  | list
  /-- the blocks of a list behind its first -/
  | elements
  /-- the tags in front of the name of a rule -/
  | heads
  /-- what follows the tags of a rule -/
  | reference
  | modifiers
  /-- the round brackets of a modifier -/
  | params
  /-- what stands between the brackets of a tag -/
  | items
  | condition
  | construct (k : Construct)

/-- what a form yields -/
abbrev Form.Yield : Form → Type
  | list | elements | params => List (List Node)
  | modifiers => List (Modifier Node)
  | condition => Condition Node
  | _ => List Node

/-! ## What a token can start -/

/-- the construct that opens at fragment position; a square bracket that is the last token opens none -/
def opens : List Token → Option Construct
  | .mark .hash :: _ => some .rule
  | [.mark .openSquare] => none
  | .mark .openSquare :: .keyword .ifWord :: _ => some .ifBlock
  | .mark .openSquare :: .keyword .whileWord :: _ => some .whileBlock
  | .mark .openSquare :: _ => some .tag
  | _ => none

/-- the mark that a construct opens with -/
def Construct.opening : Construct → Mark
  | rule => .hash
  | tag | ifBlock | whileBlock => .openSquare

theorem head?_of_opens {ts : List Token} {k : Construct} (h : opens ts = some k) :
    ts.head? = some (.mark k.opening) := by
  unfold opens at h
  split at h <;> cases h <;> rfl

/-- the construct that opens directly inside a tag -/
def opensInTag : List Token → Option Construct
  | .mark .hash :: _ => some .rule
  | .mark .openSquare :: _ => some .tag
  | _ => none

/-- can a fragment start here? -/
def starts : List Token → Bool
  | .mark .colon :: _ | .text _ :: _ | .number _ _ :: _ => true
  | ts => (opens ts).isSome

/-- is there a number ahead? -/
def numberAhead : List Token → Bool
  | .number _ _ :: _ => true
  | _ => false

/-- the connective ahead -/
def connectiveAhead (ts : List Token) : Option Connective :=
  ts.head?.bind (Connective.ofKind? ·.kind)

/-- the tokens without a space in front -/
def afterSpace : List Token → List Token
  | .space :: ts => ts
  | ts => ts

/-! ## Derivations -/

/-- `Derives n f ts y rest`: form `f` yields `y` from the tokens of `ts` that stand before `rest`, nested at most `n`
deep -/
inductive Derives : Nat → (f : Form) → List Token → f.Yield → List Token → Prop where
  | blockEnd {n ts} : starts ts = false → Derives n .block ts [] ts
  | blockMore {n ts mid rest ns ms} :
      Derives n .fragment ts ns mid → Derives n .block mid ms rest → Derives n .block ts (ns ++ ms) rest
  | text {n s ts} : Derives n .fragment (.text s :: ts) [.text s] ts
  | number {n x s ts} :
      Derives n .fragment (.number x s :: ts) [.text (Token.rawText (.number x s))] ts
  | weight {n x s ts} : Derives n .fragment (.mark .colon :: .number x s :: ts) [.weight x] ts
  | colon {n ts} : numberAhead ts = false → Derives n .fragment (.mark .colon :: ts) [.text ":"] ts
  | opened {n k ts ns rest} :
      opens ts = some k → Derives n (.construct k) ts ns rest → Derives n .fragment ts ns rest
  | list {n ts mid rest ns bs} :
      Derives n .block ts ns mid → Derives n .elements mid bs rest → Derives n .list ts (ns :: bs) rest
  | elementsEnd {n ts} : ts.head? ≠ some (.mark .comma) → Derives n .elements ts [] ts
  | elementsMore {n ts mid rest ns bs} :
      Derives n .block ts ns mid → ns ≠ [] → Derives n .elements mid bs rest →
      Derives n .elements (.mark .comma :: ts) (ns :: bs) rest
  | headsEnd {n ts} : ts.head? ≠ some (.mark .openSquare) → Derives n .heads ts [] ts
  | headsMore {n ts mid rest ns ms} :
      Derives n (.construct .tag) ts ns mid → Derives n .heads mid ms rest → Derives n .heads ts (ns ++ ms) rest
  | doubleHash {n ts} : Derives n .reference (.mark .hash :: ts) [.text ""] ts
  | loneHash {n} : Derives n .reference [] [.text "#"] []
  | named {n name ts ms rest} :
      Derives n .modifiers ts ms (.mark .hash :: rest) →
      Derives n .reference (.text name :: ts) [.rule name ms] rest
  | unnamed {n ts ms rest} :
      Derives n .modifiers (.mark .dot :: ts) ms (.mark .hash :: rest) →
      Derives n .reference (.mark .dot :: ts) [.rule "" ms] rest
  | modifiersEnd {n ts} : ts.head? ≠ some (.mark .dot) → Derives n .modifiers ts [] ts
  | modifiersMore {n name ts ps mid ms rest} :
      Derives n .params ts ps mid → Derives n .modifiers mid ms rest →
      Derives n .modifiers (.mark .dot :: .text name :: ts) (⟨name, ps⟩ :: ms) rest
  | noParams {n ts} : ts.head? ≠ some (.mark .openRound) → Derives n .params ts [] ts
  | emptyParams {n ts rest} :
      Derives n .list ts [[]] (.mark .closeRound :: rest) →
      Derives n .params (.mark .openRound :: ts) [] rest
  | params {n ts bs rest} :
      Derives n .list ts bs (.mark .closeRound :: rest) → bs ≠ [[]] →
      Derives n .params (.mark .openRound :: ts) bs rest
  | itemsEnd {n ts} : (∀ t, ts.head? = some t → t = .mark .closeSquare) → Derives n .items ts [] ts
  | itemsOpened {n k ts ns mid ms rest} :
      opensInTag ts = some k → Derives n (.construct k) ts ns mid → Derives n .items mid ms rest →
      Derives n .items ts (ns ++ ms) rest
  | itemsEntry {n name ts v vs mid ms rest} :
      Derives n .list ts (v :: vs) mid → v ≠ [] → Derives n .items mid ms rest →
      Derives n .items (.text name :: .mark .colon :: ts) (.tag name (v :: vs) :: ms) rest
  | plainCondition {n ts lhs rest} :
      Derives n .block ts lhs rest → connectiveAhead rest = none →
      Derives n .condition ts ⟨Node.dropFinalSpace lhs, .notEqualTo, [.text ""]⟩ rest
  | condition {n ts lhs t mid c rhs rest} :
      Derives n .block ts lhs (t :: mid) → Connective.ofKind? t.kind = some c →
      Derives n .block (afterSpace mid) rhs rest → rhs ≠ [] →
      Derives n .condition ts ⟨Node.dropFinalSpace lhs, c.relation rhs, Node.dropFinalSpace rhs⟩ rest
  | rule {n ts mid rest tags ns} :
      Derives n .heads ts tags mid → Derives n .reference mid ns rest →
      Derives (n + 1) (.construct .rule) (.mark .hash :: ts) (tags ++ ns) rest
  | tag {n ts ns rest} :
      Derives n .items ts ns (.mark .closeSquare :: rest) →
      Derives (n + 1) (.construct .tag) (.mark .openSquare :: ts) ns rest
  | ifThen {n ts c mid t rest} :
      Derives n .condition ts c (.keyword .thenWord :: .space :: mid) →
      Derives n .block mid t (.mark .closeSquare :: rest) → t ≠ [] →
      Derives (n + 1) (.construct .ifBlock) (.mark .openSquare :: .keyword .ifWord :: .space :: ts)
        [.ifBlock c t none] rest
  | ifThenElse {n ts c mid t mid' e rest} :
      Derives n .condition ts c (.keyword .thenWord :: .space :: mid) →
      Derives n .block mid t (.keyword .elseWord :: .space :: mid') → t ≠ [] →
      Derives n .block mid' e (.mark .closeSquare :: rest) → e ≠ [] →
      Derives (n + 1) (.construct .ifBlock) (.mark .openSquare :: .keyword .ifWord :: .space :: ts)
        [.ifBlock c (Node.dropFinalSpace t) (some e)] rest
  | whileDo {n ts c mid d rest} :
      Derives n .condition ts c (.keyword .doWord :: .space :: mid) →
      Derives n .block mid d (.mark .closeSquare :: rest) → d ≠ [] →
      Derives (n + 1) (.construct .whileBlock) (.mark .openSquare :: .keyword .whileWord :: .space :: ts)
        [.whileBlock c d] rest

/-- the top level: blocks, and between them tokens that no fragment starts with -/
inductive Document (n : Nat) : List Token → List Node → Prop where
  | last {ts ns} : Derives n .block ts ns [] → Document n ts ns
  | stray {ts ns t rest ms} :
      Derives n .block ts ns (t :: rest) → Document n rest ms →
      Document n ts (ns ++ .text t.rawText :: ms)

/-! ## What is left over -/

section

variable {t : Token} {ts us : List Token}

theorem suffix_skip (h : us <:+ ts) : us <:+ t :: ts :=
  h.trans (List.suffix_cons t ts)

theorem suffix_drop (h : t :: us <:+ ts) : us <:+ ts :=
  (List.suffix_cons t us).trans h

theorem length_lt_of_cons_suffix (h : t :: us <:+ ts) : us.length < ts.length :=
  h.length_le

end

theorem afterSpace_suffix (ts : List Token) : afterSpace ts <:+ ts := by
  unfold afterSpace
  split
  · exact List.suffix_cons _ _
  · exact List.suffix_refl _

namespace Derives

variable {n m : Nat} {f : Form} {ts rest : List Token}

/-- what a form leaves over is the end of what it was given -/
theorem suffix {y : f.Yield} (h : Derives n f ts y rest) : rest <:+ ts := by
  induction h with
  | blockEnd | elementsEnd | headsEnd | loneHash | modifiersEnd | noParams | itemsEnd => exact List.suffix_refl _
  | text | number | colon | doubleHash => exact List.suffix_cons _ _
  | weight => exact suffix_skip (List.suffix_cons _ _)
  | opened _ _ ih | plainCondition _ _ ih => exact ih
  | blockMore _ _ h₁ h₂ | list _ _ h₁ h₂ | headsMore _ _ h₁ h₂ | itemsOpened _ _ _ h₁ h₂ => exact h₂.trans h₁
  | elementsMore _ _ _ h₁ h₂ | rule _ _ h₁ h₂ => exact suffix_skip (h₂.trans h₁)
  | named _ ih => exact suffix_skip (suffix_drop ih)
  | unnamed _ ih => exact suffix_drop ih
  | modifiersMore _ _ h₁ h₂ | itemsEntry _ _ _ h₁ h₂ => exact suffix_skip (suffix_skip (h₂.trans h₁))
  | emptyParams _ ih | params _ _ ih | tag _ ih => exact suffix_skip (suffix_drop ih)
  | condition _ _ _ _ h₁ h₂ => exact (h₂.trans (afterSpace_suffix _)).trans (suffix_drop h₁)
  | ifThen _ _ _ h₁ h₂ | whileDo _ _ _ h₁ h₂ =>
    have h := (suffix_drop h₂).trans (suffix_drop (suffix_drop h₁))
    exact suffix_skip (suffix_skip (suffix_skip h))
  | ifThenElse _ _ _ _ _ h₁ h₂ h₃ =>
    have h := (suffix_drop (suffix_drop h₂)).trans (suffix_drop (suffix_drop h₁))
    exact suffix_skip (suffix_skip (suffix_skip ((suffix_drop h₃).trans h)))

/-- a construct takes at least one token -/
theorem construct_shortens {k : Construct} {ns : List Node} (h : Derives n (.construct k) ts ns rest) :
    rest.length < ts.length := by
  cases h with
  | rule h₁ h₂ => exact Nat.lt_succ_of_le (h₂.suffix.trans h₁.suffix).length_le
  | tag h => exact Nat.lt_succ_of_lt (length_lt_of_cons_suffix h.suffix)
  | ifThen h₁ h₂ _ | whileDo h₁ h₂ _ =>
    have := length_lt_of_cons_suffix h₁.suffix
    have := length_lt_of_cons_suffix h₂.suffix
    simp only [List.length_cons] at *
    omega
  | ifThenElse h₁ h₂ _ h₃ _ =>
    have := length_lt_of_cons_suffix h₁.suffix
    have := length_lt_of_cons_suffix h₂.suffix
    have := length_lt_of_cons_suffix h₃.suffix
    simp only [List.length_cons] at *
    omega

/-- a fragment takes at least one token -/
theorem fragment_shortens {ns : List Node} (h : Derives n .fragment ts ns rest) : rest.length < ts.length := by
  cases h with
  | opened _ h => exact h.construct_shortens
  | weight => exact Nat.lt_succ_of_lt (Nat.lt_succ_self _)
  | _ => exact Nat.lt_succ_self _

/-- what allows one level more than `n` is one level more than something that allows `n` -/
theorem level_below (h : n + 1 ≤ m) : ∃ k, m = k + 1 ∧ n ≤ k :=
  ⟨m - 1, by omega, by omega⟩

/-- deeper nesting may be allowed -/
theorem mono {y : f.Yield} (h : Derives n f ts y rest) (hm : n ≤ m) : Derives m f ts y rest := by
  induction h generalizing m with
  | blockEnd h => exact .blockEnd h
  | blockMore _ _ h₁ h₂ => exact .blockMore (h₁ hm) (h₂ hm)
  | text => exact .text
  | number => exact .number
  | weight => exact .weight
  | colon h => exact .colon h
  | opened hk _ ih => exact .opened hk (ih hm)
  | list _ _ h₁ h₂ => exact .list (h₁ hm) (h₂ hm)
  | elementsEnd h => exact .elementsEnd h
  | elementsMore _ hn _ h₁ h₂ => exact .elementsMore (h₁ hm) hn (h₂ hm)
  | headsEnd h => exact .headsEnd h
  | headsMore _ _ h₁ h₂ => exact .headsMore (h₁ hm) (h₂ hm)
  | doubleHash => exact .doubleHash
  | loneHash => exact .loneHash
  | named _ ih => exact .named (ih hm)
  | unnamed _ ih => exact .unnamed (ih hm)
  | modifiersEnd h => exact .modifiersEnd h
  | modifiersMore _ _ h₁ h₂ => exact .modifiersMore (h₁ hm) (h₂ hm)
  | noParams h => exact .noParams h
  | emptyParams _ ih => exact .emptyParams (ih hm)
  | params _ hb ih => exact .params (ih hm) hb
  | itemsEnd h => exact .itemsEnd h
  | itemsOpened hk _ _ h₁ h₂ => exact .itemsOpened hk (h₁ hm) (h₂ hm)
  | itemsEntry _ hv _ h₁ h₂ => exact .itemsEntry (h₁ hm) hv (h₂ hm)
  | plainCondition _ hc ih => exact .plainCondition (ih hm) hc
  | condition _ hc _ hn h₁ h₂ => exact .condition (h₁ hm) hc (h₂ hm) hn
  | rule _ _ h₁ h₂ =>
    obtain ⟨k, rfl, hk⟩ := level_below hm
    exact .rule (h₁ hk) (h₂ hk)
  | tag _ ih =>
    obtain ⟨k, rfl, hk⟩ := level_below hm
    exact .tag (ih hk)
  | ifThen _ _ ht h₁ h₂ =>
    obtain ⟨k, rfl, hk⟩ := level_below hm
    exact .ifThen (h₁ hk) (h₂ hk) ht
  | ifThenElse _ _ ht _ he h₁ h₂ h₃ =>
    obtain ⟨k, rfl, hk⟩ := level_below hm
    exact .ifThenElse (h₁ hk) (h₂ hk) ht (h₃ hk) he
  | whileDo _ _ hd h₁ h₂ =>
    obtain ⟨k, rfl, hk⟩ := level_below hm
    exact .whileDo (h₁ hk) (h₂ hk) hd

end Derives

theorem Document.mono {n m : Nat} {ts : List Token} {ns : List Node} (h : Document n ts ns) (hm : n ≤ m) :
    Document m ts ns := by
  induction h with
  | last h => exact .last (h.mono hm)
  | stray h _ ih => exact .stray (h.mono hm) ih

end TextGrammar
