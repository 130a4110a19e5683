/-
Constructs that close with a token of their own.

A tag and the two control brackets end in a square bracket that closes, and what follows the tags of a rule ends in a
hash. So wherever they succeed there was a token ahead until the very last step. A property of runs that this step
decides is a `Closing`: a parser has it if its last step has it, and all that comes before only has to go together with
itself.

Results:
- `Closing.ruleReference`: the reference of a rule has it;
- `Closing.body`: so has the body of every construct but a rule.
-/
import TextGrammar.Proofs.Lockstep

namespace TextGrammar

open TextGrammar.Parser

/-- a property that a parser has at a cursor because its last step has it: one that takes a token that is due -/
structure Closing (L : Lockstep) where
  /-- the parser has the property at the cursor -/
  Has : ∀ {α : Type}, Parser α → Cursor → Prop
  everywhere : ∀ c, L.At c
  bind : ∀ {α β : Type} {p : Parser α} {f : α → Parser β} {c}, L.Rel p p c →
    (∀ a d, Gives p c a d → Has (f a) d) → Has (p >>= f) c
  bind_pure : ∀ {α β : Type} {p : Parser α} {c}, Has p c → ∀ f : α → β, Has (p >>= fun a => pure (f a)) c
  expect : ∀ k c, Has (expect k) c
  require : ∀ k due c, Has (require k due) c

namespace Closing

variable {L : Lockstep} (C : Closing L) {n : Nat} {inner : Inner} (hs : Sound n inner)
  (hi : ∀ k, L.InStep (inner k) (inner k)) (c : Cursor)

/-- a parser that goes together with itself, in front of one that has the property -/
theorem behind {α β : Type} {p : Parser α} {f : α → Parser β} (hp : L.InStep p p) (hf : ∀ a d, C.Has (f a) d) :
    C.Has (p >>= f) c :=
  C.bind (hp c (C.everywhere c)) fun a d _ => hf a d

include hs hi

theorem ruleReference : C.Has (ruleReference inner) c := by
  refine C.behind c Lockstep.inStep_optionalText fun o d => ?_
  refine C.behind d (Lockstep.inStep_modifiers hi hs hs _) fun ms e => ?_
  exact C.bind_pure (C.require _ _ e) _

theorem tag : C.Has (tag inner) c := by
  refine C.behind c (Lockstep.inStep_expect _) fun _ d => ?_
  refine C.behind d (Lockstep.inStep_tagItems hi hs hs) fun items e => ?_
  exact C.bind_pure (C.expect _ e) _

/-- what follows a condition decides -/
theorem controlHead {w : Keyword} {f : Condition Node → Parser (List Node)} (h : ∀ r d, C.Has (f r) d) :
    C.Has (controlHead inner w >>= f) c := by
  simp only [TextGrammar.controlHead, bind_assoc]
  refine C.behind c (Lockstep.inStep_expect _) fun _ d => ?_
  refine C.bind (Lockstep.inStep_expect _ d (C.everywhere d)) fun _ e he => ?_
  obtain ⟨hw, hn⟩ := (gives_expect (k := .keyword w) rfl).1 he
  refine C.bind (Lockstep.rel_requireSpace (C.everywhere d) hw hn) fun _ e' _ => ?_
  exact C.behind e' (Lockstep.inStep_condition hi hs hs) h

/-- what follows the block behind a control word decides -/
theorem wordBlock {w : Keyword} (hk : w ∈ [Keyword.thenWord, .elseWord, .doWord])
    {f : List Node → Parser (List Node)} (h : ∀ ns d, C.Has (f ns) d) :
    C.Has (Parser.require (.keyword w) (.afterCondition w) >>= fun _ => filledBlock inner w >>= f) c := by
  refine C.bind (Lockstep.inStep_require _ (by simp) c (C.everywhere c)) fun _ d hd => ?_
  obtain ⟨hw, hn⟩ := (gives_require (k := .keyword w) rfl).1 hd
  exact C.bind (Lockstep.rel_filledBlock hi hs hs hk (C.everywhere c) hw hn) fun ns e _ => h ns e

theorem ifBlock : C.Has (ifBlock inner) c := by
  refine C.controlHead hs hi c fun r d => C.wordBlock hs hi d (by decide) fun t e => ?_
  have next : L.InStep (nextIs (.keyword .elseWord)) (nextIs (.keyword .elseWord)) :=
    Lockstep.inStep_peek_bind fun c _ => L.rel_pure _ c
  refine C.bind (next e (C.everywhere e)) fun b f hb => ?_
  obtain ⟨hk, rfl⟩ := gives_nextIs.1 hb
  cases b with
  | false => exact C.bind_pure (C.expect _ e) _
  | true =>
    have hw := (any_kind_eq_iff (k := .keyword .elseWord) rfl _).1 hk
    refine C.bind (Lockstep.rel_step (Lockstep.ahead_ne_nil_of_any hk)) fun _ d hd => ?_
    have filled := Lockstep.rel_filledBlock hi hs hs (by decide) (C.everywhere e) hw (gives_advance.1 hd)
    exact C.bind filled fun b f _ => C.bind_pure (C.expect _ f) _

theorem whileBlock : C.Has (whileBlock inner) c := by
  refine C.controlHead hs hi c fun r d => C.wordBlock hs hi d (by decide) fun t e => ?_
  exact C.bind_pure (C.expect _ e) _

/-- every construct but a rule closes with a bracket -/
theorem body {k : Construct} (hk : k ≠ .rule) : C.Has (k.body inner) c := by
  cases k with
  | rule => exact absurd rfl hk
  | tag => exact C.tag hs hi c
  | ifBlock => exact C.ifBlock hs hi c
  | whileBlock => exact C.whileBlock hs hi c

end Closing

end TextGrammar
