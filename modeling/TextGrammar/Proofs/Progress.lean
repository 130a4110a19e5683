/-
Progress, and how long the loops of the parsers go on.

A fragment that is declined has not moved the cursor, and one that is yielded has taken a token, also if it has no nodes
(an empty tag). So does every round of a repetition that yields something, at the top level and inside constructs
(`Repeated`).

`many` is given a purse of rounds. That hides nothing: the loop that just goes on until a round declines or fails
(`Ends`, which has no bound of its own) ends, and with the run of `many` (`ends_many`). Its rounds are at most one more
than the tokens ahead.

- `passes_of_gives`: a result that leaves fewer tokens ahead has moved the cursor on.
- `Ends.unique`: a loop ends in one way only.
- `Repeated.advances`: every repetition of a parse makes progress.

Result:
- `parsing_makes_progress`: progress of every parser, the place where a block stops, and the bound on every loop.
-/
import TextGrammar.Proofs.Passage

namespace TextGrammar

open TextGrammar.Parser

/-! ## Moves -/

namespace Cursor

variable {c d : Cursor}

/-- `d` is `c` moved over one of the tokens ahead at least -/
def Passes (c d : Cursor) : Prop :=
  c.Reaches d ∧ c.index < d.index

/-- what the index gains is no longer ahead -/
theorem Reaches.index_add_length (h : c.Reaches d) : d.index + d.ahead.length = c.index + c.ahead.length := by
  obtain ⟨taken, ha, hi, -⟩ := h
  rw [hi, ha, List.length_append, Nat.add_assoc]

/-- where fewer tokens are left, some were gone over -/
theorem Reaches.passes (h : c.Reaches d) (hlt : d.ahead.length < c.ahead.length) : c.Passes d := by
  have hsum := h.index_add_length
  exact ⟨h, by omega⟩

end Cursor

namespace Parser

variable {α : Type} {p : Parser (Option α)} {c d : Cursor}

/-- a parser that goes forward passes a token where it leaves fewer tokens ahead -/
theorem passes_of_gives {β : Type} {q : Parser β} {b : β} (hq : Forward q) (h : Gives q c b d)
    (hlt : d.ahead.length < c.ahead.length) : c.Passes d := by
  have hr : c.Reaches d := h.2 ▸ hq c trivial
  exact hr.passes hlt

/-! ## Loops without a bound -/

/-- rounds of `p` from `c` on, until one declines or fails: there are `n` of them, and `r` is what they do together -/
inductive Ends (p : Parser (Option α)) : Cursor → Nat → Run (List α) → Prop where
  | declines {c d : Cursor} {rs : List Remark} : p c = ⟨.ok none, d, rs⟩ → Ends p c 1 ⟨.ok [], d, rs⟩
  | fails {c d : Cursor} {e : ParseError} {rs : List Remark} :
      p c = ⟨.error e, d, rs⟩ → Ends p c 1 ⟨.error e, d, rs⟩
  | goesOn {c d : Cursor} {a : α} {rs : List Remark} {n : Nat} {r : Run (List α)} :
      p c = ⟨.ok (some a), d, rs⟩ → Ends p d n r →
      Ends p c (n + 1) ⟨r.result.map (a :: ·), r.cursor, rs ++ r.remarks⟩

/-- a loop ends in one way only -/
theorem Ends.unique {n m : Nat} {r s : Run (List α)} (h : Ends p c n r) (h' : Ends p c m s) : n = m ∧ r = s := by
  induction h generalizing m s with
  | declines hp | fails hp =>
    cases h' <;> rename_i hq <;> rw [hp] at hq <;> cases hq
    exact ⟨rfl, rfl⟩
  | goesOn hp _ ih =>
    cases h' with
    | declines hq | fails hq =>
      rw [hp] at hq
      cases hq
    | goesOn hq h' =>
      rw [hp] at hq
      cases hq
      obtain ⟨rfl, rfl⟩ := ih h'
      exact ⟨rfl, rfl⟩

/-- a loop whose rounds take tokens ends, as `many` does, after one round more than there are tokens ahead at most -/
theorem ends_many (hp : Advances p) (c : Cursor) : ∃ n, n ≤ c.ahead.length + 1 ∧ Ends p c n (many p c) := by
  -- on the tokens ahead: a round that yields something has taken one of them
  induction hn : c.ahead.length using Nat.strongRecOn generalizing c with
  | ind n ih =>
    rcases hpc : p c with ⟨e | _ | a, d, rs⟩
    · refine ⟨1, by omega, ?_⟩
      rw [many_eq hp, bind_apply_error hpc]
      exact .fails hpc
    · refine ⟨1, by omega, ?_⟩
      rw [many_eq hp, bind_apply_ok hpc]
      simpa using Ends.declines hpc
    · have hlt : d.ahead.length < n := by
        have h := hp c a (by rw [hpc])
        rwa [hpc, hn] at h
      obtain ⟨m, hm, hends⟩ := ih _ hlt d rfl
      refine ⟨m + 1, by omega, ?_⟩
      rw [many_eq hp, bind_apply_ok hpc]
      exact .goesOn hpc hends

end Parser

/-! ## The loops of a parse -/

/-- the constructs as a parse has them under the limit: at the top level, or inside others with some levels left -/
def AtSomeLevel (limit : Nat) (inner : Inner) : Prop :=
  inner = outermost limit ∨ ∃ levels, inner = construct limit levels

/-- what a parse under the limit repeats: passages of a document, fragments of a block, elements of a list, tags and
modifiers of a rule, and what stands inside a tag -/
inductive Repeated (limit : Nat) : {α : Type} → Parser (Option α) → Prop where
  | passage : Repeated limit (passage limit)
  | fragment {inner : Inner} : AtSomeLevel limit inner → Repeated limit (fragment inner)
  | listElement {inner : Inner} : AtSomeLevel limit inner → Repeated limit (listElement inner)
  | headTag {inner : Inner} : AtSomeLevel limit inner → Repeated limit (headTag inner)
  | modifier {inner : Inner} (rule : String) : AtSomeLevel limit inner → Repeated limit (modifier inner rule)
  | tagItem {inner : Inner} : AtSomeLevel limit inner → Repeated limit (tagItem inner)

theorem AtSomeLevel.exists_sound {limit : Nat} {inner : Inner} (h : AtSomeLevel limit inner) :
    ∃ n, Sound n inner := by
  rcases h with rfl | ⟨levels, rfl⟩
  · exact ⟨limit, sound_outermost limit⟩
  · exact ⟨levels, construct_sound limit levels⟩

/-- every round of a repetition takes a token, if it yields something -/
theorem Repeated.advances {limit : Nat} {α : Type} {p : Parser (Option α)} (h : Repeated limit p) : Advances p := by
  cases h with
  | passage => exact advances_passage limit
  | fragment hi =>
    obtain ⟨n, hs⟩ := hi.exists_sound
    exact advances_fragment hs
  | listElement hi =>
    obtain ⟨n, hs⟩ := hi.exists_sound
    exact advances_listElement hs
  | headTag hi =>
    obtain ⟨n, hs⟩ := hi.exists_sound
    exact advances_headTag hs
  | modifier rule hi =>
    obtain ⟨n, hs⟩ := hi.exists_sound
    exact advances_modifier hs rule
  | tagItem hi =>
    obtain ⟨n, hs⟩ := hi.exists_sound
    exact advances_tagItem hs

/-! ## Parsers -/

section

variable {limit : Nat} {c d : Cursor} {ns : List Node}

theorem passes_of_construct {k : Construct} (h : Gives (outermost limit k) c ns d) : c.Passes d := by
  apply passes_of_gives (forward_outermost limit k) h
  exact (sound_outermost limit k c ns d h).construct_shortens

theorem passes_of_weight (h : Gives weight c ns d) : c.Passes d := by
  have hf : Forward weight := Lockstep.inStep_weight
  apply passes_of_gives hf h
  exact (weight_sound (n := 0) h).fragment_shortens

/-- a fragment takes a token, also if it yields no nodes -/
theorem passes_of_fragment (h : Gives (fragment (outermost limit)) c (some ns) d) : c.Passes d := by
  have hf : Forward (fragment (outermost limit)) := Lockstep.inStep_fragment (forward_outermost limit)
  apply passes_of_gives hf h
  exact (fragment_sound (sound_outermost limit) h).fragment_shortens

/-- a block stops where a fragment is declined -/
theorem declined_behind_block (h : Gives (block (outermost limit)) c ns d) :
    Gives (fragment (outermost limit)) d none d := by
  obtain ⟨nss, hm, -⟩ := gives_block.1 h
  have hp : Advances (fragment (outermost limit)) := advances_fragment (sound_outermost limit)
  refine many_induction hp (M := fun _ _ d => Gives (fragment (outermost limit)) d none d) ?_ ?_ hm
  · intro c d hd
    obtain ⟨-, rfl⟩ := gives_fragment_none.1 hd
    exact hd
  · intro _ _ _ _ _ _ hd
    exact hd

/-- a block stays within the tokens -/
theorem reaches_of_block (h : Gives (block (outermost limit)) c ns d) : c.Reaches d := by
  have hf : Forward (block (outermost limit)) :=
    Lockstep.inStep_block (forward_outermost limit) (sound_outermost limit) (sound_outermost limit)
  exact h.2 ▸ hf c trivial

end

/-- **Parsing makes progress.** Take a place in a list of tokens, at any depth and under any limit. A fragment that is
declined there leaves the cursor where it is, and one that is yielded, even without nodes, takes a token. So does every
construct and a weight that succeeds. A block that succeeds stops at the end of the tokens or in front of one with which
no fragment can start: one is declined there. Every loop of a parse, if it just goes on until a round declines or fails,
ends in the run that the parser has, with one round more than there are tokens left at most. And a document that
succeeds stops at the end of the tokens. -/
theorem parsing_makes_progress (limit depth : Nat) (before left : List Token) :
    let ts := before ++ left
    let c : Cursor := ⟨before.length, left, depth⟩
    (∀ d, Gives (fragment (outermost limit)) c none d → d = c) ∧
      (∀ ns d, Gives (fragment (outermost limit)) c (some ns) d → c.Passes d) ∧
      (∀ k ns d, Gives (outermost limit k) c ns d → c.Passes d) ∧
      (∀ ns d, Gives weight c ns d → c.Passes d) ∧
      (∀ ns d, Gives (block (outermost limit)) c ns d →
        Gives (fragment (outermost limit)) d none d ∧
          (d.index = ts.length ∨ d.index < ts.length ∧ starts (ts.drop d.index) = false)) ∧
      (∀ (α : Type) (p : Parser (Option α)), Repeated limit p →
        ∃ n, n ≤ ts.length - c.index + 1 ∧ Ends p c n (many p c) ∧ ∀ m r, Ends p c m r → m = n ∧ r = many p c) ∧
      ∀ ns d, Gives (document limit) c ns d → d.index = ts.length := by
  intro ts c
  have hc : c.ahead = ts.drop c.index := (List.drop_left).symm
  have hlen : ts.length = c.index + c.ahead.length := List.length_append
  refine ⟨?_, ?_, ?_, ?_, ?_, ?_, ?_⟩
  · intro d h
    exact (gives_fragment_none.1 h).2.symm
  · intro ns d h
    exact passes_of_fragment h
  · intro k ns d h
    exact passes_of_construct h
  · intro ns d h
    exact passes_of_weight h
  · intro ns d h
    have hd := declined_behind_block h
    have hdrop : d.ahead = ts.drop d.index := (reaches_of_block h).ahead_eq_drop hc
    obtain ⟨hstart, -⟩ := gives_fragment_none.1 hd
    rw [startAt_eq_none_iff, hdrop] at hstart
    refine ⟨hd, ?_⟩
    have hsum := (reaches_of_block h).index_add_length
    rcases Nat.lt_or_ge d.index ts.length with hlt | hge
    · exact Or.inr ⟨hlt, hstart⟩
    · exact Or.inl (by omega)
  · intro α p hp
    obtain ⟨n, hn, hends⟩ := ends_many hp.advances c
    refine ⟨n, by omega, hends, ?_⟩
    intro m r h
    exact h.unique hends
  · intro ns d h
    have hend : d.ahead = [] := document_end h
    have hr : c.Reaches d := h.2 ▸ forward_document limit c trivial
    have hsum := hr.index_add_length
    rw [hend, ← hlen] at hsum
    exact hsum

end TextGrammar
