/-
Repetition of a parser until it declines.

`many p` runs `p` round after round. A round that yields something takes at least one token (`Advances`), so there are
at most as many of these as there are tokens ahead, and one round more that declines. `many` runs no further than
that: each round but the last is paid for with a token, and the purse is what lies ahead at the start.

- `rounds_eq_of_length_le`: a purse with as many tokens as there are ahead is never used up.
- `many_eq`: so `many p` goes on exactly as long as `p` yields something.
-/
import TextGrammar.Parser.Basic

namespace TextGrammar.Parser

variable {α : Type}

/-- rounds until one declines, each but the last paid for with one of the given tokens -/
def rounds (p : Parser (Option α)) : List Token → Parser (List α)
  | [] => return (← p).toList
  | _ :: purse => do
    match ← p with
    | none => return []
    | some a => (a :: ·) <$> rounds p purse

/-- rounds until one declines -/
def many (p : Parser (Option α)) : Parser (List α) := fun c => rounds p c.ahead c

/-- every round that yields something takes a token -/
def Advances (p : Parser (Option α)) : Prop :=
  ∀ c a, (p c).result = .ok (some a) → (p c).cursor.ahead.length < c.ahead.length

/-- a round that declines, yields something or fails decides how the rounds go on -/
theorem rounds_cons_apply (p : Parser (Option α)) (t : Token) (purse : List Token) (c : Cursor) :
    rounds p (t :: purse) c = match p c with
      | ⟨.ok none, c', rs⟩ => ⟨.ok [], c', rs⟩
      | ⟨.ok (some a), c', rs⟩ =>
        ⟨(rounds p purse c').result.map (a :: ·), (rounds p purse c').cursor, rs ++ (rounds p purse c').remarks⟩
      | ⟨.error e, c', rs⟩ => ⟨.error e, c', rs⟩ := by
  rw [rounds, bind_apply]
  rcases p c with ⟨_ | _ | a, c', rs⟩ <;> simp [map_apply]

theorem rounds_nil_apply (p : Parser (Option α)) (c : Cursor) :
    rounds p [] c = match p c with
      | ⟨.ok none, c', rs⟩ => ⟨.ok [], c', rs⟩
      | ⟨.ok (some a), c', rs⟩ => ⟨.ok [a], c', rs⟩
      | ⟨.error e, c', rs⟩ => ⟨.error e, c', rs⟩ := by
  rw [rounds, bind_apply]
  rcases p c with ⟨_ | _ | a, c', rs⟩ <;> simp

/-- a purse with as many tokens as there are ahead is never used up, so what it holds does not matter -/
theorem rounds_eq_of_length_le {p : Parser (Option α)} (hp : Advances p) (xs ys : List Token) (c : Cursor)
    (hx : c.ahead.length ≤ xs.length) (hy : c.ahead.length ≤ ys.length) : rounds p xs c = rounds p ys c := by
  induction xs generalizing ys c with
  | nil =>
    cases ys with
    | nil => rfl
    | cons y ys =>
      rw [rounds_nil_apply, rounds_cons_apply]
      have h := hp c
      rcases hpc : p c with ⟨_ | _ | a, c', rs⟩ <;> simp only
      have := h a (by rw [hpc])
      simp only [List.length_nil] at hx
      omega
  | cons x xs ih =>
    cases ys with
    | nil =>
      rw [rounds_nil_apply, rounds_cons_apply]
      have h := hp c
      rcases hpc : p c with ⟨_ | _ | a, c', rs⟩ <;> simp only
      have := h a (by rw [hpc])
      simp only [List.length_nil] at hy
      omega
    | cons y ys =>
      rw [rounds_cons_apply, rounds_cons_apply]
      have h := hp c
      rcases hpc : p c with ⟨_ | _ | a, c', rs⟩ <;> simp only
      have hlt := h a (by rw [hpc])
      rw [hpc] at hlt
      simp only [List.length_cons] at hx hy hlt
      rw [ih ys c' (by omega) (by omega)]

/-- repetition never runs out of rounds -/
theorem many_eq {p : Parser (Option α)} (hp : Advances p) :
    many p = p >>= fun
      | none => pure []
      | some a => (a :: ·) <$> many p := by
  funext c
  have h := hp c
  rw [many, bind_apply]
  cases hc : c.ahead with
  | nil =>
    rw [rounds_nil_apply]
    rcases hpc : p c with ⟨_ | _ | a, c', rs⟩ <;> simp only [pure_apply, List.append_nil]
    have := h a (by rw [hpc])
    simp [hc] at this
  | cons t ts =>
    rw [rounds_cons_apply]
    rcases hpc : p c with ⟨_ | _ | a, c', rs⟩ <;> simp only [pure_apply, List.append_nil, map_apply]
    have hlt := h a (by rw [hpc])
    rw [hpc, hc] at hlt
    simp only [List.length_cons] at hlt
    rw [many, rounds_eq_of_length_le hp ts c'.ahead c' (by omega) (Nat.le_refl _)]
end TextGrammar.Parser
