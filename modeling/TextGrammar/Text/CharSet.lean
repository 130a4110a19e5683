/-
Sets of characters given by the ranges of their code points.

A `CharSet` lists inclusive ranges from the lowest to the highest. `CharSet.contains` walks the list and stops at the
first range that starts above the character, so a look-up of a low code point is short whatever the length of the
table.
-/

namespace TextGrammar.Text

/-- inclusive ranges of code points, lowest first and apart from each other -/
structure CharSet where
  ranges : List (Nat × Nat)

/-- is the code point in one of the ranges? The ranges are in order, so one that starts above it ends the search. -/
def CharSet.holds (n : Nat) : List (Nat × Nat) → Bool
  | [] => false
  | (low, high) :: rest => if n < low then false else if n ≤ high then true else holds n rest

/-- a code point in the first range is in the set -/
theorem CharSet.holds_head {n low high : Nat} (rest : List (Nat × Nat)) (h : low ≤ n) (h' : n ≤ high) :
    CharSet.holds n ((low, high) :: rest) = true := by
  rw [CharSet.holds, if_neg (Nat.not_lt.2 h), if_pos h']

/-- a code point behind the first range is looked up in the others -/
theorem CharSet.holds_tail {n low high : Nat} (rest : List (Nat × Nat)) (h : low ≤ high) (h' : high < n) :
    CharSet.holds n ((low, high) :: rest) = CharSet.holds n rest := by
  rw [CharSet.holds, if_neg (by omega), if_neg (by omega)]

/-- membership of a character -/
def CharSet.contains (s : CharSet) (c : Char) : Bool :=
  CharSet.holds c.toNat s.ranges

end TextGrammar.Text
