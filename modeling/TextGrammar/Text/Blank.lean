/-
Blank characters, and texts without the blanks at their ends.

The set is Unicode's whitespace together with the four information separators U+001C to U+001F.
-/
import TextGrammar.Text.CharSet

namespace TextGrammar.Text

/-- whitespace of any script, and the information separators -/
def blanks : CharSet := ⟨[
  (0x9, 0xD), (0x1C, 0x20), (0x85, 0x85), (0xA0, 0xA0), (0x1680, 0x1680), (0x2000, 0x200A), (0x2028, 0x2029),
  (0x202F, 0x202F), (0x205F, 0x205F), (0x3000, 0x3000)]⟩

/-- is the character blank? -/
def isBlank (c : Char) : Bool :=
  blanks.contains c

/-- the four common blanks are among them -/
theorem isBlank_of_isWhitespace {c : Char} (h : c.isWhitespace = true) : isBlank c = true := by
  simp only [Char.isWhitespace, Bool.or_eq_true, decide_eq_true_eq] at h
  rcases h with ((rfl | rfl) | rfl) | rfl <;> decide

/-- the text without the blanks it starts with -/
def trimStart (cs : List Char) : List Char :=
  cs.dropWhile isBlank

/-- the text without the blanks it ends with -/
def trimEnd (cs : List Char) : List Char :=
  (cs.reverse.dropWhile isBlank).reverse

/-- the text without the blanks at either end -/
def trim (cs : List Char) : List Char :=
  trimEnd (trimStart cs)

end TextGrammar.Text
