/-
Numbers in decimal spelling, and the number at the head of a text.

A spelling has one or more ASCII digits and may go on with a point and one or more digits.

- `Decimal.at?` takes the longest spelling at the head of a text that no word character follows directly. A fraction
  that runs into a word character is given up whole, since the point before it is no word character: `3.5a` starts
  with the number `3`, and `3a` with none.
- `exists_complete_of_at?` and `at?_of_complete`: a number is read exactly where it is spelled and `Complete`. This says
  of the text behind the number all that matters, so that text may be exchanged for another one.
- `canRead_of_at?` and `exists_at?_of_canRead`: what is read is the longest spelling that can be read.
- `spelling_of_at?`: what is taken is what the text starts with, and it is not empty; `isDigit_of_at?`: it has digits
  only, apart from the point.
- `Decimal.value` is the binary64 number nearest to the spelled one; `ofInteger` does the same for an integer of any
  size, unless the nearest number would be infinite.
-/
import TextGrammar.Text.Word

namespace TextGrammar.Number

/-- the natural number that ASCII digits spell, the most significant first -/
def naturalOf (digits : List Char) : Nat :=
  digits.foldl (fun n c => 10 * n + (c.toNat - '0'.toNat)) 0

/-- the digits before and after the point; there is no point when there are none after it -/
structure Decimal where
  whole : List Char
  fraction : List Char
  deriving DecidableEq

namespace Decimal

/-- the number as it is spelled -/
def spelling (d : Decimal) : List Char :=
  match d.fraction with
  | [] => d.whole
  | digits => d.whole ++ '.' :: digits

/-- the binary64 number nearest to the spelled one -/
def value (d : Decimal) : Float :=
  Float.ofScientific (naturalOf (d.whole ++ d.fraction)) true d.fraction.length

/-- may a number end before this text? -/
def endsBefore : List Char → Bool
  | [] => true
  | c :: _ => !Text.isWord c

/-- the digits of a fraction that is complete at the head of a text -/
def fractionAt : List Char → List Char
  | '.' :: cs => if endsBefore (cs.dropWhile Char.isDigit) then cs.takeWhile Char.isDigit else []
  | _ => []

/-- the longest number at the head of a text that no word character follows -/
def at? (cs : List Char) : Option Decimal :=
  let rest := cs.dropWhile Char.isDigit
  match cs.takeWhile Char.isDigit with
  | [] => none
  | whole => if endsBefore rest then some ⟨whole, fractionAt rest⟩ else none

/-! ## Reading numbers back -/

/-- a number in front of a text that does not continue it -/
structure Complete (d : Decimal) (rest : List Char) : Prop where
  whole_ne_nil : d.whole ≠ []
  whole : ∀ c ∈ d.whole, c.isDigit = true
  fraction : ∀ c ∈ d.fraction, c.isDigit = true
  ends : endsBefore rest = true
  longest : d.fraction = [] → fractionAt rest = []

theorem spelling_of_nil {d : Decimal} (h : d.fraction = []) : d.spelling = d.whole := by
  rw [spelling, h]

theorem spelling_of_ne_nil {d : Decimal} (h : d.fraction ≠ []) : d.spelling = d.whole ++ '.' :: d.fraction := by
  unfold spelling
  split
  · contradiction
  · rfl

theorem isDigit_of_mem_takeWhile {cs : List Char} : ∀ c ∈ cs.takeWhile Char.isDigit, c.isDigit = true :=
  List.all_eq_true.1 List.all_takeWhile

/-- a word character is no place for a number to end -/
theorem not_isDigit_of_endsBefore {c : Char} {rest : List Char} (h : endsBefore (c :: rest) = true) :
    ¬c.isDigit = true := by
  intro hc
  have hword : Text.isWord c = true := Text.isWord_of_isAlphanum (by rw [Char.isAlphanum, hc, Bool.or_true])
  rw [endsBefore, hword] at h
  cases h

section

variable {digits rest : List Char} (hdigits : ∀ c ∈ digits, c.isDigit = true) (hends : endsBefore rest = true)

include hdigits hends

theorem takeWhile_digits : (digits ++ rest).takeWhile Char.isDigit = digits := by
  rw [List.takeWhile_append_of_pos hdigits]
  cases rest with
  | nil => exact List.append_nil digits
  | cons c rest => rw [List.takeWhile_cons_of_neg (not_isDigit_of_endsBefore hends), List.append_nil]

theorem dropWhile_digits : (digits ++ rest).dropWhile Char.isDigit = rest := by
  rw [List.dropWhile_append_of_pos hdigits]
  cases rest with
  | nil => rfl
  | cons c rest => rw [List.dropWhile_cons_of_neg (not_isDigit_of_endsBefore hends)]

/-- digits behind a point are a fraction where a number may end -/
theorem fractionAt_digits : fractionAt ('.' :: (digits ++ rest)) = digits := by
  rw [fractionAt, dropWhile_digits hdigits hends, takeWhile_digits hdigits hends, hends, if_pos rfl]

end

/-- a fraction that is found is spelled behind the point, in front of a text that does not continue it -/
theorem exists_rest_of_fractionAt {cs : List Char} (h : fractionAt cs ≠ []) :
    ∃ rest, cs = '.' :: (fractionAt cs ++ rest) ∧ (∀ c ∈ fractionAt cs, c.isDigit = true) ∧
      endsBefore rest = true := by
  unfold fractionAt at h ⊢
  split at h
  · rename_i cs
    split at h
    · rename_i hends
      simp only [hends, if_true]
      refine ⟨cs.dropWhile Char.isDigit, ?_, isDigit_of_mem_takeWhile, hends⟩
      rw [List.takeWhile_append_dropWhile]
    · exact absurd rfl h
  · exact absurd rfl h

/-- a number that is read is spelled at the head of the text, and the text behind it does not continue it -/
theorem exists_complete_of_at? {cs : List Char} {d : Decimal} (h : at? cs = some d) :
    ∃ rest, cs = d.spelling ++ rest ∧ d.Complete rest := by
  have hsplit : cs.takeWhile Char.isDigit ++ cs.dropWhile Char.isDigit = cs := List.takeWhile_append_dropWhile
  have hwhole : ∀ c ∈ cs.takeWhile Char.isDigit, c.isDigit = true := isDigit_of_mem_takeWhile
  unfold at? at h
  generalize cs.takeWhile Char.isDigit = whole at h hsplit hwhole
  generalize cs.dropWhile Char.isDigit = behind at h hsplit
  simp only at h
  split at h
  · cases h
  · rename_i hne
    split at h
    · rename_i hends
      cases h
      by_cases hfraction : fractionAt behind = []
      · refine ⟨behind, ?_, hne, hwhole, ?_, hends, fun _ => hfraction⟩
        · rw [spelling_of_nil hfraction, hsplit]
        · exact hfraction ▸ nofun
      · obtain ⟨rest, hbehind, hdigits, hrest⟩ := exists_rest_of_fractionAt hfraction
        have hspelling : spelling ⟨whole, fractionAt behind⟩ = whole ++ '.' :: fractionAt behind :=
          spelling_of_ne_nil hfraction
        refine ⟨rest, ?_, hne, hwhole, hdigits, hrest, fun h => absurd h hfraction⟩
        calc
          cs = whole ++ behind := hsplit.symm
          _ = whole ++ '.' :: (fractionAt behind ++ rest) := congrArg (whole ++ ·) hbehind
          _ = spelling ⟨whole, fractionAt behind⟩ ++ rest := by rw [hspelling, List.append_assoc, List.cons_append]
    · cases h

/-- a number is read wherever it is spelled in front of a text that does not continue it -/
theorem at?_of_complete {d : Decimal} {rest : List Char} (h : d.Complete rest) : at? (d.spelling ++ rest) = some d := by
  obtain ⟨behind, hspelled, hends, hfraction⟩ : ∃ behind, d.spelling ++ rest = d.whole ++ behind ∧
      endsBefore behind = true ∧ fractionAt behind = d.fraction := by
    by_cases hnil : d.fraction = []
    · exact ⟨rest, by rw [spelling_of_nil hnil], h.ends, (h.longest hnil).trans hnil.symm⟩
    · refine ⟨'.' :: (d.fraction ++ rest), ?_, rfl, fractionAt_digits h.fraction h.ends⟩
      rw [spelling_of_ne_nil hnil, List.append_assoc, List.cons_append]
  rw [hspelled, at?, takeWhile_digits h.whole hends, dropWhile_digits h.whole hends]
  split
  · exact absurd ‹_› h.whole_ne_nil
  · rw [if_pos hends, hfraction]

/-- behind a point a number would be the fraction of another one -/
theorem fractionAt_ne_nil_of_at? {cs : List Char} {d : Decimal} (h : at? cs = some d) :
    fractionAt ('.' :: cs) ≠ [] := by
  unfold at? at h
  simp only at h
  split at h
  · cases h
  · split at h
    · rename_i hne hends
      rw [fractionAt, if_pos hends]
      exact hne
    · cases h

/-- a number that is read begins with a digit -/
theorem isDigit_of_at?_cons {c : Char} {cs : List Char} {d : Decimal} (h : at? (c :: cs) = some d) :
    c.isDigit = true := by
  refine Decidable.byContradiction fun hc => ?_
  rw [at?, List.takeWhile_cons_of_neg hc] at h
  cases h

/-- a number that is read has digits only, apart from the point -/
theorem isDigit_of_at? {cs : List Char} {d : Decimal} (h : at? cs = some d) {c : Char} (hc : c ∈ d.spelling) :
    c.isDigit = true ∨ c = '.' := by
  obtain ⟨rest, -, hcomplete⟩ := exists_complete_of_at? h
  by_cases hnil : d.fraction = []
  · rw [spelling_of_nil hnil] at hc
    exact Or.inl (hcomplete.whole c hc)
  · rw [spelling_of_ne_nil hnil, List.mem_append, List.mem_cons] at hc
    rcases hc with hc | hc | hc
    · exact Or.inl (hcomplete.whole c hc)
    · exact Or.inr hc
    · exact Or.inl (hcomplete.fraction c hc)

/-- the number at the head of a text is what the text starts with, and it has a digit -/
theorem spelling_of_at? {cs : List Char} {d : Decimal} (h : at? cs = some d) :
    d.spelling <+: cs ∧ 0 < d.spelling.length := by
  obtain ⟨rest, hcs, hcomplete⟩ := exists_complete_of_at? h
  refine ⟨⟨rest, hcs.symm⟩, List.length_pos_iff.2 fun hnil => ?_⟩
  by_cases hfraction : d.fraction = []
  · exact hcomplete.whole_ne_nil ((spelling_of_nil hfraction).symm.trans hnil)
  · rw [spelling_of_ne_nil hfraction] at hnil
    exact absurd (List.append_eq_nil_iff.1 hnil).2 (List.cons_ne_nil _ _)

/-! ## The longest number -/

/-- digits, or digits, a point and digits -/
inductive IsSpelling : List Char → Prop
  | whole {digits : List Char} (hne : digits ≠ []) (h : ∀ c ∈ digits, c.isDigit = true) : IsSpelling digits
  | pointed {digits fraction : List Char} (hne : digits ≠ []) (h : ∀ c ∈ digits, c.isDigit = true)
      (hne' : fraction ≠ []) (h' : ∀ c ∈ fraction, c.isDigit = true) : IsSpelling (digits ++ '.' :: fraction)

/-- a spelling at the head of a text that no word character follows -/
def CanRead (n cs : List Char) : Prop :=
  IsSpelling n ∧ ∃ rest, cs = n ++ rest ∧ endsBefore rest = true

theorem Complete.isSpelling {d : Decimal} {rest : List Char} (h : d.Complete rest) : IsSpelling d.spelling := by
  by_cases hnil : d.fraction = []
  · rw [spelling_of_nil hnil]
    exact .whole h.whole_ne_nil h.whole
  · rw [spelling_of_ne_nil hnil]
    exact .pointed h.whole_ne_nil h.whole hnil h.fraction

theorem canRead_of_at? {cs : List Char} {d : Decimal} (h : at? cs = some d) : CanRead d.spelling cs := by
  obtain ⟨rest, hcs, hcomplete⟩ := exists_complete_of_at? h
  exact ⟨hcomplete.isSpelling, rest, hcs, hcomplete.ends⟩

/-- where a number can be read, one that is at least as long is read -/
theorem exists_at?_of_canRead {n cs : List Char} (h : CanRead n cs) :
    ∃ d, at? cs = some d ∧ n.length ≤ d.spelling.length := by
  obtain ⟨hspelling, rest, rfl, hends⟩ := h
  cases hspelling with
  | whole hne hdigits =>
    by_cases hfraction : fractionAt rest = []
    · have hcomplete : Complete ⟨n, []⟩ rest := ⟨hne, hdigits, by simp, hends, fun _ => hfraction⟩
      exact ⟨⟨n, []⟩, at?_of_complete hcomplete, Nat.le_refl _⟩
    · -- the digits go on with a fraction, and the number that is read has it
      obtain ⟨behind, hrest, hdigits', hends'⟩ := exists_rest_of_fractionAt hfraction
      have hcomplete : Complete ⟨n, fractionAt rest⟩ behind :=
        ⟨hne, hdigits, hdigits', hends', fun hnil => absurd hnil hfraction⟩
      have hspelling : spelling ⟨n, fractionAt rest⟩ = n ++ '.' :: fractionAt rest := spelling_of_ne_nil hfraction
      have hread := at?_of_complete hcomplete
      rw [hspelling, List.append_assoc, List.cons_append, ← hrest] at hread
      refine ⟨_, hread, ?_⟩
      rw [hspelling, List.length_append]
      exact Nat.le_add_right _ _
  | @pointed digits fraction hne hdigits hne' hdigits' =>
    have hspelling : spelling ⟨digits, fraction⟩ = digits ++ '.' :: fraction := spelling_of_ne_nil hne'
    refine ⟨⟨digits, fraction⟩, ?_, Nat.le_of_eq (congrArg List.length hspelling.symm)⟩
    rw [← hspelling]
    exact at?_of_complete ⟨hne, hdigits, hdigits', hends, fun hnil => absurd hnil hne'⟩

/-! ## In front of a character that is no part of a number -/

section

variable {c : Char}

/-- where a character fails the test, taking stops there at the latest -/
theorem takeWhile_append_of_neg {p : Char → Bool} (hc : p c = false) (cs rest : List Char) :
    (cs ++ c :: rest).takeWhile p = cs.takeWhile p := by
  induction cs with
  | nil => rw [List.nil_append, List.takeWhile_cons_of_neg (by simp [hc]), List.takeWhile_nil]
  | cons d cs ih => rw [List.cons_append, List.takeWhile_cons, List.takeWhile_cons, ih]

theorem dropWhile_append_of_neg {p : Char → Bool} (hc : p c = false) (cs rest : List Char) :
    (cs ++ c :: rest).dropWhile p = cs.dropWhile p ++ c :: rest := by
  induction cs with
  | nil => rw [List.nil_append, List.dropWhile_cons_of_neg (by simp [hc]), List.dropWhile_nil, List.nil_append]
  | cons d cs ih =>
    rw [List.cons_append, List.dropWhile_cons, List.dropWhile_cons, ih]
    split <;> rfl

variable (hword : Text.isWord c = false)

include hword

theorem isDigit_eq_false_of_isWord : c.isDigit = false := by
  have hends : endsBefore [c] = true := by rw [endsBefore, hword, Bool.not_false]
  exact Bool.eq_false_iff.2 (not_isDigit_of_endsBefore hends)

/-- before a character that is no word character a number may end as at the end of the text -/
theorem endsBefore_append (cs rest : List Char) : endsBefore (cs ++ c :: rest) = endsBefore cs := by
  cases cs with
  | nil => simp [endsBefore, hword]
  | cons d cs => rfl

variable (hpoint : c ≠ '.')

include hpoint

theorem fractionAt_append (cs rest : List Char) : fractionAt (cs ++ c :: rest) = fractionAt cs := by
  have hdigit : c.isDigit = false := isDigit_eq_false_of_isWord hword
  have other {d : Char} (hd : d ≠ '.') (ds : List Char) : fractionAt (d :: ds) = [] := by simp [fractionAt, hd]
  cases cs with
  | nil => exact other hpoint rest
  | cons d cs =>
    by_cases hd : d = '.'
    · subst hd
      rw [List.cons_append, fractionAt, fractionAt, dropWhile_append_of_neg hdigit, takeWhile_append_of_neg hdigit,
        endsBefore_append hword]
    · rw [List.cons_append, other hd, other hd]

/-- the number at the head of a text does not depend on what comes behind a character that is no part of a number -/
theorem at?_append (cs rest : List Char) : at? (cs ++ c :: rest) = at? cs := by
  have hdigit : c.isDigit = false := isDigit_eq_false_of_isWord hword
  rw [at?, at?, dropWhile_append_of_neg hdigit, takeWhile_append_of_neg hdigit, endsBefore_append hword,
    fractionAt_append hword hpoint]

end

end Decimal

/-- an integer beyond the finite binary64 numbers -/
structure TooLarge where
  integer : Int
  deriving DecidableEq

/-- the wording of the refusal -/
def TooLarge.message (_ : TooLarge) : String :=
  "int too large to convert to float"

/-- the binary64 number nearest to an integer, if that is finite -/
def ofInteger (n : Int) : Except TooLarge Float :=
  let x := Float.ofInt n
  if x.isInf then .error ⟨n⟩ else .ok x

end TextGrammar.Number
