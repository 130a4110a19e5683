/-
The lines of a settings text.

A text falls apart into the lines of its parts wherever no line break is cut in two: a carriage return at the end of one
part and a line feed at the head of the next one are a single break (`Apart`).

What a line does to a reader depends on its value, on whether it has a comment and, if the value is not empty, on its
indent. Lines that agree in these are alike (`Line.Alike`). Its number does not count, and neither does a line feed at
its end.

- `textLines_append`: the lines of a text with finished lines and of what stands behind it.
- `exists_textLines_unfinished`: a break behind a text whose last line has none completes that line.
- `beforeComment_append`: a semicolon that opens a comment cuts off everything from there.
- `Line.alike_number`, `Line.alike_lineFeed`: lines that are alike.
- `IsComment`: a line whose first character that is not blank is a semicolon says nothing (`IsComment.says_nothing`).
-/
import Mathlib.Data.List.DropRight
import TextGrammar.Settings.File

namespace TextGrammar

/-! ## Blanks at the ends -/

namespace Text

variable {bs cs : List Char}

theorem isBlank_lineFeed : isBlank '\n' = true := by decide

theorem trim_eq_nil (hb : ∀ c ∈ bs, isBlank c = true) : trim bs = [] := by
  rw [trim, trimStart, List.dropWhile_eq_nil_iff.2 hb]
  rfl

/-- blanks at the end do not count -/
theorem trimEnd_append_blanks (hb : ∀ c ∈ bs, isBlank c = true) : trimEnd (cs ++ bs) = trimEnd cs := by
  have hr : ∀ c ∈ bs.reverse, isBlank c = true := fun c hc => hb c (List.mem_reverse.1 hc)
  rw [trimEnd, List.reverse_append, List.dropWhile_append_of_pos hr, trimEnd]

theorem trim_append_blanks (hb : ∀ c ∈ bs, isBlank c = true) : trim (cs ++ bs) = trim cs := by
  rw [trim, trimStart, List.dropWhile_append]
  split
  · rename_i h
    rw [List.dropWhile_eq_nil_iff.2 hb, trim, trimStart, List.isEmpty_iff.1 h]
  · rw [trimEnd_append_blanks hb]
    rfl

end Text

namespace Settings

open TextGrammar.Text

variable {cs ds l : List Char}

/-! ## Line breaks -/

/-- no line break stands half in the one text and half in the other -/
def Apart (cs ds : List Char) : Prop :=
  ¬ (cs.getLast? = some '\r' ∧ ds.head? = some '\n')

theorem Apart.of_cons {c : Char} (h : Apart (c :: cs) ds) : Apart cs ds := by
  intro hcut
  apply h
  rw [List.getLast?_cons, hcut.1]
  exact ⟨rfl, hcut.2⟩

theorem apart_lineFeed (cs ds : List Char) : Apart (cs ++ ['\n']) ds := by
  rintro ⟨hlast, -⟩
  simp at hlast

/-- the lines of a text that no longer has other breaks than line feeds -/
theorem unifyBreaks_append (h : Apart cs ds) : unifyBreaks (cs ++ ds) = unifyBreaks cs ++ unifyBreaks ds := by
  fun_induction unifyBreaks cs with
  | case1 => rfl
  | case2 cs ih =>
    rw [List.cons_append, List.cons_append, unifyBreaks, ih h.of_cons.of_cons, List.cons_append]
  | case3 cs hcs ih =>
    rw [List.cons_append, unifyBreaks, ih h.of_cons, List.cons_append]
    intro ds' hds'
    cases cs with
    | nil => exact h ⟨rfl, by rw [show ds = '\n' :: ds' from hds']; rfl⟩
    | cons c cs =>
      obtain ⟨rfl, -⟩ := List.cons.inj hds'
      exact hcs cs rfl
  | case4 c cs hc _ ih =>
    rw [List.cons_append, unifyBreaks, ih h.of_cons, List.cons_append]
    all_goals simp_all

theorem unifyBreaks_eq_self (h : '\r' ∉ cs) : unifyBreaks cs = cs := by
  fun_induction unifyBreaks cs with
  | case1 => rfl
  | case2 | case3 => exact absurd List.mem_cons_self h
  | case4 c cs _ _ ih => rw [ih fun hc => h (List.mem_cons_of_mem c hc)]

/-- the ways to break a line -/
def breaks : List (List Char) := [['\n'], ['\r'], ['\r', '\n']]

theorem unifyBreaks_break {b : List Char} (hb : b ∈ breaks) : unifyBreaks b = ['\n'] := by
  simp only [breaks, List.mem_cons, List.not_mem_nil, or_false] at hb
  rcases hb with rfl | rfl | rfl <;> rfl

/-- a text ends as before, but in a line feed if it ended in a carriage return -/
theorem getLast?_unifyBreaks (cs : List Char) :
    (unifyBreaks cs).getLast? = cs.getLast?.map fun c => if c = '\r' then '\n' else c := by
  fun_induction unifyBreaks cs with
  | case1 => rfl
  | case2 cs ih | case3 cs _ ih => cases h : cs.getLast? <;> simp [List.getLast?_cons, ih, h]
  | case4 c cs hc hcr ih =>
    have hne : c ≠ '\r' := hcr
    cases h : cs.getLast? <;> simp [List.getLast?_cons, ih, h, hne]

/-! ## Lines -/

/-- the last line, if there is any, has its line feed -/
def EndsLine (cs : List Char) : Prop :=
  cs = [] ∨ cs.getLast? = some '\n'

theorem EndsLine.of_cons {c : Char} (h : EndsLine (c :: cs)) : c = '\n' ∧ cs = [] ∨ cs ≠ [] ∧ EndsLine cs := by
  rcases h with h | h
  · cases h
  · cases cs with
    | nil => exact Or.inl ⟨Option.some.inj h, rfl⟩
    | cons d cs => exact Or.inr ⟨List.cons_ne_nil d cs, Or.inr h⟩

theorem splitLines_lineFeed (cs : List Char) : splitLines ('\n' :: cs) = ['\n'] :: splitLines cs := by
  rw [splitLines, if_pos rfl]

theorem splitLines_cons {c : Char} {line : List Char} {lines : List (List Char)} (hc : c ≠ '\n')
    (h : splitLines cs = line :: lines) : splitLines (c :: cs) = (c :: line) :: lines := by
  rw [splitLines, if_neg hc, h]

theorem splitLines_eq_nil_iff : splitLines cs = [] ↔ cs = [] := by
  cases cs with
  | nil => exact iff_of_true rfl rfl
  | cons c cs =>
    refine iff_of_false ?_ (List.cons_ne_nil c cs)
    rw [splitLines]
    split
    · exact List.cons_ne_nil _ _
    · split <;> exact List.cons_ne_nil _ _

/-- behind a line that has its line feed the lines start anew -/
theorem splitLines_append (h : EndsLine cs) (ds : List Char) :
    splitLines (cs ++ ds) = splitLines cs ++ splitLines ds := by
  induction cs with
  | nil => rfl
  | cons c cs ih =>
    rcases h.of_cons with ⟨rfl, rfl⟩ | ⟨hne, hcs⟩
    · exact splitLines_lineFeed ds
    · obtain ⟨line, lines, hl⟩ := List.exists_cons_of_ne_nil (mt splitLines_eq_nil_iff.1 hne)
      have hds : splitLines (cs ++ ds) = line :: (lines ++ splitLines ds) := by
        rw [ih hcs, hl, List.cons_append]
      by_cases hc : c = '\n'
      · subst hc
        rw [List.cons_append, splitLines_lineFeed, splitLines_lineFeed, ih hcs, List.cons_append]
      · rw [List.cons_append, splitLines_cons hc hds, splitLines_cons hc hl, List.cons_append]

/-- a line and the lines behind it -/
theorem splitLines_line (hl : '\n' ∉ l) (cs : List Char) :
    splitLines (l ++ '\n' :: cs) = (l ++ ['\n']) :: splitLines cs := by
  induction l with
  | nil => exact splitLines_lineFeed cs
  | cons c l ih =>
    obtain ⟨hc, hl⟩ := List.ne_and_not_mem_of_not_mem_cons hl
    exact splitLines_cons (Ne.symm hc) (ih hl)

/-- a last line that has no line feed -/
theorem splitLines_eq_singleton (hl : '\n' ∉ l) (hne : l ≠ []) : splitLines l = [l] := by
  induction l with
  | nil => exact absurd rfl hne
  | cons c l ih =>
    obtain ⟨hc, hl⟩ := List.ne_and_not_mem_of_not_mem_cons hl
    cases l with
    | nil => rw [splitLines, if_neg (Ne.symm hc)]; rfl
    | cons d l => exact splitLines_cons (Ne.symm hc) (ih hl (List.cons_ne_nil d l))

/-- a line feed behind a text whose last line has none completes that line -/
theorem exists_unfinished (h : ¬ EndsLine cs) :
    ∃ ls l, splitLines cs = ls ++ [l] ∧ splitLines (cs ++ ['\n']) = ls ++ [l ++ ['\n']] := by
  induction cs with
  | nil => exact absurd (Or.inl rfl) h
  | cons c cs ih =>
    cases cs with
    | nil =>
      have hc : c ≠ '\n' := fun hc => h (Or.inr (congrArg some hc))
      refine ⟨[], [c], ?_, ?_⟩ <;> simp [splitLines, hc]
    | cons d cs =>
      have hends : ¬ EndsLine (d :: cs) := by
        rintro (hnil | hlast)
        · cases hnil
        · exact h (Or.inr hlast)
      obtain ⟨ls, l, hcs, hfed⟩ := ih hends
      by_cases hc : c = '\n'
      · subst hc
        refine ⟨['\n'] :: ls, l, ?_, ?_⟩
        · rw [splitLines_lineFeed, hcs, List.cons_append]
        · rw [List.cons_append, splitLines_lineFeed, hfed, List.cons_append]
      · cases ls with
        | nil => exact ⟨[], c :: l, splitLines_cons hc hcs, splitLines_cons hc hfed⟩
        | cons line ls => exact ⟨(c :: line) :: ls, l, splitLines_cons hc hcs, splitLines_cons hc hfed⟩

/-! ## Lines of a text -/

/-- the lines of a text, without their numbers -/
def textLines (cs : List Char) : List (List Char) :=
  splitLines (unifyBreaks cs)

/-- every line of the text has its break -/
def Finished (cs : List Char) : Prop :=
  cs = [] ∨ cs.getLast? = some '\r' ∨ cs.getLast? = some '\n'

theorem finished_iff : Finished cs ↔ EndsLine (unifyBreaks cs) := by
  rw [EndsLine, getLast?_unifyBreaks]
  cases hlast : cs.getLast? with
  | none =>
    obtain rfl := List.getLast?_eq_none_iff.1 hlast
    exact iff_of_true (Or.inl rfl) (Or.inl rfl)
  | some c =>
    have hne : cs ≠ [] := by
      rintro rfl
      cases hlast
    have hne' : unifyBreaks cs ≠ [] := by
      intro hnil
      have hlast' := getLast?_unifyBreaks cs
      rw [hnil, hlast] at hlast'
      cases hlast'
    simp only [Finished, hne, hlast, hne', false_or, Option.some.injEq, Option.map_some]
    split <;> simp_all

theorem finished_break {b : List Char} (hb : b ∈ breaks) (cs : List Char) : Finished (cs ++ b) := by
  simp only [breaks, List.mem_cons, List.not_mem_nil, or_false] at hb
  rcases hb with rfl | rfl | rfl <;> simp [Finished]

/-- a text with finished lines, and what stands behind it -/
theorem textLines_append (hf : Finished cs) (ha : Apart cs ds) :
    textLines (cs ++ ds) = textLines cs ++ textLines ds := by
  rw [textLines, unifyBreaks_append ha, splitLines_append (finished_iff.1 hf)]
  rfl

/-- a line and its break -/
theorem textLines_line {b : List Char} (hl : '\n' ∉ l) (hl' : '\r' ∉ l) (hb : b ∈ breaks) :
    textLines (l ++ b) = [l ++ ['\n']] := by
  have ha : Apart l b := fun h => hl' (List.mem_of_getLast? h.1)
  rw [textLines, unifyBreaks_append ha, unifyBreaks_eq_self hl', unifyBreaks_break hb, splitLines_line hl]
  rfl

/-- a line that needs no break because nothing follows it -/
theorem textLines_eq_singleton (hl : '\n' ∉ l) (hl' : '\r' ∉ l) (hne : l ≠ []) : textLines l = [l] := by
  rw [textLines, unifyBreaks_eq_self hl', splitLines_eq_singleton hl hne]

/-- a break behind a text whose last line has none completes that line -/
theorem exists_textLines_unfinished (hf : ¬ Finished cs) :
    ∃ ls l, textLines cs = ls ++ [l] ∧ ∀ b ∈ breaks, textLines (cs ++ b) = ls ++ [l ++ ['\n']] := by
  obtain ⟨ls, l, hcs, hfed⟩ := exists_unfinished (mt finished_iff.2 hf)
  refine ⟨ls, l, hcs, fun b hb => ?_⟩
  have ha : Apart cs b := fun h => hf (Or.inr (Or.inl h.1))
  rw [textLines, unifyBreaks_append ha, unifyBreaks_break hb, hfed]

/-- a line feed behind a text is the rest of its last break, an empty line or the end of its last line -/
theorem textLines_lineFeed (cs : List Char) :
    textLines (cs ++ ['\n']) = textLines cs ∨ textLines (cs ++ ['\n']) = textLines cs ++ [['\n']] ∨
      ∃ ls l, textLines cs = ls ++ [l] ∧ textLines (cs ++ ['\n']) = ls ++ [l ++ ['\n']] := by
  by_cases hf : Finished cs
  · by_cases hcut : cs.getLast? = some '\r'
    · obtain ⟨ds, rfl⟩ := List.getLast?_eq_some_iff.1 hcut
      have ha (b : List Char) : Apart ds ('\r' :: b) := by
        rintro ⟨-, hhead⟩
        cases hhead
      left
      rw [textLines, textLines, List.append_assoc, List.singleton_append, unifyBreaks_append (ha _),
        unifyBreaks_append (ha _)]
      rfl
    · right
      left
      have ha : Apart cs ['\n'] := fun h => hcut h.1
      rw [textLines_append hf ha]
      rfl
  · right
    right
    obtain ⟨ls, l, hcs, hfed⟩ := exists_textLines_unfinished hf
    exact ⟨ls, l, hcs, hfed _ List.mem_cons_self⟩

/-! ## Comments -/

/-- does a semicolon open a comment behind the text, where `opensHere` tells whether it would in front of it? -/
def opensBehind (opensHere : Bool) (cs : List Char) : Bool :=
  (cs.getLast?.map isBlank).getD opensHere

theorem opensBehind_cons (opensHere : Bool) (c : Char) (cs : List Char) :
    opensBehind opensHere (c :: cs) = opensBehind (isBlank c) cs := by
  rw [opensBehind, opensBehind, List.getLast?_cons]
  cases cs.getLast? <;> rfl

/-- a semicolon that opens a comment cuts off everything from there -/
theorem beforeComment_append {opensHere : Bool} (hcs : ';' ∉ cs) (ho : opensBehind opensHere cs = true)
    (rest : List Char) :
    beforeComment opensHere (cs ++ ';' :: rest) = cs ∧ hasComment opensHere (cs ++ ';' :: rest) = true := by
  induction cs generalizing opensHere with
  | nil =>
    obtain rfl : opensHere = true := ho
    exact ⟨rfl, rfl⟩
  | cons c cs ih =>
    obtain ⟨hc, hcs⟩ := List.ne_and_not_mem_of_not_mem_cons hcs
    rw [opensBehind_cons] at ho
    obtain ⟨hbefore, hhas⟩ := ih hcs ho
    have hne : c ≠ ';' := Ne.symm hc
    simp [beforeComment, hasComment, hne, hbefore, hhas]

/-- what stands in front of a comment stands in the text -/
theorem mem_of_mem_beforeComment {opensHere : Bool} {c : Char} (h : c ∈ beforeComment opensHere cs) : c ∈ cs := by
  induction cs generalizing opensHere with
  | nil => cases h
  | cons d cs ih =>
    rw [beforeComment] at h
    split at h
    · cases h
    · rcases List.mem_cons.1 h with rfl | h
      · exact List.mem_cons_self
      · exact List.mem_cons_of_mem d (ih h)

/-- a line feed at the end opens no comment, and is blank -/
theorem beforeComment_lineFeed (opensHere : Bool) (cs : List Char) :
    trim (beforeComment opensHere (cs ++ ['\n'])) = trim (beforeComment opensHere cs) ∧
      hasComment opensHere (cs ++ ['\n']) = hasComment opensHere cs := by
  have h : (∃ bs, (∀ c ∈ bs, isBlank c = true) ∧
      beforeComment opensHere (cs ++ ['\n']) = beforeComment opensHere cs ++ bs) ∧
      hasComment opensHere (cs ++ ['\n']) = hasComment opensHere cs := by
    induction cs generalizing opensHere with
    | nil =>
      refine ⟨⟨['\n'], ?_, ?_⟩, ?_⟩
      · exact List.forall_mem_singleton.2 isBlank_lineFeed
      · rfl
      · rfl
    | cons c cs ih =>
      obtain ⟨⟨bs, hbs, hbefore⟩, hhas⟩ := ih (isBlank c)
      rw [List.cons_append, beforeComment, beforeComment, hasComment, hasComment]
      split
      · exact ⟨⟨[], List.forall_mem_nil _, rfl⟩, rfl⟩
      · exact ⟨⟨bs, hbs, by rw [hbefore, List.cons_append]⟩, hhas⟩
  obtain ⟨⟨bs, hbs, hbefore⟩, hhas⟩ := h
  rw [hbefore]
  exact ⟨trim_append_blanks hbs, hhas⟩

namespace Line

/-! ## Lines that are alike -/

/-- a line that is blank has an empty value -/
theorem value_eq_nil {l : Line} (h : ∀ c ∈ l.chars, isBlank c = true) : l.value = [] :=
  trim_eq_nil fun c hc => h c (mem_of_mem_beforeComment hc)

/-- the lines agree in what counts for a reader -/
structure Alike (l l' : Line) : Prop where
  value : l'.value = l.value
  commented : l'.commented = l.commented
  indent : l.value ≠ [] → l'.indent = l.indent

theorem Alike.symm {l l' : Line} (h : Alike l l') : Alike l' l :=
  ⟨h.value.symm, h.commented.symm, fun hne => (h.indent (h.value ▸ hne)).symm⟩

theorem alike_number (n m : Nat) (cs : List Char) : Alike ⟨n, cs⟩ ⟨m, cs⟩ :=
  ⟨rfl, rfl, fun _ => rfl⟩

theorem alike_lineFeed (n m : Nat) (cs : List Char) : Alike ⟨n, cs⟩ ⟨m, cs ++ ['\n']⟩ := by
  obtain ⟨hvalue, hcommented⟩ := beforeComment_lineFeed true cs
  refine ⟨hvalue, hcommented, ?_⟩
  intro hne
  -- what is not blank in the value stands in the line
  have hlen : (cs.takeWhile isBlank).length ≠ cs.length := by
    intro hlen
    apply hne
    apply value_eq_nil
    have hself : cs.takeWhile isBlank = cs := (List.takeWhile_prefix isBlank).eq_of_length hlen
    exact List.takeWhile_eq_self_iff.1 hself
  rw [indent, indent, List.takeWhile_append, if_neg hlen]

end Line

/-! ## Comment lines -/

/-- a line without its break whose first character that is not blank is a semicolon -/
structure IsComment (cs : List Char) : Prop where
  opens : (cs.dropWhile isBlank).head? = some ';'
  lineFeed : '\n' ∉ cs
  carriageReturn : '\r' ∉ cs

theorem IsComment.exists_margin (h : IsComment cs) :
    ∃ margin rest, (∀ c ∈ margin, isBlank c = true) ∧ cs = margin ++ ';' :: rest := by
  obtain ⟨rest, hrest⟩ := List.head?_eq_some_iff.1 h.opens
  refine ⟨cs.takeWhile isBlank, rest, fun c hc => List.mem_takeWhile_imp hc, ?_⟩
  rw [← hrest, List.takeWhile_append_dropWhile]

/-- a comment line has nothing but its comment, whatever follows it -/
theorem IsComment.says_nothing (h : IsComment cs) (n : Nat) (ds : List Char) :
    Line.value ⟨n, cs ++ ds⟩ = [] ∧ Line.commented ⟨n, cs ++ ds⟩ = true := by
  obtain ⟨margin, rest, hmargin, rfl⟩ := h.exists_margin
  have hsemicolon : ';' ∉ margin := fun hc => absurd (hmargin _ hc) (by decide)
  have ho : opensBehind true margin = true := by
    rw [opensBehind]
    cases hlast : margin.getLast? with
    | none => rfl
    | some c => exact hmargin c (List.mem_of_getLast? hlast)
  obtain ⟨hbefore, hhas⟩ := beforeComment_append hsemicolon ho (rest ++ ds)
  rw [← List.cons_append, ← List.append_assoc] at hbefore hhas
  refine ⟨?_, hhas⟩
  rw [Line.value, hbefore]
  exact trim_eq_nil hmargin

end Settings

end TextGrammar
