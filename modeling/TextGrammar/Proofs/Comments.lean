/-
Comment lines in a settings text.

A comment line leaves a reader as it is, wherever it stands: in front of the first section, between an option and the
lines that its value goes on with, or at the end. An empty line does not, since it belongs to the value of an option
that is being read. So the lines behind a comment line meet the reader that they met before, and only their numbers
differ.

- `LineInserted`: a line put between two lines of a text, in front of the first or behind the last one.
- `Reads.insert_comment`: what lines lead to is not changed by a comment line among them.
- `read_of_lineInserted`: so a text with a comment line more has the same settings.

Result:
- `comment_line_is_inert`: it can be read if the text can, and no option of the parser changes.
-/
import TextGrammar.Proofs.Reading
import TextGrammar.Settings

namespace TextGrammar.Settings

open Reader

variable {line cs cs' : List Char} {ls ls' : List (List Char)} {r r' : Reader}

/-! ## A line more -/

/-- the second text is the first one with the line put between two of its lines, in front of the first or behind the
last one. Behind a line without a break another break is needed, and at the end the line itself may be left without
one. -/
inductive LineInserted (line : List Char) : List Char → List Char → Prop where
  | between {before after b : List Char} : Finished before → Apart before after →
      (b ∈ breaks ∧ Apart b after ∨ b = [] ∧ after = []) →
      LineInserted line (before ++ after) (before ++ (line ++ b) ++ after)
  | behind {text b b' : List Char} : ¬ Finished text → b ∈ breaks → (b' ∈ breaks ∨ b' = []) →
      LineInserted line text (text ++ b ++ (line ++ b'))

/-- the lines of a line with its break, or without one at the end -/
theorem exists_textLines_line {b : List Char} (hline : IsComment line) (hb : b ∈ breaks ∨ b = []) :
    ∃ feed, textLines (line ++ b) = [line ++ feed] := by
  rcases hb with hb | rfl
  · exact ⟨['\n'], textLines_line hline.lineFeed hline.carriageReturn hb⟩
  · have hne : line ≠ [] := by
      rintro rfl
      cases hline.opens
    refine ⟨[], ?_⟩
    rw [List.append_nil]
    exact textLines_eq_singleton hline.lineFeed hline.carriageReturn hne

/-- a comment line starts with no line feed -/
theorem IsComment.apart (hline : IsComment line) (cs ds : List Char) : Apart cs (line ++ ds) := by
  rintro ⟨-, hhead⟩
  cases line with
  | nil => cases hline.opens
  | cons c line =>
    obtain rfl : c = '\n' := Option.some.inj hhead
    exact hline.lineFeed List.mem_cons_self

/-- the lines are those of the text and, among them, the new one; the line in front of it may have got its break -/
theorem LineInserted.exists_lines (h : LineInserted line cs cs') (hline : IsComment line) :
    ∃ ls ls' before feed, textLines cs = ls ++ ls' ∧ textLines cs' = before ++ (line ++ feed) :: ls' ∧
      ∀ r r', Reads r ls r' → Reads r before r' := by
  cases h with
  | @between before after b hfinished hcut hb =>
    have hb' : b ∈ breaks ∨ b = [] := hb.imp And.left And.left
    obtain ⟨feed, hfeed⟩ := exists_textLines_line hline hb'
    have htext : textLines (before ++ after) = textLines before ++ textLines after :=
      textLines_append hfinished hcut
    have hrest : textLines (line ++ b ++ after) = (line ++ feed) :: textLines after := by
      rcases hb with ⟨hb, hapart⟩ | ⟨rfl, rfl⟩
      · have hlast : Apart (line ++ b) after := by
          intro hsplit
          have hne : b ≠ [] := by
            rintro rfl
            simp [breaks] at hb
          rw [List.getLast?_append_of_ne_nil line hne] at hsplit
          exact hapart hsplit
        rw [textLines_append (finished_break hb line) hlast, hfeed]
        rfl
      · rw [List.append_nil, hfeed]
        rfl
    refine ⟨textLines before, textLines after, textLines before, feed, htext, ?_, fun _ _ hreads => hreads⟩
    rw [List.append_assoc, textLines_append hfinished ?_, hrest]
    rw [List.append_assoc]
    exact hline.apart before (b ++ after)
  | @behind text b b' hunfinished hb hb' =>
    obtain ⟨feed, hfeed⟩ := exists_textLines_line hline hb'
    obtain ⟨ls, l, htext, hfed⟩ := exists_textLines_unfinished hunfinished
    refine ⟨ls ++ [l], [], ls ++ [l ++ ['\n']], feed, ?_, ?_, fun r r' => (reads_lineFeed l).2⟩
    · rw [htext, List.append_nil]
    · rw [textLines_append (finished_break hb cs) (hline.apart _ _), hfed b hb, hfeed]

/-! ## Readers -/

/-- a comment line leaves a reader as it is -/
theorem turns_comment (hline : IsComment line) (feed : List Char) (n : Nat) : Turns r ⟨n, line ++ feed⟩ r := by
  obtain ⟨hvalue, hcommented⟩ := hline.says_nothing n feed
  exact .skips hvalue (Or.inl hcommented)

/-- what lines lead to is not changed by a comment line among them -/
theorem Reads.insert_comment (hline : IsComment line) (feed : List Char) (h : Reads r (ls ++ ls') r') :
    Reads r (ls ++ (line ++ feed) :: ls') r' := by
  obtain ⟨m, hbefore, hafter⟩ := reads_append.1 h
  apply reads_append.2
  exact ⟨m, hbefore, .cons (turns_comment hline feed 0) hafter⟩

/-- a text with a comment line more has the same settings -/
theorem read_of_lineInserted {line text text' : String} {s : Settings} (hline : IsComment line.toList)
    (h : LineInserted line.toList text.toList text'.toList) (hread : read text = .ok s) : read text' = .ok s := by
  obtain ⟨r, hreads, rfl⟩ := read_eq_ok_iff.1 hread
  obtain ⟨ls, ls', before, feed, htext, htext', hbefore⟩ := h.exists_lines hline
  apply read_eq_ok_iff.2
  refine ⟨r, ?_, rfl⟩
  rw [htext] at hreads
  obtain ⟨m, hm, hafter⟩ := reads_append.1 hreads
  have hboth : Reads start (before ++ ls') r := reads_append.2 ⟨m, hbefore _ _ hm, hafter⟩
  rw [htext']
  exact hboth.insert_comment hline feed

/-- **Comment lines are inert.** Take a settings text that can be read, and a line whose first character that is not
blank is a semicolon. Put it between two lines of the text, in front of the first or behind the last one. The text can
still be read, and under its settings the limit on nesting and `debug` have the same value as before, or the same
error. -/
theorem comment_line_is_inert {line text text' : String} {s : Settings} (hline : IsComment line.toList)
    (hread : read text = .ok s) (h : LineInserted line.toList text.toList text'.toList) :
    ∃ s', read text' = .ok s' ∧ s'.maxDepth = s.maxDepth ∧ s'.debug = s.debug := by
  refine ⟨s, ?_, rfl, rfl⟩
  exact read_of_lineInserted hline h hread

/-- between an option and an empty line of its value, which ends in an unknown reference -/
theorem comment_line_is_inert_continued :
    ∃ s s', read "[PARSER]\nmax_depth = 7\n\n  %(x)s" = .ok s ∧
      s.maxDepth = .error (.unexpandable .maxDepth "7\n\n%(x)s" (.unknownOption "x")) ∧
      read "[PARSER]\nmax_depth = 7\n\t; debug = yes\r\n\n  %(x)s" = .ok s' ∧
      s'.maxDepth = .error (.unexpandable .maxDepth "7\n\n%(x)s" (.unknownOption "x")) ∧ s'.debug = .ok false := by
  let s : Settings := ⟨["PARSER"], [⟨"PARSER", "max_depth", "7\n\n%(x)s"⟩]⟩
  have hread : read "[PARSER]\nmax_depth = 7\n\n  %(x)s" = .ok s := by rfl
  have hline : IsComment "\t; debug = yes".toList := ⟨by rfl, by decide, by decide⟩
  have hfinished : Finished "[PARSER]\nmax_depth = 7\n".toList := Or.inr (Or.inr (by rfl))
  have hapart : Apart "[PARSER]\nmax_depth = 7\n".toList "\n  %(x)s".toList := fun h => absurd h.1 (by decide)
  have hbreak : ['\r', '\n'] ∈ breaks ∧ Apart ['\r', '\n'] "\n  %(x)s".toList :=
    ⟨by decide, fun h => absurd h.1 (by decide)⟩
  have hinserted : LineInserted "\t; debug = yes".toList "[PARSER]\nmax_depth = 7\n\n  %(x)s".toList
      "[PARSER]\nmax_depth = 7\n\t; debug = yes\r\n\n  %(x)s".toList :=
    .between hfinished hapart (Or.inl hbreak)
  obtain ⟨s', hread', hlimit, hdebug⟩ := comment_line_is_inert hline hread hinserted
  have hvalue : s.maxDepth = .error (.unexpandable .maxDepth "7\n\n%(x)s" (.unknownOption "x")) := by rfl
  exact ⟨s, s', hread, hvalue, hread', hlimit.trans hvalue, hdebug⟩

end TextGrammar.Settings
