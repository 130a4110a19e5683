/-
Settings texts put together.

A line in the first column that heads a section closes whatever the text in front of it has left open: no option goes
on, and the indent is that of the heading. From there on the lines do what they do on their own, and what they set
stands behind what was set before (`Behind`). So two texts of which the second one starts with such a line have the
settings of the first, and behind them those of the second (`read_append`).

The options of the parser are looked up in their own section and in the shared one. The second text changes neither, if
it has no section of these names.

- `turns_behind`, `reads_behind`: a line, and then all lines, behind those of another text.
- `sectionNames`: the section of each line of a text.
- `reads_within`: a reader has no sections and no options but those of the sections that its lines stand in.

Result:
- `other_sections_do_not_matter`: the limit on nesting and `debug` stay as they are.
-/
import TextGrammar.Proofs.Reading
import TextGrammar.Settings

namespace TextGrammar.Settings

open Reader

/-! ## Lines behind other lines -/

namespace Reader

/-- the reader `r` is where `s` is, but has in front all that `base` has -/
structure Behind (base s r : Reader) : Prop where
  headings : r.headings = base.headings ++ s.headings
  current : r.current = s.current
  indent : r.indent = s.indent
  entries : r.entries = base.allEntries ++ s.entries
  pending : r.pending = s.pending

variable {base r r' s : Reader} {l : Line}

theorem Behind.allEntries (h : Behind base s r) : r.allEntries = base.allEntries ++ s.allEntries := by
  change r.entries ++ r.pending.toList = base.allEntries ++ (s.entries ++ s.pending.toList)
  rw [h.entries, h.pending, List.append_assoc]

theorem Behind.reading_iff (h : Behind base s r) (e : Entry) : r.Reading e ↔ s.Reading e := by
  rw [Reading, Reading, h.pending]

theorem Behind.goOn (h : Behind base s r) (e : Entry) (line : List Char) :
    Behind base (s.goOn e line) (r.goOn e line) :=
  ⟨h.headings, h.current, h.indent, h.entries, rfl⟩

/-- a section that is headed closes what was open, so little has to agree in front of it -/
theorem behind_headed (hh : r.headings = base.headings ++ s.headings)
    (he : r.allEntries = base.allEntries ++ s.allEntries) (indent : Nat) (heading : String) :
    Behind base ({ s with indent := indent }.headed heading) ({ r with indent := indent }.headed heading) := by
  refine ⟨?_, rfl, rfl, he, rfl⟩
  simp only [headed, hh]
  split
  · rfl
  · exact List.append_assoc _ _ _

/-- a line behind those of another text does what it does on its own -/
theorem turns_behind (h : Behind base s r) (ht : Turns r l r') : ∃ s', Turns s l s' ∧ Behind base s' r' := by
  cases ht with
  | skips hvalue hskips =>
    refine ⟨s, .skips hvalue (hskips.imp_right ?_), h⟩
    intro hr e he
    exact hr e ((h.reading_iff e).2 he)
  | goesOn he hgoes => exact ⟨_, .goesOn ((h.reading_iff _).1 he) (h.indent ▸ hgoes), h.goOn _ _⟩
  | fresh hne hcont hfresh =>
    have hcont' : ∀ e, s.Reading e → l.indent ≤ s.indent := by
      intro e he
      rw [← h.indent]
      exact hcont e ((h.reading_iff e).2 he)
    cases hfresh with
    | @heads heading hhead hnew =>
      have hnew' : heading ∉ s.headings := by
        intro hmem
        apply hnew
        rw [h.headings]
        exact List.mem_append_right _ hmem
      exact ⟨_, .fresh hne hcont' (.heads hhead hnew'), behind_headed h.headings h.allEntries l.indent heading⟩
    | @sets heading name value hhead hcurrent hparts hname hfree =>
      have hfree' : ∀ e ∈ s.allEntries, e.heading = heading → e.option ≠ optionName name := by
        intro e he
        apply hfree
        exact h.allEntries ▸ List.mem_append_right _ he
      refine ⟨_, .fresh hne hcont' (.sets hhead (h.current ▸ hcurrent) hparts hname hfree'), ?_⟩
      exact ⟨h.headings, h.current, rfl, h.allEntries, rfl⟩

/-- a line in the first column that heads a section does so behind another text as it does at the start -/
theorem turns_heading_behind {heading : String} (hindent : l.indent = 0) (hhead : Line.heading? l.value = some heading)
    (ht : Turns base l r) : ∃ s, Turns start l s ∧ Behind base s r := by
  have hvalue : l.value ≠ [] := by
    intro hnil
    rw [hnil] at hhead
    cases hhead
  cases ht with
  | skips hnil => exact absurd hnil hvalue
  | goesOn _ hgoes =>
    rcases hgoes with ⟨hnil, -⟩ | ⟨-, hlt⟩
    · exact absurd hnil hvalue
    · rw [hindent] at hlt
      exact absurd hlt (Nat.not_lt_zero _)
  | fresh _ _ hfresh =>
    cases hfresh with
    | @heads heading' hhead' hnew =>
      have hclosed : ∀ e, start.Reading e → l.indent ≤ start.indent := by
        intro e he
        cases he.1
      have hheadings : base.headings = base.headings ++ start.headings := (List.append_nil _).symm
      have hentries : base.allEntries = base.allEntries ++ start.allEntries := (List.append_nil _).symm
      exact ⟨_, .fresh hvalue hclosed (.heads hhead' List.not_mem_nil),
        behind_headed hheadings hentries l.indent heading'⟩
    | sets hnone => simp [hhead] at hnone

end Reader

variable {base r r' s : Reader} {ls : List (List Char)}

theorem reads_behind (h : Behind base s r) (hreads : Reads r ls r') : ∃ s', Reads s ls s' ∧ Behind base s' r' := by
  induction hreads generalizing s with
  | nil => exact ⟨s, .nil, h⟩
  | cons hturns _ ih =>
    obtain ⟨s₁, hs₁, h₁⟩ := turns_behind h hturns
    obtain ⟨s', hs', h'⟩ := ih h₁
    exact ⟨s', .cons hs₁ hs', h'⟩

/-! ## Texts behind other texts -/

/-- the text starts with a line in the first column that heads a section -/
def StartsSection (text : String) : Prop :=
  ∃ l, (linesOf text.toList).head? = some l ∧ l.indent = 0 ∧ (Line.heading? l.value).isSome

/-- the first settings, and behind them the second ones -/
def append (s t : Settings) : Settings :=
  ⟨s.headings ++ t.headings, s.entries ++ t.entries⟩

theorem Reader.Behind.settings (h : Behind base s r) : r.settings = base.settings.append s.settings := by
  rw [Reader.settings, h.headings, h.allEntries, List.map_append]
  rfl

/-- an empty line behind others adds a line feed at most -/
theorem exists_intercalate_concat_nil (lines : List (List Char)) :
    ∃ bs : List Char, (∀ c ∈ bs, Text.isBlank c = true) ∧
      ['\n'].intercalate (lines ++ [[]]) = ['\n'].intercalate lines ++ bs := by
  induction lines with
  | nil => exact ⟨[], List.forall_mem_nil _, rfl⟩
  | cons l lines ih =>
    cases lines with
    | nil => exact ⟨['\n'], List.forall_mem_singleton.2 Text.isBlank_lineFeed, by simp [List.intercalate]⟩
    | cons l' lines =>
      obtain ⟨bs, hbs, h⟩ := ih
      refine ⟨bs, hbs, ?_⟩
      calc
        ['\n'].intercalate (l :: l' :: lines ++ [[]]) = l ++ ['\n'] ++ ['\n'].intercalate (l' :: lines ++ [[]]) :=
          List.intercalate_cons_cons
        _ = l ++ ['\n'] ++ (['\n'].intercalate (l' :: lines) ++ bs) := by rw [h]
        _ = ['\n'].intercalate (l :: l' :: lines) ++ bs := by
          rw [List.intercalate_cons_cons, List.append_assoc (l ++ ['\n'])]

/-- an empty line at the end of a value does not count -/
theorem setting_add_nil (e : Entry) : (e.add []).setting = e.setting := by
  obtain ⟨bs, hbs, hlines⟩ := exists_intercalate_concat_nil e.lines
  rw [Entry.setting, Entry.setting, Entry.add, hlines, Text.trimEnd_append_blanks hbs]

/-- a line feed behind a text changes no setting -/
theorem settings_lineFeed {cs : List Char} {m : Reader} (h : Reads start (textLines cs) r)
    (h' : Reads start (textLines (cs ++ ['\n'])) m) : m.settings = r.settings := by
  rcases textLines_lineFeed cs with hlines | hlines | ⟨ls, l, hlines, hfed⟩
  · rw [hlines] at h'
    rw [h.unique rfl h']
  · rw [hlines] at h'
    obtain ⟨r₁, hr₁, hlast⟩ := reads_append.1 h'
    obtain rfl := h.unique rfl hr₁
    obtain ⟨n, hturns⟩ := reads_singleton.1 hlast
    have hvalue : Line.value ⟨n, ['\n']⟩ = [] := by rfl
    cases hturns with
    | skips => rfl
    | goesOn he =>
      rw [hvalue]
      simp only [Reader.settings, Reader.allEntries, goOn, he.1, Option.toList_some, List.map_append, List.map_cons,
        setting_add_nil]
    | fresh hne => exact absurd hvalue hne
  · rw [hfed, reads_lineFeed, ← hlines] at h'
    rw [h.unique rfl h']

/-- behind a text, a text that starts with a section adds its settings -/
theorem read_append {text extra : String} {s t : Settings} (hread : read text = .ok s) (hstarts : StartsSection extra)
    (hboth : read (text ++ "\n" ++ extra) = .ok t) : ∃ x, read extra = .ok x ∧ t = s.append x := by
  obtain ⟨r, hr, rfl⟩ := read_eq_ok_iff.1 hread
  obtain ⟨r', hr', rfl⟩ := read_eq_ok_iff.1 hboth
  -- the line feed ends the last line of the first text, so the lines of the second one stand apart
  have hlines : textLines (text ++ "\n" ++ extra).toList =
      textLines (text.toList ++ ['\n']) ++ textLines extra.toList := by
    rw [String.toList_append, String.toList_append]
    exact textLines_append (finished_break List.mem_cons_self _) (apart_lineFeed _ _)
  rw [hlines] at hr'
  obtain ⟨m, hm, hextra⟩ := reads_append.1 hr'
  obtain ⟨l, hl, hindent, hhead⟩ := hstarts
  obtain ⟨heading, hheading⟩ := Option.isSome_iff_exists.1 hhead
  cases hx : textLines extra.toList with
  | nil =>
    rw [linesOf, ← textLines, hx] at hl
    cases hl
  | cons cs ls =>
    rw [linesOf, ← textLines, hx] at hl
    obtain rfl : ⟨1, cs⟩ = l := Option.some.inj hl
    rw [hx] at hextra
    cases hextra with
    | cons hturns hrest =>
      obtain ⟨s₁, hs₁, h₁⟩ := turns_heading_behind hindent hheading (hturns.alike (Line.alike_number _ 1 cs))
      obtain ⟨s', hs', h'⟩ := reads_behind h₁ hrest
      have hown : Reads start (textLines extra.toList) s' := by
        rw [hx]
        exact .cons hs₁ hs'
      refine ⟨s'.settings, read_eq_ok_iff.2 ⟨s', hown, rfl⟩, ?_⟩
      rw [h'.settings, settings_lineFeed hr hm]

/-! ## The sections of a text -/

/-- the section of each line, as far as the lines can be read -/
def Reader.sections (r : Reader) : List Line → List String
  | [] => []
  | l :: ls =>
    match r.step l with
    | .ok r' => r'.current.toList ++ r'.sections ls
    | .error _ => []

theorem Reader.sections_cons {l : Line} {lines : List Line} (h : r.step l = .ok r') :
    r.sections (l :: lines) = r'.current.toList ++ r'.sections lines := by
  rw [sections, h]

/-- the names of the sections of a text, each for every line of it -/
def sectionNames (text : String) : List String :=
  start.sections (linesOf text.toList)

/-- the reader has sections of these names only, and options in them -/
structure Reader.Within (names : List String) (r : Reader) : Prop where
  headings : ∀ heading ∈ r.headings, heading ∈ names
  entries : ∀ e ∈ r.allEntries, e.heading ∈ names

namespace Reader

variable {names : List String} {m : Reader} {l : Line}

/-- a line keeps within the names, if its section is one of them -/
theorem Within.turns (h : Within names r) (ht : Turns r l m)
    (hcurrent : ∀ heading, m.current = some heading → heading ∈ names) : Within names m := by
  cases ht with
  | skips => exact h
  | @goesOn e he =>
    refine ⟨h.headings, ?_⟩
    intro e' he'
    rcases List.mem_append.1 he' with hmem | hmem
    · exact h.entries e' (List.mem_append_left _ hmem)
    · obtain rfl : e' = e.add l.value := by simpa [goOn] using hmem
      apply h.entries e
      rw [allEntries, he.1]
      exact List.mem_append_right _ List.mem_cons_self
  | fresh _ _ hfresh =>
    cases hfresh with
    | @heads heading =>
      have hentries : ∀ e ∈ r.allEntries ++ [], e.heading ∈ names := by
        rw [List.append_nil]
        exact h.entries
      refine ⟨?_, hentries⟩
      intro heading' hmem
      simp only [headed] at hmem
      split at hmem
      · exact h.headings heading' hmem
      · rcases List.mem_append.1 hmem with hmem | hmem
        · exact h.headings heading' hmem
        · obtain rfl := List.mem_singleton.1 hmem
          exact hcurrent heading' rfl
    | sets _ hsection =>
      refine ⟨h.headings, ?_⟩
      intro e he
      rcases List.mem_append.1 he with hmem | hmem
      · exact h.entries e hmem
      · obtain rfl := List.mem_singleton.1 hmem
        exact hcurrent _ hsection

/-- so do lines in a row -/
theorem reads_within {ls : List (List Char)} (n : Nat) (hr : r.malformed = []) (h : Reads r ls m) (hin : Within names r)
    (hsections : ∀ name ∈ r.sections (numbered n ls), name ∈ names) : Within names m := by
  induction h generalizing n with
  | nil => exact hin
  | @cons r r₁ m number cs ls hturns _ ih =>
    obtain ⟨hstep, hr₁⟩ := step_eq_ok_iff.2 ⟨hr, hturns.alike (Line.alike_number number n cs)⟩
    rw [numbered, sections_cons hstep] at hsections
    apply ih (n + 1) hr₁
    · apply hin.turns hturns
      intro heading hcurrent
      apply hsections
      rw [hcurrent]
      exact List.mem_append_left _ List.mem_cons_self
    · intro name hname
      exact hsections name (List.mem_append_right _ hname)

end Reader

/-! ## Looking up in settings put together -/

/-- an option that the second settings do not have in the section or the shared one -/
theorem find?_append {s x : Settings} {heading : String} (h : ∀ e ∈ x.entries, e.heading ≠ heading)
    (hshared : ∀ e ∈ x.entries, e.heading ≠ sharedHeading) : (s.append x).find? heading = s.find? heading := by
  funext option
  have hnone {heading : String} (h : ∀ e ∈ x.entries, e.heading ≠ heading) :
      (x.entries.find? fun e => e.heading = heading && e.option = option) = none := by
    apply List.find?_eq_none.2
    intro e he
    simp [h e he]
  simp only [find?, append, List.find?_append, hnone h, hnone hshared, Option.or_none]

/-- settings from other sections are not asked -/
theorem text_append {s x : Settings} (hheadings : parserHeading ∉ x.headings)
    (hentries : ∀ e ∈ x.entries, e.heading ≠ parserHeading) (hshared : ∀ e ∈ x.entries, e.heading ≠ sharedHeading)
    (option : ParserOption) : (s.append x).text option = s.text option := by
  have hfind := find?_append (s := s) hentries hshared
  have hmem : parserHeading ∈ (s.append x).headings ↔ parserHeading ∈ s.headings := by
    rw [append, List.mem_append, or_iff_left hheadings]
  have hvalue : (s.append x).value? parserHeading option.name = s.value? parserHeading option.name := by
    simp only [value?, hfind, hmem]
  rw [text, text, hvalue, hfind]

/-- **Other sections do not matter.** Take a settings text that can be read, and behind a line feed a second text that
starts with a section and has no section named `PARSER` or `DEFAULT`. If both can be read together, then under their
settings the limit on nesting and `debug` have the value that they have under those of the first text alone, or the same
error. -/
theorem other_sections_do_not_matter {text extra : String} {s t : Settings} (hread : read text = .ok s)
    (hstarts : StartsSection extra) (hnames : ∀ name ∈ sectionNames extra, name ≠ "PARSER" ∧ name ≠ "DEFAULT")
    (hboth : read (text ++ "\n" ++ extra) = .ok t) : t.maxDepth = s.maxDepth ∧ t.debug = s.debug := by
  obtain ⟨x, hx, rfl⟩ := read_append hread hstarts hboth
  obtain ⟨r, hr, rfl⟩ := read_eq_ok_iff.1 hx
  have hin : Within (sectionNames extra) r := by
    apply reads_within 1 rfl hr
    · exact ⟨List.forall_mem_nil _, List.forall_mem_nil _⟩
    · exact fun _ hname => hname
  have hheadings : parserHeading ∉ r.settings.headings := by
    intro hmem
    exact (hnames _ (hin.headings _ hmem)).1 rfl
  have hentries : ∀ e ∈ r.settings.entries, e.heading ∈ sectionNames extra := by
    intro e he
    obtain ⟨e', he', rfl⟩ := List.mem_map.1 he
    exact hin.entries e' he'
  have htext := text_append (s := s) hheadings (fun e he => (hnames _ (hentries e he)).1)
    (fun e he => (hnames _ (hentries e he)).2)
  constructor
  · rw [maxDepth, maxDepth, htext]
  · rw [debug, debug, htext]

/-- the first text leaves a value open, and the indented lines of the second one head no section -/
theorem other_sections_do_not_matter_open :
    ∃ s t, read "[PARSER]\nmax_depth = 3\n  %(x)s" = .ok s ∧
      s.maxDepth = .error (.unexpandable .maxDepth "3\n%(x)s" (.unknownOption "x")) ∧
      read ("[PARSER]\nmax_depth = 3\n  %(x)s" ++ "\n" ++
        "[OTHER]\nx = %(\n  [PARSER]\n  debug = x\ndebug: maybe") = .ok t ∧
      t.maxDepth = .error (.unexpandable .maxDepth "3\n%(x)s" (.unknownOption "x")) ∧ t.debug = .ok false := by
  let s : Settings := ⟨["PARSER"], [⟨"PARSER", "max_depth", "3\n%(x)s"⟩]⟩
  let t : Settings := ⟨["PARSER", "OTHER"], [⟨"PARSER", "max_depth", "3\n%(x)s"⟩,
    ⟨"OTHER", "x", "%(\n[PARSER]\ndebug = x"⟩, ⟨"OTHER", "debug", "maybe"⟩]⟩
  have hread : read "[PARSER]\nmax_depth = 3\n  %(x)s" = .ok s := by rfl
  have hboth : read ("[PARSER]\nmax_depth = 3\n  %(x)s" ++ "\n" ++
      "[OTHER]\nx = %(\n  [PARSER]\n  debug = x\ndebug: maybe") = .ok t := by rfl
  have hstarts : StartsSection "[OTHER]\nx = %(\n  [PARSER]\n  debug = x\ndebug: maybe" :=
    ⟨⟨1, "[OTHER]\n".toList⟩, by rfl, by rfl, by rfl⟩
  have hnames : sectionNames "[OTHER]\nx = %(\n  [PARSER]\n  debug = x\ndebug: maybe" =
      ["OTHER", "OTHER", "OTHER", "OTHER", "OTHER"] := by rfl
  obtain ⟨hlimit, hdebug⟩ := other_sections_do_not_matter hread hstarts (by rw [hnames]; decide) hboth
  have hvalue : s.maxDepth = .error (.unexpandable .maxDepth "3\n%(x)s" (.unknownOption "x")) := by rfl
  exact ⟨s, t, hread, hvalue, hboth, hlimit.trans hvalue, hdebug⟩

end TextGrammar.Settings
