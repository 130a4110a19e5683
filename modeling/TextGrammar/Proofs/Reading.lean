/-
What the lines of a settings text do to a reader.

A line that is neither refused nor noted says nothing, goes on with the option being read, heads a section or sets an
option (`Turns`, and `Fresh` for the last two). `step_eq_ok_iff` says so of the step of a reader, and what is shown
about lines goes by these cases and never opens the step. Lines in a row are read by `Reads`, which does not see their
numbers.

- `Turns.alike`: lines that are alike do the same.
- `foldlM_step_eq_ok_iff`, `read_eq_ok_iff`: a text has settings where its lines can be read, and then those that the
  reader has in the end.
- `Reads.unique`: there is one way to read some lines.
- `reads_append`: lines behind others.
-/
import TextGrammar.Proofs.Lines

namespace TextGrammar.Settings

open TextGrammar.Text

namespace Reader

variable {r r' s : Reader} {l l' : Line} {e : Entry}

/-! ## The option being read -/

/-- the option is the one whose value may go on, and it has a name -/
def Reading (r : Reader) (e : Entry) : Prop :=
  r.pending = some e ∧ e.option ≠ ""

/-- the value of the option goes on with a line -/
def goOn (r : Reader) (e : Entry) (line : List Char) : Reader :=
  { r with pending := some (e.add line) }

theorem extend?_of_reading (h : r.Reading e) (line : List Char) : r.extend? line = some (r.goOn e line) := by
  rw [extend?, h.1]
  exact if_neg h.2

theorem extend?_eq_none (h : ∀ e, ¬ r.Reading e) (line : List Char) : r.extend? line = none := by
  rw [extend?]
  cases hp : r.pending with
  | none => rfl
  | some e =>
    have hname : e.option = "" := by
      by_contra hne
      exact h e ⟨hp, hne⟩
    exact if_pos hname

theorem malformed_extend? (line : List Char) : ((r.extend? line).getD r).malformed = r.malformed := by
  rw [extend?]
  cases r.pending with
  | none => rfl
  | some e => by_cases hname : e.option = "" <;> simp [hname]

/-! ## Lines that do not go on with a value -/

/-- behind a line that heads a section -/
def headed (r : Reader) (heading : String) : Reader :=
  { r.enter heading with headings := if heading = sharedHeading then r.headings else r.headings ++ [heading] }

/-- behind a line that sets an option -/
def sets (r : Reader) (e : Entry) : Reader :=
  { r with entries := r.allEntries, pending := some e }

/-- the name under which an option is set -/
def optionName (name : List Char) : String :=
  lowercase (String.ofList (trimEnd name))

/-- what a line that does not go on with a value does to a reader, if it is neither refused nor noted -/
inductive Fresh (r : Reader) (l : Line) : Reader → Prop where
  | heads {heading : String} :
      Line.heading? l.value = some heading → heading ∉ r.headings → Fresh r l (r.headed heading)
  | sets {heading : String} {name value : List Char} :
      Line.heading? l.value = none → r.current = some heading → Line.assignment? l.value = some (name, value) →
      optionName name ≠ "" → (∀ e ∈ r.allEntries, e.heading = heading → e.option ≠ optionName name) →
      Fresh r l (r.sets ⟨heading, optionName name, [trim value]⟩)

theorem onHeading_eq_ok_iff {number : Nat} {heading : String} :
    r.onHeading number heading = .ok r' ↔ heading ∉ r.headings ∧ r.headed heading = r' := by
  by_cases h : heading ∈ r.headings
  · simp [onHeading, h]
  · by_cases hshared : heading = sharedHeading
    · subst hshared
      simp [onHeading, headed, enter, h]
    · simp [onHeading, headed, enter, h, hshared]

theorem onOption_eq_ok_iff {heading option : String} {value : List Char} :
    r.onOption l heading option value = .ok r' ∧ r'.malformed = [] ↔
      r.malformed = [] ∧ option ≠ "" ∧ (∀ e ∈ r.allEntries, e.heading = heading → e.option ≠ option) ∧
        r.sets ⟨heading, option, [value]⟩ = r' := by
  have hany : (r.allEntries.any fun e => e.heading = heading && e.option = option) = true ↔
      ¬ ∀ e ∈ r.allEntries, e.heading = heading → e.option ≠ option := by
    simp
  unfold onOption
  split
  · rename_i h
    simp [hany.1 h]
  · rename_i h
    have hfree := not_not.1 (mt hany.2 h)
    by_cases hname : option = ""
    · simp only [hname, if_true, Except.ok.injEq]
      constructor
      · rintro ⟨rfl, hmalformed⟩
        simp at hmalformed
      · rintro ⟨-, hne, -⟩
        exact absurd rfl hne
    · simp only [hname, if_false, Except.ok.injEq]
      constructor
      · rintro ⟨rfl, hmalformed⟩
        exact ⟨hmalformed, hname, hfree, rfl⟩
      · rintro ⟨hmalformed, -, -, rfl⟩
        exact ⟨rfl, hmalformed⟩

theorem fresh_iff_of_heading {heading : String} (hhead : Line.heading? l.value = some heading) :
    Fresh r l r' ↔ heading ∉ r.headings ∧ r.headed heading = r' := by
  constructor
  · intro h
    cases h with
    | heads hhead' hnew =>
      obtain rfl := Option.some.inj (hhead.symm.trans hhead')
      exact ⟨hnew, rfl⟩
    | sets hnone => simp [hhead] at hnone
  · intro h
    obtain ⟨hnew, rfl⟩ := h
    exact .heads hhead hnew

theorem fresh_iff_of_assignment {heading : String} {name value : List Char} (hhead : Line.heading? l.value = none)
    (hcurrent : r.current = some heading) (hparts : Line.assignment? l.value = some (name, value)) :
    Fresh r l r' ↔ optionName name ≠ "" ∧ (∀ e ∈ r.allEntries, e.heading = heading → e.option ≠ optionName name) ∧
      r.sets ⟨heading, optionName name, [trim value]⟩ = r' := by
  constructor
  · intro h
    cases h with
    | heads hsome => simp [hhead] at hsome
    | sets _ hcurrent' hparts' hname hfree =>
      obtain rfl := Option.some.inj (hcurrent.symm.trans hcurrent')
      obtain ⟨rfl, rfl⟩ := Prod.mk.inj (Option.some.inj (hparts.symm.trans hparts'))
      exact ⟨hname, hfree, rfl⟩
  · intro h
    obtain ⟨hname, hfree, rfl⟩ := h
    exact .sets hhead hcurrent hparts hname hfree

/-- an option needs a section to be in, and a sign between its name and its value -/
theorem not_fresh (hhead : Line.heading? l.value = none)
    (hlacks : r.current = none ∨ Line.assignment? l.value = none) : ¬ Fresh r l r' := by
  intro h
  cases h with
  | heads hsome => simp [hhead] at hsome
  | sets _ hcurrent hparts => simp [hcurrent, hparts] at hlacks

theorem onFresh_eq_ok_iff : r.onFresh l = .ok r' ∧ r'.malformed = [] ↔ r.malformed = [] ∧ Fresh r l r' := by
  unfold onFresh
  cases hhead : Line.heading? l.value with
  | some heading =>
    simp only [onHeading_eq_ok_iff, fresh_iff_of_heading hhead]
    constructor
    · intro h
      obtain ⟨⟨hnew, rfl⟩, hmalformed⟩ := h
      exact ⟨hmalformed, hnew, rfl⟩
    · intro h
      obtain ⟨hmalformed, hnew, rfl⟩ := h
      exact ⟨⟨hnew, rfl⟩, hmalformed⟩
  | none =>
    cases hcurrent : r.current with
    | none => exact iff_of_false (by simp) fun h => not_fresh hhead (Or.inl hcurrent) h.2
    | some heading =>
      cases hparts : Line.assignment? l.value with
      | none =>
        refine iff_of_false ?_ fun h => not_fresh hhead (Or.inr hparts) h.2
        intro h
        obtain ⟨hnoted, hmalformed⟩ := h
        obtain rfl := Except.ok.inj hnoted
        simp at hmalformed
      | some parts =>
        obtain ⟨name, value⟩ := parts
        rw [fresh_iff_of_assignment hhead hcurrent hparts]
        exact onOption_eq_ok_iff

/-! ## Lines -/

/-- what a line does to a reader, if it is neither refused nor noted -/
inductive Turns (r : Reader) (l : Line) : Reader → Prop where
  | skips : l.value = [] → l.commented = true ∨ (∀ e, ¬ r.Reading e) → Turns r l r
  | goesOn {e : Entry} : r.Reading e →
      (l.value = [] ∧ l.commented = false ∨ l.value ≠ [] ∧ r.indent < l.indent) → Turns r l (r.goOn e l.value)
  | fresh {r' : Reader} : l.value ≠ [] → (∀ e, r.Reading e → l.indent ≤ r.indent) →
      Fresh { r with indent := l.indent } l r' → Turns r l r'

/-- a line that says nothing may still go on with a value -/
theorem turns_iff_of_empty (hvalue : l.value = []) :
    Turns r l r' ↔ (if l.commented = true then r else (r.extend? []).getD r) = r' := by
  constructor
  · intro h
    cases h with
    | skips _ hskips =>
      rcases hskips with hcomment | hr
      · rw [if_pos hcomment]
      · rw [extend?_eq_none hr]
        exact ite_self _
    | goesOn he hgoes =>
      rcases hgoes with ⟨-, hcomment⟩ | ⟨hne, -⟩
      · rw [hcomment, extend?_of_reading he, hvalue]
        rfl
      · exact absurd hvalue hne
    | fresh hne => exact absurd hvalue hne
  · intro h
    subst h
    cases hcomment : l.commented with
    | true => exact .skips hvalue (Or.inl hcomment)
    | false =>
      by_cases hr : ∃ e, r.Reading e
      · obtain ⟨e, he⟩ := hr
        have hgoes := Turns.goesOn he (Or.inl ⟨hvalue, hcomment⟩)
        rw [hvalue] at hgoes
        rw [extend?_of_reading he]
        exact hgoes
      · rw [extend?_eq_none (not_exists.1 hr)]
        exact .skips hvalue (Or.inr (not_exists.1 hr))

/-- a line that is indented deeper goes on with the value being read -/
theorem turns_iff_of_deeper (hvalue : l.value ≠ []) (he : r.Reading e) (hlt : r.indent < l.indent) :
    Turns r l r' ↔ r.goOn e l.value = r' := by
  constructor
  · intro h
    cases h with
    | skips hnil => exact absurd hnil hvalue
    | goesOn he' =>
      obtain rfl := Option.some.inj (he.1.symm.trans he'.1)
      rfl
    | fresh _ hcont => exact absurd hlt (Nat.not_lt.2 (hcont e he))
  · intro h
    subst h
    exact .goesOn he (Or.inr ⟨hvalue, hlt⟩)

/-- any other line does what it does on its own -/
theorem turns_iff_of_fresh (hvalue : l.value ≠ []) (hcont : ∀ e, r.Reading e → l.indent ≤ r.indent) :
    Turns r l r' ↔ Fresh { r with indent := l.indent } l r' := by
  constructor
  · intro h
    cases h with
    | skips hnil => exact absurd hnil hvalue
    | goesOn he hgoes =>
      rcases hgoes with ⟨hnil, -⟩ | ⟨-, hlt⟩
      · exact absurd hnil hvalue
      · exact absurd hlt (Nat.not_lt.2 (hcont _ he))
    | fresh _ _ hfresh => exact hfresh
  · intro h
    exact .fresh hvalue hcont h

theorem step_of_deeper (hvalue : l.value ≠ []) (he : r.Reading e) (hlt : r.indent < l.indent) :
    r.step l = .ok (r.goOn e l.value) := by
  rw [step, if_neg hvalue]
  simp only [hlt, if_true, extend?_of_reading he]

theorem step_of_fresh (hvalue : l.value ≠ []) (hcont : ∀ e, r.Reading e → l.indent ≤ r.indent) :
    r.step l = { r with indent := l.indent }.onFresh l := by
  rw [step, if_neg hvalue]
  by_cases hlt : r.indent < l.indent
  · have hnone : r.extend? l.value = none :=
      extend?_eq_none (fun e he => absurd hlt (Nat.not_lt.2 (hcont e he))) _
    simp only [hlt, if_true, hnone]
  · simp only [hlt, if_false]

/-- a step that is sure to be taken notes nothing -/
theorem ok_eq_ok_iff {m : Reader} (hm : m.malformed = r.malformed) :
    (Except.ok m : Except LoadError Reader) = .ok r' ∧ r'.malformed = [] ↔ r.malformed = [] ∧ m = r' := by
  rw [Except.ok.injEq, ← hm]
  constructor
  · intro h
    obtain ⟨rfl, hmalformed⟩ := h
    exact ⟨hmalformed, rfl⟩
  · intro h
    obtain ⟨hmalformed, rfl⟩ := h
    exact ⟨rfl, hmalformed⟩

/-- a line that is taken without being noted does one of the things that lines do -/
theorem step_eq_ok_iff : r.step l = .ok r' ∧ r'.malformed = [] ↔ r.malformed = [] ∧ Turns r l r' := by
  by_cases hvalue : l.value = []
  · have hsame : (if l.commented = true then r else (r.extend? []).getD r).malformed = r.malformed := by
      split
      · rfl
      · exact malformed_extend? []
    rw [turns_iff_of_empty hvalue, step, if_pos hvalue]
    exact ok_eq_ok_iff hsame
  · by_cases hdeeper : ∃ e, r.Reading e ∧ r.indent < l.indent
    · obtain ⟨e, he, hlt⟩ := hdeeper
      rw [turns_iff_of_deeper hvalue he hlt, step_of_deeper hvalue he hlt]
      exact ok_eq_ok_iff rfl
    · have hcont : ∀ e, r.Reading e → l.indent ≤ r.indent := by
        intro e he
        by_contra hlt
        exact hdeeper ⟨e, he, Nat.not_le.1 hlt⟩
      rw [turns_iff_of_fresh hvalue hcont, step_of_fresh hvalue hcont]
      exact onFresh_eq_ok_iff

/-- lines that are alike do the same -/
theorem Turns.alike (h : Turns r l r') (ha : l.Alike l') : Turns r l' r' := by
  cases h with
  | skips hvalue hskips => exact .skips (ha.value.trans hvalue) (ha.commented ▸ hskips)
  | goesOn he hgoes =>
    rw [← ha.value] at hgoes ⊢
    rw [← ha.commented] at hgoes
    refine .goesOn he (hgoes.imp_right ?_)
    rintro ⟨hne, hlt⟩
    exact ⟨hne, (ha.indent (ha.value ▸ hne)).symm ▸ hlt⟩
  | fresh hne hcont hfresh =>
    have hindent := ha.indent hne
    refine .fresh (ha.value.symm ▸ hne) (hindent.symm ▸ hcont) ?_
    rw [hindent]
    cases hfresh with
    | heads hhead hnew => exact .heads (ha.value.symm ▸ hhead) hnew
    | sets hhead hcurrent hparts hname hfree =>
      exact .sets (ha.value.symm ▸ hhead) hcurrent (ha.value.symm ▸ hparts) hname hfree

end Reader

/-! ## Lines in a row -/

open Reader

variable {r r' s m : Reader} {ls ls' : List (List Char)} {cs : List Char}

/-- the lines, whatever their numbers, lead from one reader to another, and none is refused or noted -/
inductive Reads : Reader → List (List Char) → Reader → Prop where
  | nil {r : Reader} : Reads r [] r
  | cons {r m r' : Reader} {number : Nat} {cs : List Char} {ls : List (List Char)} :
      Turns r ⟨number, cs⟩ m → Reads m ls r' → Reads r (cs :: ls) r'

theorem foldlM_step_eq_ok_iff (n : Nat) (ls : List (List Char)) (r r' : Reader) :
    (numbered n ls).foldlM step r = .ok r' ∧ r'.malformed = [] ↔ r.malformed = [] ∧ Reads r ls r' := by
  induction ls generalizing n r with
  | nil =>
    constructor
    · rintro ⟨h, hmalformed⟩
      obtain rfl := Except.ok.inj h
      exact ⟨hmalformed, .nil⟩
    · rintro ⟨hmalformed, h⟩
      cases h
      exact ⟨rfl, hmalformed⟩
  | cons cs ls ih =>
    rw [numbered, List.foldlM_cons]
    constructor
    · rintro ⟨h, hmalformed⟩
      cases hstep : r.step ⟨n, cs⟩ with
      | error e => simp [hstep, bind, Except.bind] at h
      | ok m =>
        rw [hstep] at h
        obtain ⟨hm, hreads⟩ := (ih (n + 1) m).1 ⟨h, hmalformed⟩
        obtain ⟨hr, hturns⟩ := step_eq_ok_iff.1 ⟨hstep, hm⟩
        exact ⟨hr, .cons hturns hreads⟩
    · rintro ⟨hr, h⟩
      cases h with
      | cons hturns hreads =>
        obtain ⟨hstep, hm⟩ := step_eq_ok_iff.2 ⟨hr, hturns.alike (Line.alike_number _ n cs)⟩
        rw [hstep]
        exact (ih (n + 1) _).2 ⟨hm, hreads⟩

/-- there is one reader that lines lead to -/
theorem Reads.unique (hr : r.malformed = []) (h : Reads r ls r') (h' : Reads r ls s) : r' = s := by
  have hfirst := ((foldlM_step_eq_ok_iff 0 ls r r').2 ⟨hr, h⟩).1
  have hsecond := ((foldlM_step_eq_ok_iff 0 ls r s).2 ⟨hr, h'⟩).1
  exact Except.ok.inj (hfirst.symm.trans hsecond)

theorem reads_append : Reads r (ls ++ ls') r' ↔ ∃ m, Reads r ls m ∧ Reads m ls' r' := by
  induction ls generalizing r with
  | nil =>
    constructor
    · intro h
      exact ⟨r, .nil, h⟩
    · rintro ⟨m, h, h'⟩
      cases h
      exact h'
  | cons cs ls ih =>
    constructor
    · intro h
      cases h with
      | cons hturns hreads =>
        obtain ⟨m, hm, h'⟩ := ih.1 hreads
        exact ⟨m, .cons hturns hm, h'⟩
    · rintro ⟨m, h, h'⟩
      cases h with
      | cons hturns hreads => exact .cons hturns (ih.2 ⟨m, hreads, h'⟩)

theorem reads_singleton : Reads r [cs] r' ↔ ∃ n, Turns r ⟨n, cs⟩ r' := by
  constructor
  · intro h
    cases h with
    | cons hturns hreads =>
      cases hreads
      exact ⟨_, hturns⟩
  · rintro ⟨n, h⟩
    exact .cons h .nil

/-- the line feed of the last line does not count -/
theorem reads_lineFeed (l : List Char) : Reads r (ls ++ [l ++ ['\n']]) r' ↔ Reads r (ls ++ [l]) r' := by
  simp only [reads_append, reads_singleton]
  constructor
  · rintro ⟨m, hreads, n, hturns⟩
    exact ⟨m, hreads, n, hturns.alike (Line.alike_lineFeed n n l).symm⟩
  · rintro ⟨m, hreads, n, hturns⟩
    exact ⟨m, hreads, n, hturns.alike (Line.alike_lineFeed n n l)⟩

/-! ## Texts -/

/-- the settings that a reader has so far -/
def Reader.settings (r : Reader) : Settings :=
  ⟨r.headings, r.allEntries.map Entry.setting⟩

/-- a text has settings where its lines can be read -/
theorem read_eq_ok_iff {text : String} {s : Settings} :
    read text = .ok s ↔ ∃ r, Reads start (textLines text.toList) r ∧ r.settings = s := by
  have hlines : linesOf text.toList = numbered 1 (textLines text.toList) := rfl
  rw [read, hlines]
  constructor
  · intro h
    cases hfold : (numbered 1 (textLines text.toList)).foldlM step start with
    | error e => simp [hfold, bind, Except.bind] at h
    | ok r =>
      simp only [hfold, bind, Except.bind, finish] at h
      cases hmalformed : r.malformed with
      | cons l ls => simp [hmalformed] at h
      | nil =>
        rw [hmalformed] at h
        obtain ⟨-, hreads⟩ := (foldlM_step_eq_ok_iff _ _ _ _).1 ⟨hfold, hmalformed⟩
        exact ⟨r, hreads, Except.ok.inj h⟩
  · rintro ⟨r, hreads, rfl⟩
    obtain ⟨hfold, hmalformed⟩ := (foldlM_step_eq_ok_iff 1 _ start r).2 ⟨rfl, hreads⟩
    simp only [hfold, bind, Except.bind, finish, hmalformed]
    rfl

end TextGrammar.Settings
