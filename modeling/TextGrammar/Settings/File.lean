/-
Settings files: sections of options.

A file is read line by line (`Reader.step`).

- A line that heads a section makes it the current one. No section may be headed twice, apart from the shared section,
  whose options stand in for every other section.
- A line indented deeper than the last heading or option goes on with the value of the option being read, and so does
  an empty line without a comment. A comment line changes nothing.
- Any other line sets an option of the current section, under its name in lower case. An option is set once in a
  section.

A line that is none of these is noted, and so is an option without a name; reading goes on, and the file is refused at
its end. `Settings.read` gives the settings of a whole text.
-/
import TextGrammar.Settings.Line
import TextGrammar.Text.Lowercase
import TextGrammar.Text.Quoted

namespace TextGrammar

/-- an option of a section and its value -/
structure Setting where
  heading : String
  option : String
  value : String
  deriving DecidableEq

/-- what a file sets: its sections, apart from the shared one, and its options -/
structure Settings where
  headings : List String
  entries : List Setting
  deriving DecidableEq

namespace Settings

/-- no sections and no options -/
def empty : Settings := ⟨[], []⟩

/-- the section whose options stand in for every other section -/
def sharedHeading : String := "DEFAULT"

/-! ## What makes a file unreadable -/

/-- why a file cannot be read -/
inductive LoadError where
  /-- the file is not in UTF-8 -/
  | notUnicode
  /-- an option or something else stands in front of the first heading -/
  | noHeading (l : Line)
  | repeatedHeading (number : Nat) (heading : String)
  | repeatedOption (number : Nat) (heading option : String)
  /-- lines that say nothing, or set an option without a name -/
  | malformed (ls : List Line)
  deriving DecidableEq

/-- a line number with a blank in front of a single digit -/
def lineNumber (n : Nat) : String :=
  "[line " ++ String.ofList ((Nat.toDigits 10 n).leftpad 2 ' ') ++ "]"

/-- a whole line between quotes -/
def quotedLine (l : Line) : String :=
  Text.quoted (String.ofList l.chars)

/-- the wording for a file of the given name; a file that is no text has none of its own -/
def LoadError.message (file : String) (e : LoadError) : Option String :=
  let path := "PosixPath(" ++ Text.quoted file ++ ")"
  match e with
  | notUnicode => none
  | noHeading l => some <|
    "File contains no section headers.\nfile: " ++ path ++ ", line: " ++ Nat.repr l.number ++ "\n" ++ quotedLine l
  | repeatedHeading number heading => some <|
    "While reading from " ++ path ++ " " ++ lineNumber number ++ ": section " ++ Text.quoted heading ++
      " already exists"
  | repeatedOption number heading option => some <|
    "While reading from " ++ path ++ " " ++ lineNumber number ++ ": option " ++ Text.quoted option ++
      " in section " ++ Text.quoted heading ++ " already exists"
  | malformed ls => some <|
    "Source contains parsing errors: " ++ path ++
      String.join (ls.map fun l => "\n\t" ++ lineNumber l.number ++ ": " ++ quotedLine l)

/-! ## Reading -/

/-- an option being read, with the lines of its value so far -/
structure Entry where
  heading : String
  option : String
  lines : List (List Char)
  deriving DecidableEq

namespace Entry

/-- the option with one more line -/
def add (e : Entry) (line : List Char) : Entry :=
  { e with lines := e.lines ++ [line] }

/-- the option with its lines joined, and without blanks at the end -/
def setting (e : Entry) : Setting :=
  ⟨e.heading, e.option, String.ofList (Text.trimEnd (['\n'].intercalate e.lines))⟩

end Entry

/-- what the reading remembers between lines -/
structure Reader where
  /-- the sections so far, apart from the shared one -/
  headings : List String
  /-- the current section -/
  current : Option String
  /-- the indent of the last heading or option -/
  indent : Nat
  /-- the options whose values are complete -/
  entries : List Entry
  /-- the option whose value may go on -/
  pending : Option Entry
  /-- the lines that were noted -/
  malformed : List Line
  deriving DecidableEq

namespace Reader

/-- in front of the first line -/
def start : Reader := ⟨[], none, 0, [], none, []⟩

/-- the options so far -/
def allEntries (r : Reader) : List Entry :=
  r.entries ++ r.pending.toList

/-- the reader with one more line for the pending option, if that has a name -/
def extend? (r : Reader) (line : List Char) : Option Reader :=
  match r.pending with
  | none => none
  | some e => if e.option = "" then none else some { r with pending := some (e.add line) }

/-- no option is pending any more, and the given section is current -/
def enter (r : Reader) (heading : String) : Reader :=
  { r with current := some heading, entries := r.allEntries, pending := none }

/-- after a line that heads a section -/
def onHeading (r : Reader) (number : Nat) (heading : String) : Except LoadError Reader :=
  if heading ∈ r.headings then .error (.repeatedHeading number heading)
  else if heading = sharedHeading then .ok (r.enter heading)
  else .ok { r.enter heading with headings := r.headings ++ [heading] }

/-- after a line that sets an option of the given section -/
def onOption (r : Reader) (l : Line) (heading option : String) (value : List Char) : Except LoadError Reader :=
  if r.allEntries.any fun e => e.heading = heading && e.option = option then
    .error (.repeatedOption l.number heading option)
  else .ok { r with
    entries := r.allEntries
    pending := some ⟨heading, option, [value]⟩
    malformed := if option = "" then r.malformed ++ [l] else r.malformed }

/-- after a line that does not go on with a value -/
def onFresh (r : Reader) (l : Line) : Except LoadError Reader :=
  match Line.heading? l.value with
  | some heading => r.onHeading l.number heading
  | none =>
    match r.current with
    | none => .error (.noHeading l)
    | some heading =>
      match Line.assignment? l.value with
      | none => .ok { r with malformed := r.malformed ++ [l] }
      | some (name, value) =>
        r.onOption l heading (Text.lowercase (String.ofList (Text.trimEnd name))) (Text.trim value)

/-- after one more line -/
def step (r : Reader) (l : Line) : Except LoadError Reader :=
  if l.value = [] then
    .ok (if l.commented then r else (r.extend? []).getD r)
  else
    let continued := if r.indent < l.indent then r.extend? l.value else none
    match continued with
    | some r' => .ok r'
    | none => { r with indent := l.indent }.onFresh l

/-- the settings at the end of a file -/
def finish (r : Reader) : Except LoadError Settings :=
  match r.malformed with
  | [] => .ok ⟨r.headings, r.allEntries.map Entry.setting⟩
  | ls => .error (.malformed ls)

end Reader

/-- the settings of a text -/
def read (text : String) : Except LoadError Settings := do
  let r ← (linesOf text.toList).foldlM Reader.step Reader.start
  r.finish

/-- the settings of a file, which has to be in UTF-8; a file that is not there sets nothing -/
def load : Option ByteArray → Except LoadError Settings
  | none => .ok empty
  | some bytes =>
    match String.fromUTF8? bytes with
    | some text => read text
    | none => .error .notUnicode

/-! ## Looking up -/

/-- the value of an option in a section or, failing that, in the shared section -/
def find? (s : Settings) (heading option : String) : Option String :=
  let among (h : String) := s.entries.find? fun e => e.heading = h && e.option = option
  ((among heading).or (among sharedHeading)).map (·.value)

/-- the value of an option in a section that the file has -/
def value? (s : Settings) (heading option : String) : Option String :=
  if heading ∈ s.headings then s.find? heading option else none

end Settings

end TextGrammar
