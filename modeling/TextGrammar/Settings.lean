/-
The settings of the parser.

Two options of the section `PARSER` count: `max_depth`, the limit on nesting, and `debug`, whether entries for
debugging reach the log. An option that is not set has its default, and a value is expanded and read only when it is
asked for.

- `Settings.maxDepth` is a positive integer, or says why there is none; `Settings.debug` is a word for yes or no.
- `Settings.parse` is the report on a source under the settings. Without a log nothing is reported and `debug` is not
  asked for; with one, entries for debugging are left out unless `debug` is set.
-/
import TextGrammar.Document
import TextGrammar.Number.Integer
import TextGrammar.Settings.File
import TextGrammar.Settings.Template

namespace TextGrammar

/-- an option of the parser -/
inductive ParserOption where
  | maxDepth | debug
  deriving DecidableEq

/-- the name of the option in a file -/
def ParserOption.name : ParserOption → String
  | maxDepth => "max_depth"
  | debug => "debug"

namespace Settings

/-- the section that holds the options of the parser -/
def parserHeading : String := "PARSER"

/-- why a setting has no value -/
inductive SettingError where
  /-- the raw value of the option cannot be expanded -/
  | unexpandable (option : ParserOption) (raw : String) (e : ExpandError)
  | notInteger (text : String)
  | notPositive (n : Int)
  | notBoolean (text : String)
  deriving DecidableEq

/-- the wording for a raw value that cannot be expanded -/
def ExpandError.message (option : ParserOption) (raw : String) : ExpandError → String
  | lonePercent rest => "'%' must be followed by '%' or '(', found: " ++ Text.quoted rest
  | badReference rest => "bad interpolation variable reference " ++ Text.quoted rest
  | unknownOption name =>
    "Bad value substitution: option " ++ Text.quoted option.name ++ " in section " ++ Text.quoted parserHeading ++
      " contains an interpolation key " ++ Text.quoted name ++ " which is not a valid option name. Raw value: " ++
      Text.quoted raw
  | tooDeep =>
    "Recursion limit exceeded in value substitution: option " ++ Text.quoted option.name ++ " in section " ++
      Text.quoted parserHeading ++ " contains an interpolation key which cannot be substituted in " ++
      Nat.repr expandLimit ++ " steps. Raw value: " ++ Text.quoted raw

/-- how much of a quoted value the message on a bad integer shows -/
def shownLength : Nat := 200

/-- the wording of the error -/
def SettingError.message : SettingError → String
  | unexpandable option raw e => e.message option raw
  | notInteger text =>
    "invalid literal for int() with base 10: " ++ String.ofList ((Text.quoted text).toList.take shownLength)
  | notPositive n => "[" ++ parserHeading ++ "] max_depth must be positive, got " ++ Int.repr n
  | notBoolean text => "Not a boolean: " ++ text

/-- the text of an option of the parser, if it is set -/
def text (s : Settings) (option : ParserOption) : Except SettingError (Option String) :=
  match s.value? parserHeading option.name with
  | none => .ok none
  | some raw =>
    match expand (s.find? parserHeading) raw with
    | .ok text => .ok (some text)
    | .error e => .error (.unexpandable option raw e)

/-- the limit on nesting -/
def maxDepth (s : Settings) : Except SettingError Nat := do
  match ← s.text .maxDepth with
  | none => return defaultLimit
  | some text =>
    match Number.integer? text.toList with
    | none => .error (.notInteger text)
    | some n => if n < 1 then .error (.notPositive n) else return n.toNat

/-- the words for yes -/
def yesWords : List String := ["1", "yes", "true", "on"]

/-- the words for no -/
def noWords : List String := ["0", "no", "false", "off"]

/-- a word for yes or no in any letter case -/
def boolean? (text : String) : Option Bool :=
  let word := Text.lowercase text
  if word ∈ yesWords then some true
  else if word ∈ noWords then some false
  else none

/-- do entries for debugging reach the log? -/
def debug (s : Settings) : Except SettingError Bool := do
  match ← s.text .debug with
  | none => return false
  | some text =>
    match boolean? text with
    | some b => return b
    | none => .error (.notBoolean text)

/-- the report on a source; `logging` tells whether there is a log -/
def parse (s : Settings) (logging : Bool) (source : String) : Except SettingError Report := do
  let limit ← s.maxDepth
  let report := build limit (Source.tokens source)
  if logging then
    if ← s.debug then return report
    else return { report with log := report.log.filter (!·.isDebug) }
  else return { report with log := [] }

end Settings

end TextGrammar
