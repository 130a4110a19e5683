import TextGrammar.Session
import TextGrammar.Settings
import TextGrammar.Proofs.Content
import TextGrammar.Proofs.Unparse
import TextGrammar.Proofs.Limit
import TextGrammar.Proofs.Concatenation
import TextGrammar.Proofs.Sessions
import TextGrammar.Proofs.Literals
import TextGrammar.Proofs.Respelling
import TextGrammar.Proofs.ControlWords
import TextGrammar.Proofs.Passage
import TextGrammar.Proofs.Spelling
import TextGrammar.Proofs.Separation
import TextGrammar.Proofs.Logging
import TextGrammar.Proofs.Unstructured
import TextGrammar.Proofs.TextRuns
import TextGrammar.Proofs.Failures
import TextGrammar.Proofs.Remarks
import TextGrammar.Proofs.Progress
import TextGrammar.Proofs.Comments
import TextGrammar.Proofs.Sections
import TextGrammar.Proofs.ReadBack
