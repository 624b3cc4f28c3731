import MarkdownFences.Text.Pattern
import MarkdownFences.Text.Digit

namespace MarkdownFences.Snippet

open Text Text.Pattern

/-- Content with more lines than this, and no code punctuation, reads as prose. -/
def proseLines : Nat := 3

def descriptiveStart : Pattern :=
  seq (words ["Issue", "Description", "Labels", "Created", "This", "Add", "Generate", "Reads",
    "Corresponding", "Analyzing", "Checked", "Suggested", "Category", "Motivation", "Proposed",
    "Estimated", "Create this"])
    (ahead (one fun c => isBlank c || c == ':'))

def labelLine : Pattern :=
  sequence [one isAsciiUpper, many (noneOf ":\n"), char ':', blank]

def isCodePunctuation (c : Char) : Bool := "\x7b\x7d();=".toList.contains c

def issueNumber : Pattern :=
  sequence [literal "Issue", blanks1, char '#', many1 (one isDigit)]

def slashCommand : Pattern :=
  sequence [alt lineStart blank, char '/', one isAsciiLower,
    many (one fun c => isWordChar c || c == '-')]

def suggestedHeading : Pattern := sequence [literal "##", blanks1, literal "Suggested"]

def anyLink : Pattern :=
  sequence [char '[', many (noneOf "]"), literal "](", many (noneOf ")"), char ')']

def lineCount (t : Text) : Nat := (lines (trim t)).length

def startsDescriptive (t : Text) : Bool := descriptiveStart.startsText (trim t)

def hasLabelLine (t : Text) : Bool := labelLine.startsText (trim t)

def lacksCodePunctuation (t : Text) : Bool := !t.any isCodePunctuation

def readsAsProse (t : Text) : Bool :=
  startsDescriptive t ||
    (lacksCodePunctuation t && (hasLabelLine t || proseLines < lineCount t))

def readsAsIssueText (t : Text) : Bool :=
  let t := trim t
  startsDescriptive t || hasLabelLine t || issueNumber.occursIn t || slashCommand.occursIn t ||
    suggestedHeading.startsText t ||
    (Text.occursIn "[Yes/No]".toList t && Text.occursIn "Create this".toList t)

end MarkdownFences.Snippet
