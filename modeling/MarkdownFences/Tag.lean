import MarkdownFences.Language
import MarkdownFences.Snippet.Markup
import MarkdownFences.Snippet.Script

namespace MarkdownFences.Tag

open Text Text.Pattern Snippet

def aliases : List (String × Language) :=
  [("sh", .bash), ("shell", .bash), ("zsh", .bash), ("js", .javascript), ("jsx", .javascript),
    ("mjs", .javascript), ("cjs", .javascript), ("ts", .typescript), ("tsx", .typescript),
    ("mts", .typescript), ("cts", .typescript), ("md", .markdown), ("txt", .text),
    ("plaintext", .text), ("plain", .text)]

def plain (tag : Text) : Text := lower (trim tag)

/-- A tag as it is compared: plain, and under the main name of its language if it is an alias. -/
def canonical (tag : Text) : Text :=
  match aliases.find? fun a => a.1.toList == plain tag with
  | some a => a.2.tag
  | none => plain tag

/-- Tags that say more than the name of a language and are never questioned. -/
def isTrusted (tag : Text) : Bool := ["jsx", "tsx"].any fun s => s.toList == plain tag

def onlyHashComments (t : Text) : Bool :=
  !(fullLines t).isEmpty && (fullLines t).all fun l => l.head? = some '#'

def onlySlashComments (t : Text) : Bool :=
  !(fullLines t).isEmpty && (fullLines t).all fun l =>
    "//".toList.isPrefixOf l || "/*".toList.isPrefixOf l || l.head? = some '*' || endsComment l

def hasMarkup (t : Text) : Bool :=
  badge.occursIn t || link.occursIn t || heading.startsText (trim t)

def moduleSyntax : Pattern :=
  choice [sequence [lineStart, blanks, literal "import", blanks1],
    sequence [lineStart, blanks, literal "export", blanks1],
    sequence [literal "from", blanks1, anyOf "'\"", many1 (noneOf "'\""), anyOf "'\""]]

def requireSyntax : Pattern :=
  alt (sequence [literal "module.exports", blanks, char '='])
    (sequence [literal "require", blanks, char '('])

/-- Of the name before the point in a call only the last character is looked for. -/
def scriptSyntax : Pattern :=
  choice [sequence [char '\x7b', many (one fun _ => true), char '\x7d'],
    sequence [literal "function", blanks1, name],
    sequence [wordEdge, words ["const", "let", "var"], blanks1, name],
    sequence [literal "=>", blanks, char '\x7b'],
    sequence [wordChar, char '.', name, char '(']]

/-- A declared and a detected language that may stand together although they differ. -/
structure Tolerance where
  name : String
  declared : List Language
  detected : List Language
  applies : Text → Bool

def always (_ : Text) : Bool := true

def tolerances : List Tolerance := [
  ⟨"bash-comments", [.bash], [.text], onlyHashComments⟩,
  ⟨"markdown-markup", [.markdown], [.text], hasMarkup⟩,
  ⟨"script-comments", [.javascript, .typescript], [.text], onlySlashComments⟩,
  ⟨"script-es-modules", [.javascript, .typescript], [.bash], moduleSyntax.occursIn⟩,
  ⟨"javascript-commonjs", [.javascript], [.bash], requireSyntax.occursIn⟩,
  ⟨"text-shows-commands", [.text], [.bash], always⟩,
  ⟨"script-js-syntax", [.javascript, .typescript], [.bash], scriptSyntax.occursIn⟩,
  ⟨"javascript-with-ts-hints", [.javascript], [.typescript], always⟩,
  ⟨"simple-markdown", [.markdown], [.text, .bash], always⟩]

def Tolerance.accepts (r : Tolerance) (declared detected : Language) (t : Text) : Bool :=
  r.declared.contains declared && r.detected.contains detected && r.applies t

/-- The rows that accept a pair of tags. Tags outside the vocabulary have none. -/
def accepting (declared detected t : Text) : List Tolerance :=
  match Language.ofTag? declared, Language.ofTag? detected with
  | some a, some b => tolerances.filter fun r => r.accepts a b t
  | _, _ => []

def isCompatible (declared detected t : Text) : Bool := !(accepting declared detected t).isEmpty

end MarkdownFences.Tag
